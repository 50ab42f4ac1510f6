import VersionedSite.Proofs.Include.Limits
import VersionedSite.Proofs.Text.Caseless
import VersionedSite.Proofs.Text.Scan

/-!
# When a document is degraded

A document is put together from the content of its entry and copies of the contents that it includes
(`Assembles`). Each directive of these contents has a content behind it or is left open: it stands there as
it was written, or a placeholder stands in for it. A document with an open directive is degraded, and so is
one with a content past the depth limit; every other one is not (`degraded_iff_of_compose`). Past the
limit that is so even of contents without directives (`compose_of_plain_beyond`).

* `Assembles.unique`: there is one way to assemble a document.
* `Yields.assembles`: what work yields, and how it is assembled.
-/

namespace VersionedSite

namespace Include

open Text

/-! ## Nothing is lost -/

theorem suffix_of_directivePath? {s path rest : List Char} (h : directivePath? s = some (path, rest)) :
    rest <:+ s := by
  have hspan : ((trimStart s).span fun c => !isBlank c).1 ++
      ((trimStart s).span fun c => !isBlank c).2 = trimStart s := by
    rw [List.span_eq_takeWhile_dropWhile]
    exact List.takeWhile_append_dropWhile
  unfold directivePath? at h
  split at h
  · cases h
  · rename_i first more run hrun
    rw [hrun] at hspan
    refine List.IsSuffix.trans ?_ (trimStart_suffix s)
    rw [← hspan]
    split at h
    · rename_i behind hbehind
      cases h
      have hclosing := eq_append_of_after? hbehind
      exact ((hclosing ▸ List.suffix_append _ _).trans (trimStart_suffix run)).trans
        (List.suffix_append _ _)
    · obtain ⟨⟨before, behind⟩, hbreak, he⟩ := Option.map_eq_some_iff.1 h
      cases he
      rw [lastBreak?_eq hbreak]
      exact ⟨first :: (before ++ closing), by simp⟩

/-- A directive is the text that is recognised. -/
theorem eq_append_of_directive? {s rest : List Char} {d : Directive}
    (h : directive? s = some (d, rest)) : s = d.text ++ rest ∧ d.text ≠ [] := by
  obtain ⟨comment, hcomment, h⟩ := Option.bind_eq_some_iff.1 h
  obtain ⟨⟨path, behind⟩, hpath, he⟩ := Option.map_eq_some_iff.1 h
  cases he
  obtain ⟨written, hwritten, hpath⟩ := Option.bind_eq_some_iff.1 hpath
  have hs := eq_append_of_after? hcomment
  have hrest : rest <:+ comment :=
    ((suffix_of_directivePath? hpath).trans (suffix_of_afterCaseless? hwritten)).trans
      (trimStart_suffix comment)
  obtain ⟨taken, rfl⟩ := hrest
  have htext : s.take (s.length - rest.length) = "<!--".toList ++ taken := by
    rw [hs, ← List.append_assoc, List.length_append, Nat.add_sub_cancel, List.take_left]
  dsimp only
  rw [htext, hs, List.append_assoc]
  exact ⟨rfl, List.cons_ne_nil _ _⟩

/-! ## Assembled documents -/

/-- What a directive is answered with. -/
inductive Answer where
  /-- The directive as it was written. -/
  | kept
  /-- A placeholder for a path that is refused or has no content. -/
  | missing (path : String)
  /-- A placeholder for a path whose content is being put in already. -/
  | circular (path : String)
  /-- The content of a path, whose parts follow. -/
  | included (path : String)
  deriving DecidableEq

/-- A part of an assembled document. -/
inductive Part where
  /-- Here begins a content, below so many includes. -/
  | copy (depth : Nat) (content : List Char)
  | char (c : Char)
  | directive (d : Directive) (a : Answer)

namespace Part

/-- What a part adds to the document. -/
def text : Part → List Char
  | copy _ _ => []
  | char c => [c]
  | directive d .kept => d.text
  | directive _ (.missing path) => (missingPlaceholder path).toList
  | directive _ (.circular path) => (circularPlaceholder path).toList
  | directive _ (.included _) => []

/-- Whether a part is a directive without a content behind it. -/
def IsOpen : Part → Prop
  | copy _ _ => False
  | char _ => False
  | directive _ a => ∀ path, a ≠ .included path

/-- Whether a part is the begin of a content past the depth limit. -/
def IsBeyond (limits : Limits) : Part → Prop
  | copy depth _ => limits.depth < depth
  | char _ => False
  | directive _ _ => False

/-- A piece of a content that is not looked into. -/
def asWritten : Piece Directive → Part
  | .char c => char c
  | .hit d => directive d .kept

end Part

/-- How work is assembled from parts, behind some includes and up to some more. -/
inductive Assembles (read : Reader) (limits : Limits) : Work → Nat → List Part → Nat → Prop where
  | beyond {chain : List String} {depth n : Nat} {text : List Char} (h : limits.depth < depth) :
      Assembles read limits (.content chain depth text) n
        (.copy depth text :: (scan directive? text).map .asWritten) n
  | content {chain : List String} {depth n m : Nat} {text : List Char} {parts : List Part}
      (h : depth ≤ limits.depth)
      (hpieces : Assembles read limits (.pieces chain depth (scan directive? text)) n parts m) :
      Assembles read limits (.content chain depth text) n (.copy depth text :: parts) m
  | finished {chain : List String} {depth n : Nat} :
      Assembles read limits (.pieces chain depth []) n [] n
  | character {chain : List String} {depth n m : Nat} {c : Char} {rest : List (Piece Directive)}
      {parts : List Part} (h : Assembles read limits (.pieces chain depth rest) n parts m) :
      Assembles read limits (.pieces chain depth (.char c :: rest)) n (.char c :: parts) m
  | answered {chain : List String} {depth n k m : Nat} {d : Directive} {rest : List (Piece Directive)}
      {parts parts' : List Part} (hd : Assembles read limits (.directive chain depth d) n parts k)
      (h : Assembles read limits (.pieces chain depth rest) k parts' m) :
      Assembles read limits (.pieces chain depth (.hit d :: rest)) n (parts ++ parts') m
  | kept {chain : List String} {depth n : Nat} {d : Directive} (h : limits.includes ≤ n) :
      Assembles read limits (.directive chain depth d) n [.directive d .kept] n
  | refused {chain : List String} {depth n : Nat} {d : Directive} (h : n < limits.includes)
      (hpath : Path.normalize? .document (String.ofList d.path) = none) :
      Assembles read limits (.directive chain depth d) n
        [.directive d (.missing (String.ofList d.path))] n
  | circular {chain : List String} {depth n : Nat} {d : Directive} {path : String}
      (h : n < limits.includes)
      (hpath : Path.normalize? .document (String.ofList d.path) = some path) (hchain : path ∈ chain) :
      Assembles read limits (.directive chain depth d) n [.directive d (.circular path)] n
  | missing {chain : List String} {depth n : Nat} {d : Directive} {path : String}
      (h : n < limits.includes)
      (hpath : Path.normalize? .document (String.ofList d.path) = some path) (hchain : path ∉ chain)
      (hread : read.content? path = none) :
      Assembles read limits (.directive chain depth d) n [.directive d (.missing path)] (n + 1)
  | included {chain : List String} {depth n m : Nat} {d : Directive} {path content : String}
      {parts : List Part} (h : n < limits.includes)
      (hpath : Path.normalize? .document (String.ofList d.path) = some path) (hchain : path ∉ chain)
      (hread : read.content? path = some content)
      (hcontent : Assembles read limits (.content (chain ++ [path]) (depth + 1) content.toList) (n + 1)
        parts m) :
      Assembles read limits (.directive chain depth d) n (.directive d (.included path) :: parts) m

variable {read : Reader} {limits : Limits} {work : Work} {n m m' : Nat} {parts parts' : List Part}

/-- There is one way to assemble work. -/
theorem Assembles.unique (h : Assembles read limits work n parts m)
    (h' : Assembles read limits work n parts' m') : parts = parts' ∧ m = m' := by
  induction h generalizing parts' m' with
  | beyond h =>
    cases h' with
    | beyond => exact ⟨rfl, rfl⟩
    | content hle => exact absurd h (Int.not_lt.2 hle)
  | content h _ ih =>
    cases h' with
    | beyond hlt => exact absurd hlt (Int.not_lt.2 h)
    | content _ hpieces =>
      obtain ⟨rfl, rfl⟩ := ih hpieces
      exact ⟨rfl, rfl⟩
  | finished => cases h'; exact ⟨rfl, rfl⟩
  | character _ ih =>
    cases h' with
    | character h' =>
      obtain ⟨rfl, rfl⟩ := ih h'
      exact ⟨rfl, rfl⟩
  | answered _ _ ihd ih =>
    cases h' with
    | answered hd' h' =>
      obtain ⟨rfl, rfl⟩ := ihd hd'
      obtain ⟨rfl, rfl⟩ := ih h'
      exact ⟨rfl, rfl⟩
  | kept h => cases h' <;> grind
  | refused h hpath => cases h' <;> grind
  | circular h hpath hchain => cases h' <;> grind
  | missing h hpath hchain hread => cases h' <;> grind
  | included h hpath hchain hread _ ih => cases h' <;> grind

/-- A content past the depth limit leaves all its directives open. -/
theorem Assembles.exists_isOpen (h : Assembles read limits work n parts m) {depth : Nat} {text : List Char}
    (hcopy : .copy depth text ∈ parts) (hbeyond : limits.depth < depth)
    (hfound : findings directive? text ≠ []) : ∃ part ∈ parts, part.IsOpen := by
  induction h with
  | beyond _ =>
    have he := (List.mem_cons.1 hcopy).resolve_right fun hpieces => by
      obtain ⟨piece, -, hpiece⟩ := List.mem_map.1 hpieces
      cases piece <;> cases hpiece
    cases he
    obtain ⟨d, hd⟩ := List.exists_mem_of_ne_nil _ hfound
    exact ⟨.directive d .kept, List.mem_cons_of_mem _ (List.mem_map_of_mem (mem_findings.1 hd)), nofun⟩
  | content hle _ ih =>
    rcases List.mem_cons.1 hcopy with he | hcopy
    · cases he
      exact absurd hbeyond (Int.not_lt.2 hle)
    · obtain ⟨part, hp, hopen⟩ := ih hcopy
      exact ⟨part, List.mem_cons_of_mem _ hp, hopen⟩
  | finished => cases hcopy
  | character _ ih =>
    obtain ⟨part, hp, hopen⟩ := ih ((List.mem_cons.1 hcopy).resolve_left nofun)
    exact ⟨part, List.mem_cons_of_mem _ hp, hopen⟩
  | answered _ _ ihd ih =>
    rcases List.mem_append.1 hcopy with hcopy | hcopy
    · obtain ⟨part, hp, hopen⟩ := ihd hcopy
      exact ⟨part, List.mem_append_left _ hp, hopen⟩
    · obtain ⟨part, hp, hopen⟩ := ih hcopy
      exact ⟨part, List.mem_append_right _ hp, hopen⟩
  | kept | refused | circular | missing => simp at hcopy
  | included _ _ _ _ _ ih =>
    obtain ⟨part, hp, hopen⟩ := ih ((List.mem_cons.1 hcopy).resolve_left nofun)
    exact ⟨part, List.mem_cons_of_mem _ hp, hopen⟩

/-- A content past the depth limit makes a difference only if it has no directive. -/
theorem Assembles.exists_isOpen_or_isBeyond_iff (h : Assembles read limits work n parts m) :
    (∃ part ∈ parts, part.IsOpen ∨ part.IsBeyond limits) ↔ (∃ part ∈ parts, part.IsOpen) ∨
      ∃ (depth : Nat) (text : List Char), .copy depth text ∈ parts ∧ limits.depth < depth ∧
        findings directive? text = [] := by
  constructor
  · rintro ⟨part, hp, hopen | hbeyond⟩
    · exact .inl ⟨part, hp, hopen⟩
    · cases part with
      | copy depth text =>
        by_cases hfound : findings directive? text = []
        · exact .inr ⟨depth, text, hp, hbeyond, hfound⟩
        · exact .inl (h.exists_isOpen hp hbeyond hfound)
      | char | directive => cases hbeyond
  · rintro (⟨part, hp, hopen⟩ | ⟨depth, text, hp, hbeyond, -⟩)
    · exact ⟨part, hp, .inl hopen⟩
    · exact ⟨_, hp, .inr hbeyond⟩

/-! ## What is computed -/

theorem text_asWritten (text : List Char) :
    ((scan directive? text).map Part.asWritten).flatMap Part.text = text := by
  rw [List.flatMap_map]
  exact flatMap_scan (fun _ => rfl) (fun _ _ _ h => eq_append_of_directive? h) text

theorem Pass.complaints_complain_ne_nil (p : Pass) (c : Complaint) :
    (p.complain c).progress.complaints ≠ [] :=
  List.ne_nil_of_mem (Progress.mem_complain p.progress c)

variable {contents : Contents} {p : Pass} {r : List Char × Pass} {visits : List Visit}

/-- What work yields is the text of the parts that it is assembled from, and it adds a complaint exactly if
one of them is open or past the depth limit. -/
theorem Yields.assembles (h : Yields contents limits.caps work p r visits)
    (hread : contents.reader p.project p.revision = read) :
    ∃ parts, Assembles read limits work p.progress.includes parts r.2.progress.includes ∧
      parts.flatMap Part.text = r.1 ∧
      (r.2.progress.complaints ≠ [] ↔
        p.progress.complaints ≠ [] ∨ ∃ part ∈ parts, part.IsOpen ∨ part.IsBeyond limits) := by
  induction h with
  | @deep chain depth text p limit hlimit hlt =>
    cases hlimit
    refine ⟨_, .beyond hlt, text_asWritten text, ?_⟩
    simp [Pass.complaints_complain_ne_nil, Part.IsBeyond, hlt]
  | @shallow chain depth text p r visits hle _ ih =>
    obtain ⟨parts, hparts, htext, hiff⟩ := ih hread
    have hdepth := enters_caps.1 hle
    refine ⟨_, .content hdepth hparts, htext, hiff.trans (or_congr_right ?_)⟩
    simp [Part.IsOpen, Part.IsBeyond, Int.not_lt.2 hdepth]
  | finished => exact ⟨[], .finished, rfl, by simp⟩
  | character _ ih =>
    obtain ⟨parts, hparts, htext, hiff⟩ := ih hread
    refine ⟨_, .character hparts, congrArg _ htext, hiff.trans (or_congr_right ?_)⟩
    simp [Part.IsOpen, Part.IsBeyond]
  | @replaced chain depth d rest p p' q text out visits visits' hd _ ihd ih =>
    have hleads := hd.leads
    obtain ⟨parts, hparts, rfl, hiff⟩ := ihd hread
    obtain ⟨parts', hparts', rfl, hiff'⟩ := ih (by rw [hleads.project_eq, hleads.revision_eq, hread])
    refine ⟨_, .answered hparts hparts', List.flatMap_append, ?_⟩
    rw [hiff', hiff, or_assoc]
    simp [or_and_right, exists_or]
  | spent hlimit hle =>
    cases hlimit
    refine ⟨_, .kept hle, by simp [Part.text], ?_⟩
    simp [Pass.complaints_complain_ne_nil, Part.IsOpen]
  | refused hfollows hpath =>
    refine ⟨_, .refused (follows_caps.1 hfollows) hpath, by simp [Part.text], ?_⟩
    simp [Pass.complaints_complain_ne_nil, Part.IsOpen]
  | circular hfollows hpath hchain =>
    refine ⟨_, .circular (follows_caps.1 hfollows) hpath hchain, by simp [Part.text], ?_⟩
    simp [Pass.complaints_complain_ne_nil, Part.IsOpen]
  | missing hfollows hpath hchain hcontent =>
    subst hread
    refine ⟨_, .missing (follows_caps.1 hfollows) hpath hchain hcontent, by simp [Part.text], ?_⟩
    simp [Pass.complaints_complain_ne_nil, Part.IsOpen]
  | included hfollows hpath hchain hcontent _ ih =>
    obtain ⟨parts, hparts, htext, hiff⟩ := ih hread
    subst hread
    refine ⟨_, .included (follows_caps.1 hfollows) hpath hchain hcontent hparts, htext, ?_⟩
    refine hiff.trans (or_congr_right ?_)
    simp [Part.IsOpen, Part.IsBeyond]

/-! ## Documents -/

/-- A document is the one thing that its contents assemble to. It is degraded exactly if a directive of
these contents is left open, as it was written or with a placeholder, or a content past the depth limit
has no directive at all. -/
theorem degraded_iff_of_compose (read : Reader) (revision : Int) (entry : String) (limits : Limits)
    {d : Document} (h : (compose read revision entry limits).document = some d) :
    ∃ content parts, read.content? entry = some content ∧
      (∀ parts', (∃ n, Assembles read limits (.content [entry] 0 content.toList) 0 parts' n) ↔
        parts' = parts) ∧
      d.content = String.ofList (parts.flatMap Part.text) ∧
      (d.degraded = true ↔ (∃ part ∈ parts, part.IsOpen) ∨
        ∃ (depth : Nat) (text : List Char), .copy depth text ∈ parts ∧ limits.depth < depth ∧
          findings directive? text = []) := by
  obtain ⟨visits, hcomposes, -⟩ := exists_composes (fun _ path _ => read path) "" revision entry limits
  have hread : Contents.reader (fun _ path _ => read path) "" revision = read := rfl
  rw [hread, h] at hcomposes
  cases hcomposes with
  | @entry content out q visits hentry hyields =>
    obtain ⟨parts, hparts, htext, hiff⟩ := hyields.assembles hread
    refine ⟨content, parts, hentry, fun parts' => ⟨?_, ?_⟩, congrArg String.ofList htext.symm, ?_⟩
    · rintro ⟨n, hn⟩
      exact (hn.unique hparts).1
    · rintro rfl
      exact ⟨_, hparts⟩
    · rw [← hparts.exists_isOpen_or_isBeyond_iff, Document.degraded_iff, ne_eq, List.map_eq_nil_iff,
        ← ne_eq, hiff, or_iff_right (not_not_intro rfl)]

/-- A file that includes one that includes a third. -/
def nested : Reader
  | "landing/index.html" => some "<!-- include: a.html -->"
  | "a.html" => some "A<!-- include: b.html -->"
  | "b.html" => some "B"
  | _ => none

/-- The second file is not looked into, so the directive in it is left open. -/
theorem degraded_iff_of_compose_left :
    ∃ d : Document, (compose nested 1 Path.documentEntry { depth := 0 }).document = some d ∧
      d.content = "A<!-- include: b.html -->" ∧
      ∃ content parts, nested.content? Path.documentEntry = some content ∧
        (∀ parts', (∃ n, Assembles nested { depth := 0 } (.content [Path.documentEntry] 0 content.toList)
          0 parts' n) ↔ parts' = parts) ∧
        d.content = String.ofList (parts.flatMap Part.text) ∧
        (d.degraded = true ↔ (∃ part ∈ parts, part.IsOpen) ∨
          ∃ (depth : Nat) (text : List Char), .copy depth text ∈ parts ∧ (0 : Int) < depth ∧
            findings directive? text = []) := by
  obtain ⟨d, hd⟩ : ∃ d, (compose nested 1 Path.documentEntry { depth := 0 }).document = some d :=
    ⟨_, rfl⟩
  refine ⟨d, hd, ?_, degraded_iff_of_compose nested 1 Path.documentEntry { depth := 0 } hd⟩
  have hcontent : (compose nested 1 Path.documentEntry { depth := 0 }).document.map Document.content =
      some "A<!-- include: b.html -->" := by decide +kernel
  rw [hd] at hcontent
  exact Option.some.inj hcontent

/-- The third file is past the limit and has no directive. All directives are replaced with contents, but
the document is degraded. -/
theorem compose_of_plain_beyond :
    ∃ d : Document, (compose nested 1 Path.documentEntry { depth := 1 }).document = some d ∧
      d.content = "AB" ∧
      ¬(d.degraded = true ↔ ∃ parts n, Assembles nested { depth := 1 }
        (.content [Path.documentEntry] 0 "<!-- include: a.html -->".toList) 0 parts n ∧
          ∃ part ∈ parts, part.IsOpen) := by
  obtain ⟨d, hd⟩ : ∃ d, (compose nested 1 Path.documentEntry { depth := 1 }).document = some d :=
    ⟨_, rfl⟩
  have hwhole : (compose nested 1 Path.documentEntry { depth := 1 }).document.map
      (fun d => (d.content, d.degraded)) = some ("AB", true) := by decide +kernel
  rw [hd, Option.map_some, Option.some.injEq, Prod.mk.injEq] at hwhole
  refine ⟨d, hd, hwhole.1, fun hiff => ?_⟩
  obtain ⟨parts, n, hparts, part, hp, hopen⟩ := hiff.1 hwhole.2
  let first : Directive := { text := "<!-- include: a.html -->".toList, path := "a.html".toList }
  let second : Directive := { text := "<!-- include: b.html -->".toList, path := "b.html".toList }
  have hsecond : Assembles nested { depth := 1 } (.directive [Path.documentEntry, "a.html"] 1 second) 1
      [.directive second (.included "b.html"), .copy 2 "B".toList, .char 'B'] 2 :=
    .included (by decide) (by decide +kernel) (by decide +kernel) rfl (.beyond (by decide))
  have hfirst : Assembles nested { depth := 1 } (.directive [Path.documentEntry] 0 first) 0
      [.directive first (.included "a.html"), .copy 1 ('A' :: second.text), .char 'A',
        .directive second (.included "b.html"), .copy 2 "B".toList, .char 'B'] 2 :=
    .included (by decide) (by decide +kernel) (by decide +kernel) rfl
      (.content (by decide) (.character (.answered hsecond .finished)))
  obtain ⟨rfl, -⟩ := hparts.unique (.content (by decide) (.answered hfirst .finished))
  simp only [List.append_nil, List.mem_cons, List.not_mem_nil, or_false] at hp
  rcases hp with rfl | rfl | rfl | rfl | rfl | rfl | rfl <;> simp [Part.IsOpen] at hopen

end Include

end VersionedSite
