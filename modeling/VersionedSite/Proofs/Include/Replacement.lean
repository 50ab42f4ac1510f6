import Mathlib.Data.List.Chain
import VersionedSite.Include.Expansion
import VersionedSite.Proofs.Include.Directive
import VersionedSite.Proofs.Text.Scan

/-!
# What directives are replaced with

A content is plain text with directives in it, each followed by more plain text (`Segment`). Unless two
directives in a row run into each other, expanding it keeps the texts and replaces every directive with
what its own path comes to (`expand_source`). Two that have nothing blank between their paths are taken
for one (`expand_adjacent`).

* `scan_source`: the pieces of such a content.
* `resolution_iff`: below the limit on includes, an answer is what the path comes to.
-/

namespace VersionedSite.Include

open Text

/-- A directive and the plain text behind it. -/
structure Segment where
  directive : Spelling
  text : List Char
  plain : Plain text

/-- The text of a row of segments. -/
def source (segments : List Segment) : List Char :=
  segments.flatMap fun s => s.directive.text ++ s.text

/-- Whether a segment does not run into the next one. -/
def Segment.Apart (s s' : Segment) : Prop := ¬s.directive.Merges s.text s'.directive

instance : DecidableRel Segment.Apart := fun s s' =>
  inferInstanceAs (Decidable ¬s.directive.Merges s.text s'.directive)

variable {read : Reader} {limits : Limits} {levels : Nat} {chain : List String}
  {deeper : List String → List Char → Progress → List Char × Progress}

/-! ## Pieces -/

theorem directive?_of_after?_eq_none {s : List Char} (h : after? opening s = none) :
    directive? s = none := by
  have hopen : after? "<!--".toList s = none := h
  rw [directive?, hopen]
  rfl

/-- A text without marks is passed over, up to its end or to the next mark. -/
theorem scan_plain {t rest : List Char} (ht : mentions opening t = false)
    (hrest : ∀ c, rest.head? = some c → c = '<') :
    scan directive? (t ++ rest) = t.map .char ++ scan directive? rest := by
  refine scan_append_of_none fun v hv hne => directive?_of_after?_eq_none ?_
  obtain ⟨u, rfl⟩ := hv
  obtain ⟨c, v, rfl⟩ := List.exists_cons_of_ne_nil hne
  refine after?_cons_append_eq_none (not_mentions_cons.1 (not_mentions_of_append ht)).1 fun d hd => ?_
  rw [hrest d hd]
  decide

theorem scan_text {d : Spelling} {rest : List Char} (h : d.Ends rest) :
    scan directive? (d.text ++ rest) = .hit d.directive :: scan directive? rest :=
  scan_append_of_some (List.cons_ne_nil _ _) (d.directive?_text_iff.2 h)

theorem head?_source (segments : List Segment) : ∀ c, (source segments).head? = some c → c = '<' := by
  intro c hc
  cases segments with
  | nil => cases hc
  | cons s segments =>
    cases hc
    rfl

theorem scan_source {t : List Char} (ht : Plain t) {segments : List Segment}
    (h : segments.IsChain Segment.Apart) :
    scan directive? (t ++ source segments) =
      t.map .char ++
        segments.flatMap fun s => .hit s.directive.directive :: s.text.map .char := by
  induction segments generalizing t with
  | nil =>
    rw [scan_plain ht.opening (head?_source [])]
    rfl
  | cons s segments ih =>
    have hends : s.directive.Ends (s.text ++ source segments) := by
      cases segments with
      | nil =>
        rw [source, List.flatMap_nil, List.append_nil]
        exact s.directive.ends_plain s.plain
      | cons s' segments =>
        rw [source, List.flatMap_cons, List.append_assoc]
        exact (s.directive.ends_iff s.plain s'.directive).2 (List.isChain_cons_cons.1 h).1
    have hsource : source (s :: segments) = s.directive.text ++ (s.text ++ source segments) := by
      rw [source, List.flatMap_cons, List.append_assoc, ← source]
    rw [scan_plain ht.opening (head?_source _), hsource, scan_text hends, ih s.plain (List.isChain_cons.1 h).2,
      List.flatMap_cons, List.cons_append]

/-! ## Answers -/

/-- What a path that is written in the content of the last path of `chain` comes to. -/
inductive Resolution (read : Reader) (chain : List String)
    (deeper : List String → List Char → Progress → List Char × Progress) (written : String)
    (p : Progress) : List Char × Progress → Prop where
  | refused (h : Path.normalize? .document written = none) :
      Resolution read chain deeper written p
        ((missingPlaceholder written).toList, p.complain (.refused written))
  | circular {path : String} (h : Path.normalize? .document written = some path)
      (hc : path ∈ chain) :
      Resolution read chain deeper written p
        ((circularPlaceholder path).toList, p.complain (.circular path))
  | missing {path : String} (h : Path.normalize? .document written = some path)
      (hc : path ∉ chain) (hr : read.content? path = none) :
      Resolution read chain deeper written p
        ((missingPlaceholder path).toList, (p.following path).complain (.missing path))
  | included {path content : String} (h : Path.normalize? .document written = some path)
      (hc : path ∉ chain) (hr : read.content? path = some content) :
      Resolution read chain deeper written p
        (deeper (chain ++ [path]) content.toList (p.following path))

/-- Below the limit on includes, a directive is answered with what its path comes to. -/
theorem resolution_iff {d : Directive} {p : Progress} (hp : (p.includes : Int) < limits.includes)
    {r : List Char × Progress} :
    Resolution read chain deeper (String.ofList d.path) p r ↔
      answer read limits chain deeper d p = r := by
  have hanswer : answer read limits chain deeper d p = _ := if_neg (Int.not_le.2 hp)
  rw [hanswer]
  dsimp only
  constructor
  · rintro (h | ⟨h, hc⟩ | ⟨h, hc, hr⟩ | ⟨h, hc, hr⟩)
    · simp [h]
    · simp [h, hc]
    · simp [h, hc, hr]
    · simp [h, hc, hr]
  · rintro rfl
    cases h : Path.normalize? .document (String.ofList d.path) with
    | none => exact .refused h
    | some path =>
      by_cases hc : path ∈ chain
      · simpa [hc] using .circular h hc
      · cases hr : read.content? path with
        | none => simpa [hc, hr] using .missing h hc hr
        | some content => simpa [hc, hr] using .included h hc hr

/-- A row of segments with each directive replaced: with what its path comes to or, once the limit on
includes is reached, with itself. -/
inductive Replaced (read : Reader) (limits : Limits) (chain : List String)
    (deeper : List String → List Char → Progress → List Char × Progress) :
    List Segment → Progress → List Char × Progress → Prop where
  | done (p : Progress) : Replaced read limits chain deeper [] p ([], p)
  | resolved {s : Segment} {segments : List Segment} {p p' q : Progress} {a out : List Char}
      (hp : (p.includes : Int) < limits.includes)
      (ha : Resolution read chain deeper (String.ofList s.directive.path) p (a, p'))
      (h : Replaced read limits chain deeper segments p' (out, q)) :
      Replaced read limits chain deeper (s :: segments) p (a ++ (s.text ++ out), q)
  | capped {s : Segment} {segments : List Segment} {p q : Progress} {out : List Char}
      (hp : (p.includes : Int) ≥ limits.includes)
      (h : Replaced read limits chain deeper segments
        (p.complain (.includesReached limits.includes)) (out, q)) :
      Replaced read limits chain deeper (s :: segments) p
        (s.directive.text ++ (s.text ++ out), q)

theorem foldl_assemble_text (answerOne : Directive → Progress → List Char × Progress)
    (t out : List Char) (p : Progress) :
    (t.map Piece.char).foldl (assemble answerOne) (out, p) = (t.reverse ++ out, p) := by
  induction t generalizing out with
  | nil => rfl
  | cons c t ih =>
    rw [List.map_cons, List.foldl_cons, assemble, ih, List.reverse_cons, List.append_assoc]
    rfl

/-- The pieces of segments, put together behind what is there already. -/
theorem exists_replaced
    (deeper : List String → List Char → Progress → List Char × Progress)
    (segments : List Segment) (out : List Char) (p : Progress) :
    ∃ r, Replaced read limits chain deeper segments p r ∧
      (segments.flatMap fun s => .hit s.directive.directive :: s.text.map .char).foldl
        (assemble (answer read limits chain deeper)) (out, p) = (r.1.reverse ++ out, r.2) := by
  induction segments generalizing out p with
  | nil => exact ⟨_, .done p, rfl⟩
  | cons s segments ih =>
    obtain ⟨a, p', ha⟩ : ∃ a p', answer read limits chain deeper s.directive.directive p = (a, p') :=
      ⟨_, _, rfl⟩
    obtain ⟨r, hr, hfold⟩ := ih (s.text.reverse ++ (a.reverse ++ out)) p'
    refine ⟨(a ++ (s.text ++ r.1), r.2), ?_, ?_⟩
    · by_cases hp : (p.includes : Int) < limits.includes
      · exact .resolved hp ((resolution_iff hp).2 ha) hr
      · have hcapped : answer read limits chain deeper s.directive.directive p =
            (s.directive.text, p.complain (.includesReached limits.includes)) :=
          if_pos (Int.not_lt.1 hp)
        obtain ⟨rfl, rfl⟩ := Prod.mk.inj (ha.symm.trans hcapped)
        exact .capped (Int.not_lt.1 hp) hr
    · rw [List.flatMap_cons, List.foldl_append, List.foldl_cons, assemble, ha,
        foldl_assemble_text, hfold]
      simp

/-! ## Contents -/

/-- Above the depth limit, a content whose directives do not run into each other keeps its plain texts,
and each directive is replaced. -/
theorem expand_source {t : List Char} (ht : Plain t) {segments : List Segment}
    (h : segments.IsChain Segment.Apart) (p : Progress) :
    ∃ out q, expand read limits (levels + 1) chain (t ++ source segments) p = (t ++ out, q) ∧
      Replaced read limits chain (expand read limits levels) segments p (out, q) := by
  obtain ⟨r, hr, hfold⟩ := exists_replaced (expand read limits levels) segments t.reverse p
  refine ⟨r.1, r.2, ?_, hr⟩
  rw [expand, scan_source ht h, List.foldl_append, foldl_assemble_text, List.append_nil, hfold]
  simp

/-- Two files to include. -/
def twoFiles : Reader
  | "a.html" => some "A"
  | "b.html" => some "B"
  | _ => none

/-- Directives for two files, with a text between them. -/
def twoDirectives (between : List Char) (h : Plain between := by decide) : List Segment :=
  [{ directive := { lead := [], gap := [], path := "a.html".toList, tail := [] }
     text := between, plain := h },
   { directive := { lead := [], gap := [], path := "b.html".toList, tail := [] }
     text := [], plain := by decide }]

/-- A blank between them keeps the directives apart. -/
theorem expand_source_blank :
    Plain "<p>".toList ∧ (twoDirectives [' ']).IsChain Segment.Apart ∧
      ∃ out q, expand twoFiles {} 11 ["landing/index.html"]
          ("<p>".toList ++ source (twoDirectives [' '])) {} = ("<p>".toList ++ out, q) ∧
        Replaced twoFiles {} ["landing/index.html"] (expand twoFiles {} 10)
          (twoDirectives [' ']) {} (out, q) :=
  have ht : Plain "<p>".toList := by decide
  have h : (twoDirectives [' ']).IsChain Segment.Apart := by decide
  ⟨ht, h, expand_source ht h {}⟩

/-- With nothing between them, the directives are answered as one, for a path that reaches from the
first to the second. -/
theorem expand_adjacent :
    ¬∃ out q, expand twoFiles {} 11 ["landing/index.html"] (source (twoDirectives [])) {} = (out, q) ∧
      Replaced twoFiles {} ["landing/index.html"] (expand twoFiles {} 10)
        (twoDirectives []) {} (out, q) := by
  rintro ⟨out, q, he, hr⟩
  cases hr with
  | capped hp => exact absurd hp (by decide)
  | resolved hp ha _ =>
    let first : Directive := { text := "<!--include:a.html-->".toList, path := "a.html".toList }
    have hanswer : answer twoFiles {} ["landing/index.html"] (expand twoFiles {} 10) first {} = _ :=
      (resolution_iff hp).1 ha
    have hincluded :
        (answer twoFiles {} ["landing/index.html"] (expand twoFiles {} 10) first {}).1 = ['A'] := by
      decide +kernel
    have hplaceholder : (expand twoFiles {} 11 ["landing/index.html"]
        (source (twoDirectives [])) {}).1.head? = some '<' := by
      decide +kernel
    rw [hanswer] at hincluded
    cases hincluded
    rw [he] at hplaceholder
    cases hplaceholder

end VersionedSite.Include
