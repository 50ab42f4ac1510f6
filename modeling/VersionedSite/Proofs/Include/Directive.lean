import VersionedSite.Include.Directive
import VersionedSite.Proofs.Text.Search
import VersionedSite.Proofs.Text.Trim

/-!
# Where directives end

A directive may be written with blanks in three places (`Spelling`). It is recognised up to its own end
mark exactly if the run of characters that its path begins does not go on behind the mark to another end
mark (`directive?_text_iff`). Before plain text and another directive that is so unless nothing blank
stands between the two paths (`ends_iff`).
-/

namespace VersionedSite.Include

open Text

/-- The mark that begins a comment. -/
def opening : List Char := "<!--".toList

/-- The word that tells a directive from other comments. -/
def keyword : List Char := "include:".toList

/-- A directive as it is written. -/
structure Spelling where
  /-- The blanks before the keyword. -/
  lead : List Char
  /-- The blanks behind the keyword. -/
  gap : List Char
  path : List Char
  /-- The blanks before the end mark. -/
  tail : List Char
  lead_blank : lead.all isBlank = true := by decide
  gap_blank : gap.all isBlank = true := by decide
  tail_blank : tail.all isBlank = true := by decide
  path_ne_nil : path ≠ [] := by decide
  path_solid : isSolid path = true := by decide
  closing_path : mentions closing path = false := by decide

/-- A text without the marks of comments. -/
structure Plain (t : List Char) : Prop where
  opening : mentions opening t = false
  closing : mentions closing t = false

instance (t : List Char) : Decidable (Plain t) :=
  decidable_of_iff (mentions opening t = false ∧ mentions closing t = false)
    ⟨fun ⟨ho, hc⟩ => ⟨ho, hc⟩, fun h => ⟨h.opening, h.closing⟩⟩

/-! ## The last end mark -/

theorem lastBreak?_append {mark t before behind : List Char}
    (h : lastBreak? mark t = some (before, behind)) (s : List Char) :
    lastBreak? mark (s ++ t) = some (s ++ before, behind) := by
  induction s with
  | nil => exact h
  | cons c s ih => rw [List.cons_append, lastBreak?, ih, List.cons_append]

theorem lastBreak?_eq_none {mark s : List Char} (hm : mark ≠ []) :
    lastBreak? mark s = none ↔ mentions mark s = false := by
  induction s with
  | nil => simp [lastBreak?, mentions_nil hm]
  | cons c s ih =>
    rw [not_mentions_cons, lastBreak?, ← ih]
    cases lastBreak? mark s <;> simp

theorem closing_ne_nil : closing ≠ [] := by decide

theorem isSolid_opening : isSolid opening = true := by decide

theorem isSolid_keyword : isSolid keyword = true := by decide

theorem isSolid_closing : isSolid closing = true := by decide

theorem lastBreak?_closing {s : List Char} (h : mentions closing s = false) :
    lastBreak? closing (closing ++ s) = some ([], s) := by
  have hnone := (lastBreak?_eq_none closing_ne_nil).2 h
  have hgt : after? closing ('>' :: s) = none := rfl
  have hdash : after? closing ('-' :: '>' :: s) = none := rfl
  show lastBreak? closing ('-' :: '-' :: '>' :: s) = _
  simp only [lastBreak?, hnone, hgt, hdash, Option.map_none]
  rfl

theorem head?_keyword {s : List Char} : ∀ c, (keyword ++ s).head? = some c → isBlank c = false := by
  intro c hc
  have hi : (keyword ++ s).head? = some 'i' := rfl
  rw [hi, Option.some_inj] at hc
  rw [← hc]
  decide

/-! ## Recognition -/

namespace Spelling

/-- What stands behind the path. -/
def ending (d : Spelling) : List Char := d.tail ++ closing

def text (d : Spelling) : List Char :=
  opening ++ (d.lead ++ (keyword ++ (d.gap ++ (d.path ++ d.ending))))

/-- The directive that is written. -/
def directive (d : Spelling) : Directive := { text := d.text, path := d.path }

/-- Whether the run of characters that the path begins goes on to no other end mark before a text. -/
def Ends (d : Spelling) (rest : List Char) : Prop :=
  d.tail ≠ [] ∨
    mentions closing (rest.takeWhile fun c => !isBlank c) = false ∧
      after? closing (trimStart (rest.dropWhile fun c => !isBlank c)) = none

variable (d : Spelling) {rest : List Char}

theorem isBlank_lead : ∀ c ∈ d.lead, isBlank c = true := List.all_eq_true.1 d.lead_blank

theorem isBlank_gap : ∀ c ∈ d.gap, isBlank c = true := List.all_eq_true.1 d.gap_blank

theorem isBlank_tail : ∀ c ∈ d.tail, isBlank c = true := List.all_eq_true.1 d.tail_blank

theorem exists_path : ∃ first more, d.path = first :: more ∧ isBlank first = false := by
  obtain ⟨first, more, he⟩ := List.exists_cons_of_ne_nil d.path_ne_nil
  have hsolid := isSolid_iff.1 d.path_solid
  rw [he] at hsolid
  exact ⟨first, more, he, hsolid _ List.mem_cons_self⟩

/-- The path with what follows it, behind blanks, is a run without blanks and the rest. -/
theorem trimStart_gap (s : List Char) : trimStart (d.gap ++ (d.path ++ s)) = d.path ++ s := by
  obtain ⟨first, more, he, hfirst⟩ := d.exists_path
  refine trimStart_append_eq d.isBlank_gap fun c hc => ?_
  rw [he] at hc
  cases hc
  exact hfirst

theorem trimStart_ending (s : List Char) : trimStart (d.ending ++ s) = closing ++ s := by
  rw [ending, List.append_assoc]
  exact trimStart_append_eq d.isBlank_tail fun c hc => by cases hc; rfl

/-- A blank before the end mark ends the path. -/
theorem directivePath?_of_tail (h : d.tail ≠ []) (rest : List Char) :
    directivePath? (d.gap ++ (d.path ++ (d.ending ++ rest))) = some (d.path, rest) := by
  obtain ⟨blank, blanks, ht⟩ := List.exists_cons_of_ne_nil h
  have hspan : (d.path ++ (d.ending ++ rest)).span (fun c => !isBlank c) =
      (d.path, d.ending ++ rest) := by
    refine span_eq_of_solid d.path_solid fun c hc => ?_
    rw [ending, ht] at hc
    cases hc
    exact d.isBlank_tail _ (ht ▸ List.mem_cons_self)
  obtain ⟨first, more, he, -⟩ := d.exists_path
  rw [directivePath?, trimStart_gap, hspan, he]
  simp only [trimStart_ending, after?_append]

/-- Without one, the path goes on as far as the run does, or to the last end mark inside of it. -/
theorem directivePath?_of_tail_eq_nil (h : d.tail = []) {run : List Char}
    (hrun : isSolid run = true) (hrest : ∀ c, rest.head? = some c → isBlank c = true) :
    directivePath? (d.gap ++ (d.path ++ (d.ending ++ (run ++ rest)))) =
      match after? closing (trimStart rest) with
      | some behind => some (d.path ++ (closing ++ run), behind)
      | none =>
        match lastBreak? closing run with
        | some (before, behind) => some (d.path ++ (closing ++ before), behind ++ rest)
        | none => some (d.path, run ++ rest) := by
  have hsolid : isSolid (d.path ++ (closing ++ run)) = true := by
    rw [isSolid_append, isSolid_append]
    exact ⟨d.path_solid, isSolid_closing, hrun⟩
  have hassoc : d.path ++ (d.ending ++ (run ++ rest)) = d.path ++ (closing ++ run) ++ rest := by
    simp [ending, h]
  obtain ⟨first, more, he, -⟩ := d.exists_path
  rw [directivePath?, trimStart_gap, hassoc, span_eq_of_solid hsolid hrest, he]
  simp only [List.cons_append]
  cases after? closing (trimStart rest) with
  | some behind => rfl
  | none =>
    cases hl : lastBreak? closing run with
    | some found =>
      obtain ⟨before, behind⟩ := found
      have hlast := lastBreak?_append (lastBreak?_append hl closing) more
      simp [hlast]
    | none =>
      have hlast := lastBreak?_append
        (lastBreak?_closing ((lastBreak?_eq_none closing_ne_nil).1 hl)) more
      simp [hlast]

/-- The path is recognised as it is written exactly if its run goes on to no other end mark. -/
theorem directivePath?_iff :
    directivePath? (d.gap ++ (d.path ++ (d.ending ++ rest))) = some (d.path, rest) ↔
      d.Ends rest := by
  by_cases htail : d.tail = []
  · have hstop : ∀ c, (rest.dropWhile fun c => !isBlank c).head? = some c → isBlank c = true :=
      fun _ => isBlank_of_head?_dropWhile
    have hpath := d.directivePath?_of_tail_eq_nil htail (isSolid_takeWhile rest) hstop
    rw [List.takeWhile_append_dropWhile] at hpath
    have hlonger : ∀ s, d.path ++ (closing ++ s) ≠ d.path := by
      intro s hs
      exact closing_ne_nil (List.append_eq_nil_iff.1 (List.append_right_eq_self.1 hs)).1
    rw [hpath, Ends, or_iff_right (not_not_intro htail), ← lastBreak?_eq_none closing_ne_nil]
    cases after? closing (trimStart (rest.dropWhile fun c => !isBlank c)) with
    | some behind => simp [hlonger]
    | none =>
      cases lastBreak? closing (rest.takeWhile fun c => !isBlank c) with
      | some found => simp [hlonger]
      | none => simp
  · exact iff_of_true (d.directivePath?_of_tail htail rest) (.inl htail)

/-- A directive is recognised as it is written exactly if the run that its path begins goes on to no
other end mark. -/
theorem directive?_text_iff : directive? (d.text ++ rest) = some (d.directive, rest) ↔ d.Ends rest := by
  have hopen : after? "<!--".toList (d.text ++ rest) =
      some (d.lead ++ (keyword ++ (d.gap ++ (d.path ++ (d.ending ++ rest))))) := by
    simp only [text, List.append_assoc]
    exact after?_append opening _
  have hlead : trimStart (d.lead ++ (keyword ++ (d.gap ++ (d.path ++ (d.ending ++ rest))))) =
      keyword ++ (d.gap ++ (d.path ++ (d.ending ++ rest))) :=
    trimStart_append_eq d.isBlank_lead head?_keyword
  have htext : (d.text ++ rest).take ((d.text ++ rest).length - rest.length) = d.text := by simp
  have hword := afterCaseless?_append keyword (d.gap ++ (d.path ++ (d.ending ++ rest)))
  have hread : directive? (d.text ++ rest) =
      (directivePath? (d.gap ++ (d.path ++ (d.ending ++ rest)))).map fun r =>
        ({ text := (d.text ++ rest).take ((d.text ++ rest).length - r.2.length), path := r.1 }, r.2) := by
    rw [directive?, hopen, Option.bind_some, hlead]
    exact congrArg (Option.map _) (congrArg (Option.bind · _) hword)
  rw [hread, ← directivePath?_iff, Option.map_eq_some_iff]
  constructor
  · rintro ⟨⟨path, behind⟩, hp, he⟩
    dsimp only at he
    obtain ⟨hd, rfl⟩ := Prod.mk.inj he
    rw [hp, (Directive.mk.inj hd).2]
  · intro hp
    refine ⟨_, hp, ?_⟩
    dsimp only
    rw [htext]
    rfl

/-! ## Plain text behind a directive -/

/-- Whether nothing blank stands between the paths of two directives with a text between them. -/
def Merges (t : List Char) (d' : Spelling) : Prop :=
  d.tail = [] ∧ isSolid t = true ∧ d'.lead = [] ∧ d'.gap = []

instance (t : List Char) (d' : Spelling) : Decidable (d.Merges t d') :=
  inferInstanceAs (Decidable (_ ∧ _ ∧ _ ∧ _))

/-- A run that holds no end mark, with none behind the blanks that follow it. -/
theorem ends_of_split {run : List Char} (hrun : isSolid run = true)
    (hrest : ∀ c, rest.head? = some c → isBlank c = true) (hm : mentions closing run = false)
    (ha : after? closing (trimStart rest) = none) : d.Ends (run ++ rest) := by
  have hspan := span_eq_of_solid hrun hrest
  rw [List.span_eq_takeWhile_dropWhile] at hspan
  obtain ⟨htake, hdrop⟩ := Prod.mk.inj hspan
  refine .inr ⟨?_, ?_⟩
  · rw [htake]
    exact hm
  · rw [hdrop]
    exact ha

theorem ends_plain {t : List Char} (ht : Plain t) : d.Ends t := by
  refine .inr ⟨?_, ?_⟩
  · refine not_mentions_of_append_left (t := t.dropWhile fun c => !isBlank c) ?_ closing_ne_nil
    rw [List.takeWhile_append_dropWhile]
    exact ht.closing
  · have hsuffix : trimStart (t.dropWhile fun c => !isBlank c) <:+ t :=
      (trimStart_suffix _).trans (List.dropWhile_suffix _)
    obtain ⟨s, hs⟩ := hsuffix
    have hclosing := ht.closing
    rw [← hs] at hclosing
    exact after?_of_not_mentions closing_ne_nil (not_mentions_of_append hclosing)

/-- An end mark does not begin at a path. -/
theorem after?_path (s : List Char) : after? closing (d.path ++ (d.ending ++ s)) = none := by
  have hpath := after?_of_not_mentions closing_ne_nil d.closing_path
  cases htail : d.tail with
  | cons blank blanks =>
    have hblank := d.isBlank_tail blank (htail ▸ List.mem_cons_self)
    refine after?_append_eq_none hpath fun c hc hm => ?_
    rw [ending, htail] at hc
    cases hc
    cases hblank.symm.trans (isSolid_iff.1 isSolid_closing _ hm)
  | nil =>
    rw [ending, htail, List.nil_append]
    exact after?_append_mark_eq_none (by decide) d.path_ne_nil hpath s

/-- A run that goes on from one directive through the path of another reaches the other's end mark. -/
theorem not_ends_of_merges {t : List Char} {d' : Spelling} (h : d.Merges t d') :
    ¬d.Ends (t ++ (d'.text ++ rest)) := by
  obtain ⟨htail, hsolid, hlead, hgap⟩ := h
  have hsolid' : isSolid (t ++ (opening ++ (keyword ++ d'.path))) = true := by
    rw [isSolid_append, isSolid_append, isSolid_append]
    exact ⟨hsolid, isSolid_opening, isSolid_keyword, d'.path_solid⟩
  have hrun := List.all_eq_true.1 hsolid'
  have hsplit : t ++ (d'.text ++ rest) =
      t ++ (opening ++ (keyword ++ d'.path)) ++ (d'.ending ++ rest) := by
    simp [text, hlead, hgap]
  rintro (hne | ⟨hm, ha⟩)
  · exact hne htail
  rw [hsplit] at hm ha
  rw [List.takeWhile_append_of_pos hrun] at hm
  rw [List.dropWhile_append_of_pos hrun] at ha
  cases htail' : d'.tail with
  | nil =>
    have hclosing : (d'.ending ++ rest).takeWhile (fun c => !isBlank c) =
        closing ++ rest.takeWhile fun c => !isBlank c := by
      rw [ending, htail', List.nil_append]
      exact List.takeWhile_append_of_pos (List.all_eq_true.1 isSolid_closing)
    rw [hclosing, mentions_middle closing_ne_nil] at hm
    cases hm
  | cons blank blanks =>
    have hblank := d'.isBlank_tail blank (htail' ▸ List.mem_cons_self)
    have hstop : (d'.ending ++ rest).dropWhile (fun c => !isBlank c) = d'.ending ++ rest := by
      simp [ending, htail', hblank]
    rw [hstop, trimStart_ending, after?_append] at ha
    cases ha

section Before

variable {t : List Char} (ht : Plain t) (d' : Spelling)

include ht

/-- A blank inside of the text: what follows it is text or the other directive. -/
theorem ends_of_blank_text (hsolid : isSolid t = false) : d.Ends (t ++ (d'.text ++ rest)) := by
  by_cases htail : d.tail = []
  · have hsplit : t ++ (d'.text ++ rest) = (t.takeWhile fun c => !isBlank c) ++
        ((t.dropWhile fun c => !isBlank c) ++ (d'.text ++ rest)) := by
      rw [← List.append_assoc (t.takeWhile _), List.takeWhile_append_dropWhile]
    have hne : (t.dropWhile fun c => !isBlank c) ≠ [] := by
      intro hnil
      rw [List.dropWhile_eq_nil_iff] at hnil
      cases hsolid.symm.trans (List.all_eq_true.2 hnil)
    have hpart := d.ends_plain ht
    rw [Ends, or_iff_right (not_not_intro htail)] at hpart
    have hhead : ∀ c, (d'.text ++ rest).head? = some c → c = '<' := fun c hc => by
      cases hc
      rfl
    rw [hsplit]
    refine d.ends_of_split (isSolid_takeWhile t) ?_ hpart.1 ?_
    · intro c hc
      rw [List.head?_append_of_ne_nil _ hne] at hc
      exact isBlank_of_head?_dropWhile hc
    · rw [trimStart_append_of_solid _ fun c hc => by rw [hhead c hc]; decide]
      exact after?_append_eq_none hpart.2 fun c hc => by rw [hhead c hc]; decide
  · exact .inl htail

variable (hsolid : isSolid t = true)

include hsolid

/-- A blank before the other directive's keyword: the keyword follows it. -/
theorem ends_of_lead (hlead : d'.lead ≠ []) : d.Ends (t ++ (d'.text ++ rest)) := by
  have hsplit : t ++ (d'.text ++ rest) =
      t ++ opening ++ (d'.lead ++ (keyword ++ (d'.gap ++ (d'.path ++ d'.ending)) ++ rest)) := by
    simp [text]
  rw [hsplit]
  refine d.ends_of_split (isSolid_append.2 ⟨hsolid, isSolid_opening⟩)
    (head?_append_of_blank d'.isBlank_lead hlead) ?_ ?_
  · refine mentions_append ht.closing (by decide) fun c hc => ?_
    cases hc
    decide
  · rw [List.append_assoc, trimStart_append_eq d'.isBlank_lead head?_keyword]
    rfl

/-- A blank behind the other directive's keyword: its path follows it. -/
theorem ends_of_gap (hlead : d'.lead = []) (hgap : d'.gap ≠ []) :
    d.Ends (t ++ (d'.text ++ rest)) := by
  have hsplit : t ++ (d'.text ++ rest) =
      t ++ (opening ++ keyword) ++ (d'.gap ++ (d'.path ++ (d'.ending ++ rest))) := by
    simp [text, hlead]
  rw [hsplit]
  refine d.ends_of_split ?_ (head?_append_of_blank d'.isBlank_gap hgap) ?_ ?_
  · exact isSolid_append.2 ⟨hsolid, isSolid_append.2 ⟨isSolid_opening, isSolid_keyword⟩⟩
  · refine mentions_append ht.closing (by decide) fun c hc => ?_
    cases hc
    decide
  · rw [d'.trimStart_gap]
    exact d'.after?_path _

end Before

/-- Before plain text and another directive, a directive ends at its own end mark unless it merges with
the other one. -/
theorem ends_iff {t : List Char} (ht : Plain t) (d' : Spelling) :
    d.Ends (t ++ (d'.text ++ rest)) ↔ ¬d.Merges t d' := by
  refine ⟨fun hends hmerges => d.not_ends_of_merges hmerges hends, fun hmerges => ?_⟩
  by_cases htail : d.tail = []
  · cases hsolid : isSolid t with
    | false => exact d.ends_of_blank_text ht d' hsolid
    | true =>
      by_cases hlead : d'.lead = []
      · have hgap : d'.gap ≠ [] := fun hgap => hmerges ⟨htail, hsolid, hlead, hgap⟩
        exact d.ends_of_gap ht d' hsolid hlead hgap
      · exact d.ends_of_lead ht d' hsolid hlead
  · exact .inl htail

end Spelling

end VersionedSite.Include
