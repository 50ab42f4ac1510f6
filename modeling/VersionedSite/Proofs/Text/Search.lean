import Mathlib.Data.List.Infix
import VersionedSite.Text.Search

/-!
# Marks in texts that are put together

Whether a mark stands in a text that is put together, when it stands in none of the parts. A mark lies
across a seam only if the part behind the seam begins with one of the mark's own characters.

* `after?_append_eq_none`, `mentions_append`: a part behind that begins with a character the mark does
  not have.
* `mentions_middle`: a mark that is put in is found.
* `breakOn?_append_of_avoids`: the first place is not in a part that the mark cannot even begin in.
* `breakOn?_of_not_mentions`: nor in a part without the mark, if the mark does not overlap itself.
-/

namespace VersionedSite.Text

variable {mark s t : List Char} {c : Char}

/-- Whether a mark and a text differ before either ends. -/
def clashes : (mark s : List Char) → Bool
  | m :: mark, c :: s => if c == m then clashes mark s else true
  | _, _ => false

theorem clashes_append (h : clashes mark s = true) (t : List Char) : clashes mark (s ++ t) = true := by
  induction mark generalizing s with
  | nil => simp [clashes] at h
  | cons m mark ih =>
    cases s with
    | nil => simp [clashes] at h
    | cons c s =>
      rw [clashes] at h
      rw [List.cons_append, clashes]
      split at h
      · rename_i hc
        rw [if_pos hc]
        exact ih h
      · rename_i hc
        rw [if_neg hc]

theorem after?_of_clashes (h : clashes mark s = true) : after? mark s = none := by
  induction mark generalizing s with
  | nil => simp [clashes] at h
  | cons m mark ih =>
    cases s with
    | nil => rfl
    | cons c s =>
      rw [clashes] at h
      rw [after?]
      split at h
      · rename_i hc
        rw [if_pos hc]
        exact ih h
      · rename_i hc
        rw [if_neg hc]

/-- A text that does not begin with a mark differs from it as soon as a character comes that the mark
does not have. -/
theorem clashes_append_cons (h : after? mark s = none) (hc : c ∉ mark) (t : List Char) :
    clashes mark (s ++ c :: t) = true := by
  induction mark generalizing s with
  | nil => simp at h
  | cons m mark ih =>
    rw [List.mem_cons, not_or] at hc
    cases s with
    | nil => rw [List.nil_append, clashes, if_neg (by simpa using hc.1)]
    | cons d s =>
      rw [after?] at h
      rw [List.cons_append, clashes]
      split at h
      · rename_i hd
        rw [if_pos hd]
        exact ih h hc.2
      · rename_i hd
        rw [if_neg hd]

/-- The same where the text is not empty, so that the mark's first character may come behind it. -/
theorem clashes_cons_append_cons {d : Char} (h : after? mark (d :: s) = none) (hc : c ∉ mark.tail)
    (t : List Char) : clashes mark (d :: s ++ c :: t) = true := by
  cases mark with
  | nil => simp at h
  | cons m mark =>
    rw [after?] at h
    rw [List.cons_append, clashes]
    split at h
    · rename_i hd
      rw [if_pos hd]
      exact clashes_append_cons h hc t
    · rename_i hd
      rw [if_neg hd]

theorem after?_append_eq_none (h : after? mark s = none)
    (hc : ∀ c, t.head? = some c → c ∉ mark) : after? mark (s ++ t) = none := by
  cases t with
  | nil => rwa [List.append_nil]
  | cons c t => exact after?_of_clashes (clashes_append_cons h (hc c rfl) t)

theorem after?_cons_append_eq_none (h : after? mark (c :: s) = none)
    (ht : ∀ d, t.head? = some d → d ∉ mark.tail) : after? mark (c :: s ++ t) = none := by
  cases t with
  | nil => rwa [List.append_nil]
  | cons d t => exact after?_of_clashes (clashes_cons_append_cons h (ht d rfl) t)

theorem after?_eq_some_iff : after? mark s = some t ↔ s = mark ++ t :=
  ⟨eq_append_of_after?, fun h => h ▸ after?_append mark t⟩

theorem after?_eq_none_iff : after? mark s = none ↔ ¬mark <+: s := by
  rw [Option.eq_none_iff_forall_ne_some]
  constructor
  · rintro h ⟨rest, rfl⟩
    exact h rest (after?_append mark rest)
  · exact fun h rest hrest => h ⟨rest, (eq_append_of_after? hrest).symm⟩

theorem mentions_nil (hm : mark ≠ []) : mentions mark [] = false := by
  simp [mentions, breakOn?, hm]

theorem mentions_cons (mark : List Char) (c : Char) (s : List Char) :
    mentions mark (c :: s) = ((after? mark (c :: s)).isSome || mentions mark s) := by
  unfold mentions
  rw [breakOn?]
  cases after? mark (c :: s) with
  | some rest => rfl
  | none => simp

theorem not_mentions_cons : mentions mark (c :: s) = false ↔
    after? mark (c :: s) = none ∧ mentions mark s = false := by
  rw [mentions_cons, Bool.or_eq_false_iff, Option.isSome_eq_false_iff, Option.isNone_iff_eq_none]

theorem after?_of_not_mentions (hm : mark ≠ []) (h : mentions mark s = false) :
    after? mark s = none := by
  cases s with
  | nil =>
    cases mark with
    | nil => contradiction
    | cons m mark => rfl
  | cons c s => exact (not_mentions_cons.1 h).1

theorem not_mentions_of_append (h : mentions mark (s ++ t) = false) : mentions mark t = false := by
  induction s with
  | nil => exact h
  | cons c s ih => exact ih (not_mentions_cons.1 h).2

theorem after?_append_right (h : after? mark s = some t) (u : List Char) :
    after? mark (s ++ u) = some (t ++ u) := by
  rw [eq_append_of_after? h, List.append_assoc, after?_append]

theorem not_mentions_of_append_left (h : mentions mark (s ++ t) = false) (hm : mark ≠ []) :
    mentions mark s = false := by
  induction s with
  | nil => exact mentions_nil hm
  | cons c s ih =>
    obtain ⟨hfirst, hs⟩ := not_mentions_cons.1 h
    refine not_mentions_cons.2 ⟨Option.eq_none_iff_forall_ne_some.2 fun rest hr => ?_, ih hs⟩
    cases (after?_append_right hr t).symm.trans hfirst

theorem mentions_append (hs : mentions mark s = false) (ht : mentions mark t = false)
    (hc : ∀ c, t.head? = some c → c ∉ mark.tail) : mentions mark (s ++ t) = false := by
  induction s with
  | nil => exact ht
  | cons c s ih =>
    obtain ⟨hfirst, hs⟩ := not_mentions_cons.1 hs
    exact not_mentions_cons.2 ⟨after?_cons_append_eq_none hfirst hc, ih hs⟩

theorem mentions_middle (hm : mark ≠ []) (s t : List Char) :
    mentions mark (s ++ (mark ++ t)) = true := by
  induction s with
  | nil =>
    cases mark with
    | nil => contradiction
    | cons m mark =>
      have hafter := after?_append (m :: mark) t
      rw [List.cons_append] at hafter
      rw [List.nil_append, List.cons_append, mentions_cons, hafter]
      rfl
  | cons c s ih => rw [List.cons_append, mentions_cons, ih, Bool.or_true]

/-! ## The first place -/

/-- Whether a mark begins nowhere in a text, whatever stands behind it. -/
def avoids (mark : List Char) : List Char → Bool
  | [] => true
  | c :: s => clashes mark (c :: s) && avoids mark s

theorem avoids_append (hs : avoids mark s = true) (ht : avoids mark t = true) :
    avoids mark (s ++ t) = true := by
  induction s with
  | nil => exact ht
  | cons c s ih =>
    rw [avoids, Bool.and_eq_true] at hs
    rw [List.cons_append, avoids, Bool.and_eq_true]
    exact ⟨clashes_append hs.1 t, ih hs.2⟩

theorem avoids_of_not_mem (h : c ∉ s) : avoids (c :: mark) s = true := by
  induction s with
  | nil => rfl
  | cons d s ih =>
    rw [List.mem_cons, not_or] at h
    rw [avoids, clashes, if_neg (by simpa using Ne.symm h.1), ih h.2]
    rfl

/-- A part without a mark avoids it where a character follows that could only begin the mark. -/
theorem avoids_append_of_not_mentions (hs : mentions mark s = false) (ht : avoids mark (c :: t) = true)
    (hc : c ∉ mark.tail) : avoids mark (s ++ c :: t) = true := by
  induction s with
  | nil => exact ht
  | cons d s ih =>
    obtain ⟨hfirst, hs⟩ := not_mentions_cons.1 hs
    have hclash := clashes_cons_append_cons hfirst hc t
    rw [List.cons_append] at hclash ⊢
    rw [avoids, hclash, ih hs]
    rfl

theorem avoids_of_suffix (h : t <:+ s) (hs : avoids mark s = true) : avoids mark t = true := by
  obtain ⟨u, rfl⟩ := h
  induction u with
  | nil => exact hs
  | cons c u ih =>
    rw [List.cons_append, avoids, Bool.and_eq_true] at hs
    exact ih hs.2

theorem breakOn?_append_of_avoids (h : avoids mark s = true) (t : List Char) :
    breakOn? mark (s ++ t) = (breakOn? mark t).map fun found => (s ++ found.1, found.2) := by
  induction s with
  | nil => simp
  | cons c s ih =>
    rw [avoids, Bool.and_eq_true] at h
    have hfirst : after? mark (c :: (s ++ t)) = none := after?_of_clashes (clashes_append h.1 t)
    rw [List.cons_append, breakOn?, hfirst, ih h.2]
    simp [Function.comp_def]

theorem breakOn?_append_self (hm : mark ≠ []) (t : List Char) :
    breakOn? mark (mark ++ t) = some ([], t) := by
  obtain ⟨m, more, rfl⟩ := List.exists_cons_of_ne_nil hm
  have hafter : after? (m :: more) (m :: (more ++ t)) = some t := after?_append (m :: more) t
  rw [List.cons_append, breakOn?, hafter]

/-- The first place is the one that the text in front of it avoids. -/
theorem breakOn?_of_avoids (hm : mark ≠ []) (h : avoids mark s = true) (t : List Char) :
    breakOn? mark (s ++ (mark ++ t)) = some (s, t) := by
  rw [breakOn?_append_of_avoids h, breakOn?_append_self hm, Option.map_some, List.append_nil]

theorem breakOn?_of_not_mem (h : c ∉ s) (t : List Char) : breakOn? [c] (s ++ c :: t) = some (s, t) :=
  breakOn?_of_avoids (List.cons_ne_nil c []) (avoids_of_not_mem h) t

/-! ## Marks that do not overlap themselves -/

/-- Whether no part of a mark but the whole both begins and ends it. -/
def Unbordered (mark : List Char) : Prop :=
  ∀ part ∈ mark.tails, part <+: mark → part = [] ∨ part = mark

instance (mark : List Char) : Decidable (Unbordered mark) :=
  inferInstanceAs (Decidable (∀ part ∈ mark.tails, part <+: mark → part = [] ∨ part = mark))

/-- A mark that begins in front of another one would end inside of it. -/
theorem after?_append_mark_eq_none (hu : Unbordered mark) (hs : s ≠ []) (h : after? mark s = none)
    (t : List Char) : after? mark (s ++ (mark ++ t)) = none := by
  rw [after?_eq_none_iff] at h ⊢
  rintro ⟨rest, he⟩
  rcases List.append_eq_append_iff.1 he with ⟨more, rfl, -⟩ | ⟨part, hmark, hpart⟩
  · exact h (List.prefix_append _ _)
  · have hsuffix : part <:+ mark := ⟨s, hmark.symm⟩
    have hbegins : part <+: mark :=
      List.prefix_of_prefix_length_le ⟨rest, hpart.symm⟩ (List.prefix_append mark t) hsuffix.length_le
    rcases hu part ((List.mem_tails _ _).2 hsuffix) hbegins with rfl | rfl
    · rw [List.append_nil] at hmark
      exact h (hmark ▸ List.prefix_rfl)
    · exact hs (List.append_left_eq_self.1 hmark.symm)

/-- The first place of such a mark behind a part without it. -/
theorem breakOn?_of_not_mentions (hm : mark ≠ []) (hu : Unbordered mark) (h : mentions mark s = false)
    (t : List Char) : breakOn? mark (s ++ (mark ++ t)) = some (s, t) := by
  induction s with
  | nil => exact breakOn?_append_self hm t
  | cons c s ih =>
    obtain ⟨hfirst, hs⟩ := not_mentions_cons.1 h
    have hnone := after?_append_mark_eq_none hu (List.cons_ne_nil c s) hfirst t
    rw [List.cons_append] at hnone ⊢
    rw [breakOn?, hnone, ih hs]
    rfl

end VersionedSite.Text
