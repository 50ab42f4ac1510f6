import Mathlib.Data.List.Basic
import Mathlib.Data.List.DropRight
import Mathlib.Data.List.TakeDrop
import Mathlib.Data.List.TakeWhile
import VersionedSite.Text.Blank

/-!
# Trimming

What is left of a text when the blanks at its ends are gone: a bare text, one that has no blank at an
end.

* `bare_trim`, `Bare.trim_eq`: trimming makes a text bare and leaves bare texts as they are.
* `Bare.append`, `Bare.append_left`: texts that are bare when they are put together.
* `suffix_trim`: the end of a text that is trimmed.
-/

namespace VersionedSite.Text

variable {s t : List Char} {c : Char}

/-- Whether a text has no blanks. -/
def isSolid (s : List Char) : Bool := s.all fun c => !isBlank c

theorem isSolid_iff : isSolid s = true ↔ ∀ c ∈ s, isBlank c = false := by
  simp [isSolid]

theorem isSolid_append : isSolid (s ++ t) = true ↔ isSolid s = true ∧ isSolid t = true := by
  simp [isSolid]

theorem trimStart_append (hs : ∀ c ∈ s, isBlank c = true) : trimStart (s ++ t) = trimStart t :=
  List.dropWhile_append_of_pos hs

theorem trimStart_eq_self (h : ∀ c, s.head? = some c → isBlank c = false) : trimStart s = s := by
  cases s with
  | nil => rfl
  | cons c s => exact trimStart_of_not_isBlank (h c rfl)

/-- Blanks in front of a text that begins without any. -/
theorem trimStart_append_eq (hs : ∀ c ∈ s, isBlank c = true)
    (ht : ∀ c, t.head? = some c → isBlank c = false) : trimStart (s ++ t) = t := by
  rw [trimStart_append hs, trimStart_eq_self ht]

theorem head?_append_of_blank (hs : ∀ c ∈ s, isBlank c = true) (hne : s ≠ []) :
    ∀ c, (s ++ t).head? = some c → isBlank c = true := by
  intro c hc
  rw [List.head?_append_of_ne_nil _ hne] at hc
  exact hs c (List.mem_of_head? hc)

/-- Where a text goes on without a blank, what is trimmed is what stands before. -/
theorem trimStart_append_of_solid (s : List Char) (ht : ∀ c, t.head? = some c → isBlank c = false) :
    trimStart (s ++ t) = trimStart s ++ t := by
  induction s with
  | nil => exact trimStart_eq_self ht
  | cons c s ih =>
    cases hc : isBlank c with
    | true => simpa [trimStart, hc] using ih
    | false => simp [trimStart, hc]

theorem trimStart_suffix (s : List Char) : trimStart s <:+ s := List.dropWhile_suffix _

/-- A run without blanks ends where a blank follows, or the text. -/
theorem span_eq_of_solid (hs : isSolid s = true)
    (ht : ∀ c, t.head? = some c → isBlank c = true) :
    (s ++ t).span (fun c => !isBlank c) = (s, t) := by
  have hstop : t.span (fun c => !isBlank c) = ([], t) := by
    cases t with
    | nil => rfl
    | cons c t => simp [ht c rfl]
  simp only [List.span_eq_takeWhile_dropWhile] at hstop ⊢
  obtain ⟨htake, hdrop⟩ := Prod.mk.inj hstop
  have hall := List.all_eq_true.1 hs
  rw [List.takeWhile_append_of_pos hall, htake, List.append_nil, List.dropWhile_append_of_pos hall,
    hdrop]

theorem isSolid_takeWhile (s : List Char) : isSolid (s.takeWhile fun c => !isBlank c) = true :=
  List.all_takeWhile

theorem isBlank_of_head?_dropWhile {s : List Char} {c : Char}
    (h : (s.dropWhile fun c => !isBlank c).head? = some c) : isBlank c = true := by
  have hn := List.head?_dropWhile_not (fun c => !isBlank c) s
  rw [h] at hn
  simpa using hn

/-! ## Bare texts -/

theorem trimEnd_append_of_solid (s : List Char) (hc : ∀ c, t.getLast? = some c → isBlank c = false)
    (hne : t ≠ []) : trimEnd (s ++ t) = s ++ t := by
  refine List.rdropWhile_eq_self_iff.2 fun h => ?_
  rw [List.getLast_append_of_right_ne_nil _ _ hne, hc _ (List.getLast?_eq_some_getLast hne)]
  exact Bool.false_ne_true

/-- A text without a blank at either end. -/
structure Bare (s : List Char) : Prop where
  head : ∀ c, s.head? = some c → isBlank c = false
  last : ∀ c, s.getLast? = some c → isBlank c = false

theorem bare_nil : Bare [] := ⟨by simp, by simp⟩

theorem Bare.trim_eq (h : Bare s) : trim s = s := by
  rw [trim, trimStart_eq_self h.head]
  by_cases hne : s = []
  · rw [hne]
    rfl
  · exact trimEnd_append_of_solid [] h.last hne

theorem bare_trim (s : List Char) : Bare (trim s) := by
  refine ⟨fun c hc => ?_, fun c hc => ?_⟩
  · -- What is dropped at the end leaves the first character in place.
    have hprefix : trim s <+: trimStart s := List.rdropWhile_prefix isBlank _
    obtain ⟨rest, hrest⟩ := hprefix
    have hhead : (trimStart s).head? = some c := by
      rw [← hrest, List.head?_append, hc]
      rfl
    have hn := List.head?_dropWhile_not isBlank s
    rw [← trimStart, hhead] at hn
    simpa using hn
  · have hne : trim s ≠ [] := by
      rintro he
      rw [he] at hc
      cases hc
    have hn : ¬isBlank ((trim s).getLast hne) = true := List.rdropWhile_last_not isBlank _ hne
    rw [List.getLast?_eq_some_getLast hne, Option.some_inj] at hc
    rw [← hc]
    simpa using hn

/-- A bare text is what is left when the blanks around it are taken off. -/
theorem Bare.trim_append (h : Bare t) (hne : t ≠ []) {before behind : List Char}
    (hbefore : ∀ c ∈ before, isBlank c = true) (hbehind : ∀ c ∈ behind, isBlank c = true) :
    trim (before ++ (t ++ behind)) = t := by
  have hhead : ∀ c, (t ++ behind).head? = some c → isBlank c = false := by
    intro c hc
    rw [List.head?_append_of_ne_nil _ hne] at hc
    exact h.head c hc
  have hlast : ∀ c, t.reverse.head? = some c → isBlank c = false := by
    intro c hc
    rw [List.head?_reverse] at hc
    exact h.last c hc
  have hreverse : trimStart (behind.reverse ++ t.reverse) = t.reverse :=
    trimStart_append_eq (fun c hc => hbehind c (List.mem_reverse.1 hc)) hlast
  rw [trim, trimStart_append_eq hbefore hhead]
  show (trimStart (t ++ behind).reverse).reverse = t
  rw [List.reverse_append, hreverse, List.reverse_reverse]

theorem bare_iff_trim_eq : Bare s ↔ trim s = s := ⟨Bare.trim_eq, fun h => h ▸ bare_trim s⟩

theorem Bare.append (hs : Bare s) (ht : Bare t) : Bare (s ++ t) := by
  refine ⟨fun c hc => ?_, fun c hc => ?_⟩
  · rw [List.head?_append, Option.or_eq_some_iff] at hc
    exact hc.elim (hs.head c) fun hc => ht.head c hc.2
  · rw [List.getLast?_append, Option.or_eq_some_iff] at hc
    exact hc.elim (ht.last c) fun hc => hs.last c hc.2

/-- In front of a bare text that is there, only the first character counts. -/
theorem Bare.append_left (ht : Bare t) (hne : t ≠ []) (hc : isBlank c = false) (s : List Char) :
    Bare (c :: s ++ t) := by
  refine ⟨fun d hd => ?_, fun d hd => ?_⟩
  · cases hd
    exact hc
  · rw [List.getLast?_append_of_ne_nil _ hne] at hd
    exact ht.last d hd

theorem bare_singleton (hc : isBlank c = false) : Bare [c] := by
  refine ⟨fun d hd => ?_, fun d hd => ?_⟩ <;> cases hd <;> exact hc

theorem bare_flatten {parts : List (List Char)} (h : ∀ part ∈ parts, Bare part) :
    Bare parts.flatten := by
  induction parts with
  | nil => exact bare_nil
  | cons part parts ih =>
    rw [List.forall_mem_cons] at h
    exact h.1.append (ih h.2)

/-- What a text ends in without a blank it ends in when it is trimmed. -/
theorem suffix_trim (hts : t <:+ s) (ht : ∀ c ∈ t, isBlank c = false) : t <:+ trim s := by
  by_cases hne : t = []
  · rw [hne]
    exact List.nil_suffix
  · obtain ⟨u, rfl⟩ := hts
    rw [trim, trimStart_append_of_solid u fun c hc => ht c (List.mem_of_head? hc),
      trimEnd_append_of_solid _ (fun c hc => ht c (List.mem_of_getLast? hc)) hne]
    exact List.suffix_append _ _

end VersionedSite.Text
