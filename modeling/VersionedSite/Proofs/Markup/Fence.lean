import VersionedSite.Markup.Fence
import VersionedSite.Proofs.Text.Trim

/-!
# What is left of fences

Which bare texts are taken out of a fence: those that begin with one and end its line or end in a fence
again (`IsFenced`). All other ones stay as they are (`unfence_eq_self_iff`). Only one fence is taken off at
each end, so that what is left may be fenced again.

* `withoutOpening_cases`, `withoutClosing_cases`: what is taken off at the begin and at the end.
* `sublist_unfence`, `count_unfence_lt`: what is left is some of what was there, with fewer backticks.
-/

namespace VersionedSite.Markup

open Text

variable {s : List Char}

/-! ## The line of a fence -/

/-- Whether a character ends a line. -/
def endsLine (c : Char) : Bool := c == '\r' || c == '\n'

/-- Whether a text begins with a fence whose line ends, with `rest` behind the line. -/
def FenceLine (s rest : List Char) : Prop :=
  ∃ info ending, (∀ c ∈ info, endsLine c = false) ∧ (ending = ['\n'] ∨ ending = ['\r', '\n']) ∧
    s = fence ++ (info ++ (ending ++ rest))

theorem withoutOpening_of_line {rest : List Char} (h : FenceLine s rest) : withoutOpening s = rest := by
  obtain ⟨info, ending, hinfo, hending, rfl⟩ := h
  have hdrop : ∀ t, (info ++ t).dropWhile (fun c => c != '\r' && c != '\n') =
      t.dropWhile fun c => c != '\r' && c != '\n' := fun t =>
    List.dropWhile_append_of_pos fun c hc => by simpa [endsLine, bne, not_or] using hinfo c hc
  rw [withoutOpening, after?_append, Option.map_some, hdrop]
  rcases hending with rfl | rfl <;> rfl

theorem withoutOpening_cases (s : List Char) :
    FenceLine s (withoutOpening s) ∨ (∀ rest, ¬FenceLine s rest) ∧ withoutOpening s = s := by
  by_cases h : ∃ rest, FenceLine s rest
  · obtain ⟨rest, h⟩ := h
    exact .inl (withoutOpening_of_line h ▸ h)
  · refine .inr ⟨fun rest hrest => h ⟨rest, hrest⟩, ?_⟩
    -- Whatever line the definition finds would be one.
    have hline : ∀ ending rest, ending = ['\n'] ∨ ending = ['\r', '\n'] →
        (after? fence s).map (fun info => info.dropWhile fun c => c != '\r' && c != '\n') ≠
          some (ending ++ rest) := by
      intro ending rest hending he
      obtain ⟨info, hinfo, he⟩ := Option.map_eq_some_iff.1 he
      refine h ⟨rest, ⟨info.takeWhile fun c => c != '\r' && c != '\n', ending, fun c hc => ?_, hending, ?_⟩⟩
      · simpa [endsLine, bne, not_or] using List.mem_takeWhile_imp hc
      · rw [eq_append_of_after? hinfo, ← he, List.takeWhile_append_dropWhile]
    unfold withoutOpening
    split
    · rename_i rest he
      exact absurd he (hline ['\r', '\n'] rest (.inr rfl))
    · rename_i rest he
      exact absurd he (hline ['\n'] rest (.inl rfl))
    · rfl

/-! ## What is taken off -/

theorem suffix_withoutOpening (s : List Char) : withoutOpening s <:+ s := by
  rcases withoutOpening_cases s with ⟨info, ending, -, -, he⟩ | ⟨-, he⟩
  · rw [← List.append_assoc, ← List.append_assoc] at he
    exact ⟨_, he.symm⟩
  · exact he.symm ▸ List.suffix_rfl

theorem count_withoutOpening_lt {rest : List Char} (h : FenceLine s rest) :
    (withoutOpening s).count '`' < s.count '`' := by
  rw [withoutOpening_of_line h]
  obtain ⟨info, ending, -, -, rfl⟩ := h
  have hfence : fence.count '`' = 3 := rfl
  simp only [List.count_append]
  omega

/-- What a text ends in, in terms of its reverse. -/
theorem eq_append_of_after?_reverse {mark rest : List Char} (h : after? mark s.reverse = some rest) :
    s = rest.reverse ++ mark.reverse := by
  have hs := congrArg List.reverse (eq_append_of_after? h)
  rwa [List.reverse_reverse, List.reverse_append] at hs

theorem after?_reverse_eq_none {mark : List Char} (h : ¬fence <:+ s) (hmark : fence <+: mark) :
    after? mark s.reverse = none := by
  refine Option.eq_none_iff_forall_ne_some.2 fun rest hrest => h ?_
  obtain ⟨more, rfl⟩ := hmark
  have hs := eq_append_of_after?_reverse hrest
  rw [List.reverse_append, ← List.append_assoc] at hs
  exact ⟨_, hs.symm⟩

/-- The mark that is taken off at the end of a text is one of a fence on a line of its own. -/
theorem withoutClosing_cases (s : List Char) :
    withoutClosing s = s ∨ ∃ line, s = withoutClosing s ++ (line ++ fence) := by
  unfold withoutClosing
  split
  · rename_i rest h
    have hs := eq_append_of_after?_reverse h
    rw [List.reverse_cons, List.append_assoc] at hs
    exact .inr ⟨['\r', '\n'], hs⟩
  · rename_i rest _ h
    exact .inr ⟨['\n'], eq_append_of_after?_reverse h⟩
  · exact .inl rfl

theorem prefix_withoutClosing (s : List Char) : withoutClosing s <+: s := by
  rcases withoutClosing_cases s with h | ⟨line, h⟩
  · exact h.symm ▸ List.prefix_rfl
  · exact ⟨_, h.symm⟩

theorem prefix_withoutTrailing (s : List Char) : withoutTrailing s <+: s := by
  unfold withoutTrailing
  split
  · rename_i rest h
    exact ⟨_, (eq_append_of_after?_reverse h).symm⟩
  · exact List.prefix_rfl

theorem withoutTrailing_append (s : List Char) : withoutTrailing (s ++ fence) = s := by
  have hreverse : (s ++ fence).reverse = fence ++ s.reverse := List.reverse_append
  rw [withoutTrailing, hreverse, after?_append]
  exact List.reverse_reverse s

theorem withoutTrailing_of_not_suffix (h : ¬fence <:+ s) : withoutTrailing s = s := by
  rw [withoutTrailing, after?_reverse_eq_none h List.prefix_rfl]

/-- A text that does not end in a fence has none to take off. -/
theorem without_of_not_suffix (h : ¬fence <:+ s) : withoutTrailing (withoutClosing s) = s := by
  have hline : after? "```\n".toList s.reverse = none := after?_reverse_eq_none h ⟨['\n'], rfl⟩
  have hclosing : withoutClosing s = s := by rw [withoutClosing, hline]
  rw [hclosing, withoutTrailing_of_not_suffix h]

theorem sublist_without (s : List Char) : (withoutTrailing (withoutClosing s)).Sublist s :=
  (prefix_withoutTrailing _).sublist.trans (prefix_withoutClosing s).sublist

theorem count_without_lt (h : fence <:+ s) :
    (withoutTrailing (withoutClosing s)).count '`' < s.count '`' := by
  have hfence : fence.count '`' = 3 := rfl
  rcases withoutClosing_cases s with hsame | ⟨line, hline⟩
  · obtain ⟨t, rfl⟩ := h
    rw [hsame, withoutTrailing_append, List.count_append]
    omega
  · have hle := (prefix_withoutTrailing (withoutClosing s)).sublist.count_le '`'
    have hcount := congrArg (List.count '`') hline
    simp only [List.count_append] at hcount
    omega

theorem sublist_trim (s : List Char) : (trim s).Sublist s :=
  (List.rdropWhile_prefix isBlank _).sublist.trans (trimStart_suffix s).sublist

/-! ## Texts that are fenced -/

/-- Whether a text begins with a fence and has one to take off: it ends the fence's line, or ends in a
fence. -/
def IsFenced (s : List Char) : Prop := fence <+: s ∧ ((∃ rest, FenceLine s rest) ∨ fence <:+ s)

/-- What is left of a text that begins with a fence. -/
theorem unfence_of_begins (hbare : Bare s) (h : fence <+: s) :
    unfence s = (trim (withoutTrailing (withoutClosing (withoutOpening s))),
      trim (withoutTrailing (withoutClosing (withoutOpening s))) != s) := by
  rw [unfence, hbare.trim_eq]
  exact if_pos (List.isPrefixOf_iff_prefix.2 h)

/-- Taking a text out of its fences takes backticks away. -/
theorem count_unfence_lt (hbare : Bare s) (h : IsFenced s) : (unfence s).1.count '`' < s.count '`' := by
  obtain ⟨hbegins, hfenced⟩ := h
  rw [unfence_of_begins hbare hbegins]
  have htrim := (sublist_trim (withoutTrailing (withoutClosing (withoutOpening s)))).count_le '`'
  have hends := (sublist_without (withoutOpening s)).count_le '`'
  rcases withoutOpening_cases s with hline | ⟨hline, hsame⟩
  · have hopening := count_withoutOpening_lt hline
    dsimp only
    omega
  · have hsuffix := hfenced.resolve_left fun ⟨rest, hrest⟩ => hline rest hrest
    have hlt := count_without_lt hsuffix
    rw [hsame] at htrim ⊢
    dsimp only
    omega

theorem unfence_of_not_isFenced (hbare : Bare s) (h : ¬IsFenced s) : unfence s = (s, false) := by
  by_cases hbegins : fence <+: s
  · have hfenced : (∀ rest, ¬FenceLine s rest) ∧ ¬fence <:+ s :=
      ⟨fun rest hrest => h ⟨hbegins, .inl ⟨rest, hrest⟩⟩, fun hsuffix => h ⟨hbegins, .inr hsuffix⟩⟩
    have hsame : withoutOpening s = s := by
      rcases withoutOpening_cases s with hline | ⟨-, hsame⟩
      · exact absurd hline (hfenced.1 _)
      · exact hsame
    rw [unfence_of_begins hbare hbegins, hsame, without_of_not_suffix hfenced.2, hbare.trim_eq]
    simp
  · have hplain : fence.isPrefixOf (trim s) = false := by
      rw [hbare.trim_eq, ← Bool.not_eq_true, List.isPrefixOf_iff_prefix]
      exact hbegins
    rw [unfence_of_not_fenced hplain, hbare.trim_eq]

/-- The bare texts that are left alone are those that are not fenced, and this is what is told of them. -/
theorem unfence_eq_self_iff (hbare : Bare s) : unfence s = (s, false) ↔ ¬IsFenced s := by
  refine ⟨fun h hfenced => ?_, unfence_of_not_isFenced hbare⟩
  have hlt := count_unfence_lt hbare hfenced
  rw [h] at hlt
  exact Nat.lt_irrefl _ hlt

theorem unfence_eq_self_of_snd (hbare : Bare s) (h : (unfence s).2 = false) : unfence s = (s, false) := by
  by_cases hbegins : fence <+: s
  · rw [unfence_of_begins hbare hbegins] at h ⊢
    have hsame : trim (withoutTrailing (withoutClosing (withoutOpening s))) = s := by simpa using h
    rw [hsame]
    simp
  · exact unfence_of_not_isFenced hbare fun hfenced => hbegins hfenced.1

theorem unfence_trim (s : List Char) : unfence (trim s) = unfence s := by
  rw [unfence, unfence, (bare_trim s).trim_eq]

theorem count_unfence_lt_of_snd (h : (unfence s).2 = true) :
    (unfence s).1.count '`' < (trim s).count '`' := by
  rw [← unfence_trim] at h ⊢
  refine count_unfence_lt (bare_trim s) ?_
  by_contra hfenced
  rw [unfence_of_not_isFenced (bare_trim s) hfenced] at h
  cases h

/-- What is left is some of what was there. -/
theorem sublist_unfence (s : List Char) : (unfence s).1.Sublist s := by
  unfold unfence
  dsimp only
  split
  · exact (sublist_trim _).trans ((sublist_without _).trans
      ((suffix_withoutOpening _).sublist.trans (sublist_trim s)))
  · exact sublist_trim s

end VersionedSite.Markup
