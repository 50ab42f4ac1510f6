/-!
# Lists without repetition

* `addNew_nodup`: adding what is new keeps a list free of repetition.
* `mem_addNew`: nothing is lost by it.
-/

namespace VersionedSite

variable {α : Type} [DecidableEq α]

/-- A list with the members of another put at its end, in order, each unless it is there already. -/
def addNew (known : List α) : List α → List α
  | [] => known
  | a :: rest => if a ∈ known then addNew known rest else addNew (known ++ [a]) rest

theorem addNew_nodup {known : List α} (h : known.Nodup) (l : List α) : (addNew known l).Nodup := by
  induction l generalizing known with
  | nil => exact h
  | cons a l ih =>
    unfold addNew
    split
    · exact ih h
    · rename_i hn
      refine ih (List.nodup_append.2 ⟨h, by simp, ?_⟩)
      intro b hb c hc
      simp only [List.mem_singleton] at hc
      subst hc
      exact fun he => hn (he ▸ hb)

theorem mem_addNew {known l : List α} {a : α} : a ∈ addNew known l ↔ a ∈ known ∨ a ∈ l := by
  induction l generalizing known with
  | nil => simp [addNew]
  | cons b l ih =>
    unfold addNew
    split
    · rename_i hb
      rw [ih]
      constructor
      · rintro (h | h)
        · exact .inl h
        · exact .inr (by simp [h])
      · rintro (h | h)
        · exact .inl h
        · rcases List.mem_cons.1 h with rfl | h
          · exact .inl hb
          · exact .inr h
    · rw [ih]
      simp [or_assoc]

end VersionedSite
