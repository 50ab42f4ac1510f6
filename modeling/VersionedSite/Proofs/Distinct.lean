import VersionedSite.Distinct

/-!
# What stays of lists that are put together

Of a row of members each stays once, at the first of its places (`addNew_nil`).
-/

namespace VersionedSite

variable {α : Type} [DecidableEq α]

/-- Behind what is known stays what is not, each member at its first place. -/
theorem addNew_eq (known l : List α) :
    addNew known l = known ++ (l.filter fun a => a ∉ known).eraseDups := by
  induction l generalizing known with
  | nil => rw [List.filter_nil, List.eraseDups_nil, List.append_nil, addNew]
  | cons a l ih =>
    rw [addNew]
    split
    · rename_i h
      rw [ih, List.filter_cons_of_neg (by simpa using h)]
    · rename_i h
      rw [ih, List.filter_cons_of_pos (by simpa using h), List.eraseDups_cons, List.filter_filter,
        List.append_assoc, List.singleton_append]
      refine congrArg (fun rest => known ++ a :: List.eraseDups rest) (List.filter_congr fun b _ => ?_)
      by_cases hb : b = a <;> simp [hb]

theorem addNew_nil (l : List α) : addNew [] l = l.eraseDups := by
  rw [addNew_eq, List.nil_append, List.filter_eq_self.2 fun _ _ => by simp]

end VersionedSite
