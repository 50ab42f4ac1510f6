import VersionedSite.Imports.Lookup

/-!
# Which stored path stands for a requested one

The stored paths are looked at once, and of those that were passed no more than two are remembered. The
answer is the one that three searches of the whole list would give, each made where the one before finds
nothing (`findMatch?_eq_searches`): for the requested path up to its case, for a path that agrees with it up
to the extension, for the index of the directory that it may name. Where in the list the paths of the three
kinds stand makes no difference.

What is remembered at any point are the results of searches in what was passed, so that they and the searches
in the rest make up the answer (`matchFrom_eq`).

* `findMatch?_eq`: a path without characters is found by its base like any other, but not taken.
* `findMatch?_cases`: how a stored path can stand for a requested one.
* `findMatch?_eq_find?`: a path that is stored in some case is found by its first case.
-/

namespace VersionedSite.Imports

variable {requested path : String} {stored : List String}

theorem Candidates.best?_eq (found : Candidates) :
    found.best? = (found.byBase.filter (· ≠ "")).or found.byIndex := by
  obtain ⟨byBase, byIndex⟩ := found
  cases byBase with
  | none => rfl
  | some path =>
    by_cases h : path = ""
    · rw [best?, Option.filter_some_neg (by simpa using h)]
      exact if_pos h
    · rw [best?, Option.filter_some_pos (by simpa using h)]
      exact if_neg h

/-- The candidates after a row of stored paths. -/
def Candidates.passed (base : List Char) (found : Candidates) (stored : List String) : Candidates where
  byBase := found.byBase.or (stored.find? fun path => foldedBase path = base)
  byIndex := found.byIndex.or (stored.find? fun path => foldedBase path = base ++ "/index".toList)

theorem Candidates.passed_nil (base : List Char) (found : Candidates) : found.passed base [] = found := by
  simp [passed]

theorem Candidates.passed_cons (base : List Char) (found : Candidates) (path : String)
    (stored : List String) :
    found.passed base (path :: stored) = (found.step base path).passed base stored := by
  rw [← List.singleton_append]
  simp only [passed, step, List.find?_append, List.find?_singleton, decide_eq_true_eq,
    Option.orElse_eq_orElse, Option.orElse_eq_or, Option.or_assoc]

/-- An exact match wins; else the best of what is remembered and what is still to be passed. -/
theorem matchFrom_eq (request base : List Char) (found : Candidates) (stored : List String) :
    matchFrom request base found stored =
      (stored.find? fun path => foldedPath path = request).or (found.passed base stored).best? := by
  induction stored generalizing found with
  | nil => rw [matchFrom, Candidates.passed_nil, List.find?_nil, Option.none_or]
  | cons path rest ih =>
    rw [matchFrom, List.find?_cons, Candidates.passed_cons]
    split
    · rename_i hpath
      rw [decide_eq_true hpath, Option.some_or]
    · rename_i hpath
      rw [decide_eq_false hpath, ih]

theorem findMatch?_eq (requested : String) (stored : List String) :
    findMatch? requested stored =
      (stored.find? fun path => foldedPath path = foldedPath requested).or
        (((stored.find? fun path => foldedBase path = foldedBase requested).filter (· ≠ "")).or
          (stored.find? fun path => foldedBase path = foldedBase requested ++ "/index".toList)) := by
  rw [findMatch?, matchFrom_eq, Candidates.best?_eq]
  rfl

/-- How a stored path can stand for a requested one. -/
theorem findMatch?_cases (h : findMatch? requested stored = some path) :
    foldedPath path = foldedPath requested ∨ foldedBase path = foldedBase requested ∨
      foldedBase path = foldedBase requested ++ "/index".toList := by
  rw [findMatch?_eq, Option.or_eq_some_iff, Option.or_eq_some_iff, Option.filter_eq_some_iff] at h
  rcases h with hsame | ⟨-, ⟨hbase, -⟩ | ⟨-, hindex⟩⟩
  · exact .inl (by simpa using List.find?_some hsame)
  · exact .inr (.inl (by simpa using List.find?_some hbase))
  · exact .inr (.inr (by simpa using List.find?_some hindex))

/-- A path that is stored in some case is found by its first case. -/
theorem findMatch?_eq_find? (hm : path ∈ stored) (hpath : foldedPath path = foldedPath requested) :
    findMatch? requested stored = stored.find? fun p => foldedPath p = foldedPath requested := by
  have hfound : (stored.find? fun p => foldedPath p = foldedPath requested).isSome = true :=
    List.find?_isSome.2 ⟨path, hm, decide_eq_true hpath⟩
  obtain ⟨first, hfirst⟩ := Option.isSome_iff_exists.1 hfound
  rw [findMatch?_eq, hfirst, Option.some_or]

/-- With no path stored that has no characters, a requested path is stood for by the first stored one that
agrees with it up to case; else by the first that agrees up to case and extension; else by the first that is
the index of the directory of its name. -/
theorem findMatch?_eq_searches (requested : String) (stored : List String)
    (h : ∀ path ∈ stored, path ≠ "") :
    findMatch? requested stored =
      (stored.find? fun path => foldedPath path = foldedPath requested).or
        ((stored.find? fun path => foldedBase path = foldedBase requested).or
          (stored.find? fun path => foldedBase path = foldedBase requested ++ "/index".toList)) := by
  have hbase : (stored.find? fun path => foldedBase path = foldedBase requested).filter (· ≠ "") =
      stored.find? fun path => foldedBase path = foldedBase requested := by
    cases hfound : stored.find? fun path => foldedBase path = foldedBase requested with
    | none => rfl
    | some path => exact Option.filter_some_pos (by simpa using h path (List.mem_of_find?_eq_some hfound))
  rw [findMatch?_eq, hbase]

/-- Paths of all three kinds, in the order in which the least wanted ones come first. -/
theorem findMatch?_eq_searches_reversed :
    let stored := ["landing/Lib/index.tsx", "landing/lib.JSX", "landing/lib.ts", "landing/LIB.tsx",
      "landing/lib.tsx"]
    (∀ path ∈ stored, path ≠ "") ∧
      findMatch? "landing/lib.tsx" stored = some "landing/LIB.tsx" ∧
      findMatch? "landing/lib.tsx" (stored.take 3) = some "landing/lib.JSX" ∧
      findMatch? "landing/lib.tsx" (stored.take 1) = some "landing/Lib/index.tsx" := by
  intro stored
  have hstored : ∀ path ∈ stored, path ≠ "" := by decide
  refine ⟨hstored, ?_, ?_, ?_⟩
  · rw [findMatch?_eq_searches _ _ hstored]
    decide +kernel
  · rw [findMatch?_eq_searches _ _ fun path hpath => hstored path (List.mem_of_mem_take hpath)]
    decide +kernel
  · rw [findMatch?_eq_searches _ _ fun path hpath => hstored path (List.mem_of_mem_take hpath)]
    decide +kernel

end VersionedSite.Imports
