import Mathlib.Data.List.Infix
import VersionedSite.Proofs.Text.Search
import VersionedSite.Text.Scan

/-!
# Cutting up texts that are put together

What a recogniser finds in a part of a text depends on what stands behind the part, so that the statements
about parts have the rest of the text appended. A part is passed over if the recogniser answers at none of its
places (`scan_append_of_none`), and cut out if it answers with the whole of it
(`scan_append_of_some`). What holds of every part of a row then holds of the row
(`remainder_flatMap`, `findings_flatMap`).

* `flatMap_scan`: the pieces of a text, put together again.
* `eq_none_of_suffix`: a recogniser that needs a mark answers nowhere in a part which avoids the mark.
-/

namespace VersionedSite.Text

variable {α β : Type} {r : Recogniser α} {a : α} {mark s t : List Char}

theorem scan_append_of_none (h : ∀ v, v <:+ s → v ≠ [] → r (v ++ t) = none) :
    scan r (s ++ t) = s.map .char ++ scan r t := by
  induction s with
  | nil => rfl
  | cons c s ih =>
    have hfirst := h (c :: s) List.suffix_rfl (List.cons_ne_nil c s)
    rw [List.cons_append] at hfirst ⊢
    rw [scan_cons_of_none hfirst, ih fun v hv => h v (hv.trans (List.suffix_cons c s)), List.map_cons,
      List.cons_append]

theorem scan_append_of_some (hs : s ≠ []) (h : r (s ++ t) = some (a, t)) :
    scan r (s ++ t) = .hit a :: scan r t := by
  obtain ⟨c, s, rfl⟩ := List.exists_cons_of_ne_nil hs
  rw [List.cons_append] at h ⊢
  exact scan_cons_of_some h (List.suffix_append s t)

theorem remainder_append_of_none (h : ∀ v, v <:+ s → v ≠ [] → r (v ++ t) = none) :
    remainder r (s ++ t) = s ++ remainder r t := by
  rw [remainder, scan_append_of_none h, List.filterMap_append, ← remainder, List.filterMap_map]
  congr 1
  exact List.filterMap_some

theorem findings_append_of_none (h : ∀ v, v <:+ s → v ≠ [] → r (v ++ t) = none) :
    findings r (s ++ t) = findings r t := by
  rw [findings, scan_append_of_none h, List.filterMap_append, ← findings, List.filterMap_map,
    List.append_left_eq_self]
  exact List.filterMap_eq_nil_iff.2 fun _ _ => rfl

theorem remainder_append_of_some (hs : s ≠ []) (h : r (s ++ t) = some (a, t)) :
    remainder r (s ++ t) = remainder r t := by
  rw [remainder, scan_append_of_some hs h]
  rfl

theorem findings_append_of_some (hs : s ≠ []) (h : r (s ++ t) = some (a, t)) :
    findings r (s ++ t) = a :: findings r t := by
  rw [findings, scan_append_of_some hs h]
  rfl

theorem eq_none_of_not_anywhere (h : anywhere r s = false) {v : List Char} (hv : v <:+ s) :
    r v = none := by
  obtain ⟨u, rfl⟩ := hv
  induction u with
  | nil =>
    cases v <;> simp only [List.nil_append, anywhere, Bool.or_eq_false_iff] at h
    · exact Option.isNone_iff_eq_none.1 (by simpa using h)
    · exact Option.isNone_iff_eq_none.1 (by simpa using h.1)
  | cons c u ih =>
    rw [List.cons_append, anywhere, Bool.or_eq_false_iff] at h
    exact ih h.2

/-! ## What is found and what is lost -/

/-- The pieces of a text, put together again: what is recognised has to be a text of its own. -/
theorem flatMap_scan {r : Recogniser α} {f : Piece α → List Char} (hchar : ∀ c, f (.char c) = [c])
    (hhit : ∀ s a rest, r s = some (a, rest) → s = f (.hit a) ++ rest ∧ f (.hit a) ≠ [])
    (s : List Char) : (scan r s).flatMap f = s := by
  induction hn : s.length using Nat.strong_induction_on generalizing s with
  | _ n ih =>
    cases s with
    | nil => rfl
    | cons c s =>
      subst hn
      cases h : r (c :: s) with
      | none =>
        rw [scan_cons_of_none h, List.flatMap_cons, hchar, ih s.length (Nat.lt_succ_self _) s rfl]
        rfl
      | some found =>
        obtain ⟨a, rest⟩ := found
        obtain ⟨he, hne⟩ := hhit _ _ _ h
        obtain ⟨first, more, hf⟩ := List.exists_cons_of_ne_nil hne
        rw [hf, List.cons_append, List.cons.injEq] at he
        obtain ⟨rfl, rfl⟩ := he
        have hshorter : rest.length < (c :: (more ++ rest)).length := by
          rw [List.length_cons, List.length_append]
          omega
        rw [scan_cons_of_some h (List.suffix_append _ _), List.flatMap_cons, ih _ hshorter rest rfl, hf,
          List.cons_append]

theorem mem_findings {r : Recogniser α} {s : List Char} {a : α} :
    a ∈ findings r s ↔ .hit a ∈ scan r s := by
  simp only [findings, List.mem_filterMap]
  constructor
  · rintro ⟨piece, hp, he⟩
    cases piece <;> cases he
    exact hp
  · exact fun h => ⟨_, h, rfl⟩

theorem exists_of_hit_mem_scanFrom {skip : Nat} (h : .hit a ∈ scanFrom r skip s) :
    ∃ u rest, r u = some (a, rest) := by
  fun_induction scanFrom r skip s with
  | case1 => cases h
  | case2 skip c s ih => exact ih h
  | case3 c s b rest hb ih =>
    rcases List.mem_cons.1 h with he | h
    · cases he
      exact ⟨c :: s, rest, hb⟩
    · exact ih h
  | case4 c s _ ih =>
    rcases List.mem_cons.1 h with he | h
    · cases he
    · exact ih h

/-- What is found stands somewhere. -/
theorem exists_of_mem_findings (h : a ∈ findings r s) : ∃ u rest, r u = some (a, rest) :=
  exists_of_hit_mem_scanFrom (mem_findings.1 h)

/-! ## Places -/

theorem anywhere_of_isSome (h : (r s).isSome = true) : anywhere r s = true := by
  cases s with
  | nil => exact h
  | cons c s => rw [anywhere, h, Bool.true_or]

theorem anywhere_append_right (s : List Char) (h : anywhere r t = true) : anywhere r (s ++ t) = true := by
  induction s with
  | nil => exact h
  | cons c s ih => rw [List.cons_append, anywhere, ih, Bool.or_true]

/-- What is recognised whatever stands behind it is so where more is put behind the text. -/
theorem anywhere_append_left (hr : ∀ u, (r u).isSome = true → (r (u ++ t)).isSome = true)
    (h : anywhere r s = true) : anywhere r (s ++ t) = true := by
  induction s with
  | nil => exact anywhere_of_isSome (hr [] h)
  | cons c s ih =>
    rw [anywhere, Bool.or_eq_true] at h
    rcases h with h | h
    · exact anywhere_of_isSome (hr (c :: s) h)
    · rw [List.cons_append, anywhere, ih h, Bool.or_true]

/-! ## Parts and rows of parts -/

theorem eq_none_of_suffix (hr : ∀ u, after? mark u = none → r u = none) (hs : avoids mark s = true)
    {v : List Char} (hv : v <:+ s) (hne : v ≠ []) : r (v ++ t) = none := by
  obtain ⟨c, v, rfl⟩ := List.exists_cons_of_ne_nil hne
  have havoids := avoids_of_suffix hv hs
  rw [avoids, Bool.and_eq_true] at havoids
  exact hr _ (after?_of_clashes (clashes_append havoids.1 t))

/-- What is left of a row of parts, if it is known what each one leaves in front of anything. -/
theorem remainder_flatMap {text left : β → List Char}
    (h : ∀ part t, remainder r (text part ++ t) = left part ++ remainder r t) (parts : List β) :
    remainder r (parts.flatMap text) = parts.flatMap left := by
  induction parts with
  | nil => rfl
  | cons part parts ih => rw [List.flatMap_cons, h, ih, List.flatMap_cons]

/-- What is found in a row of parts, if it is known what is found in each one in front of anything. -/
theorem findings_flatMap {text : β → List Char} {found : β → List α}
    (h : ∀ part t, findings r (text part ++ t) = found part ++ findings r t) (parts : List β) :
    findings r (parts.flatMap text) = parts.flatMap found := by
  induction parts with
  | nil => rfl
  | cons part parts ih => rw [List.flatMap_cons, h, ih, List.flatMap_cons]

end VersionedSite.Text
