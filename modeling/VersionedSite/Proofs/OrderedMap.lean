import Mathlib.Data.List.Induction
import VersionedSite.OrderedMap

/-!
# Maps built from lists

What a test does not pick is still found where entries are dropped (`find?_dropWhere`). A map of a list
of entries has the keys of the list in the order in which they come up first (`sublist_keys_ofList`), each
once (`nodup_keys_ofList`), and under each key the last of its values (`find?_ofList`).
-/

namespace VersionedSite.OrderedMap

variable {α β : Type} [DecidableEq α]

theorem mem_keys_of_find? {m : OrderedMap α β} {k : α} {v : β} (h : m.find? k = some v) :
    (k, v) ∈ m.entries := by
  obtain ⟨l⟩ := m
  simp only [find?] at h ⊢
  induction l with
  | nil => simp [findEntry] at h
  | cons e l ih =>
    obtain ⟨a, b⟩ := e
    by_cases ha : a = k
    · subst ha
      simp only [findEntry, ite_true, Option.some.injEq] at h
      rw [h]
      exact List.mem_cons_self
    · simp only [findEntry, ha, ite_false] at h
      exact List.mem_cons_of_mem _ (ih h)

/-- Where no key repeats, an entry is what is found under its key. -/
theorem find?_eq_some_iff {m : OrderedMap α β} (hm : m.keys.Nodup) {k : α} {v : β} :
    m.find? k = some v ↔ (k, v) ∈ m.entries := by
  refine ⟨mem_keys_of_find?, fun h => ?_⟩
  obtain ⟨l⟩ := m
  simp only [find?, keys] at h hm ⊢
  induction l with
  | nil => simp at h
  | cons e l ih =>
    obtain ⟨a, b⟩ := e
    simp only [List.map_cons, List.nodup_cons] at hm
    rcases List.mem_cons.1 h with he | h
    · rw [Prod.mk.injEq] at he
      simp [findEntry, he.1, he.2]
    · have ha : a ≠ k := by
        rintro rfl
        exact hm.1 (List.mem_map_of_mem (f := Prod.fst) h)
      simp only [findEntry, ha, ite_false]
      exact ih hm.2 h

theorem keys_insert (m : OrderedMap α β) (k : α) (v : β) :
    (m.insert k v).keys = if k ∈ m.keys then m.keys else m.keys ++ [k] := by
  split
  · exact keys_insert_of_mem m ‹_› v
  · exact keys_insert_of_not_mem m ‹_› v

theorem ofList_concat (l : List (α × β)) (e : α × β) :
    ofList (l ++ [e]) = (ofList l).insert e.1 e.2 := by
  simp [ofList]

theorem nodup_keys_insert {m : OrderedMap α β} (hm : m.keys.Nodup) (k : α) (v : β) :
    (m.insert k v).keys.Nodup := by
  rw [keys_insert]
  split
  · exact hm
  · rw [List.nodup_append]
    refine ⟨hm, by simp, fun a ha b hb hab => ?_⟩
    rw [List.mem_singleton] at hb
    subst hab hb
    contradiction

theorem nodup_keys_ofList (l : List (α × β)) : (ofList l).keys.Nodup := by
  induction l using List.reverseRecOn with
  | nil => exact List.nodup_nil
  | append_singleton l e ih =>
    rw [ofList_concat]
    exact nodup_keys_insert ih _ _

theorem sublist_keys_ofList (l : List (α × β)) : (ofList l).keys.Sublist (l.map Prod.fst) := by
  induction l using List.reverseRecOn with
  | nil => exact List.Sublist.refl _
  | append_singleton l e ih =>
    rw [ofList_concat, keys_insert, List.map_append]
    split
    · exact ih.trans (List.sublist_append_left _ _)
    · exact ih.append (List.Sublist.refl _)

theorem keys_ofList {l : List (α × β)} (h : (l.map Prod.fst).Nodup) : (ofList l).keys = l.map Prod.fst := by
  induction l using List.reverseRecOn with
  | nil => rfl
  | append_singleton l e ih =>
    rw [List.map_append, List.nodup_append] at h
    rw [ofList_concat, keys_insert, ih h.1, if_neg, List.map_append]
    · rfl
    · exact fun hm => h.2.2 _ hm _ (by simp) rfl

theorem find?_ofList (l : List (α × β)) (k : α) :
    (ofList l).find? k = ((l.filter fun e => e.1 = k).getLast?).map Prod.snd := by
  induction l using List.reverseRecOn with
  | nil => rfl
  | append_singleton l e ih =>
    rw [ofList_concat, List.filter_append]
    by_cases he : e.1 = k
    · rw [he, find?_insert_self]
      simp [he]
    · rw [find?_insert_of_ne _ (Ne.symm he), ih]
      simp [he]

theorem exists_find?_of_mem {m : OrderedMap α β} {k : α} (h : k ∈ m.keys) :
    ∃ v, m.find? k = some v := by
  obtain ⟨l⟩ := m
  simp only [keys, find?] at h ⊢
  induction l with
  | nil => simp at h
  | cons e l ih =>
    obtain ⟨a, b⟩ := e
    by_cases ha : a = k
    · exact ⟨b, by simp [findEntry, ha]⟩
    · rw [List.map_cons, List.mem_cons, or_iff_right (Ne.symm ha)] at h
      simpa only [findEntry, ha, ite_false] using ih h

theorem contains_iff {m : OrderedMap α β} {k : α} : m.contains k = true ↔ k ∈ m.keys := by
  rw [contains, Option.isSome_iff_exists]
  refine ⟨fun ⟨v, hv⟩ => ?_, exists_find?_of_mem⟩
  exact List.mem_map_of_mem (f := Prod.fst) (mem_keys_of_find? hv)

theorem entries_insert_subset (m : OrderedMap α β) (k : α) (v : β) :
    (m.insert k v).entries ⊆ (k, v) :: m.entries := by
  obtain ⟨l⟩ := m
  simp only [insert]
  intro e h
  induction l with
  | nil => exact h
  | cons d l ih =>
    obtain ⟨a, b⟩ := d
    rw [insertEntry] at h
    split at h
    · rename_i ha
      rcases List.mem_cons.1 h with rfl | h
      · exact ha ▸ List.mem_cons_self
      · exact List.mem_cons_of_mem _ (List.mem_cons_of_mem _ h)
    · rcases List.mem_cons.1 h with rfl | h
      · exact List.mem_cons_of_mem _ List.mem_cons_self
      · rcases List.mem_cons.1 (ih h) with rfl | h
        · exact List.mem_cons_self
        · exact List.mem_cons_of_mem _ (List.mem_cons_of_mem _ h)

theorem mem_entries_insert {m : OrderedMap α β} {k : α} {v : β} {e : α × β}
    (h : e ∈ (m.insert k v).entries) : e ∈ m.entries ∨ e.2 = v := by
  rcases List.mem_cons.1 (entries_insert_subset m k v h) with rfl | h
  · exact .inr rfl
  · exact .inl h

theorem entries_insert_of_not_mem (m : OrderedMap α β) {k : α} (h : k ∉ m.keys) (v : β) :
    (m.insert k v).entries = m.entries ++ [(k, v)] := by
  obtain ⟨l⟩ := m
  simp only [keys, insert] at h ⊢
  induction l with
  | nil => rfl
  | cons e l ih =>
    rw [List.map_cons, List.mem_cons, not_or] at h
    rw [insertEntry, if_neg (Ne.symm h.1), ih h.2, List.cons_append]

/-- Taking out what was put in anew leaves the map as it was. -/
theorem erase_insert_of_not_mem (m : OrderedMap α β) {k : α} (h : k ∉ m.keys) (v : β) :
    (m.insert k v).erase k = m := by
  have hothers : m.entries.filter (fun e => e.1 ≠ k) = m.entries := by
    refine List.filter_eq_self.2 fun e he => ?_
    have hne : e.1 ≠ k := fun hk => h (hk ▸ List.mem_map_of_mem (f := Prod.fst) he)
    simpa using hne
  rw [erase, entries_insert_of_not_mem m h, List.filter_append, hothers]
  simp

theorem entries_erase_subset (m : OrderedMap α β) (k : α) : (m.erase k).entries ⊆ m.entries :=
  List.filter_sublist.subset

/-- What a test does not pick stays where entries are dropped. -/
theorem find?_dropWhere {m : OrderedMap α β} {drop : α → β → Bool} {k : α} {v : β}
    (h : m.find? k = some v) (hd : drop k v = false) : (m.dropWhere drop).find? k = some v := by
  obtain ⟨l⟩ := m
  simp only [find?, dropWhere] at h ⊢
  induction l with
  | nil => simp [findEntry] at h
  | cons e l ih =>
    obtain ⟨a, b⟩ := e
    by_cases ha : a = k
    · subst ha
      obtain rfl : b = v := by simpa [findEntry] using h
      simp [hd, findEntry]
    · rw [findEntry, if_neg ha] at h
      cases hb : drop a b with
      | false => simp [hb, findEntry, ha, ih h]
      | true => simpa [hb] using ih h

theorem find?_dropWhere_none {m : OrderedMap α β} {drop : α → β → Bool} {k : α}
    (h : m.find? k = none) : (m.dropWhere drop).find? k = none := by
  rw [Option.eq_none_iff_forall_ne_some]
  intro v hv
  have hmem : k ∈ m.keys :=
    List.mem_map_of_mem (f := Prod.fst) (List.mem_filter.1 (mem_keys_of_find? hv)).1
  obtain ⟨w, hw⟩ := exists_find?_of_mem hmem
  cases h.symm.trans hw

/-- Where no key repeats, dropping entries leaves a key's value or nothing. -/
theorem find?_dropWhere_cases {m : OrderedMap α β} (hm : m.keys.Nodup) {drop : α → β → Bool} {k : α}
    {v : β} (h : m.find? k = some v) :
    (m.dropWhere drop).find? k = none ∨ (m.dropWhere drop).find? k = some v := by
  cases hf : (m.dropWhere drop).find? k with
  | none => exact .inl rfl
  | some w =>
    have hw : m.find? k = some w :=
      (find?_eq_some_iff hm).2 (List.mem_filter.1 (mem_keys_of_find? hf)).1
    exact .inr (hw.symm.trans h)

omit [DecidableEq α] in
theorem nodup_keys_filter {m : OrderedMap α β} (hm : m.keys.Nodup) (test : α × β → Bool) :
    (OrderedMap.mk (m.entries.filter test)).keys.Nodup :=
  hm.sublist (List.filter_sublist.map Prod.fst)

/-- What holds of all entries of a list holds of all entries of its map. -/
theorem forall_entries_ofList {P : α → β → Prop} {l : List (α × β)} (h : ∀ e ∈ l, P e.1 e.2) :
    ∀ e ∈ (ofList l).entries, P e.1 e.2 := by
  rintro ⟨k, v⟩ he
  rw [← find?_eq_some_iff (nodup_keys_ofList l), find?_ofList] at he
  obtain ⟨e, hl, rfl⟩ := Option.map_eq_some_iff.1 he
  have hm := List.mem_of_getLast? hl
  rw [List.mem_filter, decide_eq_true_eq] at hm
  exact hm.2 ▸ h e hm.1

end VersionedSite.OrderedMap
