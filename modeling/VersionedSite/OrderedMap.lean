/-!
# Maps in insertion order

A map keeps its entries in the order in which their keys were first put in; putting a key in again
replaces its value where it stands.

* `find?_insert_self`, `find?_insert_of_ne`: looking up after putting in.
* `keys_insert_of_mem`, `keys_insert_of_not_mem`: what putting in does to the order.
* `find?_erase_self`, `find?_erase_of_ne`: looking up after taking out.
-/

namespace VersionedSite

/-- A map whose entries stand in the order of their first insertion. -/
structure OrderedMap (α β : Type) where
  /-- The entries, oldest key first. -/
  entries : List (α × β)
  deriving Repr, DecidableEq

namespace OrderedMap

variable {α β : Type} [DecidableEq α]

/-- The map without entries. -/
def empty : OrderedMap α β := ⟨[]⟩

/-- The keys, oldest first. -/
def keys (m : OrderedMap α β) : List α := m.entries.map Prod.fst

/-- The values, oldest key first. -/
def values (m : OrderedMap α β) : List β := m.entries.map Prod.snd

/-- The number of keys. -/
def size (m : OrderedMap α β) : Nat := m.entries.length

/-- The value of the first entry for `k`. -/
def findEntry (k : α) : List (α × β) → Option β
  | [] => none
  | (a, b) :: rest => if a = k then some b else findEntry k rest

/-- The value of a key. -/
def find? (m : OrderedMap α β) (k : α) : Option β := findEntry k m.entries

/-- Whether a key is in the map. -/
def contains (m : OrderedMap α β) (k : α) : Bool := (m.find? k).isSome

/-- Entries with the value of `k` replaced where it stands, or put at the end. -/
def insertEntry (k : α) (v : β) : List (α × β) → List (α × β)
  | [] => [(k, v)]
  | (a, b) :: rest => if a = k then (a, v) :: rest else (a, b) :: insertEntry k v rest

/-- The map with `k` at `v`. -/
def insert (m : OrderedMap α β) (k : α) (v : β) : OrderedMap α β := ⟨insertEntry k v m.entries⟩

/-- The map without `k`. -/
def erase (m : OrderedMap α β) (k : α) : OrderedMap α β :=
  ⟨m.entries.filter fun e => e.1 ≠ k⟩

/-- The map without the entries that a test picks. -/
def dropWhere (m : OrderedMap α β) (drop : α → β → Bool) : OrderedMap α β :=
  ⟨m.entries.filter fun e => !drop e.1 e.2⟩

/-- The map of a list of entries: a repeated key keeps its first place and its last value. -/
def ofList (entries : List (α × β)) : OrderedMap α β :=
  entries.foldl (fun m e => m.insert e.1 e.2) empty

/-! ## Laws -/

theorem findEntry_insertEntry_self (k : α) (v : β) (l : List (α × β)) :
    findEntry k (insertEntry k v l) = some v := by
  induction l with
  | nil => simp [insertEntry, findEntry]
  | cons e l ih =>
    obtain ⟨a, b⟩ := e
    by_cases h : a = k <;> simp [insertEntry, findEntry, h, ih]

theorem findEntry_insertEntry_of_ne {k j : α} (h : j ≠ k) (v : β) (l : List (α × β)) :
    findEntry j (insertEntry k v l) = findEntry j l := by
  induction l with
  | nil => simp [insertEntry, findEntry, Ne.symm h]
  | cons e l ih =>
    obtain ⟨a, b⟩ := e
    by_cases ha : a = k
    · subst ha; simp [insertEntry, findEntry, Ne.symm h]
    · simp only [insertEntry, ha, ite_false, findEntry, ih]

theorem findEntry_filter_self (k : α) (l : List (α × β)) :
    findEntry k (l.filter fun e => e.1 ≠ k) = none := by
  induction l with
  | nil => rfl
  | cons e l ih =>
    obtain ⟨a, b⟩ := e
    by_cases h : a = k <;> simp_all [findEntry]

theorem findEntry_filter_of_ne {k j : α} (h : j ≠ k) (l : List (α × β)) :
    findEntry j (l.filter fun e => e.1 ≠ k) = findEntry j l := by
  induction l with
  | nil => rfl
  | cons e l ih =>
    obtain ⟨a, b⟩ := e
    by_cases ha : a = k
    · subst ha; simp_all [findEntry, Ne.symm h]
    · simp_all [findEntry]

@[simp] theorem find?_insert_self (m : OrderedMap α β) (k : α) (v : β) :
    (m.insert k v).find? k = some v :=
  findEntry_insertEntry_self k v m.entries

theorem find?_insert_of_ne (m : OrderedMap α β) {k j : α} (h : j ≠ k) (v : β) :
    (m.insert k v).find? j = m.find? j :=
  findEntry_insertEntry_of_ne h v m.entries

@[simp] theorem find?_empty (k : α) : (empty : OrderedMap α β).find? k = none := rfl

theorem keys_insert_of_not_mem (m : OrderedMap α β) {k : α} (h : k ∉ m.keys) (v : β) :
    (m.insert k v).keys = m.keys ++ [k] := by
  obtain ⟨l⟩ := m
  simp only [keys, insert] at h ⊢
  induction l with
  | nil => rfl
  | cons e l ih =>
    obtain ⟨a, b⟩ := e
    simp only [List.map_cons, List.mem_cons, not_or] at h
    have ha : a ≠ k := fun he => h.1 he.symm
    simp [insertEntry, ha, ih h.2]

theorem keys_insert_of_mem (m : OrderedMap α β) {k : α} (h : k ∈ m.keys) (v : β) :
    (m.insert k v).keys = m.keys := by
  obtain ⟨l⟩ := m
  simp only [keys, insert] at h ⊢
  induction l with
  | nil => simp at h
  | cons e l ih =>
    obtain ⟨a, b⟩ := e
    by_cases ha : a = k
    · subst ha; simp [insertEntry]
    · have hk : k ∈ l.map Prod.fst := by
        simpa [Ne.symm ha] using h
      simp [insertEntry, ha, ih hk]

theorem find?_erase_self (m : OrderedMap α β) (k : α) : (m.erase k).find? k = none :=
  findEntry_filter_self k m.entries

theorem find?_erase_of_ne (m : OrderedMap α β) {k j : α} (h : j ≠ k) :
    (m.erase k).find? j = m.find? j :=
  findEntry_filter_of_ne h m.entries

end OrderedMap

end VersionedSite
