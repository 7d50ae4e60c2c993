/-!
# Tables

A *table* keeps values under keys, in the order in which the keys first came.
Putting a value under a key that is there replaces the value and keeps the place,
so the order of a table is the order of first mention.  Objects of a document,
properties of a type, registered resources and the headings of a page are tables.

`get?_put` says what a look-up sees after a change, and `keys_put` that a change
only ever appends a key.
-/

namespace SchemaDoc

/-- Values under keys, oldest key first. -/
abbrev Table (κ α : Type) := List (κ × α)

namespace Table

variable {κ α : Type} [DecidableEq κ]

/-- The value under a key. -/
def get? : Table κ α → κ → Option α
  | [], _ => none
  | (k, v) :: rest, key => if k = key then some v else get? rest key

/-- Put a value under a key, in the place of the old value if there is one. -/
def put : Table κ α → κ → α → Table κ α
  | [], key, value => [(key, value)]
  | (k, v) :: rest, key, value =>
    if k = key then (k, value) :: rest else (k, v) :: put rest key value

/-- The keys, oldest first. -/
def keys (table : Table κ α) : List κ := table.map Prod.fst

/-- The values, by age of their keys. -/
def values (table : Table κ α) : List α := table.map Prod.snd

/-- Whether a key has a value. -/
def has (table : Table κ α) (key : κ) : Bool := (table.get? key).isSome

/-- The table of some pairs, put one after the other. -/
def ofPairs (pairs : List (κ × α)) : Table κ α :=
  pairs.foldl (fun table pair => table.put pair.1 pair.2) []

theorem get?_put (table : Table κ α) (key other : κ) (value : α) :
    (table.put key value).get? other = if key = other then some value else table.get? other := by
  induction table with
  | nil => simp [put, get?]
  | cons pair rest ih =>
    obtain ⟨k, v⟩ := pair
    by_cases hk : k = key
    · subst hk
      by_cases ho : k = other <;> simp [put, get?, ho]
    · by_cases ho : k = other
      · subst ho
        simp [put, get?, hk, Ne.symm hk]
      · simp [put, get?, hk, ho, ih]

/-- A key that has a value keeps having one. -/
theorem isSome_get?_put {table : Table κ α} {other : κ} (h : (table.get? other).isSome) (key : κ)
    (value : α) : ((table.put key value).get? other).isSome := by
  rw [get?_put]
  split
  · rfl
  · exact h

/-- A change keeps the keys and appends the one that is new. -/
theorem keys_put (table : Table κ α) (key : κ) (value : α) :
    (table.put key value).keys =
      if key ∈ table.keys then table.keys else table.keys ++ [key] := by
  induction table with
  | nil => simp [put, keys]
  | cons pair rest ih =>
    obtain ⟨k, v⟩ := pair
    by_cases hk : k = key
    · simp [put, keys, hk]
    · have hk' : ¬ key = k := fun h => hk h.symm
      simp only [keys] at ih
      by_cases hm : key ∈ rest.map Prod.fst <;> simp [put, keys, hk, hk', ih, hm]

/-- A change never repeats a key. -/
theorem nodup_put {table : Table κ α} (h : table.keys.Nodup) (key : κ) (value : α) :
    (table.put key value).keys.Nodup := by
  rw [keys_put]
  split
  · exact h
  · rename_i new
    refine List.nodup_append.mpr ⟨h, List.nodup_cons.mpr ⟨nofun, .nil⟩, fun old ho other hk => ?_⟩
    rw [List.mem_singleton] at hk
    rintro rfl
    exact new (hk ▸ ho)

/-- A value under a key stands in the table. -/
theorem mem_of_get? {table : Table κ α} {key : κ} {value : α} (h : table.get? key = some value) :
    (key, value) ∈ table := by
  induction table with
  | nil => cases h
  | cons pair rest ih =>
    obtain ⟨k, v⟩ := pair
    rw [get?] at h
    split at h
    · rename_i hk
      cases h
      exact hk ▸ List.mem_cons_self
    · exact List.mem_cons_of_mem _ (ih h)

/-- The first pair with a key has its value, and none before it has the key. -/
theorem split_of_get? {table : Table κ α} {key : κ} {value : α} (h : table.get? key = some value) :
    ∃ front back, table = front ++ (key, value) :: back ∧ Table.get? front key = none := by
  induction table with
  | nil => cases h
  | cons pair rest ih =>
    obtain ⟨k, v⟩ := pair
    rw [get?] at h
    split at h
    · rename_i hk
      cases h
      exact ⟨[], rest, by rw [hk]; rfl, rfl⟩
    · rename_i hk
      obtain ⟨front, back, hs, hf⟩ := ih h
      refine ⟨(k, v) :: front, back, by rw [hs]; rfl, ?_⟩
      rw [get?, if_neg hk, hf]

/-- Exactly the keys have values. -/
theorem get?_eq_none_iff {table : Table κ α} {key : κ} :
    table.get? key = none ↔ key ∉ table.keys := by
  induction table with
  | nil => simp [get?, keys]
  | cons pair rest ih =>
    obtain ⟨k, v⟩ := pair
    by_cases hk : k = key
    · simp [get?, keys, hk]
    · simp only [keys] at ih
      simp [get?, keys, hk, ih, Ne.symm hk]

/-- In a table without repeated keys a key has the value beside it. -/
theorem get?_of_mem {table : Table κ α} (h : table.keys.Nodup) {key : κ} {value : α}
    (hm : (key, value) ∈ table) : table.get? key = some value := by
  induction table with
  | nil => cases hm
  | cons pair rest ih =>
    obtain ⟨k, v⟩ := pair
    obtain ⟨new, nodup⟩ := List.nodup_cons.mp h
    rcases List.mem_cons.mp hm with e | hm
    · cases e
      rw [get?, if_pos rfl]
    · have hk : k ≠ key := fun hk => new (List.mem_map.mpr ⟨_, hm, hk.symm⟩)
      rw [get?, if_neg hk, ih nodup hm]

/-- A new key comes last. -/
theorem put_of_get?_none {table : Table κ α} {key : κ} (h : table.get? key = none) (value : α) :
    table.put key value = table ++ [(key, value)] := by
  induction table with
  | nil => rfl
  | cons pair rest ih =>
    obtain ⟨k, v⟩ := pair
    rw [get?] at h
    split at h
    · cases h
    · rename_i hk
      rw [put, if_neg hk, ih h, List.cons_append]

/-- What is added behind a table does not hide it. -/
theorem get?_append (table others : Table κ α) (key : κ) :
    Table.get? (table ++ others) key = (table.get? key).or (Table.get? others key) := by
  induction table with
  | nil => rfl
  | cons pair rest ih =>
    obtain ⟨k, v⟩ := pair
    rw [List.cons_append, get?, get?]
    split
    · rfl
    · exact ih

end Table

/-! ## Tests -/

example : Table.put [("a", 1), ("b", 2)] "a" 3 = [("a", 3), ("b", 2)] := by decide
example : Table.put [("a", 1)] "b" 2 = [("a", 1), ("b", 2)] := by decide
example : Table.ofPairs [("a", 1), ("b", 2), ("a", 3)] = [("a", 3), ("b", 2)] := by decide

end SchemaDoc
