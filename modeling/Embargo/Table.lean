/-!
# Tables

A table gives values to keys, and remembers the order in which the keys came. Putting a value to a
key that is there already replaces the value and leaves the key at its place.

* `Table.get?` – the view that the lemmas speak about.
* `Table.insert` – the only way to change a table, with `Table.get?_insert`.
-/

namespace Embargo

/-- Values by keys, in the order in which the keys came. -/
structure Table (α β : Type) where
  /-- The keys with their values. -/
  entries : List (α × β)
  deriving DecidableEq

namespace Table

variable {α β : Type}

/-- The table without keys. -/
def empty : Table α β := ⟨[]⟩

/-- The keys, in order. -/
def keys (t : Table α β) : List α := t.entries.map Prod.fst

/-- The number of keys. -/
def size (t : Table α β) : Nat := t.entries.length

/-- No key has a value. -/
def isEmpty (t : Table α β) : Bool := t.entries.isEmpty

@[simp] theorem length_keys (t : Table α β) : t.keys.length = t.size := List.length_map _

variable [DecidableEq α]

/-- The value of a key. -/
def get? (t : Table α β) (k : α) : Option β := t.entries.lookup k

/-- The entries with a value put to a key. -/
def put (k : α) (v : β) : List (α × β) → List (α × β)
  | [] => [(k, v)]
  | (k', v') :: rest => if k = k' then (k, v) :: rest else (k', v') :: put k v rest

/-- The table with a value put to a key. -/
def insert (t : Table α β) (k : α) (v : β) : Table α β := ⟨put k v t.entries⟩

/-- The table of a list of pairs; a later pair wins. -/
def ofList (pairs : List (α × β)) : Table α β :=
  pairs.foldl (fun t p => t.insert p.1 p.2) empty

/-- The values of a later table laid over those of an earlier one. -/
def override (t later : Table α β) : Table α β :=
  later.entries.foldl (fun t p => t.insert p.1 p.2) t

/-- The table without a key. -/
def erase (t : Table α β) (k : α) : Table α β := ⟨t.entries.filter fun p => p.1 ≠ k⟩

@[simp] theorem get?_empty (k : α) : (empty : Table α β).get? k = none := rfl

@[simp] theorem get?_insert (t : Table α β) (k k' : α) (v : β) :
    (t.insert k v).get? k' = if k' = k then some v else t.get? k' := by
  obtain ⟨entries⟩ := t
  simp only [insert, get?]
  induction entries with
  | nil => simp only [put, List.lookup_cons, List.lookup_nil]; grind
  | cons p rest ih =>
    obtain ⟨l, w⟩ := p
    rw [put]
    split
    · next h => subst h; simp only [List.lookup_cons]; grind
    · next h => simp only [List.lookup_cons, ih]; grind

@[simp] theorem get?_erase (t : Table α β) (k k' : α) :
    (t.erase k).get? k' = if k' = k then none else t.get? k' := by
  obtain ⟨entries⟩ := t
  change (entries.filter fun p => p.1 ≠ k).lookup k' = if k' = k then none else entries.lookup k'
  induction entries with
  | nil => simp
  | cons p rest ih =>
    obtain ⟨l, w⟩ := p
    rw [List.filter_cons]
    grind

/-- A key comes behind the others, unless it is there already. -/
theorem keys_insert (t : Table α β) (k : α) (v : β) :
    (t.insert k v).keys = if k ∈ t.keys then t.keys else t.keys ++ [k] := by
  obtain ⟨entries⟩ := t
  change (put k v entries).map Prod.fst =
    if k ∈ entries.map Prod.fst then entries.map Prod.fst else entries.map Prod.fst ++ [k]
  induction entries with
  | nil => rfl
  | cons p rest ih =>
    obtain ⟨l, w⟩ := p
    rw [put]
    split
    · next h => simp [h]
    · next h =>
      simp only [List.map_cons, ih, List.mem_cons, h, false_or]
      split <;> rfl

theorem nodup_keys_insert {t : Table α β} (h : t.keys.Nodup) (k : α) (v : β) :
    (t.insert k v).keys.Nodup := by
  rw [keys_insert]
  split
  · exact h
  · grind [List.nodup_append]

/-- Exactly the keys have values. -/
theorem mem_keys_iff {t : Table α β} {k : α} : k ∈ t.keys ↔ (t.get? k).isSome = true := by
  obtain ⟨entries⟩ := t
  change k ∈ entries.map Prod.fst ↔ (entries.lookup k).isSome = true
  induction entries with
  | nil => simp
  | cons p rest ih =>
    obtain ⟨l, w⟩ := p
    rw [List.map_cons, List.mem_cons, ih, List.lookup_cons]
    grind

/-- A key and its value are an entry. -/
theorem mem_entries_of_get? {t : Table α β} {k : α} {v : β} (h : t.get? k = some v) :
    (k, v) ∈ t.entries := by
  obtain ⟨before, after, he, -⟩ := List.lookup_eq_some_iff.1 h
  simp [he]

/-- A key with a value is among the keys. -/
theorem mem_keys_of_get? {t : Table α β} {k : α} {v : β} (h : t.get? k = some v) : k ∈ t.keys :=
  List.mem_map.2 ⟨(k, v), mem_entries_of_get? h, rfl⟩

/-- Without a key that had a value, the table is smaller. -/
theorem size_erase_lt {t : Table α β} {k : α} {v : β} (h : t.get? k = some v) :
    (t.erase k).size < t.size := by
  obtain ⟨before, after, he, -⟩ := List.lookup_eq_some_iff.1 h
  obtain ⟨entries⟩ := t
  simp only at he
  subst he
  have hb := List.length_filter_le (fun p : α × β => decide (p.1 ≠ k)) before
  have ha := List.length_filter_le (fun p : α × β => decide (p.1 ≠ k)) after
  simp [erase, size] at hb ha ⊢
  omega

end Table
end Embargo
