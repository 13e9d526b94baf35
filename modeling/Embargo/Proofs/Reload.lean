import Embargo.Proofs.Dependence

/-!
# Making a call once more

A call that is made again considers the records of the first one again, in the same order, and
writes to an index that holds everything that they wrote. Within one call a key may be written many
times, with different reports, so the second call does overwrite what the first one left; only at
its end is the index what it was.

* `Table.insertAll_insertAll` – writing a list of values to a table twice leaves what writing it
  once leaves. A key keeps its place, and its last value counts.
* `Index.foldl_follow_eq_fill` – what a trace does to the index is to fill its four containers, each
  from a list of its own: the keys with their reports, the uses of methods, the patterns, and
  whether internal classes of the runtime are forbidden.
* `Session.perform_idem` – hence a call that is made again changes nothing. Its deeds are those of
  the first call (`Session.deedsOf_perform_congr`), since the universe says what it said before.
-/

namespace Embargo

/-! ### Writing to a table once more -/

namespace Table

variable {α β : Type} [DecidableEq α]

/-- The table with values put to keys, one after the other. -/
def insertAll (t : Table α β) (pairs : List (α × β)) : Table α β :=
  pairs.foldl (fun t pair => t.insert pair.1 pair.2) t

variable {t : Table α β} {k k' : α} {v v' : β} {pairs : List (α × β)}

theorem mem_keys_insert : k' ∈ (t.insert k v).keys ↔ k' = k ∨ k' ∈ t.keys := by
  rw [keys_insert]
  split <;> grind

/-- The later of two values for a key counts. -/
theorem insert_insert : (t.insert k v).insert k v' = t.insert k v' := by
  obtain ⟨entries⟩ := t
  simp only [insert, Table.mk.injEq]
  induction entries with
  | nil => simp [put]
  | cons pair rest ih =>
    obtain ⟨l, w⟩ := pair
    by_cases h : k = l
    · simp [put, h]
    · simp [put, h, ih]

/-- A key that is there keeps its place, so it does not matter when its value comes. -/
theorem insert_comm (hne : k ≠ k') (hk : k ∈ t.keys) :
    (t.insert k v).insert k' v' = (t.insert k' v').insert k v := by
  obtain ⟨entries⟩ := t
  simp only [insert, keys, Table.mk.injEq] at hk ⊢
  induction entries with
  | nil => cases hk
  | cons pair rest ih =>
    obtain ⟨l, w⟩ := pair
    by_cases h : k = l
    · subst h
      simp [put, hne.symm]
    · have hrest : k ∈ rest.map Prod.fst := (List.mem_cons.1 hk).resolve_left h
      by_cases h' : k' = l
      · simp [put, h, h']
      · simp [put, h, h', ih hrest]

/-- A value that a key has already changes nothing. -/
theorem insert_of_get? (h : t.get? k = some v) : t.insert k v = t := by
  obtain ⟨entries⟩ := t
  simp only [insert, get?, Table.mk.injEq] at h ⊢
  induction entries with
  | nil => cases h
  | cons pair rest ih =>
    obtain ⟨l, w⟩ := pair
    by_cases hkl : k = l
    · subst hkl
      obtain rfl : w = v := by simpa [List.lookup_cons] using h
      simp [put]
    · have hne : (k == l) = false := beq_false_of_ne hkl
      rw [List.lookup_cons, hne] at h
      rw [put, if_neg hkl, ih h]

theorem mem_keys_insertAll (h : k ∈ t.keys) : k ∈ (t.insertAll pairs).keys :=
  List.foldlRecOn (motive := fun t : Table α β => k ∈ t.keys) pairs _ h fun _ h _ _ =>
    mem_keys_insert.2 (.inr h)

theorem get?_insertAll_of_notMem (h : k ∉ pairs.map Prod.fst) :
    (t.insertAll pairs).get? k = t.get? k := by
  induction pairs generalizing t with
  | nil => rfl
  | cons pair pairs ih =>
    obtain ⟨hne, hrest⟩ := List.ne_and_not_mem_of_not_mem_cons h
    rw [insertAll, List.foldl_cons, ← insertAll, ih hrest, get?_insert, if_neg hne]

/-- A value that is replaced later does not matter. -/
theorem insertAll_insert (hk : k ∈ t.keys) (h : k ∈ pairs.map Prod.fst) :
    (t.insert k v).insertAll pairs = t.insertAll pairs := by
  induction pairs generalizing t with
  | nil => cases h
  | cons pair pairs ih =>
    obtain ⟨l, w⟩ := pair
    simp only [insertAll, List.foldl_cons]
    by_cases hkl : k = l
    · rw [hkl, insert_insert]
    · rw [insert_comm hkl hk]
      exact ih (mem_keys_insert.2 (.inr hk)) ((List.mem_cons.1 h).resolve_left hkl)

/-- **Writing the same once more changes nothing.** -/
theorem insertAll_insertAll : (t.insertAll pairs).insertAll pairs = t.insertAll pairs := by
  -- Every end of the list finds its last values in the table already.
  suffices h : ∀ front back, pairs = front ++ back →
      (t.insertAll pairs).insertAll back = t.insertAll pairs from h [] pairs rfl
  intro front back
  induction back generalizing front with
  | nil => exact fun _ => rfl
  | cons pair back ih =>
    obtain ⟨k, v⟩ := pair
    intro hpairs
    have hsplit : t.insertAll pairs = ((t.insertAll front).insert k v).insertAll back := by
      rw [hpairs, insertAll, List.foldl_append]
      rfl
    have hback := ih (front ++ [(k, v)]) (by simp [hpairs])
    change ((t.insertAll pairs).insert k v).insertAll back = _
    by_cases hk : k ∈ back.map Prod.fst
    · have hkeys : k ∈ (t.insertAll pairs).keys := by
        rw [hsplit]
        exact mem_keys_insertAll (mem_keys_insert.2 (.inl rfl))
      rw [insertAll_insert hkeys hk, hback]
    · have hget : (t.insertAll pairs).get? k = some v := by
        rw [hsplit, get?_insertAll_of_notMem hk, get?_insert, if_pos rfl]
      rw [insert_of_get? hget, hback]

end Table

/-- Adding elements once more that a list holds once changes nothing. -/
theorem foldl_addOnce_of_subset {α : Type} [DecidableEq α] {xs ys : List α}
    (h : ∀ y ∈ ys, y ∈ xs) : ys.foldl addOnce xs = xs := by
  induction ys with
  | nil => rfl
  | cons y ys ih =>
    obtain ⟨hy, hys⟩ := List.forall_mem_cons.1 h
    rw [List.foldl_cons, addOnce, if_pos hy, ih hys]

theorem mem_foldl_addOnce {α : Type} [DecidableEq α] {xs ys : List α} {x : α} :
    x ∈ ys.foldl addOnce xs ↔ x ∈ xs ∨ x ∈ ys := by
  induction ys generalizing xs with
  | nil => simp
  | cons y ys ih => rw [List.foldl_cons, ih, mem_addOnce, List.mem_cons, or_assoc]

/-! ### What a trace writes -/

/-- A key without its return type, with its report. -/
def useOf? (w : Key × Text) : Option (MethodUse × Text) := w.1.use?.map fun use => (use, w.2)

namespace Event

variable (u : Universe)

/-- The keys that an event writes, with their reports. -/
def writes : Event → List (Key × Text)
  | .considered r _ => if r.isPattern then [] else (r.keysIn u).map fun k => (k, r.printout)
  | _ => []

/-- The patterns that an event adds. -/
def patterns : Event → List ClassPattern
  | .considered r _ => if r.isPattern then [r.pattern] else []
  | _ => []

/-- The event forbids internal classes of the runtime. -/
def forbidsNonPortable : Event → Bool
  | .forbadeNonPortable => true
  | _ => false

end Event

namespace Index

variable (u : Universe) (index : Index)

/-- The index with each of its containers filled. -/
def fill (writes : List (Key × Text)) (patterns : List ClassPattern) (nonPortable : Bool) :
    Index where
  reports := index.reports.insertAll writes
  uses := index.uses.insertAll (writes.filterMap useOf?)
  patterns := patterns.foldl addOnce index.patterns
  nonPortable := index.nonPortable || nonPortable

theorem fill_fill (writes writes' : List (Key × Text)) (patterns patterns' : List ClassPattern)
    (b b' : Bool) : (index.fill writes patterns b).fill writes' patterns' b' =
      index.fill (writes ++ writes') (patterns ++ patterns') (b || b') := by
  simp [fill, Table.insertAll, List.foldl_append, Bool.or_assoc]

/-- **Filling the index with the same once more changes nothing.** -/
theorem fill_idem (writes : List (Key × Text)) (patterns : List ClassPattern) (b : Bool) :
    (index.fill writes patterns b).fill writes patterns b = index.fill writes patterns b := by
  have hpatterns : patterns.foldl addOnce (patterns.foldl addOnce index.patterns) =
      patterns.foldl addOnce index.patterns :=
    foldl_addOnce_of_subset fun pattern h => mem_foldl_addOnce.2 (.inr h)
  simp only [fill, Table.insertAll_insertAll, hpatterns, Bool.or_assoc, Bool.or_self]

theorem add_eq_fill (report : Text) (keys : List Key) :
    index.add report keys = index.fill (keys.map fun k => (k, report)) [] false := by
  induction keys generalizing index with
  | nil => simp [add, fill, Table.insertAll]
  | cons key keys ih =>
    have hinsert : index.insert report key = index.fill [(key, report)] [] false := by
      cases huse : key.use? <;> simp [insert, fill, huse, useOf?, Table.insertAll]
    rw [add, List.foldl_cons, ← add, ih, hinsert, fill_fill]
    rfl

theorem follow_eq_fill (e : Event) :
    index.follow u e = index.fill (e.writes u) e.patterns e.forbidsNonPortable := by
  have hnone : index = index.fill [] [] false := by simp [fill, Table.insertAll]
  cases e with
  | considered r policy =>
    rw [follow, accept]
    cases hp : r.isPattern with
    | true => simp [addPattern, fill, Event.writes, Event.patterns, Event.forbidsNonPortable, hp,
        Table.insertAll]
    | false => simp [add_eq_fill, Event.writes, Event.patterns, Event.forbidsNonPortable, hp]
  | forbadeNonPortable => simp [follow, forbidNonPortable, fill, Event.writes, Event.patterns,
      Event.forbidsNonPortable, Table.insertAll]
  | _ => exact hnone

/-- **What a trace does to the index** is to fill its containers, each from a list of its own. -/
theorem foldl_follow_eq_fill (t : Trace) : t.foldl (follow u) index =
    index.fill (t.flatMap (Event.writes u)) (t.flatMap Event.patterns)
      (t.any Event.forbidsNonPortable) := by
  induction t generalizing index with
  | nil => simp [fill, Table.insertAll]
  | cons e t ih => rw [List.foldl_cons, ih, follow_eq_fill, fill_fill]; rfl

/-- Only deeds change the index. -/
theorem foldl_follow_deedsOf (t : Trace) :
    (deedsOf t).foldl (follow u) index = t.foldl (follow u) index := by
  induction t generalizing index with
  | nil => rfl
  | cons e t ih =>
    rw [deedsOf, List.filter_cons]
    split
    · exact ih _
    · next he =>
      have hfollow : index.follow u e = index := by
        cases e with
        | considered r policy => exact absurd rfl he
        | forbadeNonPortable => exact absurd rfl he
        | _ => rfl
      rw [List.foldl_cons, hfollow]
      exact ih index

end Index

/-! ### Calls -/

namespace Session

/-- What a call does to the index can be recomputed from its deeds. -/
theorem replays_perform (s : Session) (r : Registry) (call : Call) :
    (s.perform r call).registry.classes.view = r.classes.view ∧
    (s.perform r call).registry.index =
      (deedsOf (s.perform r call).trace).foldl (Index.follow r.classes) r.index := by
  obtain ⟨hview, t, ht, hindex⟩ := s.respects_replays.perform replays_of_isSummary r call
  obtain rfl : (s.perform r call).trace = t := ht
  rw [Index.foldl_follow_deedsOf]
  exact ⟨hview, hindex⟩

/-- **Making a call once more changes nothing**: it ends as it ended before, whether it went through
or failed, and leaves the index as it was. -/
theorem perform_idem (s : Session) (r : Registry) (call : Call) :
    let first := s.perform r call
    let second := s.perform first.registry call
    second.failure = first.failure ∧ second.registry.index = first.registry.index := by
  intro first second
  obtain ⟨hview, hindex⟩ := s.replays_perform r call
  obtain ⟨-, hindex'⟩ := s.replays_perform first.registry call
  refine ⟨s.failure_perform_congr hview call, ?_⟩
  -- The second call does the deeds of the first once more.
  rw [hindex', s.deedsOf_perform_congr hview call, Index.follow_congr hview, hindex,
    Index.foldl_follow_eq_fill, Index.foldl_follow_eq_fill, Index.fill_idem]

end Session
end Embargo
