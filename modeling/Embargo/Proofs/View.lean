import Embargo.Resolution

/-!
# What a universe says

Looking a class up changes the universe: it remembers the answer. What the universe *says* about a
class does not change by that, and this is all that resolving a record depends on. So the readers of
signatures, which pass a universe from record to record, can be spoken of as if they worked with
one universe throughout.

* `Universe.view` – what a universe says about a class; `Universe.view_after` is the load-bearing
  statement, that looking a class up leaves it alone.
* `Universe.Coherent` – only true answers are remembered, which holds of every universe that is
  built by declarations and look-ups (`Universe.coherent_ofOps`). What such a universe says is the
  closure of its declarations (`Universe.Coherent.view_eq`).
* `Record.keysIn`, `Record.isResolvedIn` – resolution by what a universe says.
-/

namespace Embargo

namespace Universe

/-! ### The view -/

/-- What a universe says about a class, under either spelling of its name. -/
def view (u : Universe) (name : Text) : Option ClassInfo := (u.lookUp name).found

/-- What a universe says is what it remembers, or else the closure of its declarations. -/
theorem view_eq_or (u : Universe) (name : Text) :
    u.view name = (u.answers.get? (Text.internalName name)).or
      (u.closure? (Text.internalName name)) := by
  unfold view lookUp
  cases h : u.answers.get? (Text.internalName name) with
  | some c => simp [h]
  | none => cases hc : u.closure? (Text.internalName name) <;> simp [h, hc]

/-- The two spellings of a name are one question. -/
@[simp] theorem view_internalName (u : Universe) (name : Text) :
    u.view (Text.internalName name) = u.view name := by
  simp [view_eq_or]

/-- A declared class is visited before its supertypes, and these before what was pending. -/
theorem visit_of_get? {unvisited : Table Text ClassInfo} {visited pending : List Text}
    {name : Text} {c : ClassInfo} (hn : name ∉ visited) (h : unvisited.get? name = some c) :
    visit unvisited visited (name :: pending) =
      visit (unvisited.erase name) (visited ++ [name]) (c.supertypes ++ pending) := by
  rw [visit, if_neg hn]
  split
  · next hnone => cases hnone.symm.trans h
  · next c' hsome => rw [Option.some.inj (hsome.symm.trans h)]

/-- Visiting depends on what is declared under which name, and not on the order of declarations. -/
theorem visit_congr {unvisited unvisited' : Table Text ClassInfo} {visited pending : List Text}
    (h : unvisited.get? = unvisited'.get?) :
    visit unvisited visited pending = visit unvisited' visited pending := by
  fun_induction visit unvisited visited pending generalizing unvisited' with
  | case1 => rw [visit]
  | case2 unvisited visited name pending hn ih => rw [visit, if_pos hn, ih h]
  | case3 unvisited visited name pending hn hnone ih =>
    rw [ih h, visit, if_neg hn]
    split
    · rfl
    · next c hsome => rw [← h, hnone] at hsome; cases hsome
  | case4 unvisited visited name pending hn c hsome ih =>
    have herase : (unvisited.erase name).get? = (unvisited'.erase name).get? := by
      funext k
      rw [Table.get?_erase, Table.get?_erase, h]
    rw [ih herase, visit_of_get? hn (h ▸ hsome)]

/-- The closure depends on what is declared under which name only. -/
theorem closure?_congr {u v : Universe} (h : u.declared.get? = v.declared.get?) :
    u.closure? = v.closure? := by
  funext name
  simp only [closure?, ancestry, lineage, visit_congr h, h]

theorem declared_after (u : Universe) (name : Text) :
    (u.lookUp name).after.declared = u.declared := by
  unfold lookUp
  dsimp only
  split
  · rfl
  · split <;> rfl

/-- **Looking a class up leaves what a universe says alone.** The answer that is remembered is the
one that would be given again. -/
theorem view_after (u : Universe) (name : Text) : (u.lookUp name).after.view = u.view := by
  funext other
  rw [view_eq_or, view_eq_or, closure?_congr (congrArg _ (declared_after u name))]
  unfold lookUp
  dsimp only
  split
  · rfl
  · next hnone =>
    split
    · rfl
    · next c hc =>
      -- The answer that was remembered is the closure, which `other` would have given anyway.
      rw [Table.get?_insert]
      split
      · next heq => simp [heq, hnone, hc]
      · rfl

/-! ### Remembered answers -/

/-- Only true answers are remembered. -/
def Coherent (u : Universe) : Prop :=
  ∀ name c, u.answers.get? name = some c → u.closure? name = some c

theorem coherent_empty : empty.Coherent := fun _ _ h => by simp [empty] at h

theorem coherent_register (u : Universe) (c : ClassInfo) : (u.register c).Coherent :=
  fun _ _ h => by simp [register] at h

theorem Coherent.lookUp {u : Universe} (hu : u.Coherent) (name : Text) :
    (u.lookUp name).after.Coherent := by
  intro other c h
  rw [closure?_congr (congrArg _ (declared_after u name))]
  unfold Universe.lookUp at h
  dsimp only at h
  split at h
  · exact hu other c h
  · split at h
    · exact hu other c h
    · next d hd =>
      rw [Table.get?_insert] at h
      split at h
      · next heq => rw [heq, hd, h]
      · exact hu other c h

/-- **What a coherent universe says is the closure of its declarations.** -/
theorem Coherent.view_eq {u : Universe} (hu : u.Coherent) (name : Text) :
    u.view name = u.closure? (Text.internalName name) := by
  rw [view_eq_or]
  cases h : u.answers.get? (Text.internalName name) with
  | none => rfl
  | some c => rw [hu _ c h, Option.some_or]

/-- A class is known by its name with slashes. -/
theorem Coherent.name_eq {u : Universe} (hu : u.Coherent) {name : Text} {c : ClassInfo}
    (h : u.view name = some c) : c.name = Text.internalName name := by
  rw [hu.view_eq, closure?, Option.map_eq_some_iff] at h
  obtain ⟨d, -, rfl⟩ := h
  rfl

/-! ### Universes that can be built -/

/-- What can be done to a universe. -/
inductive Op where
  /-- A class is declared. -/
  | register (c : ClassInfo)
  /-- A class is looked up. -/
  | lookUp (name : Text)

/-- The universe after an operation. -/
def apply (u : Universe) : Op → Universe
  | .register c => u.register c
  | .lookUp name => (u.lookUp name).after

/-- The universe that operations lead to, from the empty one. -/
def ofOps (ops : List Op) : Universe := ops.foldl apply empty

theorem Coherent.apply {u : Universe} (hu : u.Coherent) (op : Op) : (u.apply op).Coherent := by
  cases op with
  | register c => exact coherent_register u c
  | lookUp name => exact hu.lookUp name

/-- **A universe that can be built is coherent.** -/
theorem coherent_ofOps (ops : List Op) : (ofOps ops).Coherent :=
  List.foldlRecOn ops apply coherent_empty fun _ hu op _ => hu.apply op

end Universe

/-! ### Resolution by the view -/

namespace Record

/-- A record resolves by what is found, and by nothing else of an answer. -/
theorem resolve_congr (r : Record) {a b : Universe.Answer} (h : a.found = b.found) :
    r.resolve a = r.resolve b := by
  rw [resolve, resolve, h]

/-- The keys that a record has in a universe; none if it does not resolve. -/
def keysIn (r : Record) (u : Universe) : List Key :=
  match r.resolve (u.lookUp r.className) with
  | .ok keys => keys
  | .error _ => []

/-- The record resolves in a universe. -/
def isResolvedIn (r : Record) (u : Universe) : Bool := (r.resolve (u.lookUp r.className)).isOk

/-- The record forbids something: it is a pattern, or it resolves. -/
def isAcceptedIn (r : Record) (u : Universe) : Bool := r.isPattern || r.isResolvedIn u

theorem keysIn_congr (r : Record) {u v : Universe} (h : u.view = v.view) :
    r.keysIn u = r.keysIn v := by
  rw [keysIn, keysIn, r.resolve_congr (congrFun h r.className)]

/-! ### The keys of a record -/

/-- The record is written about a key: its class is that of the key, and so is its member. A method
record does not say what the method returns. Patterns are about no key. -/
def concerns (r : Record) (k : Key) : Bool :=
  !r.isPattern && match k, r.member with
    | .class c, .whole => Text.internalName r.className = c
    | .field c name, .field name' => Text.internalName r.className = c && name' = name
    | .method c m, .method wanted => Text.internalName r.className = c && m.Matches wanted
    | _, _ => false

end Record

/-- The class of a method key has the method. Other keys say all that is asked of their class. -/
def Universe.offers (u : Universe) : Key → Bool
  | .method c m => (u.view c).any fun info => info.methods.contains m
  | _ => true

namespace ClassInfo

/-- The keys of a member of a class: one for each method that matches, and one for anything else. -/
def HasKey (info : ClassInfo) : Member → Key → Prop
  | .whole, k => .class info.name = k
  | .field name, k => .field info.name name = k
  | .method wanted, k => ∃ m ∈ info.methods, m.Matches wanted ∧ .method info.name m = k

theorem mem_keysOf {info : ClassInfo} {member : Member} {keys : List Key}
    (h : info.keysOf member = .ok keys) (k : Key) : k ∈ keys ↔ info.HasKey member k := by
  cases member with
  | whole =>
    obtain rfl := Except.ok.inj h
    exact List.mem_singleton.trans eq_comm
  | field name =>
    rw [keysOf] at h
    split at h
    · obtain rfl := Except.ok.inj h
      exact List.mem_singleton.trans eq_comm
    · cases h
  | method wanted =>
    have hkeys : keys = (info.findMethods wanted).map (.method info.name) := by
      rw [keysOf] at h
      split at h
      · cases h
      · next m ms hms => rw [hms, Except.ok.inj h]
    rw [hkeys, List.mem_map, HasKey]
    simp only [mem_findMethods, and_assoc]

/-- A member that a class has gives a key. -/
theorem exists_mem_keysOf {info : ClassInfo} {member : Member} {keys : List Key}
    (h : info.keysOf member = .ok keys) : ∃ k, k ∈ keys := by
  cases member with
  | whole => exact ⟨_, (mem_keysOf h (.class info.name)).2 rfl⟩
  | field name => exact ⟨_, (mem_keysOf h (.field info.name name)).2 rfl⟩
  | method wanted =>
    rw [keysOf] at h
    split at h
    · cases h
    · obtain rfl := Except.ok.inj h
      exact ⟨_, List.mem_cons_self⟩

end ClassInfo

namespace Record

variable {u : Universe} {r : Record}

theorem isResolvedIn_iff : r.isResolvedIn u = true ↔
    ∃ info keys, u.view r.className = some info ∧ info.keysOf r.member = .ok keys := by
  have hfound : (u.lookUp r.className).found = u.view r.className := rfl
  rw [isResolvedIn, resolve, hfound]
  cases u.view r.className with
  | none => simp [Except.isOk, Except.toBool]
  | some info => cases h : info.keysOf r.member <;> simp [h, Except.isOk, Except.toBool]

/-- The keys of a record that resolves are those of its member in the class that is found. -/
theorem keysIn_eq {info : ClassInfo} {keys : List Key} (hv : u.view r.className = some info)
    (hk : info.keysOf r.member = .ok keys) : r.keysIn u = keys := by
  unfold keysIn resolve
  rw [show (u.lookUp r.className).found = some info from hv]
  simp only [hk]

theorem keysIn_eq_nil (h : r.isResolvedIn u = false) : r.keysIn u = [] := by
  unfold isResolvedIn at h
  unfold keysIn
  cases hr : r.resolve (u.lookUp r.className) with
  | ok keys => simp [hr, Except.isOk, Except.toBool] at h
  | error gap => rfl

/-- **The keys of a record** are those that it is written about, as far as the class has them,
unless the record does not resolve. -/
theorem mem_keysIn (hu : u.Coherent) (hp : r.isPattern = false) {k : Key} :
    k ∈ r.keysIn u ↔ r.isResolvedIn u = true ∧ r.concerns k = true ∧ u.offers k = true := by
  by_cases hr : r.isResolvedIn u = true
  · obtain ⟨info, keys, hv, hk⟩ := isResolvedIn_iff.1 hr
    have hoffers (m : Jvm.Method) :
        u.offers (.method (Text.internalName r.className) m) = info.methods.contains m := by
      rw [Universe.offers, u.view_internalName, hv, Option.any_some]
    rw [keysIn_eq hv hk, ClassInfo.mem_keysOf hk, hr]
    cases hm : r.member with
    | whole =>
      cases k <;> simp [ClassInfo.HasKey, concerns, hp, hm, hu.name_eq hv, Universe.offers]
    | field name =>
      cases k <;> simp [ClassInfo.HasKey, concerns, hp, hm, hu.name_eq hv, Universe.offers]
    | method wanted =>
      cases k with
      | method c m =>
        -- Of the methods that match only those that the class has give keys.
        simp only [ClassInfo.HasKey, concerns, hp, hm, hu.name_eq hv, Bool.and_eq_true,
          decide_eq_true_eq, Bool.not_false, true_and]
        constructor
        · rintro ⟨m', hmem, hmatch, he⟩
          obtain ⟨rfl, rfl⟩ := Key.method.inj he
          exact ⟨⟨rfl, hmatch⟩, (hoffers m').trans (List.contains_iff_mem.2 hmem)⟩
        · rintro ⟨⟨rfl, hmatch⟩, ho⟩
          exact ⟨m, List.contains_iff_mem.1 ((hoffers m).symm.trans ho), hmatch, rfl⟩
      | «class» c => simp [ClassInfo.HasKey, concerns, hm]
      | field c name => simp [ClassInfo.HasKey, concerns, hm]
  · rw [keysIn_eq_nil (by simpa using hr)]
    simp [hr]

end Record
end Embargo
