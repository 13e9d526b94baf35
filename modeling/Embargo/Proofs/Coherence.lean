import Mathlib.Data.List.Induction
import Mathlib.Data.List.Nodup
import Embargo.Proofs.View
import Embargo.Universe.Manifest

/-!
# A universe answers like a fresh one

A universe is asked for classes, whether it has them and how many it has, and in between classes are
declared, declared anew, or fail to be declared. **Nothing of this history shows in the answers**
but the last class that was declared under each name: a fresh universe with just these classes
answers alike, whatever it is asked from then on.

| request | reply | what it leaves behind |
|---|---|---|
| `register` | none | the class, and no remembered answers |
| `declare`, `declareParts` | the class, or why it cannot be read | the same, or nothing |
| `resolve` | the class with inherited members, or that it is not declared | the answer |
| `contains`, `size` | what was asked | nothing |

* `Universe.handle`, `Universe.replies` – a request and its reply; a row of them.
* `Universe.HoldsLast` – the classes that were declared last.
* `Universe.Alike` – the invariant: two universes have the same classes, in whatever order, and
  remember true answers only. Such universes reply alike (`Universe.Alike.reply`) and stay alike
  (`Universe.Alike.handle`), so that all their later replies agree (`Universe.Alike.replies`).
* `Universe.answers_coherent` – the result.

The supertypes that a look-up passes over (`Universe.Answer.skipped`) are no part of its reply. They
are noted only the first time since a declaration, so they do depend on the history.
-/

namespace Embargo

namespace Table

variable {α β : Type} [DecidableEq α]

/-- Tables in which each key stands once, and has the same value, are of the same size. -/
theorem size_eq {t t' : Table α β} (h : t.keys.Nodup) (h' : t'.keys.Nodup)
    (hget : t.get? = t'.get?) : t.size = t'.size := by
  have hperm : t.keys.Perm t'.keys :=
    (List.perm_ext_iff_of_nodup h h').2 fun k => by rw [mem_keys_iff, mem_keys_iff, hget]
  simpa using hperm.length_eq

end Table

namespace Universe

open Jvm

/-! ### Requests -/

/-- What a universe is asked to do. -/
inductive Request where
  /-- A class is declared. -/
  | register (c : ClassInfo)
  /-- A class is declared by plain values. -/
  | declare (name : Text) (methods : List (Method ⊕ Text)) (fields : List Text)
      (superclass : Option Text) (interfaces : List Text)
  /-- A class is declared by its parts, as in a manifest. -/
  | declareParts (name : Text) (parts : Value)
  /-- A class is looked up. -/
  | resolve (name : Text)
  /-- Is the class declared? -/
  | contains (name : Text)
  /-- How many classes are declared? -/
  | size

/-- What a universe replies. -/
inductive Reply where
  /-- There is nothing to say. -/
  | done
  /-- A class. -/
  | found (c : ClassInfo)
  /-- Whether a class is declared. -/
  | contained (b : Bool)
  /-- How many classes are declared. -/
  | counted (n : Nat)
  /-- Why the request fails. -/
  | failed (p : Problem)

/-- The request only asks. -/
def Request.isQuery : Request → Bool
  | .resolve _ | .contains _ | .size => true
  | .register _ | .declare .. | .declareParts .. => false

/-- The class that a request declares, if it is a declaration and can be read. -/
def Request.class? : Request → Option ClassInfo
  | .register c => some c
  | .declare name methods fields superclass interfaces =>
    (ClassInfo.ofDeclaration name methods fields superclass interfaces).toOption
  | .declareParts name parts => (ClassInfo.ofParts name parts).toOption
  | .resolve _ | .contains _ | .size => none

/-- The reply to a request, and the universe afterwards. -/
def handle (u : Universe) : Request → Reply × Universe
  | .register c => (.done, u.register c)
  | .declare name methods fields superclass interfaces =>
    match u.declare name methods fields superclass interfaces with
    | .ok (c, v) => (.found c, v)
    | .error e => (.failed e.problem, u)
  | .declareParts name parts =>
    match u.declareParts name parts with
    | .ok (c, v) => (.found c, v)
    | .error e => (.failed e.problem, u)
  | .resolve name =>
    match u.lookUp name with
    | ⟨some c, _, v⟩ => (.found c, v)
    | ⟨none, _, v⟩ => (.failed (.failure (.classNotFound name)), v)
  | .contains name => (.contained (u.contains name), u)
  | .size => (.counted u.size, u)

/-- The replies to requests, one after the other. -/
def replies (u : Universe) : List Request → List Reply
  | [] => []
  | request :: later => (u.handle request).1 :: (u.handle request).2.replies later

/-- The universe after requests, from the empty one. -/
def ofRequests (requests : List Request) : Universe :=
  requests.foldl (fun u request => (u.handle request).2) empty

/-- The universe of some classes, declared one after the other. -/
def ofClasses (classes : List ClassInfo) : Universe := classes.foldl register empty

/-- **What a request can do**: declare a class, fail and do nothing, or ask. The first two have the
same reply in every universe. -/
inductive Request.Effect (request : Request) : Prop where
  /-- It declares a class. -/
  | declares (c : ClassInfo) (reply : Reply) (hclass : request.class? = some c)
      (hquery : request.isQuery = false) (hreply : ∀ p, reply ≠ .failed p)
      (heq : ∀ u : Universe, u.handle request = (reply, u.register c))
  /-- It is a declaration that cannot be read. -/
  | fails (p : Problem) (hclass : request.class? = none)
      (heq : ∀ u : Universe, u.handle request = (.failed p, u))
  /-- It asks. -/
  | asks (hclass : request.class? = none) (hquery : request.isQuery = true)

theorem Request.effect (request : Request) : request.Effect := by
  cases request with
  | register c => exact .declares c .done rfl rfl (fun _ => nofun) fun _ => rfl
  | declare name methods fields superclass interfaces =>
    cases h : ClassInfo.ofDeclaration name methods fields superclass interfaces with
    | ok c =>
      exact .declares c (.found c) (by simp [class?, h, Except.toOption]) rfl (fun _ => nofun)
        fun u => by simp [handle, Universe.declare, h, Except.map]
    | error e =>
      exact .fails e.problem (by simp [class?, h, Except.toOption])
        fun u => by simp [handle, Universe.declare, h, Except.map]
  | declareParts name parts =>
    cases h : ClassInfo.ofParts name parts with
    | ok c =>
      exact .declares c (.found c) (by simp [class?, h, Except.toOption]) rfl (fun _ => nofun)
        fun u => by simp [handle, Universe.declareParts, h, Except.map]
    | error e =>
      exact .fails e.problem (by simp [class?, h, Except.toOption])
        fun u => by simp [handle, Universe.declareParts, h, Except.map]
  | resolve name => exact .asks rfl rfl
  | contains name => exact .asks rfl rfl
  | size => exact .asks rfl rfl

/-- A look-up replies with what the universe says. -/
theorem handle_resolve (u : Universe) (name : Text) :
    u.handle (.resolve name) = (match u.view name with
      | some c => .found c
      | none => .failed (.failure (.classNotFound name)), (u.lookUp name).after) := by
  rw [handle, view]
  rcases u.lookUp name with ⟨_ | c, skipped, v⟩ <;> rfl

/-! ### The invariant -/

/-- Only true answers are remembered, and each name has one class. -/
structure IsSound (u : Universe) : Prop where
  /-- Only true answers are remembered. -/
  coherent : u.Coherent
  /-- Each name has one class. -/
  nodup : u.declared.keys.Nodup

theorem isSound_empty : empty.IsSound := ⟨coherent_empty, List.nodup_nil⟩

theorem IsSound.register {u : Universe} (hu : u.IsSound) (c : ClassInfo) :
    (u.register c).IsSound :=
  ⟨coherent_register u c, Table.nodup_keys_insert hu.nodup c.name c⟩

theorem IsSound.lookUp {u : Universe} (hu : u.IsSound) (name : Text) :
    (u.lookUp name).after.IsSound :=
  ⟨hu.coherent.lookUp name, (declared_after u name).symm ▸ hu.nodup⟩

/-- A class is declared exactly if the universe says something about it. -/
theorem Coherent.contains_eq {u : Universe} (hu : u.Coherent) (name : Text) :
    u.contains name = (u.view name).isSome := by
  rw [hu.view_eq, closure?, Option.isSome_map, contains]

/-- Two sound universes have the same classes, in whatever order they were declared. -/
structure Alike (u v : Universe) : Prop where
  /-- The first is sound. -/
  left : u.IsSound
  /-- The second is sound. -/
  right : v.IsSound
  /-- They have the same classes. -/
  get? : u.declared.get? = v.declared.get?

namespace Alike

variable {u v : Universe}

theorem view (h : Alike u v) : u.view = v.view := by
  funext name
  rw [h.left.coherent.view_eq, h.right.coherent.view_eq, closure?_congr h.get?]

theorem register (h : Alike u v) (c : ClassInfo) : Alike (u.register c) (v.register c) where
  left := h.left.register c
  right := h.right.register c
  get? := by
    funext name
    simp only [Universe.register, Table.get?_insert, h.get?]

/-- A query replies alike, and changes no class. -/
theorem query (h : Alike u v) {request : Request} (hq : request.isQuery = true) :
    (u.handle request).1 = (v.handle request).1 ∧
      Alike (u.handle request).2 v ∧ Alike (u.handle request).2 (v.handle request).2 := by
  cases request with
  | resolve name =>
    rw [handle_resolve, handle_resolve, h.view]
    have hleft : Alike (u.lookUp name).after v :=
      ⟨h.left.lookUp name, h.right, (congrArg _ (declared_after u name)).trans h.get?⟩
    refine ⟨rfl, hleft, ⟨hleft.left, h.right.lookUp name, ?_⟩⟩
    exact hleft.get?.trans (congrArg _ (declared_after v name)).symm
  | contains name =>
    refine ⟨congrArg Reply.contained ?_, h, h⟩
    rw [h.left.coherent.contains_eq, h.right.coherent.contains_eq, h.view]
  | size => exact ⟨congrArg Reply.counted (Table.size_eq h.left.nodup h.right.nodup h.get?), h, h⟩
  | register c => cases hq
  | declare name methods fields superclass interfaces => cases hq
  | declareParts name parts => cases hq

/-- Universes that are alike reply alike, -/
theorem reply (h : Alike u v) (request : Request) :
    (u.handle request).1 = (v.handle request).1 := by
  cases request.effect with
  | declares c reply _ _ _ heq => rw [heq, heq]
  | fails p _ heq => rw [heq, heq]
  | asks _ hquery => exact (h.query hquery).1

/-- and they stay alike. -/
theorem handle (h : Alike u v) (request : Request) :
    Alike (u.handle request).2 (v.handle request).2 := by
  cases request.effect with
  | declares c reply _ _ _ heq =>
    rw [heq, heq]
    exact h.register c
  | fails p _ heq =>
    rw [heq, heq]
    exact h
  | asks _ hquery => exact (h.query hquery).2.2

/-- **Universes that are alike cannot be told apart** by what they are asked later. -/
theorem replies (h : Alike u v) (later : List Request) : u.replies later = v.replies later := by
  induction later generalizing u v with
  | nil => rfl
  | cons request later ih =>
    rw [Universe.replies, Universe.replies, h.reply request, ih (h.handle request)]

/-- A universe is still like another after a query, and after a request that failed. -/
theorem of_idle (h : Alike u v) {request : Request}
    (hidle : request.isQuery = true ∨ ∃ p, (u.handle request).1 = .failed p) :
    Alike (u.handle request).2 v := by
  cases request.effect with
  | declares c reply _ hquery hreply heq =>
    rcases hidle with hq | ⟨p, hp⟩
    · cases hquery.symm.trans hq
    · exact absurd hp ((heq u).symm ▸ hreply p)
  | fails p _ heq =>
    rw [heq]
    exact h
  | asks _ hquery => exact (h.query hquery).2.1

end Alike

theorem IsSound.alike {u : Universe} (hu : u.IsSound) : Alike u u := ⟨hu, hu, rfl⟩

/-- The universes that requests lead to are sound. -/
theorem isSound_ofRequests (requests : List Request) : (ofRequests requests).IsSound :=
  List.foldlRecOn requests _ isSound_empty fun _ hu request _ => (hu.alike.handle request).left

theorem isSound_ofClasses (classes : List ClassInfo) : (ofClasses classes).IsSound :=
  List.foldlRecOn classes _ isSound_empty fun _ hu c _ => hu.register c

/-! ### The classes that count -/

/-- The classes that requests declare, in order. -/
def registered (requests : List Request) : List ClassInfo := requests.filterMap Request.class?

/-- The last class of a name. -/
def lastNamed (classes : List ClassInfo) (name : Text) : Option ClassInfo :=
  (classes.filter fun c => c.name = name).getLast?

/-- The classes are those that the requests declared last: each is the last one of its name, and no
name is left out. Their own order does not matter. -/
structure HoldsLast (classes : List ClassInfo) (requests : List Request) : Prop where
  /-- Each class is the last one of its name. -/
  last : ∀ c ∈ classes, lastNamed (registered requests) c.name = some c
  /-- No name is left out. -/
  covers : ∀ c ∈ registered requests, ∃ d ∈ classes, d.name = c.name

variable {classes : List ClassInfo} {name : Text} {c : ClassInfo}

theorem lastNamed_concat : lastNamed (classes ++ [c]) name =
    if c.name = name then some c else lastNamed classes name := by
  rw [lastNamed, List.filter_append]
  split
  · next h => simp [h]
  · next h => simp [h, lastNamed]

theorem mem_of_lastNamed (h : lastNamed classes name = some c) : c ∈ classes ∧ c.name = name := by
  simpa using List.mem_filter.1 (List.mem_of_getLast? h)

theorem exists_lastNamed (hc : c ∈ classes) : ∃ d, lastNamed classes c.name = some d := by
  rw [lastNamed, ← Option.isSome_iff_exists, List.getLast?_isSome]
  exact List.ne_nil_of_mem (List.mem_filter.2 ⟨hc, decide_eq_true rfl⟩)

/-- There are classes that were declared last. -/
theorem exists_holdsLast (requests : List Request) : ∃ classes, HoldsLast classes requests := by
  refine ⟨(registered requests).filter fun c =>
    lastNamed (registered requests) c.name = some c, ?_, ?_⟩
  · intro c hc
    simpa using (List.mem_filter.1 hc).2
  · intro c hc
    obtain ⟨d, hd⟩ := exists_lastNamed hc
    obtain ⟨hmem, hname⟩ := mem_of_lastNamed hd
    exact ⟨d, List.mem_filter.2 ⟨hmem, by simp [hname, hd]⟩, hname⟩

theorem HoldsLast.lastNamed_eq {requests : List Request} (h : HoldsLast classes requests) :
    lastNamed classes = lastNamed (registered requests) := by
  funext name
  cases hc : lastNamed classes name with
  | some c =>
    obtain ⟨hmem, rfl⟩ := mem_of_lastNamed hc
    exact (h.last c hmem).symm
  | none =>
    cases hd : lastNamed (registered requests) name with
    | none => rfl
    | some d =>
      obtain ⟨hmem, rfl⟩ := mem_of_lastNamed hd
      obtain ⟨e, he, hname⟩ := h.covers d hmem
      obtain ⟨f, hf⟩ := exists_lastNamed he
      rw [hname, hc] at hf
      cases hf

/-- Of the classes that were declared under a name, the last one is there. -/
theorem get?_ofClasses (classes : List ClassInfo) :
    (ofClasses classes).declared.get? = lastNamed classes := by
  funext name
  induction classes using List.reverseRecOn with
  | nil => rfl
  | append_singleton classes c ih =>
    rw [ofClasses, List.foldl_append]
    change ((ofClasses classes).register c).declared.get? name = _
    rw [register, Table.get?_insert, lastNamed_concat, ih]
    simp only [eq_comm]

/-- Requests leave behind the classes that they declare. -/
theorem alike_ofRequests (requests : List Request) :
    Alike (ofRequests requests) (ofClasses (registered requests)) := by
  induction requests using List.reverseRecOn with
  | nil => exact isSound_empty.alike
  | append_singleton requests request ih =>
    have hstep : ofRequests (requests ++ [request]) = ((ofRequests requests).handle request).2 :=
      List.foldl_append
    have hclass : registered (requests ++ [request]) = registered requests ++
        request.class?.toList := by
      rw [registered, List.filterMap_append]
      cases h : request.class? <;> simp [registered, h]
    rw [hstep, hclass]
    cases request.effect with
    | declares c reply hc _ _ heq =>
      rw [heq, hc, ofClasses, Option.toList_some, List.foldl_append]
      exact ih.register c
    | fails p hc heq =>
      rw [heq, hc, Option.toList_none, List.append_nil]
      exact ih
    | asks hc hquery =>
      rw [hc, Option.toList_none, List.append_nil]
      exact (ih.query hquery).2.1

/-! ### The result -/

/-- **A universe answers like a fresh one** that has the last class of each name, whatever it is
asked from then on. It has exactly the classes that can be looked up. Queries and declarations that
fail change no later reply, among them the number of classes. -/
theorem answers_coherent (requests : List Request) (classes : List ClassInfo)
    (hlast : HoldsLast classes requests) :
    let u := ofRequests requests
    (∀ later, u.replies later = (ofClasses classes).replies later) ∧
    (∀ name, u.contains name = true ↔ ∃ c, (u.handle (.resolve name)).1 = .found c) ∧
    (∀ name, u.contains name = false ↔
      (u.handle (.resolve name)).1 = .failed (.failure (.classNotFound name))) ∧
    ∀ request, (request.isQuery = true ∨ ∃ p, (u.handle request).1 = .failed p) →
      ∀ later, (u.handle request).2.replies later = u.replies later := by
  intro u
  have hu : u.IsSound := isSound_ofRequests requests
  have halike : Alike u (ofClasses classes) := by
    refine ⟨hu, isSound_ofClasses classes, (alike_ofRequests requests).get?.trans ?_⟩
    rw [get?_ofClasses, get?_ofClasses, hlast.lastNamed_eq]
  refine ⟨halike.replies, fun name => ?_, fun name => ?_,
    fun request hidle => (hu.alike.of_idle hidle).replies⟩
  all_goals
    rw [hu.coherent.contains_eq, handle_resolve]
    cases u.view name <;> simp

/-- A class is looked up, its superclass comes late, and it cannot be declared anew. -/
def lateRequests : List Request :=
  [.declare "a.Child".toText [.inr "run()V".toText] [] (some "a.Parent".toText) [],
    .resolve "a.Child".toText,
    .declare "a.Parent".toText [] [] none [],
    .declare "a.Parent".toText [] ["late".toText] none [],
    .declare "a.Child".toText [.inr "run(".toText] [] none [],
    .contains "a/Child".toText]

/-- The classes that count afterwards. -/
def lateClasses : List ClassInfo :=
  [.make "a.Parent".toText [] ["late".toText] [] none [],
    .make "a.Child".toText [⟨"run".toText, [], .void⟩] [] [] (some "a.Parent".toText) []]

theorem lineage_lateClasses : (ofClasses lateClasses).lineage "a/Child".toText =
    ["a/Child".toText, "a/Parent".toText] := by
  rw [lineage, visit_of_get? (c := .make "a.Child".toText [⟨"run".toText, [], .void⟩] [] []
      (some "a.Parent".toText) []) (by decide) (by decide +kernel),
    show ClassInfo.supertypes _ ++ [] = ["a/Parent".toText] by decide,
    visit_of_get? (c := .make "a.Parent".toText [] ["late".toText] [] none []) (by decide)
      (by decide +kernel), show ClassInfo.supertypes _ ++ [] = [] by decide, visit]
  rfl

/-- The fresh universe lets the class inherit the field. -/
theorem view_lateClasses :
    ((ofClasses lateClasses).view "a.Child".toText).map ClassInfo.fields =
      some ["late".toText] := by
  rw [(isSound_ofClasses lateClasses).coherent.view_eq, closure?, ancestry,
    show Text.internalName "a.Child".toText = "a/Child".toText by decide, lineage_lateClasses]
  decide +kernel

/-- The field that came late is inherited, as in the fresh universe, and a declaration that fails
changes neither this nor the number of classes. -/
theorem answers_coherent_late :
    HoldsLast lateClasses lateRequests ∧
    (∃ c, ((ofRequests lateRequests).handle (.resolve "a.Child".toText)).1 = .found c ∧
      c.fields = ["late".toText]) ∧
    ∀ later, ((ofRequests lateRequests).handle
      (.declare "b.New".toText [.inr "run(".toText] [] none [])).2.replies later =
        (ofRequests lateRequests).replies later := by
  have hlast : HoldsLast lateClasses lateRequests := ⟨by decide +kernel, by decide +kernel⟩
  obtain ⟨hfresh, -, -, hidle⟩ := answers_coherent lateRequests lateClasses hlast
  obtain ⟨c, hc, hfields⟩ := Option.map_eq_some_iff.1 view_lateClasses
  refine ⟨hlast, ⟨c, ?_, hfields⟩, hidle _ (.inr ⟨_, rfl⟩)⟩
  have hreply := (List.cons.inj (hfresh [.resolve "a.Child".toText])).1
  rw [hreply, handle_resolve, hc]

end Universe
end Embargo
