import Embargo.Proofs.Coherence
import Mathlib.Logic.Relation

/-!
# Inherited members

A class that is looked up has its own members and those of every declared class that is **reached**
from it over supertypes. Which classes these are is said here without regard to how they are found.
They are found by a walk that keeps a row of pending names and passes over each name once, so that
it copes with cycles, with classes that are their own supertypes and with names that come up again.

| in front of the row | what a pass does |
| --- | --- |
| a name that was visited | drops it |
| a name without a class | visits it |
| a name with a class | visits it, and puts the supertypes of the class in its place |

* `ClassInfo.HasSupertype`, `Universe.Inherits` – the direct supertypes of a class, and **the
  classes that it inherits from**, itself included.
* `Walk.Pass` – the passes of the walk. `Universe.run_lineage` says what was visited when none is
  left, and `Walk.Run.ends` that it comes to that.
* `Walk.IsSound` – the invariant: a pass keeps it (`Walk.IsSound.pass`), and so does a run
  (`Walk.IsSound.run`). At the end it says that the lineage has the names that can be reached, and
  no others (`Universe.mem_lineage_iff`).
* `Universe.IsCompletion` – a class with its inherited members.
* `Universe.inheritance_exact` – the conclusion, after any requests.
-/

namespace Embargo

/-! ### Supertypes -/

/-- **The names that a class gives as its direct supertypes**, as they are written. -/
inductive ClassInfo.HasSupertype (c : ClassInfo) : Text → Prop where
  /-- The superclass. An empty name stands for none. -/
  | superclass {name : Text} (h : c.superclass = some name) (hne : name ≠ []) : c.HasSupertype name
  /-- An interface. -/
  | interface {name : Text} (h : name ∈ c.interfaces) : c.HasSupertype name

theorem ClassInfo.mem_supertypes {c : ClassInfo} {name : Text} :
    name ∈ c.supertypes ↔ c.HasSupertype name := by
  rw [supertypes, List.mem_append, List.mem_reverse, Option.mem_toList, Option.filter_eq_some_iff]
  constructor
  · rintro (h | ⟨h, hne⟩)
    · exact .interface h
    · exact .superclass h (by simpa using hne)
  · rintro (⟨h, hne⟩ | h)
    · exact .inr ⟨h, by simpa using hne⟩
    · exact .inl h

section Declared

-- What is declared under a name.
variable (declared : Text → Option ClassInfo)

/-- There is a class of the first name, and the second is a supertype of it. -/
def Universe.Extends (name supertype : Text) : Prop :=
  ∃ c, declared name = some c ∧ c.HasSupertype supertype

/-- The name is reached over supertypes. -/
def Universe.Reaches : Text → Text → Prop := Relation.ReflTransGen (Extends declared)

/-- **The classes that a name inherits from**, that of the name itself included. -/
def Universe.Inherits (name : Text) (c : ClassInfo) : Prop :=
  ∃ supertype, Reaches declared name supertype ∧ declared supertype = some c

/-! ### The walk -/

/-- What is known in the middle of a walk. -/
structure Walk where
  /-- The names that were visited. -/
  visited : List Text
  /-- The names that were met and not looked at, the next one first. -/
  pending : List Text

/-- **A pass of the walk**, one case for each kind of name in front. -/
inductive Walk.Pass : Walk → Walk → Prop where
  /-- The name was visited. -/
  | again {visited pending : List Text} {name : Text} (h : name ∈ visited) :
    Pass ⟨visited, name :: pending⟩ ⟨visited, pending⟩
  /-- The name has no class. -/
  | unknown {visited pending : List Text} {name : Text} (h : name ∉ visited)
      (hnone : declared name = none) :
    Pass ⟨visited, name :: pending⟩ ⟨visited ++ [name], pending⟩
  /-- The name has a class, whose supertypes are looked at next. -/
  | known {visited pending : List Text} {name : Text} {c : ClassInfo} (h : name ∉ visited)
      (hc : declared name = some c) :
    Pass ⟨visited, name :: pending⟩ ⟨visited ++ [name], c.supertypes ++ pending⟩

/-- Passes, one after the other. -/
def Walk.Run : Walk → Walk → Prop := Relation.ReflTransGen (Pass declared)

/-- **The walk comes to an end**: no passes from here go on forever. -/
def Walk.Ends : Walk → Prop := Acc fun next w => Pass declared w next

/-- The walk from a name, before the first pass. -/
def Walk.start (name : Text) : Walk := ⟨[], [name]⟩

/-- The walk with nothing left to look at. -/
def Walk.stop (visited : List Text) : Walk := ⟨visited, []⟩

/-- **The invariant of a walk.** Nothing is met that cannot be reached, and of what can be reached
nothing is lost: it is reached over a name that is pending. -/
structure Walk.IsSound (name : Text) (w : Walk) : Prop where
  /-- What is met is reached. -/
  reached : ∀ n ∈ w.visited ++ w.pending, Universe.Reaches declared name n
  /-- The first name is met. -/
  started : name ∈ w.visited ++ w.pending
  /-- The supertypes of what was visited are met. -/
  closed : ∀ n ∈ w.visited, ∀ n', Universe.Extends declared n n' → n' ∈ w.visited ++ w.pending

variable {declared}

namespace Walk

/-- The name in front decides what a pass does. -/
theorem Pass.unique {w next next' : Walk} (h : Pass declared w next)
    (h' : Pass declared w next') : next = next' := by
  cases h <;> cases h' <;> grind

/-- A walk that can reach its end does, since nothing else can happen. -/
theorem Run.ends {w : Walk} {visited : List Text} (h : Run declared w (stop visited)) :
    Ends declared w := by
  induction h using Relation.ReflTransGen.head_induction_on with
  | refl => exact .intro _ fun _ hpass => nomatch hpass
  | head hpass _ ih => exact .intro _ fun _ hpass' => hpass.unique hpass' ▸ ih

theorem isSound_start (name : Text) : (start name).IsSound declared name where
  reached := by
    intro n hn
    obtain rfl : n = name := List.mem_singleton.1 hn
    exact .refl
  started := List.mem_singleton_self name
  closed := nofun

/-- **A pass keeps the invariant.** -/
theorem IsSound.pass {name : Text} {w w' : Walk} (h : w.IsSound declared name)
    (hpass : Pass declared w w') : w'.IsSound declared name := by
  obtain ⟨hreached, hstarted, hclosed⟩ := h
  cases hpass with
  | @again visited pending front hfront =>
    have hmem {n : Text} : n ∈ visited ++ front :: pending ↔ n ∈ visited ++ pending := by
      grind
    exact ⟨fun n hn => hreached n (hmem.2 hn), hmem.1 hstarted,
      fun n hn n' hn' => hmem.1 (hclosed n hn n' hn')⟩
  | @unknown visited pending front hfront hnone =>
    have hmet : visited ++ front :: pending = visited ++ [front] ++ pending := List.append_cons ..
    rw [hmet] at hreached hstarted hclosed
    refine ⟨hreached, hstarted, fun n hn n' hn' => ?_⟩
    rcases List.mem_append.1 hn with hn | hn
    · exact hclosed n hn n' hn'
    · obtain rfl := List.mem_singleton.1 hn
      obtain ⟨c, hc, -⟩ := hn'
      cases hnone.symm.trans hc
  | @known visited pending front c hfront hc =>
    have hmet {n : Text} : n ∈ visited ++ [front] ++ (c.supertypes ++ pending) ↔
        n ∈ visited ++ front :: pending ∨ c.HasSupertype n := by
      rw [← ClassInfo.mem_supertypes]
      grind
    have hextends {n : Text} (hn : c.HasSupertype n) : Universe.Extends declared front n :=
      ⟨c, hc, hn⟩
    have hfrontReached : Universe.Reaches declared name front := hreached front (by simp)
    refine ⟨fun n hn => ?_, hmet.2 (.inl hstarted), fun n hn n' hn' => hmet.2 ?_⟩
    · exact (hmet.1 hn).elim (hreached n) fun hn => hfrontReached.tail (hextends hn)
    · rcases List.mem_append.1 hn with hn | hn
      · exact .inl (hclosed n hn n' hn')
      · obtain rfl := List.mem_singleton.1 hn
        obtain ⟨d, hd, hn'⟩ := hn'
        obtain rfl := Option.some.inj (hc.symm.trans hd)
        exact .inr hn'

/-- **A run keeps the invariant.** -/
theorem IsSound.run {name : Text} {w w' : Walk} (h : w.IsSound declared name)
    (hrun : Run declared w w') : w'.IsSound declared name := by
  induction hrun with
  | refl => exact h
  | tail _ hpass ih => exact ih.pass hpass

/-- At the end of a walk, what was visited is what can be reached. -/
theorem IsSound.mem_iff {name : Text} {visited : List Text}
    (h : (stop visited).IsSound declared name) {n : Text} :
    n ∈ visited ↔ Universe.Reaches declared name n := by
  have hpending : visited ++ [] = visited := List.append_nil visited
  obtain ⟨hreached, hstarted, hclosed⟩ := h
  constructor
  · intro hn
    exact hreached n (List.mem_append_left [] hn)
  · intro hn
    induction hn with
    | refl => exact hpending ▸ hstarted
    | tail _ hstep ih => exact hpending ▸ hclosed _ ih _ hstep

end Walk

namespace Universe

/-- **The walk visits what `visit` yields.** The classes that are left to this are those of the
names that were not visited. -/
theorem run_visit {unvisited : Table Text ClassInfo} {visited pending : List Text}
    (h : ∀ name, unvisited.get? name = if name ∈ visited then none else declared name) :
    Walk.Run declared ⟨visited, pending⟩ (Walk.stop (visit unvisited visited pending)) := by
  fun_induction visit unvisited visited pending with
  | case1 => exact .refl
  | case2 unvisited visited front pending hfront ih => exact .head (.again hfront) (ih h)
  | case3 unvisited visited front pending hfront hnone ih =>
    have hclass : declared front = none := by rw [← hnone, h, if_neg hfront]
    refine .head (.unknown hfront hclass) (ih fun name => ?_)
    rw [h name]
    grind
  | case4 unvisited visited front pending hfront c hc ih =>
    have hclass : declared front = some c := by rw [← hc, h, if_neg hfront]
    refine .head (.known hfront hclass) (ih fun name => ?_)
    rw [Table.get?_erase, h name]
    grind

theorem run_lineage (u : Universe) (name : Text) :
    Walk.Run u.declared.get? (Walk.start name) (Walk.stop (u.lineage name)) :=
  run_visit fun _ => by simp

/-- **The lineage of a name** has the names that are reached from it, and no others. -/
theorem mem_lineage_iff {u : Universe} {name n : Text} :
    n ∈ u.lineage name ↔ Reaches u.declared.get? name n :=
  ((Walk.isSound_start name).run (u.run_lineage name)).mem_iff

theorem mem_ancestry_iff {u : Universe} {name : Text} {c : ClassInfo} :
    c ∈ u.ancestry name ↔ Inherits u.declared.get? name c := by
  simp only [ancestry, List.mem_filterMap, mem_lineage_iff, Inherits]

end Universe

/-! ### Classes with inherited members -/

namespace Universe

/-- **A class with its inherited members.** It has the members of all classes that its name inherits
from, and no others; its name is the one that was asked for, and its supertypes are its own. -/
structure IsCompletion (declared : Text → Option ClassInfo) (name : Text) (c info : ClassInfo) :
    Prop where
  /-- The name is the one that was asked for. -/
  name_eq : info.name = name
  /-- The superclass is that of the class. -/
  superclass_eq : info.superclass = c.superclass
  /-- The interfaces are those of the class. -/
  interfaces_eq : info.interfaces = c.interfaces
  /-- The methods are those of the classes that it inherits from. -/
  mem_methods_iff : ∀ m, m ∈ info.methods ↔ ∃ d, Inherits declared name d ∧ m ∈ d.methods
  /-- The fields are those of the classes that it inherits from, -/
  mem_fields_iff : ∀ f, f ∈ info.fields ↔ ∃ d, Inherits declared name d ∧ f ∈ d.fields
  /-- and so is what stands among their names and is no text. -/
  mem_strayFields_iff : ∀ f, f ∈ info.strayFields ↔
    ∃ d, Inherits declared name d ∧ f ∈ d.strayFields

/-- **The closure of a class is the class with its inherited members.** -/
theorem exists_closure? {u : Universe} {name : Text} {c : ClassInfo}
    (h : u.declared.get? name = some c) :
    ∃ info, u.closure? name = some info ∧ IsCompletion u.declared.get? name c info := by
  refine ⟨_, Option.map_eq_some_iff.2 ⟨c, h, rfl⟩, rfl, rfl, rfl, ?_, ?_, ?_⟩
  all_goals
    intro x
    rw [mem_distinct, List.mem_flatMap]
    simp only [mem_ancestry_iff]

/-! ### Orders of declaration -/

variable {classes classes' : List ClassInfo}

/-- The classes are declared in another order, but those of one name in the order that they had. -/
def Reorders (classes classes' : List ClassInfo) : Prop :=
  ∀ name, (classes.filter fun c => c.name = name) = classes'.filter fun c => c.name = name

theorem Reorders.lastNamed_eq (h : Reorders classes classes') :
    lastNamed classes = lastNamed classes' :=
  funext fun name => congrArg List.getLast? (h name)

/-- Classes with distinct names may be declared in any order. -/
theorem Reorders.of_perm (h : classes.Perm classes') (hnodup : (classes.map ClassInfo.name).Nodup) :
    Reorders classes classes' := by
  intro name
  have hperm := h.filter fun c => decide (c.name = name)
  have hnames : ((classes.filter fun c => c.name = name).map ClassInfo.name).Nodup :=
    hnodup.sublist (List.filter_sublist.map _)
  have hname : ∀ c ∈ classes.filter fun c => c.name = name, c.name = name := fun c hc =>
    of_decide_eq_true (List.mem_filter.1 hc).2
  generalize (classes.filter fun c => c.name = name) = named at hperm hnames hname ⊢
  rcases named with _ | ⟨c, _ | ⟨d, named⟩⟩
  · exact hperm.nil_eq
  · exact hperm.singleton_eq
  · -- Two classes of one name are not distinct.
    have hsame : c.name = d.name := (hname c (by simp)).trans (hname d (by simp)).symm
    simp [hsame] at hnames

theorem lastNamed_eq_none_iff {name : Text} :
    lastNamed classes name = none ↔ ∀ c ∈ classes, c.name ≠ name := by
  rw [lastNamed, List.getLast?_eq_none_iff, List.filter_eq_nil_iff]
  simp

/-! ### The result -/

/-- What is declared after requests is what they declared last. -/
theorem get?_ofRequests (requests : List Request) :
    (ofRequests requests).declared.get? = lastNamed (registered requests) :=
  (alike_ofRequests requests).get?.trans (get?_ofClasses _)

/-- **Members are inherited exactly.** After any requests, the walk over the supertypes of a name
comes to an end. The look-up fails if and only if no class was declared under the name with slashes,
and otherwise finds the class that was declared last under this name, with the members of all
classes that it inherits from. In which order classes of different names were declared does not
matter. -/
theorem inheritance_exact (requests : List Request) (name : Text) :
    let u := ofRequests requests
    let classes := registered requests
    let internal := Text.internalName name
    (Walk.Ends (lastNamed classes) (Walk.start internal) ∧
      Walk.Run (lastNamed classes) (Walk.start internal) (Walk.stop (u.lineage internal))) ∧
    ((u.handle (.resolve name)).1 = .failed (.failure (.classNotFound name)) ↔
      ∀ c ∈ classes, c.name ≠ internal) ∧
    (∀ c, lastNamed classes internal = some c →
      ∃ info, (u.handle (.resolve name)).1 = .found info ∧
        IsCompletion (lastNamed classes) internal c info) ∧
    ∀ requests', Reorders classes (registered requests') →
      ((ofRequests requests').handle (.resolve name)).1 = (u.handle (.resolve name)).1 := by
  intro u classes internal
  have hdeclared : u.declared.get? = lastNamed classes := get?_ofRequests requests
  have hview : u.view name = u.closure? internal :=
    (isSound_ofRequests requests).coherent.view_eq name
  rw [← lastNamed_eq_none_iff, ← hdeclared, handle_resolve, hview]
  have hrun := u.run_lineage internal
  refine ⟨⟨hrun.ends, hrun⟩, ?_, fun c hc => ?_, fun requests' horder => ?_⟩
  · cases hc : u.declared.get? internal with
    | none => simp [closure?, hc]
    | some c => simp [closure?, hc]
  · obtain ⟨info, hinfo, hcompletion⟩ := exists_closure? hc
    exact ⟨info, by rw [hinfo], hcompletion⟩
  · have hsame : (ofRequests requests').declared.get? = u.declared.get? := by
      rw [get?_ofRequests, hdeclared, horder.lastNamed_eq]
    rw [handle_resolve, (isSound_ofRequests requests').coherent.view_eq, closure?_congr hsame]

/-- Two classes that are supertypes of each other. The first is its own interface and names another
one twice, which has an empty superclass and an interface without a class. -/
def tangledClasses : List ClassInfo :=
  [⟨"p/A".toText, [], ["a".toText], [], some "p/B".toText,
      ["p/I".toText, "p/A".toText, "p/I".toText]⟩,
    ⟨"p/B".toText, [], ["b".toText], [], some "p/A".toText, []⟩,
    ⟨"p/I".toText, [], ["i".toText], [], some [], ["p/Missing".toText]⟩]

/-- The fields of the superclass and of the interface are inherited, in either order of declaration,
and a supertype without a class is not found. -/
theorem inheritance_exact_tangled :
    (∃ c, lastNamed tangledClasses "p/A".toText = some c) ∧
    Reorders tangledClasses tangledClasses.reverse ∧
    (∃ info, ((ofRequests (tangledClasses.map .register)).handle (.resolve "p.A".toText)).1 =
        .found info ∧ "b".toText ∈ info.fields ∧ "i".toText ∈ info.fields) ∧
    ((ofRequests (tangledClasses.reverse.map .register)).handle (.resolve "p.A".toText)).1 =
      ((ofRequests (tangledClasses.map .register)).handle (.resolve "p.A".toText)).1 ∧
    ((ofRequests (tangledClasses.map .register)).handle (.resolve "p.Missing".toText)).1 =
      .failed (.failure (.classNotFound "p.Missing".toText)) := by
  have hregistered (classes : List ClassInfo) : registered (classes.map .register) = classes := by
    rw [registered, List.filterMap_map]
    exact List.filterMap_some
  have hreorders : Reorders tangledClasses tangledClasses.reverse :=
    .of_perm tangledClasses.reverse_perm.symm (by decide)
  obtain ⟨-, -, hfound, horder⟩ :=
    inheritance_exact (tangledClasses.map .register) "p.A".toText
  obtain ⟨-, hfails, -, -⟩ :=
    inheritance_exact (tangledClasses.map .register) "p.Missing".toText
  simp only [hregistered] at hfound horder hfails
  have hinternal : Text.internalName "p.A".toText = "p/A".toText := by decide
  rw [hinternal] at hfound
  have hfirst : lastNamed tangledClasses "p/A".toText = some tangledClasses[0] := by decide
  obtain ⟨info, hinfo, hcompletion⟩ := hfound _ hfirst
  have hsuperclass : Inherits (lastNamed tangledClasses) "p/A".toText tangledClasses[1] :=
    ⟨"p/B".toText, .single ⟨_, hfirst, .superclass rfl (by decide)⟩, by decide⟩
  have hinterface : Inherits (lastNamed tangledClasses) "p/A".toText tangledClasses[2] :=
    ⟨"p/I".toText, .single ⟨_, hfirst, .interface (by decide)⟩, by decide⟩
  refine ⟨⟨_, hfirst⟩, hreorders, ⟨info, hinfo, ?_, ?_⟩, horder _ ?_, hfails.2 (by decide)⟩
  · exact (hcompletion.mem_fields_iff _).2 ⟨_, hsuperclass, by decide⟩
  · exact (hcompletion.mem_fields_iff _).2 ⟨_, hinterface, by decide⟩
  · rwa [hregistered]

end Universe

end Declared
end Embargo
