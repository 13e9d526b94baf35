import Embargo.Proofs.Inheritance
import Embargo.Proofs.MethodForms
import Embargo.Proofs.TextOrder

/-!
# What a record resolves to

A record names a class, and perhaps a member of it. It resolves to the keys of all declarations that
are meant, or to one gap. Which of the two, and to which keys, is said here without regard to how
they are found: by the classes that are declared, and by what they inherit.

| the record | it resolves to | unless |
|---|---|---|
| a class | the key of the class | the class is not known |
| a field | the key of the field | no class that is inherited from has it |
| a method | the keys of all methods that match, in the order of their texts | there are none |

A method that is overridden with another return type has a text of its own, because rendering loses
nothing about a method that was read from a text (`Method.text_injective`). So the keys are in
strict order, none is there twice, and no order in which classes and members come has a part in it.

* `Record.ResolvesTo` – what a record resolves to, with one constructor for each way.
* `Universe.Request.GivesTexts` – the methods that a request declares are given as texts.
* `ClassInfo.SameMembers`, `Universe.SameDeclarations` – the same declarations, in any order.
* `Record.resolution_exact` – the main statement.
-/

namespace Embargo

open Jvm

/-! ### Methods that are given as texts -/

/-- The method was read from a text. -/
def Jvm.Method.IsRead (m : Method) : Prop := ∃ t, Method.parse t = .ok m

namespace ClassInfo

theorem mem_methods_make {name : Text} {methods : List Method} {fields : List Text}
    {strayFields : List Scalar} {superclass : Option Text} {interfaces : List Text} {m : Method} :
    m ∈ (make name methods fields strayFields superclass interfaces).methods ↔ m ∈ methods :=
  mem_distinct

/-- What is read item by item comes from the items. -/
theorem exists_of_mapM {α β ε : Type} {f : α → Except ε β} {xs : List α} {ys : List β}
    (h : xs.mapM f = .ok ys) {y : β} (hy : y ∈ ys) : ∃ x ∈ xs, f x = .ok y := by
  have hread := Method.mapM_eq_ok_iff.1 h
  clear h
  induction hread with
  | nil => cases hy
  | cons hx _ ih =>
    rcases List.mem_cons.1 hy with rfl | hy
    · exact ⟨_, List.mem_cons_self, hx⟩
    · obtain ⟨x', hmem, hx'⟩ := ih hy
      exact ⟨x', List.mem_cons_of_mem _ hmem, hx'⟩

theorem isRead_of_ofDeclaration {name : Text} {methods : List (Method ⊕ Text)}
    {fields : List Text} {superclass : Option Text} {interfaces : List Text} {c : ClassInfo}
    (h : ofDeclaration name methods fields superclass interfaces = .ok c)
    (htexts : ∀ m, .inl m ∈ methods → m.IsRead) : ∀ m ∈ c.methods, m.IsRead := by
  intro m hm
  unfold ofDeclaration at h
  cases hread : methods.mapM (Sum.elim .ok Method.parse) with
  | error e =>
    rw [hread] at h
    cases h
  | ok ms =>
    rw [hread] at h
    obtain rfl := Except.ok.inj h
    obtain ⟨given, hgiven, hm⟩ := exists_of_mapM hread (mem_methods_make.1 hm)
    cases given with
    | inl m' =>
      obtain rfl := Except.ok.inj hm
      exact htexts m' hgiven
    | inr t => exact ⟨t, hm⟩

theorem isRead_of_methodOf {v : Value} {m : Method} (h : methodOf v = .ok m) : m.IsRead := by
  cases v with
  | text t =>
    refine ⟨t, ?_⟩
    cases hread : Method.parse t with
    | error e => simp [methodOf, hread, Except.mapError] at h
    | ok m' => simpa [methodOf, hread, Except.mapError] using h
  | _ => cases h

theorem isRead_of_ofValue {name : Text} {v : Value} {c : ClassInfo} (h : ofValue name v = .ok c) :
    ∀ m ∈ c.methods, m.IsRead := by
  intro m hm
  cases v with
  | table entries =>
    unfold ofValue at h
    cases hitems : itemsOf entries "methods".toText with
    | error e => simp [hitems, bind, Except.bind] at h
    | ok items =>
      cases hread : items.mapM methodOf with
      | error e => simp [hitems, hread, bind, Except.bind] at h
      | ok methods =>
        -- The other parts may fail, and otherwise leave the methods alone.
        have hmethods : ∀ m ∈ c.methods, m ∈ methods := by
          simp only [hitems, hread, bind, Except.bind] at h
          repeat' split at h
          all_goals cases h
          exact fun m => mem_methods_make.1
        obtain ⟨v, -, hv⟩ := exists_of_mapM hread (hmethods m hm)
        exact isRead_of_methodOf hv
  | _ => cases h

theorem isRead_of_ofParts {name : Text} {v : Value} {c : ClassInfo} (h : ofParts name v = .ok c) :
    ∀ m ∈ c.methods, m.IsRead := by
  cases v with
  | table entries =>
    rw [ofParts] at h
    split at h
    · exact isRead_of_ofValue h
    · cases h
  | _ => cases h

end ClassInfo

namespace Universe

theorem ok_of_toOption {ε α : Type} {x : Except ε α} {a : α} (h : x.toOption = some a) :
    x = .ok a := by
  cases x with
  | error e => cases h
  | ok a' => exact congrArg _ (Option.some.inj h)

/-- The methods that a request declares are given as texts, or were read from texts before. -/
def Request.GivesTexts : Request → Prop
  | .register c => ∀ m ∈ c.methods, m.IsRead
  | .declare _ methods _ _ _ => ∀ m, .inl m ∈ methods → m.IsRead
  | .declareParts _ _ | .resolve _ | .contains _ | .size => True

theorem isRead_of_givesTexts {requests : List Universe.Request}
    (h : ∀ request ∈ requests, request.GivesTexts) {c : ClassInfo}
    (hc : c ∈ registered requests) : ∀ m ∈ c.methods, m.IsRead := by
  obtain ⟨request, hmem, hclass⟩ := List.mem_filterMap.1 hc
  have htexts := h request hmem
  cases request with
  | register c' =>
    obtain rfl := Option.some.inj hclass
    exact htexts
  | declare name methods fields superclass interfaces =>
    exact ClassInfo.isRead_of_ofDeclaration (ok_of_toOption hclass) htexts
  | declareParts name parts => exact ClassInfo.isRead_of_ofParts (ok_of_toOption hclass)
  | resolve name | contains name | size => cases hclass

end Universe

/-! ### What a record resolves to -/

open Universe

section Members

variable (declared : Text → Option ClassInfo) (name : Text)

/-- The method is declared or inherited by the class of a name. -/
def Universe.HasMethod (m : Method) : Prop := ∃ d, Inherits declared name d ∧ m ∈ d.methods

/-- The field is declared or inherited by the class of a name. -/
def Universe.HasField (f : Text) : Prop := ∃ d, Inherits declared name d ∧ f ∈ d.fields

variable {declared name}

/-- Only a class that is known inherits. -/
theorem Universe.Inherits.isKnown {d : ClassInfo} (h : Inherits declared name d) :
    ∃ c, declared name = some c := by
  obtain ⟨supertype, hreaches, hd⟩ := h
  rcases Relation.ReflTransGen.cases_head hreaches with rfl | ⟨next, ⟨c, hc, -⟩, -⟩
  · exact ⟨d, hd⟩
  · exact ⟨c, hc⟩

end Members

/-- **What a record resolves to** where classes are declared, with one constructor for each way. The
keys have the name of the class with slashes. -/
inductive Record.ResolvesTo (declared : Text → Option ClassInfo) (r : Record) :
    Except Gap (List Key) → Prop
  /-- The class is not known, whatever the member. -/
  | unknown (h : declared (Text.internalName r.className) = none) :
      ResolvesTo declared r (.error (.class r.className))
  /-- The class itself is meant. -/
  | whole {c : ClassInfo} (h : declared (Text.internalName r.className) = some c)
      (hm : r.member = .whole) :
      ResolvesTo declared r (.ok [.class (Text.internalName r.className)])
  /-- A field is meant that is declared or inherited. -/
  | field {name : Text} (hm : r.member = .field name)
      (hname : HasField declared (Text.internalName r.className) name) :
      ResolvesTo declared r (.ok [.field (Text.internalName r.className) name])
  /-- A field is meant, and there is none. -/
  | noField {name : Text} {c : ClassInfo} (h : declared (Text.internalName r.className) = some c)
      (hm : r.member = .field name)
      (hnone : ¬HasField declared (Text.internalName r.className) name) :
      ResolvesTo declared r (.error .field)
  /-- Methods are meant. All that are declared or inherited and have the name and the types of the
  arguments are there, in strict order of their texts. -/
  | methods {wanted : Method} {ms : List Method} (hm : r.member = .method wanted) (hne : ms ≠ [])
      (hordered : ms.Pairwise fun m m' => m.text < m'.text)
      (hmem : ∀ m, m ∈ ms ↔ HasMethod declared (Text.internalName r.className) m ∧
        m.name = wanted.name ∧ m.arguments = wanted.arguments) :
      ResolvesTo declared r (.ok (ms.map (.method (Text.internalName r.className))))
  /-- Methods are meant, and there are none. -/
  | noMethod {wanted : Method} {c : ClassInfo}
      (h : declared (Text.internalName r.className) = some c) (hm : r.member = .method wanted)
      (hnone : ∀ m, HasMethod declared (Text.internalName r.className) m →
        ¬(m.name = wanted.name ∧ m.arguments = wanted.arguments)) :
      ResolvesTo declared r (.error .method)

/-- A record that resolves has a key. -/
theorem Record.ResolvesTo.ne_nil {declared : Text → Option ClassInfo} {r : Record}
    {keys : List Key} (h : r.ResolvesTo declared (.ok keys)) : keys ≠ [] := by
  cases h with
  | whole | field => exact List.cons_ne_nil _ _
  | methods hm hne => exact fun h => hne (List.map_eq_nil_iff.1 h)

namespace ClassInfo

variable {c : ClassInfo} {wanted : Method}

/-- Methods that were read from texts are found in strict order. -/
theorem pairwise_findMethods (hnodup : c.methods.Nodup) (hread : ∀ m ∈ c.methods, m.IsRead) :
    (c.findMethods wanted).Pairwise fun m m' => m.text < m'.text := by
  refine Text.pairwise_lt_sortBy (List.Nodup.map_on (fun m hm m' hm' htext => ?_)
    (hnodup.sublist List.filter_sublist))
  obtain ⟨t, ht⟩ := hread m (List.mem_of_mem_filter hm)
  obtain ⟨t', ht'⟩ := hread m' (List.mem_of_mem_filter hm')
  exact Method.text_injective ht ht' htext

theorem keysOf_method_of_ne_nil (h : c.findMethods wanted ≠ []) :
    c.keysOf (.method wanted) = .ok ((c.findMethods wanted).map (.method c.name)) := by
  rw [keysOf]
  split
  · next hnil => exact absurd hnil h
  · next m ms hms => rw [hms]

theorem keysOf_method_of_eq_nil (h : c.findMethods wanted = []) :
    c.keysOf (.method wanted) = .error .method := by
  rw [keysOf, h]

end ClassInfo

section Resolution

variable {u : Universe} (hu : u.Coherent)
  (hread : ∀ name c, u.declared.get? name = some c → ∀ m ∈ c.methods, m.IsRead) {r : Record}

include hu

theorem Record.resolve_of_unknown (h : u.declared.get? (Text.internalName r.className) = none) :
    r.resolve (u.lookUp r.className) = .error (.class r.className) := by
  have hview : (u.lookUp r.className).found = none := by
    rw [show (u.lookUp r.className).found = _ from hu.view_eq r.className, closure?, h]
    rfl
  rw [resolve, hview]

/-- The methods that a look-up finds are those that the class has or inherits. -/
theorem Universe.mem_methods_of_view {name : Text} {info : ClassInfo}
    (h : u.view name = some info) (m : Method) :
    m ∈ info.methods ↔ HasMethod u.declared.get? (Text.internalName name) m := by
  rw [hu.view_eq name] at h
  cases hc : u.declared.get? (Text.internalName name) with
  | none => simp [closure?, hc] at h
  | some c =>
    obtain ⟨info', hinfo, hcompletion⟩ := exists_closure? hc
    obtain rfl := Option.some.inj (hinfo.symm.trans h)
    exact hcompletion.mem_methods_iff m

/-- What a record resolves to in a class that is known is said by the class with its inherited
members. -/
theorem Record.exists_resolve_eq {c : ClassInfo}
    (h : u.declared.get? (Text.internalName r.className) = some c) :
    ∃ info : ClassInfo, r.resolve (u.lookUp r.className) = info.keysOf r.member ∧
      info.name = Text.internalName r.className ∧ info.methods.Nodup ∧
      (∀ m, m ∈ info.methods ↔
        HasMethod u.declared.get? (Text.internalName r.className) m) ∧
      ∀ f, info.hasField f = true ↔ HasField u.declared.get? (Text.internalName r.className) f := by
  obtain ⟨info, hinfo, hcompletion⟩ := exists_closure? h
  have hview : (u.lookUp r.className).found = some info := (hu.view_eq r.className).trans hinfo
  refine ⟨info, by rw [resolve, hview], hcompletion.name_eq, ?_, hcompletion.mem_methods_iff,
    fun f => List.contains_iff_mem.trans (hcompletion.mem_fields_iff f)⟩
  obtain ⟨d, -, rfl⟩ := Option.map_eq_some_iff.1 hinfo
  exact nodup_distinct _

include hread

omit hu in
/-- Methods are found in strict order, and none is left out. -/
theorem ClassInfo.findMethods_spec {info : ClassInfo} {name : Text} (hnodup : info.methods.Nodup)
    (hmethods : ∀ m, m ∈ info.methods ↔ HasMethod u.declared.get? name m) (wanted : Method) :
    (info.findMethods wanted).Pairwise (fun m m' => m.text < m'.text) ∧
      ∀ m, m ∈ info.findMethods wanted ↔ HasMethod u.declared.get? name m ∧
        m.name = wanted.name ∧ m.arguments = wanted.arguments := by
  refine ⟨pairwise_findMethods hnodup fun m hm => ?_, fun m => ?_⟩
  · obtain ⟨d, ⟨supertype, -, hd⟩, hm⟩ := (hmethods m).1 hm
    exact hread supertype d hd m hm
  · rw [mem_findMethods, hmethods]
    rfl

/-- **What a record resolves to is found.** -/
theorem Record.resolvesTo_resolve :
    r.ResolvesTo u.declared.get? (r.resolve (u.lookUp r.className)) := by
  cases hdeclared : u.declared.get? (Text.internalName r.className) with
  | none =>
    rw [resolve_of_unknown hu hdeclared]
    exact .unknown hdeclared
  | some c =>
    obtain ⟨info, hresolve, hname, hnodup, hmethods, hfields⟩ := exists_resolve_eq hu hdeclared
    rw [hresolve]
    cases hm : r.member with
    | whole =>
      rw [ClassInfo.keysOf, hname]
      exact .whole hdeclared hm
    | field name =>
      rw [ClassInfo.keysOf, hname]
      split
      · next hfield => exact .field hm ((hfields name).1 hfield)
      · next hfield => exact .noField hdeclared hm fun h => hfield ((hfields name).2 h)
    | method wanted =>
      obtain ⟨hordered, hmem⟩ := ClassInfo.findMethods_spec hread hnodup hmethods wanted
      by_cases hnil : info.findMethods wanted = []
      · rw [ClassInfo.keysOf_method_of_eq_nil hnil]
        refine .noMethod hdeclared hm fun m hhas hmatch => ?_
        exact List.eq_nil_iff_forall_not_mem.1 hnil m ((hmem m).2 ⟨hhas, hmatch⟩)
      · rw [ClassInfo.keysOf_method_of_ne_nil hnil, hname]
        exact .methods hm hnil hordered hmem

/-- **What is found is what a record resolves to.** -/
theorem Record.ResolvesTo.resolve_eq {answer : Except Gap (List Key)}
    (h : r.ResolvesTo u.declared.get? answer) : r.resolve (u.lookUp r.className) = answer := by
  cases h with
  | unknown hnone => exact resolve_of_unknown hu hnone
  | whole hc hm =>
    obtain ⟨info, hresolve, hname, -⟩ := exists_resolve_eq hu hc
    rw [hresolve, hm, ClassInfo.keysOf, hname]
  | field hm hfield =>
    obtain ⟨d, hd, -⟩ := id hfield
    obtain ⟨c, hc⟩ := hd.isKnown
    obtain ⟨info, hresolve, hname, -, -, hfields⟩ := exists_resolve_eq hu hc
    rw [hresolve, hm, ClassInfo.keysOf, if_pos ((hfields _).2 hfield), hname]
  | noField hc hm hnone =>
    obtain ⟨info, hresolve, -, -, -, hfields⟩ := exists_resolve_eq hu hc
    rw [hresolve, hm, ClassInfo.keysOf, if_neg fun hfield => hnone ((hfields _).1 hfield)]
  | @methods wanted ms hm hne hordered hmem =>
    obtain ⟨m, hmemm⟩ := List.exists_mem_of_ne_nil ms hne
    obtain ⟨d, hd, -⟩ := ((hmem m).1 hmemm).1
    obtain ⟨c, hc⟩ := hd.isKnown
    obtain ⟨info, hresolve, hname, hnodup, hmethods, -⟩ := exists_resolve_eq hu hc
    obtain ⟨hordered', hmem'⟩ := ClassInfo.findMethods_spec hread hnodup hmethods wanted
    -- Both rows are in strict order and have the same members.
    obtain rfl : info.findMethods wanted = ms :=
      Text.eq_of_pairwise_lt hordered' hordered fun m => (hmem' m).trans (hmem m).symm
    rw [hresolve, hm, ClassInfo.keysOf_method_of_ne_nil hne, hname]
  | @noMethod wanted c hc hm hnone =>
    obtain ⟨info, hresolve, -, hnodup, hmethods, -⟩ := exists_resolve_eq hu hc
    obtain ⟨-, hmem⟩ := ClassInfo.findMethods_spec hread hnodup hmethods wanted
    have hnil : info.findMethods wanted = [] := List.eq_nil_iff_forall_not_mem.2 fun m hm =>
      hnone m ((hmem m).1 hm).1 ((hmem m).1 hm).2
    rw [hresolve, hm, ClassInfo.keysOf_method_of_eq_nil hnil]

end Resolution

/-! ### The same declarations -/

/-- Two classes have the same members and supertypes, in whatever order. -/
structure ClassInfo.SameMembers (c c' : ClassInfo) : Prop where
  /-- The methods are the same. -/
  methods : ∀ m, m ∈ c.methods ↔ m ∈ c'.methods
  /-- The fields are the same. -/
  fields : ∀ f, f ∈ c.fields ↔ f ∈ c'.fields
  /-- The supertypes are the same. -/
  supertypes : ∀ n, c.HasSupertype n ↔ c'.HasSupertype n

namespace Universe

/-- The same classes are declared, each with its members in whatever order. -/
def SameDeclarations (declared declared' : Text → Option ClassInfo) : Prop :=
  ∀ name, Option.Rel ClassInfo.SameMembers (declared name) (declared' name)

namespace SameDeclarations

variable {declared declared' : Text → Option ClassInfo}

theorem symm (h : SameDeclarations declared declared') : SameDeclarations declared' declared := by
  intro name
  have hname := h name
  generalize declared name = found, declared' name = found' at hname ⊢
  cases hname with
  | none => exact .none
  | some hc => exact .some ⟨fun m => (hc.methods m).symm, fun f => (hc.fields f).symm,
      fun n => (hc.supertypes n).symm⟩

theorem exists_some (h : SameDeclarations declared declared') {name : Text} {c : ClassInfo}
    (hc : declared name = some c) : ∃ c', declared' name = some c' ∧ c.SameMembers c' := by
  have hname := h name
  rw [hc] at hname
  generalize declared' name = found' at hname ⊢
  cases hname with
  | some hsame => exact ⟨_, rfl, hsame⟩

theorem eq_none (h : SameDeclarations declared declared') {name : Text}
    (hnone : declared name = none) : declared' name = none := by
  cases hfound : declared' name with
  | none => rfl
  | some c' =>
    obtain ⟨c, hc, -⟩ := h.symm.exists_some hfound
    rw [hnone] at hc
    cases hc

theorem inherits (h : SameDeclarations declared declared') {name : Text} {d : ClassInfo}
    (hd : Inherits declared name d) : ∃ d', Inherits declared' name d' ∧ d.SameMembers d' := by
  obtain ⟨supertype, hreaches, hd⟩ := hd
  obtain ⟨d', hd', hsame⟩ := h.exists_some hd
  have hstep : ∀ name supertype, Extends declared name supertype →
      Extends declared' name supertype := by
    intro name supertype hextends
    obtain ⟨c, hc, hsupertype⟩ := hextends
    obtain ⟨c', hc', hsame'⟩ := h.exists_some hc
    exact ⟨c', hc', (hsame'.supertypes supertype).1 hsupertype⟩
  exact ⟨d', ⟨supertype, Relation.ReflTransGen.mono hstep _ _ hreaches, hd'⟩, hsame⟩

theorem hasMethod (h : SameDeclarations declared declared') {name : Text} {m : Method}
    (hm : HasMethod declared name m) : HasMethod declared' name m := by
  obtain ⟨d, hd, hm⟩ := hm
  obtain ⟨d', hd', hsame⟩ := h.inherits hd
  exact ⟨d', hd', (hsame.methods m).1 hm⟩

theorem hasField (h : SameDeclarations declared declared') {name f : Text}
    (hf : HasField declared name f) : HasField declared' name f := by
  obtain ⟨d, hd, hf⟩ := hf
  obtain ⟨d', hd', hsame⟩ := h.inherits hd
  exact ⟨d', hd', (hsame.fields f).1 hf⟩

/-- **What a record resolves to is said by the declarations, in whatever order.** -/
theorem resolvesTo (h : SameDeclarations declared declared') {r : Record}
    {answer : Except Gap (List Key)} (hr : r.ResolvesTo declared answer) :
    r.ResolvesTo declared' answer := by
  cases hr with
  | unknown hnone => exact .unknown (h.eq_none hnone)
  | whole hc hm =>
    obtain ⟨c', hc', -⟩ := h.exists_some hc
    exact .whole hc' hm
  | field hm hname => exact .field hm (h.hasField hname)
  | noField hc hm hnone =>
    obtain ⟨c', hc', -⟩ := h.exists_some hc
    exact .noField hc' hm fun hname => hnone (h.symm.hasField hname)
  | methods hm hne hordered hmem =>
    exact .methods hm hne hordered fun m =>
      (hmem m).trans (and_congr_left' ⟨h.hasMethod, h.symm.hasMethod⟩)
  | noMethod hc hm hnone =>
    obtain ⟨c', hc', -⟩ := h.exists_some hc
    exact .noMethod hc' hm fun m hhas => hnone m (h.symm.hasMethod hhas)

/-- Declarations in another order are the same. -/
theorem of_reorders {classes classes' : List ClassInfo} (h : Reorders classes classes') :
    SameDeclarations (lastNamed classes) (lastNamed classes') := by
  intro name
  rw [h.lastNamed_eq]
  cases lastNamed classes' name with
  | none => exact .none
  | some c => exact .some ⟨fun _ => Iff.rfl, fun _ => Iff.rfl, fun _ => Iff.rfl⟩

end SameDeclarations
end Universe

/-! ### The result -/

section Exact

open Universe

/-- **What a record resolves to after requests** is what the declarations say. -/
theorem Record.resolve_ofRequests_iff {requests : List Universe.Request}
    (htexts : ∀ request ∈ requests, request.GivesTexts) {r : Record}
    {answer : Except Gap (List Key)} :
    r.resolve ((ofRequests requests).lookUp r.className) = answer ↔
      r.ResolvesTo (lastNamed (registered requests)) answer := by
  have hdeclared : (ofRequests requests).declared.get? = lastNamed (registered requests) :=
    get?_ofRequests requests
  have hu : (ofRequests requests).Coherent := (isSound_ofRequests requests).coherent
  have hread : ∀ name c, (ofRequests requests).declared.get? name = some c →
      ∀ m ∈ c.methods, m.IsRead := by
    intro name c hc
    rw [hdeclared] at hc
    exact isRead_of_givesTexts htexts (mem_of_lastNamed hc).1
  rw [← hdeclared]
  constructor
  · rintro rfl
    exact resolvesTo_resolve hu hread
  · exact ResolvesTo.resolve_eq hu hread

/-- The methods that a request finds are those that the class has or inherits. -/
theorem Universe.mem_methods_of_found {requests : List Universe.Request} {name : Text}
    {info : ClassInfo} (h : ((ofRequests requests).handle (.resolve name)).1 = .found info)
    (m : Method) :
    m ∈ info.methods ↔ HasMethod (lastNamed (registered requests)) (Text.internalName name) m := by
  rw [handle_resolve] at h
  cases hview : (ofRequests requests).view name with
  | none =>
    rw [hview] at h
    cases h
  | some info' =>
    rw [hview] at h
    cases h
    have hmethods := mem_methods_of_view (isSound_ofRequests requests).coherent hview m
    rwa [get?_ofRequests] at hmethods

/-- **A record resolves to exactly the declarations that it means.** After any requests, it resolves
to what the declared classes and their inheritance say, and to nothing else: to keys, of which there
is then at least one, or to a gap. The methods that a class has or inherits are those that a look-up
of the class finds. In which order classes, members and supertypes were declared does not matter. -/
theorem Record.resolution_exact (requests : List Universe.Request)
    (htexts : ∀ request ∈ requests, request.GivesTexts) (r : Record) :
    let declared := lastNamed (registered requests)
    let resolution (requests : List Universe.Request) :=
      r.resolve ((ofRequests requests).lookUp r.className)
    (∀ answer, resolution requests = answer ↔ r.ResolvesTo declared answer) ∧
    (∀ keys, resolution requests = .ok keys → keys ≠ []) ∧
    (∀ info, ((ofRequests requests).handle (.resolve r.className)).1 = .found info →
      ∀ m, m ∈ info.methods ↔ HasMethod declared (Text.internalName r.className) m) ∧
    ∀ requests', (∀ request ∈ requests', request.GivesTexts) →
      SameDeclarations declared (lastNamed (registered requests')) →
      resolution requests' = resolution requests := by
  intro declared resolution
  have hexact (answer) : resolution requests = answer ↔ r.ResolvesTo declared answer :=
    resolve_ofRequests_iff htexts
  refine ⟨hexact, fun keys hkeys => ((hexact _).1 hkeys).ne_nil,
    fun info hinfo => mem_methods_of_found hinfo, fun requests' htexts' hsame => ?_⟩
  exact (resolve_ofRequests_iff htexts').2 (hsame.resolvesTo ((hexact _).1 rfl))

/-- The method with a return type. -/
def overridingMethod (returns : ReturnType) : Method := ⟨"m".toText, [.base .int], returns⟩

/-- A class, its superclass and its interface, which have a method with three return types. One of
them is there twice. -/
def overridingClasses : List ClassInfo :=
  [⟨"p/A".toText, [overridingMethod (.value (.object "p/T".toText)), ⟨"m".toText, [], .void⟩], [],
      [], some "p/B".toText, ["p/I".toText]⟩,
    ⟨"p/B".toText, [overridingMethod .void, overridingMethod (.value (.object "p/T".toText))], [],
      [], none, []⟩,
    ⟨"p/I".toText, [overridingMethod (.value (.object "java/lang/Object".toText))], [], [], none,
      []⟩]

/-- The requests that declare these classes. -/
def overridingRequests : List Universe.Request :=
  [.declare "p/A".toText [.inr "m(I)Lp/T;".toText, .inr "m()V".toText] [] (some "p/B".toText)
      ["p/I".toText],
    .declare "p/B".toText [.inr "m(I)V".toText, .inr "m(I)Lp/T;".toText] [] none [],
    .declare "p/I".toText [.inr "m(I)Ljava/lang/Object;".toText] [] none []]

/-- Each return type is found once, in the order of the texts, in either order of declaration. -/
theorem Record.resolution_exact_overriding :
    let methods := [overridingMethod (.value (.object "java/lang/Object".toText)),
      overridingMethod (.value (.object "p/T".toText)), overridingMethod .void]
    let r : Record :=
      ⟨"p.A#m(int)".toText, "p.A".toText, .method (overridingMethod .void), none⟩
    let resolution (requests : List Universe.Request) :=
      r.resolve ((ofRequests requests).lookUp r.className)
    (∀ request ∈ overridingRequests, request.GivesTexts) ∧
    SameDeclarations (lastNamed (registered overridingRequests))
      (lastNamed (registered overridingRequests.reverse)) ∧
    resolution overridingRequests = .ok (methods.map (.method "p/A".toText)) ∧
    resolution overridingRequests.reverse = resolution overridingRequests := by
  intro methods r resolution
  have htexts : ∀ request ∈ overridingRequests, request.GivesTexts := by
    simp [overridingRequests, Universe.Request.GivesTexts]
  have hsame : SameDeclarations (lastNamed (registered overridingRequests))
      (lastNamed (registered overridingRequests.reverse)) :=
    .of_reorders (.of_perm (overridingRequests.reverse_perm.symm.filterMap _) (by decide +kernel))
  obtain ⟨hexact, -, -, horder⟩ := Record.resolution_exact overridingRequests htexts r
  refine ⟨htexts, hsame, (hexact _).2 (.methods rfl (List.cons_ne_nil _ _) (by decide) ?_),
    horder _ (by simpa using htexts) hsame⟩
  rw [show registered overridingRequests = overridingClasses by decide +kernel]
  have hfirst : lastNamed overridingClasses "p/A".toText = some overridingClasses[0] := by decide
  have hsuperclass : Inherits (lastNamed overridingClasses) "p/A".toText overridingClasses[1] :=
    ⟨"p/B".toText, .single ⟨_, hfirst, .superclass rfl (by decide)⟩, by decide⟩
  have hinterface : Inherits (lastNamed overridingClasses) "p/A".toText overridingClasses[2] :=
    ⟨"p/I".toText, .single ⟨_, hfirst, .interface (by decide)⟩, by decide⟩
  have hother : ∀ c ∈ overridingClasses, ∀ m ∈ c.methods,
      m.name = "m".toText → m.arguments = [.base .int] → m ∈ methods := by decide
  intro m
  constructor
  · intro hm
    rcases List.mem_cons.1 hm with rfl | hm
    · exact ⟨⟨_, hinterface, by decide⟩, rfl, rfl⟩
    rcases List.mem_cons.1 hm with rfl | hm
    · exact ⟨⟨_, hsuperclass, by decide⟩, rfl, rfl⟩
    · obtain rfl := List.mem_singleton.1 hm
      exact ⟨⟨_, hsuperclass, by decide⟩, rfl, rfl⟩
  · rintro ⟨⟨d, ⟨supertype, -, hd⟩, hm⟩, hname, harguments⟩
    exact hother d (mem_of_lastNamed hd).1 m hm hname harguments

end Exact

end Embargo
