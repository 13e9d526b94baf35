import Embargo.Jvm.Method.Reader
import Embargo.Table
import Embargo.Value.Scalar

/-!
# The class universe

A universe holds the classes that signatures can speak about, each with the members that it
declares itself. **Looking a class up** adds the members that it inherits: those of every declared
class that is reached from it over superclasses and interfaces. Supertypes that are not declared
are passed over, and noted.

* `ClassInfo` – a class with its members.
* `Universe.lineage` – a class and its supertypes, in the order in which they are visited.
* `Universe.closure?` – a class with its inherited members.
* `Universe.lookUp` – the same, remembering answers until the next declaration.
-/

namespace Embargo

open Jvm

/-! ### Classes -/

/-- A class, by its name with slashes. Methods and fields are held once each. -/
structure ClassInfo where
  /-- The name, with slashes. -/
  name : Text
  /-- The methods; one that is overridden with another return type is there once per type. -/
  methods : List Method
  /-- The names of the fields. -/
  fields : List Text
  /-- What stands among the names of the fields and is no text. No signature can mean it. -/
  strayFields : List Scalar
  /-- The name of the superclass. -/
  superclass : Option Text
  /-- The names of the interfaces. -/
  interfaces : List Text
  deriving DecidableEq

namespace ClassInfo

/-- The class with these parts, its names brought to slashes. An empty superclass is none. -/
def make (name : Text) (methods : List Method) (fields : List Text) (strayFields : List Scalar)
    (superclass : Option Text) (interfaces : List Text) : ClassInfo where
  name := Text.internalName name
  methods := distinct methods
  fields := distinct fields
  strayFields := distinct strayFields
  superclass := match superclass with
    | some (c :: r) => some (Text.internalName (c :: r))
    | _ => none
  interfaces := interfaces.map Text.internalName

/-- The class that plain values declare, each method given as such or as a text. -/
def ofDeclaration (name : Text) (methods : List (Method ⊕ Text)) (fields : List Text)
    (superclass : Option Text) (interfaces : List Text) : Except SyntaxError ClassInfo :=
  (methods.mapM (Sum.elim .ok Method.parse)).map fun methods =>
    make name methods fields [] superclass interfaces

/-- The methods that match a signature, in the order of their texts. -/
def findMethods (c : ClassInfo) (wanted : Method) : List Method :=
  Text.sortBy Method.text (c.methods.filter fun m => m.Matches wanted)

@[simp] theorem mem_findMethods {c : ClassInfo} {wanted m : Method} :
    m ∈ c.findMethods wanted ↔ m ∈ c.methods ∧ m.Matches wanted := by
  simp [findMethods]

/-- The names of the fields in order; none if some cannot be compared with others. -/
def fieldRow? (c : ClassInfo) : Option (List Value) :=
  if c.strayFields = [] then some ((Text.sort c.fields).map .text)
  else if c.fields = [] then Scalar.row? c.strayFields
  else none

/-- The class has a field with a name. -/
def hasField (c : ClassInfo) (name : Text) : Bool := c.fields.contains name

/-- The names of the direct supertypes, in the order in which they are visited: the last interface
first, the superclass last. An empty name of a superclass stands for none. -/
def supertypes (c : ClassInfo) : List Text :=
  c.interfaces.reverse ++ (c.superclass.filter fun name => !name.isEmpty).toList

end ClassInfo

/-! ### Universes -/

/-- The declared classes, and the answers given since the last declaration. -/
structure Universe where
  /-- The classes by name, each with the members that it declares. -/
  declared : Table Text ClassInfo
  /-- The classes that were looked up, with inherited members. -/
  answers : Table Text ClassInfo
  deriving DecidableEq

namespace Universe

/-- The universe without classes. -/
def empty : Universe := ⟨.empty, .empty⟩

/-- The number of declared classes. -/
def size (u : Universe) : Nat := u.declared.size

/-- The class is declared, under either spelling of its name. -/
def contains (u : Universe) (name : Text) : Bool :=
  (u.declared.get? (Text.internalName name)).isSome

/-- The universe with a class declared, in place of an earlier one of the same name. Answers given
before may no longer hold, so they are forgotten. -/
def register (u : Universe) (c : ClassInfo) : Universe := ⟨u.declared.insert c.name c, .empty⟩

/-- The universe with a class declared by plain values. -/
def declare (u : Universe) (name : Text) (methods : List (Method ⊕ Text)) (fields : List Text)
    (superclass : Option Text) (interfaces : List Text) :
    Except SyntaxError (ClassInfo × Universe) :=
  (ClassInfo.ofDeclaration name methods fields superclass interfaces).map fun c => (c, u.register c)

/-! ### Inheritance -/

/-- The names that are visited from a row of pending ones, the front first: a name that was visited
before is passed over, and the supertypes of a declared class come before the names that were
pending. `unvisited` holds the declared classes that were not visited. -/
def visit (unvisited : Table Text ClassInfo) (visited : List Text) : List Text → List Text
  | [] => visited
  | name :: pending =>
    if name ∈ visited then visit unvisited visited pending
    else match _h : unvisited.get? name with
      | none => visit unvisited (visited ++ [name]) pending
      | some c => visit (unvisited.erase name) (visited ++ [name]) (c.supertypes ++ pending)
termination_by pending => (unvisited.size, pending.length)
decreasing_by
  · exact Prod.Lex.right _ (Nat.lt_succ_self _)
  · exact Prod.Lex.right _ (Nat.lt_succ_self _)
  · exact Prod.Lex.left _ _ (Table.size_erase_lt _h)

/-- A class and everything that is reached from it over supertypes, declared or not, in the order
of visiting. -/
def lineage (u : Universe) (name : Text) : List Text := visit u.declared [] [name]

/-- The declared classes of a lineage. -/
def ancestry (u : Universe) (name : Text) : List ClassInfo :=
  (u.lineage name).filterMap u.declared.get?

/-- The supertypes of a lineage that are not declared. -/
def unknownSupertypes (u : Universe) (name : Text) : List Text :=
  (u.lineage name).filter fun n => (u.declared.get? n).isNone

/-- A declared class, by its name with slashes, with its inherited members. -/
def closure? (u : Universe) (name : Text) : Option ClassInfo :=
  (u.declared.get? name).map fun c =>
    { name := name
      methods := distinct ((u.ancestry name).flatMap ClassInfo.methods)
      fields := distinct ((u.ancestry name).flatMap ClassInfo.fields)
      strayFields := distinct ((u.ancestry name).flatMap ClassInfo.strayFields)
      superclass := c.superclass
      interfaces := c.interfaces }

/-! ### Looking classes up -/

/-- The answer to a question for a class. -/
structure Answer where
  /-- The class with its inherited members, if it is declared. -/
  found : Option ClassInfo
  /-- The supertypes that were passed over. -/
  skipped : List Text
  /-- The universe, which remembers the answer. -/
  after : Universe

/-- Looks a class up under either spelling of its name. Only the first answer since a declaration
notes the supertypes that it passed over. -/
def lookUp (u : Universe) (name : Text) : Answer :=
  let internal := Text.internalName name
  match u.answers.get? internal with
  | some c => ⟨some c, [], u⟩
  | none =>
    match u.closure? internal with
    | none => ⟨none, [], u⟩
    | some c => ⟨some c, u.unknownSupertypes internal, ⟨u.declared, u.answers.insert internal c⟩⟩

end Universe
end Embargo
