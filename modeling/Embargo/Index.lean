import Embargo.Jvm.Method.Reader
import Embargo.Resolution

/-!
# The index of what is forbidden

The index has the report of every forbidden key, the forbidden class patterns in the order in which
they came, and a mark that internal classes of the runtime are forbidden. Methods are indexed twice:
by their full signature, and by name and argument types alone, for questions that leave the return
type open.

* `Index.add`, `Index.addPattern` – what reading a record does.
* `Index.checkType`, `Index.checkMethod`, `Index.checkField` – the questions of a scanner.
-/

namespace Embargo

open Jvm

/-- A method of a class but for its return type. -/
structure MethodUse where
  /-- The class, with slashes. -/
  className : Text
  /-- The name of the method. -/
  name : Text
  /-- The types of the arguments. -/
  arguments : List FieldType
  deriving DecidableEq

/-- What is forbidden. -/
structure Index where
  /-- The reports by key. -/
  reports : Table Key Text
  /-- The reports of methods by what a source declaration says of them. -/
  uses : Table MethodUse Text
  /-- The patterns, each once, in the order in which they came. -/
  patterns : List ClassPattern
  /-- Internal classes of the runtime are forbidden. -/
  nonPortable : Bool
  deriving DecidableEq

/-- A method key without its return type. -/
def Key.use? : Key → Option MethodUse
  | .method className m => some ⟨className, m.name, m.arguments⟩
  | _ => none

namespace Index

/-- The index in which nothing is forbidden. -/
def empty : Index := ⟨.empty, .empty, [], false⟩

/-! ### Changes -/

/-- The index with a report for a key. -/
def insert (index : Index) (report : Text) (key : Key) : Index :=
  { index with
    reports := index.reports.insert key report
    uses := match key.use? with
      | some use => index.uses.insert use report
      | none => index.uses }

/-- The index with a report for several keys. -/
def add (index : Index) (report : Text) (keys : List Key) : Index :=
  keys.foldl (fun index key => index.insert report key) index

/-- The index with a pattern; a pattern that is there already keeps its place. -/
def addPattern (index : Index) (pattern : ClassPattern) : Index :=
  { index with patterns := addOnce index.patterns pattern }

/-- The index with internal classes of the runtime forbidden. -/
def forbidNonPortable (index : Index) : Index := { index with nonPortable := true }

/-! ### Size -/

/-- The number of keys and patterns. -/
def size (index : Index) : Nat := index.reports.size + index.patterns.length

/-- Nothing is forbidden. -/
def isEmpty (index : Index) : Bool :=
  index.reports.isEmpty && index.patterns.isEmpty && !index.nonPortable

/-- How messages show the index. -/
def text (index : Index) : Text :=
  "SignatureRegistry(signatures=".toText ++ Numeral.ofNat index.reports.size ++
    ", patterns=".toText ++ Numeral.ofNat index.patterns.length ++
    ", non_portable=".toText ++ (Value.bool index.nonPortable).display ++ ")".toText

/-! ### Questions -/

/-- The report of a class by its name with slashes: that of its key, or else that of the first
pattern that catches it. -/
def checkClass (index : Index) (name : Text) : Option Text :=
  (index.reports.get? (.class name)).or
    ((index.patterns.find? fun p => p.catches (Text.binaryName name)).map fun p =>
      p.printout (Text.binaryName name))

/-- The report of a type. Only classes can be forbidden, not arrays of them. -/
def checkType (index : Index) : ReturnType → Option Text
  | .value (.object name) => index.checkClass name
  | _ => none

/-- The letters of the types without a name. -/
def typeLetters : Text := "VZCBSIFJD".toText

/-- The type that a question names by a descriptor, by the name of an array, or by the name of a
class in either spelling. -/
def typeOfQuestion (t : Text) : Except SyntaxError ReturnType :=
  let s := Text.trim t
  if s.head? = some '[' ∨ (s.head? = some 'L' ∧ s.getLast? = some ';') then
    ReturnType.ofDescriptor s
  else if s.length = 1 ∧ typeLetters.contains (s.head?.getD ' ') then ReturnType.ofDescriptor s
  else if "[]".toText.isSuffixOf s ∨ "...".toText.isSuffixOf s then ReturnType.ofSourceName s
  else .ok (.value (.ofClassName s))

/-- The report of a type that is given as a text. -/
def checkTypeText (index : Index) (t : Text) : Except SyntaxError (Option Text) :=
  (typeOfQuestion t).map index.checkType

/-- The report of a method of a class, by its full signature. -/
def checkMethod (index : Index) (className : Text) (m : Method) : Option Text :=
  index.reports.get? (.method className m)

/-- The report of a method of a class, whatever its return type. -/
def checkUse (index : Index) (className : Text) (m : Method) : Option Text :=
  index.uses.get? ⟨className, m.name, m.arguments⟩

/-- The report of a method that is given as a text. A declaration leaves the return type open. -/
def checkMethodText (index : Index) (className t : Text) : Except SyntaxError (Option Text) :=
  (Method.parse t).map fun m =>
    if (Text.trim t).getLast? = some ')' then index.checkUse className m
    else index.checkMethod className m

/-- The report of a field of a class. -/
def checkField (index : Index) (className name : Text) : Option Text :=
  index.reports.get? (.field className name)

end Index
end Embargo
