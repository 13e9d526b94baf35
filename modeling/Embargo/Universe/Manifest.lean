import Embargo.Event
import Embargo.Failure
import Embargo.FileTree
import Embargo.Universe
import Embargo.Value.Json

/-!
# Manifests of classes

A manifest declares classes as data: a table from class names to what each class has. Every part of
a class may be left out, and entries that are no part of a class count for nothing.

```
"java/lang/String": {
  "superclass": "java/lang/Object",
  "interfaces": ["java/lang/CharSequence"],
  "methods": ["length()I", "charAt(I)C"],
  "fields": ["CASE_INSENSITIVE_ORDER"]
}
```

A single class can be declared by the same data, but then every entry has to be a part of a class.

* `ClassInfo.ofValue` – the class that a part of a manifest gives.
* `ClassInfo.ofParts` – the class that a single declaration gives.
* `Universe.ofEntries` – the universe of a whole manifest.
* `Universe.ofFile` – the universe of a manifest that stands in a file.
-/

namespace Embargo

open Jvm

/-! ### Errors -/

/-- Why a manifest gives no class, or no universe. -/
inductive ManifestError where
  /-- A method cannot be read. -/
  | grammar (e : SyntaxError)
  /-- The file cannot be read, or holds no document. -/
  | unreadable (path : Text)
  /-- The document is not a table. -/
  | noTable (path : Text)
  /-- Anything that the documented failures do not cover. -/
  | fault (f : Fault)
  deriving DecidableEq

namespace ManifestError

/-- The message about a manifest in a file. -/
def cannotLoad (path : Text) : Text := "Cannot load class manifest: ".toText ++ path

/-- The report of a manifest error. -/
def problem : ManifestError → Problem
  | .grammar e => e.problem
  | .unreadable path => .failure (.configuration (cannotLoad path) [])
  | .noTable path =>
    .failure (.configuration (cannotLoad path)
      [("reason".toText, "top level must be an object".toText)])
  | .fault f => .fault f

end ManifestError

/-! ### Classes -/

namespace ClassInfo

/-- A part of a class that holds several values; one that is left out holds none. -/
def itemsOf (entries : List (Text × Value)) (part : Text) : Except ManifestError (List Value) :=
  match ((entries.lookup part).getD (.list [])).items? with
  | some vs => .ok vs
  | none => .error (.fault .wrongType)

/-- The method that a value gives. -/
def methodOf : Value → Except ManifestError Method
  | .text t => (Method.parse t).mapError .grammar
  | _ => .error (.fault .noSuchPart)

/-- The field that a value gives: its name, or a scalar in place of a name. -/
def fieldOf : Value → Except ManifestError (Text ⊕ Scalar)
  | .text t => .ok (.inl t)
  | v =>
    match Scalar.ofValue? v with
    | some scalar => .ok (.inr scalar)
    | none => .error (.fault .wrongType)

/-- The superclass that a value gives; a value that reads as false gives none. -/
def superclassOf (v : Value) : Except ManifestError (Option Text) :=
  match v with
  | .text t => .ok (some t)
  | _ => if v.isTrue then .error (.fault .noSuchPart) else .ok none

/-- The interface that a value gives. -/
def interfaceOf : Value → Except ManifestError Text
  | .text t => .ok t
  | _ => .error (.fault .noSuchPart)

/-- **The class that a part of a manifest gives.** Of several errors the first counts, in the order
methods, fields, superclass, interfaces. -/
def ofValue (name : Text) : Value → Except ManifestError ClassInfo
  | .table entries => do
    let methods ← (← itemsOf entries "methods".toText).mapM methodOf
    let fields ← (← itemsOf entries "fields".toText).mapM fieldOf
    let superclass ← superclassOf ((entries.lookup "superclass".toText).getD .null)
    let interfaces ← (← itemsOf entries "interfaces".toText).mapM interfaceOf
    return make name methods (fields.filterMap Sum.getLeft?) (fields.filterMap Sum.getRight?)
      superclass interfaces
  | _ => .error (.fault .noSuchPart)

/-- The names of the parts of a class. -/
def partNames : List Text :=
  ["methods".toText, "fields".toText, "superclass".toText, "interfaces".toText]

/-- **The class that a single declaration gives.** An entry that is no part of a class is an error,
before any part is read. -/
def ofParts (name : Text) : Value → Except ManifestError ClassInfo
  | .table entries =>
    if entries.all fun e => partNames.contains e.1 then ofValue name (.table entries)
    else .error (.fault .wrongType)
  | _ => .error (.fault .wrongType)

end ClassInfo

/-! ### Universes -/

namespace Universe

/-- The universe with a class declared by its parts. -/
def declareParts (u : Universe) (name : Text) (v : Value) :
    Except ManifestError (ClassInfo × Universe) :=
  (ClassInfo.ofParts name v).map fun c => (c, u.register c)

/-- The universe of the classes of a manifest. -/
def ofEntries (entries : List (Text × Value)) : Except ManifestError Universe :=
  entries.foldlM (fun u e => (ClassInfo.ofValue e.1 e.2).map u.register) .empty

/-- The manifest that a text gives. -/
def ofText (path t : Text) : Except ManifestError Universe :=
  match Json.parse t with
  | .ok (.table entries) => ofEntries entries
  | .ok _ => .error (.noTable path)
  | .error .malformed => .error (.unreadable path)
  | .error .numeralTooLong => .error (.fault .badValue)
  | .error .tooDeep => .error (.fault .tooDeep)

/-- The universe of a manifest that stands in a file, and what happened. -/
def ofFile (tree : FileTree) (current : Place) (path : Path) :
    Except ManifestError (Universe × Trace) :=
  match tree.find current path with
  | .found .unreadable | .found .directory | .found .closed | .absent | .refused =>
    .error (.unreadable path.text)
  | .illFormed => .error (.fault .badValue)
  | .unencodable => .error (.fault .notEncodable)
  | .found (.file content) =>
    match Utf8.text? content with
    | none => .error (.fault .notText)
    | some t =>
      (ofText path.text t).map fun u => (u, [Event.loadedManifest u.size path.text])

end Universe
end Embargo
