import Embargo.Glob
import Embargo.Jvm.Method

/-!
# Lines of a signature file

A content line is a **directive** or a **record**. A record forbids a class, a glob of classes, or
one field or method of a class; it may carry a message.

* `Directive`, `Record`, `Line` – what a line says.
* `Record.printout` – the report of what the record forbids.
* `isContent` – neither blank nor a comment.
-/

namespace Embargo

/-- What part of a class a record forbids. -/
inductive Member where
  /-- The class itself. -/
  | whole
  /-- The field with a name. -/
  | field (name : Text)
  /-- The methods that match a signature. -/
  | method (m : Jvm.Method)
  deriving DecidableEq

/-- A line that forbids something. -/
structure Record where
  /-- The line without its message. -/
  signature : Text
  /-- The class part; it may be a glob. -/
  className : Text
  /-- The part of the class. -/
  member : Member
  /-- The message of the line, or else the default one. -/
  message : Option Text
  deriving DecidableEq

namespace Record

/-- The report of what the record forbids. -/
def printout (r : Record) : Text := Embargo.printout r.signature r.message

/-- The class part is a glob. -/
def isPattern (r : Record) : Bool := Glob.isGlob r.className

/-- The pattern that a record with a glob stands for. -/
def pattern (r : Record) : ClassPattern := ⟨r.className, r.message⟩

end Record

/-- A line that controls how the lines after it are read. -/
inductive Directive where
  /-- Read another catalog here. -/
  | includeCatalog (name : Text)
  /-- Give records without a message this one, or none. -/
  | defaultMessage (message : Option Text)
  /-- Do not fail on what cannot be resolved. -/
  | ignoreUnresolvable
  deriving DecidableEq

/-- A content line. -/
inductive Line where
  /-- A directive. -/
  | directive (d : Directive)
  /-- A record. -/
  | record (r : Record)
  deriving DecidableEq

/-- A trimmed line that is neither blank nor a comment. -/
def isContent (line : Text) : Bool := !line.isEmpty && line.head? ≠ some '#'

end Embargo
