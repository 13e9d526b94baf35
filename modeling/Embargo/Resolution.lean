import Embargo.Failure
import Embargo.Line
import Embargo.Universe

/-!
# Resolution

Resolving a record asks the class universe what it forbids. The answer is either the **keys** under
which the registry indexes it, or the **gap** that was found: the class, the method or the field is
missing. A method record has a key for every declaration with its name and argument types.

* `Key` – what can be forbidden.
* `Gap` – what is missing.
* `ClassInfo.keysOf` – the keys of a member of a class, or the gap.
* `Policy` – what is done about a gap.
-/

namespace Embargo

/-- What can be forbidden, by names with slashes. -/
inductive Key where
  /-- A class. -/
  | class (className : Text)
  /-- A field of a class. -/
  | field (className name : Text)
  /-- A method of a class, with its return type. -/
  | method (className : Text) (m : Jvm.Method)
  deriving DecidableEq

/-- What part of a record is missing. -/
inductive Gap where
  /-- The class is not declared. -/
  | class (className : Text)
  /-- No method of the class matches. -/
  | method
  /-- The class has no such field. -/
  | field
  deriving DecidableEq

namespace Gap

/-- The wording of a gap. -/
def reason : Gap → Text
  | .class className => Failure.classNotFoundMessage className
  | .method => "Method not found".toText
  | .field => "Field not found".toText

/-- The class itself is missing. -/
def isClass : Gap → Bool
  | .class _ => true
  | _ => false

end Gap

/-- The keys of a member of a class, in order, or what is missing. -/
def ClassInfo.keysOf (c : ClassInfo) : Member → Except Gap (List Key)
  | .whole => .ok [.class c.name]
  | .field name => if c.hasField name then .ok [.field c.name name] else .error .field
  | .method wanted =>
    match c.findMethods wanted with
    | [] => .error .method
    | m :: ms => .ok ((m :: ms).map (.method c.name))

/-- The keys of a record, given the answer to the question for its class. -/
def Record.resolve (r : Record) (answer : Universe.Answer) : Except Gap (List Key) :=
  match answer.found with
  | some c => c.keysOf r.member
  | none => .error (.class r.className)

/-! ### Policies -/

/-- What is done about a record that cannot be resolved. -/
inductive Policy where
  /-- The text is not read any further. -/
  | fail
  /-- The record is skipped with a warning. -/
  | warn
  /-- The record is skipped; missing classes are collected for a summary. -/
  | silent
  deriving DecidableEq

namespace Policy

/-- The name of a policy. -/
def name : Policy → Text
  | .fail => "fail".toText
  | .warn => "warn".toText
  | .silent => "silent".toText

/-- The policy with a name. -/
def ofName? (t : Text) : Option Policy := [.fail, .warn, .silent].find? fun p => name p = t

/-- Missing classes are collected instead of being reported one by one. -/
def collectsMissing (p : Policy) : Bool := p = .silent

end Policy
end Embargo
