import Embargo.Jvm.Type

/-!
# Method signatures

A method signature is a name, the types of the arguments and the return type. Two methods of a
class may differ in their return types alone (an override with a narrower type, and the bridge to
it), so **matching** leaves the return type out.

* `Method.descriptor` and `Method.text` – the spelling of class files, without and with the name.
* `Method.Matches` – same name and argument types.
-/

namespace Embargo.Jvm

/-- A method's name, argument types and return type. -/
structure Method where
  /-- The name; `<init>` for constructors. -/
  name : Text
  /-- The types of the arguments, in order. -/
  arguments : List FieldType
  /-- The return type; a source declaration does not give it. -/
  returns : ReturnType := .void
  deriving DecidableEq

namespace Method

/-- The argument types between parentheses, and the return type. -/
def descriptor (m : Method) : Text :=
  "(".toText ++ m.arguments.flatMap FieldType.descriptor ++ ")".toText ++ m.returns.descriptor

/-- The name followed by the descriptor: `length()I`. -/
def text (m : Method) : Text := m.name ++ m.descriptor

/-- Same name and argument types. -/
def Matches (m wanted : Method) : Prop :=
  m.name = wanted.name ∧ m.arguments = wanted.arguments

instance (m wanted : Method) : Decidable (m.Matches wanted) :=
  inferInstanceAs (Decidable (_ ∧ _))

end Method
end Embargo.Jvm
