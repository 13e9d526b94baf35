import Embargo.Text.Quoted

/-!
# Syntax errors

The ways in which a type, a method or a line of a signature file cannot be read. Each constructor
is one cause and carries the text that is at fault; `SyntaxError.message` words it.
-/

namespace Embargo

/-- Why a type, a method or a signature line cannot be read. -/
inductive SyntaxError where
  /-- No type has this descriptor. -/
  | typeDescriptor (text : Text)
  /-- No type has this name. -/
  | typeName (name : Text)
  /-- `void` has no arrays. -/
  | voidArray
  /-- No method has this name and descriptor. -/
  | methodDescriptor (text : Text)
  /-- The text declares no method. -/
  | methodSignature (text : Text)
  /-- Nothing stands before the argument list. -/
  | methodNameMissing (text : Text)
  /-- The arguments are descriptors, and nothing follows them. -/
  | returnTypeMissing (text : Text)
  /-- The line is a directive that does not exist or may not stand here. -/
  | directive (line : Text)
  /-- Nothing stands before the message of the line. -/
  | signatureMissing (line : Text)
  /-- Nothing stands after the mark of a member. -/
  | memberMissing (signature : Text)
  /-- Nothing stands before the mark of a member. -/
  | classMissing (signature : Text)
  /-- A glob stands for whole classes, and has no members. -/
  | memberOfGlob (signature : Text)
  deriving DecidableEq

namespace SyntaxError

/-- The wording of a syntax error. -/
def message : SyntaxError → Text
  | .typeDescriptor t => "Invalid type descriptor: ".toText ++ t
  | .typeName n => "Invalid type name: ".toText ++ Text.quoted n
  | .voidArray => "Invalid type name: void array".toText
  | .methodDescriptor t => "Invalid method descriptor: ".toText ++ t
  | .methodSignature t => "Invalid method signature: ".toText ++ t
  | .methodNameMissing t => "Invalid method signature (method name missing): ".toText ++ t
  | .returnTypeMissing t => "JVM method descriptor is missing its return type: ".toText ++ t
  | .directive line => "Invalid line in signature file: ".toText ++ line
  | .signatureMissing _ => "Empty signature".toText
  | .memberMissing s => "Invalid field signature (field name missing): ".toText ++ s
  | .classMissing s => "Invalid signature (class name missing): ".toText ++ s
  | .memberOfGlob s =>
    "Class level glob pattern cannot be combined with methods/fields: ".toText ++ s

/-- The line that a report of the error adds to its message. -/
def line? : SyntaxError → Option Text
  | .signatureMissing line => some line
  | _ => none

end SyntaxError
end Embargo
