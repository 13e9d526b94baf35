import Embargo.Text

/-!
# Types of the Java virtual machine

A **field type** is a base type, a class or an array of a field type; a **return type** is `void`
or a field type. Arguments and array elements are field types, so `void` can be neither.

* `FieldType`, `ReturnType` – the types.
* `FieldType.descriptor`, `ReturnType.descriptor` – the spelling of class files: `I`,
  `[Ljava/lang/String;`.
* `FieldType.className`, `ReturnType.className` – the spelling of source text: `int`,
  `java.lang.String[]`.
-/

namespace Embargo.Jvm

/-! ### Base types -/

/-- The eight types that are not references. -/
inductive BaseType where
  | boolean
  | char
  | byte
  | short
  | int
  | float
  | long
  | double
  deriving DecidableEq

namespace BaseType

/-- All base types. -/
def all : List BaseType := [.boolean, .char, .byte, .short, .int, .float, .long, .double]

/-- The letter of a base type in descriptors. -/
def letter : BaseType → CodePoint
  | .boolean => 'Z'
  | .char => 'C'
  | .byte => 'B'
  | .short => 'S'
  | .int => 'I'
  | .float => 'F'
  | .long => 'J'
  | .double => 'D'

/-- The keyword of a base type in source text. -/
def keyword : BaseType → Text
  | .boolean => "boolean".toText
  | .char => "char".toText
  | .byte => "byte".toText
  | .short => "short".toText
  | .int => "int".toText
  | .float => "float".toText
  | .long => "long".toText
  | .double => "double".toText

/-- The base type with a letter. -/
def ofLetter? (c : CodePoint) : Option BaseType := all.find? fun b => b.letter = c

/-- The base type with a keyword. -/
def ofKeyword? (t : Text) : Option BaseType := all.find? fun b => b.keyword = t

@[simp] theorem ofLetter?_letter (b : BaseType) : ofLetter? b.letter = some b := by
  cases b <;> rfl

@[simp] theorem ofKeyword?_keyword (b : BaseType) : ofKeyword? b.keyword = some b := by
  cases b <;> rfl

end BaseType

/-! ### Field types -/

/-- A type that a field, an argument or an array element can have. -/
inductive FieldType where
  /-- A base type. -/
  | base (b : BaseType)
  /-- A class, by its name with slashes. -/
  | object (internalName : Text)
  /-- An array of a type. -/
  | array (component : FieldType)
  deriving DecidableEq

namespace FieldType

/-- The spelling of a type in class files. -/
def descriptor : FieldType → Text
  | .base b => [b.letter]
  | .object name => "L".toText ++ name ++ ";".toText
  | .array t => '[' :: t.descriptor

/-- The spelling of a type in source text, classes by their name with dots. -/
def className : FieldType → Text
  | .base b => b.keyword
  | .object name => Text.binaryName name
  | .array t => t.className ++ "[]".toText

/-- The type of the innermost elements of an array; any other type is its own. -/
def element : FieldType → FieldType
  | .array t => t.element
  | t => t

/-- The number of indices that lead to the innermost elements. -/
def dimensions : FieldType → Nat
  | .array t => t.dimensions + 1
  | _ => 0

/-- The array of a type with some dimensions more. -/
def nest : Nat → FieldType → FieldType
  | 0, t => t
  | n + 1, t => .array (nest n t)

/-- The class with a name in either spelling. -/
def ofClassName (name : Text) : FieldType := .object (Text.internalName name)

end FieldType

/-! ### Return types -/

/-- What a method returns: nothing, or a value of a field type. -/
inductive ReturnType where
  /-- No value. -/
  | void
  /-- A value. -/
  | value (t : FieldType)
  deriving DecidableEq

/-- The kinds of types, as reports name them. -/
inductive Kind where
  | void
  | base (b : BaseType)
  | array
  | object
  deriving DecidableEq

/-- The name of a kind of types. -/
def Kind.name : Kind → Text
  | .void => "VOID".toText
  | .base b => b.keyword.map CodePoint.toUpper
  | .array => "ARRAY".toText
  | .object => "OBJECT".toText

namespace ReturnType

/-- The keyword of the type without values. -/
def voidKeyword : Text := "void".toText

/-- The spelling of a type in class files. -/
def descriptor : ReturnType → Text
  | .void => ['V']
  | .value t => t.descriptor

/-- The spelling of a type in source text. -/
def className : ReturnType → Text
  | .void => voidKeyword
  | .value t => t.className

/-- The kind of a type. -/
def kind : ReturnType → Kind
  | .void => .void
  | .value (.base b) => .base b
  | .value (.object _) => .object
  | .value (.array _) => .array

/-- The type of the innermost elements of an array; any other type is its own. -/
def element : ReturnType → ReturnType
  | .void => .void
  | .value t => .value t.element

/-- The number of indices that lead to the innermost elements. -/
def dimensions : ReturnType → Nat
  | .void => 0
  | .value t => t.dimensions

/-- The name of a class with slashes; the descriptor of any other type. -/
def internalName : ReturnType → Text
  | .value (.object name) => name
  | t => t.descriptor

end ReturnType

end Embargo.Jvm
