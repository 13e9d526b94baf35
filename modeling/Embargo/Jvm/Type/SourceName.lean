import Embargo.Jvm.Type
import Embargo.SyntaxError

/-!
# Reading the names of types in source text

A type of source text is a keyword or a class name, followed by `[]` or `...` for each dimension.
White space may stand around the name and before each of the marks.

* `isClassName` – names whose parts, between dots or slashes, are Java identifiers.
* `ReturnType.ofSourceName` – the type with a name.
-/

namespace Embargo.Jvm

/-! ### Identifiers -/

/-- A character that may stand in an identifier. -/
def isIdentifierChar (c : CodePoint) : Bool :=
  Text.isAlphanumeric c || c = '_' || c = '$'

/-- Letters, numbers, `_` and `$`, not empty and not beginning with a digit. -/
def isIdentifier : Text → Bool
  | [] => false
  | c :: r => !Text.hasDigitValue c && (c :: r).all isIdentifierChar

/-- Identifiers with dots or slashes between them. -/
def isClassName (t : Text) : Bool :=
  (Text.split '.' (Text.binaryName t)).all isIdentifier

/-! ### Types -/

/-- A text read backwards, without the marks of dimensions that it ends with, and their number.
White space before a mark goes with it. -/
def dropMarks : Text → Nat × Text
  | ']' :: '[' :: r =>
    let (n, rest) := dropMarks (r.dropWhile Text.isBlank)
    (n + 1, rest)
  | '.' :: '.' :: '.' :: r =>
    let (n, rest) := dropMarks (r.dropWhile Text.isBlank)
    (n + 1, rest)
  | r => (0, r)
termination_by r => r.length
decreasing_by
  all_goals
    have := (List.dropWhile_sublist (l := r) Text.isBlank).length_le
    simp only [List.length_cons]
    omega

/-- The number of dimensions that a name is marked with, and the name without the marks. -/
def splitMarks (t : Text) : Nat × Text :=
  let (n, rest) := dropMarks (Text.trim t).reverse
  (n, rest.reverse)

/-- The type with a name in source text. -/
def ReturnType.ofSourceName (t : Text) : Except SyntaxError ReturnType :=
  let (dimensions, name) := splitMarks t
  if !isClassName name then .error (.typeName name)
  else if name = ReturnType.voidKeyword then
    if dimensions = 0 then .ok .void else .error .voidArray
  else match BaseType.ofKeyword? name with
    | some b => .ok (.value (.nest dimensions (.base b)))
    | none => .ok (.value (.nest dimensions (.ofClassName name)))

end Embargo.Jvm
