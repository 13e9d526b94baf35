import Embargo.Value.Scan

/-!
# Reading JSON

`Json.parse` reads a document: one value with white space around it. Beyond the standard it takes
`NaN`, `Infinity` and `-Infinity`; of a key that comes twice, the last value counts. A surrogate
that an escape gives without its partner is a code point of its own.

Every value takes at least one character, so the length of the text bounds the number of steps. How
deeply values are nested is bounded by `Json.nestingRoom`, of which each list and each table takes
one part.
-/

namespace Embargo.Json

open Scan

/-- The room for nested values in a document. -/
def nestingRoom : Nat := 989

/-- White space between the parts of a document. -/
def isSpace (c : CodePoint) : Bool := c = ' ' || c = '\t' || c = '\n' || c = '\r'

/-- The text without white space at its beginning. -/
def skip (s : Text) : Text := s.dropWhile isSpace

/-! ### Strings -/

/-- The character that a backslash and another character stand for. -/
def escape? : CodePoint → Option CodePoint
  | '"' => some '"'
  | '\\' => some '\\'
  | '/' => some '/'
  | 'b' => some '\x08'
  | 'f' => some '\x0c'
  | 'n' => some '\n'
  | 'r' => some '\r'
  | 't' => some '\t'
  | _ => none

/-- The code point that numeric escapes give, and the rest behind them. -/
def unicodeEscape (s : Text) : Scanning (CodePoint × Text) := do
  let (n, rest) ← hexNumber 4 s
  match rest with
  | '\\' :: 'u' :: r =>
    if CodePoint.isHigh n then
      let (low, rest') ← hexNumber 4 r
      if CodePoint.isLow low then return (.ofPair n low, rest') else return (.ofNat n, rest)
    else return (.ofNat n, rest)
  | _ => return (.ofNat n, rest)

/-- The rest of a string behind its opening quote. -/
def stringBody : Nat → Text → Scanning (Text × Text)
  | 0, _ => malformed
  | _ + 1, [] => malformed
  | _ + 1, '"' :: r => .ok ([], r)
  | fuel + 1, '\\' :: 'u' :: r => do
    let (c, rest) ← unicodeEscape r
    let (t, rest) ← stringBody fuel rest
    return (c :: t, rest)
  | fuel + 1, '\\' :: c :: r => do
    match escape? c with
    | some d =>
      let (t, rest) ← stringBody fuel r
      return (d :: t, rest)
    | none => malformed
  | fuel + 1, c :: r => do
    if c = '\\' ∨ c < ' ' then malformed
    else
      let (t, rest) ← stringBody fuel r
      return (c :: t, rest)

/-! ### Numbers -/

/-- The digits of a fraction behind a point, if there are any, and the rest. -/
def fraction (s : Text) : Text × Text :=
  match s with
  | '.' :: r =>
    let (digits, rest) := span CodePoint.isDigit r
    if digits = [] then ([], s) else (digits, rest)
  | _ => ([], s)

/-- The sign and the digits of an exponent, if there are any, and the rest. -/
def exponent (s : Text) : Bool × Text × Text :=
  match s with
  | c :: r =>
    if c = 'e' ∨ c = 'E' then
      let (negative, r) := exponentSign r
      let (digits, rest) := span CodePoint.isDigit r
      if digits = [] then (false, [], s) else (negative, digits, rest)
    else (false, [], s)
  | [] => (false, [], s)

/-- The digits before the point: one zero, or digits that do not begin with zero. -/
def whole : Text → Scanning (Text × Text)
  | '0' :: r => .ok (['0'], r)
  | s =>
    let (digits, rest) := span CodePoint.isDigit s
    if digits = [] then malformed else .ok (digits, rest)

/-- A number behind its sign. -/
def number (negative : Bool) (s : Text) : Scanning (Value × Text) := do
  let (digits, rest) ← whole s
  let (fractionDigits, rest) := fraction rest
  let (exponentNegative, exponentDigits, rest) := exponent rest
  if fractionDigits = [] ∧ exponentDigits = [] then
    let v ← decimalInteger negative digits
    return (v, rest)
  else return (decimalFloat negative digits fractionDigits exponentNegative exponentDigits, rest)

/-! ### Values -/

/-- The words that are values. -/
def words : List (Text × Value) :=
  [("null".toText, .null), ("true".toText, .bool true), ("false".toText, .bool false),
   ("NaN".toText, .float .nan), ("Infinity".toText, .float (.infinite false)),
   ("-Infinity".toText, .float (.infinite true))]

/-- A word or a number. -/
def scalar (s : Text) : Scanning (Value × Text) :=
  match words.find? fun w => w.1.isPrefixOf s with
  | some (word, v) => .ok (v, s.drop word.length)
  | none =>
    match s with
    | '-' :: r => number true r
    | _ => number false s

mutual

/-- The value that a text begins with. -/
def value (room : Nat) : Nat → Text → Scanning (Value × Text)
  | 0, _ => malformed
  | _ + 1, '"' :: r => do
    let (t, rest) ← stringBody (r.length + 1) r
    return (.text t, rest)
  | fuel + 1, '[' :: r => do
    let room ← enter 1 room
    match skip r with
    | ']' :: rest => return (.list [], rest)
    | s =>
      let (vs, rest) ← elements room fuel s
      return (.list vs, rest)
  | fuel + 1, '\x7b' :: r => do
    let room ← enter 1 room
    match skip r with
    | '\x7d' :: rest => return (.table [], rest)
    | s =>
      let (es, rest) ← members room fuel s
      return (.table (Table.ofList es).entries, rest)
  | _ + 1, s => scalar s

/-- Values with commas between them, up to the bracket. -/
def elements (room : Nat) : Nat → Text → Scanning (List Value × Text)
  | 0, _ => malformed
  | fuel + 1, s => do
    let (v, rest) ← value room fuel s
    match skip rest with
    | ']' :: r => return ([v], r)
    | ',' :: r =>
      let (vs, rest) ← elements room fuel (skip r)
      return (v :: vs, rest)
    | _ => malformed

/-- Named values with commas between them, up to the brace. -/
def members (room : Nat) : Nat → Text → Scanning (List (Text × Value) × Text)
  | 0, _ => malformed
  | fuel + 1, '"' :: s => do
    let (name, rest) ← stringBody (s.length + 1) s
    let rest ← expect ":".toText (skip rest)
    let (v, rest) ← value room fuel (skip rest)
    match skip rest with
    | '\x7d' :: r => return ([(name, v)], r)
    | ',' :: r =>
      let (es, rest) ← members room fuel (skip r)
      return ((name, v) :: es, rest)
    | _ => malformed
  | _ + 1, _ => malformed

end

/-- The value of a document. -/
def parse (t : Text) : Scanning Value := do
  let (v, rest) ← value nestingRoom (2 * t.length + 1) (skip t)
  if skip rest = [] then return v else malformed

end Embargo.Json
