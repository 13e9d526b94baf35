import Embargo.Value

/-!
# Scanning values

What the readers of JSON and of TOML share: the ways in which a document cannot be read, the result
of reading something from the front of a text, the room that nested values have, and rows of digits.
-/

namespace Embargo.Scan

/-- Why a document cannot be read. -/
inductive ScanError where
  /-- It breaks the grammar. -/
  | malformed
  /-- It has an integer with more digits than are converted. -/
  | numeralTooLong
  /-- Its values are nested too deeply. -/
  | tooDeep
  deriving DecidableEq

/-- What reading gives. Most readers give something from the front of a text, and the rest. -/
abbrev Scanning := Except ScanError

/-- The text breaks the grammar. -/
def malformed {α : Type} : Scanning α := .error .malformed

/-- The room that is left inside a value which takes some of it. -/
def enter (cost room : Nat) : Scanning Nat :=
  if cost ≤ room then .ok (room - cost) else .error .tooDeep

/-- The rest behind a text that must come next. -/
def expect (t s : Text) : Scanning Text :=
  if t.isPrefixOf s then .ok (s.drop t.length) else malformed

/-- The longest beginning of a text that is made of some characters, and the rest. -/
def span (p : CodePoint → Bool) (s : Text) : Text × Text := (s.takeWhile p, s.dropWhile p)

/-- The value of a hexadecimal digit. -/
def hexValue? (c : CodePoint) : Option Nat :=
  if c.isDigit then some (c.toNat - '0'.toNat)
  else if 'a' ≤ c ∧ c ≤ 'f' then some (c.toNat - 'a'.toNat + 10)
  else if 'A' ≤ c ∧ c ≤ 'F' then some (c.toNat - 'A'.toNat + 10)
  else none

/-- The number with some digits in a base. -/
def numberOf (base : Nat) (digits : Text) : Nat :=
  digits.foldl (fun n c => base * n + (hexValue? c).getD 0) 0

/-- The number that the first `width` characters give in hexadecimal, and the rest. -/
def hexNumber (width : Nat) (s : Text) : Scanning (Nat × Text) :=
  let digits := s.take width
  if digits.length = width ∧ digits.all fun c => (hexValue? c).isSome then
    .ok (numberOf 16 digits, s.drop width)
  else malformed

/-- An integer from its decimal digits, unless there are too many. -/
def decimalInteger (negative : Bool) (digits : Text) : Scanning Value :=
  if Numeral.maxDigits < digits.length then .error .numeralTooLong
  else
    let n : Int := numberOf 10 digits
    .ok (.int (if negative then -n else n))

/-- A floating-point number from the digits before and behind the point and the exponent. -/
def decimalFloat (negative : Bool) (whole fraction : Text) (exponentNegative : Bool)
    (exponent : Text) : Value :=
  let e : Int := numberOf 10 exponent
  .float (.ofDecimal negative (numberOf 10 (whole ++ fraction))
    ((if exponentNegative then -e else e) - fraction.length))

/-- The sign of an exponent, and the rest. -/
def exponentSign : Text → Bool × Text
  | '-' :: r => (true, r)
  | '+' :: r => (false, r)
  | r => (false, r)

end Embargo.Scan
