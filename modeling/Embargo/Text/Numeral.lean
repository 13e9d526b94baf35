import Embargo.Text
import Embargo.Text.Alphanumeric

/-!
# Numerals

Decimal numerals, read and written.

* `Numeral.ofNat` and `Numeral.ofInt` – plain decimal text, without leading zeros;
  `Numeral.padded` – with zeros in front.
* `Numeral.isWritable` – the integers that have a decimal text: those of at most
  `Numeral.maxDigits` digits.
* `Numeral.value?` – the number that a row of decimal digits stands for; refused when the row is
  longer than `Numeral.maxDigits`, leading zeros included.
* `Numeral.integer?` – an integer as a person writes it in a setting: white space around it, a
  sign, single underscores between the digits, digits of any script.
-/

namespace Embargo.Numeral

open Text

/-- The longest row of digits that is converted to a number, or that a number is converted to. -/
def maxDigits : Nat := 4300

/-- The decimal text of a natural number. -/
def ofNat (n : Nat) : Text := (Nat.toDigits 10 n).map .char

/-- The decimal text of an integer. -/
def ofInt : Int → Text
  | .ofNat n => ofNat n
  | .negSucc n => '-' :: ofNat (n + 1)

/-- The integer has no more digits than are written; its sign does not count. -/
def isWritable (i : Int) : Bool := i.natAbs < Nat.pow 10 maxDigits

/-- The decimal text of a natural number, with zeros in front up to a width. -/
def padded (width n : Nat) : Text :=
  List.replicate (width - (ofNat n).length) (.char '0') ++ ofNat n

/-- The number that digit values stand for, the most significant first. -/
def ofDigits (digits : List Nat) : Nat := digits.foldl (fun n d => 10 * n + d) 0

/-- The number that a row of decimal digits of any script stands for; none if it is too long. -/
def value? (t : Text) : Option Nat :=
  if t.length ≤ maxDigits then some (ofDigits (t.filterMap decimalDigit?)) else none

/-! ### Integers as settings give them -/

/-- Why a text is no integer. -/
inductive IntegerError where
  /-- The text is not a numeral. -/
  | malformed
  /-- The numeral begins with more digits than are converted. -/
  | tooLong (digits : Nat)
  deriving DecidableEq

/-- White space that may stand around an integer: all of it but the four separators of ASCII. -/
def isPadding (c : CodePoint) : Bool :=
  isBlank c && !(0x1C ≤ c.toNat && c.toNat ≤ 0x1F)

/-- The values of the digits that a text begins with, and the rest. One underscore may stand
between two digits; any other underscore is an error. -/
def readDigits : Text → Option (List Nat × Text)
  | [] => some ([], [])
  | c :: r =>
    match decimalDigit? c with
    | some d =>
      match r with
      | '_' :: e :: r' =>
        if isDecimal e then (readDigits (e :: r')).map fun (ds, rest) => (d :: ds, rest) else none
      | ['_'] => none
      | r => (readDigits r).map fun (ds, rest) => (d :: ds, rest)
    | none => some ([], c :: r)

/-- The sign of a numeral and what follows it. -/
def readSign : Text → Bool × Text
  | '-' :: r => (true, r)
  | '+' :: r => (false, r)
  | r => (false, r)

/-- The integer that a text stands for. A row of digits that is too long is reported even when
something else follows it. -/
def integer? (t : Text) : Except IntegerError Int :=
  let (negative, unsigned) := readSign (t.dropWhile isPadding)
  match readDigits unsigned with
  | none | some ([], _) => .error .malformed
  | some (digits, rest) =>
    if digits.length > maxDigits then .error (.tooLong digits.length)
    else if rest.all isPadding then
      .ok (if negative then -(ofDigits digits : Int) else ofDigits digits)
    else .error .malformed

end Embargo.Numeral
