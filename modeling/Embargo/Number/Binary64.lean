import Embargo.Text.Numeral

/-!
# Binary floating-point numbers

Numbers of 53 significant bits, as values: `mantissa * 2 ^ exponent` with an exponent from -1074 to
971, the two infinities, and the value that is no number. All arithmetic is on natural numbers.

* `Binary64.ofDecimal` – the number nearest to a decimal one; a tie goes to the even mantissa.
* `Binary64.shortest` – the fewest decimal digits that are read back as the number, and of these
  the ones nearest to it; a tie goes to the even last digit.
* `Binary64.text` – the number as messages show it: positional between `0.0001` and 10¹⁶, with an
  exponent elsewhere.
-/

namespace Embargo

/-- A binary floating-point number. -/
inductive Binary64 where
  /-- The number `mantissa * 2 ^ exponent` with a sign; zero has the exponent zero. -/
  | finite (negative : Bool) (mantissa : Nat) (exponent : Int)
  /-- An infinity. -/
  | infinite (negative : Bool)
  /-- No number. -/
  | nan
  deriving DecidableEq

namespace Binary64

/-! ### Rounding -/

/-- The quotient rounded to the nearest number, a tie to the even one. -/
def roundDiv (a b : Nat) : Nat :=
  let q := a / b
  let r := a % b
  if 2 * r < b then q else if b < 2 * r then q + 1 else if q % 2 = 0 then q else q + 1

/-- The fraction `a / b` divided by a power of two, as a fraction. -/
def scale (a b : Nat) (exponent : Int) : Nat × Nat :=
  if 0 ≤ exponent then (a, b * Nat.pow 2 exponent.toNat)
  else (a * Nat.pow 2 (-exponent).toNat, b)

/-- The exponent that gives the fraction `a / b` a mantissa of 53 bits, or the least one. -/
def exponentFor (a b : Nat) : Int :=
  let e : Int := (Nat.log2 a : Int) - Nat.log2 b - 52
  let (a', b') := scale a b e
  max (-1074) (if a' < b' * Nat.pow 2 52 then e - 1 else e)

/-- The number nearest to the fraction `a / b`. -/
def ofFraction (negative : Bool) (a b : Nat) : Binary64 :=
  let e := exponentFor a b
  let (a', b') := scale a b e
  let m := roundDiv a' b'
  let (m, e) := if m = Nat.pow 2 53 then (Nat.pow 2 52, e + 1) else (m, e)
  if m = 0 then .finite negative 0 0
  else if 971 < e then .infinite negative
  else .finite negative m e

/-- The fraction `digits * 10 ^ exponent`. -/
def decimalFraction (digits : Nat) (exponent : Int) : Nat × Nat :=
  if 0 ≤ exponent then (digits * Nat.pow 10 exponent.toNat, 1)
  else (digits, Nat.pow 10 (-exponent).toNat)

/-- The number nearest to `digits * 10 ^ exponent`. Exponents far out of range are not computed
with: they give an infinity or zero. -/
def ofDecimal (negative : Bool) (digits : Nat) (exponent : Int) : Binary64 :=
  let magnitude : Int := (Numeral.ofNat digits).length + exponent
  if digits = 0 ∨ magnitude < -400 then .finite negative 0 0
  else if 400 < magnitude then .infinite negative
  else
    let (a, b) := decimalFraction digits exponent
    ofFraction negative a b

/-! ### Shortest decimals -/

/-- The fraction that a mantissa and an exponent stand for. -/
def fraction (mantissa : Nat) (exponent : Int) : Nat × Nat :=
  if 0 ≤ exponent then (mantissa * Nat.pow 2 exponent.toNat, 1)
  else (mantissa, Nat.pow 2 (-exponent).toNat)

/-- The number of digits before the point of the fraction `a / b`; for a fraction below one tenth,
minus the number of zeros behind the point. -/
def pointPlace (a b : Nat) : Int :=
  if b ≤ a then ((Numeral.ofNat (a / b)).length : Int)
  else match (List.range 400).find? fun n => b ≤ a * Nat.pow 10 (n + 1) with
    | some n => -(n : Int)
    | none => -400

/-- Of the two decimals with `exponent` around a number, the nearest that is read back as the
number. If both are as near, the one whose last digit is even comes first. -/
def nearestDecimal? (mantissa : Nat) (e : Int) (exponent : Int) : Option (Nat × Int) :=
  let (a, b) := fraction mantissa e
  let (a, b) :=
    if 0 ≤ exponent then (a, b * Nat.pow 10 exponent.toNat)
    else (a * Nat.pow 10 (-exponent).toNat, b)
  let low := a / b
  let candidates := if roundDiv a b = low then [low, low + 1] else [low + 1, low]
  (candidates.find? fun d => ofDecimal false d exponent = .finite false mantissa e).map
    (·, exponent)

/-- The digits and the exponent of the shortest decimal that is read back as a number that is not
zero. -/
def shortest (mantissa : Nat) (e : Int) : Nat × Int :=
  let (a, b) := fraction mantissa e
  let place := pointPlace a b
  ((List.range 17).findSome? fun (n : Nat) =>
    nearestDecimal? mantissa e (place - ((n : Nat) + 1 : Int))).getD (0, 0)

/-! ### Text -/

/-- A row of digits without the zeros at its end. -/
def dropZeros (t : Text) : Text := (t.reverse.dropWhile fun (c : CodePoint) => c = '0').reverse

/-- A decimal whose point stands behind `place` of its digits. -/
def positional (digits : Text) (place : Int) : Text :=
  if place ≤ 0 then "0.".toText ++ List.replicate (-place).toNat (.char '0') ++ digits
  else if digits.length ≤ place.toNat then
    digits ++ List.replicate (place.toNat - digits.length) (.char '0') ++ ".0".toText
  else digits.take place.toNat ++ ".".toText ++ digits.drop place.toNat

/-- A decimal with one digit before the point and an exponent of two or more digits. -/
def scientific (digits : Text) (place : Int) : Text :=
  let exponent := place - 1
  digits.take 1 ++ (if digits.length ≤ 1 then [] else ".".toText ++ digits.drop 1) ++
    (if exponent < 0 then "e-".toText else "e+".toText) ++ Numeral.padded 2 exponent.natAbs

/-- The text of a number that is not negative. -/
def magnitudeText (mantissa : Nat) (e : Int) : Text :=
  if mantissa = 0 then "0.0".toText
  else
    let (digits, exponent) := shortest mantissa e
    let row := Numeral.ofNat digits
    let place := (row.length : Int) + exponent
    if -4 < place ∧ place ≤ 16 then positional (dropZeros row) place
    else scientific (dropZeros row) place

/-- The sign in front of a number. -/
def sign (negative : Bool) : Text := if negative then "-".toText else []

/-- A number as messages show it. -/
def text : Binary64 → Text
  | .finite negative m e => sign negative ++ magnitudeText m e
  | .infinite negative => sign negative ++ "inf".toText
  | .nan => "nan".toText

/-! ### Comparison with natural numbers -/

/-- The number is at most `n`. -/
def leNat (x : Binary64) (n : Nat) : Bool :=
  match x with
  | .finite true _ _ => true
  | .finite false m e => let (a, b) := fraction m e; a ≤ n * b
  | .infinite negative => negative
  | .nan => false

/-- The number is less than `n`; a negative zero is not less than zero. -/
def ltNat (x : Binary64) (n : Nat) : Bool :=
  match x with
  | .finite true m _ => m ≠ 0 || 0 < n
  | .finite false m e => let (a, b) := fraction m e; a < n * b
  | .infinite negative => negative
  | .nan => false

end Binary64
end Embargo
