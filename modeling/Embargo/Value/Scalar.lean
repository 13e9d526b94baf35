import Embargo.Value

/-!
# Scalars

A scalar is a value without parts that is no text: nothing, or a number. A manifest can have one
where a name belongs, and names are shown in order.

* `Number.le` – the order of numbers, whatever kinds of numbers they are.
* `Number.insertOnce` – a number put into an ordered row in which no two numbers are equal.
* `Scalar.row?` – scalars in order. Nothing can be compared with nothing else.
-/

namespace Embargo

namespace Number

/-! ### Order -/

/-- How often the least positive floating-point number goes into a finite number. -/
def units? : Number → Option Int
  | .int i => some (i * Int.pow 2 1074)
  | .bool b => some (b.toNat * Int.pow 2 1074)
  | .float (.finite negative m e) =>
    let size : Int := m * Int.pow 2 (e + 1074).toNat
    some (if negative then -size else size)
  | .float _ => none

/-- The number is at most another one. -/
def le (a b : Number) : Bool :=
  match a.units?, b.units? with
  | some m, some n => m ≤ n
  | none, some _ => a = .float (.infinite true)
  | some _, none => b = .float (.infinite false)
  | none, none => a = b || a = .float (.infinite true) && b = .float (.infinite false)

/-- A number put into an ordered row, unless an equal one is there already. -/
def insertOnce (n : Number) : List Number → List Number
  | [] => [n]
  | m :: ms =>
    if n.le m then (if m.le n then m :: ms else n :: m :: ms) else m :: insertOnce n ms

end Number

/-! ### Scalars -/

/-- A value without parts that is no text. -/
inductive Scalar where
  /-- Nothing. -/
  | null
  /-- A number. -/
  | number (n : Number)
  deriving DecidableEq

namespace Scalar

/-- The scalar that a value is. -/
def ofValue? : Value → Option Scalar
  | .null => some .null
  | v => (Number.ofValue? v).map .number

/-- The number that a scalar is. -/
def number? : Scalar → Option Number
  | .null => none
  | .number n => some n

/-- Distinct scalars in order, of equal numbers only the first; none if they cannot be compared. -/
def row? (scalars : List Scalar) : Option (List Value) :=
  if scalars = [.null] then some [.null]
  else (scalars.mapM number?).map fun numbers =>
    (numbers.foldl (fun row n => n.insertOnce row) []).map Number.toValue

end Scalar
end Embargo
