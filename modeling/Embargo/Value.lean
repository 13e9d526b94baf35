import Embargo.Number.Binary64
import Embargo.Table
import Embargo.Text.Quoted

/-!
# Values of settings and manifests

Settings and class manifests are data whose shape is not known before it is read. A `Value` is
whatever such a file, a variable or a caller can give.

* `Value.display` – the value as messages show it; a text stands as it is.
* `Value.literal` – the value inside a list or a table, where texts are quoted.
* `Value.isWritable` and `Value.depth` – the value can be shown: none of its integers has too many
  digits, and its parts are not nested deeper than `Value.maxShownDepth`.
* `Value.isTrue` – how a value reads as a condition.
* `Number` – the values that can be compared with a number.
-/

namespace Embargo

/-! ### Dates and times -/

/-- A day of the calendar. -/
structure Date where
  year : Nat
  month : Nat
  day : Nat
  deriving DecidableEq

/-- A time of day, to the microsecond. -/
structure TimeOfDay where
  hour : Nat
  minute : Nat
  second : Nat
  microsecond : Nat
  deriving DecidableEq

/-- A date, a time of day, or both, possibly with the minutes that the local clock is ahead. -/
inductive Moment where
  | date (d : Date)
  | time (t : TimeOfDay)
  | dateTime (d : Date) (t : TimeOfDay) (offset : Option Int)
  deriving DecidableEq

/-- A date: `1979-05-27`. -/
def Date.display (d : Date) : Text :=
  Text.join "-".toText [Numeral.padded 4 d.year, Numeral.padded 2 d.month, Numeral.padded 2 d.day]

/-- A time of day: `07:32:00`, with six more digits if they are not all zero. -/
def TimeOfDay.display (t : TimeOfDay) : Text :=
  Text.join ":".toText
      [Numeral.padded 2 t.hour, Numeral.padded 2 t.minute, Numeral.padded 2 t.second] ++
    if t.microsecond = 0 then [] else ".".toText ++ Numeral.padded 6 t.microsecond

/-- The numbers that a date is shown by inside a list. -/
def Date.arguments (d : Date) : List Text :=
  [Numeral.ofNat d.year, Numeral.ofNat d.month, Numeral.ofNat d.day]

/-- The numbers that a time of day is shown by inside a list: the seconds are left out if nothing
but zero comes from them on. -/
def TimeOfDay.arguments (t : TimeOfDay) : List Text :=
  [Numeral.ofNat t.hour, Numeral.ofNat t.minute] ++
    if t.microsecond ≠ 0 then [Numeral.ofNat t.second, Numeral.ofNat t.microsecond]
    else if t.second ≠ 0 then [Numeral.ofNat t.second] else []

namespace Moment

/-- The minutes that a clock is ahead: `+00:00`. -/
def displayOffset (minutes : Int) : Text :=
  (if minutes < 0 then '-' else '+') ::
    Text.join ":".toText
      [Numeral.padded 2 (minutes.natAbs / 60), Numeral.padded 2 (minutes.natAbs % 60)]

/-- A moment as messages show it. -/
def display : Moment → Text
  | .date d => d.display
  | .time t => t.display
  | .dateTime d t offset =>
    d.display ++ " ".toText ++ t.display ++
      (match offset with | some m => displayOffset m | none => [])

/-- A name applied to arguments. -/
def applied (name : String) (arguments : List Text) : Text :=
  name.toText ++ "(".toText ++ Text.join ", ".toText arguments ++ ")".toText

/-- An offset inside a list: whole days, which are negative for a clock that is behind, and the
seconds that remain. -/
def offsetLiteral (minutes : Int) : Text :=
  if minutes = 0 then "datetime.timezone.utc".toText
  else
    let seconds := "seconds=".toText ++ Numeral.ofInt (minutes % 1440 * 60)
    applied "datetime.timezone" [applied "datetime.timedelta"
      (if minutes < 0 then ["days=-1".toText, seconds] else [seconds])]

/-- A moment inside a list or a table. -/
def literal : Moment → Text
  | .date d => applied "datetime.date" d.arguments
  | .time t => applied "datetime.time" t.arguments
  | .dateTime d t offset =>
    applied "datetime.datetime" (d.arguments ++ t.arguments ++
      match offset with | some m => ["tzinfo=".toText ++ offsetLiteral m] | none => [])

end Moment

/-! ### Values -/

/-- Whatever a setting or a manifest can hold. -/
inductive Value where
  /-- Nothing. -/
  | null
  /-- A truth value. -/
  | bool (b : Bool)
  /-- An integer. -/
  | int (i : Int)
  /-- A floating-point number. -/
  | float (x : Binary64)
  /-- A text. -/
  | text (t : Text)
  /-- A date or a time. -/
  | moment (m : Moment)
  /-- Several values. -/
  | list (vs : List Value)
  /-- Values by name, in order. -/
  | table (entries : List (Text × Value))

namespace Value

mutual

/-- A value inside a list or a table. -/
def literal : Value → Text
  | .null => "None".toText
  | .bool true => "True".toText
  | .bool false => "False".toText
  | .int i => Numeral.ofInt i
  | .float x => x.text
  | .text t => Text.quoted t
  | .moment m => m.literal
  | .list vs => "[".toText ++ Text.join ", ".toText (literals vs) ++ "]".toText
  | .table es => "\x7b".toText ++ Text.join ", ".toText (entryLiterals es) ++ "\x7d".toText

/-- Several values inside a list. -/
def literals : List Value → List Text
  | [] => []
  | v :: vs => literal v :: literals vs

/-- Several named values inside a table. -/
def entryLiterals : List (Text × Value) → List Text
  | [] => []
  | (k, v) :: es => (Text.quoted k ++ ": ".toText ++ literal v) :: entryLiterals es

end

mutual

/-- No integer of the value has more digits than are written. -/
def isWritable : Value → Bool
  | .int i => Numeral.isWritable i
  | .list vs => areWritable vs
  | .table es => entriesAreWritable es
  | _ => true

/-- Each of several values is writable. -/
def areWritable : List Value → Bool
  | [] => true
  | v :: vs => isWritable v && areWritable vs

/-- Each of several named values is writable. -/
def entriesAreWritable : List (Text × Value) → Bool
  | [] => true
  | (_, v) :: es => isWritable v && entriesAreWritable es

end

mutual

/-- The number of values that are nested in each other, the innermost included. -/
def depth : Value → Nat
  | .list vs => deepest vs + 1
  | .table es => deepestEntry es + 1
  | _ => 1

/-- The depth of the deepest of several values. -/
def deepest : List Value → Nat
  | [] => 0
  | v :: vs => max (depth v) (deepest vs)

/-- The depth of the deepest of several named values. -/
def deepestEntry : List (Text × Value) → Nat
  | [] => 0
  | (_, v) :: es => max (depth v) (deepestEntry es)

end

/-- The greatest depth of a value that messages show. -/
def maxShownDepth : Nat := 992

/-- A value as messages show it. -/
def display : Value → Text
  | .text t => t
  | .moment m => m.display
  | v => v.literal

/-- How a value reads as a condition: nothing, zero and what is empty are false. -/
def isTrue : Value → Bool
  | .null => false
  | .bool b => b
  | .int i => i ≠ 0
  | .float (.finite _ m _) => m ≠ 0
  | .float _ => true
  | .text t => !t.isEmpty
  | .moment _ => true
  | .list vs => !vs.isEmpty
  | .table es => !es.isEmpty

/-- The text that a value is. -/
def text? : Value → Option Text
  | .text t => some t
  | _ => none

/-- The values that a value holds: the elements of a list, the characters of a text, the names of a
table. -/
def items? : Value → Option (List Value)
  | .list vs => some vs
  | .text t => some (t.map fun c => .text [c])
  | .table es => some (es.map fun e => .text e.1)
  | _ => none

end Value

/-! ### Numbers -/

/-- A value that can be compared with a number; a truth value counts as zero or one. -/
inductive Number where
  | int (i : Int)
  | bool (b : Bool)
  | float (x : Binary64)
  deriving DecidableEq

namespace Number

/-- The number as a value. -/
def toValue : Number → Value
  | .int i => .int i
  | .bool b => .bool b
  | .float x => .float x

/-- The number that a value is. -/
def ofValue? : Value → Option Number
  | .int i => some (.int i)
  | .bool b => some (.bool b)
  | .float x => some (.float x)
  | _ => none

/-- The number is less than a natural one. -/
def ltNat (number : Number) (n : Nat) : Bool :=
  match number with
  | .int i => i < n
  | .bool b => b.toNat < n
  | .float x => x.ltNat n

/-- The number is at most a natural one. -/
def leNat (number : Number) (n : Nat) : Bool :=
  match number with
  | .int i => i ≤ n
  | .bool b => b.toNat ≤ n
  | .float x => x.leNat n

end Number
end Embargo
