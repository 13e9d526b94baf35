/-!
# Code points

A text can hold more than characters: by an escape, a document can give one half of a surrogate
pair without the other. Such a half is no character, but a name that has it is a name like any
other, and different from all that differ in it. So a text is a list of **code points**, each of
which is a character or a **surrogate**.

* `CodePoint.toNat` and `CodePoint.ofNat` – the number of a code point, and back.
* `CodePoint.ofPair` – the character that two surrogates give together.
* A surrogate is no letter, no digit and no white space. The tests and the changes of case here are
  those of ASCII.
-/

namespace Embargo

/-- A character, or half of a surrogate pair. -/
inductive CodePoint where
  /-- A character. -/
  | char (c : Char)
  /-- The surrogate with the number `0xD800 + offset`. -/
  | surrogate (offset : Fin 0x800)
  deriving DecidableEq

namespace CodePoint

instance : Coe Char CodePoint := ⟨.char⟩

instance : Inhabited CodePoint := ⟨.char ' '⟩

/-! ### Numbers -/

/-- The number of a code point. -/
def toNat : CodePoint → Nat
  | .char c => c.toNat
  | .surrogate offset => 0xD800 + offset

/-- The code point with a number; a number beyond the last one gives the code point zero. -/
def ofNat (n : Nat) : CodePoint :=
  if h : 0xD800 ≤ n ∧ n < 0xE000 then .surrogate ⟨n - 0xD800, by omega⟩ else .char (Char.ofNat n)

/-- Code points are in the order of their numbers. -/
instance : LT CodePoint := ⟨fun a b => a.toNat < b.toNat⟩

instance : LE CodePoint := ⟨fun a b => a.toNat ≤ b.toNat⟩

instance (a b : CodePoint) : Decidable (a < b) := inferInstanceAs (Decidable (a.toNat < b.toNat))

instance (a b : CodePoint) : Decidable (a ≤ b) := inferInstanceAs (Decidable (a.toNat ≤ b.toNat))

/-- No character has the number of a surrogate. -/
theorem toNat_char_ne (c : Char) (offset : Fin 0x800) : c.toNat ≠ 0xD800 + offset := by
  have hc : c.toNat < 0xD800 ∨ 0xDFFF < c.toNat ∧ c.toNat < 0x110000 := c.valid
  omega

/-- Different code points have different numbers. -/
theorem toNat_inj {a b : CodePoint} : a.toNat = b.toNat ↔ a = b := by
  refine ⟨fun h => ?_, congrArg toNat⟩
  cases a with
  | char c =>
    cases b with
    | char d => exact congrArg char (Char.toNat_inj.1 h)
    | surrogate offset => exact absurd h (toNat_char_ne c offset)
  | surrogate offset =>
    cases b with
    | char d => exact absurd h.symm (toNat_char_ne d offset)
    | surrogate offset' => exact congrArg surrogate (Fin.ext (by simpa [toNat] using h))

/-- A code point is the one with its number. -/
theorem ofNat_toNat (c : CodePoint) : ofNat c.toNat = c := by
  cases c with
  | char c =>
    have hc : c.toNat < 0xD800 ∨ 0xDFFF < c.toNat ∧ c.toNat < 0x110000 := c.valid
    rw [ofNat, toNat, dif_neg (by omega), Char.ofNat_toNat]
  | surrogate offset =>
    have hoffset := offset.isLt
    rw [ofNat, toNat, dif_pos (by omega)]
    exact congrArg surrogate (Fin.ext (by simp))

/-! ### Surrogates -/

/-- A number that begins a pair of surrogates. -/
def isHigh (n : Nat) : Bool := 0xD800 ≤ n && n ≤ 0xDBFF

/-- A number that ends a pair of surrogates. -/
def isLow (n : Nat) : Bool := 0xDC00 ≤ n && n ≤ 0xDFFF

/-- The character that a pair of surrogates gives. -/
def ofPair (high low : Nat) : CodePoint :=
  .char (Char.ofNat (0x10000 + (high - 0xD800) * 0x400 + (low - 0xDC00)))

/-- The code point is a character. -/
def isChar : CodePoint → Bool
  | .char _ => true
  | .surrogate _ => false

/-! ### ASCII -/

/-- A decimal digit of ASCII. -/
def isDigit : CodePoint → Bool
  | .char c => c.isDigit
  | .surrogate _ => false

/-- A letter or a decimal digit of ASCII. -/
def isAlphanum : CodePoint → Bool
  | .char c => c.isAlphanum
  | .surrogate _ => false

/-- The capital of a letter of ASCII; anything else is its own. -/
def toUpper : CodePoint → CodePoint
  | .char c => .char c.toUpper
  | c => c

/-- The small form of a letter of ASCII; anything else is its own. -/
def toLower : CodePoint → CodePoint
  | .char c => .char c.toLower
  | c => c

end CodePoint
end Embargo
