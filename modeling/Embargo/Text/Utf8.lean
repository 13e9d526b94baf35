import Embargo.Text

/-!
# UTF-8

Bytes as text. A sequence of bytes is **complete** when it is the encoding of a text, **cut off**
when it is the encoding of a text followed by a beginning of one more character or surrogate, and
**ill formed** otherwise. The difference matters to a reader of lines: a cut-off input still has its
finished lines, and of an ill-formed one no line of the block with the error is read.

* `Utf8.encode` – the bytes of a text, well formed if the text is `Utf8.isEncodable`.
* `Utf8.decode` – which of the three a byte sequence is, with its text.
-/

namespace Embargo

/-- A sequence of bytes. -/
abbrev Bytes := List UInt8

namespace Utf8

/-- The bytes of a code point. A surrogate has those that its number would have in the scheme for
characters; they are ill formed. -/
def encodeOne : CodePoint → Bytes
  | .char c => String.utf8EncodeChar c
  | c@(.surrogate _) =>
    [0xED, UInt8.ofNat (0x80 + c.toNat / 0x40 % 0x40), UInt8.ofNat (0x80 + c.toNat % 0x40)]

/-- The bytes of a text. -/
def encode (t : Text) : Bytes := t.flatMap encodeOne

/-- Only a text of characters has an encoding that can be read again. -/
def isEncodable (t : Text) : Bool := t.all CodePoint.isChar

/-- What a byte sequence says. -/
inductive Decoding where
  /-- The encoding of a text. -/
  | complete (text : Text)
  /-- The encoding of a text, and then a beginning of a character or of a surrogate. -/
  | cutOff (text : Text)
  /-- No text begins like this. -/
  | illFormed
  deriving DecidableEq

/-- One more character in front. -/
def Decoding.cons (c : CodePoint) : Decoding → Decoding
  | .complete t => .complete (c :: t)
  | .cutOff t => .cutOff (c :: t)
  | .illFormed => .illFormed

/-- A byte that continues a character. -/
def isContinuation (b : UInt8) : Bool := 0x80 ≤ b && b ≤ 0xBF

/-- The second bytes that may follow the first byte of three: they exclude overlong forms and
surrogates. -/
def isSecondOfThree (b c : UInt8) : Bool :=
  if b = 0xE0 then 0xA0 ≤ c && c ≤ 0xBF
  else if b = 0xED then 0x80 ≤ c && c ≤ 0x9F
  else isContinuation c

/-- The first two bytes of three that would give a surrogate. No text has them, but at the end of
the input they count as cut off. -/
def isSurrogateStart (b c : UInt8) : Bool := b = 0xED && (0xA0 ≤ c && c ≤ 0xBF)

/-- The second bytes that may follow the first byte of four: they exclude overlong forms and
numbers beyond the last code point. -/
def isSecondOfFour (b c : UInt8) : Bool :=
  if b = 0xF0 then 0x90 ≤ c && c ≤ 0xBF
  else if b = 0xF4 then 0x80 ≤ c && c ≤ 0x8F
  else isContinuation c

/-- The bits that a continuation byte carries. -/
def payload (b : UInt8) : Nat := b.toNat % 0x40

/-- The text of a byte sequence. -/
def decode : Bytes → Decoding
  | [] => .complete []
  | a :: r =>
    if a < 0x80 then (decode r).cons (Char.ofNat a.toNat)
    else if 0xC2 ≤ a && a ≤ 0xDF then
      match r with
      | [] => .cutOff []
      | b :: r =>
        if isContinuation b then (decode r).cons (Char.ofNat (a.toNat % 0x20 * 0x40 + payload b))
        else .illFormed
    else if 0xE0 ≤ a && a ≤ 0xEF then
      match r with
      | [] => .cutOff []
      | [b] => if isSecondOfThree a b || isSurrogateStart a b then .cutOff [] else .illFormed
      | b :: c :: r =>
        if isSecondOfThree a b && isContinuation c then
          (decode r).cons (Char.ofNat (a.toNat % 0x10 * 0x1000 + payload b * 0x40 + payload c))
        else .illFormed
    else if 0xF0 ≤ a && a ≤ 0xF4 then
      match r with
      | [] => .cutOff []
      | [b] => if isSecondOfFour a b then .cutOff [] else .illFormed
      | [b, c] => if isSecondOfFour a b && isContinuation c then .cutOff [] else .illFormed
      | b :: c :: d :: r =>
        if isSecondOfFour a b && isContinuation c && isContinuation d then
          (decode r).cons (Char.ofNat
            (a.toNat % 0x08 * 0x40000 + payload b * 0x1000 + payload c * 0x40 + payload d))
        else .illFormed
    else .illFormed

/-- The text that bytes encode, if they encode one. -/
def text? (bytes : Bytes) : Option Text :=
  match decode bytes with
  | .complete t => some t
  | _ => none

end Utf8
end Embargo
