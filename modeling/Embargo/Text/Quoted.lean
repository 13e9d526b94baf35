import Embargo.Text
import Embargo.Text.Printable

/-!
# Quoted text

Messages show a name or a value between quotes, so that white space and control characters can be
seen. `Text.quoted` puts single quotes around the text, or double quotes if that saves escaping;
a backslash stands before the quote in use and before a backslash, `\n`, `\r` and `\t` have names,
and every other code point that is not printable is written as its number in hexadecimal.
-/

namespace Embargo.Text

/-- The lowest `width` hexadecimal digits of a number. -/
def hexadecimal (width n : Nat) : Text :=
  (List.range width).reverse.map fun place => .char (Nat.digitChar (n / Nat.pow 16 place % 16))

/-- A code point as it stands between two quotes. -/
def escaped (quote c : CodePoint) : Text :=
  if c = quote ∨ c = '\\' then ['\\', c]
  else if c = '\n' then ['\\', 'n']
  else if c = '\r' then ['\\', 'r']
  else if c = '\t' then ['\\', 't']
  else if isPrintable c then [c]
  else if c.toNat < 0x100 then '\\' :: 'x' :: hexadecimal 2 c.toNat
  else if c.toNat < 0x10000 then '\\' :: 'u' :: hexadecimal 4 c.toNat
  else '\\' :: 'U' :: hexadecimal 8 c.toNat

/-- The quote that a text is written in: the double one only for a text that has single quotes
and no double ones. -/
def quoteFor (t : Text) : CodePoint :=
  if CodePoint.char '\'' ∈ t ∧ CodePoint.char '"' ∉ t then '"' else '\''

/-- The text between quotes, with everything that is not printable escaped. -/
def quoted (t : Text) : Text :=
  quoteFor t :: t.flatMap (escaped (quoteFor t)) ++ [quoteFor t]

end Embargo.Text
