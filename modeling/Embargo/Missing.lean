import Embargo.Value

/-!
# Missing classes

The names of classes that were skipped silently are collected, in order and once each, for one
summary at the end. The summary lists names until the line is as long as the setting allows, and
says how many it leaves out.

* `Missing.add` – one more name.
* `Missing.summary` – the line.
-/

namespace Embargo.Missing

/-- The names with one more. -/
def add (names : List Text) (name : Text) : List Text := Text.insertOnce name names

/-- The words about names that are left out. -/
def leftOut : Nat → Text
  | 0 => []
  | n + 1 => ",... (and ".toText ++ Numeral.ofNat (n + 1) ++ " more).".toText

/-- The line continued with names, up to the one that makes it long enough. -/
def extend (longEnough : Nat → Bool) (separator line : Text) : List Text → Text
  | [] => line
  | name :: names =>
    let line := line ++ separator ++ name
    if longEnough line.length then line ++ leftOut names.length
    else extend longEnough ", ".toText line names

/-- The names in one line, behind two spaces, cut off behind the name that brings it to `width`
characters. -/
def summary (width : Number) (names : List Text) : Text :=
  extend width.leNat "  ".toText [] names

end Embargo.Missing
