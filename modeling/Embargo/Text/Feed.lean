import Embargo.Text.Utf8

/-!
# Feeds of lines

A **feed** is what a source of text yields to a reader of lines: the lines, in order, and whether
reading breaks off after the last of them.

* `Feed.ofText` – a text ends its lines at line feeds only.
* `Feed.ofBytes` – bytes are decoded as UTF-8, and end their lines at line feeds, carriage returns
  and pairs of the two. If the bytes are cut off, the unfinished last line is lost.
* `Feed.decodable` – bytes are read in blocks, and a block is decoded as a whole. So if bytes are
  ill formed, the lines that the blocks in front finish are yielded all the same, and no others: of
  less than a block, none.
-/

namespace Embargo

/-- The lines of a source, and whether reading breaks off after them. -/
structure Feed where
  /-- The lines that can be read. -/
  lines : List Text
  /-- The source cannot be read to its end. -/
  broken : Bool
  deriving DecidableEq

namespace Feed

/-- The text with each of the three line ends written as a line feed. -/
def unifyLineEnds : Text → Text
  | [] => []
  | '\r' :: '\n' :: r => '\n' :: unifyLineEnds r
  | '\r' :: r => '\n' :: unifyLineEnds r
  | c :: r => c :: unifyLineEnds r

/-- The feed of a text. -/
def ofText (t : Text) : Feed := ⟨Text.split '\n' t, false⟩

/-- The text without a carriage return at its end: while more input may come, it is not yet known
whether it ends a line alone. -/
def dropPendingReturn (t : Text) : Text :=
  if t.getLast? = some '\r' then t.dropLast else t

/-- What is yielded of a text behind which reading breaks off: the lines that it finishes. -/
def brokenBehind (t : Text) : Feed :=
  ⟨(Text.split '\n' (unifyLineEnds (dropPendingReturn t))).dropLast, true⟩

/-- The bytes that are read and decoded at a time. -/
def blockSize : Nat := 8192

/-- The text of the first `n` blocks, or of as many of them as can be decoded. -/
def decodable (bytes : Bytes) : Nat → Text
  | 0 => []
  | n + 1 =>
    match Utf8.decode (bytes.take ((n + 1) * blockSize)) with
    | .complete t | .cutOff t => t
    | .illFormed => decodable bytes n

/-- The feed of a byte sequence. -/
def ofBytes (bytes : Bytes) : Feed :=
  match Utf8.decode bytes with
  | .complete t => ⟨Text.split '\n' (unifyLineEnds t), false⟩
  | .cutOff t => brokenBehind t
  | .illFormed => brokenBehind (decodable bytes (bytes.length / blockSize))

end Feed
end Embargo
