import Embargo.Value.Scan

/-!
# Reading TOML

`Toml.parse` reads a document of TOML 1.0 into a table. A document is a row of statements, one a
line: a key with a value, the header of a table, or the header of an element of an array of tables.

Which tables a statement may extend is the delicate part. A `Draft` keeps, beside the table built so
far, the places of tables that a header or a dotted key has **claimed**, and the places of inline
tables and arrays, which are **sealed** with all that is in them.

Every value takes at least one character, so the length of the text bounds the number of steps. How
deeply values are nested is bounded by `Toml.nestingRoom`, of which each array takes two parts and
each inline table takes three. Keys with dots nest tables without bound.
-/

namespace Embargo.Toml

open Scan

/-- The room for nested values in a document. -/
def nestingRoom : Nat := 986

/-! ### Characters -/

/-- White space within a line. -/
def isSpace (c : CodePoint) : Bool := c = ' ' || c = '\t'

/-- White space within an array. -/
def isSpaceOrLineFeed (c : CodePoint) : Bool := isSpace c || c = '\n'

/-- Control characters cannot stand in comments and strings, except for a tab. -/
def isForbidden (c : CodePoint) : Bool := (c < ' ' && c ≠ '\t') || c = '\x7f'

/-- A character of a key without quotes. -/
def isBareKeyChar (c : CodePoint) : Bool := c.isAlphanum || c = '-' || c = '_'

/-- The text without white space of a line at its beginning. -/
def skip (s : Text) : Text := s.dropWhile isSpace

/-- The text behind a comment, if one comes next. -/
def skipComment (s : Text) : Scanning Text :=
  match s with
  | '#' :: r =>
    let (comment, rest) := span (· ≠ '\n') r
    if comment.any isForbidden then malformed else .ok rest
  | _ => .ok s

/-! ### Strings -/

/-- The character that a backslash and another character stand for. -/
def escape? : CodePoint → Option CodePoint
  | 'b' => some '\x08'
  | 't' => some '\t'
  | 'n' => some '\n'
  | 'f' => some '\x0c'
  | 'r' => some '\r'
  | '"' => some '"'
  | '\\' => some '\\'
  | _ => none

/-- The character with a number, unless it is a surrogate or out of range. -/
def scalarValue (n : Nat) : Scanning CodePoint :=
  if n < 0xD800 ∨ (0xDFFF < n ∧ n < 0x110000) then .ok (Char.ofNat n) else malformed

/-- The character that an escape stands for, behind its backslash, and the rest. -/
def escape (s : Text) : Scanning (CodePoint × Text) :=
  match s with
  | 'u' :: r => do
    let (n, rest) ← hexNumber 4 r
    return (← scalarValue n, rest)
  | 'U' :: r => do
    let (n, rest) ← hexNumber 8 r
    return (← scalarValue n, rest)
  | c :: r =>
    match escape? c with
    | some d => .ok (d, r)
    | none => malformed
  | [] => malformed

/-- A string with escapes, behind its opening quote. -/
def basicBody : Nat → Text → Scanning (Text × Text)
  | 0, _ => malformed
  | _ + 1, [] => malformed
  | _ + 1, '"' :: r => .ok ([], r)
  | fuel + 1, '\\' :: r => do
    let (c, rest) ← escape r
    let (t, rest) ← basicBody fuel rest
    return (c :: t, rest)
  | fuel + 1, c :: r => do
    if isForbidden c then malformed
    else
      let (t, rest) ← basicBody fuel r
      return (c :: t, rest)

/-- A string without escapes, behind its opening quote. -/
def literalBody (s : Text) : Scanning (Text × Text) :=
  match Text.cut '\'' s with
  | some (t, rest) => if t.any isForbidden then malformed else .ok (t, rest)
  | none => malformed

/-- The text behind a line end that a backslash hides, with the white space after it. White space
may stand between the two. -/
def skipHiddenLineEnd (s : Text) : Scanning Text :=
  match skip s with
  | '\n' :: r => .ok (r.dropWhile isSpaceOrLineFeed)
  | _ => malformed

/-- A string of several lines with escapes, behind its opening quotes. -/
def multilineBasicBody : Nat → Text → Scanning (Text × Text)
  | 0, _ => malformed
  | _ + 1, [] => malformed
  | _ + 1, '"' :: '"' :: '"' :: r => .ok ([], r)
  | fuel + 1, '\\' :: c :: r => do
    if c = ' ' ∨ c = '\t' ∨ c = '\n' then
      let rest ← skipHiddenLineEnd (c :: r)
      multilineBasicBody fuel rest
    else
      let (d, rest) ← escape (c :: r)
      let (t, rest) ← multilineBasicBody fuel rest
      return (d :: t, rest)
  | fuel + 1, c :: r => do
    if c = '\\' ∨ (isForbidden c ∧ c ≠ '\n') then malformed
    else
      let (t, rest) ← multilineBasicBody fuel r
      return (c :: t, rest)

/-- A string of several lines without escapes, behind its opening quotes. -/
def multilineLiteralBody : Text → Scanning (Text × Text)
  | [] => malformed
  | '\'' :: '\'' :: '\'' :: r => .ok ([], r)
  | c :: r => do
    if isForbidden c ∧ c ≠ '\n' then malformed
    else
      let (t, rest) ← multilineLiteralBody r
      return (c :: t, rest)

/-- One or two quotes more behind the closing ones belong to the string. -/
def addQuotes (quote : CodePoint) (t s : Text) : Text × Text :=
  match s with
  | c :: d :: r =>
    if c = quote then
      if d = quote then (t ++ [quote, quote], r) else (t ++ [quote], d :: r)
    else (t, s)
  | [c] => if c = quote then (t ++ [quote], []) else (t, s)
  | [] => (t, s)

/-- The text without a line end at its beginning. -/
def dropLineFeed : Text → Text
  | '\n' :: r => r
  | s => s

/-- A string of one or several lines, with its quotes. -/
def string (s : Text) : Scanning (Text × Text) :=
  match s with
  | '"' :: '"' :: '"' :: r => do
    let (t, rest) ← multilineBasicBody (r.length + 1) (dropLineFeed r)
    return addQuotes '"' t rest
  | '"' :: r => basicBody (r.length + 1) r
  | '\'' :: '\'' :: '\'' :: r => do
    let (t, rest) ← multilineLiteralBody (dropLineFeed r)
    return addQuotes '\'' t rest
  | '\'' :: r => literalBody r
  | _ => malformed

/-! ### Keys -/

/-- One part of a key. -/
def keyPart (s : Text) : Scanning (Text × Text) :=
  match s with
  | '"' :: r => basicBody (r.length + 1) r
  | '\'' :: r => literalBody r
  | _ =>
    let (part, rest) := span isBareKeyChar s
    if part = [] then malformed else .ok (part, rest)

/-- Parts of a key with dots between them. White space may stand around the dots. -/
def keyParts : Nat → Text → Scanning (List Text × Text)
  | 0, _ => malformed
  | fuel + 1, s => do
    let (part, rest) ← keyPart s
    match skip rest with
    | '.' :: r =>
      let (parts, rest) ← keyParts fuel (skip r)
      return (part :: parts, rest)
    | rest => return ([part], rest)

/-- A key and the text behind it and the white space after it. -/
def key (s : Text) : Scanning (List Text × Text) := keyParts (s.length + 1) s

/-! ### Dates and times -/

/-- A number of exactly `width` decimal digits. -/
def fixedNumber? (width : Nat) (s : Text) : Option (Nat × Text) :=
  let digits := s.take width
  if digits.length = width ∧ digits.all CodePoint.isDigit then
    some (numberOf 10 digits, s.drop width)
  else none

/-- The rest behind a character that must come next. -/
def after? (c : CodePoint) : Text → Option Text
  | d :: r => if d = c then some r else none
  | [] => none

/-- The digits of a fraction of a second, as microseconds, and the rest. Digits beyond the sixth
say nothing. -/
def microseconds (s : Text) : Nat × Text :=
  match s with
  | '.' :: r =>
    let (digits, rest) := span CodePoint.isDigit r
    if digits = [] then (0, s)
    else (numberOf 10 (digits.take 6 ++ List.replicate (6 - digits.length) (.char '0')), rest)
  | _ => (0, s)

/-- A time of day. -/
def time? (s : Text) : Option (TimeOfDay × Text) := do
  let (hour, s) ← fixedNumber? 2 s
  let s ← after? ':' s
  let (minute, s) ← fixedNumber? 2 s
  let s ← after? ':' s
  let (second, s) ← fixedNumber? 2 s
  let (microsecond, s) := microseconds s
  if hour < 24 ∧ minute < 60 ∧ second < 60 then some (⟨hour, minute, second, microsecond⟩, s)
  else none

/-- A date by its form: the month has a number from 1 to 12, and the day one from 1 to 31. -/
def date? (s : Text) : Option (Date × Text) := do
  let (year, s) ← fixedNumber? 4 s
  let s ← after? '-' s
  let (month, s) ← fixedNumber? 2 s
  let s ← after? '-' s
  let (day, s) ← fixedNumber? 2 s
  if 1 ≤ month ∧ month ≤ 12 ∧ 1 ≤ day ∧ day ≤ 31 then some (⟨year, month, day⟩, s) else none

/-- A year with a 29th of February. -/
def isLeap (year : Nat) : Bool := year % 4 = 0 && (year % 100 ≠ 0 || year % 400 = 0)

/-- The number of days of a month. -/
def daysOf (year month : Nat) : Nat :=
  if month = 2 then (if isLeap year then 29 else 28)
  else if month ∈ [4, 6, 9, 11] then 30 else 31

/-- The calendar has the date. -/
def exists? (d : Date) : Bool := 1 ≤ d.year && d.day ≤ daysOf d.year d.month

/-- The minutes that a clock is ahead. -/
def offset? (s : Text) : Option (Int × Text) :=
  match s with
  | 'Z' :: r | 'z' :: r => some (0, r)
  | c :: r =>
    if c = '+' ∨ c = '-' then do
      let (hour, r) ← fixedNumber? 2 r
      let r ← after? ':' r
      let (minute, r) ← fixedNumber? 2 r
      if hour < 24 ∧ minute < 60 then
        let minutes : Int := hour * 60 + minute
        some (if c = '-' then -minutes else minutes, r)
      else none
    else none
  | [] => none

/-- The time of day and the offset behind a date, if there are any. -/
def timeAfterDate? (s : Text) : Option ((TimeOfDay × Option Int) × Text) :=
  match s with
  | c :: r =>
    if c = 'T' ∨ c = 't' ∨ c = ' ' then do
      let (t, r) ← time? r
      match offset? r with
      | some (minutes, r) => some ((t, some minutes), r)
      | none => some ((t, none), r)
    else none
  | [] => none

/-- A date, a time or both. A date that the calendar does not have is an error. -/
def moment? (s : Text) : Option (Scanning (Value × Text)) :=
  match date? s with
  | some (d, rest) =>
    some <| if !exists? d then malformed
    else match timeAfterDate? rest with
      | some ((t, offset), rest) => .ok (.moment (.dateTime d t offset), rest)
      | none => .ok (.moment (.date d), rest)
  | none => (time? s).map fun (t, rest) => .ok (.moment (.time t), rest)

/-! ### Numbers -/

/-- Digits with single underscores between them, without the underscores, and the rest; no digits
if there are none. -/
def digitRow (isDigit : CodePoint → Bool) : Text → Text × Text
  | [] => ([], [])
  | c :: r =>
    if !isDigit c then ([], c :: r)
    else match r with
      | '_' :: d :: r' =>
        if isDigit d then
          let (digits, rest) := digitRow isDigit (d :: r')
          (c :: digits, rest)
        else ([c], r)
      | r =>
        let (digits, rest) := digitRow isDigit r
        (c :: digits, rest)

/-- An integer in another base than ten. -/
def basedInteger? (s : Text) : Option (Value × Text) :=
  match s with
  | '0' :: mark :: r => do
    let (base, isDigit) ← (match mark with
      | 'x' => some (16, fun c => (hexValue? c).isSome)
      | 'o' => some (8, fun c : CodePoint => '0' ≤ c && c ≤ '7')
      | 'b' => some (2, fun c : CodePoint => c = '0' || c = '1')
      | _ => none)
    let (digits, rest) := digitRow isDigit r
    if digits = [] then none else some (.int (numberOf base digits : Nat), rest)
  | _ => none

/-- The digits behind a point, if there are any, and the rest. -/
def fraction (s : Text) : Text × Text :=
  match s with
  | '.' :: r =>
    let (digits, rest) := digitRow CodePoint.isDigit r
    if digits = [] then ([], s) else (digits, rest)
  | _ => ([], s)

/-- The sign and the digits of an exponent, if there are any, and the rest. -/
def exponent (s : Text) : Bool × Text × Text :=
  match s with
  | c :: r =>
    if c = 'e' ∨ c = 'E' then
      let (negative, r) := exponentSign r
      let (digits, rest) := digitRow CodePoint.isDigit r
      if digits = [] then (false, [], s) else (negative, digits, rest)
    else (false, [], s)
  | [] => (false, [], s)

/-- The digits before the point: one zero, or digits that do not begin with zero. -/
def whole : Text → Text × Text
  | '0' :: r => (['0'], r)
  | s => digitRow CodePoint.isDigit s

/-- A number in base ten. -/
def decimal? (s : Text) : Option (Scanning (Value × Text)) :=
  let (negative, unsigned) := exponentSign s
  let (digits, rest) := whole unsigned
  if digits = [] then none
  else
    let (fractionDigits, rest) := fraction rest
    let (exponentNegative, exponentDigits, rest) := exponent rest
    if fractionDigits = [] ∧ exponentDigits = [] then
      some ((decimalInteger negative digits).map fun v => (v, rest))
    else
      some (.ok (decimalFloat negative digits fractionDigits exponentNegative exponentDigits, rest))

/-- The words that are values. -/
def words : List (Text × Value) :=
  [("true".toText, .bool true), ("false".toText, .bool false),
   ("inf".toText, .float (.infinite false)), ("+inf".toText, .float (.infinite false)),
   ("-inf".toText, .float (.infinite true)), ("nan".toText, .float .nan),
   ("+nan".toText, .float .nan), ("-nan".toText, .float .nan)]

/-- A word, a date, a time or a number. -/
def scalar (s : Text) : Scanning (Value × Text) :=
  match words.find? fun w => w.1.isPrefixOf s with
  | some (word, v) => .ok (v, s.drop word.length)
  | none =>
    match moment? s with
    | some result => result
    | none =>
      match basedInteger? s with
      | some result => .ok result
      | none => (decimal? s).getD malformed

/-! ### Tables -/

/-- Values by name, in order. -/
abbrev Entries := List (Text × Value)

/-- The entries with the table at a place changed. Tables on the way are made where there are none;
the last element of an array of tables stands for the array if `throughArrays` holds. -/
def alter (throughArrays : Bool) (change : Entries → Option Entries) :
    List Text → Entries → Option Entries
  | [], es => change es
  | name :: names, es =>
    match es.lookup name with
    | none => (alter throughArrays change names []).map fun sub => Table.put name (.table sub) es
    | some (.table sub) =>
      (alter throughArrays change names sub).map fun sub => Table.put name (.table sub) es
    | some (.list vs) =>
      match throughArrays, vs.getLast? with
      | true, some (.table sub) =>
        (alter throughArrays change names sub).map fun sub =>
          Table.put name (.list (vs.dropLast ++ [.table sub])) es
      | _, _ => none
    | some _ => none

/-- The entries with a value for a name that has none. -/
def addNew (name : Text) (v : Value) (es : Entries) : Option Entries :=
  if (es.lookup name).isSome then none else some (es ++ [(name, v)])

/-- A key without its last part, and that part. -/
def splitKey (k : List Text) : List Text × Text := (k.dropLast, k.getLast?.getD [])

/-- A value that nothing can be added to from outside. -/
def isInline : Value → Bool
  | .table _ => true
  | .list _ => true
  | _ => false

/-- A place lies in one of several sealed places. -/
def isSealed (places : List (List Text)) (place : List Text) : Bool :=
  places.any fun p => p.isPrefixOf place

/-- What a step gives, or a break of the grammar. -/
def orMalformed {α : Type} (result : Option α) : Scanning α :=
  match result with
  | some a => .ok a
  | none => malformed

/-! ### Values -/

/-- The text behind white space, line ends and comments. -/
def skipLines : Nat → Text → Scanning Text
  | 0, s => .ok s
  | fuel + 1, s =>
    match s.dropWhile isSpaceOrLineFeed with
    | '#' :: r => do
      let rest ← skipComment ('#' :: r)
      skipLines fuel rest
    | rest => .ok rest

mutual

/-- The value that a text begins with. Of the room for nested values an array takes two parts, and
an inline table three. -/
def value (room : Nat) : Nat → Text → Scanning (Value × Text)
  | 0, _ => malformed
  | fuel + 1, '[' :: r => do
    let room ← enter 2 room
    let (vs, rest) ← elements room fuel r
    return (.list vs, rest)
  | fuel + 1, '\x7b' :: r =>
    match skip r with
    | '\x7d' :: rest => .ok (.table [], rest)
    | s => do
      let room ← enter 3 room
      let (es, rest) ← inlineEntries room fuel [] [] s
      return (.table es, rest)
  | _ + 1, s =>
    match s with
    | '"' :: _ | '\'' :: _ => (string s).map fun (t, rest) => (.text t, rest)
    | _ => scalar s

/-- The elements of an array up to its bracket; a comma may follow the last one. -/
def elements (room : Nat) : Nat → Text → Scanning (List Value × Text)
  | 0, _ => malformed
  | fuel + 1, s => do
    let s ← skipLines s.length s
    match s with
    | ']' :: rest => return ([], rest)
    | _ =>
      let (v, rest) ← value room fuel s
      let rest ← skipLines rest.length rest
      match rest with
      | ']' :: rest => return ([v], rest)
      | ',' :: rest =>
        let (vs, rest) ← elements room fuel rest
        return (v :: vs, rest)
      | _ => malformed

/-- The entries of an inline table up to its brace, added to those before them. -/
def inlineEntries (room : Nat) :
    Nat → List (List Text) → Entries → Text → Scanning (Entries × Text)
  | 0, _, _, _ => malformed
  | fuel + 1, sealedPlaces, es, s => do
    let (k, rest) ← key s
    let rest ← expect ['='] rest
    let (v, rest) ← value room fuel (skip rest)
    if isSealed sealedPlaces k then malformed
    else
      let (parents, name) := splitKey k
      let es ← orMalformed (alter false (addNew name v) parents es)
      match skip rest with
      | '\x7d' :: rest => return (es, rest)
      | ',' :: rest =>
        let sealedPlaces := if isInline v then k :: sealedPlaces else sealedPlaces
        inlineEntries room fuel sealedPlaces es (skip rest)
      | _ => malformed

end

/-! ### Documents -/

/-- A document as far as it is read. -/
structure Draft where
  /-- The table so far. -/
  entries : Entries
  /-- The places of tables that a header or a dotted key has made. -/
  claimed : List (List Text)
  /-- The places of tables that dotted keys have made since the last header; they can still be
  extended by dotted keys. -/
  recent : List (List Text)
  /-- The places of inline tables and arrays. -/
  sealedPlaces : List (List Text)
  /-- The place that the last header gave. -/
  header : List Text

namespace Draft

/-- The document before the first statement. -/
def empty : Draft := ⟨[], [], [], [], []⟩

/-- The draft once a header comes. -/
def closeSection (d : Draft) : Draft := { d with claimed := d.recent ++ d.claimed, recent := [] }

/-- The draft with the header of a table. -/
def openTable (d : Draft) (k : List Text) : Option Draft :=
  if d.claimed.contains k || isSealed d.sealedPlaces k then none
  else (alter true some k d.entries).map fun es =>
    { d with entries := es, claimed := k :: d.claimed, header := k }

/-- One more table at the end of the array of tables with a name. -/
def addElement (name : Text) (es : Entries) : Option Entries :=
  match es.lookup name with
  | none => some (Table.put name (.list [.table []]) es)
  | some (.list vs) => some (Table.put name (.list (vs ++ [.table []])) es)
  | some _ => none

/-- The draft with the header of an element of an array of tables. What was said about the places
in the element before it does not hold for the new one. -/
def openElement (d : Draft) (k : List Text) : Option Draft :=
  if isSealed d.sealedPlaces k then none
  else
    let (parents, name) := splitKey k
    (alter true (addElement name) parents d.entries).map fun es =>
      { d with
        entries := es
        claimed := k :: d.claimed.filter fun p => !k.isPrefixOf p
        sealedPlaces := d.sealedPlaces.filter fun p => !k.isPrefixOf p
        header := k }

/-- The places of the tables that a dotted key leads through. -/
def throughPlaces (header k : List Text) : List (List Text) :=
  (List.range (k.length - 1)).map fun n => header ++ k.take (n + 1)

/-- The draft with a value for a key. -/
def assign (d : Draft) (k : List Text) (v : Value) : Option Draft :=
  let (parents, name) := splitKey k
  let through := throughPlaces d.header k
  if through.any d.claimed.contains || isSealed d.sealedPlaces (d.header ++ parents) then none
  else (alter true (addNew name v) (d.header ++ parents) d.entries).map fun es =>
    { d with
      entries := es
      recent := through ++ d.recent
      sealedPlaces := if isInline v then (d.header ++ k) :: d.sealedPlaces else d.sealedPlaces }

end Draft

/-- The draft with the statement that a text begins with, if it begins with one, and the rest. -/
def statement (d : Draft) (s : Text) : Scanning (Draft × Text) :=
  match s with
  | '[' :: '[' :: r => do
    let (k, rest) ← key (skip r)
    let d ← orMalformed (d.closeSection.openElement k)
    let rest ← expect "]]".toText rest
    return (d, rest)
  | '[' :: r => do
    let (k, rest) ← key (skip r)
    let d ← orMalformed (d.closeSection.openTable k)
    let rest ← expect "]".toText rest
    return (d, rest)
  | '#' :: _ => .ok (d, s)
  | _ => do
    let (k, rest) ← key s
    let rest ← expect ['='] rest
    let (v, rest) ← value nestingRoom (2 * rest.length + 1) (skip rest)
    let d ← orMalformed (d.assign k v)
    return (d, rest)

/-- The document from its statements. -/
def statements : Nat → Draft → Text → Scanning Entries
  | 0, _, _ => malformed
  | fuel + 1, d, s =>
    match skip s with
    | [] => .ok d.entries
    | '\n' :: r => statements fuel d r
    | s => do
      let (d, rest) ← statement d s
      let rest ← skipComment (skip rest)
      match rest with
      | [] => return d.entries
      | '\n' :: r => statements fuel d r
      | _ => malformed

/-- The text with pairs of a carriage return and a line feed as line feeds. -/
def unifyLineEnds : Text → Text
  | [] => []
  | '\r' :: '\n' :: r => '\n' :: unifyLineEnds r
  | c :: r => c :: unifyLineEnds r

/-- The table of a document. -/
def parse (t : Text) : Scanning Entries :=
  let s := unifyLineEnds t
  statements (s.length + 1) .empty s

end Embargo.Toml
