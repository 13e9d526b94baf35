import Embargo.Text.Utf8

/-!
# Paths and files

A reader of files is given a **tree of files**: what stands below the root of the system, as plain
files and directories. There are no links and no devices, and a file that may be read can be read to
its end.

The system knows a name by its bytes, while a path is a text. Not every text has bytes that can
stand in a path, and a path that has them may be refused: because it is longer than the system
allows, or because a directory on the way may not be entered. So there is more than one way for a
path not to lead to a file, and they are told apart.

| a path | `FileTree.Lookup` |
|---|---|
| leads to a file or a directory | `found` |
| leads to nothing | `absent` |
| is too long, or has a name that is, or leads through a directory that is closed | `refused` |
| has the character zero | `illFormed` |
| has a surrogate that stands for no byte | `unencodable` |

* `Path` – the parts of a path, as it is written without empty parts and single dots.
* `Path.text` – its normal spelling: `./a//b/` is `a/b`, and the empty path is `.`.
* `Path.encode?` – the bytes of a text in a path.
* `FileTree.walk` – what names lead to from a place. Two dots lead to the directory above, and
  above the root is the root.
* `FileTree.find` – what a path leads to. An absolute path begins at the root, and a relative one at
  the current directory, which a `Disk` has with its tree.
-/

namespace Embargo

/-! ### Paths -/

/-- A path, by its parts. -/
structure Path where
  /-- The slashes at its beginning: none for a relative path. -/
  anchor : Text
  /-- The parts between slashes. -/
  parts : List Text
  deriving DecidableEq

namespace Path

/-- The slashes that a path keeps at its beginning: one, or two if it has exactly two. -/
def anchorOf : Text → Text
  | '/' :: '/' :: '/' :: _ => ['/']
  | '/' :: '/' :: _ => ['/', '/']
  | '/' :: _ => ['/']
  | _ => []

/-- The path that a text spells. -/
def ofText (t : Text) : Path :=
  ⟨anchorOf t, (Text.split '/' t).filter fun part => part ≠ [] ∧ part ≠ ".".toText⟩

/-- The parts that are written: a relative path without parts is a dot. -/
def written (p : Path) : List Text :=
  if p.anchor = [] ∧ p.parts = [] then [".".toText] else p.parts

/-- The normal spelling of a path. -/
def text (p : Path) : Text := p.anchor ++ Text.join "/".toText p.written

/-- The path that leads on from a directory; one that begins with a slash starts anew. -/
def append (p q : Path) : Path :=
  if q.anchor = [] then ⟨p.anchor, p.parts ++ q.parts⟩ else q

/-- A text without slashes is one part, unless it is empty or a dot. -/
theorem ofText_of_notMem {t : Text} (hs : CodePoint.char '/' ∉ t) (hne : t ≠ [])
    (hdot : t ≠ ".".toText) : ofText t = ⟨[], [t]⟩ := by
  have ha : anchorOf t = [] := by
    unfold anchorOf
    split <;> simp_all
  simp [ofText, ha, Text.split_of_notMem hs, hne, hdot]

/-! ### Bytes of paths -/

/-- The bytes of a code point in a path: those of UTF-8 for a character. The surrogates from
`U+DC80` to `U+DCFF` stand for the bytes from `80` to `FF`, so that names which are no text can be
told, and other surrogates have none. -/
def encodeOne? : CodePoint → Option Bytes
  | .char c => some (String.utf8EncodeChar c)
  | .surrogate offset =>
    if 0x480 ≤ offset.val ∧ offset.val ≤ 0x4FF then some [UInt8.ofNat (offset - 0x400)] else none

/-- The bytes of a text in a path, if all that it holds has bytes. -/
def encode? : Text → Option Bytes
  | [] => some []
  | c :: r =>
    match encodeOne? c, encode? r with
    | some bytes, some rest => some (bytes ++ rest)
    | _, _ => none

/-- The bytes of a text of ASCII, one for each character. -/
def asciiBytes (t : Text) : Bytes := t.map fun c => UInt8.ofNat c.toNat

/-- The text in which each byte is a character. -/
def asciiText (bytes : Bytes) : Text := bytes.map fun b => CodePoint.ofNat b.toNat

/-- A text of ASCII is read back from its bytes. -/
theorem asciiText_asciiBytes {t : Text} (h : ∀ c ∈ t, c.toNat < 0x80) :
    asciiText (asciiBytes t) = t := by
  rw [asciiText, asciiBytes, List.map_map]
  refine (List.map_congr_left fun c hc => ?_).trans (List.map_id t)
  have hbyte : (UInt8.ofNat c.toNat).toNat = c.toNat :=
    UInt8.toNat_ofNat_of_lt' (Nat.lt_trans (h c hc) (by decide))
  exact (congrArg CodePoint.ofNat hbyte).trans (CodePoint.ofNat_toNat c)

/-- A text of ASCII has these bytes in a path. -/
theorem encode?_of_ascii {t : Text} (h : ∀ c ∈ t, c.toNat < 0x80) :
    encode? t = some (asciiBytes t) := by
  induction t with
  | nil => rfl
  | cons c r ih =>
    obtain ⟨hc, hr⟩ := List.forall_mem_cons.1 h
    have hone : encodeOne? c = some [UInt8.ofNat c.toNat] := by
      cases c with
      | char c =>
        rw [encodeOne?, String.utf8EncodeChar]
        exact congrArg some (if_pos (Nat.le_of_lt_succ hc))
      | surrogate offset =>
        rw [CodePoint.toNat] at hc
        omega
    rw [encode?, hone, ih hr]
    rfl

end Path

/-! ### Trees -/

/-- What stands at a place of a tree. -/
inductive FileTree.Node where
  /-- A file with its content. -/
  | file (content : Bytes)
  /-- A file that may not be read. -/
  | unreadable
  /-- A directory. -/
  | directory
  /-- A directory that may not be entered. -/
  | closed
  deriving DecidableEq

/-- A place, by the names on the way from the root. -/
abbrev Place := List Bytes

/-- The entries that exist, by their places. A directory exists as soon as something in it does. -/
structure FileTree where
  /-- The places and what stands there. -/
  entries : List (Place × FileTree.Node)
  deriving DecidableEq

namespace FileTree

/-- The entry at a place. There always is a root. -/
def at? (tree : FileTree) (place : Place) : Option Node :=
  match tree.entries.lookup place with
  | some node => some node
  | none =>
    if place = [] || tree.entries.any fun e => place.isPrefixOf e.1 then some .directory else none

/-! ### Following paths -/

/-- The most bytes that a name in a directory may have. -/
def maxNameBytes : Nat := 255

/-- The most bytes that a path may have. -/
def maxPathBytes : Nat := 4095

/-- The name of a directory in itself. -/
def sameName : Bytes := Utf8.encode ".".toText

/-- The name that leads to the directory above. -/
def aboveName : Bytes := Utf8.encode "..".toText

/-- What following a path leads to. -/
inductive Lookup where
  /-- There is a file or a directory. -/
  | found (node : Node)
  /-- There is nothing. -/
  | absent
  /-- The system does not look: the path, or a name that had to be looked for, is longer than it
  allows, or a directory on the way may not be entered. -/
  | refused
  /-- The path has the character zero. -/
  | illFormed
  /-- The path has a surrogate that stands for no byte. -/
  | unencodable
  deriving DecidableEq

/-- What names lead to from a place. A name is looked for only where there is a directory to look
in, so a long name below a missing directory is absent like any other. -/
def walk (tree : FileTree) (place : Place) : List Bytes → Lookup
  | [] =>
    match tree.at? place with
    | some node => .found node
    | none => .absent
  | name :: rest =>
    match tree.at? place with
    | some .closed => .refused
    | some .directory =>
      if name = sameName then tree.walk place rest
      else if name = aboveName then tree.walk place.dropLast rest
      else if maxNameBytes < name.length then .refused
      else tree.walk (place ++ [name]) rest
    | some (.file _) | some .unreadable | none => .absent

/-- What a path leads to, given the current directory. -/
def find (tree : FileTree) (current : Place) (path : Path) : Lookup :=
  match path.written.mapM Path.encode? with
  | none => .unencodable
  | some names =>
    if names.any fun name => name.contains 0 then .illFormed
    else if maxPathBytes < path.anchor.length + ([0x2F].intercalate names).length then .refused
    else tree.walk (if path.anchor = [] then current else []) names

/-! ### Files that paths lead to -/

/-- The last names of the places of all entries. -/
def lastNames (tree : FileTree) : List Bytes := tree.entries.filterMap fun e => e.1.getLast?

/-- A file stands at a place only as an entry. -/
theorem mem_entries_of_at? {tree : FileTree} {place : Place} {content : Bytes}
    (h : tree.at? place = some (.file content)) : (place, Node.file content) ∈ tree.entries := by
  unfold at? at h
  split at h
  · next node hl =>
    obtain ⟨before, after, he, -⟩ := List.lookup_eq_some_iff.1 hl
    rw [Option.some.inj h] at he
    simp [he]
  · split at h <;> simp at h

/-- **One name of several**: from a directory it leads to a place, and what they all lead to, the
others lead to from there. -/
theorem walk_cons_eq_found {tree : FileTree} {place : Place} {name : Bytes} {rest : List Bytes}
    {node : Node} (h : tree.walk place (name :: rest) = .found node) :
    tree.at? place = some .directory ∧ ∃ place', tree.walk place' rest = .found node ∧
      (name = sameName ∧ place' = place ∨ name = aboveName ∧ place' = place.dropLast ∨
        name.length ≤ maxNameBytes ∧ place' = place ++ [name]) := by
  rw [walk] at h
  split at h
  · cases h
  · next hat =>
    refine ⟨hat, ?_⟩
    split at h
    · next hsame => exact ⟨place, h, .inl ⟨hsame, rfl⟩⟩
    · split at h
      · next habove => exact ⟨place.dropLast, h, .inr (.inl ⟨habove, rfl⟩)⟩
      · split at h
        · cases h
        · next hlength => exact ⟨place ++ [name], h, .inr (.inr ⟨Nat.not_lt.1 hlength, rfl⟩)⟩
  all_goals cases h

/-- Names that lead to a file end in the last name of an entry's place, unless they end in dots. -/
theorem mem_lastNames_of_walk {tree : FileTree} {place : Place} {names : List Bytes} {last : Bytes}
    {content : Bytes} (hsame : last ≠ sameName) (habove : last ≠ aboveName)
    (h : tree.walk place (names ++ [last]) = .found (.file content)) :
    last ∈ tree.lastNames := by
  induction names generalizing place with
  | nil =>
    obtain ⟨-, place', hnode, ⟨heq, -⟩ | ⟨heq, -⟩ | ⟨-, rfl⟩⟩ := walk_cons_eq_found h
    · exact absurd heq hsame
    · exact absurd heq habove
    rw [walk] at hnode
    split at hnode
    · next node hat =>
      obtain rfl := Lookup.found.inj hnode
      exact List.mem_filterMap.2 ⟨_, mem_entries_of_at? hat, by simp⟩
    · cases hnode
  | cons name names ih =>
    obtain ⟨-, place', hrest, -⟩ := walk_cons_eq_found h
    exact ih hrest

/-- The same for a path as a whole, if its last part has bytes. -/
theorem mem_lastNames_of_find {tree : FileTree} {current : Place} {path : Path} {parts : List Text}
    {last : Text} {name content : Bytes} (hparts : path.parts = parts ++ [last])
    (hlast : Path.encode? last = some name) (hsame : name ≠ sameName) (habove : name ≠ aboveName)
    (h : tree.find current path = .found (.file content)) : name ∈ tree.lastNames := by
  have hwritten : path.written = parts ++ [last] := by simp [Path.written, hparts]
  unfold find at h
  split at h
  · cases h
  · next names hnames =>
    obtain ⟨front, rfl⟩ : ∃ front, names = front ++ [name] := by
      rw [hwritten, List.mapM_append, Option.bind_eq_bind, Option.bind_eq_some_iff] at hnames
      obtain ⟨front, -, hnames⟩ := hnames
      simp only [List.mapM_cons, hlast, List.mapM_nil, Option.pure_def, Option.bind_eq_bind,
        Option.bind_some, Option.some.injEq] at hnames
      exact ⟨front, hnames.symm⟩
    split at h
    · cases h
    · split at h
      · cases h
      · exact mem_lastNames_of_walk hsame habove h

end FileTree

/-! ### Disks -/

/-- A tree of files, and the directory that relative paths start from. -/
structure Disk where
  /-- The files. -/
  tree : FileTree
  /-- The place of the directory. -/
  current : Place

/-- What a path leads to. -/
def Disk.find (disk : Disk) (path : Path) : FileTree.Lookup := disk.tree.find disk.current path

end Embargo
