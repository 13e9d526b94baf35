import Embargo.Catalog.Bundled
import Embargo.Catalog.Name
import Embargo.FileTree
import Embargo.Table
import Embargo.Text.Quoted

/-!
# Stores of catalogs

A store serves the bytes of a catalog by its name. It may hold the catalogs itself, find them in a
directory, have those that come with the library, or ask other stores in turn.

* `Store.answer` – what a store answers when it is asked for a catalog: its bytes, with the stores
  that a chain found to serve it.
* `Store.names` – names among which every served one is (`Store.mem_names_of_answer`), so that a
  chain of catalogs that include each other cannot go on for ever.
* `Store.text` – how messages show a store.
-/

namespace Embargo

/-- A source of catalogs. -/
inductive Store where
  /-- The catalogs of a table. -/
  | mapping (catalogs : Table Text Text)
  /-- The files of a directory. -/
  | directory (root : Path)
  /-- The catalogs that come with the library. -/
  | bundled
  /-- The first of several stores that knows a name. -/
  | chained (stores : List Store)

namespace Store

/-- What the name of a catalog's file ends in. -/
def fileSuffix : Text := ".txt".toText

/-- The place of the catalogs that come with the library. -/
def bundledPlace : Place :=
  [Utf8.encode "sigwarden".toText, Utf8.encode "signatures".toText, Utf8.encode "bundled".toText]

/-- The files of the catalogs that come with the library. -/
def bundledDisk : Disk where
  tree := ⟨Catalog.bundled.map fun (name, text) =>
    (bundledPlace ++ [Utf8.encode (name ++ fileSuffix)], .file (Utf8.encode text))⟩
  current := bundledPlace

/-- What a store answers when it is asked for a catalog. -/
inductive Answer where
  /-- The bytes of the catalog, and how messages show the stores that chains found it in, the
  innermost chain first. -/
  | served (bytes : Bytes) (servers : List Text)
  /-- The store has no such catalog. -/
  | unknown
  /-- The system refuses to look for the catalog's file, or to open it. -/
  | refused
  /-- The store holds a text that has no bytes. -/
  | unencodable
  deriving DecidableEq

/-- The store has the catalog. -/
def Answer.isServed : Answer → Bool
  | .served _ _ => true
  | _ => false

/-- The answer of a store that looks for the catalog at a path. A path that no file can have is one
that leads to nothing. -/
def Answer.ofLookup : FileTree.Lookup → Answer
  | .found (.file content) => .served content []
  | .found .unreadable | .refused => .refused
  | .found .directory | .found .closed | .absent | .illFormed | .unencodable => .unknown

/-- The answer of a store that holds the text of a catalog, or does not. -/
def Answer.ofText? : Option Text → Answer
  | some t => if Utf8.isEncodable t then .served (Utf8.encode t) [] else .unencodable
  | none => .unknown

/-- The file of a catalog in a directory. -/
def file (root : Path) (name : Text) : Path := root.append (Path.ofText (name ++ fileSuffix))

mutual

/-- How messages show a store. -/
def text : Store → Text
  | .mapping catalogs =>
    "MappingCatalogStore([".toText ++
      Text.join ", ".toText ((Text.sort catalogs.keys).map Text.quoted) ++ "])".toText
  | .directory root => "DirectoryCatalogStore(".toText ++ Text.quoted root.text ++ ")".toText
  | .bundled => "PackageCatalogStore('sigwarden.signatures', 'bundled')".toText
  | .chained stores =>
    "ChainedCatalogStore([".toText ++ Text.join ", ".toText (texts stores) ++ "])".toText

/-- How messages show each of several stores. -/
def texts : List Store → List Text
  | [] => []
  | s :: ss => s.text :: texts ss

end

mutual

/-- **What a store answers** when it is asked for the catalog with a name. -/
def answer (disk : Disk) (name : Text) : Store → Answer
  | .mapping catalogs => .ofText? (catalogs.get? name)
  | .directory root => .ofLookup (disk.find (file root name))
  | .bundled => .ofLookup (bundledDisk.find (file (Path.ofText []) name))
  | .chained stores => firstAnswer disk name stores

/-- What the first of several stores answers that does not lack the catalog. -/
def firstAnswer (disk : Disk) (name : Text) : List Store → Answer
  | [] => .unknown
  | s :: ss =>
    match s.answer disk name with
    | .served bytes servers => .served bytes (servers ++ [s.text])
    | .unknown => firstAnswer disk name ss
    | .refused => .refused
    | .unencodable => .unencodable

end

/-- A name from the name of its file, both in ASCII. -/
def nameOfFile? (bytes : Bytes) : Option Text :=
  let t := Path.asciiText bytes
  if fileSuffix.isSuffixOf t then some (t.take (t.length - fileSuffix.length)) else none

mutual

/-- Names among which every name of a catalog is that the store serves. -/
def names (disk : Disk) : Store → List Text
  | .mapping catalogs => catalogs.keys
  | .directory _ => disk.tree.lastNames.filterMap nameOfFile?
  | .bundled => bundledDisk.tree.lastNames.filterMap nameOfFile?
  | .chained stores => namesOfAll disk stores

/-- The names of several stores. -/
def namesOfAll (disk : Disk) : List Store → List Text
  | [] => []
  | s :: ss => s.names disk ++ namesOfAll disk ss

end

/-! ### Every served name is listed -/

theorem ne_of_length_append {name t : Text} (h : t.length < 4) : name ++ fileSuffix ≠ t := by
  rintro rfl
  have hl : fileSuffix.length = 4 := rfl
  rw [List.length_append, hl] at h
  omega

/-- The file of a name without slashes is one part of a path. -/
theorem file_eq (root : Path) {name : Text} (hs : CodePoint.char '/' ∉ name) :
    file root name = ⟨root.anchor, root.parts ++ [name ++ fileSuffix]⟩ := by
  have hs' : CodePoint.char '/' ∉ name ++ fileSuffix := by simp [hs, fileSuffix, String.toText]
  rw [file, Path.ofText_of_notMem hs' (ne_of_length_append (by decide))
    (ne_of_length_append (by decide))]
  simp [Path.append]

/-- The characters of names are those of ASCII. -/
theorem toNat_lt_of_isName {name : Text} (hn : Catalog.isName name = true) :
    ∀ c ∈ name, c.toNat < 0x80 := by
  intro c hc
  obtain ⟨-, hchars⟩ := Bool.and_eq_true_iff.1 hn
  obtain ⟨-, -, hle⟩ := Catalog.bounds_of_isNameChar (List.all_eq_true.1 hchars c hc)
  omega

/-- **The name of a catalog is read off the name of its file**, which is longer than a name that
only leads on. -/
theorem exists_nameOfFile? {name : Text} (hn : Catalog.isName name = true) :
    ∃ bytes, Path.encode? (name ++ fileSuffix) = some bytes ∧ nameOfFile? bytes = some name ∧
      4 ≤ bytes.length := by
  have hascii : ∀ c ∈ name ++ fileSuffix, c.toNat < 0x80 := by
    intro c hc
    rcases List.mem_append.1 hc with hc | hc
    · exact toNat_lt_of_isName hn c hc
    · exact (by decide : ∀ c ∈ fileSuffix, c.toNat < 0x80) c hc
  refine ⟨_, Path.encode?_of_ascii hascii, ?_, ?_⟩
  · rw [nameOfFile?, Path.asciiText_asciiBytes hascii]
    simp
  · rw [Path.asciiBytes, List.length_map, List.length_append]
    exact Nat.le_add_left 4 name.length

theorem mem_names_of_find {disk : Disk} {root : Path} {name : Text} {bytes : Bytes}
    {servers : List Text} (hn : Catalog.isName name = true)
    (h : Answer.ofLookup (disk.find (file root name)) = .served bytes servers) :
    name ∈ disk.tree.lastNames.filterMap nameOfFile? := by
  rw [file_eq root (Catalog.slash_notMem_of_isName hn)] at h
  obtain ⟨last, hlast, hname, hlength⟩ := exists_nameOfFile? hn
  have hne {bytes : Bytes} (hb : bytes.length < 4) : last ≠ bytes := by
    rintro rfl
    omega
  unfold Answer.ofLookup at h
  split at h
  · next content hf =>
    exact List.mem_filterMap.2 ⟨last, FileTree.mem_lastNames_of_find rfl hlast (hne (by decide))
      (hne (by decide)) hf, hname⟩
  all_goals cases h

mutual

/-- **Every name of a catalog that a store serves is among its names.** -/
theorem mem_names_of_answer {disk : Disk} {name : Text} (hn : Catalog.isName name = true) :
    ∀ {store : Store} {bytes : Bytes} {servers : List Text},
      store.answer disk name = .served bytes servers → name ∈ store.names disk
  | .mapping catalogs, bytes, servers, h => by
    unfold answer Answer.ofText? at h
    split at h
    · next t ht => exact Table.mem_keys_of_get? ht
    · simp at h
  | .directory root, bytes, servers, h => mem_names_of_find hn h
  | .bundled, bytes, servers, h => mem_names_of_find hn h
  | .chained stores, bytes, servers, h => mem_namesOfAll_of_firstAnswer hn h

/-- The same for the first of several stores that serves a name. -/
theorem mem_namesOfAll_of_firstAnswer {disk : Disk} {name : Text}
    (hn : Catalog.isName name = true) :
    ∀ {stores : List Store} {bytes : Bytes} {servers : List Text},
      firstAnswer disk name stores = .served bytes servers → name ∈ namesOfAll disk stores
  | [], bytes, servers, h => by simp [firstAnswer] at h
  | s :: ss, bytes, servers, h => by
    rw [firstAnswer] at h
    rw [namesOfAll, List.mem_append]
    split at h
    · next hq => exact Or.inl (mem_names_of_answer hn hq)
    · exact Or.inr (mem_namesOfAll_of_firstAnswer hn h)
    · simp at h
    · simp at h

end

end Store
end Embargo
