import Embargo.Loading

/-!
# Registries

A registry is what a scanner works with: an index of what is forbidden, over a universe of classes.
It is filled from catalogs, texts, streams and files. Each way of filling it is a function that
returns an `Outcome`: the registry, also when reading failed, and what happened.

* `Session.addCatalog` – a catalog, by name.
* `Session.addText`, `Session.addStream`, `Session.addFile` – signatures of the user.
* `Config.store` – the store that the settings ask for.
-/

namespace Embargo

/-- What is forbidden, and the classes that it is about. -/
structure Registry where
  /-- What is forbidden. -/
  index : Index
  /-- The classes. -/
  classes : Universe
  deriving DecidableEq

/-- What filling a registry leads to. -/
structure Outcome where
  /-- Why it stopped, if it did not go through. -/
  failure : Option LoadError
  /-- The registry afterwards. -/
  registry : Registry
  /-- The classes that were skipped silently. -/
  missing : List Text
  /-- What happened. -/
  trace : Trace
  deriving DecidableEq

/-- The registry over a universe, with nothing forbidden. -/
def Registry.ofClasses (classes : Universe) : Registry := ⟨.empty, classes⟩

/-- The progress that filling a registry begins with. -/
def Registry.start (r : Registry) : Progress := ⟨r.index, r.classes, [], []⟩

/-- The events that end a reading without failure: classes that were skipped silently are summed up,
if the settings ask for it. -/
def Config.summaryOf (c : Config) (missing : List Text) : Trace :=
  if missing.isEmpty || !c.logMissingSignatures.isTrue then []
  else [.missingClasses, .summary (Missing.summary c.missingSummaryWidth missing)]

/-- The outcome of a reading. -/
def Config.outcomeOf (c : Config) : Reading Unit → Outcome
  | (.error e, p) => ⟨some e, ⟨p.index, p.classes⟩, p.missing, p.trace⟩
  | (.ok (), p) => ⟨none, ⟨p.index, p.classes⟩, p.missing, p.trace ++ c.summaryOf p.missing⟩

namespace Session

/-! ### Filling a registry -/

/-- The target version that counts: the one given, or else that of the settings. An empty one does
not count. -/
def targetOf (s : Session) : Option Text → Option Text
  | some (c :: t) => some (c :: t)
  | _ => s.config.jdkTargetVersion

/-- Adds a catalog, and the catalogs that it includes. -/
def addCatalog (s : Session) (name : Text) (target : Option Text) (r : Registry) : Outcome :=
  s.config.outcomeOf (s.readCatalog [] name (s.targetOf target) r.start)

/-- Adds the signatures that a source of text yields, after an event that tells of it. The user's
signatures include nothing. -/
def addFeed (s : Session) (event : Event) (name : Text) (feed : Feed) (r : Registry) : Outcome :=
  s.config.outcomeOf
    (readFeed s.config .user (fun _ p => (.ok (), p)) name feed (r.start.note [event]))

/-- Adds the signatures of a text. -/
def addText (s : Session) (t : Text) (r : Registry) : Outcome :=
  s.addFeed .readingInline "<inline>".toText (.ofText t) r

/-- Adds the signatures of a stream with a name. -/
def addStream (s : Session) (name : Text) (feed : Feed) (r : Registry) : Outcome :=
  s.addFeed (.readingText name) name feed r

/-- Adds the signatures of a file. -/
def addFile (s : Session) (path : Path) (r : Registry) : Outcome :=
  match s.disk.find path with
  | .found (.file content) => s.addStream path.text (.ofBytes content) r
  | .found .unreadable | .found .directory | .found .closed | .absent | .refused =>
    ⟨some (.unreadable path.text), r, [], []⟩
  | .illFormed => ⟨some .illFormedPath, r, [], []⟩
  | .unencodable => ⟨some .unencodable, r, [], []⟩

end Session

/-! ### Stores that settings ask for -/

/-- The directories that the settings name. -/
def Config.catalogRoots (c : Config) : Except Fault (List Path) :=
  match c.catalogDirs.items? with
  | none => .error .wrongType
  | some vs => vs.mapM fun v =>
    match v with
    | .text t => .ok (Path.ofText t)
    | _ => .error .wrongType

/-- The store of the settings: their directories, and then the catalogs of the library. -/
def Config.store (c : Config) : Except Fault Store :=
  c.catalogRoots.map fun roots => .chained (roots.map .directory ++ [.bundled])

end Embargo
