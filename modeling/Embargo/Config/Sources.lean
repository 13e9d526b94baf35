import Embargo.Config
import Embargo.Value.Toml

/-!
# Where settings come from

Settings are merged from five sources, each laid over the ones before it: a file in the home
directory, a file in the working directory, a file that is named, variables of the environment, and
what the caller gives.

* `Config.readFile` – the settings of a file; its section for the library, if it has one, stands for
  the whole file.
* `Config.readVariables` – the settings of the environment.
* `Config.expandShorthands` – the two shorthands that a caller has for the verbosity.
* `Config.load` – the settings of all sources.
-/

namespace Embargo.Config

/-! ### Files -/

/-- The table of a document that holds settings: the section for them, or else all of it. -/
def settingsIn (entries : Toml.Entries) : Table Text Value :=
  match entries.lookup "sigwarden".toText with
  | some (.table sub) => ⟨sub⟩
  | _ => ⟨entries⟩

/-- The settings of a file, shown in errors as `path`. -/
def readFile (path : Text) : FileTree.Node → Except ConfigError (Table Text Value)
  | .unreadable | .directory | .closed => .error (.file path none)
  | .file content =>
    match Utf8.text? content with
    | none => .error (.fault .notText)
    | some t =>
      match Toml.parse t with
      | .ok entries => .ok (settingsIn entries)
      | .error .malformed => .error (.file path none)
      | .error .numeralTooLong => .error (.fault .badValue)
      | .error .tooDeep => .error (.fault .tooDeep)

/-! ### Variables -/

/-- The name of the variable that gives a setting. -/
def variableName (s : Setting) : Text := "SIGWARDEN_".toText ++ s.name.map CodePoint.toUpper

/-- The words that a truth value can be written with. -/
def truthWords : List (Text × Bool) :=
  [("true".toText, true), ("1".toText, true), ("yes".toText, true), ("on".toText, true),
   ("false".toText, false), ("0".toText, false), ("no".toText, false), ("off".toText, false)]

/-- The truth value that a variable gives; letters may be of either case. -/
def readBool (t : Text) : Except Text Value :=
  match truthWords.lookup (t.map CodePoint.toLower) with
  | some b => .ok (.bool b)
  | none => .error ("expected true/false, got '".toText ++ t ++ "'".toText)

/-- The most characters of a quoted text that are shown of what should have been an integer. -/
def maxQuoted : Nat := 200

/-- The integer that a variable gives. -/
def readInteger (t : Text) : Except Text Value :=
  match Numeral.integer? t with
  | .ok i => .ok (.int i)
  | .error .malformed =>
    .error ("invalid literal for int() with base 10: ".toText ++ (Text.quoted t).take maxQuoted)
  | .error (.tooLong digits) =>
    .error ("Exceeds the limit (".toText ++ Numeral.ofNat Numeral.maxDigits ++
      " digits) for integer string conversion: value has ".toText ++ Numeral.ofNat digits ++
      " digits; use sys.set_int_max_str_digits() to increase the limit".toText)

/-- The directories that a variable gives, with colons between them; empty ones do not count. -/
def readDirectories (t : Text) : Value :=
  .list (((Text.split ':' t).filter fun part => !part.isEmpty).map .text)

/-- The value that a variable gives to a setting, or what is wrong with it. -/
def readVariable (s : Setting) (t : Text) : Except Text Value :=
  match s with
  | .failOnUnresolvable | .logMissingSignatures => readBool t
  | .jdkTargetVersion | .verbosity => .ok (.text t)
  | .catalogDirs => .ok (readDirectories t)
  | .missingSummaryWidth => readInteger t

/-- The settings with the one that its variable gives, if there is such a variable. -/
def addVariable (bindings : List (Text × Text)) (values : Table Text Value) (s : Setting) :
    Except ConfigError (Table Text Value) :=
  match bindings.lookup (variableName s) with
  | none => .ok values
  | some t =>
    match readVariable s t with
    | .ok v => .ok (values.insert s.name v)
    | .error reason =>
      .error (.setting s.name (.text t) (variableName s ++ ": ".toText ++ reason))

/-- The settings that variables give, each variable by its name. -/
def readVariables (bindings : List (Text × Text)) : Except ConfigError (Table Text Value) :=
  Setting.all.foldlM (addVariable bindings) .empty

/-! ### What the caller gives -/

/-- A shorthand, which is no setting itself, turned into a verbosity if its value is true. -/
def expandShorthand (shorthand : Text) (verbosity : Verbosity) (values : Table Text Value) :
    Table Text Value :=
  match values.get? shorthand with
  | none => values
  | some v =>
    (if v.isTrue then values.insert Setting.verbosity.name (.text verbosity.name) else values).erase
      shorthand

/-- What the caller gives, with `verbose` and `quiet` turned into a verbosity; `quiet` wins. -/
def expandShorthands (values : Table Text Value) : Table Text Value :=
  expandShorthand "quiet".toText .quiet (expandShorthand "verbose".toText .verbose values)

/-! ### All sources -/

/-- A number for the target version is read as the text that shows it. -/
def targetAsText (values : Table Text Value) : Except ConfigError (Table Text Value) :=
  let key := Setting.jdkTargetVersion.name
  match values.get? key with
  | some (.int i) =>
    if Numeral.isWritable i then .ok (values.insert key (.text (Numeral.ofInt i)))
    else .error (.fault .badValue)
  | some (.float x) => .ok (values.insert key (.text x.text))
  | _ => .ok values

/-- The sources laid over each other, later ones over earlier ones. -/
def merge (sources : List (Table Text Value)) : Table Text Value :=
  sources.foldl Table.override Table.empty

/-- The settings with merged values. The first name, by code points, that is no setting is an
error. -/
def ofMerged (merged : Table Text Value) : Except ConfigError Config :=
  match Text.sort (merged.keys.filter fun k => !Setting.isName k) with
  | key :: _ =>
    .error (.setting key ((merged.get? key).getD .null) "unknown setting".toText)
  | [] => (targetAsText merged).bind ofValues

/-- What a program finds around itself. -/
structure Environment where
  /-- The files, and the working directory. -/
  disk : Disk
  /-- The path of the home directory. -/
  home : Path
  /-- The path of the working directory. -/
  work : Path
  /-- The variables, by name. -/
  bindings : List (Text × Text)

namespace Environment

/-- The file of settings in the home directory. -/
def homeFile (e : Environment) : Path := e.home.append (.ofText ".sigwarden.toml".toText)

/-- The file of settings in the working directory. -/
def projectFile (e : Environment) : Path := e.work.append (.ofText "sigwarden.toml".toText)

/-- The settings of what a path leads to, if it leads to anything. -/
def settingsAt (e : Environment) (path : Path) : Except ConfigError (Option (Table Text Value)) :=
  match e.disk.find path with
  | .found node => do return some (← readFile path.text node)
  | .absent | .illFormed | .unencodable => .ok none
  | .refused => .error (.fault .system)

/-- The settings of a file that need not be there. -/
def fileSettings (e : Environment) (path : Path) : Except ConfigError (Table Text Value) := do
  return (← e.settingsAt path).getD .empty

/-- The settings of the file that the caller names. -/
def namedSettings (e : Environment) : Option Text → Except ConfigError (Table Text Value)
  | none => .ok .empty
  | some t => do
    match ← e.settingsAt (.ofText t) with
    | some values => return values
    | none => .error (.file (Path.ofText t).text (some "file not found".toText))

end Environment

/-- The name that a caller gives a file of settings by, and so no setting. -/
def fileKey : Text := "config_file".toText

/-- The settings of all sources. -/
def load (e : Environment) (file : Option Text) (given : Table Text Value) :
    Except ConfigError Config := do
  if (given.get? fileKey).isSome then .error (.fault .wrongType)
  let home ← e.fileSettings e.homeFile
  let project ← e.fileSettings e.projectFile
  let named ← e.namedSettings file
  let bindings ← readVariables e.bindings
  ofMerged (merge [home, project, named, bindings, expandShorthands given])

end Embargo.Config
