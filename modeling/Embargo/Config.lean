import Embargo.Failure
import Embargo.Log

/-!
# Settings

The settings of a session. What a setting may hold is checked where a wrong value could not be
worked with: the target version, the width of the summary and the verbosity. The other settings keep
whatever value they were given.

* `Setting` – the names of settings.
* `Config` – the settings, with their defaults.
* `Config.ofValues` – the settings with given values, checked.
-/

namespace Embargo

/-! ### Errors -/

/-- Why there are no settings. -/
inductive ConfigError where
  /-- A setting has a value that it cannot have. -/
  | setting (key : Text) (value : Value) (reason : Text)
  /-- A file cannot be read; the reason is missing where the system or the grammar gave it. -/
  | file (path : Text) (reason : Option Text)
  /-- Anything that the documented failures do not cover. -/
  | fault (f : Fault)

/-- The report of a configuration error. A value that cannot be shown cannot be reported. -/
def ConfigError.problem : ConfigError → Problem
  | .setting key value reason =>
    if Value.maxShownDepth < value.depth then .fault .tooDeep
    else if value.isWritable then .failure (.setting key value reason)
    else .fault .badValue
  | .file path reason => .failure (.settingsFile path reason)
  | .fault f => .fault f

/-! ### Names of settings -/

/-- What can be set. -/
inductive Setting where
  /-- Whether a record that cannot be resolved ends the reading of its text. -/
  | failOnUnresolvable
  /-- Whether classes that were skipped silently are summed up. -/
  | logMissingSignatures
  /-- The version that names of platform catalogs take if they have none. -/
  | jdkTargetVersion
  /-- The directories that catalogs are looked for in. -/
  | catalogDirs
  /-- The length of the summary of missing classes. -/
  | missingSummaryWidth
  /-- How much is logged. -/
  | verbosity
  deriving DecidableEq

namespace Setting

/-- The name of a setting. -/
def name : Setting → Text
  | .failOnUnresolvable => "fail_on_unresolvable".toText
  | .logMissingSignatures => "log_missing_signatures".toText
  | .jdkTargetVersion => "jdk_target_version".toText
  | .catalogDirs => "catalog_dirs".toText
  | .missingSummaryWidth => "missing_summary_width".toText
  | .verbosity => "verbosity".toText

/-- All settings, in their order. -/
def all : List Setting :=
  [.failOnUnresolvable, .logMissingSignatures, .jdkTargetVersion, .catalogDirs,
   .missingSummaryWidth, .verbosity]

/-- The text names a setting. -/
def isName (t : Text) : Bool := all.any fun s => s.name = t

end Setting

/-! ### Settings -/

/-- The settings of a session. -/
structure Config where
  /-- A true value ends the reading of a text at a record that cannot be resolved. -/
  failOnUnresolvable : Value := .bool true
  /-- A true value asks for the summary of classes that were skipped silently. -/
  logMissingSignatures : Value := .bool true
  /-- The version that names of platform catalogs take if they have none. -/
  jdkTargetVersion : Option Text := none
  /-- The directories that catalogs are looked for in. -/
  catalogDirs : Value := .list []
  /-- The length that ends the summary of missing classes. -/
  missingSummaryWidth : Number := .int 70
  /-- How much is logged. -/
  verbosity : Verbosity := .normal

namespace Config

/-- A version of the platform: one or two rows of decimal digits with a dot between them. -/
def isTargetVersion (t : Text) : Bool :=
  Catalog.isVersionText t && (Text.split '.' t).length ≤ 2

/-- The error of a setting. -/
def invalid {α : Type} (s : Setting) (value : Value) (reason : String) : Except ConfigError α :=
  .error (.setting s.name value reason.toText)

/-- The target version that a value gives. -/
def targetOf : Value → Except ConfigError (Option Text)
  | .null => .ok none
  | .text t =>
    if isTargetVersion t then .ok (some t)
    else invalid .jdkTargetVersion (.text t) "expected a version like 1.8 or 11"
  | _ => .error (.fault .wrongType)

/-- The width that a value gives. -/
def widthOf (v : Value) : Except ConfigError Number :=
  match Number.ofValue? v with
  | some n => if n.ltNat 1 then invalid .missingSummaryWidth v "must be at least 1" else .ok n
  | none => .error (.fault .wrongType)

/-- The verbosity that a value gives. -/
def verbosityOf (v : Value) : Except ConfigError Verbosity :=
  match v.text?.bind Verbosity.ofName? with
  | some verbosity => .ok verbosity
  | none => invalid .verbosity v "expected quiet, normal or verbose"

/-- The settings with the values that a table gives them, and defaults for the others. A name that
is no setting is a fault. -/
def ofValues (values : Table Text Value) : Except ConfigError Config := do
  if !values.keys.all Setting.isName then .error (.fault .wrongType)
  let valueOf (s : Setting) (default : Value) : Value := (values.get? s.name).getD default
  let target ← targetOf (valueOf .jdkTargetVersion .null)
  let width ← widthOf (valueOf .missingSummaryWidth (.int 70))
  let verbosity ← verbosityOf (valueOf .verbosity (.text Verbosity.normal.name))
  return {
    failOnUnresolvable := valueOf .failOnUnresolvable (.bool true)
    logMissingSignatures := valueOf .logMissingSignatures (.bool true)
    jdkTargetVersion := target
    catalogDirs := valueOf .catalogDirs (.list [])
    missingSummaryWidth := width
    verbosity := verbosity }

/-- The value of a setting. -/
def valueOf (c : Config) : Setting → Value
  | .failOnUnresolvable => c.failOnUnresolvable
  | .logMissingSignatures => c.logMissingSignatures
  | .jdkTargetVersion => Failure.optional c.jdkTargetVersion
  | .catalogDirs => c.catalogDirs
  | .missingSummaryWidth => c.missingSummaryWidth.toValue
  | .verbosity => .text c.verbosity.name

/-- The values of all settings, by name. -/
def entries (c : Config) : List (Text × Value) := Setting.all.map fun s => (s.name, c.valueOf s)

end Config
end Embargo
