import Embargo.Catalog.Name
import Embargo.FileTree
import Embargo.SyntaxError
import Embargo.Value

/-!
# Failures

A **failure** is how an operation reports that it could not do its work: a kind, a message, details
that the report adds to the message, and the data that a caller may want to inspect. The causes of
failures are types of their own; here each is given its report.

* `Failure.Kind` – the kinds, and the more general kinds above each.
* `Failure` – a report, with `Failure.text` as its wording.
* `Fault` – an input that the documented failures do not cover, told apart only by its sort.
-/

namespace Embargo

/-! ### Kinds -/

/-- The kinds of failures. -/
inductive Failure.Kind where
  /-- Any failure of the library. -/
  | general
  /-- Signature text that cannot be read. -/
  | parse
  /-- A catalog reference that names no catalog. -/
  | catalogName
  /-- A class or member that does not exist. -/
  | unresolvable
  /-- Signature text that cannot be fetched. -/
  | resource
  /-- A catalog that no store serves. -/
  | notFound
  /-- A class that is not declared. -/
  | classNotFound
  /-- Anything about settings. -/
  | configuration
  /-- A setting with a value that it cannot have. -/
  | setting
  /-- A file of settings that cannot be read. -/
  | settingsFile
  deriving DecidableEq

namespace Failure.Kind

/-- The name of a kind in reports. -/
def name : Kind → Text
  | .general => "SigwardenError".toText
  | .parse => "SignatureParseError".toText
  | .catalogName => "InvalidCatalogNameError".toText
  | .unresolvable => "UnresolvableSignatureError".toText
  | .resource => "CatalogResourceError".toText
  | .notFound => "CatalogNotFoundError".toText
  | .classNotFound => "ClassNotFoundError".toText
  | .configuration => "ConfigurationError".toText
  | .setting => "InvalidConfigError".toText
  | .settingsFile => "ConfigFileError".toText

/-- A kind and the more general kinds above it, up to the most general one. -/
def withAncestors : Kind → List Kind
  | .general => [.general]
  | .parse => [.parse, .general]
  | .catalogName => [.catalogName, .parse, .general]
  | .unresolvable => [.unresolvable, .parse, .general]
  | .resource => [.resource, .general]
  | .notFound => [.notFound, .resource, .general]
  | .classNotFound => [.classNotFound, .general]
  | .configuration => [.configuration, .general]
  | .setting => [.setting, .configuration, .general]
  | .settingsFile => [.settingsFile, .configuration, .general]

end Failure.Kind

/-! ### Reports -/

/-- The report of an operation that could not do its work. -/
structure Failure where
  /-- What sort of failure it is. -/
  kind : Failure.Kind
  /-- What went wrong. -/
  message : Text
  /-- What the report adds in parentheses, in order. -/
  details : List (Text × Text)
  /-- What a caller can inspect besides. -/
  attributes : List (Text × Value)

namespace Failure

/-- The wording of a report: the message, and the details in parentheses if there are any. -/
def text (f : Failure) : Text :=
  if f.details.isEmpty then f.message
  else f.message ++ " (".toText ++
    Text.join ", ".toText (f.details.map fun d => d.1 ++ "=".toText ++ d.2) ++ ")".toText

/-- A text that may be missing, as a value. -/
def optional : Option Text → Value
  | some t => .text t
  | none => .null

/-- A failure of no particular kind. -/
def general (message : Text) (details : List (Text × Text)) : Failure :=
  ⟨.general, message, details, []⟩

/-- Signature text that cannot be read, with the line if that helps. -/
def parse (message : Text) (line : Option Text) : Failure :=
  ⟨.parse, message, (line.map fun l => ("line".toText, l)).toList, [("line".toText, optional line)]⟩

/-- A catalog reference that names no catalog. An empty reason is none. -/
def catalogName (name : Text) (reason : Option Text) : Failure :=
  let remark := match reason with
    | some (c :: r) => " (".toText ++ c :: r ++ ")".toText
    | _ => []
  ⟨.catalogName, "Invalid bundled signature reference".toText ++ remark ++ ": ".toText ++ name, [],
    [("line".toText, .null), ("name".toText, .text name), ("reason".toText, optional reason)]⟩

/-- A class or member that does not exist. -/
def unresolvable (reason signature : Text) : Failure :=
  ⟨.unresolvable, reason ++ " while parsing signature: ".toText ++ signature, [],
    [("line".toText, .null), ("reason".toText, .text reason),
      ("signature".toText, .text signature)]⟩

/-- Signature text that cannot be fetched. The reason is missing where the system gave it. -/
def resource (name : Text) (reason : Option Text) : Failure :=
  ⟨.resource, "Cannot read API signatures: ".toText ++ name,
    match reason with
    | some r => [("name".toText, name), ("reason".toText, r)]
    | none => [],
    [("name".toText, .text name), ("reason".toText, optional reason)]⟩

/-- A catalog that no store serves, with the stores that were asked. -/
def notFound (name : Text) (searched : List Text) : Failure :=
  ⟨.notFound, "Bundled signatures resource not found: ".toText ++ name,
    if searched.isEmpty then [] else [("searched".toText, Text.join ", ".toText searched)],
    [("name".toText, .text name), ("reason".toText, .text "not found".toText),
      ("searched".toText, .list (searched.map .text))]⟩

/-- The message about a class that is not declared. -/
def classNotFoundMessage (className : Text) : Text :=
  "Class '".toText ++ className ++ "' not found on classpath".toText

/-- A class that is not declared. -/
def classNotFound (className : Text) : Failure :=
  ⟨.classNotFound, classNotFoundMessage className, [], [("class_name".toText, .text className)]⟩

/-- A failure about settings. -/
def configuration (message : Text) (details : List (Text × Text)) : Failure :=
  ⟨.configuration, message, details, []⟩

/-- A setting with a value that it cannot have. -/
def setting (key : Text) (value : Value) (reason : Text) : Failure :=
  ⟨.setting, "Invalid configuration for ".toText ++ key ++ ": ".toText ++ value.display,
    [("key".toText, key), ("value".toText, value.display), ("reason".toText, reason)],
    [("key".toText, .text key), ("value".toText, value), ("reason".toText, .text reason)]⟩

/-- A file of settings that cannot be read. The reason is missing where the system gave it. -/
def settingsFile (path : Text) (reason : Option Text) : Failure :=
  ⟨.settingsFile, "Invalid config file: ".toText ++ path,
    match reason with
    | some r => [("path".toText, path), ("reason".toText, r)]
    | none => [],
    [("path".toText, .text path), ("reason".toText, optional reason)]⟩

end Failure

/-! ### Faults -/

/-- An input that the documented failures do not cover. -/
inductive Fault where
  /-- A value of a type that the operation cannot work with. -/
  | wrongType
  /-- A value that cannot be converted. -/
  | badValue
  /-- A name that is not known. -/
  | unknownName
  /-- A value that does not have the part that is asked for. -/
  | noSuchPart
  /-- Bytes that are no text. -/
  | notText
  /-- A text that has no bytes. -/
  | notEncodable
  /-- A request that the system refuses. -/
  | system
  /-- Values that are nested too deeply. -/
  | tooDeep
  deriving DecidableEq

/-- What an operation reports instead of a result. -/
inductive Problem where
  /-- A documented failure. -/
  | failure (f : Failure)
  /-- Anything else. -/
  | fault (f : Fault)

/-- The report of a syntax error. -/
def SyntaxError.problem (e : SyntaxError) : Problem := .failure (.parse e.message e.line?)

/-- The report of a text that does not name a catalog. -/
def CatalogNameError.problem : CatalogNameError → Problem
  | .malformed name => .failure (.catalogName name none)
  | .noSuchVersion name => .failure (.catalogName name (some "JDK version is invalid".toText))
  | .numeralTooLong => .fault .badValue

end Embargo
