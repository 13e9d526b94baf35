import Embargo.Log
import Embargo.Resolution

/-!
# Events

What happens while a registry reads signatures is kept as a **trace** of events. Most events have a
log record. The others are there to say what else was done: which records were considered, for
which chain of catalogs a store was asked for a catalog, and when a catalog was opened and closed.

* `Event` – what can happen.
* `Event.record?` – the log record of an event.
* `logOf` – the log of a trace.
* `recordsOf` – the records that were considered.
* `inProgress` – the catalogs that were opened and not yet closed.
-/

namespace Embargo

/-- What happens while signatures are read. -/
inductive Event where
  /-- A catalog is read because the user asks for it. -/
  | readingCatalog (name : Text)
  /-- A text with a name is read. -/
  | readingText (name : Text)
  /-- A text without a name is read. -/
  | readingInline
  /-- A store is asked for a catalog, on behalf of the catalogs of a chain. -/
  | requested (name : Text) (chain : List Text)
  /-- A chain of stores found a catalog in one of them. -/
  | served (name store : Text)
  /-- A catalog is opened: from now on it is in progress. -/
  | opened (name : Text)
  /-- The catalog that was opened last is closed, whether or not it was read to its end. -/
  | closed (name : Text)
  /-- The use of internal classes of the runtime is forbidden. -/
  | forbadeNonPortable
  /-- A directive is followed. -/
  | directive (line : Text)
  /-- A record is considered, under a policy about gaps. -/
  | considered (record : Record) (policy : Policy)
  /-- A pattern is added. -/
  | addedPattern (record : Record)
  /-- The keys of a record are added. -/
  | addedKeys (record : Record) (count : Nat)
  /-- A record is skipped, and its class is kept for the summary. -/
  | deferred (record : Record)
  /-- A record is skipped with a warning. -/
  | ignored (reason signature : Text)
  /-- A supertype that is not declared is passed over. -/
  | skippedSupertype (supertype className : Text)
  /-- The summary of missing classes is announced. -/
  | missingClasses
  /-- The summary of missing classes. -/
  | summary (line : Text)
  /-- A manifest of classes was read. -/
  | loadedManifest (count : Nat) (path : Text)
  deriving DecidableEq

namespace Event

/-- The log record of an event, if it has one. -/
def record? : Event → Option LogRecord
  | .readingCatalog name => some ⟨.info, "Reading bundled API signatures: ".toText ++ name⟩
  | .readingText name => some ⟨.info, "Reading API signatures: ".toText ++ name⟩
  | .readingInline => some ⟨.info, "Reading inline API signatures...".toText⟩
  | .requested _ _ => none
  | .served name store =>
    some ⟨.debug, "Catalog ".toText ++ name ++ " served by ".toText ++ store⟩
  | .opened _ => none
  | .closed _ => none
  | .forbadeNonPortable => none
  | .considered _ _ => none
  | .directive line => some ⟨.debug, "Directive: ".toText ++ line⟩
  | .addedPattern record => some ⟨.debug, "Class pattern: ".toText ++ record.className⟩
  | .addedKeys record count =>
    some ⟨.debug, "Forbidden: ".toText ++ record.signature ++ " (".toText ++
      Numeral.ofNat count ++ " key(s))".toText⟩
  | .deferred record =>
    some ⟨.debug, "Class not found, deferred to summary: ".toText ++ record.signature⟩
  | .ignored reason signature =>
    some ⟨.warning, reason ++ " while parsing signature: ".toText ++ signature ++
      " [signature ignored]".toText⟩
  | .skippedSupertype supertype className =>
    some ⟨.debug, "Supertype ".toText ++ supertype ++ " of ".toText ++ className ++
      " is unknown, skipping its members".toText⟩
  | .missingClasses =>
    some ⟨.warning, ("Some signatures were ignored because the following classes " ++
      "were not found on classpath:").toText⟩
  | .summary line => some ⟨.warning, line⟩
  | .loadedManifest count path =>
    some ⟨.debug, "Loaded ".toText ++ Numeral.ofNat count ++ " classes from ".toText ++ path⟩

/-- The record that is considered. -/
def considered? : Event → Option Record
  | .considered record _ => some record
  | _ => none

/-- The catalogs in progress after an event, given those before it, the innermost last. -/
def progress (chain : List Text) : Event → List Text
  | .opened name => chain ++ [name]
  | .closed _ => chain.dropLast
  | _ => chain

end Event

/-- What happened, in order. -/
abbrev Trace := List Event

/-- The log of a trace. -/
def logOf (trace : Trace) : List LogRecord := trace.filterMap Event.record?

/-- The records that were considered, in order. -/
def recordsOf (trace : Trace) : List Record := trace.filterMap Event.considered?

/-- The catalogs in progress after a trace, the innermost last. -/
def inProgress (trace : Trace) : List Text := trace.foldl Event.progress []

end Embargo
