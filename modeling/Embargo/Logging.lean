import Embargo.Config
import Embargo.Event
import Embargo.Table

/-!
# Logging, once it is set up

Loggers stand below each other by their names: `sigwarden.signatures` is below `sigwarden`, and all
are below one that has no name. A logger lets the records through that reach its level, and if it
has none of its own, it goes by the nearest logger above it that has one. So it is enough to set the
level of the library's own logger, and the parts of the library, which log through loggers below,
inherit it.

* `Logging.threshold` – the level that a logger goes by.
* `Logging.setUp` – the levels, set up for the verbosity of some settings.
* `Event.logger` – the logger of an event. That of a registry is the one it has by default.
* `Logging.kept` – the records of a trace that their loggers let through.
-/

namespace Embargo

/-! ### Levels -/

/-- The levels that are set for loggers. -/
structure Logging where
  /-- The level of the logger above all others. -/
  top : Level
  /-- The logger above all others has been set up. -/
  isSetUp : Bool
  /-- The levels that loggers have of their own, by the parts of their names between dots. -/
  own : Table (List Text) Level

namespace Logging

/-- No level is set. -/
def initial : Logging := ⟨.warning, false, .empty⟩

/-- The level that a logger goes by, given the parts of its name from the last to the first. -/
def levelAt (l : Logging) : List Text → Level
  | [] => l.top
  | part :: above => (l.own.get? (part :: above).reverse).getD (l.levelAt above)

/-- The level that a logger goes by: its own, or else that of the nearest logger above it. -/
def threshold (l : Logging) (logger : Text) : Level := l.levelAt (Text.split '.' logger).reverse

/-- **The levels set up for a verbosity**, that of the given settings or of the defaults. The
logger of the library gets its level, and so does the one above all others, but only the first
time. -/
def setUp (l : Logging) (config : Option Config) : Logging :=
  let level := (config.getD {}).verbosity.level
  ⟨if l.isSetUp then l.top else level, true, l.own.insert [Logger.root] level⟩

end Logging

/-! ### Loggers of the library -/

namespace Logger

/-- The logger of registries. -/
def registry : Text := "sigwarden.signatures.registry".toText

/-- The logger of stores. -/
def stores : Text := "sigwarden.signatures.catalogs".toText

/-- The logger of universes. -/
def universes : Text := "sigwarden.symbols.provider".toText

/-- The logger is that of the library or below it. -/
def IsOfLibrary (logger : Text) : Prop := (Text.split '.' logger).head? = some root

end Logger

/-- The logger of an event. -/
def Event.logger : Event → Text
  | .served _ _ => Logger.stores
  | .skippedSupertype _ _ | .loadedManifest _ _ => Logger.universes
  | _ => Logger.registry

theorem Event.isOfLibrary_logger (e : Event) : Logger.IsOfLibrary e.logger := by
  cases e <;> rfl

namespace Logging

/-- The records of a trace that their loggers let through. -/
def kept (l : Logging) (trace : Trace) : List LogRecord :=
  trace.filterMap fun e =>
    e.record?.filter fun record => record.level.reaches (l.threshold e.logger)

/-! ### Inheritance -/

/-- No logger below that of the library has a level of its own. -/
def IsBare (l : Logging) : Prop :=
  ∀ part parts, l.own.get? (Logger.root :: part :: parts) = none

theorem isBare_initial : initial.IsBare := fun _ _ => rfl

/-- Setting up gives no level to a logger below that of the library. -/
theorem IsBare.setUp {l : Logging} (h : l.IsBare) (config : Option Config) :
    (l.setUp config).IsBare := by
  intro part parts
  rw [Logging.setUp, Table.get?_insert, if_neg (by simp)]
  exact h part parts

/-- **Once it is set up, every logger of the library goes by the verbosity.** -/
theorem IsBare.threshold_setUp {l : Logging} (h : l.IsBare) (config : Option Config) {logger : Text}
    (hlogger : Logger.IsOfLibrary logger) :
    (l.setUp config).threshold logger = (config.getD {}).verbosity.level := by
  obtain ⟨parts, hparts⟩ := List.head?_eq_some_iff.1 hlogger
  rw [threshold, hparts, List.reverse_cons]
  -- The loggers on the way up have no level of their own, until that of the library is reached.
  induction parts.reverse with
  | nil =>
    rw [List.nil_append, levelAt, Logging.setUp]
    simp
  | cons part above ih =>
    have hown : (l.setUp config).own.get? (part :: (above ++ [Logger.root])).reverse = none := by
      have hne : above.reverse ++ [part] ≠ [] := by simp
      obtain ⟨first, rest, hrest⟩ := List.exists_cons_of_ne_nil hne
      rw [List.reverse_cons, List.reverse_append, List.reverse_singleton, List.singleton_append,
        List.cons_append, hrest]
      exact h.setUp config first rest
    rw [List.cons_append, levelAt, hown]
    exact ih

/-- **Once it is set up, a trace keeps the records from the level of the verbosity on.** -/
theorem IsBare.kept_setUp {l : Logging} (h : l.IsBare) (config : Option Config) (trace : Trace) :
    (l.setUp config).kept trace =
      LogRecord.kept (config.getD {}).verbosity.level (logOf trace) := by
  rw [LogRecord.kept, logOf, List.filter_filterMap, kept]
  congr 1
  funext e
  rw [h.threshold_setUp config e.isOfLibrary_logger]

end Logging
end Embargo
