import Embargo.Logging
import Embargo.Proofs.Scoping
import Embargo.Proofs.Settings

/-!
# Settings of diagnostics

Three settings say how much is told and how: the verbosity, whether classes that were skipped are
summed up, and how long the summary may be. They have no influence on what is forbidden, nor on what
a registry answers. This is a statement about two sessions that differ in these settings alone and
go through the same requests, calls that fill a registry and questions in any order.

| part of an exchange | in the two sessions |
|---|---|
| the reply, or the failure | the same |
| the registry afterwards | the same |
| the log | the same, but for a summary behind a catalog that was read without failure |

* `Request`, `Reply`, `Session.transcript` – what a registry is asked to do, and what it replies.
* `Config.DiffersInDiagnostics` – the hypothesis, `Exchange.DiffersInSummary` – the conclusion about
  one exchange.
* `Session.missing_readUser` – texts of the user skip no class silently, so that only catalogs have
  a summary. The invariant is that their policy is never the silent one.
* `Session.diagnostics_inert` – the main statement, with what the verbosity does: where logging is
  set up for some settings, all loggers of the library go by their verbosity, and so of any log the
  records from its level on are kept.
-/

namespace Embargo

/-! ### Requests -/

/-- What a registry is asked. -/
inductive Question where
  /-- The report of a type, given as a text. -/
  | typeText (t : Text)
  /-- The report of a type. -/
  | type (t : Jvm.ReturnType)
  /-- The report of a method, given as a text. -/
  | methodText (className t : Text)
  /-- The report of a method. -/
  | method (className : Text) (m : Jvm.Method)
  /-- The report of a field. -/
  | field (className name : Text)
  /-- The patterns. -/
  | patterns
  /-- Whether nothing is forbidden. -/
  | isEmpty
  /-- Whether internal classes of the runtime are forbidden. -/
  | nonPortable
  /-- How much is forbidden. -/
  | size
  /-- How messages show it. -/
  | text

/-- What a registry is asked to do. -/
inductive Request where
  /-- It is filled. -/
  | fill (call : Call)
  /-- It is asked a question. -/
  | ask (question : Question)

/-- What a registry replies. -/
inductive Reply where
  /-- A call has ended, perhaps with a failure. -/
  | ended (failure : Option LoadError)
  /-- A report, or why the question cannot be read. -/
  | report (answer : Except SyntaxError (Option Text))
  /-- Patterns. -/
  | patterns (patterns : List ClassPattern)
  /-- Yes or no. -/
  | verdict (b : Bool)
  /-- A number. -/
  | number (n : Nat)
  /-- A text. -/
  | text (t : Text)

/-- The reply to a question. -/
def Index.reply (index : Index) : Question → Reply
  | .typeText t => .report (index.checkTypeText t)
  | .type t => .report (.ok (index.checkType t))
  | .methodText className t => .report (index.checkMethodText className t)
  | .method className m => .report (.ok (index.checkMethod className m))
  | .field className name => .report (.ok (index.checkField className name))
  | .patterns => .patterns index.patterns
  | .isEmpty => .verdict index.isEmpty
  | .nonPortable => .verdict index.nonPortable
  | .size => .number index.size
  | .text => .text index.text

/-- A request, and what it leads to. -/
structure Exchange where
  /-- The request. -/
  request : Request
  /-- The reply. -/
  reply : Reply
  /-- The registry afterwards. -/
  registry : Registry
  /-- What was logged. -/
  log : List LogRecord

/-- A catalog was added, and read without failure. -/
def Exchange.AddsCatalog (e : Exchange) : Prop :=
  (∃ name target, e.request = .fill (.catalog name target)) ∧ e.reply = .ended none

namespace Session

/-- What a request to a registry leads to. -/
def exchange (s : Session) (r : Registry) : Request → Exchange
  | .fill call =>
    let outcome := s.perform r call
    ⟨.fill call, .ended outcome.failure, outcome.registry, logOf outcome.trace⟩
  | .ask question => ⟨.ask question, r.index.reply question, r, []⟩

/-- What requests lead to, one after the other. -/
def transcript (s : Session) : Registry → List Request → List Exchange
  | _, [] => []
  | r, request :: later =>
    let e := s.exchange r request
    e :: s.transcript e.registry later

end Session

/-! ### Summaries -/

/-- **A summary is two warnings, or nothing.** -/
theorem Config.logOf_summaryOf (c : Config) (missing : List Text) :
    logOf (c.summaryOf missing) = [] ∨ ∃ announcement line,
      logOf (c.summaryOf missing) = [⟨.warning, announcement⟩, ⟨.warning, line⟩] := by
  unfold Config.summaryOf
  split
  · exact .inl rfl
  · exact .inr ⟨_, _, rfl⟩

/-- Settings sum the same reading up in their own ways, and change nothing else about it. -/
theorem Config.outcomeOf_congr (c c' : Config) (a : Reading Unit) :
    (c'.outcomeOf a).failure = (c.outcomeOf a).failure ∧
      (c'.outcomeOf a).registry = (c.outcomeOf a).registry ∧
      ∃ t missing, (c.outcomeOf a).trace = t ++ c.summaryOf missing ∧
        (c'.outcomeOf a).trace = t ++ c'.summaryOf missing ∧
        (missing ≠ [] → a.2.missing ≠ [] ∧ (c.outcomeOf a).failure = none) := by
  obtain ⟨e | u, p⟩ := a
  · refine ⟨rfl, rfl, p.trace, [], ?_, ?_, absurd rfl⟩
    all_goals exact (List.append_nil p.trace).symm
  · exact ⟨rfl, rfl, p.trace, p.missing, rfl, rfl, fun hmissing => ⟨hmissing, rfl⟩⟩

section User

variable (expand : Text → Progress → Reading Unit)

/-- **A line of the user skips no class silently**, and the policy stays one that does not. -/
theorem readLine_user (line : Text) {scope : Scope} (p : Progress)
    (hpolicy : scope.policy ≠ .silent) :
    (readLine .user expand line scope p).2.missing = p.missing ∧
      ∀ scope', (readLine .user expand line scope p).1 = .ok scope' → scope'.policy ≠ .silent := by
  have hrecord (r : Record) : (readRecord scope.policy r p).2.missing = p.missing := by
    rw [readRecord_missing, if_neg]
    unfold Policy.defers
    split <;> simp [Policy.collectsMissing, hpolicy]
  generalize hres : readLine .user expand line scope p = res
  have hreading := hres ▸ readLine_reading .user expand line scope p
  cases hreading with
  | skipped hc => exact ⟨rfl, fun _ h => Except.ok.inj h ▸ hpolicy⟩
  | malformed hc hl => exact ⟨rfl, nofun⟩
  | record hc hl hr =>
    exact ⟨congrArg Prod.snd hr ▸ hrecord _, fun _ h => Except.ok.inj h ▸ hpolicy⟩
  | recordFailed hc hl hr => exact ⟨congrArg Prod.snd hr ▸ hrecord _, nofun⟩
  | includeRefused hc hl ho => exact ⟨rfl, nofun⟩
  | included hc hl ho hx => cases ho
  | includeFailed hc hl ho hx => cases ho
  | message hc hl => exact ⟨rfl, fun _ h => Except.ok.inj h ▸ hpolicy⟩
  | lenient hc hl => exact ⟨rfl, fun _ h => Except.ok.inj h ▸ nofun⟩

theorem missing_readLines_user {lines : List Text} {scope : Scope} {p : Progress}
    (hpolicy : scope.policy ≠ .silent) :
    (readLines .user expand lines scope p).2.missing = p.missing := by
  induction lines generalizing scope p with
  | nil => rfl
  | cons line lines ih =>
    obtain ⟨hmissing, hscope⟩ := readLine_user expand line p hpolicy
    rw [readLines_cons_eq]
    generalize readLine .user expand line scope p = a at hmissing hscope ⊢
    obtain ⟨e | scope', q⟩ := a
    · exact hmissing
    · exact (ih (hscope scope' rfl)).trans hmissing

end User

theorem Config.firstPolicy_ne_silent (c : Config) : c.firstPolicy ≠ .silent := by
  unfold firstPolicy
  split <;> nofun

namespace Session

variable {s : Session}

/-- Texts of the user skip no class silently. -/
theorem missing_readUser (event : Event) (name : Text) (feed : Feed) (r : Registry) :
    (s.readUser event name feed r).2.missing = [] := by
  rw [readUser, readFeed_progress]
  exact missing_readLines_user _ s.config.firstPolicy_ne_silent

/-- **Only catalogs skip classes silently.** -/
theorem exists_catalog_of_missing {r : Registry} {call : Call}
    (h : (s.readCall r call).2.missing ≠ []) : ∃ name target, call = .catalog name target := by
  cases call with
  | catalog name target => exact ⟨name, target, rfl⟩
  | text t => exact absurd (missing_readUser _ _ _ r) h
  | stream name feed => exact absurd (missing_readUser _ _ _ r) h
  | file path =>
    unfold readCall at h
    dsimp only at h
    split at h
    · exact absurd (missing_readUser _ _ _ r) h
    all_goals exact absurd rfl h

end Session

/-! ### Two sessions -/

/-- **Two settings differ in diagnostics only**: in the verbosity, and in whether and how skipped
classes are summed up. -/
structure Config.DiffersInDiagnostics (c c' : Config) : Prop where
  /-- Both let pass what cannot be resolved, or neither does. -/
  failOnUnresolvable : c'.failOnUnresolvable = c.failOnUnresolvable
  /-- The target versions are the same. -/
  jdkTargetVersion : c'.jdkTargetVersion = c.jdkTargetVersion
  /-- The directories are the same. -/
  catalogDirs : c'.catalogDirs = c.catalogDirs

/-- **Two exchanges differ in the summary only**, which each setting writes in its own way, of the
same classes, behind a catalog that was read without failure. -/
structure Exchange.DiffersInSummary (c c' : Config) (e e' : Exchange) : Prop where
  /-- The requests are the same. -/
  request : e'.request = e.request
  /-- The replies are the same. -/
  reply : e'.reply = e.reply
  /-- The registries are the same. -/
  registry : e'.registry = e.registry
  /-- The logs are the same but for their ends. -/
  log : ∃ log missing, e.log = log ++ logOf (c.summaryOf missing) ∧
    e'.log = log ++ logOf (c'.summaryOf missing) ∧ (missing ≠ [] → e.AddsCatalog)

namespace Config.DiffersInDiagnostics

variable {c c' : Config} (h : c.DiffersInDiagnostics c')

include h

theorem firstScope_eq : c'.firstScope = c.firstScope := by
  unfold firstScope firstPolicy
  rw [h.failOnUnresolvable]

/-- The settings ask for the same catalogs. -/
theorem store_eq : c'.store = c.store := by
  unfold store catalogRoots
  rw [h.catalogDirs]

end Config.DiffersInDiagnostics

namespace Session

variable {s : Session} {c : Config} (h : s.config.DiffersInDiagnostics c)

include h

/-- **One request, two sessions**: they differ in the summary. -/
theorem exchange_differsInSummary (r : Registry) (request : Request) :
    (s.exchange r request).DiffersInSummary s.config c ((s.withConfig c).exchange r request) := by
  cases request with
  | ask question => exact ⟨rfl, rfl, rfl, [], [], rfl, rfl, absurd rfl⟩
  | fill call =>
    have heq := s.perform_eq r call
    have heq' : (s.withConfig c).perform r call = c.outcomeOf (s.readCall r call) := by
      rw [perform_eq, readCall_withConfig h.firstScope_eq h.jdkTargetVersion]
      rfl
    obtain ⟨hfailure, hregistry, t, missing, ht, ht', hmissing⟩ :=
      s.config.outcomeOf_congr c (s.readCall r call)
    rw [← heq, ← heq'] at hfailure hregistry
    rw [← heq] at ht hmissing
    rw [← heq'] at ht'
    refine ⟨rfl, congrArg Reply.ended hfailure, hregistry, logOf t, missing, ?_, ?_, fun hne => ?_⟩
    · exact (congrArg logOf ht).trans (logOf_append _ _)
    · exact (congrArg logOf ht').trans (logOf_append _ _)
    · obtain ⟨hskipped, hnone⟩ := hmissing hne
      obtain ⟨name, target, rfl⟩ := exists_catalog_of_missing hskipped
      exact ⟨⟨name, target, rfl⟩, congrArg Reply.ended hnone⟩

/-- **Any number of requests**: since the registries stay the same, so do the replies. -/
theorem transcript_differsInSummary (r : Registry) (requests : List Request) :
    List.Forall₂ (Exchange.DiffersInSummary s.config c) (s.transcript r requests)
      ((s.withConfig c).transcript r requests) := by
  induction requests generalizing r with
  | nil => exact .nil
  | cons request later ih =>
    have hfirst := exchange_differsInSummary h r request
    rw [transcript, transcript]
    refine .cons hfirst ?_
    rw [hfirst.registry]
    exact ih _

end Session

/-! ### Verbosity -/

/-- A record is kept as often as it was logged, or not at all. -/
theorem LogRecord.count_kept (threshold : Level) (records : List LogRecord) (record : LogRecord) :
    (kept threshold records).count record =
      if threshold.number ≤ record.level.number then records.count record else 0 := by
  unfold kept
  split
  · next hle => exact List.count_filter (decide_eq_true hle)
  · next hlt =>
    refine List.count_eq_zero_of_not_mem fun hmem => hlt ?_
    exact of_decide_eq_true (List.mem_filter.1 hmem).2

namespace Session

/-- **Settings of diagnostics are of no account.** Two sessions that differ in them alone work with
the same store, if it is that of the settings, and lead any requests to the same replies and to the
same registries, while their logs differ in summaries only, of two warnings each. Where logging is
set up for some settings, the loggers of the library go by their verbosity, whatever was set up
before, unless one of them has been given a level of its own; so of what is logged those records are
kept, in order, that reach the level of the verbosity, and no others. -/
theorem diagnostics_inert (s : Session) (c : Config) (h : s.config.DiffersInDiagnostics c) :
    c.store = s.config.store ∧
    (∀ r requests, List.Forall₂ (Exchange.DiffersInSummary s.config c) (s.transcript r requests)
      ((s.withConfig c).transcript r requests)) ∧
    (∀ (c' : Config) missing, logOf (c'.summaryOf missing) = [] ∨ ∃ announcement line,
      logOf (c'.summaryOf missing) = [⟨.warning, announcement⟩, ⟨.warning, line⟩]) ∧
    (∀ (l : Logging) (config : Option Config), l.IsBare →
      (∀ logger, Logger.IsOfLibrary logger →
        (l.setUp config).threshold logger = (config.getD {}).verbosity.level) ∧
      ∀ trace, (l.setUp config).kept trace =
        LogRecord.kept (config.getD {}).verbosity.level (logOf trace)) ∧
    ∀ (verbosity : Verbosity) log, (LogRecord.kept verbosity.level log).Sublist log ∧
      ∀ record, (LogRecord.kept verbosity.level log).count record =
        if verbosity.level.number ≤ record.level.number then log.count record else 0 :=
  ⟨h.store_eq, transcript_differsInSummary h, Config.logOf_summaryOf,
    fun _ config hl => ⟨fun _ => hl.threshold_setUp config, hl.kept_setUp config⟩,
    fun _ log => ⟨List.filter_sublist, LogRecord.count_kept _ log⟩⟩

/-- A catalog with missing classes, added and asked about, with their summary and without it. Of the
log of the call, set up for the quiet settings, the errors are kept. -/
theorem diagnostics_inert_nested :
    let s := nestedSession
    let c : Config := { logMissingSignatures := .bool false, verbosity := .quiet }
    let r := Registry.ofClasses .empty
    let call := Call.catalog "w".toText none
    let requests := [.fill call, .ask (.typeText "c.C".toText)]
    s.config.DiffersInDiagnostics c ∧
    List.Forall₂ (Exchange.DiffersInSummary s.config c) (s.transcript r requests)
      ((s.withConfig c).transcript r requests) ∧
    logOf (c.summaryOf (s.perform r call).missing) ≠
      logOf (s.config.summaryOf (s.perform r call).missing) ∧
    (Logging.initial.setUp (some c)).kept (s.perform r call).trace =
      LogRecord.kept .error (logOf (s.perform r call).trace) := by
  intro s c r call requests
  have hdiffers : s.config.DiffersInDiagnostics c := ⟨rfl, rfl, rfl⟩
  have hread : s.readWithin (fun _ _ _ p => (.ok (), p)) 4 [] = s.readCatalog [] :=
    s.readWithin_eq _ (by decide)
  have hmissing : (s.perform r call).missing = ["b.B".toText, "c.C".toText] := by
    change (s.config.outcomeOf (s.readCatalog [] "w".toText none r.start)).missing = _
    rw [← hread]
    decide +kernel
  obtain ⟨-, htranscript, -, hsetUp, -⟩ := diagnostics_inert s c hdiffers
  obtain ⟨-, hkept⟩ := hsetUp .initial (some c) Logging.isBare_initial
  refine ⟨hdiffers, htranscript r requests, ?_, hkept _⟩
  rw [hmissing]
  decide

end Session
end Embargo
