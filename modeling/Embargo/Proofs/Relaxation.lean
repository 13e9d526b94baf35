import Embargo.Proofs.Growth
import Embargo.Proofs.Respelling
import Embargo.Proofs.Settings

/-!
# A more lenient session

One setting says whether a record that cannot be resolved ends the reading of its text. This file
compares a strict session with a lenient one, which passes over such records with a warning, and is
the same otherwise. Directives change the policy of a text afterwards, in the same way in both, and
every catalog begins with the first policy again.

Up to the first record that the strict session refuses, the two do and tell the same. There the
strict session stops, at any depth, while the lenient one goes on, and what it adds from there on
takes nothing away. This is the relation `Relaxed` between what the two read.

| reader | the relation |
|---|---|
| a record | `readRecord_relaxed` |
| a line, lines, a source of text | `readLine_relaxed`, `readLines_relaxed`, `readFeed_relaxed` |
| a catalog, at any depth | `Session.carries_relaxed` |
| a call | `Session.readCall_relaxed` |

`Session.relaxing_conservative` is the main statement.
-/

namespace Embargo

/-! ### The relation -/

/-- The policies are the same, or the first refuses where the second warns. -/
def Policy.RelaxesTo (policy policy' : Policy) : Prop :=
  policy' = policy ∨ policy = .fail ∧ policy' = .warn

/-- The scopes are the same, but for policies of which the first may refuse where the second
warns. -/
structure Scope.RelaxesTo (scope scope' : Scope) : Prop where
  /-- The policies. -/
  policy : scope.policy.RelaxesTo scope'.policy
  /-- The default messages are the same. -/
  message : scope'.message = scope.message

/-- The states are the same, and so are the logs. The traces are not: they tell of the policies. -/
structure SameLog (p q : Progress) : Prop extends SameState p q where
  /-- The same was logged. -/
  log : logOf q.trace = logOf p.trace

/-- **The second reading is a relaxed one**: it comes to what the first one comes to, or the first
one refuses a record, and the second one keeps what the first one has. -/
inductive Relaxed {α : Type} (V : α → α → Prop) (a b : Reading α) : Prop where
  /-- Both come to the same. -/
  | alike (hresult : Corresponds V a.1 b.1) (hstate : SameLog a.2 b.2)
  /-- The first one refuses a record. -/
  | passed {reason signature : Text} (hrefused : a.1 = .error (.unresolvable reason signature))
      (hgrows : a.2.index.Grows b.2.index)

theorem SameLog.of_log {index : Index} {classes : Universe} {missing : List Text} {t t' : Trace}
    (h : logOf t' = logOf t) : SameLog ⟨index, classes, missing, t⟩ ⟨index, classes, missing, t'⟩ :=
  ⟨⟨rfl, rfl, rfl⟩, h⟩

/-- What is told on either side may differ in what is not logged. -/
theorem SameLog.note {p q : Progress} (h : SameLog p q) {t t' : Trace} (ht : logOf t' = logOf t) :
    SameLog (p.note t) (q.note t') where
  toSameState := ⟨h.index, h.classes, h.missing⟩
  log := by rw [Progress.trace_note, Progress.trace_note, logOf_append, logOf_append, h.log, ht]

namespace Relaxed

variable {α β : Type} {V : α → α → Prop} {W : β → β → Prop} {a b : Reading α}

theorem pure {p q : Progress} (h : SameLog p q) (result : Except LoadError α) :
    Relaxed Eq (result, p) (result, q) := by
  refine .alike ?_ h
  cases result with
  | error e => exact .error e
  | ok x => exact .ok rfl

/-- What is relaxed goes on to be relaxed, if the second reading only adds to the index. -/
theorem andThen (h : Relaxed V a b) {next next' : α → Progress → Reading β}
    (hnext : ∀ x y, V x y → ∀ p q, SameLog p q → Relaxed W (next x p) (next' y q))
    (hgrows : ∀ (y : α) (q : Progress), q.index.Grows (next' y q).2.index) :
    Relaxed W (a.andThen next) (b.andThen next') := by
  obtain ⟨result, p⟩ := a
  obtain ⟨result', q⟩ := b
  cases h with
  | alike hresult hstate =>
    cases hresult with
    | error e => exact .alike (.error e) hstate
    | ok hxy => exact hnext _ _ hxy p q hstate
  | passed hrefused hpq =>
    obtain rfl : result = _ := hrefused
    refine .passed rfl ?_
    cases result' with
    | error e => exact hpq
    | ok y => exact hpq.trans (hgrows y q)

theorem finish {a b : Reading Scope} {V : Scope → Scope → Prop} (h : Relaxed V a b) (name : Text)
    (feed : Feed) : Relaxed Eq (feed.finish name a) (feed.finish name b) := by
  obtain ⟨result, p⟩ := a
  obtain ⟨result', q⟩ := b
  cases h with
  | alike hresult hstate =>
    cases hresult with
    | error e => exact .pure hstate _
    | ok hxy => exact .pure hstate _
  | passed hrefused hgrows =>
    obtain rfl : result = _ := hrefused
    exact .passed rfl hgrows

end Relaxed

/-! ### Lines -/

/-- A gap is handled alike, unless it is refused. -/
theorem Policy.handle_relaxed {policy policy' : Policy} (hpolicy : policy.RelaxesTo policy')
    (r : Record) (gap : Gap) {p q : Progress} (h : SameLog p q) :
    Relaxed Eq (policy.handle r gap p) (policy'.handle r gap q) := by
  rcases hpolicy with rfl | ⟨rfl, rfl⟩
  · unfold handle
    split
    · have hdeferred : SameLog { p with missing := Missing.add p.missing r.className }
          { q with missing := Missing.add q.missing r.className } :=
        { h with missing := congrArg (Missing.add · r.className) h.missing }
      exact .pure (hdeferred.note rfl) _
    · exact .pure (h.note rfl) _
  · refine .passed rfl ?_
    change p.index.Grows q.index
    rw [h.index]
    exact .refl _

/-- **A record is read alike, unless it is refused.** -/
theorem readRecord_relaxed {policy policy' : Policy} (hpolicy : policy.RelaxesTo policy')
    (r : Record) {p q : Progress} (h : SameLog p q) :
    Relaxed Eq (readRecord policy r p) (readRecord policy' r q) := by
  have hconsidered : SameLog (p.note [.considered r policy]) (q.note [.considered r policy']) :=
    h.note rfl
  unfold readRecord
  generalize p.note [.considered r policy] = p at hconsidered ⊢
  generalize q.note [.considered r policy'] = q at hconsidered ⊢
  obtain ⟨index, classes, missing, t⟩ := p
  obtain ⟨index', classes', missing', t'⟩ := q
  obtain ⟨⟨rfl, rfl, rfl⟩, hlog⟩ := hconsidered
  dsimp only
  split
  · exact .pure ((SameLog.of_log hlog).note rfl) _
  · have hlooked : logOf (t' ++ (classes'.lookUp r.className).trace r.className) =
        logOf (t ++ (classes'.lookUp r.className).trace r.className) := by
      rw [logOf_append, logOf_append]
      exact congrArg (· ++ _) hlog
    split
    · exact .pure ((SameLog.of_log hlooked).note rfl) _
    · exact Policy.handle_relaxed hpolicy r _ (.of_log hlooked)

theorem linesRespect_grows : LinesRespect fun p q => p.index.Grows q.index where
  refl := .refl _
  trans := .trans
  record := fun policy r p => by
    rw [readRecord_index]
    exact p.index.grows_accept p.classes r
  directive := fun _ _ => .refl _

section Lines

variable {origin : Origin} {expand expand' : Text → Progress → Reading Unit}
  (hexpand : ∀ name p q, SameLog p q → Relaxed Eq (expand name p) (expand' name q))

include hexpand

/-- **A line is read alike, unless a record is refused.** -/
theorem readLine_relaxed (line : Text) {scope scope' : Scope} (hscope : scope.RelaxesTo scope')
    {p q : Progress} (h : SameLog p q) : Relaxed Scope.RelaxesTo
      (readLine origin expand line scope p) (readLine origin expand' line scope' q) := by
  have hstay {a b : Reading Unit} (hab : Relaxed Eq a b) : Relaxed Scope.RelaxesTo
      (a.andThen fun _ p => (.ok scope, p)) (b.andThen fun _ p => (.ok scope', p)) :=
    hab.andThen (fun _ _ _ _ _ h => .alike (.ok hscope) h) fun _ _ => .refl _
  have htold : SameLog (p.note [.directive (Text.trim line)])
      (q.note [.directive (Text.trim line)]) := h.note rfl
  cases hc : isContent (Text.trim line) with
  | false =>
    rw [readLine_of_blank hc, readLine_of_blank hc]
    exact .alike (.ok hscope) h
  | true =>
    cases hl : Line.parse (Text.trim line) scope.message with
    | error e =>
      have hl' := hscope.message ▸ hl
      simp only [readLine, hc, hl, hl']
      exact .alike (.error _) h
    | ok said =>
      have hl' := hscope.message ▸ hl
      cases said with
      | record r =>
        rw [readLine_eq_of_record hc hl, readLine_eq_of_record hc hl']
        exact hstay (readRecord_relaxed hscope.policy r h)
      | directive d =>
        rw [readLine_eq_of_directive hc hl, readLine_eq_of_directive hc hl']
        cases d with
        | defaultMessage message => exact .alike (.ok ⟨hscope.policy, rfl⟩) htold
        | ignoreUnresolvable => exact .alike (.ok ⟨.inl rfl, hscope.message⟩) htold
        | includeCatalog name =>
          cases origin with
          | user => exact .alike (.error _) htold
          | catalog =>
            rw [readDirective_eq_of_include, readDirective_eq_of_include]
            exact hstay (hexpand name _ _ htold)

variable (hgrows : ∀ name (p : Progress), p.index.Grows (expand' name p).2.index)

include hgrows

/-- **Lines are read alike, unless a record is refused.** -/
theorem readLines_relaxed (lines : List Text) {scope scope' : Scope}
    (hscope : scope.RelaxesTo scope') {p q : Progress} (h : SameLog p q) :
    Relaxed Scope.RelaxesTo (readLines origin expand lines scope p)
      (readLines origin expand' lines scope' q) := by
  induction lines generalizing scope scope' p q with
  | nil => exact .alike (.ok hscope) h
  | cons line lines ih =>
    rw [readLines_cons_eq, readLines_cons_eq]
    exact (readLine_relaxed hexpand line hscope h).andThen (fun _ _ hscope _ _ h => ih hscope h)
      fun scope q => linesRespect_grows.readLines hgrows lines scope q

theorem readFeed_relaxed {c c' : Config} (hfirst : c.firstPolicy.RelaxesTo c'.firstPolicy)
    (name : Text) (feed : Feed) {p q : Progress} (h : SameLog p q) :
    Relaxed Eq (readFeed c origin expand name feed p) (readFeed c' origin expand' name feed q) := by
  have hscope : c.firstScope.RelaxesTo c'.firstScope := ⟨hfirst, rfl⟩
  rw [readFeed_eq_finish, readFeed_eq_finish]
  exact (readLines_relaxed hexpand hgrows feed.lines hscope h).finish name feed

end Lines

/-! ### Catalogs and calls -/

namespace Session

variable {s : Session} {c : Config} (hfirst : s.config.firstPolicy.RelaxesTo c.firstPolicy)

include hfirst

/-- **Catalogs are read alike, unless a record is refused.** -/
theorem carries_relaxed : s.Carries c SameLog (Relaxed Eq) where
  pure := .pure
  note := fun h _ => h.note rfl
  close := fun h t => by
    cases h with
    | alike hresult hstate => exact .alike hresult (hstate.note rfl)
    | passed hrefused hgrows => exact .passed hrefused hgrows
  nonPortable := fun {p q} h _ => by
    have hmarked : SameLog { p with index := p.index.forbidNonPortable }
        { q with index := q.index.forbidNonPortable } :=
      ⟨⟨congrArg Index.forbidNonPortable h.index, h.classes, h.missing⟩, h.log⟩
    exact hmarked.note rfl
  lines := fun {chain} hexpand name feed _ _ h => readFeed_relaxed hexpand
    (fun name p => (s.withConfig c).respects_grows.readCatalog chain name none p) hfirst name feed h

/-- **A call is read alike, unless a record is refused.** -/
theorem readCall_relaxed (htarget : c.jdkTargetVersion = s.config.jdkTargetVersion) (r : Registry)
    (call : Call) : Relaxed Eq (s.readCall r call) ((s.withConfig c).readCall r call) := by
  have hstart : SameLog r.start r.start := .of_log rfl
  have huser (event : Event) (name : Text) (feed : Feed) : Relaxed Eq
      (s.readUser event name feed r) ((s.withConfig c).readUser event name feed r) :=
    readFeed_relaxed (fun _ _ _ h => .pure h _) (fun _ _ => .refl _) hfirst name feed
      (hstart.note rfl)
  cases call with
  | catalog name target =>
    rw [readCall, readCall, targetOf_withConfig htarget]
    exact (carries_relaxed hfirst).readCatalog hstart [] name _
  | text t => exact huser _ _ _
  | stream name feed => exact huser _ _ _
  | file path =>
    unfold readCall
    dsimp only [withConfig]
    split
    · exact huser _ _ _
    all_goals exact .pure hstart _

end Session

/-- The settings with another value for whether a record that cannot be resolved is refused. -/
def Config.withFailure (c : Config) (v : Value) : Config := { c with failOnUnresolvable := v }

theorem Config.relaxesTo_withFailure (c : Config) {v : Value} (h : v.isTrue = false) :
    c.firstPolicy.RelaxesTo (c.withFailure v).firstPolicy := by
  have hwarn : (c.withFailure v).firstPolicy = .warn := if_neg (by simpa [withFailure] using h)
  rw [hwarn]
  unfold firstPolicy
  split
  · exact .inr ⟨rfl, rfl⟩
  · exact .inl rfl

namespace Session

/-- The session with another value for whether a record that cannot be resolved is refused. -/
def withFailure (s : Session) (v : Value) : Session := s.withConfig (s.config.withFailure v)

section Lenient

variable {s : Session} {v : Value} (hv : v.isTrue = false) (r : Registry)

include hv

theorem relaxed_withFailure (call : Call) :
    Relaxed Eq (s.readCall r call) ((s.withFailure v).readCall r call) :=
  readCall_relaxed (s.config.relaxesTo_withFailure hv) rfl r call

/-- **What a call keeps the lenient one keeps**, whether or not it refuses a record. -/
theorem grows_withFailure (call : Call) : (s.perform r call).registry.index.Grows
    ((s.withFailure v).perform r call).registry.index := by
  rw [perform_eq, perform_eq, Config.registry_outcomeOf, Config.registry_outcomeOf]
  cases relaxed_withFailure hv r call (s := s) with
  | alike hresult hstate =>
    change (s.readCall r call).2.index.Grows ((s.withFailure v).readCall r call).2.index
    rw [hstate.index]
    exact .refl _
  | passed hrefused hgrows => exact hgrows

/-- **A call that goes through refuses nothing**, so the lenient session makes the same of it. -/
theorem sameEnd_withFailure {call : Call} (h : (s.perform r call).failure = none) :
    (s.perform r call).SameEnd ((s.withFailure v).perform r call) ∧
      logOf ((s.withFailure v).perform r call).trace = logOf (s.perform r call).trace := by
  rw [perform_eq] at h
  have hok := Config.failure_outcomeOf_eq_none.1 h
  rw [perform_eq, perform_eq]
  have hrelaxed := relaxed_withFailure hv r call (s := s)
  generalize s.readCall r call = a at hok hrelaxed
  generalize (s.withFailure v).readCall r call = b at hrelaxed
  obtain ⟨result, p⟩ := a
  obtain ⟨result', q⟩ := b
  obtain rfl : result = _ := hok
  cases hrelaxed with
  | alike hresult hstate =>
    obtain rfl : result' = .ok () := by cases hresult; rfl
    refine ⟨⟨rfl, congrArg₂ Registry.mk hstate.index hstate.classes, hstate.missing⟩, ?_⟩
    -- The summaries are the same, since the same classes were skipped.
    change logOf (q.trace ++ s.config.summaryOf q.missing) =
      logOf (p.trace ++ s.config.summaryOf p.missing)
    rw [logOf_append, logOf_append, hstate.log, hstate.missing]
  | passed hrefused hgrows => cases hrefused

/-- **Any number of calls that go through** refuse nothing. -/
theorem outcomes_withFailure {calls : List Call} (h : ∀ o ∈ s.outcomes r calls, o.failure = none) :
    List.Forall₂ (fun o o' => o.SameEnd o' ∧ logOf o'.trace = logOf o.trace) (s.outcomes r calls)
      ((s.withFailure v).outcomes r calls) := by
  induction calls generalizing r with
  | nil => exact .nil
  | cons call calls ih =>
    obtain ⟨hfirst, hlater⟩ := List.forall_mem_cons.1 h
    have hsame := sameEnd_withFailure hv r hfirst
    rw [outcomes, outcomes]
    refine .cons hsame ?_
    rw [hsame.1.registry]
    exact ih _ hlater

end Lenient

/-- **To let pass what cannot be resolved is conservative.** If all calls of a session go through,
then those of the session that lets pass what cannot be resolved go through as well, and lead to the
same registries, with the same logs. And everything that a call keeps, also one that refuses a
record, is kept by the more lenient call. -/
theorem relaxing_conservative (s : Session) (v : Value) (hv : v.isTrue = false) (r : Registry) :
    (∀ calls, (∀ o ∈ s.outcomes r calls, o.failure = none) →
      List.Forall₂ (fun o o' => o.SameEnd o' ∧ logOf o'.trace = logOf o.trace)
        (s.outcomes r calls) ((s.withFailure v).outcomes r calls)) ∧
    ∀ call, (s.perform r call).registry.index.Grows
      ((s.withFailure v).perform r call).registry.index :=
  ⟨fun _ => outcomes_withFailure hv r, grows_withFailure hv r⟩

/-- A catalog whose gaps are silent by its own directives, and a text that is refused in its second
line, read by a strict session and by a lenient one. -/
theorem relaxing_conservative_nested :
    let s := nestedSession
    let v := Value.bool false
    let r := Registry.ofClasses .empty
    let calls := [Call.catalog "w".toText none]
    let call := Call.text "a.*\nc.C\nb.*".toText
    let index := (s.perform r call).registry.index
    let index' := ((s.withFailure v).perform r call).registry.index
    v.isTrue = false ∧ (∀ o ∈ s.outcomes r calls, o.failure = none) ∧
    List.Forall₂ (fun o o' => o.SameEnd o' ∧ logOf o'.trace = logOf o.trace)
      (s.outcomes r calls) ((s.withFailure v).outcomes r calls) ∧
    (∃ reason signature, (s.perform r call).failure = some (.unresolvable reason signature)) ∧
    index.Grows index' ∧ index.size < index'.size := by
  intro s v r calls call index index'
  have hread : s.readWithin (fun _ _ _ p => (.ok (), p)) 4 [] = s.readCatalog [] :=
    s.readWithin_eq _ (by decide)
  have hcalls : ∀ o ∈ s.outcomes r calls, o.failure = none := by
    refine List.forall_mem_singleton.2 ?_
    change (s.config.outcomeOf (s.readCatalog [] "w".toText none r.start)).failure = none
    rw [← hread]
    decide +kernel
  have hrefused : (s.perform r call).failure =
      some (.unresolvable (Failure.classNotFoundMessage "c.C".toText) "c.C".toText) := by
    decide +kernel
  obtain ⟨hall, hone⟩ := relaxing_conservative s v rfl r
  exact ⟨rfl, hcalls, hall calls hcalls, ⟨_, _, hrefused⟩, hone call, by decide +kernel⟩

end Session
end Embargo
