import Embargo.Proofs.InProgress

/-!
# The scope of an inclusion

Each catalog is read in a scope of its own – default message and policy about gaps – while index,
universe and missing classes go on from catalog to catalog. So an inclusion is as good as a call:
what the included catalog leaves depends on nothing that the including one has set.

* `Ahead` – the relation between a run and another one that starts with no missing classes: they do
  the same, and the first has skipped some classes before.
* `Session.perform_of_inside` – what an inclusion and a call for the same catalog leave.
* `Session.include_scoping` – the lines before an inclusion say how the lines after it are read, and
  how the included catalog is read is said by the settings alone. A catalog with nothing but
  inclusions is as good as the calls for what it includes, one after the other.
-/

namespace Embargo

/-! ### Missing classes -/

theorem Missing.mem_add {names : List Text} {name c : Text} :
    c ∈ Missing.add names name ↔ c = name ∨ c ∈ names := Text.mem_insertOnce

/-- The record is skipped silently: its class is missing, and kept for the summary. -/
def Policy.defers (policy : Policy) (u : Universe) (r : Record) : Bool :=
  match r.resolve (u.lookUp r.className) with
  | .ok _ => false
  | .error gap => !r.isPattern && (policy.collectsMissing && gap.isClass)

theorem Policy.handle_missing (policy : Policy) (r : Record) (gap : Gap) (p : Progress) :
    (policy.handle r gap p).2.missing =
      if policy.collectsMissing && gap.isClass then Missing.add p.missing r.className
      else p.missing := by
  unfold Policy.handle
  split <;> rfl

/-- Reading a record skips its class, or no class. -/
theorem readRecord_missing (policy : Policy) (r : Record) (p : Progress) :
    (readRecord policy r p).2.missing =
      if policy.defers p.classes r then Missing.add p.missing r.className else p.missing := by
  unfold readRecord Policy.defers
  dsimp only [Progress.classes_note]
  cases hp : r.isPattern with
  | true =>
    cases r.resolve (p.classes.lookUp r.className) <;> rfl
  | false =>
    cases h : r.resolve (p.classes.lookUp r.className) with
    | ok keys => rfl
    | error gap => exact policy.handle_missing r gap _

/-- **The first run is ahead of the second by some missing classes**, and by nothing else. -/
structure Ahead (names : List Text) (p q : Progress) : Prop where
  /-- The same is forbidden. -/
  index : q.index = p.index
  /-- The universes are the same. -/
  classes : q.classes = p.classes
  /-- The first run has skipped the classes of the second, and those it is ahead by. -/
  missing : ∀ c, c ∈ p.missing ↔ c ∈ names ∨ c ∈ q.missing

theorem compares_ahead (names : List Text) : Compares (Ahead names) where
  record := by
    intro p q h policy r
    refine ⟨readRecord_result_congr (congrArg Universe.view h.classes) policy r, ?_, ?_, ?_⟩
    · rw [readRecord_index, readRecord_index, h.index, h.classes]
    · rw [readRecord_classes, readRecord_classes, h.classes]
    · intro c
      rw [readRecord_missing, readRecord_missing, h.classes]
      split
      · rw [Missing.mem_add, Missing.mem_add, h.missing]
        exact or_left_comm
      · exact h.missing c
  tell := fun h _ _ => ⟨h.index, h.classes, h.missing⟩
  nonPortable := by
    intro p q h
    refine ⟨?_, h.classes, h.missing⟩
    rw [Progress.index_note, Progress.index_note, h.index]

/-- A run is ahead of one from the same state without missing classes by those that there were. -/
theorem ahead_start (p : Progress) (t : Trace) :
    Ahead p.missing p ⟨p.index, p.classes, [], t⟩ :=
  ⟨rfl, rfl, by simp⟩

/-- A run is ahead of another one by nothing if they have told different things only. -/
theorem ahead_note (p : Progress) (t t' : Trace) : Ahead [] (p.note t) (p.note t') :=
  ⟨rfl, rfl, fun _ => (or_iff_right List.not_mem_nil).symm⟩

namespace Session

variable {s : Session}

/-! ### One inclusion -/

/-- The classes that a catalog skips are added to those that were skipped before. -/
theorem mem_missing_readCatalog (chain : List Text) (name : Text) (target : Option Text)
    (p : Progress) (t : Trace) (c : Text) :
    c ∈ (s.readCatalog chain name target (p.note t)).2.missing ↔
      c ∈ p.missing ∨ c ∈ (s.readCatalog chain name target { p with missing := [] }).2.missing :=
  (readCatalog_agree (compares_ahead p.missing) (ahead_start (p.note t) p.trace) chain name target
    (.inl trivial)).2.missing c

/-- An inclusion that goes through passes on the scope that it finds. -/
theorem readLines_of_included? {expand : Text → Progress → Reading Unit} {pre post : List Text}
    {line name : Text} (hname : Catalog.included? line = some name) {first scope : Scope}
    {p q r : Progress} (hpre : readLines .catalog expand pre first p = (.ok scope, q))
    (hexpand : expand name (q.note [.directive (Text.trim line)]) = (.ok (), r)) :
    readLines .catalog expand (pre ++ line :: post) first p =
      readLines .catalog expand post scope r := by
  have hline : readLine .catalog expand line scope q = (.ok scope, r) := by
    rw [readLine_of_included? hname, hexpand]
    rfl
  rw [readLines_append, hpre]
  change readLines .catalog expand (line :: post) scope q = _
  rw [readLines_cons_eq, hline]
  rfl

theorem perform_catalog (htarget : s.config.jdkTargetVersion = none) (r : Registry) (name : Text) :
    s.perform r (.catalog name none) = s.config.outcomeOf (s.readCatalog [] name none r.start) := by
  rw [perform, addCatalog, show s.targetOf none = none from htarget]

/-- Without a target version in the settings, **what an inclusion leaves is what the call for the
same catalog leaves**. -/
theorem perform_of_inside (htarget : s.config.jdkTargetVersion = none) (found : s.Found)
    (name : Text) (p : Progress) (hok : (s.inside [] found name p).1 = .ok ()) :
    let q := (s.inside [] found name p).2
    let outcome := s.perform ⟨p.index, p.classes⟩ (.catalog name none)
    outcome.failure = none ∧ outcome.registry = ⟨q.index, q.classes⟩ ∧
      ∀ c, c ∈ q.missing ↔ c ∈ p.missing ∨ c ∈ outcome.missing := by
  intro q outcome
  -- Outside the catalog less is in progress, so what is read inside can be read there.
  have hcovers : s.Covers [found.name] s [] :=
    ⟨rfl, by simp, fun name hname => List.mem_singleton.1 hname ▸ found.serves, fun _ _ => rfl⟩
  obtain ⟨hresult, hahead⟩ := hcovers.readCatalog_agree (compares_ahead p.missing)
    (ahead_start p []) name none (.inr (congrArg Except.isOk hok))
  rw [show outcome = _ from perform_catalog htarget _ name, Config.registry_outcomeOf,
    Config.missing_outcomeOf, Config.failure_outcomeOf_eq_none]
  have hregistry : (⟨(s.readCatalog [] name none ⟨p.index, p.classes, [], []⟩).2.index,
      (s.readCatalog [] name none ⟨p.index, p.classes, [], []⟩).2.classes⟩ : Registry) =
      ⟨q.index, q.classes⟩ := Registry.mk.injEq .. ▸ ⟨hahead.index, hahead.classes⟩
  exact ⟨hresult.trans hok, hregistry, hahead.missing⟩

/-! ### A row of calls -/

/-- The outcomes of calls that are made one after the other. -/
def outcomes (s : Session) : Registry → List Call → List Outcome
  | _, [] => []
  | r, call :: calls => s.perform r call :: s.outcomes (s.perform r call).registry calls

/-- The registry after calls that are made one after the other. -/
def performAll (s : Session) (r : Registry) (calls : List Call) : Registry :=
  calls.foldl (fun r call => (s.perform r call).registry) r

/-- The calls for the catalogs that lines include. -/
def inclusionCalls (lines : List Text) : List Call :=
  (Catalog.inclusions lines).map fun name => .catalog name none

/-- **Lines with nothing but inclusions are as good as the calls for what they include.** -/
theorem performAll_of_inclusions (htarget : s.config.jdkTargetVersion = none) {found : s.Found}
    {lines : List Text} (hlines : ∀ line ∈ lines, isContent (Text.trim line) = true →
      (Catalog.included? line).isSome = true) {scope : Scope} {p : Progress}
    (hok : (readLines .catalog (s.inside [] found) lines scope p).1.isOk = true) :
    let q := (readLines .catalog (s.inside [] found) lines scope p).2
    let outcomes := s.outcomes ⟨p.index, p.classes⟩ (inclusionCalls lines)
    (∀ o ∈ outcomes, o.failure = none) ∧
      s.performAll ⟨p.index, p.classes⟩ (inclusionCalls lines) = ⟨q.index, q.classes⟩ ∧
      ∀ c, c ∈ q.missing ↔ c ∈ p.missing ∨ ∃ o ∈ outcomes, c ∈ o.missing := by
  induction lines generalizing p with
  | nil => exact ⟨by simp [inclusionCalls, Catalog.inclusions, outcomes], rfl,
      by simp [inclusionCalls, Catalog.inclusions, outcomes]⟩
  | cons line lines ih =>
    obtain ⟨hline, hlines⟩ := List.forall_mem_cons.1 hlines
    rw [readLines_cons_eq] at hok ⊢
    cases hname : Catalog.included? line with
    | none =>
      have hblank : isContent (Text.trim line) = false := by
        by_contra hc
        simpa [hname] using hline (by simpa using hc)
      have hcalls : inclusionCalls (line :: lines) = inclusionCalls lines := by
        simp [inclusionCalls, Catalog.inclusions, hname]
      rw [readLine_of_blank hblank] at hok ⊢
      rw [hcalls]
      exact ih hlines hok
    | some name =>
      have hcalls : inclusionCalls (line :: lines) =
          .catalog name none :: inclusionCalls lines := by
        simp [inclusionCalls, Catalog.inclusions, hname]
      rw [readLine_of_included? hname] at hok ⊢
      rw [hcalls]
      have hinside := perform_of_inside htarget found name
        (p.note [.directive (Text.trim line)])
      generalize s.inside [] found name (p.note [.directive (Text.trim line)]) = a at hok hinside ⊢
      obtain ⟨e | u, q⟩ := a
      · cases hok
      obtain ⟨hnone, hregistry, hmissing⟩ := hinside rfl
      obtain ⟨hall, hfinal, hunion⟩ := ih hlines (p := q) hok
      simp only [Progress.index_note, Progress.classes_note] at hnone hregistry hmissing
      -- The first call leaves the registry that the other calls start from.
      simp only [outcomes, performAll, List.foldl_cons, hregistry, List.mem_cons, forall_eq_or_imp,
        exists_eq_or_imp]
      refine ⟨⟨hnone, hall⟩, hfinal, fun c => ?_⟩
      rw [← or_assoc]
      exact (hunion c).trans (or_congr_left (hmissing c))

/-! ### The scope of an inclusion -/

/-- **An inclusion has a scope of its own, and nothing else of its own.** A catalog is read in the
scope that the settings say, and the lines behind an inclusion in the scope that the lines before it
left, while the missing classes of all are collected together. Without a target version in the
settings a catalog with nothing but inclusions is as good as the calls for what it includes. -/
theorem include_scoping (s : Session) :
    (∀ {chain name target found}, s.Opens chain name target found →
      ∃ t, (∀ e ∈ t, Event.IsRemark chain e) ∧ ∀ p, s.readCatalog chain name target p =
        found.finish (readLines .catalog (s.inside chain found) found.lines
          ⟨s.config.firstPolicy, none⟩ ((p.note t).note [.opened found.name]))) ∧
    (∀ {chain found pre line post included}, Catalog.included? line = some included →
      ∀ {first scope p q r}, let lines := readLines .catalog (s.inside chain found)
        lines pre first p = (.ok scope, q) →
        s.inside chain found included (q.note [.directive (Text.trim line)]) = (.ok (), r) →
        lines (pre ++ line :: post) first p = lines post scope r ∧
        (included = nonPortableName ∨
          ∃ found', s.Opens (chain ++ [found.name]) included none found') ∧
        ∀ c, c ∈ r.missing ↔ c ∈ q.missing ∨
          c ∈ (s.inside chain found included { q with missing := [] }).2.missing) ∧
    ∀ {name found}, s.config.jdkTargetVersion = none → s.Opens [] name none found →
      (∀ line ∈ found.lines, isContent (Text.trim line) = true →
        (Catalog.included? line).isSome = true) →
      ∀ r, let whole := s.perform r (.catalog name none)
        let outcomes := s.outcomes r (inclusionCalls found.lines)
        whole.failure = none → (∀ o ∈ outcomes, o.failure = none) ∧
          (s.performAll r (inclusionCalls found.lines)).index = whole.registry.index ∧
          ∀ c, c ∈ whole.missing ↔ ∃ o ∈ outcomes, c ∈ o.missing := by
  refine ⟨readCatalog_of_opens, ?_, ?_⟩
  · intro chain found pre line post included hincluded first scope p q r lines hpre hthere
    refine ⟨readLines_of_included? hincluded hpre hthere, ?_, fun c => ?_⟩
    · rcases s.readCatalog_cases (chain ++ [found.name]) included none with
        hnon | hopens | ⟨e, t, -, hfailed⟩
      · exact .inl hnon
      · exact .inr hopens
      · cases congrArg Prod.fst (hthere.symm.trans (hfailed _))
    · have hmissing := mem_missing_readCatalog (s := s) (chain ++ [found.name]) included none q
        [.directive (Text.trim line)] c
      rwa [show s.readCatalog (chain ++ [found.name]) included none
        (q.note [.directive (Text.trim line)]) = (.ok (), r) from hthere] at hmissing
  · intro name found htarget hopens hlines r whole outcomes hwhole
    obtain ⟨t, ht, hread⟩ := readCatalog_of_opens hopens
    have heq : whole = _ := perform_catalog htarget r name
    rw [hread] at heq
    rw [heq, Config.failure_outcomeOf_eq_none] at hwhole
    obtain ⟨hall, hfinal, hunion⟩ := performAll_of_inclusions htarget hlines
      (Found.isOk_of_finish hwhole)
    refine ⟨hall, ?_, fun c => ?_⟩
    · rw [heq, Config.registry_outcomeOf]
      exact congrArg Registry.index hfinal
    · rw [heq, Config.missing_outcomeOf]
      exact (hunion c).trans ⟨fun h => h.resolve_left List.not_mem_nil, .inr⟩

/-- Catalogs that include one another, each with directives of its own. -/
def nested : Table Text Text where
  entries := [("w".toText, "@includeBundled x\n\n@includeBundled jdk-nonportable".toText),
    ("x".toText, "@defaultMessage gone\n@ignoreUnresolvable\n@includeBundled y\nc.C".toText),
    ("y".toText, "@ignoreUnresolvable\nb.B\n@defaultMessage here".toText)]

/-- The session with these catalogs that does not let pass what cannot be resolved. -/
def nestedSession : Session where
  config := {}
  store := .mapping nested
  disk := ⟨⟨[]⟩, []⟩

/-- The first of the catalogs, which has nothing but inclusions. -/
def nestedW : nestedSession.Found :=
  ⟨"w".toText, Utf8.encode ((nested.get? "w".toText).getD []), by decide, [], by decide⟩

/-- The second of the catalogs, which has directives before an inclusion. -/
def nestedX : nestedSession.Found :=
  ⟨"x".toText, Utf8.encode ((nested.get? "x".toText).getD []), by decide, [], by decide⟩

/-- The directives before an inclusion hold behind it, whatever the directives of what is included,
and what is missing is told for both. -/
theorem include_scoping_nested :
    let s := nestedSession
    let start := (Registry.ofClasses .empty).start
    let lines := readLines .catalog (s.inside [] nestedX)
    let pre := ["@defaultMessage gone".toText, "@ignoreUnresolvable".toText]
    let whole := s.perform (.ofClasses .empty) (.catalog "w".toText none)
    (∃ t, ∀ p, s.readCatalog [] "w".toText none p = nestedW.finish (readLines .catalog
      (s.inside [] nestedW) nestedW.lines ⟨.fail, none⟩ ((p.note t).note [.opened "w".toText]))) ∧
    (∃ q r, lines pre s.config.firstScope start = (.ok ⟨.silent, some "gone".toText⟩, q) ∧
      s.inside [] nestedX "y".toText (q.note [.directive "@includeBundled y".toText]) =
        (.ok (), r) ∧
      lines (pre ++ "@includeBundled y".toText :: ["c.C".toText]) s.config.firstScope start =
        lines ["c.C".toText] ⟨.silent, some "gone".toText⟩ r) ∧
    whole.failure = none ∧
    ∀ c, c ∈ whole.missing ↔ ∃ o ∈ s.outcomes (.ofClasses .empty) (inclusionCalls nestedW.lines),
      c ∈ o.missing := by
  intro s start lines pre whole
  have hread {chain : List Text} (h : (s.unread chain).length < 4) :
      s.readWithin (fun _ _ _ p => (.ok (), p)) 4 chain = s.readCatalog chain :=
    s.readWithin_eq _ h
  have hopens : s.Opens [] "w".toText none nestedW :=
    ⟨by decide, ⟨by decide, .inl (by decide)⟩, by simp⟩
  have hwhole : whole.failure = none := by
    change (s.config.outcomeOf (s.readCatalog [] "w".toText none start)).failure = none
    rw [← hread (by decide)]
    decide +kernel
  obtain ⟨hopened, hincluded, hcalls⟩ := include_scoping s
  refine ⟨?_, ?_, hwhole, (hcalls rfl hopens (by decide +kernel) _ hwhole).2.2⟩
  · obtain ⟨t, -, h⟩ := hopened hopens
    exact ⟨t, h⟩
  · have hpre : (lines pre s.config.firstScope start).1 = .ok ⟨.silent, some "gone".toText⟩ := by
      decide +kernel
    have hy : (s.inside [] nestedX "y".toText ((lines pre s.config.firstScope start).2.note
        [.directive "@includeBundled y".toText])).1 = .ok () := by
      rw [inside, ← hread (by decide)]
      decide +kernel
    have hline : Catalog.included? "@includeBundled y".toText = some "y".toText := by decide
    exact ⟨_, _, Prod.ext hpre rfl, Prod.ext hy rfl,
      (hincluded hline (Prod.ext hpre rfl) (Prod.ext hy rfl)).1⟩

end Session
end Embargo
