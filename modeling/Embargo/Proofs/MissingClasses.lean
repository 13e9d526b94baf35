import Embargo.Proofs.Gaps
import Embargo.Proofs.Settings
import Embargo.Proofs.TextOrder

/-!
# The summary of missing classes

A call for a catalog passes over the records that stand, in that catalog or in one that is included
at any depth, behind a line that asks to ignore gaps. Those of them whose class is not known make up
the summary at the end of the call, each class once, and nothing else does.

| what | theorem |
|---|---|
| the records of a catalog are said by the store alone | `Session.Places.unique` |
| a catalog that goes through is accounted for by its records | `Session.accounts_readCatalog` |
| the classes that are kept for the summary | `Placed.mem_foldl_follow` |
| no warning about a gap sums up | `Gap.not_sumsUp_warning` |
| what a call has kept does not come into the next | `Session.missing_perform_congr` |

* `Session.Places` – the records of the lines of a catalog and of those that it includes, each with
  the mark whether a line of its own catalog before it asks to ignore gaps.
* `Session.Summarizes` – what the summary of a call has to do with these records.
* `Session.missing_accounted` – the main statement.
-/

namespace Embargo

open Catalog

/-! ### Records in their place -/

/-- A record, and whether it stands behind a line of its own catalog that asks to ignore gaps. -/
structure Placed where
  /-- The record. -/
  record : Record
  /-- Its gap is passed over. -/
  exempt : Bool

/-- The line says something, with a default message for records that carry none. -/
def Line.Says (message : Option Text) (line : Text) (said : Line) : Prop :=
  isContent (Text.trim line) = true ∧ Line.parse (Text.trim line) message = .ok said

theorem Line.Says.unique {message : Option Text} {line : Text} {said said' : Line}
    (h : Says message line said) (h' : Says message line said') : said = said' :=
  Except.ok.inj (h.2.symm.trans h'.2)

/-- **The records of the lines of a catalog**, with those of the catalogs that they include, in the
order in which they are considered. The lines are read on behalf of a chain of catalogs that ends in
their own, with a default message and a mark that gaps are passed over. -/
inductive Session.Places (s : Session) :
    List Text → Option Text → Bool → List Text → List Placed → Prop
  /-- There are no lines. -/
  | nil {chain : List Text} {message : Option Text} {exempt : Bool} :
      Places s chain message exempt [] []
  /-- The line is blank or a comment. -/
  | blank {chain : List Text} {message : Option Text} {exempt : Bool} {line : Text}
      {lines : List Text} {placed : List Placed} (hc : isContent (Text.trim line) = false)
      (h : Places s chain message exempt lines placed) :
      Places s chain message exempt (line :: lines) placed
  /-- The line is a record. -/
  | record {chain : List Text} {message : Option Text} {exempt : Bool} {line : Text}
      {lines : List Text} {placed : List Placed} {r : Record}
      (hl : Line.Says message line (.record r)) (h : Places s chain message exempt lines placed) :
      Places s chain message exempt (line :: lines) (⟨r, exempt⟩ :: placed)
  /-- The line sets the default message. -/
  | message {chain : List Text} {message message' : Option Text} {exempt : Bool} {line : Text}
      {lines : List Text} {placed : List Placed}
      (hl : Line.Says message line (.directive (.defaultMessage message')))
      (h : Places s chain message' exempt lines placed) :
      Places s chain message exempt (line :: lines) placed
  /-- The line asks to ignore gaps. -/
  | lenient {chain : List Text} {message : Option Text} {exempt : Bool} {line : Text}
      {lines : List Text} {placed : List Placed}
      (hl : Line.Says message line (.directive .ignoreUnresolvable))
      (h : Places s chain message true lines placed) :
      Places s chain message exempt (line :: lines) placed
  /-- The line names the internal classes of the runtime. -/
  | nonPortable {chain : List Text} {message : Option Text} {exempt : Bool} {line : Text}
      {lines : List Text} {placed : List Placed}
      (hl : Line.Says message line (.directive (.includeCatalog nonPortableName)))
      (h : Places s chain message exempt lines placed) :
      Places s chain message exempt (line :: lines) placed
  /-- The line includes a catalog, whose own lines are read without a default message, and whose
  gaps are not passed over at first. -/
  | inclusion {chain : List Text} {message : Option Text} {exempt : Bool} {line name : Text}
      {lines : List Text} {inner placed : List Placed} {found : s.Found}
      (hl : Line.Says message line (.directive (.includeCatalog name)))
      (hopens : s.Opens chain name none found)
      (hinner : Places s (chain ++ [found.name]) none false found.lines inner)
      (h : Places s chain message exempt lines placed) :
      Places s chain message exempt (line :: lines) (inner ++ placed)

namespace Session

variable {s : Session}

variable (s) in
/-- **The records of a catalog that is read under a name**, on behalf of a chain. -/
inductive Processes (chain : List Text) (name : Text) (target : Option Text) : List Placed → Prop
  /-- The name stands for the internal classes of the runtime, and for no catalog. -/
  | nonPortable (h : name = nonPortableName) : Processes chain name target []
  /-- A catalog is opened. -/
  | opened {found : s.Found} {placed : List Placed} (h : s.Opens chain name target found)
      (hlines : s.Places (chain ++ [found.name]) none false found.lines placed) :
      Processes chain name target placed

/-- A name opens one catalog. -/
theorem Opens.unique {chain : List Text} {name : Text} {target : Option Text}
    {found found' : s.Found} (h : s.Opens chain name target found)
    (h' : s.Opens chain name target found') : found = found' := by
  obtain ⟨first, hfirst, t, -, hfind⟩ := s.find_of_refersTo chain h.refers
  obtain ⟨second, hsecond, t', -, hfind'⟩ := s.find_of_refersTo chain h'.refers
  have hsame : first = second := by
    have hboth := (hfind ⟨.empty, .empty, [], []⟩).symm.trans (hfind' ⟨.empty, .empty, [], []⟩)
    exact Except.ok.inj (congrArg Prod.fst hboth)
  exact Found.eq_of_name (hfirst.symm.trans ((congrArg Found.name hsame).trans hsecond))

/-- **The records of a catalog are said by the store alone.** -/
theorem Places.unique {chain : List Text} {message : Option Text} {exempt : Bool}
    {lines : List Text} {placed placed' : List Placed}
    (h : s.Places chain message exempt lines placed)
    (h' : s.Places chain message exempt lines placed') : placed = placed' := by
  induction h generalizing placed' with
  | nil =>
    cases h'
    rfl
  | blank hc _ ih =>
    cases h' with
    | blank _ h' => exact ih h'
    | record hl | message hl | lenient hl | nonPortable hl | inclusion hl =>
      cases hc.symm.trans hl.1
  | record hl _ ih =>
    cases h' with
    | record hl' h' =>
      obtain rfl := Line.record.inj (hl.unique hl')
      rw [ih h']
    | blank hc => cases hc.symm.trans hl.1
    | message hl' | lenient hl' | nonPortable hl' | inclusion hl' => cases hl.unique hl'
  | message hl _ ih =>
    cases h' with
    | message hl' h' =>
      cases hl.unique hl'
      exact ih h'
    | blank hc => cases hc.symm.trans hl.1
    | record hl' | lenient hl' | nonPortable hl' | inclusion hl' => cases hl.unique hl'
  | lenient hl _ ih =>
    cases h' with
    | lenient _ h' => exact ih h'
    | blank hc => cases hc.symm.trans hl.1
    | record hl' | message hl' | nonPortable hl' | inclusion hl' => cases hl.unique hl'
  | nonPortable hl _ ih =>
    cases h' with
    | nonPortable _ h' => exact ih h'
    | inclusion hl' hopens =>
      cases hl.unique hl'
      exact absurd rfl hopens.ne
    | blank hc => cases hc.symm.trans hl.1
    | record hl' | message hl' | lenient hl' => cases hl.unique hl'
  | inclusion hl hopens _ _ ihinner ih =>
    cases h' with
    | inclusion hl' hopens' hinner' h' =>
      cases hl.unique hl'
      obtain rfl := hopens.unique hopens'
      rw [ihinner hinner', ih h']
    | nonPortable hl' =>
      cases hl.unique hl'
      exact absurd rfl hopens.ne
    | blank hc => cases hc.symm.trans hl.1
    | record hl' | message hl' | lenient hl' => cases hl.unique hl'

theorem Processes.unique {chain : List Text} {name : Text} {target : Option Text}
    {placed placed' : List Placed} (h : s.Processes chain name target placed)
    (h' : s.Processes chain name target placed') : placed = placed' := by
  cases h with
  | nonPortable hname =>
    cases h' with
    | nonPortable => rfl
    | opened hopens => exact absurd hname hopens.ne
  | opened hopens hlines =>
    cases h' with
    | nonPortable hname => exact absurd hname hopens.ne
    | opened hopens' hlines' =>
      obtain rfl := hopens.unique hopens'
      exact hlines.unique hlines'

end Session

/-! ### Accounts of a catalog -/

/-- The policy of the lines of a catalog, by whether one before them asks to ignore gaps. -/
def Config.policyOf (c : Config) (exempt : Bool) : Policy :=
  if exempt then .silent else c.firstPolicy

theorem Record.entries_congr {u v : Universe} (h : u.view = v.view) (r : Record)
    (policy : Policy) : r.entries policy u = r.entries policy v := by
  rw [entries, entries, r.gap?_congr h]

/-- The entries for records in their place. -/
def Placed.entries (c : Config) (u : Universe) (placed : List Placed) : Trace :=
  placed.flatMap fun x => x.record.entries (c.policyOf x.exempt) u

theorem Placed.entries_append (c : Config) (u : Universe) (placed placed' : List Placed) :
    entries c u (placed ++ placed') = entries c u placed ++ entries c u placed' :=
  List.flatMap_append

namespace Session

variable {s : Session} {chain : List Text} {u : Universe}

/-- What is read is accounted for by the records of a catalog. -/
def IsAccounted (s : Session) (u : Universe) (chain : List Text) (name : Text)
    (target : Option Text) (p q : Progress) : Prop :=
  ∃ placed, s.Processes chain name target placed ∧ Accounts (Placed.entries s.config u placed) p q

section Lines

variable {expand : Text → Progress → Reading Unit} (hexpand : ∀ name p q,
  p.classes.view = u.view → expand name p = (.ok (), q) → s.IsAccounted u chain name none p q)

include hexpand

/-- **A line that goes through is accounted for**, and says how the lines behind it are read. -/
theorem accounts_readLine {line : Text} {scope scope' : Scope} {exempt : Bool} {p q : Progress}
    (hscope : scope.policy = s.config.policyOf exempt) (hview : p.classes.view = u.view)
    (h : readLine .catalog expand line scope p = (.ok scope', q)) :
    ∃ placed exempt', scope'.policy = s.config.policyOf exempt' ∧
      Accounts (Placed.entries s.config u placed) p q ∧
      ∀ {lines placed'}, s.Places chain scope'.message exempt' lines placed' →
        s.Places chain scope.message exempt (line :: lines) (placed ++ placed') := by
  have hreading := readLine_reading .catalog expand line scope p
  rw [h] at hreading
  cases hreading with
  | skipped hc => exact ⟨[], exempt, hscope, .refl, .blank hc⟩
  | @record r q hc hl hr =>
    obtain rfl : (readRecord scope.policy r p).2 = q := congrArg Prod.snd hr
    refine ⟨[⟨r, exempt⟩], exempt, hscope, ?_, .record ⟨hc, hl⟩⟩
    have haccounts := Accounts.record scope.policy r p
    rw [r.entries_congr hview] at haccounts
    simpa [Placed.entries, ← hscope] using haccounts
  | included hc hl ho hx =>
    obtain ⟨placed, hplaced, haccounts⟩ := hexpand _ (p.note _) _ hview hx
    refine ⟨placed, exempt, hscope, Accounts.trans (.directive _) haccounts, fun hbehind => ?_⟩
    cases hplaced with
    | nonPortable hname => exact .nonPortable ⟨hc, hname ▸ hl⟩ hbehind
    | opened hopens hlines => exact .inclusion ⟨hc, hl⟩ hopens hlines hbehind
  | message hc hl => exact ⟨[], exempt, hscope, .directive _, .message ⟨hc, hl⟩⟩
  | lenient hc hl => exact ⟨[], true, rfl, .directive _, .lenient ⟨hc, hl⟩⟩

/-- Lines that go through are accounted for. -/
theorem accounts_readLines {lines : List Text} {scope scope' : Scope} {exempt : Bool}
    {p q : Progress} (hscope : scope.policy = s.config.policyOf exempt)
    (hview : p.classes.view = u.view)
    (h : readLines .catalog expand lines scope p = (.ok scope', q)) :
    ∃ placed, s.Places chain scope.message exempt lines placed ∧
      Accounts (Placed.entries s.config u placed) p q := by
  induction lines generalizing scope exempt p with
  | nil =>
    obtain ⟨-, rfl⟩ := Prod.mk.inj h
    exact ⟨[], .nil, .refl⟩
  | cons line lines ih =>
    rw [readLines_cons_eq] at h
    generalize hline : readLine .catalog expand line scope p = res at h
    obtain ⟨e | scope₁, p₁⟩ := res
    · cases h
    obtain ⟨placed, exempt₁, hscope₁, haccounts, hplaces⟩ :=
      accounts_readLine hexpand hscope hview hline
    obtain ⟨placed', hbehind, haccounts'⟩ := ih hscope₁ (haccounts.view.trans hview) h
    refine ⟨placed ++ placed', hplaces hbehind, ?_⟩
    rw [Placed.entries_append]
    exact haccounts.trans haccounts'

end Lines

/-- To look for a catalog is no entry. -/
theorem entriesOf_ask (chain : List Text) (name : Text) (hn : Catalog.isName name = true)
    (p : Progress) : entriesOf (s.ask chain name hn p).2.trace = entriesOf p.trace := by
  unfold ask
  split
  all_goals exact entriesOf_note (by simp [Event.isEntry]) p

theorem entriesOf_askCanonical (chain : List Text) (name : Text) (target : Option Text)
    (p : Progress) :
    entriesOf (s.askCanonical chain name target p).2.trace = entriesOf p.trace := by
  unfold askCanonical
  split
  · rfl
  · next canonical hc =>
    have hask := s.entriesOf_ask chain canonical (Catalog.isName_of_canonicalName hc) p
    split
    all_goals next hres => exact congrArg Prod.snd hres ▸ hask

theorem entriesOf_find (chain : List Text) (name : Text) (target : Option Text) (p : Progress) :
    entriesOf (s.find chain name target p).2.trace = entriesOf p.trace := by
  have hfirst := s.entriesOf_askCanonical chain name none p
  unfold find
  split
  · next hres => exact congrArg Prod.snd hres ▸ hfirst
  · next hres => exact congrArg Prod.snd hres ▸ hfirst
  · next canonical q hres =>
    obtain rfl : _ = q := congrArg Prod.snd hres
    have hsecond := s.entriesOf_askCanonical chain name target (s.askCanonical chain name none p).2
    split
    · split
      all_goals next hres' => exact (congrArg Prod.snd hres' ▸ hsecond).trans hfirst
    · exact hfirst

/-- What is told before the lines of a catalog is no entry. -/
theorem accounts_opened {name : Text} {target : Option Text} {found : s.Found} {t : Trace}
    (hfind : ∀ p, s.find chain name target p = (.ok found, p.note t)) (p : Progress) :
    Accounts [] p ((p.note (t ++ announce chain found.name)).note [.opened found.name]) := by
  have hsearch : entriesOf t = [] := by
    have hentries := s.entriesOf_find chain name target ⟨.empty, .empty, [], []⟩
    rwa [hfind] at hentries
  have hannounce : entriesOf (announce chain found.name) = [] := by
    unfold announce
    split <;> rfl
  refine ⟨rfl, rfl, _, Progress.trace_note.trans (List.append_assoc _ _ _), ?_⟩
  rw [entriesOf_append, entriesOf_append, hsearch, hannounce]
  rfl

/-- **A catalog that goes through is accounted for by its records.** -/
theorem accounts_readCatalog {name : Text} {target : Option Text} {p q : Progress}
    (hview : p.classes.view = u.view) (h : s.readCatalog chain name target p = (.ok (), q)) :
    s.IsAccounted u chain name target p q := by
  induction chain using s.chain_induction generalizing name target p q with | longer chain ih
  rw [readCatalog] at h
  have hreading := h ▸ s.readCatalogWith_reading chain _ name target p
  cases hreading with
  | nonPortable hname =>
    refine ⟨[], .nonPortable hname, rfl, rfl, _, rfl, ?_⟩
    unfold announce
    split <;> rfl
  | @opened found t result q hne ht hfind hc hfeed =>
    rw [readFeed_eq_finish] at hfeed
    generalize hlines : readLines .catalog _ _ _ _ = res at hfeed
    obtain ⟨e | scope, q'⟩ := res
    · cases congrArg Prod.fst hfeed
    obtain rfl : q' = q := congrArg Prod.snd hfeed
    have hopened := accounts_opened hfind p
    -- The lines are read on behalf of the longer chain, where the induction hypothesis holds.
    have hscope : s.config.firstScope.policy = s.config.policyOf false := rfl
    obtain ⟨placed, hplaces, haccounts⟩ := accounts_readLines
      (fun name p q hview h => ih found hc hview h) hscope (hopened.view.trans hview) hlines
    refine ⟨placed, .opened ⟨hne, refersTo_of_find (hfind p), hc⟩ hplaces, ?_⟩
    have hall := (hopened.trans haccounts).trans (Accounts.note (t := [.closed found.name])
      (by simp [Event.isEntry]))
    rwa [List.nil_append, List.append_nil] at hall

end Session

/-! ### The classes that are kept -/

/-- **The class of the record is kept for the summary**: its gap is passed over, and it is the class
that is not known. -/
structure Placed.IsSkipped (x : Placed) (u : Universe) : Prop where
  /-- It stands behind a line of its catalog that asks to ignore gaps. -/
  exempt : x.exempt = true
  /-- It is no pattern. -/
  pattern : x.record.isPattern = false
  /-- Its class is not known. -/
  unknown : u.view x.record.className = none

theorem Placed.defers_iff (c : Config) (u : Universe) (x : Placed) :
    (c.policyOf x.exempt).defers u x.record = true ↔ x.IsSkipped u := by
  have hclass : (∃ gap, x.record.gap? u = some gap ∧ gap.isClass = true) ↔
      x.record.isPattern = false ∧ u.view x.record.className = none := by
    constructor
    · rintro ⟨gap, hgap, hclass⟩
      exact Record.gap?_of_isClass hgap hclass
    · rintro ⟨hpattern, hunknown⟩
      exact ⟨_, Record.gap?_eq_class.2 ⟨hpattern, hunknown, rfl⟩, rfl⟩
  have hcollects : (c.policyOf x.exempt).collectsMissing = x.exempt := by
    unfold Config.policyOf Config.firstPolicy
    cases x.exempt with
    | true => rfl
    | false => cases c.failOnUnresolvable.isTrue <;> rfl
  rw [Policy.defers_eq, hcollects, Option.any_eq_true]
  constructor
  · rintro ⟨gap, hgap, hdefers⟩
    obtain ⟨hexempt, hisClass⟩ := Bool.and_eq_true_iff.1 hdefers
    obtain ⟨hpattern, hunknown⟩ := hclass.1 ⟨gap, hgap, hisClass⟩
    exact ⟨hexempt, hpattern, hunknown⟩
  · rintro ⟨hexempt, hpattern, hunknown⟩
    obtain ⟨gap, hgap, hisClass⟩ := hclass.2 ⟨hpattern, hunknown⟩
    exact ⟨gap, hgap, Bool.and_eq_true_iff.2 ⟨hexempt, hisClass⟩⟩

/-- **The classes that are kept** after records in their place. -/
theorem Placed.mem_foldl_follow (c : Config) (u : Universe) {placed : List Placed}
    {names : List Text} {name : Text} :
    name ∈ (Placed.entries c u placed).foldl Missing.follow names ↔
      name ∈ names ∨ ∃ x ∈ placed, x.IsSkipped u ∧ x.record.className = name := by
  induction placed generalizing names with
  | nil => simp [entries]
  | cons x placed ih =>
    have hentries : entries c u (x :: placed) =
        x.record.entries (c.policyOf x.exempt) u ++ entries c u placed := rfl
    rw [hentries, List.foldl_append, Missing.foldl_follow_entries, ih, List.exists_mem_cons_iff,
      ← or_assoc, ← defers_iff c]
    refine or_congr_left ?_
    cases (c.policyOf x.exempt).defers u x.record with
    | false => simp
    | true =>
      rw [if_pos rfl, Missing.mem_add]
      simp [or_comm, eq_comm]

/-- Names are kept in order, and once each. -/
theorem Missing.pairwise_foldl_follow (t : Trace) {names : List Text}
    (h : names.Pairwise (· < ·)) : (t.foldl follow names).Pairwise (· < ·) := by
  refine List.foldlRecOn t follow h fun names h e _ => ?_
  cases e with
  | deferred r => exact Text.pairwise_lt_insertOnce h
  | _ => exact h

/-! ### Summing up -/

/-- The record that announces a summary. -/
def Missing.header : LogRecord :=
  ⟨.warning, ("Some signatures were ignored because the following classes " ++
    "were not found on classpath:").toText⟩

/-- The records at the end of a call that goes through: the summary of the classes that were kept,
if there are any and the settings ask for it. -/
def Config.summaryRecords (c : Config) (missing : List Text) : List LogRecord :=
  if missing ≠ [] ∧ c.logMissingSignatures.isTrue = true then
    [Missing.header, ⟨.warning, Missing.summary c.missingSummaryWidth missing⟩]
  else []

/-- The record sums up missing classes, or announces that. -/
def LogRecord.SumsUp (record : LogRecord) : Prop :=
  record = Missing.header ∨
    ∃ width names, names ≠ [] ∧ record = ⟨.warning, Missing.summary width names⟩

theorem Config.logOf_summaryOf_eq (c : Config) (missing : List Text) :
    logOf (c.summaryOf missing) = c.summaryRecords missing := by
  unfold summaryOf summaryRecords
  cases missing <;> cases c.logMissingSignatures.isTrue <;> rfl

theorem Config.warningsOf_summaryOf (c : Config) (missing : List Text) :
    warningsOf (c.summaryOf missing) = c.summaryRecords missing := by
  unfold summaryOf summaryRecords
  cases missing <;> cases c.logMissingSignatures.isTrue <;> rfl

theorem Config.recordsOf_summaryOf (c : Config) (missing : List Text) :
    recordsOf (c.summaryOf missing) = [] := by
  unfold summaryOf
  split <;> rfl

theorem Config.deferred_notMem_summaryOf (c : Config) {missing : List Text} {r : Record} :
    .deferred r ∉ c.summaryOf missing := by
  unfold summaryOf
  split <;> simp

theorem Missing.head?_extend {longEnough : Nat → Bool} {separator line : Text} {names : List Text}
    {c : CodePoint} (h : line.head? = some c) :
    (extend longEnough separator line names).head? = some c := by
  induction names generalizing separator line with
  | nil => exact h
  | cons name names ih =>
    have hline : (line ++ separator ++ name).head? = some c := by
      simp [List.head?_append, h]
    rw [extend]
    split
    · rw [List.head?_append, hline]
      rfl
    · exact ih hline

/-- A summary begins with a space. -/
theorem Missing.head?_summary {width : Number} {names : List Text} (h : names ≠ []) :
    (summary width names).head? = some ' ' := by
  cases names with
  | nil => exact absurd rfl h
  | cons name names =>
    rw [summary, extend]
    split
    · rfl
    · exact head?_extend rfl

/-- **A warning about a gap sums nothing up**: its reason stands in front. -/
theorem Gap.not_sumsUp_warning (gap : Gap) (signature : Text) :
    ¬(gap.warning signature).SumsUp := by
  have hhead : (gap.warning signature).message.head? ∈
      [some (CodePoint.char 'C'), some (CodePoint.char 'M'), some (CodePoint.char 'F')] := by
    cases gap with
    | «class» name => exact List.mem_cons_self
    | method => exact List.mem_cons_of_mem _ List.mem_cons_self
    | field => exact List.mem_cons_of_mem _ (List.mem_cons_of_mem _ List.mem_cons_self)
  rintro (h | ⟨width, names, hne, h⟩)
  · rw [h] at hhead
    revert hhead
    decide
  · rw [h, Missing.head?_summary hne] at hhead
    revert hhead
    decide

/-- The warnings about the gap of a record: none if it stands behind a line of its catalog that asks
to ignore gaps, and none where gaps are not let pass. -/
def Placed.warnings (c : Config) (u : Universe) (x : Placed) : List LogRecord :=
  if x.exempt || c.failOnUnresolvable.isTrue then []
  else ((x.record.gap? u).map fun gap => gap.warning x.record.signature).toList

theorem Placed.recordsOf_entries (c : Config) (u : Universe) (placed : List Placed) :
    recordsOf (Placed.entries c u placed) = placed.map Placed.record := by
  induction placed with
  | nil => rfl
  | cons x placed ih =>
    have hentries : entries c u (x :: placed) =
        x.record.entries (c.policyOf x.exempt) u ++ entries c u placed := rfl
    rw [hentries, recordsOf_append, ih, Record.recordsOf_entries]
    rfl

theorem Placed.warningsOf_entries (c : Config) (u : Universe) (placed : List Placed) :
    warningsOf (Placed.entries c u placed) = placed.flatMap (Placed.warnings c u) := by
  induction placed with
  | nil => rfl
  | cons x placed ih =>
    have hentries : entries c u (x :: placed) =
        x.record.entries (c.policyOf x.exempt) u ++ entries c u placed := rfl
    rw [hentries, warningsOf_append, ih, List.flatMap_cons, Record.warningsOf_entries, warnings]
    unfold Config.policyOf Config.firstPolicy
    cases x.exempt <;> cases c.failOnUnresolvable.isTrue <;> rfl

theorem Placed.not_sumsUp {c : Config} {u : Universe} {placed : List Placed} {record : LogRecord}
    (h : record ∈ placed.flatMap (Placed.warnings c u)) : ¬record.SumsUp := by
  obtain ⟨x, -, hx⟩ := List.mem_flatMap.1 h
  unfold warnings at hx
  split at hx
  · cases hx
  · cases hgap : x.record.gap? u with
    | none =>
      rw [hgap] at hx
      cases hx
    | some gap =>
      rw [hgap] at hx
      obtain rfl := List.mem_singleton.1 hx
      exact gap.not_sumsUp_warning _

/-- A record that is deferred has its class kept for the summary. -/
theorem Placed.isSkipped_of_deferred {c : Config} {u : Universe} {placed : List Placed}
    {r : Record} (h : .deferred r ∈ Placed.entries c u placed) :
    ∃ x ∈ placed, x.record = r ∧ x.IsSkipped u := by
  obtain ⟨x, hx, hr⟩ := List.mem_flatMap.1 h
  obtain ⟨rfl, hdefers⟩ := Record.deferred_mem_entries.1 hr
  exact ⟨x, hx, rfl, (x.defers_iff c u).1 hdefers⟩

namespace Session

/-- **What the summary of a call has to do with the records** that the call considered, each in its
place. -/
structure Summarizes (s : Session) (u : Universe) (placed : List Placed) (outcome : Outcome) :
    Prop where
  /-- The records were considered, in this order, and no others. -/
  considered : recordsOf outcome.trace = placed.map Placed.record
  /-- The names of the classes that were kept are in order, and there once each. -/
  ordered : outcome.missing.Pairwise (· < ·)
  /-- They are those of the records that were skipped because of their class, and no others. -/
  mem_missing : ∀ name, name ∈ outcome.missing ↔
    ∃ x ∈ placed, x.IsSkipped u ∧ x.record.className = name
  /-- The log ends with the summary of these classes, and nothing before it sums up. -/
  log : ∃ front, logOf outcome.trace = front ++ s.config.summaryRecords outcome.missing ∧
    ∀ record ∈ front, ¬record.SumsUp
  /-- The other warnings are those about gaps that are not passed over. -/
  warnings : warningsOf outcome.trace =
    placed.flatMap (Placed.warnings s.config u) ++ s.config.summaryRecords outcome.missing
  /-- Only records that were skipped because of their class are deferred. -/
  deferred : ∀ r, .deferred r ∈ outcome.trace → ∃ x ∈ placed, x.record = r ∧ x.IsSkipped u

end Session

/-! ### Calls -/

/-- Two runs with universes that say the same have kept the same classes. -/
structure SameMissing (p q : Progress) : Prop where
  /-- The universes say the same. -/
  view : q.classes.view = p.classes.view
  /-- The classes that were kept are the same. -/
  missing : q.missing = p.missing

theorem compares_sameMissing : Compares SameMissing where
  record := by
    intro p q h policy r
    refine ⟨readRecord_result_congr h.view policy r, ?_, ?_⟩
    · rw [readRecord_view, readRecord_view, h.view]
    · rw [readRecord_missing, readRecord_missing, policy.defers_eq, policy.defers_eq,
        r.gap?_congr h.view, h.missing]
  tell := fun h _ _ => ⟨h.view, h.missing⟩
  nonPortable := fun h => ⟨h.view, h.missing⟩

namespace Session

/-- **Which classes a call keeps depends on what the universe says alone**, and not on the calls
before. -/
theorem missing_perform_congr (s : Session) {r r' : Registry}
    (h : r.classes.view = r'.classes.view) (call : Call) :
    (s.perform r call).missing = (s.perform r' call).missing := by
  have hstart : SameMissing r'.start r.start := ⟨h, rfl⟩
  exact (perform_agree compares_sameMissing hstart call).2.missing

/-- A reading that is accounted for by some records is summed up by them. -/
theorem summarizes_outcomeOf {s : Session} {r : Registry} {placed : List Placed} {q : Progress}
    (h : Accounts (Placed.entries s.config r.classes placed) r.start q) :
    s.Summarizes r.classes placed (s.config.outcomeOf (.ok (), q)) := by
  obtain ⟨-, hmissing, t, ht, hentries⟩ := h
  obtain rfl : q.trace = t := ht
  have hwarnings : warningsOf q.trace = placed.flatMap (Placed.warnings s.config r.classes) := by
    rw [← warningsOf_entriesOf, hentries, Placed.warningsOf_entries]
  have hlog : logOf (s.config.outcomeOf (.ok (), q)).trace =
      logOf q.trace ++ s.config.summaryRecords q.missing := by
    change logOf (q.trace ++ s.config.summaryOf q.missing) = _
    rw [logOf_append, Config.logOf_summaryOf_eq]
  refine ⟨?_, ?_, fun name => ?_, ⟨_, hlog, fun record hrecord hsums => ?_⟩, ?_,
    fun record hrecord => ?_⟩
  · change recordsOf (q.trace ++ s.config.summaryOf q.missing) = _
    rw [recordsOf_append, ← recordsOf_entriesOf q.trace, hentries, Placed.recordsOf_entries,
      Config.recordsOf_summaryOf, List.append_nil]
  · change q.missing.Pairwise (· < ·)
    rw [hmissing]
    exact Missing.pairwise_foldl_follow _ List.Pairwise.nil
  · change name ∈ q.missing ↔ _
    rw [hmissing, Placed.mem_foldl_follow]
    exact or_iff_right List.not_mem_nil
  · -- What sums up is a warning, and the warnings before the end are about gaps.
    have hlevel : record.level = .warning := by
      rcases hsums with rfl | ⟨width, names, -, rfl⟩ <;> rfl
    have hwarning : record ∈ warningsOf q.trace := by
      rw [warningsOf_eq]
      exact List.mem_filter.2 ⟨hrecord, by simpa using hlevel⟩
    rw [hwarnings] at hwarning
    exact Placed.not_sumsUp hwarning hsums
  · change warningsOf (q.trace ++ s.config.summaryOf q.missing) = _
    rw [warningsOf_append, hwarnings, Config.warningsOf_summaryOf]
    rfl
  · have hentry : .deferred record ∈ entriesOf (q.trace ++ s.config.summaryOf q.missing) :=
      List.mem_filter.2 ⟨hrecord, rfl⟩
    rw [entriesOf_append, hentries] at hentry
    rcases List.mem_append.1 hentry with hentry | hentry
    · exact Placed.isSkipped_of_deferred hentry
    · exact absurd (List.mem_of_mem_filter hentry) s.config.deferred_notMem_summaryOf

/-- **The summary of missing classes is complete, and nothing else is summed up.** A call for a
catalog that goes through considers the records of the catalog and of those that it includes, which
the store alone determines. Its log ends with the summary of the classes of those records that stand
behind a line of their own catalog which asks to ignore gaps, and whose class is not known. Nothing
else is deferred, no gap that is passed over is told in a warning, and what one call has kept does
not come into the summary of another. -/
theorem missing_accounted (s : Session) (r : Registry) {name : Text} {target : Option Text}
    (h : (s.perform r (.catalog name target)).failure = none) :
    let outcome := s.perform r (.catalog name target)
    ∃ placed, s.Processes [] name (s.targetOf target) placed ∧
      (∀ placed', s.Processes [] name (s.targetOf target) placed' → placed' = placed) ∧
      s.Summarizes r.classes placed outcome ∧
      ∀ (s' : Session) call,
        (s'.perform outcome.registry call).missing = (s'.perform r call).missing := by
  intro outcome
  have hread : (s.readCatalog [] name (s.targetOf target) r.start).1 = .ok () :=
    Config.failure_outcomeOf_eq_none.1 h
  have houtcome :
      outcome = s.config.outcomeOf (s.readCatalog [] name (s.targetOf target) r.start) := rfl
  generalize hres : s.readCatalog [] name (s.targetOf target) r.start = res at hread houtcome
  obtain ⟨result, q⟩ := res
  obtain rfl : result = .ok () := hread
  obtain ⟨placed, hprocesses, haccounts⟩ := accounts_readCatalog (u := r.classes) rfl hres
  refine ⟨placed, hprocesses, fun placed' h' => h'.unique hprocesses,
    houtcome ▸ summarizes_outcomeOf haccounts, fun s' call => ?_⟩
  refine s'.missing_perform_congr ?_ call
  rw [houtcome, Config.registry_outcomeOf]
  exact haccounts.view

/-- Two classes are missing, each behind a directive of its own catalog, at different depths. They
are summed up together at the end. -/
theorem missing_accounted_nested :
    let s := nestedSession
    let r := Registry.ofClasses .empty
    let outcome := s.perform r (.catalog "w".toText none)
    outcome.failure = none ∧ outcome.missing = ["b.B".toText, "c.C".toText] ∧
    (∃ placed, s.Processes [] "w".toText none placed ∧ s.Summarizes r.classes placed outcome) ∧
    ∃ front, logOf outcome.trace = front ++
      [Missing.header, ⟨.warning, "  b.B, c.C".toText⟩] := by
  intro s r outcome
  have hread : s.readWithin (fun _ _ _ p => (.ok (), p)) 4 [] = s.readCatalog [] :=
    s.readWithin_eq _ (by decide)
  have houtcome : outcome = s.config.outcomeOf
      (s.readWithin (fun _ _ _ p => (.ok (), p)) 4 [] "w".toText none r.start) := by
    rw [hread]
    rfl
  obtain ⟨hfailure, hmissing⟩ :
      outcome.failure = none ∧ outcome.missing = ["b.B".toText, "c.C".toText] := by
    rw [houtcome]
    decide +kernel
  obtain ⟨placed, hprocesses, -, hsummarizes, -⟩ := missing_accounted s r hfailure
  refine ⟨hfailure, hmissing, ⟨placed, hprocesses, hsummarizes⟩, ?_⟩
  obtain ⟨front, hlog, -⟩ := hsummarizes.log
  have hrecords : s.config.summaryRecords outcome.missing =
      [Missing.header, ⟨.warning, "  b.B, c.C".toText⟩] := by
    rw [hmissing]
    decide +kernel
  exact ⟨front, hrecords ▸ hlog⟩

end Session
end Embargo
