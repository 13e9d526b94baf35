import Embargo.Proofs.Scoping

/-!
# What is told of gaps

A record that does not resolve has a **gap**. What comes of it is a matter of the policy: reading
stops, or the gap is told in a warning, or it is passed over, and then a missing class is kept for
the summary. This file keeps the accounts of it: which records were considered, under which policy,
and what was told of their gaps.

| what | theorem |
|---|---|
| a record has a gap unless it forbids something | `Record.gap?_eq_none` |
| the class is the gap if it is not known | `Record.gap?_eq_class` |
| only the strict policy stops at a gap | `readRecord_eq_error_iff` |
| a record is entered into the accounts with its gap | `Accounts.record` |
| all warnings stand in the accounts | `warningsOf_entriesOf` |

* `Policy.notice` – what a policy tells of a gap.
* `Accounts` – what some entries say about the progress before and after.
-/

namespace Embargo

/-! ### Gaps -/

/-- Of a class that is known, only a member can be missing. -/
theorem ClassInfo.isClass_of_keysOf {info : ClassInfo} {member : Member} {gap : Gap}
    (h : info.keysOf member = .error gap) : gap.isClass = false := by
  cases member with
  | whole => cases h
  | field name =>
    rw [keysOf] at h
    split at h
    · cases h
    · obtain rfl := Except.error.inj h
      rfl
  | method wanted =>
    rw [keysOf] at h
    split at h
    · obtain rfl := Except.error.inj h
      rfl
    · cases h

namespace Record

/-- What is missing of a record in a universe. Of a pattern nothing is. -/
def gap? (r : Record) (u : Universe) : Option Gap :=
  if r.isPattern then none
  else match r.resolve (u.lookUp r.className) with
    | .ok _ => none
    | .error gap => some gap

variable {r : Record} {u v : Universe}

theorem gap?_congr (h : u.view = v.view) (r : Record) : r.gap? u = r.gap? v := by
  rw [gap?, gap?, r.resolve_congr (congrFun h r.className)]

/-- **A record has a gap unless it forbids something.** -/
theorem gap?_eq_none : r.gap? u = none ↔ r.isAcceptedIn u = true := by
  unfold gap? isAcceptedIn isResolvedIn
  cases r.isPattern with
  | true => simp
  | false => cases r.resolve (u.lookUp r.className) <;> simp [Except.isOk, Except.toBool]

/-- **The class is the gap exactly if it is not known**, under the name as it is written. -/
theorem gap?_eq_class {name : Text} : r.gap? u = some (.class name) ↔
    r.isPattern = false ∧ u.view r.className = none ∧ r.className = name := by
  unfold gap? resolve
  rw [show (u.lookUp r.className).found = u.view r.className from rfl]
  cases r.isPattern with
  | true => simp
  | false =>
    cases u.view r.className with
    | none => simp
    | some info =>
      cases h : info.keysOf r.member with
      | ok keys => simp [h]
      | error gap =>
        have hmember := ClassInfo.isClass_of_keysOf h
        cases gap with
        | «class» name => cases hmember
        | method | field => simp [h]

/-- A gap that is a class is the class of the record. -/
theorem gap?_of_isClass {gap : Gap} (h : r.gap? u = some gap) (hclass : gap.isClass = true) :
    r.isPattern = false ∧ u.view r.className = none := by
  cases gap with
  | «class» name => exact ⟨(gap?_eq_class.1 h).1, (gap?_eq_class.1 h).2.1⟩
  | method | field => cases hclass

end Record

/-- A record is deferred if its class is the gap, and the policy keeps it for the summary. -/
theorem Policy.defers_eq (policy : Policy) (u : Universe) (r : Record) :
    policy.defers u r = (r.gap? u).any fun gap => policy.collectsMissing && gap.isClass := by
  unfold defers Record.gap?
  cases r.isPattern <;> cases r.resolve (u.lookUp r.className) <;> rfl

/-! ### Notices -/

/-- What a policy tells of a gap. -/
def Policy.notice (policy : Policy) (r : Record) (gap : Gap) : Trace :=
  if policy.collectsMissing && gap.isClass then [.deferred r]
  else (policy.report gap.reason r.signature).2

theorem Policy.trace_handle (policy : Policy) (r : Record) (gap : Gap) (p : Progress) :
    (policy.handle r gap p).2.trace = p.trace ++ policy.notice r gap := by
  unfold handle notice
  split <;> rfl

/-- Only the strict policy stops at a gap. -/
theorem Policy.handle_eq_error_iff {policy : Policy} {r : Record} {gap : Gap} {p : Progress}
    {e : LoadError} : (policy.handle r gap p).1 = .error e ↔
      policy = .fail ∧ .unresolvable gap.reason r.signature = e := by
  cases policy with
  | fail => simp [handle, report, collectsMissing]
  | warn => simp [handle, report, collectsMissing]
  | silent => cases h : gap.isClass <;> simp [handle, report, collectsMissing, h]

/-- **A record stops a reader exactly if it has a gap under the strict policy.** -/
theorem readRecord_eq_error_iff {policy : Policy} {r : Record} {p : Progress} {e : LoadError} :
    (readRecord policy r p).1 = .error e ↔ policy = .fail ∧
      ∃ gap, r.gap? p.classes = some gap ∧ .unresolvable gap.reason r.signature = e := by
  unfold readRecord Record.gap?
  dsimp only [Progress.classes_note]
  cases r.isPattern with
  | true => simp
  | false =>
    cases r.resolve (p.classes.lookUp r.className) with
    | ok keys => simp
    | error gap => simpa using Policy.handle_eq_error_iff

/-! ### Entries -/

/-- An entry in the accounts: a record was considered, or something was told of gaps. -/
def Event.isEntry : Event → Bool
  | .considered _ _ | .deferred _ | .ignored _ _ | .missingClasses | .summary _ => true
  | _ => false

/-- The entries of a trace, in order. -/
def entriesOf (t : Trace) : Trace := t.filter Event.isEntry

theorem entriesOf_append (t t' : Trace) : entriesOf (t ++ t') = entriesOf t ++ entriesOf t' :=
  List.filter_append t t'

theorem entriesOf_eq_nil {t : Trace} (h : ∀ e ∈ t, Event.isEntry e = false) : entriesOf t = [] :=
  List.filter_eq_nil_iff.2 fun e he => by simp [h e he]

theorem entriesOf_note {t : Trace} (h : ∀ e ∈ t, Event.isEntry e = false) (p : Progress) :
    entriesOf (p.note t).trace = entriesOf p.trace := by
  rw [Progress.trace_note, entriesOf_append, entriesOf_eq_nil h, List.append_nil]

theorem entriesOf_eq_self {t : Trace} (h : ∀ e ∈ t, Event.isEntry e = true) : entriesOf t = t :=
  List.filter_eq_self.2 h

/-- The entries for a record: it is considered, and its gap is told. -/
def Record.entries (r : Record) (policy : Policy) (u : Universe) : Trace :=
  .considered r policy :: match r.gap? u with
    | some gap => policy.notice r gap
    | none => []

theorem Policy.isEntry_of_mem_notice {policy : Policy} {r : Record} {gap : Gap} {e : Event}
    (h : e ∈ policy.notice r gap) : e.isEntry = true := by
  unfold notice at h
  split at h
  · obtain rfl := List.mem_singleton.1 h
    rfl
  · cases policy with
    | fail | silent => cases h
    | warn =>
      obtain rfl := List.mem_singleton.1 h
      rfl

/-- A record is deferred if its class is kept for the summary. -/
theorem Record.deferred_mem_entries {r r' : Record} {policy : Policy} {u : Universe} :
    .deferred r' ∈ r.entries policy u ↔ r' = r ∧ policy.defers u r = true := by
  rw [policy.defers_eq, entries]
  cases r.gap? u with
  | none => simp
  | some gap =>
    cases policy with
    | fail | warn => simp [Policy.notice, Policy.collectsMissing, Policy.report]
    | silent =>
      cases h : gap.isClass <;> simp [Policy.notice, Policy.collectsMissing, Policy.report, h]

/-- The names that are kept for the summary after an entry. -/
def Missing.follow (names : List Text) : Event → List Text
  | .deferred r => add names r.className
  | _ => names

theorem Missing.foldl_follow_entries (policy : Policy) (r : Record) (u : Universe)
    (names : List Text) : (r.entries policy u).foldl follow names =
      if policy.defers u r then add names r.className else names := by
  rw [policy.defers_eq, Record.entries, List.foldl_cons]
  cases r.gap? u with
  | none => rfl
  | some gap =>
    cases policy with
    | fail | warn => rfl
    | silent =>
      cases h : gap.isClass <;>
        simp [Policy.notice, Policy.collectsMissing, Policy.report, follow, h]

/-- **The accounts of some reading**: what its entries say about the progress before and after. -/
structure Accounts (entries : Trace) (p q : Progress) : Prop where
  /-- The classes say what they said. -/
  view : q.classes.view = p.classes.view
  /-- The names that are kept for the summary are those of the entries. -/
  missing : q.missing = entries.foldl Missing.follow p.missing
  /-- The entries are those of the new events. -/
  trace : ∃ t, q.trace = p.trace ++ t ∧ entriesOf t = entries

namespace Accounts

variable {entries entries' : Trace} {p q q' : Progress}

theorem refl : Accounts [] p p := ⟨rfl, rfl, [], by simp, rfl⟩

theorem trans (h : Accounts entries p q) (h' : Accounts entries' q q') :
    Accounts (entries ++ entries') p q' := by
  obtain ⟨t, ht, hentries⟩ := h.trace
  obtain ⟨t', ht', hentries'⟩ := h'.trace
  refine ⟨h'.view.trans h.view, ?_, t ++ t', ?_, ?_⟩
  · rw [h'.missing, h.missing, List.foldl_append]
  · rw [ht', ht, List.append_assoc]
  · rw [entriesOf_append, hentries, hentries']

/-- What is no entry is not accounted for. -/
theorem note {t : Trace} (h : ∀ e ∈ t, Event.isEntry e = false) : Accounts [] p (p.note t) :=
  ⟨rfl, rfl, t, rfl, entriesOf_eq_nil h⟩

/-- That a directive is followed is no entry. -/
theorem directive (line : Text) : Accounts [] p (p.note [.directive line]) :=
  .note (by simp [Event.isEntry])

/-- **A record is entered into the accounts**, with its gap. -/
theorem record (policy : Policy) (r : Record) (p : Progress) :
    Accounts (r.entries policy p.classes) p (readRecord policy r p).2 := by
  refine ⟨readRecord_view policy r p, ?_, ?_⟩
  · rw [readRecord_missing, Missing.foldl_follow_entries]
  · unfold readRecord Record.entries Record.gap?
    dsimp only [Progress.classes_note]
    cases r.isPattern with
    | true => exact ⟨[.considered r policy, .addedPattern r], by simp, rfl⟩
    | false =>
      -- That supertypes are passed over is told, but not entered.
      have hskipped : entriesOf ((p.classes.lookUp r.className).trace r.className) = [] := by
        refine entriesOf_eq_nil fun e he => ?_
        obtain ⟨supertype, -, rfl⟩ := List.mem_map.1 he
        rfl
      have hconsidered (t : Trace) : entriesOf (.considered r policy ::
          (p.classes.lookUp r.className).trace r.className ++ t) =
          .considered r policy :: entriesOf t := by
        rw [entriesOf_append, entriesOf, List.filter_cons_of_pos rfl, ← entriesOf, hskipped]
        rfl
      cases r.resolve (p.classes.lookUp r.className) with
      | ok keys => exact ⟨_, by simp, hconsidered [.addedKeys r keys.length]⟩
      | error gap =>
        refine ⟨_, ?_, (hconsidered (policy.notice r gap)).trans ?_⟩
        · simp [Policy.trace_handle]
        · rw [entriesOf_eq_self fun e => Policy.isEntry_of_mem_notice]
          rfl

end Accounts

/-! ### Records and warnings -/

/-- The records that were considered stand in the accounts. -/
theorem recordsOf_entriesOf (t : Trace) : recordsOf (entriesOf t) = recordsOf t := by
  rw [recordsOf, entriesOf, List.filterMap_filter]
  refine congrArg (List.filterMap · t) (funext fun e => ?_)
  cases e <;> rfl

theorem recordsOf_append (t t' : Trace) : recordsOf (t ++ t') = recordsOf t ++ recordsOf t' :=
  List.filterMap_append

theorem Record.recordsOf_entries (r : Record) (policy : Policy) (u : Universe) :
    recordsOf (r.entries policy u) = [r] := by
  rw [entries]
  cases r.gap? u with
  | none => rfl
  | some gap =>
    cases policy with
    | fail | warn => rfl
    | silent => cases h : gap.isClass <;> simp [Policy.notice, Policy.collectsMissing,
        Policy.report, h, recordsOf, Event.considered?]

/-- The warning of an event, if it has one. -/
def Event.warning? (e : Event) : Option LogRecord :=
  e.record?.filter fun record => record.level = .warning

/-- The warnings of a log, in order. -/
def warningsOf (t : Trace) : List LogRecord := t.filterMap Event.warning?

theorem warningsOf_eq (t : Trace) :
    warningsOf t = (logOf t).filter fun record => record.level = .warning := by
  rw [logOf, List.filter_filterMap]
  rfl

/-- **All warnings stand in the accounts.** -/
theorem warningsOf_entriesOf (t : Trace) : warningsOf (entriesOf t) = warningsOf t := by
  rw [warningsOf, entriesOf, List.filterMap_filter]
  refine congrArg (List.filterMap · t) (funext fun e => ?_)
  cases e <;> rfl

theorem warningsOf_append (t t' : Trace) : warningsOf (t ++ t') = warningsOf t ++ warningsOf t' :=
  List.filterMap_append

/-- The warning about a gap. -/
def Gap.warning (gap : Gap) (signature : Text) : LogRecord :=
  ⟨.warning, gap.reason ++ " while parsing signature: ".toText ++ signature ++
    " [signature ignored]".toText⟩

/-- **The gap of a record is told in one warning**, if the policy is to warn. -/
theorem Record.warningsOf_entries (r : Record) (policy : Policy) (u : Universe) :
    warningsOf (r.entries policy u) =
      if policy = .warn then ((r.gap? u).map fun gap => gap.warning r.signature).toList
      else [] := by
  rw [Record.entries]
  cases r.gap? u with
  | none => cases policy <;> rfl
  | some gap =>
    cases policy with
    | fail | warn => rfl
    | silent => cases h : gap.isClass <;> simp [Policy.notice, Policy.collectsMissing,
        Policy.report, h, warningsOf, Event.warning?, Event.record?]

end Embargo
