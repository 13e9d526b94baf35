import Embargo.Proofs.Answers

/-!
# The two indexes of methods

Methods are indexed by their full signature and, for questions that leave the return type open, by
name and arguments alone. Both indexes are written side by side, but the first one has a key for
each return type that the class declares at the time of writing, and classes may be declared anew
between two calls. So the keys that stand behind one entry of the second index may be of different
ages.

* `Index.Paired` – what still holds then: an entry without return type is there exactly if some key
  with a return type is, and it has the report of *one* of these keys – of one written last.
* `Index.Paired.insert` – one write keeps this; from there it is carried to records, to calls and to
  runs of any steps (`Run.paired_ofSteps`).
* `Run.method_indexes_agree` – the main statement, with what holds in addition while the classes
  stay as they are: then the report is that of *all* keys.
-/

namespace Embargo

/-- A method of a class without its return type. -/
def MethodUse.of (c : Text) (m : Jvm.Method) : MethodUse := ⟨c, m.name, m.arguments⟩

namespace Index

/-- **The two indexes of methods belong together.** -/
structure Paired (index : Index) : Prop where
  /-- A report without return type is the report of some key with a return type. -/
  key_of_use : ∀ {use report}, index.uses.get? use = some report →
    ∃ m, .of use.className m = use ∧ index.reports.get? (.method use.className m) = some report
  /-- A key with a return type has an entry without one. -/
  use_of_key : ∀ {c m report}, index.reports.get? (.method c m) = some report →
    ∃ report', index.uses.get? (.of c m) = some report'

theorem paired_empty : empty.Paired where
  key_of_use := fun h => nomatch h
  use_of_key := fun h => nomatch h

namespace Paired

variable {index : Index} (hi : index.Paired)

include hi

/-- A write keeps the indexes together: the key that is written last stands behind its entry, and
writing it touches no key behind another entry. -/
theorem insert (report : Text) (key : Key) : (index.insert report key).Paired where
  key_of_use := by
    intro use report' h
    rw [get?_uses_insert] at h
    by_cases hkey : key.use? = some use
    · rw [if_pos hkey] at h
      cases key with
      | method c m =>
        obtain rfl : MethodUse.of c m = use := Option.some.inj hkey
        exact ⟨m, rfl, (Table.get?_insert _ _ _ _).trans ((if_pos rfl).trans h)⟩
      | «class» c => cases hkey
      | field c name => cases hkey
    · rw [if_neg hkey] at h
      -- The key behind the old entry is not the one that is written, whose entry is another.
      obtain ⟨m, hm, hreport⟩ := hi.key_of_use h
      refine ⟨m, hm, (Table.get?_insert _ _ _ _).trans ((if_neg ?_).trans hreport)⟩
      rintro rfl
      exact hkey (congrArg some hm)
  use_of_key := by
    intro c m report' h
    rw [get?_uses_insert]
    by_cases hkey : key.use? = some (.of c m)
    · exact ⟨report, if_pos hkey⟩
    · rw [if_neg hkey]
      refine hi.use_of_key (((Table.get?_insert _ _ _ _).trans (if_neg ?_)).symm.trans h)
      rintro rfl
      exact hkey rfl

theorem add (report : Text) (keys : List Key) : (index.add report keys).Paired :=
  List.foldlRecOn keys _ hi fun _ hi key _ => hi.insert report key

theorem accept (u : Universe) (r : Record) : (index.accept u r).Paired := by
  unfold Index.accept
  split
  · exact ⟨hi.key_of_use, hi.use_of_key⟩
  · exact hi.add _ _

end Paired
end Index

/-- No change while signatures are read drives the two indexes apart. -/
theorem Session.respects_paired (s : Session) :
    s.Respects fun _ p q => p.index.Paired → q.index.Paired where
  refl := id
  trans := fun hpq hqr hp => hqr (hpq hp)
  record := fun policy r p hp => by
    rw [readRecord_index]
    exact hp.accept _ r
  remark := fun _ _ => id
  nonPortable := fun _ hp => ⟨hp.key_of_use, hp.use_of_key⟩
  nest := fun _ _ => id

namespace Run

/-- The two indexes belong together after every run. -/
theorem paired_ofSteps (steps : List Step) : (ofSteps steps).registry.index.Paired := by
  induction steps using List.reverseRecOn with
  | nil => exact Index.paired_empty
  | append_singleton steps st ih =>
    rw [ofSteps_append_singleton]
    cases st with
    | populate s call => exact s.respects_paired.perform (fun _ _ _ hp => hp) _ call ih
    | provide op => exact ih

/-- **The two indexes of methods never drift apart**, whatever calls fill the registry and whatever
classes are declared or declared anew in between. If classes are declared before the first call
only, the report without return type is that of every key with one. -/
theorem method_indexes_agree :
    (∀ (steps : List Step) (use : MethodUse),
      let index := (ofSteps steps).registry.index
      ((index.uses.get? use).isSome ↔ ∃ m, .of use.className m = use ∧
        (index.reports.get? (.method use.className m)).isSome) ∧
      ∀ report, index.uses.get? use = some report → ∃ m, .of use.className m = use ∧
        index.reports.get? (.method use.className m) = some report) ∧
    ∀ (ops : List Universe.Op) (calls : List (Session × Call)) (use : MethodUse) (report : Text),
      let index := (ofCalls ops calls).registry.index
      index.uses.get? use = some report → ∀ m, .of use.className m = use →
        ∀ report', index.reports.get? (.method use.className m) = some report' →
          report' = report := by
  refine ⟨fun steps use => ?_, fun ops calls use report hreport m hm report' hreport' => ?_⟩
  · have hi := paired_ofSteps steps
    refine ⟨⟨fun h => ?_, ?_⟩, fun report => hi.key_of_use⟩
    · obtain ⟨report, h⟩ := Option.isSome_iff_exists.1 h
      obtain ⟨m, hm, hreport⟩ := hi.key_of_use h
      exact ⟨m, hm, Option.isSome_iff_exists.2 ⟨report, hreport⟩⟩
    · rintro ⟨m, hm, h⟩
      obtain ⟨report, h⟩ := Option.isSome_iff_exists.1 h
      exact hm ▸ Option.isSome_iff_exists.2 (hi.use_of_key h)
  · have hu := Universe.coherent_ofOps ops
    obtain ⟨c, n, args⟩ := use
    obtain ⟨rfl, rfl⟩ : m.name = n ∧ m.arguments = args := by simpa [MethodUse.of] using hm
    -- Both reports are that of the last accepted record with this name and these arguments.
    rw [index_ofCalls, Index.get?_uses_foldl hu _ _ m.returns] at hreport
    rw [index_ofCalls, Index.get?_reports_foldl hu] at hreport'
    split at hreport'
    · exact Option.some.inj (hreport'.symm.trans hreport)
    · cases hreport'

end Run
end Embargo
