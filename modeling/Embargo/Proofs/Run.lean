import Embargo.Proofs.Reading
import Mathlib.Data.List.Induction

/-!
# Runs

A registry is filled by one call after the other, and between the calls classes are declared or
looked up. A **run** is what a sequence of such steps leads to: the registry, and everything that
happened. A call may end with an error; what it did before stays, and the run goes on.

* `Call`, `Session.perform` – the calls that fill a registry. `Session.Respects.perform` carries
  over to them what every single change respects.
* `Step`, `Run.step`, `Run.ofSteps` – runs of any steps, each call with settings, a store and files
  of its own. `Run.ofCalls` are the runs whose classes are declared before the first call.
* `Index.follow`, `Replays` – the index can be recomputed from the trace alone. This is the
  load-bearing statement about runs of the second kind (`Run.index_ofCalls`): what such a run
  forbids is a matter of the records that it considered, and of their order.
-/

namespace Embargo

/-! ### Calls -/

/-- A call that fills a registry. -/
inductive Call where
  /-- Add a catalog, for a target version if one is given. -/
  | catalog (name : Text) (target : Option Text)
  /-- Add the signatures of a text. -/
  | text (t : Text)
  /-- Add the signatures of a stream with a name. -/
  | stream (name : Text) (feed : Feed)
  /-- Add the signatures of a file. -/
  | file (path : Path)

/-- What a call leads to. -/
def Session.perform (s : Session) (r : Registry) : Call → Outcome
  | .catalog name target => s.addCatalog name target r
  | .text t => s.addText t r
  | .stream name feed => s.addStream name feed r
  | .file path => s.addFile path r

/-- The progress that an outcome is made of. -/
def Outcome.progress (o : Outcome) : Progress :=
  ⟨o.registry.index, o.registry.classes, o.missing, o.trace⟩

/-- The summary at the end of a call is only told. -/
theorem Config.outcomeOf_progress (c : Config) (res : Reading Unit) :
    ∃ t, (∀ e ∈ t, Event.isSummary e = true) ∧ (c.outcomeOf res).progress = res.2.note t := by
  obtain ⟨e | u, p⟩ := res
  · exact ⟨[], by simp, Progress.note_nil.symm⟩
  · refine ⟨c.summaryOf p.missing, fun e he => ?_, rfl⟩
    unfold Config.summaryOf at he
    split at he
    · cases he
    · rcases List.mem_cons.1 he with rfl | he
      · rfl
      · obtain rfl := List.mem_singleton.1 he
        rfl

@[simp] theorem Config.registry_outcomeOf (c : Config) (res : Reading Unit) :
    (c.outcomeOf res).registry = ⟨res.2.index, res.2.classes⟩ := by
  obtain ⟨e | u, p⟩ := res <;> rfl

@[simp] theorem Config.missing_outcomeOf (c : Config) (res : Reading Unit) :
    (c.outcomeOf res).missing = res.2.missing := by
  obtain ⟨e | u, p⟩ := res <;> rfl

theorem Config.failure_outcomeOf_eq_some {c : Config} {res : Reading Unit} {e : LoadError} :
    (c.outcomeOf res).failure = some e ↔ res.1 = .error e := by
  obtain ⟨e' | u, p⟩ := res
  · exact ⟨fun h => congrArg _ (Option.some.inj h), fun h => congrArg _ (Except.error.inj h)⟩
  · exact ⟨nofun, nofun⟩

theorem Config.failure_outcomeOf_eq_none {c : Config} {res : Reading Unit} :
    (c.outcomeOf res).failure = none ↔ res.1 = .ok () := by
  obtain ⟨e | u, p⟩ := res
  · exact ⟨nofun, nofun⟩
  · exact ⟨fun _ => rfl, fun _ => rfl⟩

namespace Session.Respects

variable {s : Session} {R : List Text → Progress → Progress → Prop} (hR : s.Respects R)
variable (hsummary : ∀ p e, Event.isSummary e = true → R [] p (p.note [e]))

include hR hsummary

theorem outcomeOf {res : Reading Unit} {p : Progress} (h : R [] p res.2) :
    R [] p (s.config.outcomeOf res).progress := by
  obtain ⟨t, ht, heq⟩ := s.config.outcomeOf_progress res
  rw [heq]
  exact hR.trans h (hR.noted res.2 fun e he q => hsummary q e (ht e he))

theorem addFeed (event : Event) (hevent : Event.IsRemark [] event) (name : Text) (feed : Feed)
    (r : Registry) : R [] r.start (s.addFeed event name feed r).progress := by
  refine hR.outcomeOf hsummary (hR.trans (hR.remark r.start hevent) ?_)
  rw [readFeed_progress]
  exact hR.readLines (fun name p => hR.refl) _ _ _

/-- **Every call respects what every change respects**, and what summing up respects. -/
theorem perform (r : Registry) (call : Call) :
    R [] r.start (s.perform r call).progress := by
  cases call with
  | catalog name target => exact hR.outcomeOf hsummary (hR.readCatalog [] name _ r.start)
  | text t => exact hR.addFeed hsummary .readingInline trivial _ _ r
  | stream name feed => exact hR.addFeed hsummary (.readingText name) trivial _ _ r
  | file path =>
    rw [Session.perform, addFile]
    split
    · exact hR.addFeed hsummary (.readingText path.text) trivial _ _ r
    all_goals exact hR.refl

end Session.Respects

/-- Reading declares no class, and remembers true answers only. -/
theorem Session.respects_coherent (s : Session) :
    s.Respects fun _ p q => p.classes.Coherent → q.classes.Coherent where
  refl := id
  trans := fun hpq hqr hp => hqr (hpq hp)
  record := fun policy r p hp => by
    rw [readRecord_classes]
    split
    · exact hp
    · exact hp.lookUp r.className
  remark := fun _ _ => id
  nonPortable := fun _ => id
  nest := fun _ _ => id

/-! ### Steps -/

/-- A step of a run. -/
inductive Step where
  /-- The registry is filled by a call. -/
  | populate (s : Session) (call : Call)
  /-- Classes are declared or looked up. -/
  | provide (op : Universe.Op)

/-- A registry, and everything that happened so far. -/
structure Run where
  /-- The registry. -/
  registry : Registry
  /-- What happened. -/
  trace : Trace

namespace Run

/-- The run with one step more. -/
def step (run : Run) : Step → Run
  | .populate s call =>
    let outcome := s.perform run.registry call
    ⟨outcome.registry, run.trace ++ outcome.trace⟩
  | .provide op => ⟨⟨run.registry.index, run.registry.classes.apply op⟩, run.trace⟩

/-- The run of some steps, from a registry without classes that forbids nothing. -/
def ofSteps (steps : List Step) : Run := steps.foldl step ⟨.ofClasses .empty, []⟩

/-- The run in which the classes are declared before the first call. -/
def ofCalls (ops : List Universe.Op) (calls : List (Session × Call)) : Run :=
  ofSteps (ops.map Step.provide ++ calls.map fun c => .populate c.1 c.2)

theorem ofSteps_append_singleton (steps : List Step) (st : Step) :
    ofSteps (steps ++ [st]) = (ofSteps steps).step st := by
  rw [ofSteps, List.foldl_append]
  rfl

/-- Operations on the classes of a run do nothing else. -/
theorem ofCalls_nil (ops : List Universe.Op) :
    ofCalls ops [] = ⟨.ofClasses (.ofOps ops), []⟩ := by
  induction ops using List.reverseRecOn with
  | nil => rfl
  | append_singleton ops op ih =>
    have hsteps : ofCalls (ops ++ [op]) [] = (ofCalls ops []).step (.provide op) := by
      simp only [ofCalls, List.map_append, List.map_nil, List.append_nil]
      exact ofSteps_append_singleton _ _
    have hops : Universe.ofOps (ops ++ [op]) = (Universe.ofOps ops).apply op := List.foldl_append
    rw [hsteps, ih, hops]
    rfl

/-- The classes of a run remember true answers only. -/
theorem coherent_ofSteps (steps : List Step) : (ofSteps steps).registry.classes.Coherent := by
  induction steps using List.reverseRecOn with
  | nil => exact Universe.coherent_empty
  | append_singleton steps st ih =>
    rw [ofSteps_append_singleton]
    cases st with
    | populate s call => exact s.respects_coherent.perform (fun _ _ _ hp => hp) _ call ih
    | provide op => exact ih.apply op

theorem ofCalls_concat (ops : List Universe.Op) (calls : List (Session × Call))
    (s : Session) (call : Call) :
    ofCalls ops (calls ++ [(s, call)]) = (ofCalls ops calls).step (.populate s call) := by
  simp only [ofCalls, List.map_append, ← List.append_assoc]
  exact ofSteps_append_singleton _ _

end Run

/-! ### The index recomputed from the trace -/

namespace Index

/-- What a record forbids depends on what the universe says, and on nothing else of it. -/
theorem accept_congr {u v : Universe} (h : u.view = v.view) (index : Index) (r : Record) :
    index.accept u r = index.accept v r := by
  rw [accept, accept, r.keysIn_congr h]

/-- The index after an event. -/
def follow (u : Universe) (index : Index) : Event → Index
  | .considered r _ => index.accept u r
  | .forbadeNonPortable => index.forbidNonPortable
  | _ => index

theorem follow_congr {u v : Universe} (h : u.view = v.view) : follow u = follow v := by
  funext index e
  cases e with
  | considered r policy => exact index.accept_congr h r
  | _ => rfl

theorem follow_of_isRemark {chain : List Text} {e : Event} (h : Event.IsRemark chain e)
    (u : Universe) (index : Index) : index.follow u e = index := by
  cases e with
  | considered r policy => exact h.elim
  | forbadeNonPortable => exact h.elim
  | _ => rfl

theorem follow_of_isSummary {e : Event} (h : e.isSummary = true) (u : Universe) (index : Index) :
    index.follow u e = index := by
  cases e with
  | missingClasses => rfl
  | summary line => rfl
  | _ => cases h

theorem foldl_follow_of_isRemark {chain : List Text} {t : Trace}
    (h : ∀ e ∈ t, Event.IsRemark chain e) (u : Universe) (index : Index) :
    t.foldl (follow u) index = index := by
  induction t with
  | nil => rfl
  | cons e t ih =>
    rw [List.foldl_cons, follow_of_isRemark (h e List.mem_cons_self)]
    exact ih fun e' he' => h e' (List.mem_cons_of_mem e he')

end Index

/-- What the universe says stays, and the index can be recomputed from what is new in the trace. -/
def Replays (p q : Progress) : Prop :=
  q.classes.view = p.classes.view ∧
    ∃ t, q.trace = p.trace ++ t ∧ q.index = t.foldl (Index.follow p.classes) p.index

theorem Session.respects_replays (s : Session) : s.Respects fun _ => Replays where
  refl := fun {_ p} => ⟨rfl, [], by simp, rfl⟩
  trans := by
    rintro - p q r ⟨hqv, t, hqt, hqi⟩ ⟨hrv, t', hrt, hri⟩
    refine ⟨hrv.trans hqv, t ++ t', ?_, ?_⟩
    · rw [hrt, hqt, List.append_assoc]
    · rw [hri, hqi, Index.follow_congr hqv, List.foldl_append]
  record := by
    intro _ policy r p
    obtain ⟨t, ht, hremarks⟩ := readRecord_trace policy r p
    refine ⟨readRecord_view policy r p, _, ht, ?_⟩
    -- Of all that is told about a record, only that it was considered changes the index.
    rw [readRecord_index, List.foldl_cons, Index.foldl_follow_of_isRemark (hremarks [])]
    rfl
  remark := fun {_ e} p he =>
    ⟨rfl, [e], rfl, (Index.follow_of_isRemark he p.classes p.index).symm⟩
  nonPortable := fun p => ⟨rfl, [.forbadeNonPortable], rfl, rfl⟩
  nest := by
    rintro - name p q - - ⟨hv, t, ht, hi⟩
    refine ⟨hv, .opened name :: t ++ [.closed name], ?_, ?_⟩
    · rw [Progress.trace_note, ht, Progress.trace_note]
      simp
    · rw [Progress.index_note, hi, List.foldl_append]
      rfl

theorem replays_of_isSummary (p : Progress) (e : Event) (h : e.isSummary = true) :
    Replays p (p.note [e]) :=
  ⟨rfl, [e], rfl, (Index.follow_of_isSummary h p.classes p.index).symm⟩

namespace Run

variable (ops : List Universe.Op) (calls : List (Session × Call))

/-- A run with fixed classes has replayed its trace. -/
theorem replays_ofCalls : (ofCalls ops calls).registry.classes.view = (Universe.ofOps ops).view ∧
    (ofCalls ops calls).registry.index =
      (ofCalls ops calls).trace.foldl (Index.follow (.ofOps ops)) .empty := by
  induction calls using List.reverseRecOn with
  | nil =>
    rw [ofCalls_nil]
    exact ⟨rfl, rfl⟩
  | append_singleton calls c ih =>
    obtain ⟨s, call⟩ := c
    obtain ⟨hview, hindex⟩ := ih
    obtain ⟨hv, t, ht, hi⟩ := s.respects_replays.perform replays_of_isSummary _ call
    -- A call begins with an empty trace, so what it adds is its whole trace.
    obtain rfl : (s.perform (ofCalls ops calls).registry call).trace = t := ht
    rw [ofCalls_concat]
    refine ⟨hv.trans hview, ?_⟩
    change (s.perform _ call).registry.index = (_ ++ (s.perform _ call).trace).foldl _ _
    rw [List.foldl_append, ← hindex, ← Index.follow_congr hview]
    exact hi

/-- **What a run with fixed classes forbids is a matter of its trace.** -/
theorem index_ofCalls : (ofCalls ops calls).registry.index =
    (ofCalls ops calls).trace.foldl (Index.follow (.ofOps ops)) .empty :=
  (replays_ofCalls ops calls).2

/-- The calls of a run change nothing about what its classes say. -/
theorem view_ofCalls :
    (ofCalls ops calls).registry.classes.view = (Universe.ofOps ops).view :=
  (replays_ofCalls ops calls).1

end Run
end Embargo
