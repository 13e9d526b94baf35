import Embargo.Proofs.Dependence
import Mathlib.Data.List.Nodup

/-!
# The catalogs in progress

While a catalog is read, it is in progress, and so are the catalogs that led to it. A trace says
when a catalog is opened and when it is closed, so it says which catalogs are in progress at each
moment (`inProgress`). This file shows that they are always few, and none when a call has ended.

* `Session.Admits` – the lists of catalogs that may be in progress: no name twice, and served names
  only.
* `Session.IsBracketed` – a trace that leaves the catalogs in progress as they were, over admitted
  lists all the way, and that asks the store on behalf of the catalogs in progress.
* `Session.respects_isBracketed` – everything that reading adds to a trace is bracketed, also when
  reading fails: each way out of a catalog closes it.
* `Session.readWithin` – reading with a bound on how deep catalogs are nested. With the number of
  served names as the bound nothing is cut off, so reading ends (`Session.readWithin_eq`).
* `Run.in_progress_sound` – the main statement.
-/

namespace Embargo

/-! ### Bracketed traces -/

/-- A request is made for the catalogs of a chain. -/
def Event.IsFor (chain : List Text) : Event → Prop
  | .requested _ chain' => chain' = chain
  | _ => True

/-- An event that opens and closes nothing. -/
def Event.IsQuiet (chain : List Text) (e : Event) : Prop :=
  e.progress chain = chain ∧ e.IsFor chain

theorem Event.IsRemark.isQuiet {chain : List Text} {e : Event} (h : e.IsRemark chain) :
    e.IsQuiet chain := by
  cases e with
  | requested name chain' => exact ⟨rfl, h⟩
  | opened name => exact h.elim
  | closed name => exact h.elim
  | _ => exact ⟨rfl, trivial⟩

theorem Event.isQuiet_of_isSummary {e : Event} (h : e.isSummary = true) (chain : List Text) :
    e.IsQuiet chain := by
  cases e with
  | missingClasses => exact ⟨rfl, trivial⟩
  | summary line => exact ⟨rfl, trivial⟩
  | _ => cases h

namespace Session

/-- The catalogs of a list may be in progress: no name twice, and only names that are served. -/
structure Admits (s : Session) (chain : List Text) : Prop where
  /-- No name is there twice. -/
  nodup : chain.Nodup
  /-- Only served names are there. -/
  served : ∀ name ∈ chain, s.serves name = true

/-- At each moment of a trace the catalogs in progress may be so, and requests are made for them. -/
def IsSound (s : Session) : List Text → Trace → Prop
  | chain, [] => s.Admits chain
  | chain, e :: t => s.Admits chain ∧ e.IsFor chain ∧ s.IsSound (e.progress chain) t

/-- The trace is sound, and leaves the catalogs in progress as they were. -/
structure IsBracketed (s : Session) (chain : List Text) (t : Trace) : Prop where
  /-- At each moment the catalogs in progress may be so. -/
  sound : s.IsSound chain t
  /-- The catalogs in progress are the same in the end. -/
  back : t.foldl Event.progress chain = chain

variable {s : Session} {chain : List Text} {t t' : Trace}

namespace Admits

theorem nil : s.Admits [] := ⟨List.nodup_nil, by simp⟩

theorem concat (h : s.Admits chain) {name : Text} (hc : name ∉ chain) (hs : s.serves name = true) :
    s.Admits (chain ++ [name]) where
  nodup := by
    rw [← List.concat_eq_append]
    exact List.Nodup.concat hc h.nodup
  served := fun n hn => (List.mem_append.1 hn).elim (h.served n) fun hn =>
    List.mem_singleton.1 hn ▸ hs

/-- There are no more catalogs in progress than are served. -/
theorem length_le (h : s.Admits chain) : chain.length ≤ s.served.length :=
  List.Nodup.length_le_of_subset h.nodup fun name hname => mem_served.2 (h.served name hname)

end Admits

namespace IsSound

theorem admits (h : s.IsSound chain t) : s.Admits chain := by
  cases t with
  | nil => exact h
  | cons e t => exact h.1

theorem append (h : s.IsSound chain t) (h' : s.IsSound (t.foldl Event.progress chain) t') :
    s.IsSound chain (t ++ t') := by
  induction t generalizing chain with
  | nil => exact h'
  | cons e t ih => exact ⟨h.1, h.2.1, ih h.2.2 h'⟩

/-- At every moment of a sound trace the catalogs in progress may be so. -/
theorem admits_of_prefix (h : s.IsSound chain t) (ht : t' <+: t) :
    s.Admits (t'.foldl Event.progress chain) := by
  induction t' generalizing chain t with
  | nil => exact h.admits
  | cons e t' ih =>
    obtain ⟨u, rfl⟩ := ht
    exact ih h.2.2 (List.prefix_append t' u)

/-- In a sound trace requests are made for the catalogs in progress. -/
theorem eq_of_requested (h : s.IsSound chain t) {name : Text} {chain' : List Text}
    (ht : t' ++ [.requested name chain'] <+: t) : chain' = t'.foldl Event.progress chain := by
  obtain ⟨u, rfl⟩ := ht
  induction t' generalizing chain with
  | nil => exact h.2.1
  | cons e t' ih => exact ih h.2.2

end IsSound

namespace IsBracketed

theorem nil (h : s.Admits chain) : s.IsBracketed chain [] := ⟨h, rfl⟩

theorem append (h : s.IsBracketed chain t) (h' : s.IsBracketed chain t') :
    s.IsBracketed chain (t ++ t') where
  sound := h.sound.append (h.back.symm ▸ h'.sound)
  back := by rw [List.foldl_append, h.back, h'.back]

theorem cons {e : Event} (he : e.IsQuiet chain) (h : s.IsBracketed chain t) :
    s.IsBracketed chain (e :: t) where
  sound := ⟨h.sound.admits, he.2, he.1.symm ▸ h.sound⟩
  back := by rw [List.foldl_cons, he.1, h.back]

theorem of_isRemark (ha : s.Admits chain) (h : ∀ e ∈ t, Event.IsRemark chain e) :
    s.IsBracketed chain t := by
  induction t with
  | nil => exact nil ha
  | cons e t ih =>
    exact cons (h e List.mem_cons_self).isQuiet (ih fun e' he' => h e' (List.mem_cons_of_mem e he'))

/-- Between opening and closing a catalog that was not in progress, it is. -/
theorem nest (ha : s.Admits chain) {name : Text}
    (h : s.IsBracketed (chain ++ [name]) t) :
    s.IsBracketed chain (.opened name :: t ++ [.closed name]) := by
  -- What stands between leaves the longer list as it is, so closing gives the shorter one back.
  have hclosed : Event.progress (chain ++ [name]) (.closed name) = chain := List.dropLast_concat
  refine ⟨⟨ha, trivial, h.sound.append ?_⟩, ?_⟩
  · rw [h.back]
    exact ⟨h.sound.admits, trivial, hclosed.symm ▸ ha⟩
  · rw [List.foldl_append, List.foldl_cons]
    exact (congrArg (Event.progress · (.closed name)) h.back).trans hclosed

end IsBracketed

/-- **What reading adds to a trace is bracketed**, whether it goes through or fails. -/
theorem respects_isBracketed (s : Session) : s.Respects fun chain p q =>
    s.Admits chain → ∃ t, q.trace = p.trace ++ t ∧ s.IsBracketed chain t where
  refl := fun {chain p} ha => ⟨[], by simp, .nil ha⟩
  trans := by
    intro chain p q r hpq hqr ha
    obtain ⟨t, ht, hbracketed⟩ := hpq ha
    obtain ⟨t', ht', hbracketed'⟩ := hqr ha
    exact ⟨t ++ t', by rw [ht', ht, List.append_assoc], hbracketed.append hbracketed'⟩
  record := by
    intro chain policy r p ha
    obtain ⟨t, ht, hremarks⟩ := readRecord_trace policy r p
    exact ⟨_, ht, .cons ⟨rfl, trivial⟩ (.of_isRemark ha (hremarks chain))⟩
  remark := fun {chain e} p he ha => ⟨[e], rfl, .cons he.isQuiet (.nil ha)⟩
  nonPortable := fun p ha => ⟨[.forbadeNonPortable], rfl, .cons ⟨rfl, trivial⟩ (.nil ha)⟩
  nest := by
    intro chain name p q hc hs hpq ha
    obtain ⟨t, ht, hbracketed⟩ := hpq (ha.concat hc hs)
    refine ⟨.opened name :: t ++ [.closed name], ?_, hbracketed.nest ha⟩
    rw [Progress.trace_note, ht, Progress.trace_note]
    simp

/-- The trace of a call is bracketed: nothing is in progress when it begins, and nothing when it
ends. -/
theorem isBracketed_perform (s : Session) (r : Registry) (call : Call) :
    s.IsBracketed [] (s.perform r call).trace := by
  have hsummary : ∀ (p : Progress) (e : Event), e.isSummary = true → s.Admits [] →
      ∃ t, (p.note [e]).trace = p.trace ++ t ∧ s.IsBracketed [] t := fun p e he ha =>
    ⟨[e], rfl, .cons (Event.isQuiet_of_isSummary he []) (.nil ha)⟩
  obtain ⟨t, ht, hbracketed⟩ := s.respects_isBracketed.perform hsummary r call .nil
  obtain rfl : (s.perform r call).trace = t := ht
  exact hbracketed

/-! ### Nesting -/

/-- Reading a catalog with a bound on the depth to which catalogs are nested; `beyond` is what
happens there. -/
def readWithin (s : Session)
    (beyond : List Text → Text → Option Text → Progress → Reading Unit) :
    Nat → List Text → Text → Option Text → Progress → Reading Unit
  | 0, chain, name, target, p => beyond chain name target p
  | depth + 1, chain, name, target, p => s.readCatalogWith chain
      (fun found _ name p => s.readWithin beyond depth (chain ++ [found.name]) name none p)
      name target p

/-- **A bound beyond the number of served names that are not in progress cuts nothing off.** -/
theorem readWithin_eq (s : Session)
    (beyond : List Text → Text → Option Text → Progress → Reading Unit) {depth : Nat}
    {chain : List Text} (h : (s.unread chain).length < depth) :
    s.readWithin beyond depth chain = s.readCatalog chain := by
  funext name target p
  induction depth generalizing chain name target p with
  | zero => omega
  | succ depth ih =>
    rw [readWithin, readCatalog]
    congr 1
    funext found hc name p
    have hlt := s.length_unread_lt found.mem_served hc
    exact ih (by omega) name none p

theorem unread_nil (s : Session) : s.unread [] = s.served := by simp [unread]

end Session

/-! ### Runs -/

namespace Run

/-- After every run no catalog is in progress. -/
theorem inProgress_ofSteps (steps : List Step) : inProgress (ofSteps steps).trace = [] := by
  induction steps using List.reverseRecOn with
  | nil => rfl
  | append_singleton steps st ih =>
    rw [ofSteps_append_singleton]
    cases st with
    | populate s call =>
      change inProgress ((ofSteps steps).trace ++ (s.perform _ call).trace) = []
      rw [inProgress, List.foldl_append, ← inProgress, ih]
      exact (s.isBracketed_perform _ call).back
    | provide op => exact ih

/-- **Few catalogs are in progress, and in the end none.** After any calls, failed or not, and for
one call more, whatever the store serves:

* at every moment of the call the catalogs in progress are different catalogs that the store serves,
  so they are nested no deeper than their number, and the store is asked on behalf of them;
* when the call ends, none is in progress, and the calls before have no part in whether it fails;
* the number of served catalogs bounds the depth to which the reading of a catalog recurs, so that
  it ends: nothing at all happens beyond that depth. -/
theorem in_progress_sound (steps : List Step) (s : Session) (call : Call) :
    let run := ofSteps steps
    let outcome := s.perform run.registry call
    s.served.Nodup ∧
    (∀ t, t <+: outcome.trace → (inProgress (run.trace ++ t)).Nodup ∧
      (∀ name ∈ inProgress (run.trace ++ t), name ∈ s.served) ∧
      (inProgress (run.trace ++ t)).length ≤ s.served.length) ∧
    (∀ t name chain, t ++ [.requested name chain] <+: outcome.trace →
      chain = inProgress (run.trace ++ t)) ∧
    inProgress (run.trace ++ outcome.trace) = [] ∧
    outcome.failure = (s.perform (.ofClasses run.registry.classes) call).failure ∧
    ∀ beyond depth, s.served.length < depth → ∀ name target,
      s.config.outcomeOf
        (s.readWithin beyond depth [] name (s.targetOf target) run.registry.start) =
      s.perform run.registry (.catalog name target) := by
  intro run outcome
  have hbracketed : s.IsBracketed [] outcome.trace := s.isBracketed_perform run.registry call
  have hmoment (t : Trace) : inProgress (run.trace ++ t) = t.foldl Event.progress [] := by
    rw [inProgress, List.foldl_append, ← inProgress, inProgress_ofSteps]
  refine ⟨nodup_distinct _, fun t ht => ?_, fun t name chain ht => ?_, ?_, ?_, ?_⟩
  · rw [hmoment]
    have hadmits := hbracketed.sound.admits_of_prefix ht
    exact ⟨hadmits.nodup, fun name hname => Session.mem_served.2 (hadmits.served name hname),
      hadmits.length_le⟩
  · rw [hmoment]
    exact hbracketed.sound.eq_of_requested ht
  · rw [hmoment]
    exact hbracketed.back
  · have hview : run.registry.classes.view =
        (Registry.ofClasses run.registry.classes).classes.view := rfl
    exact s.failure_perform_congr hview call
  · intro beyond depth hdepth name target
    rw [s.readWithin_eq beyond (by rwa [s.unread_nil])]
    rfl

end Run
end Embargo
