import Embargo.Proofs.Comparison

/-!
# What a call depends on

Whether a call fails, how, and what it does, does not depend on what was forbidden before, on the
classes that were skipped, or on what happened in earlier calls: of the progress only what the
universe says counts. So an earlier call, failed or not, cannot make a later one fail
(`Session.failure_perform_congr`), and a call that is made again does the same deeds again
(`Session.deedsOf_perform_congr`).

Both are statements about two runs side by side, with universes that say the same.
-/

namespace Embargo

/-- The universes of two runs say the same, and the runs have done the same. -/
structure SameDeeds (p q : Progress) : Prop where
  /-- The universes say the same. -/
  view : q.classes.view = p.classes.view
  /-- The deeds are the same. -/
  deeds : deedsOf q.trace = deedsOf p.trace

theorem deedsOf_append (t t' : Trace) : deedsOf (t ++ t') = deedsOf t ++ deedsOf t' :=
  List.filter_append t t'

theorem deedsOf_eq_nil {t : Trace} (h : ∀ e ∈ t, Event.isDeed e = false) : deedsOf t = [] :=
  List.filter_eq_nil_iff.2 fun e he => by simp [h e he]

/-! ### Records -/

theorem Policy.handle_result (policy : Policy) (r : Record) (gap : Gap) (p q : Progress) :
    (policy.handle r gap p).1 = (policy.handle r gap q).1 := by
  unfold Policy.handle
  split <;> rfl

/-- Whether a record stops the reader depends on what the universe says alone. -/
theorem readRecord_result_congr {p q : Progress} (h : q.classes.view = p.classes.view)
    (policy : Policy) (r : Record) : (readRecord policy r q).1 = (readRecord policy r p).1 := by
  have hresolve : r.resolve (q.classes.lookUp r.className) =
      r.resolve (p.classes.lookUp r.className) := r.resolve_congr (congrFun h r.className)
  unfold readRecord
  dsimp only [Progress.classes_note]
  split
  · rfl
  · rw [hresolve]
    split
    · rfl
    · exact policy.handle_result r _ _ _

theorem deedsOf_readRecord (policy : Policy) (r : Record) (p : Progress) :
    deedsOf (readRecord policy r p).2.trace = deedsOf p.trace ++ [.considered r policy] := by
  obtain ⟨t, ht, hremarks⟩ := readRecord_trace policy r p
  rw [ht, deedsOf_append, deedsOf, deedsOf, List.filter_cons_of_pos rfl, ← deedsOf, ← deedsOf,
    deedsOf_eq_nil fun e he => (hremarks [] e he).isDeed]

/-- **Runs over universes that say the same do the same.** -/
theorem compares_sameDeeds : Compares SameDeeds where
  record := by
    intro p q h policy r
    refine ⟨readRecord_result_congr h.view policy r, ?_, ?_⟩
    · rw [readRecord_view, readRecord_view, h.view]
    · rw [deedsOf_readRecord, deedsOf_readRecord, h.deeds]
  tell := by
    intro p q t t' h ht ht'
    refine ⟨h.view, ?_⟩
    rw [Progress.trace_note, Progress.trace_note, deedsOf_append, deedsOf_append, h.deeds,
      deedsOf_eq_nil ht, deedsOf_eq_nil ht']
  nonPortable := by
    intro p q h
    refine ⟨h.view, ?_⟩
    rw [Progress.trace_note, Progress.trace_note, deedsOf_append, deedsOf_append, h.deeds]

/-! ### Calls -/

namespace Session

variable (s : Session) {r r' : Registry} (h : r.classes.view = r'.classes.view) (call : Call)

include h

/-- **Whether a call fails, and how, depends on what the universe says alone**: not on what is
forbidden already, and not on the calls before. -/
theorem failure_perform_congr : (s.perform r call).failure = (s.perform r' call).failure :=
  (perform_agree compares_sameDeeds ⟨h, rfl⟩ call).1

/-- **What a call does depends on what the universe says alone.** -/
theorem deedsOf_perform_congr :
    deedsOf (s.perform r call).trace = deedsOf (s.perform r' call).trace :=
  (perform_agree compares_sameDeeds ⟨h, rfl⟩ call).2.deeds

end Session
end Embargo
