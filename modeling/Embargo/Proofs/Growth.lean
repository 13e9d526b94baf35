import Embargo.Proofs.Answers
import Embargo.Proofs.InProgress
import Embargo.Proofs.Lines

/-!
# The index only grows

Filling a registry adds to its index and takes nothing away, whether the calls go through or fail.
What is there keeps its place, and what comes later stands behind it.

| part of the index | what it says after a run |
|---|---|
| the keys, the uses of methods, the patterns | every call leaves the earlier ones in front |
| the patterns | each is there once |
| the mark of the internal classes | some call, or some directive in a catalog, named them |
| all of it | nothing is there exactly if no record was accepted and the mark is not set |

* `Index.Grows` – one index has grown to another. Every change respects it
  (`Session.respects_grows`).
* `followed` – the inclusions that catalogs asked for, read off a trace: the directives that were
  followed while a catalog was in progress. A text of the user has directives, too, but those that
  include something are refused.
* `Marks` – how the mark depends on what is new in a trace. A directive is told before it is
  followed, so no single change respects this; the readers have to be gone through once more, from
  `readLine_marks` to `Session.readCatalog_marks`.
* `Run.Accepts` – some call of a run considered a record that was a pattern or did resolve.
* `Run.grows_only` – the main statement.
-/

namespace Embargo

/-! ### Growth -/

namespace Table

variable {α β : Type} [DecidableEq α]

theorem keys_prefix_insert (t : Table α β) (k : α) (v : β) : t.keys <+: (t.insert k v).keys := by
  rw [keys_insert]
  split
  · exact List.prefix_rfl
  · exact List.prefix_append _ _

end Table

theorem prefix_addOnce {α : Type} [DecidableEq α] (xs : List α) (x : α) : xs <+: addOnce xs x := by
  unfold addOnce
  split
  · exact List.prefix_rfl
  · exact List.prefix_append _ _

namespace Index

/-- One index has grown to another: what was there is there, in front of what has come. -/
structure Grows (index later : Index) : Prop where
  /-- No key is gone. -/
  reports : index.reports.keys <+: later.reports.keys
  /-- No use of a method is gone. -/
  uses : index.uses.keys <+: later.uses.keys
  /-- No pattern is gone. -/
  patterns : index.patterns <+: later.patterns
  /-- The mark is not taken back. -/
  nonPortable : index.nonPortable = true → later.nonPortable = true

namespace Grows

variable {a b c : Index}

theorem refl (index : Index) : index.Grows index :=
  ⟨List.prefix_rfl, List.prefix_rfl, List.prefix_rfl, id⟩

theorem trans (hab : a.Grows b) (hbc : b.Grows c) : a.Grows c where
  reports := hab.reports.trans hbc.reports
  uses := hab.uses.trans hbc.uses
  patterns := hab.patterns.trans hbc.patterns
  nonPortable := hbc.nonPortable ∘ hab.nonPortable

theorem size_le (h : a.Grows b) : a.size ≤ b.size := by
  rw [size, size, ← Table.length_keys, ← Table.length_keys]
  exact Nat.add_le_add h.reports.length_le h.patterns.length_le

end Grows

variable (index : Index)

theorem grows_insert (report : Text) (key : Key) : index.Grows (index.insert report key) where
  reports := Table.keys_prefix_insert _ _ _
  uses := by
    unfold insert
    cases key.use? with
    | none => exact List.prefix_rfl
    | some use => exact Table.keys_prefix_insert _ _ _
  patterns := List.prefix_rfl
  nonPortable := id

theorem grows_add (report : Text) (keys : List Key) : index.Grows (index.add report keys) :=
  List.foldlRecOn (motive := index.Grows) keys _ (.refl index) fun _ h key _ =>
    h.trans (grows_insert _ report key)

theorem grows_accept (u : Universe) (r : Record) : index.Grows (index.accept u r) := by
  unfold accept
  split
  · exact ⟨List.prefix_rfl, List.prefix_rfl, prefix_addOnce _ _, id⟩
  · exact index.grows_add _ _

theorem nodup_patterns_accept {index : Index} (h : index.patterns.Nodup) (u : Universe)
    (r : Record) : (index.accept u r).patterns.Nodup := by
  rw [patterns_accept]
  split
  · exact nodup_addOnce h _
  · exact h

end Index

namespace Session

variable (s : Session)

/-- **Reading only adds to the index.** -/
theorem respects_grows : s.Respects fun _ p q => p.index.Grows q.index where
  refl := .refl _
  trans := .trans
  record := fun policy r p => by
    rw [readRecord_index]
    exact p.index.grows_accept p.classes r
  remark := fun _ _ => .refl _
  nonPortable := fun _ => ⟨List.prefix_rfl, List.prefix_rfl, List.prefix_rfl, fun _ => rfl⟩
  nest := fun _ _ h => h

/-- Reading adds no pattern twice. -/
theorem respects_nodup_patterns :
    s.Respects fun _ p q => p.index.patterns.Nodup → q.index.patterns.Nodup where
  refl := id
  trans := fun hpq hqr => hqr ∘ hpq
  record := fun policy r p h => by
    rw [readRecord_index]
    exact Index.nodup_patterns_accept h p.classes r
  remark := fun _ _ => id
  nonPortable := fun _ => id
  nest := fun _ _ h => h

end Session

namespace Run

theorem grows_step (run : Run) (st : Step) :
    run.registry.index.Grows (run.step st).registry.index := by
  cases st with
  | populate s call => exact s.respects_grows.perform (fun _ _ _ => .refl _) run.registry call
  | provide op => exact .refl _

/-- **A run only adds to the index.** -/
theorem grows_ofSteps (steps more : List Step) :
    (ofSteps steps).registry.index.Grows (ofSteps (steps ++ more)).registry.index := by
  induction more using List.reverseRecOn with
  | nil =>
    rw [List.append_nil]
    exact .refl _
  | append_singleton more st ih =>
    rw [← List.append_assoc, ofSteps_append_singleton]
    exact ih.trans (grows_step _ st)

/-- A run has each pattern once. -/
theorem nodup_patterns_ofSteps (steps : List Step) :
    (ofSteps steps).registry.index.patterns.Nodup := by
  induction steps using List.reverseRecOn with
  | nil => exact List.nodup_nil
  | append_singleton steps st ih =>
    rw [ofSteps_append_singleton]
    cases st with
    | populate s call => exact s.respects_nodup_patterns.perform (fun _ _ _ => id) _ call ih
    | provide op => exact ih

end Run

/-! ### The mark of the internal classes -/

/-- The catalog that an event includes, if a directive to do so is followed. -/
def Event.inclusion? : Event → Option Text
  | .directive line =>
    match Line.parse line none with
    | .ok (.directive (.includeCatalog name)) => some name
    | _ => none
  | _ => none

/-- The inclusions that a trace tells of while catalogs are in progress, in order. -/
def followed : List Text → Trace → List Text
  | _, [] => []
  | chain, e :: t =>
    (if chain = [] then [] else e.inclusion?.toList) ++ followed (e.progress chain) t

theorem followed_append (chain : List Text) (t t' : Trace) :
    followed chain (t ++ t') = followed chain t ++ followed (t.foldl Event.progress chain) t' := by
  induction t generalizing chain with
  | nil => rfl
  | cons e t ih => rw [List.cons_append, followed, ih, followed, List.foldl_cons, List.append_assoc]

namespace Event

theorem inclusion?_directive {line : Text} {m : Option Text} {d : Directive}
    (hl : Line.parse line m = .ok (.directive d)) :
    (Event.directive line).inclusion? = match d with
      | .includeCatalog name => some name
      | _ => none := by
  rw [inclusion?, Line.parse_eq_directive hl none]
  cases d <;> rfl

/-- An event that includes, opens and closes nothing. -/
structure IsStill (e : Event) : Prop where
  /-- It includes nothing. -/
  inclusion? : e.inclusion? = none
  /-- It opens and closes nothing. -/
  progress : ∀ chain, e.progress chain = chain

theorem isStill_considered (r : Record) (policy : Policy) : (considered r policy).IsStill :=
  ⟨rfl, fun _ => rfl⟩

theorem isStill_of_isSummary {e : Event} (h : e.isSummary = true) : e.IsStill := by
  cases e with
  | missingClasses => exact ⟨rfl, fun _ => rfl⟩
  | summary line => exact ⟨rfl, fun _ => rfl⟩
  | _ => cases h

theorem IsAside.isStill {chain : List Text} {e : Event} (h : e.IsAside chain) : e.IsStill := by
  cases e with
  | directive line => exact h.elim
  | opened name => exact h.elim
  | closed name => exact h.elim
  | _ => exact ⟨rfl, fun _ => rfl⟩

end Event

theorem followed_of_isStill {t : Trace} (h : ∀ e ∈ t, Event.IsStill e) (chain : List Text) :
    t.foldl Event.progress chain = chain ∧ followed chain t = [] := by
  induction t with
  | nil => exact ⟨rfl, rfl⟩
  | cons e t ih =>
    have he := h e List.mem_cons_self
    obtain ⟨hback, hfollowed⟩ := ih fun e' he' => h e' (List.mem_cons_of_mem e he')
    rw [List.foldl_cons, followed, he.progress, he.inclusion?, hback, hfollowed]
    simp

/-- The call names the internal classes of the runtime. -/
def Call.namesNonPortable : Call → Prop
  | .catalog name _ => name = Session.nonPortableName
  | .text _ | .stream _ _ | .file _ => False

/-- What is new in a trace leaves the catalogs in progress as they were, and the mark is set
exactly if it was set before, or something named the internal classes: a directive in a catalog, or
what the reading was about. The latter is not told by an event, so it is `named`. -/
def Marks (chain : List Text) (named : Prop) (p q : Progress) : Prop :=
  ∃ t, q.trace = p.trace ++ t ∧ t.foldl Event.progress chain = chain ∧
    (q.index.nonPortable = true ↔
      p.index.nonPortable = true ∨ named ∨ Session.nonPortableName ∈ followed chain t)

namespace Marks

variable {chain : List Text} {named named' : Prop} {p q r : Progress} {t : Trace}

theorem trans (hpq : Marks chain named p q) (hqr : Marks chain named' q r) :
    Marks chain (named ∨ named') p r := by
  obtain ⟨t, ht, hback, hmark⟩ := hpq
  obtain ⟨t', ht', hback', hmark'⟩ := hqr
  refine ⟨t ++ t', by rw [ht', ht, List.append_assoc], by rw [List.foldl_append, hback, hback'], ?_⟩
  rw [hmark', hmark, followed_append, hback, List.mem_append]
  tauto

theorem congr (h : Marks chain named p q) (hiff : named ↔ named') : Marks chain named' p q := by
  rwa [← propext hiff]

/-- Events that include, open and close nothing have no part in the mark. -/
theorem of_isStill (ht : ∀ e ∈ t, Event.IsStill e) (htrace : q.trace = p.trace ++ t)
    (hmark : q.index.nonPortable = p.index.nonPortable) : Marks chain False p q := by
  obtain ⟨hback, hfollowed⟩ := followed_of_isStill ht chain
  exact ⟨t, htrace, hback, by rw [hmark, hfollowed]; simp⟩

theorem refl : Marks chain False p p := of_isStill (t := []) (by simp) (by simp) rfl

theorem note (ht : ∀ e ∈ t, Event.IsStill e) : Marks chain False p (p.note t) :=
  of_isStill ht rfl rfl

/-- What an inclusion names is named by its directive. -/
theorem inclusion {line name : Text} {m : Option Text} (hc : chain ≠ [])
    (hl : Line.parse line m = .ok (.directive (.includeCatalog name)))
    (h : Marks chain (name = Session.nonPortableName) (p.note [.directive line]) q) :
    Marks chain False p q := by
  obtain ⟨t, ht, hback, hmark⟩ := h
  refine ⟨.directive line :: t, by simp [ht], hback, ?_⟩
  have hfollowed : followed chain (.directive line :: t) = name :: followed chain t := by
    rw [followed, if_neg hc, Event.inclusion?_directive hl]
    rfl
  rw [hmark, Progress.index_note, hfollowed, List.mem_cons]
  tauto

/-- Between opening and closing a catalog it is in progress. -/
theorem nest {name : Text} (h : Marks (chain ++ [name]) False (p.note [.opened name]) q) :
    Marks chain False p (q.note [.closed name]) := by
  obtain ⟨t, ht, hback, hmark⟩ := h
  have hclosed : Event.progress (chain ++ [name]) (.closed name) = chain := List.dropLast_concat
  have hfollowed : followed chain (.opened name :: t ++ [.closed name]) =
      followed (chain ++ [name]) t := by
    rw [List.cons_append, followed, followed_append, Event.progress, hback]
    simp [Event.inclusion?, followed]
  refine ⟨.opened name :: t ++ [.closed name], by simp [ht], ?_, ?_⟩
  · rw [List.foldl_append, List.foldl_cons]
    exact (congrArg (Event.progress · (.closed name)) hback).trans hclosed
  · rw [hfollowed]
    exact hmark

end Marks

theorem Index.nonPortable_add (index : Index) (report : Text) (keys : List Key) :
    (index.add report keys).nonPortable = index.nonPortable :=
  List.foldlRecOn (motive := fun later : Index => later.nonPortable = index.nonPortable) keys _ rfl
    fun _ h _ _ => h

theorem Index.nonPortable_accept (index : Index) (u : Universe) (r : Record) :
    (index.accept u r).nonPortable = index.nonPortable := by
  unfold accept
  split
  · rfl
  · exact index.nonPortable_add _ _

theorem readRecord_marks (chain : List Text) (policy : Policy) (r : Record) (p : Progress) :
    Marks chain False p (readRecord policy r p).2 := by
  obtain ⟨t, ht, hasides⟩ := readRecord_asides policy r p
  refine .of_isStill (fun e he => ?_) ht ?_
  · rcases List.mem_cons.1 he with rfl | he
    · exact Event.isStill_considered r policy
    · exact (hasides chain e he).isStill
  · rw [readRecord_index, Index.nonPortable_accept]

section Lines

variable {origin : Origin} {expand : Text → Progress → Reading Unit} {chain : List Text}
variable (horigin : origin = .catalog ↔ chain ≠ [])
variable (hexpand : chain ≠ [] →
  ∀ name p, Marks chain (name = Session.nonPortableName) p (expand name p).2)

include horigin hexpand

theorem readLine_marks (line : Text) (scope : Scope) (p : Progress) :
    Marks chain False p (readLine origin expand line scope p).2 := by
  generalize hres : readLine origin expand line scope p = res
  have hreading := hres ▸ readLine_reading origin expand line scope p
  cases hreading with
  | skipped hc => exact .refl
  | malformed hc hl => exact .refl
  | record hc hl hr => exact congrArg Prod.snd hr ▸ readRecord_marks chain scope.policy _ p
  | recordFailed hc hl hr => exact congrArg Prod.snd hr ▸ readRecord_marks chain scope.policy _ p
  | includeRefused hc hl ho =>
    -- The directive of a user's text is told, but no catalog is in progress.
    have hchain : chain = [] := by
      by_contra h
      cases ho.symm.trans (horigin.2 h)
    subst hchain
    exact ⟨[.directive (Text.trim line)], rfl, rfl, by simp [followed]⟩
  | included hc hl ho hx =>
    exact .inclusion (horigin.1 ho) hl (congrArg Prod.snd hx ▸ hexpand (horigin.1 ho) _ _)
  | includeFailed hc hl ho hx =>
    exact .inclusion (horigin.1 ho) hl (congrArg Prod.snd hx ▸ hexpand (horigin.1 ho) _ _)
  | message hc hl =>
    exact .note (List.forall_mem_singleton.2 ⟨Event.inclusion?_directive hl, fun _ => rfl⟩)
  | lenient hc hl =>
    exact .note (List.forall_mem_singleton.2 ⟨Event.inclusion?_directive hl, fun _ => rfl⟩)

theorem readLines_marks (lines : List Text) (scope : Scope) (p : Progress) :
    Marks chain False p (readLines origin expand lines scope p).2 := by
  induction lines generalizing scope p with
  | nil => exact .refl
  | cons line lines ih =>
    have hline := readLine_marks horigin hexpand line scope p
    rw [readLines_cons]
    split
    · next scope' q hq =>
      rw [hq] at hline
      exact (hline.trans (ih scope' q)).congr (or_self_iff)
    · next e q hq =>
      rw [hq] at hline
      exact hline

end Lines

namespace Session

variable (s : Session)

/-- **A catalog sets the mark exactly if it is the one that stands for the internal classes, or
includes it**, directly or over other catalogs. -/
theorem readCatalog_marks (chain : List Text) (name : Text) (target : Option Text) (p : Progress) :
    Marks chain (name = nonPortableName) p (s.readCatalog chain name target p).2 := by
  induction chain using s.chain_induction generalizing name target p with | longer chain ih
  rw [Session.readCatalog]
  generalize hres : s.readCatalogWith chain _ name target p = res
  have hreading := hres ▸ s.readCatalogWith_reading chain _ name target p
  cases hreading with
  | illNamed h =>
    have hne : name ≠ nonPortableName := by
      rintro rfl
      cases h
    exact Marks.refl.congr (iff_of_false id hne)
  | nonPortable h =>
    have hstill : ∀ e ∈ announce chain nonPortableName ++ [Event.forbadeNonPortable],
        Event.IsStill e := fun e he => by
      rcases List.mem_append.1 he with he | he
      · exact (isAside_of_mem_announce chain nonPortableName e he).isStill
      · obtain rfl := List.mem_singleton.1 he
        exact ⟨rfl, fun _ => rfl⟩
    obtain ⟨hback, -⟩ := followed_of_isStill hstill chain
    exact ⟨_, rfl, hback, iff_of_true rfl (.inr (.inl h))⟩
  | notFound h ht hfind =>
    exact (Marks.note fun e he => (ht e he).isStill).congr (iff_of_false id h)
  | recursive h ht hfind hc =>
    exact (Marks.note fun e he => (ht e he).isStill).congr (iff_of_false id h)
  | @opened found t result q h ht hfind hc hfeed =>
    have hstill : ∀ e ∈ t ++ announce chain found.name, Event.IsStill e := fun e he =>
      (List.mem_append.1 he).elim (fun he => (ht e he).isStill)
        fun he => (isAside_of_mem_announce chain found.name e he).isStill
    refine ((Marks.note hstill).trans (.nest ?_)).congr (by simp [h])
    rw [show q = _ from (congrArg Prod.snd hfeed).symm, readFeed_progress]
    exact readLines_marks (by simp) (fun _ name p => ih found hc name none p) _ _ _

/-- A call sets the mark exactly if it, or an inclusion that it follows, names the internal
classes. -/
theorem marks_perform (r : Registry) (call : Call) :
    Marks [] call.namesNonPortable r.start (s.perform r call).progress := by
  have houtcome {named : Prop} {res : Reading Unit} (h : Marks [] named r.start res.2) :
      Marks [] named r.start (s.config.outcomeOf res).progress := by
    obtain ⟨t, ht, heq⟩ := s.config.outcomeOf_progress res
    rw [heq]
    exact (h.trans (.note fun e he => Event.isStill_of_isSummary (ht e he))).congr (by simp)
  have hfeed (event : Event) (hevent : event.IsAside []) (name : Text) (feed : Feed) :
      Marks [] False r.start (s.addFeed event name feed r).progress := by
    refine houtcome ?_
    rw [readFeed_progress]
    have hnote : Marks [] False r.start (r.start.note [event]) :=
      .note (List.forall_mem_singleton.2 hevent.isStill)
    exact (hnote.trans (readLines_marks (by simp) (by simp) _ _ _)).congr (by simp)
  cases call with
  | catalog name target => exact houtcome (s.readCatalog_marks [] name _ r.start)
  | text t => exact hfeed .readingInline trivial _ _
  | stream name feed => exact hfeed (.readingText name) trivial _ _
  | file path =>
    rw [Session.perform, addFile]
    split
    · exact hfeed (.readingText path.text) trivial _ _
    all_goals exact .refl

end Session

namespace Run

/-- **The mark of a run** is set exactly if a call, or a directive in a catalog, named the internal
classes. -/
theorem nonPortable_ofSteps (steps : List Step) :
    (ofSteps steps).registry.index.nonPortable = true ↔
      (∃ s target, .populate s (.catalog Session.nonPortableName target) ∈ steps) ∨
      Session.nonPortableName ∈ followed [] (ofSteps steps).trace := by
  induction steps using List.reverseRecOn with
  | nil => simp [ofSteps, Registry.ofClasses, Index.empty, followed]
  | append_singleton steps st ih =>
    rw [ofSteps_append_singleton]
    cases st with
    | populate s call =>
      obtain ⟨t, ht, -, hmark⟩ := s.marks_perform (ofSteps steps).registry call
      obtain rfl : (s.perform (ofSteps steps).registry call).trace = t := ht
      have hcall : (∃ s' target, Step.populate s' (.catalog Session.nonPortableName target) =
          .populate s call) ↔ call.namesNonPortable := by
        cases call <;> simp [Call.namesNonPortable, eq_comm]
      change (s.perform (ofSteps steps).registry call).registry.index.nonPortable = true ↔ _ ∨
        _ ∈ followed [] ((ofSteps steps).trace ++ (s.perform _ call).trace)
      rw [followed_append, ← inProgress, inProgress_ofSteps, List.mem_append]
      refine hmark.trans ((or_congr_left ih).trans ?_)
      simp only [List.mem_append, List.mem_singleton, exists_or, hcall]
      exact or_or_or_comm
    | provide op =>
      refine ih.trans (or_congr_left ?_)
      simp

end Run

/-! ### Emptiness -/

/-- A table with an entry is not empty. -/
theorem Table.isEmpty_insert {α β : Type} [DecidableEq α] (t : Table α β) (k : α) (v : β) :
    (t.insert k v).isEmpty = false := by
  obtain ⟨_ | ⟨⟨l, w⟩, rest⟩⟩ := t
  · rfl
  · change (put k v ((l, w) :: rest)).isEmpty = false
    rw [put]
    split <;> rfl

/-- A record has keys exactly if it resolves. -/
theorem Record.isEmpty_keysIn (r : Record) (u : Universe) :
    (r.keysIn u).isEmpty = !r.isResolvedIn u := by
  cases h : r.isResolvedIn u with
  | false => simp [keysIn_eq_nil h]
  | true =>
    obtain ⟨info, keys, hv, hk⟩ := isResolvedIn_iff.1 h
    obtain ⟨key, hkey⟩ := ClassInfo.exists_mem_keysOf hk
    rw [keysIn_eq hv hk]
    simpa using List.ne_nil_of_mem hkey

namespace Index

/-- No key and no pattern is there. -/
def isBare (index : Index) : Bool := index.reports.isEmpty && index.patterns.isEmpty

theorem isEmpty_reports_add (index : Index) (report : Text) (keys : List Key) :
    (index.add report keys).reports.isEmpty = (index.reports.isEmpty && keys.isEmpty) := by
  induction keys generalizing index with
  | nil => simp [add]
  | cons key keys ih =>
    rw [add, List.foldl_cons, ← add, ih, insert]
    simp [Table.isEmpty_insert]

/-- An accepted record leaves something behind, and any other nothing. -/
theorem isBare_accept (index : Index) (u : Universe) (r : Record) :
    (index.accept u r).isBare = (index.isBare && !r.isAcceptedIn u) := by
  rw [isBare, patterns_accept, accept, Record.isAcceptedIn]
  cases hp : r.isPattern with
  | true =>
    have hmem : r.pattern ∈ addOnce index.patterns r.pattern := mem_addOnce.2 (.inr rfl)
    simp [List.ne_nil_of_mem hmem]
  | false =>
    simp [isBare, isEmpty_reports_add, r.isEmpty_keysIn, Bool.and_right_comm]

/-- **What a trace does leaves no key and no pattern** exactly if none of its records is
accepted. -/
theorem isBare_foldl (u : Universe) (index : Index) (t : Trace) :
    (t.foldl (follow u) index).isBare = (index.isBare && (acceptedOf u t).isEmpty) := by
  induction t generalizing index with
  | nil => simp [acceptedOf, recordsOf]
  | cons e t ih =>
    rw [List.foldl_cons, ih]
    cases e with
    | considered r policy =>
      rw [follow, isBare_accept]
      cases h : r.isAcceptedIn u <;> simp [acceptedOf, recordsOf, Event.considered?, h]
    | _ => rfl

end Index

namespace Run

/-- Some call of a run considered the record, and accepted it: it was a pattern, or it resolved
among the classes of that moment. -/
def Accepts (steps : List Step) (r : Record) : Prop :=
  ∃ front s call, front ++ [.populate s call] <+: steps ∧
    r ∈ acceptedOf (ofSteps front).registry.classes
      (s.perform (ofSteps front).registry call).trace

theorem accepts_concat {steps : List Step} {st : Step} {r : Record} :
    Accepts (steps ++ [st]) r ↔ Accepts steps r ∨ ∃ s call, st = .populate s call ∧
      r ∈ acceptedOf (ofSteps steps).registry.classes
        (s.perform (ofSteps steps).registry call).trace := by
  constructor
  · rintro ⟨front, s, call, hprefix, hr⟩
    rcases List.prefix_concat_iff.1 hprefix with heq | hprefix
    · obtain ⟨rfl, hst⟩ := List.append_inj' heq rfl
      exact .inr ⟨s, call, (List.singleton_inj.1 hst).symm, hr⟩
    · exact .inl ⟨front, s, call, hprefix, hr⟩
  · rintro (⟨front, s, call, hprefix, hr⟩ | ⟨s, call, rfl, hr⟩)
    · exact ⟨front, s, call, hprefix.trans (List.prefix_append _ _), hr⟩
    · exact ⟨steps, s, call, List.prefix_rfl, hr⟩

/-- A run leaves no key and no pattern exactly if it accepted nothing. -/
theorem isBare_ofSteps (steps : List Step) :
    (ofSteps steps).registry.index.isBare = true ↔ ∀ r, ¬Accepts steps r := by
  induction steps using List.reverseRecOn with
  | nil => simp [Accepts, ofSteps, Registry.ofClasses, Index.empty, Index.isBare, Table.isEmpty,
      Table.empty]
  | append_singleton steps st ih =>
    rw [ofSteps_append_singleton]
    simp only [accepts_concat, not_or, forall_and, ← ih]
    cases st with
    | populate s call =>
      obtain ⟨-, t, ht, hindex⟩ := s.respects_replays.perform replays_of_isSummary
        (ofSteps steps).registry call
      obtain rfl : (s.perform (ofSteps steps).registry call).trace = t := ht
      have hbare := (congrArg Index.isBare hindex).trans (Index.isBare_foldl _ _ _)
      refine (iff_of_eq (congrArg (· = true) hbare)).trans ?_
      rw [Bool.and_eq_true, List.isEmpty_iff, List.eq_nil_iff_forall_not_mem]
      simp [Registry.start]
    | provide op => simp [step]

end Run
end Embargo
