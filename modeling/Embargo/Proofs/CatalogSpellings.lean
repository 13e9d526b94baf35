import Embargo.Proofs.CanonicalNames
import Embargo.Proofs.IncludeGraph
import Embargo.Proofs.Scoping

/-!
# Spellings of catalog names

A catalog has several names: all those with its canonical name, and, with a target version, those
without a version. In a call it does not matter which of them is used.

| the names | what is the same | theorem |
|---|---|---|
| two with one canonical form | everything | `Session.perform_catalog_congr` |
| one without a version, and a target | all but what is told | `Session.perform_catalog_target` |

There are two notions of a version at the end of a name: `Catalog.splitVersion?` says what is
brought to canonical form, and `Catalog.isUnversioned` which names take the target's version. No
name has a version in the first sense and none in the second
(`Catalog.isUnversioned_of_splitVersion?`), so names with one canonical form are equal or take no
target (`Catalog.eq_or_isUnversioned`).

What is the same but for what is told is said by `SameState`, of the states of two runs, and by
`Outcome.SameEnd`, of what two calls lead to.
-/

namespace Embargo

/-! ### Names with one canonical form -/

namespace Catalog

/-- A version behind the last hyphen is a version in the second sense. -/
theorem isUnversioned_of_cutLast {name before version : Text} (hname : isName name = true)
    (hcut : Text.cutLast '-' name = some (before, version))
    (hversion : isVersionText version = true) : isUnversioned name = false := by
  have hnewline : CodePoint.char '\n' ∉ before := fun hm =>
    absurd (List.all_eq_true.1 (Bool.and_eq_true_iff.1 hname).2 _ (Text.mem_of_cutLast hcut hm))
      (by decide)
  simp [isUnversioned, hcut, hversion, hnewline]

/-- **A name whose version is brought to canonical form takes no target.** -/
theorem isUnversioned_of_splitVersion? {name stem version : Text} (hname : isName name = true)
    (h : splitVersion? name = some (stem, version)) : isUnversioned name = false := by
  obtain ⟨before, hcut, -, -, hversion⟩ := of_splitVersion? h
  exact isUnversioned_of_cutLast hname hcut hversion

theorem canonicalForm_of_splitVersion? {name : Text} (hs : splitVersion? name = none) :
    canonicalForm name = .ok name := by
  rw [canonicalForm, hs]

theorem isName_of_canonical {name c : Text} {target : Option Text}
    (h : canonicalName name target = .ok c) : isName name = true :=
  (canonicalName_eq_ok_iff.1 h).1

/-- **Two names with one canonical form are equal, or take no target.** -/
theorem eq_or_isUnversioned {n n' c : Text} (h : canonicalName n none = .ok c)
    (h' : canonicalName n' none = .ok c) :
    n' = n ∨ isUnversioned n = false ∧ isUnversioned n' = false := by
  have hform := canonicalForm_of_canonicalName h
  have hform' := canonicalForm_of_canonicalName h'
  cases hs : splitVersion? n with
  | none =>
    obtain rfl := Except.ok.inj ((canonicalForm_of_splitVersion? hs).symm.trans hform)
    cases hs' : splitVersion? n' with
    | none => exact .inl (Except.ok.inj ((canonicalForm_of_splitVersion? hs').symm.trans hform'))
    | some parts =>
      obtain ⟨v, -, hsplit, -⟩ := splitVersion?_canonicalForm hs' hform'
      cases hs.symm.trans hsplit
  | some parts =>
    cases hs' : splitVersion? n' with
    | none =>
      obtain rfl := Except.ok.inj ((canonicalForm_of_splitVersion? hs').symm.trans hform')
      obtain ⟨v, -, hsplit, -⟩ := splitVersion?_canonicalForm hs hform
      cases hs'.symm.trans hsplit
    | some parts' =>
      exact .inr ⟨isUnversioned_of_splitVersion? (isName_of_canonical h) hs,
        isUnversioned_of_splitVersion? (isName_of_canonical h') hs'⟩

/-- A name that takes a target is its own canonical name. -/
theorem canonicalName_of_isUnversioned {name : Text} (hname : isName name = true)
    (h : isUnversioned name = true) : canonicalName name none = .ok name := by
  refine canonicalName_eq_ok_iff.2 ⟨hname, hname, ?_⟩
  cases hs : splitVersion? name with
  | none => exact canonicalForm_of_splitVersion? hs
  | some parts =>
    rw [isUnversioned_of_splitVersion? hname hs] at h
    cases h

/-- If one of two names with one canonical form stands for the internal classes of the runtime, then
so does the other. -/
theorem eq_nonPortableName_iff {n n' c : Text} (h : canonicalName n none = .ok c)
    (h' : canonicalName n' none = .ok c) :
    n = Session.nonPortableName ↔ n' = Session.nonPortableName := by
  have hfixed : canonicalName Session.nonPortableName none = .ok Session.nonPortableName := by
    decide
  constructor
  · rintro rfl
    by_contra hne
    exact ne_nonPortableName hne h' (Except.ok.inj (h.symm.trans hfixed))
  · rintro rfl
    by_contra hne
    exact ne_nonPortableName hne h (Except.ok.inj (h'.symm.trans hfixed))

end Catalog

namespace Session

variable (s : Session)

/-! ### Asking step by step -/

theorem askCanonical_of_error (chain : List Text) {name : Text} {target : Option Text}
    {e : CatalogNameError} (h : Catalog.canonicalName name target = .error e) (p : Progress) :
    s.askCanonical chain name target p = (.error (.reference e), p) := by
  unfold askCanonical
  split
  · next e' h' =>
    obtain rfl := Except.error.inj (h'.symm.trans h)
    rfl
  · next canonical h' => cases h'.symm.trans h

theorem askCanonical_of_ok (chain : List Text) {name canonical : Text} {target : Option Text}
    (h : Catalog.canonicalName name target = .ok canonical) (p : Progress) :
    s.askCanonical chain name target p =
      (s.ask chain canonical (Catalog.isName_of_canonicalName h) p).andThen
        fun found p => (.ok (canonical, found), p) := by
  unfold askCanonical
  split
  · next e h' => cases h'.symm.trans h
  · next canonical' h' =>
    obtain rfl := Except.ok.inj (h'.symm.trans h)
    rcases s.ask chain canonical' _ p with ⟨e | found, q⟩ <;> rfl

/-- What a store is asked is a matter of the canonical name. -/
theorem askCanonical_congr (chain : List Text) {n n' : Text} {target target' : Option Text}
    (h : Catalog.canonicalName n' target' = Catalog.canonicalName n target) (p : Progress) :
    s.askCanonical chain n' target' p = s.askCanonical chain n target p := by
  cases hc : Catalog.canonicalName n target with
  | error e => rw [s.askCanonical_of_error chain hc, s.askCanonical_of_error chain (h.trans hc)]
  | ok c => rw [s.askCanonical_of_ok chain hc, s.askCanonical_of_ok chain (h.trans hc)]

/-- What a question comes to, if no other is asked. -/
def settle (asked : Text × Option s.Found) (p : Progress) : Reading s.Found :=
  match asked.2 with
  | some found => (.ok found, p)
  | none => (.error (.notFound asked.1 s.store.text), p)

/-- **A second question is asked only if the first finds nothing** and the name takes the target. -/
theorem find_eq_andThen (chain : List Text) (name : Text) (target : Option Text) (p : Progress) :
    s.find chain name target p = (s.askCanonical chain name none p).andThen fun asked p =>
      if asked.2.isNone && (target.isSome && Catalog.isUnversioned name) then
        (s.askCanonical chain name target p).andThen s.settle
      else s.settle asked p := by
  unfold find
  rcases s.askCanonical chain name none p with ⟨e | ⟨canonical, _ | found⟩, q⟩
  · rfl
  · simp only [Reading.andThen, Option.isNone_none, Bool.true_and]
    split
    · rcases s.askCanonical chain name target q with ⟨e | ⟨canonical', _ | found⟩, q'⟩ <;> rfl
    · rfl
  · rfl

/-- A name that takes no target is asked for once. -/
theorem find_of_isUnversioned_eq_false (chain : List Text) {name : Text}
    (h : Catalog.isUnversioned name = false) (target : Option Text) (p : Progress) :
    s.find chain name target p = (s.askCanonical chain name none p).andThen s.settle := by
  simp [find_eq_andThen, h]

/-- Two names that lead to the same find lead to the same reading. -/
theorem readCatalog_congr {chain : List Text} {n n' : Text} {target target' : Option Text}
    {p q : Progress} (hname : Catalog.checkName n = .ok n) (hname' : Catalog.checkName n' = .ok n')
    (hne : n ≠ nonPortableName) (hne' : n' ≠ nonPortableName)
    (hfind : s.find chain n' target' q = s.find chain n target p) :
    s.readCatalog chain n' target' q = s.readCatalog chain n target p := by
  rw [readCatalog, readCatalog, readCatalogWith, readCatalogWith, hname, hname']
  dsimp only
  rw [if_neg hne, if_neg hne', hfind]

variable {n n' c : Text}

/-- **Names with one canonical form lead to the same reading.** -/
theorem readCatalog_of_canonicalName (hn : Catalog.canonicalName n none = .ok c)
    (hn' : Catalog.canonicalName n' none = .ok c) (chain : List Text) (target : Option Text)
    (p : Progress) : s.readCatalog chain n' target p = s.readCatalog chain n target p := by
  obtain rfl | ⟨hversioned, hversioned'⟩ := Catalog.eq_or_isUnversioned hn hn'
  · rfl
  by_cases hne : n = nonPortableName
  · rw [hne, (Catalog.eq_nonPortableName_iff hn hn').1 hne]
  have hne' : n' ≠ nonPortableName := fun h => hne ((Catalog.eq_nonPortableName_iff hn hn').2 h)
  refine s.readCatalog_congr (Catalog.checkName_of_canonicalName hn)
    (Catalog.checkName_of_canonicalName hn') hne hne' ?_
  rw [s.find_of_isUnversioned_eq_false chain hversioned,
    s.find_of_isUnversioned_eq_false chain hversioned',
    s.askCanonical_congr chain (hn'.trans hn.symm)]

/-- Names with one canonical form lead to the same outcome of a call. -/
theorem perform_catalog_congr (hn : Catalog.canonicalName n none = .ok c)
    (hn' : Catalog.canonicalName n' none = .ok c) (r : Registry) (target : Option Text) :
    s.perform r (.catalog n' target) = s.perform r (.catalog n target) := by
  rw [perform, perform, addCatalog, addCatalog, s.readCatalog_of_canonicalName hn hn']

end Session

/-! ### States that are the same -/

/-- **Two runs are in the same state**, whatever they have told. -/
structure SameState (p q : Progress) : Prop where
  /-- The same is forbidden. -/
  index : q.index = p.index
  /-- The universes are the same. -/
  classes : q.classes = p.classes
  /-- The same classes were skipped. -/
  missing : q.missing = p.missing

theorem SameState.refl (p : Progress) : SameState p p := ⟨rfl, rfl, rfl⟩

theorem compares_sameState : Compares SameState where
  record := by
    intro p q h policy r
    refine ⟨readRecord_result_congr (congrArg Universe.view h.classes) policy r, ?_, ?_, ?_⟩
    · rw [readRecord_index, readRecord_index, h.index, h.classes]
    · rw [readRecord_classes, readRecord_classes, h.classes]
    · rw [readRecord_missing, readRecord_missing, h.classes, h.missing]
  tell := fun h _ _ => ⟨h.index, h.classes, h.missing⟩
  nonPortable := fun h => ⟨congrArg Index.forbidNonPortable h.index, h.classes, h.missing⟩

/-- **Two calls end the same way**: without failure or with the same one, and in the same state. -/
structure Outcome.SameEnd (o o' : Outcome) : Prop where
  /-- They fail for the same reason, or both do not fail. -/
  failure : o'.failure = o.failure
  /-- They leave the same registry. -/
  registry : o'.registry = o.registry
  /-- They have skipped the same classes. -/
  missing : o'.missing = o.missing

theorem Outcome.SameEnd.refl (o : Outcome) : o.SameEnd o := ⟨rfl, rfl, rfl⟩

theorem Outcome.SameEnd.of_agree {o o' : Outcome}
    (h : o'.failure = o.failure ∧ SameState o.progress o'.progress) : o.SameEnd o' where
  failure := h.1
  registry := by
    obtain ⟨failure, ⟨index, classes⟩, missing, trace⟩ := o
    obtain ⟨failure', ⟨index', classes'⟩, missing', trace'⟩ := o'
    exact congrArg₂ Registry.mk h.2.index h.2.classes
  missing := h.2.missing

/-! ### A target version at the end of the name -/

namespace Catalog

/-- Rows of digits of ASCII with dots between them. -/
def IsDigitRows (t : Text) : Prop :=
  ∀ row ∈ Text.split '.' t, row ≠ [] ∧ ∀ c ∈ row, isDigitChar c = true

instance (t : Text) : Decidable (IsDigitRows t) := inferInstanceAs (Decidable (∀ _ ∈ _, _))

namespace IsDigitRows

variable {t : Text} (h : IsDigitRows t)

include h

theorem ne_nil : t ≠ [] := by
  rintro rfl
  exact (h [] (by simp [Text.split])).1 rfl

theorem isVersionText : isVersionText t = true :=
  List.all_eq_true.2 fun row hrow => by
    obtain ⟨hne, hdigits⟩ := h row hrow
    have hdecimal : row.all Text.isDecimal = true :=
      List.all_eq_true.2 fun c hc => isDecimal_of_isDigitChar (hdigits c hc)
    simpa [hdecimal] using hne

theorem eq_or_isDigitChar {c : CodePoint} (hc : c ∈ t) : c = '.' ∨ isDigitChar c = true := by
  rw [← Text.join_split '.' t] at hc
  rcases Text.of_mem_join hc with hc | ⟨row, hrow, hc⟩
  · exact .inl (List.mem_singleton.1 hc)
  · exact .inr ((h row hrow).2 c hc)

theorem hyphen_notMem : CodePoint.char '-' ∉ t := fun hc => by
  rcases h.eq_or_isDigitChar hc with hdot | hdigit
  · exact absurd hdot (by decide)
  · exact absurd hdigit (by decide)

theorem isName_append {name : Text} (hname : isName name = true) :
    isName (name ++ "-".toText ++ t) = true := by
  obtain ⟨-, hchars⟩ := Bool.and_eq_true_iff.1 hname
  refine Bool.and_eq_true_iff.2 ⟨by simp [String.toText], List.all_eq_true.2 fun c hc => ?_⟩
  rcases List.mem_append.1 hc with hc | hc
  · rcases List.mem_append.1 hc with hc | hc
    · exact List.all_eq_true.1 hchars c hc
    · obtain rfl := List.mem_singleton.1 hc
      rfl
  · rcases h.eq_or_isDigitChar hc with rfl | hdigit
    · rfl
    · exact isNameChar_of_isDigitChar hdigit

/-- The name with the version takes no target. -/
theorem isUnversioned_append {name : Text} (hname : isName name = true) :
    isUnversioned (name ++ "-".toText ++ t) = false := by
  have hcut : Text.cutLast '-' (name ++ "-".toText ++ t) = some (name, t) := by
    rw [List.append_assoc]
    exact Text.cutLast_append name h.hyphen_notMem
  exact isUnversioned_of_cutLast (h.isName_append hname) hcut h.isVersionText

/-- **A target is as good as a version at the end of the name.** -/
theorem canonicalName_append {name : Text} (hname : isName name = true)
    (hu : isUnversioned name = true) : canonicalName (name ++ "-".toText ++ t) none =
      canonicalName name (some t) := by
  have hfull := h.isName_append hname
  have hadd : addTarget name (some t) = name ++ "-".toText ++ t := if_pos hu
  generalize name ++ "-".toText ++ t = full at hfull hadd ⊢
  have hnone : addTarget full none = full := rfl
  simp [canonicalName, checkName, hname, hfull, hadd, hnone, bind, Except.bind]

end IsDigitRows
end Catalog

namespace Session

variable (s : Session)

/-- **The target of a call is as good as a version at the end of the name**, for a name that is not
served. The store is asked for the name, and then all is the same. -/
theorem readCatalog_target (chain : List Text) {n t : Text} (hname : Catalog.isName n = true)
    (hu : Catalog.isUnversioned n = true) (hne : n ≠ nonPortableName)
    (hunknown : s.store.answer s.disk n = .unknown) (ht : Catalog.IsDigitRows t)
    (target : Option Text) (p : Progress) :
    s.readCatalog chain n (some t) p =
      s.readCatalog chain (n ++ "-".toText ++ t) target (p.note [.requested n chain]) := by
  have hbare : Catalog.canonicalName n none = .ok n :=
    Catalog.canonicalName_of_isUnversioned hname hu
  have hversioned := ht.isUnversioned_append hname
  have hne' : n ++ "-".toText ++ t ≠ nonPortableName := fun h => by
    rw [h] at hversioned
    exact absurd hversioned (by decide)
  refine s.readCatalog_congr (if_pos (ht.isName_append hname)) (if_pos hname) hne' hne ?_
  rw [s.find_of_isUnversioned_eq_false chain hversioned, find_eq_andThen,
    s.askCanonical_of_unknown chain hbare hunknown,
    s.askCanonical_congr chain (ht.canonicalName_append hname hu)]
  simp [Reading.andThen, hu]

/-- A call with a target ends as the call for the name with the version. -/
theorem perform_catalog_target {n t : Text} (hname : Catalog.isName n = true)
    (hu : Catalog.isUnversioned n = true) (hne : n ≠ nonPortableName)
    (hunknown : s.store.answer s.disk n = .unknown) (ht : Catalog.IsDigitRows t)
    (r : Registry) (target : Option Text) :
    (s.perform r (.catalog n (some t))).SameEnd
      (s.perform r (.catalog (n ++ "-".toText ++ t) target)) := by
  obtain ⟨c, u, rfl⟩ := List.exists_cons_of_ne_nil ht.ne_nil
  have hread : s.readCatalog [] n (s.targetOf (some (c :: u))) r.start = _ :=
    s.readCatalog_target [] hname hu hne hunknown ht (s.targetOf target) r.start
  have htold : SameState (r.start.note [.requested n []]) r.start := ⟨rfl, rfl, rfl⟩
  rw [perform, addCatalog, hread]
  exact .of_agree (outcomeOf_agree compares_sameState
    (readCatalog_agree compares_sameState htold [] _ _) s.config)

end Session

end Embargo
