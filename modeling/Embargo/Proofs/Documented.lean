import Embargo.Proofs.Finding
import Embargo.Proofs.Sources

/-!
# Which failures are documented

A call that fills a registry is documented to fail in two ways: signature text cannot be read, or it
cannot be fetched. **The user's own texts and streams keep to this.** Catalogs and files do not, and
this file says exactly when:

| escape | cause | concerns |
|---|---|---|
| `LoadError.reference` | a version has a number of too many digits | catalogs |
| `LoadError.unencodable` | a table holds a text that has no bytes | catalogs |
| `LoadError.refused` | the system refuses to look for a file, or to open it | catalogs asked for |
| `LoadError.illFormedPath` | the path has the character zero | files |
| `LoadError.unencodable` | the path has a surrogate that stands for no byte | files |

The third does not concern included catalogs, because a text with a line that makes the system
refuse a catalog reports this as its own failure to be read (`LoadError.within`). A path or a name
that is too long, a directory that may not be entered and a file that may not be read all make the
system refuse (`FileTree.Lookup`); for a file of the user, that is a documented failure.

That these are all is said under the assumption that there is room for the calls that a chain of
catalogs nests, as in the model (`Session.readCatalog`). A program that runs out of it in a chain
of some hundreds of catalogs fails in a sixth way.

* `Problem.IsDocumented` – the failures that are promised, with the kinds below them.
* `Session.Balks` – finding a catalog fails otherwise; `Catalog.canonicalName_eq_numeralTooLong`
  says which names do this. `Session.LeadsToBalking` – over inclusions.
* `Session.Escapes` – a call fails otherwise.
* `LoadError.IsOfText` – the errors of texts that are open: `Session.opens_of_isOfText`.
* `Session.readCatalog_error` – why reading a catalog fails, by induction on the chain.
* `Session.failures_documented` – the result: the escapes are all, and they happen.
-/

namespace Embargo

/-! ### Kinds of failures -/

/-- The problem is a failure that the calls promise: signature text cannot be read or cannot be
fetched. Failures of a more special kind count. -/
def Problem.IsDocumented : Problem → Prop
  | .failure f => .parse ∈ f.kind.withAncestors ∨ .resource ∈ f.kind.withAncestors
  | .fault _ => False

namespace LoadError

/-- The report of the error is documented. -/
def IsDocumented (e : LoadError) : Prop := e.problem.IsDocumented

theorem IsOfLine.isDocumented {e : LoadError} (h : e.IsOfLine) : e.IsDocumented := by
  cases e with
  | grammar e => exact .inl List.mem_cons_self
  | unresolvable reason signature => exact .inl (by simp [Failure.unresolvable,
      Failure.Kind.withAncestors])
  | _ => exact h.elim

theorem isDocumented_unreadable (name : Text) : (unreadable name).IsDocumented :=
  .inr List.mem_cons_self

theorem isDocumented_recursion (chain : List Text) : (recursion chain).IsDocumented :=
  .inl List.mem_cons_self

theorem isDocumented_notFound (name store : Text) : (notFound name store).IsDocumented :=
  .inr (by simp [Failure.notFound, Failure.Kind.withAncestors])

/-- A name that names no catalog is documented, unless a number of its version is too long. -/
theorem isDocumented_reference {e : CatalogNameError} (h : e ≠ .numeralTooLong) :
    (reference e).IsDocumented := by
  cases e with
  | numeralTooLong => exact absurd rfl h
  | malformed name | noSuchVersion name =>
    exact .inl (by simp [Failure.catalogName, Failure.Kind.withAncestors])

/-- What is documented stays so when a text reports it. -/
theorem IsDocumented.within {e : LoadError} (h : e.IsDocumented) (name : Text) :
    (e.within name).IsDocumented := by
  cases e with
  | refused => exact isDocumented_unreadable name
  | _ => exact h

end LoadError

/-! ### Names with numbers that are too long -/

theorem Numeral.value?_eq_none {t : Text} : Numeral.value? t = none ↔
    Numeral.maxDigits < t.length := by
  rw [value?]
  split
  · next h => simp [h]
  · next h => simpa using h

theorem Text.cutLast_of_notMem {c : CodePoint} {t : Text} (h : c ∉ t) : cutLast c t = none := by
  induction t with
  | nil => rfl
  | cons d r ih =>
    obtain ⟨hd, hr⟩ := List.ne_and_not_mem_of_not_mem_cons h
    rw [cutLast, ih hr]
    exact if_neg hd.symm

theorem Text.cutLast_append {c : CodePoint} (before : Text) {after : Text} (h : c ∉ after) :
    Text.cutLast c (before ++ c :: after) = some (before, after) := by
  induction before with
  | nil => rw [List.nil_append, cutLast, cutLast_of_notMem h, if_pos rfl]
  | cons d before ih => rw [List.cons_append, cutLast, ih]

namespace Catalog

/-- The name ends in a version of at most two numbers, and one of them has more digits than are
converted. -/
def HasLongNumeral (name : Text) : Prop :=
  ∃ stem version, splitVersion? name = some (stem, version) ∧
    (Text.split '.' version).length ≤ 2 ∧
    ∃ row ∈ Text.split '.' version, Numeral.maxDigits < row.length

theorem versionNumbers_eq_numeralTooLong {name version : Text} :
    versionNumbers name version = .error .numeralTooLong ↔
      (Text.split '.' version).length ≤ 2 ∧
        ∃ row ∈ Text.split '.' version, Numeral.maxDigits < row.length := by
  simp only [← Numeral.value?_eq_none]
  unfold versionNumbers
  split
  · next major h =>
    rw [h]
    cases hmajor : Numeral.value? major <;> simp [hmajor]
  · next major minor h =>
    rw [h]
    cases hmajor : Numeral.value? major <;> cases hminor : Numeral.value? minor <;>
      simp [hmajor, hminor]
  · next hone htwo =>
    refine iff_of_false (by simp) fun ⟨hlength, _⟩ => ?_
    rcases hrows : Text.split '.' version with _ | ⟨major, _ | ⟨minor, _ | ⟨row, rows⟩⟩⟩
    · exact Text.split_ne_nil _ _ hrows
    · exact hone major hrows
    · exact htwo major minor hrows
    · simp [hrows] at hlength

theorem canonicalForm_eq_numeralTooLong {name : Text} :
    canonicalForm name = .error .numeralTooLong ↔ HasLongNumeral name := by
  unfold canonicalForm HasLongNumeral
  cases hs : splitVersion? name with
  | none => simp
  | some parts =>
    obtain ⟨stem, version⟩ := parts
    simp only [Option.some.injEq, Prod.mk.injEq, exists_and_left, and_assoc, exists_eq_left']
    rw [← @versionNumbers_eq_numeralTooLong name version]
    cases versionNumbers name version with
    | error e => simp [bind, Except.bind]
    | ok numbers =>
      obtain ⟨major, minor⟩ := numbers
      simp only [bind, Except.bind]
      split <;> simp

/-- **A name is not brought to its canonical form, for a reason that is not documented**, exactly if
it is well formed and a number of its version is too long. -/
theorem canonicalName_eq_numeralTooLong {name : Text} {target : Option Text} :
    canonicalName name target = .error .numeralTooLong ↔ isName name = true ∧
      isName (addTarget name target) = true ∧ HasLongNumeral (addTarget name target) := by
  rw [canonicalName, checkName]
  by_cases hname : isName name = true
  · by_cases hfull : isName (addTarget name target) = true
    · simp [hname, hfull, checkName, bind, Except.bind, canonicalForm_eq_numeralTooLong]
    · simp [hname, hfull, checkName, bind, Except.bind]
  · simp [hname, bind, Except.bind]

end Catalog

namespace Session

variable (s : Session)

/-! ### Finding a catalog -/

/-- **Finding a catalog fails in a way that is not documented**: its name has no canonical form
because of a number that is too long, or the store does not say whether it has the catalog. -/
inductive Balks (name : Text) (target : Option Text) : LoadError → Prop where
  /-- A number of the version has more digits than are converted. -/
  | numeral (hc : Catalog.canonicalName name target = .error .numeralTooLong) :
      Balks name target (.reference .numeralTooLong)
  /-- The system refuses to look for the file. -/
  | refused {canonical : Text} (hc : Catalog.canonicalName name target = .ok canonical)
      (ha : s.store.answer s.disk canonical = .refused) : Balks name target .refused
  /-- The text of the catalog has no bytes. -/
  | unencodable {canonical : Text} (hc : Catalog.canonicalName name target = .ok canonical)
      (ha : s.store.answer s.disk canonical = .unencodable) : Balks name target .unencodable

variable {s}

theorem Balks.not_isDocumented {name : Text} {target : Option Text} {e : LoadError}
    (h : s.Balks name target e) : ¬e.IsDocumented := by
  cases h <;> exact id

/-- Asking a store fails exactly if it does not say whether it has the catalog. -/
theorem ask_error {chain : List Text} {name : Text} {hn : Catalog.isName name = true}
    {p : Progress} {e : LoadError} : (s.ask chain name hn p).1 = .error e ↔
      s.store.answer s.disk name = .refused ∧ e = .refused ∨
        s.store.answer s.disk name = .unencodable ∧ e = .unencodable := by
  unfold ask
  split
  all_goals next ha => simp [ha, eq_comm]

theorem askCanonical_error {chain : List Text} {name : Text} {target : Option Text} {p : Progress}
    {e : LoadError} (h : (s.askCanonical chain name target p).1 = .error e) :
    e.IsDocumented ∨ s.Balks name target e := by
  unfold askCanonical at h
  split at h
  · next e' hc =>
    obtain rfl := Except.error.inj h
    by_cases he : e' = .numeralTooLong
    · subst he
      exact .inr (.numeral hc)
    · exact .inl (LoadError.isDocumented_reference he)
  · next canonical hc =>
    split at h
    · next e' q hask =>
      obtain rfl := Except.error.inj h
      rcases ask_error.1 (congrArg Prod.fst hask) with ⟨ha, rfl⟩ | ⟨ha, rfl⟩
      · exact .inr (.refused hc ha)
      · exact .inr (.unencodable hc ha)
    · cases h

theorem Balks.askCanonical {name : Text} {target : Option Text} {e : LoadError}
    (h : s.Balks name target e) (chain : List Text) (p : Progress) :
    (s.askCanonical chain name target p).1 = .error e := by
  have hanswer {canonical : Text} (hc : Catalog.canonicalName name target = .ok canonical)
      (ha : s.store.answer s.disk canonical = .refused ∧ e = .refused ∨
        s.store.answer s.disk canonical = .unencodable ∧ e = .unencodable) :
      (s.askCanonical chain name target p).1 = .error e := by
    unfold Session.askCanonical
    split
    · next e' hc' => cases hc'.symm.trans hc
    · next canonical' hc' =>
      obtain rfl := Except.ok.inj (hc'.symm.trans hc)
      have hask : (s.ask chain canonical' (Catalog.isName_of_canonicalName hc') p).1 = .error e :=
        ask_error.2 ha
      split
      · next hq =>
        rw [hq] at hask
        cases hask
        rfl
      · next hq =>
        rw [hq] at hask
        cases hask
  cases h with
  | numeral hc =>
    unfold Session.askCanonical
    split
    · next e' hc' => rw [Except.error.inj (hc'.symm.trans hc)]
    · next canonical' hc' => cases hc'.symm.trans hc
  | refused hc ha => exact hanswer hc (.inl ⟨ha, rfl⟩)
  | unencodable hc ha => exact hanswer hc (.inr ⟨ha, rfl⟩)

/-- Why a catalog is not found. -/
theorem find_error {chain : List Text} {name : Text} {target : Option Text} {p : Progress}
    {e : LoadError} (h : (s.find chain name target p).1 = .error e) :
    e.IsDocumented ∨ ∃ t, (t = none ∨ t = target) ∧ s.Balks name t e := by
  have hasked {t : Option Text} (ht : t = none ∨ t = target) {q q' : Progress}
      (hask : s.askCanonical chain name t q = (.error e, q')) :
      e.IsDocumented ∨ ∃ t, (t = none ∨ t = target) ∧ s.Balks name t e :=
    (askCanonical_error (congrArg Prod.fst hask)).imp_right fun hb => ⟨t, ht, hb⟩
  unfold find at h
  split at h
  · next e' q hask =>
    obtain rfl := Except.error.inj h
    exact hasked (.inl rfl) hask
  · cases h
  · split at h
    · split at h
      · next e' q hask =>
        obtain rfl := Except.error.inj h
        exact hasked (.inr rfl) hask
      · cases h
      · obtain rfl := Except.error.inj h
        exact .inl (LoadError.isDocumented_notFound _ _)
    · obtain rfl := Except.error.inj h
      exact .inl (LoadError.isDocumented_notFound _ _)

/-- A name that balks without a target balks with any. -/
theorem Balks.find {name : Text} {e : LoadError} (h : s.Balks name none e) (chain : List Text)
    (target : Option Text) (p : Progress) : (s.find chain name target p).1 = .error e := by
  have hask := h.askCanonical chain p
  unfold Session.find
  split
  · next hq =>
    rw [hq] at hask
    cases hask
    rfl
  all_goals
    next hq =>
      rw [hq] at hask
      cases hask

/-! ### Errors of texts -/

end Session

/-- The error is one of a text that was opened, in a line of it or where its source breaks off. -/
def LoadError.IsOfText : LoadError → Prop
  | .grammar _ | .unresolvable _ _ | .unreadable _ => True
  | _ => False

namespace Session

variable {s : Session}

theorem askCanonical_not_isOfText {chain : List Text} {name : Text} {target : Option Text}
    {p : Progress} {e : LoadError} (h : (s.askCanonical chain name target p).1 = .error e) :
    ¬e.IsOfText := by
  unfold askCanonical at h
  split at h
  · obtain rfl := Except.error.inj h
    exact id
  · split at h
    · next e' q hask =>
      obtain rfl := Except.error.inj h
      rcases ask_error.1 (congrArg Prod.fst hask) with ⟨-, rfl⟩ | ⟨-, rfl⟩ <;> exact id
    · cases h

/-- Why a catalog is not found has nothing to do with texts. -/
theorem find_not_isOfText {chain : List Text} {name : Text} {target : Option Text} {p : Progress}
    {e : LoadError} (h : (s.find chain name target p).1 = .error e) : ¬e.IsOfText := by
  unfold find at h
  split at h
  · next e' q hask =>
    obtain rfl := Except.error.inj h
    exact askCanonical_not_isOfText (congrArg Prod.fst hask)
  · cases h
  · split at h
    · split at h
      · next e' q hask =>
        obtain rfl := Except.error.inj h
        exact askCanonical_not_isOfText (congrArg Prod.fst hask)
      · cases h
      · obtain rfl := Except.error.inj h
        exact id
    · obtain rfl := Except.error.inj h
      exact id

/-- **A catalog is opened before an error of a text is reported.** -/
theorem opens_of_isOfText {chain : List Text} {name : Text} {target : Option Text} {p : Progress}
    {e : LoadError} (h : (s.readCatalog chain name target p).1 = .error e) (he : e.IsOfText) :
    ∃ found, s.Opens chain name target found := by
  rw [Session.readCatalog] at h
  generalize hres : s.readCatalogWith chain _ name target p = res at h
  have hreading := hres ▸ s.readCatalogWith_reading chain _ name target p
  cases hreading with
  | illNamed hname =>
    obtain rfl := Except.error.inj h
    exact he.elim
  | nonPortable hname => cases h
  | notFound hname ht hfind =>
    obtain rfl := Except.error.inj h
    exact absurd he (find_not_isOfText (congrArg Prod.fst (hfind p)))
  | recursive hname ht hfind hc =>
    obtain rfl := Except.error.inj h
    exact he.elim
  | opened hname ht hfind hc hfeed => exact ⟨_, hname, refersTo_of_find (hfind p), hc⟩

/-! ### Reading a catalog -/

variable (s) in
/-- **Reading a name leads to a name that balks**, over inclusions: a line of the catalog that the
name refers to includes it, or includes a name that leads to it. That the system refuses does not
count, since the including text reports it as its own failure. -/
inductive LeadsToBalking (e : LoadError) : Text → Option Text → Prop where
  /-- A line includes a name that balks. -/
  | here {name line included : Text} {target : Option Text} {found : s.Found}
      (h : s.RefersTo name target found.name) (hline : line ∈ found.lines)
      (hincluded : Catalog.included? line = some included) (hbalks : s.Balks included none e)
      (hne : e ≠ .refused) : LeadsToBalking e name target
  /-- A line includes a name that leads to one. -/
  | further {name line included : Text} {target : Option Text} {found : s.Found}
      (h : s.RefersTo name target found.name) (hline : line ∈ found.lines)
      (hincluded : Catalog.included? line = some included)
      (hleads : LeadsToBalking e included none) : LeadsToBalking e name target

theorem LeadsToBalking.ne_refused {name : Text} {target : Option Text} {e : LoadError}
    (h : s.LeadsToBalking e name target) : e ≠ .refused := by
  induction h with
  | here h hline hincluded hbalks hne => exact hne
  | further h hline hincluded hleads ih => exact ih

theorem LeadsToBalking.not_isDocumented {name : Text} {target : Option Text} {e : LoadError}
    (h : s.LeadsToBalking e name target) : ¬e.IsDocumented := by
  induction h with
  | here h hline hincluded hbalks hne => exact hbalks.not_isDocumented
  | further h hline hincluded hleads ih => exact ih

/-- **Why reading a catalog fails**: for a documented reason, or because its name balks or leads to
one that does. -/
theorem readCatalog_error {chain : List Text} {name : Text} {target : Option Text} {p : Progress}
    {e : LoadError} (h : (s.readCatalog chain name target p).1 = .error e) :
    e.IsDocumented ∨ (∃ t, (t = none ∨ t = target) ∧ s.Balks name t e) ∨
      s.LeadsToBalking e name target := by
  induction chain using s.chain_induction generalizing name target p e with | longer chain ih
  rw [Session.readCatalog] at h
  generalize hres : s.readCatalogWith chain _ name target p = res at h
  have hreading := hres ▸ s.readCatalogWith_reading chain _ name target p
  cases hreading with
  | illNamed hname =>
    obtain rfl := Except.error.inj h
    refine .inl (LoadError.isDocumented_reference ?_)
    rintro rfl
    unfold Catalog.checkName at hname
    split at hname <;> cases hname
  | nonPortable hname => cases h
  | notFound hname ht hfind =>
    obtain rfl := Except.error.inj h
    exact (find_error (congrArg Prod.fst (hfind p))).imp_right .inl
  | recursive hname ht hfind hc =>
    obtain rfl := Except.error.inj h
    exact .inl (LoadError.isDocumented_recursion _)
  | @opened found t result q hname ht hfind hc hfeed =>
    have hrefers : s.RefersTo name target found.name := refersTo_of_find (hfind p)
    have hresult := congrArg Prod.fst hfeed
    rw [readFeed_result] at hresult
    obtain rfl : result = .error e := h
    split at hresult
    · next e' hlines =>
      obtain rfl := Except.error.inj hresult
      rcases readLines_error hlines with hline | ⟨-, line, hline, included, q', hincluded, hexpand⟩
      · exact .inl (hline.isDocumented.within found.name)
      · -- The catalog that the line includes failed, on behalf of the longer chain.
        rcases ih found hc hexpand with hdocumented | ⟨t, ht, hbalks⟩ | hleads
        · exact .inl (hdocumented.within found.name)
        · obtain rfl : t = none := ht.elim id id
          by_cases hrefused : e' = .refused
          · subst hrefused
            exact .inl (LoadError.isDocumented_unreadable found.name)
          · rw [LoadError.within_eq hrefused]
            exact .inr (.inr (.here hrefers hline hincluded hbalks hrefused))
        · rw [LoadError.within_eq hleads.ne_refused]
          exact .inr (.inr (.further hrefers hline hincluded hleads))
    · split at hresult
      · obtain rfl := Except.error.inj hresult
        exact .inl (LoadError.isDocumented_unreadable found.name)
      · cases hresult

/-- A catalog that balks is not read. -/
theorem Balks.readCatalog {name : Text} {e : LoadError} (h : s.Balks name none e)
    (hne : name ≠ nonPortableName) (chain : List Text) (target : Option Text) (p : Progress) :
    (s.readCatalog chain name target p).1 = .error e := by
  have hname : Catalog.checkName name = .ok name := by
    cases h with
    | numeral hc => exact if_pos (Catalog.canonicalName_eq_numeralTooLong.1 hc).1
    | refused hc ha => exact Catalog.checkName_of_canonicalName hc
    | unencodable hc ha => exact Catalog.checkName_of_canonicalName hc
  have hfind := h.find chain target p
  rw [Session.readCatalog, readCatalogWith, hname]
  dsimp only
  rw [if_neg hne]
  split
  · next hq =>
    rw [hq] at hfind
    cases hfind
    rfl
  · next hq =>
    rw [hq] at hfind
    cases hfind

/-! ### Calls -/

/-- **A call fails in a way that is not documented.** -/
inductive Escapes (s : Session) : Call → LoadError → Prop where
  /-- The catalog that is asked for balks, with its own name or for the target version. -/
  | asked {name : Text} {target t : Option Text} {e : LoadError}
      (ht : t = none ∨ t = s.targetOf target) (h : s.Balks name t e) :
      Escapes s (.catalog name target) e
  /-- It leads to one that balks. -/
  | included {name : Text} {target : Option Text} {e : LoadError}
      (h : s.LeadsToBalking e name (s.targetOf target)) : Escapes s (.catalog name target) e
  /-- The path of a file has a character that no path can have. -/
  | illFormedPath {path : Path} (h : s.disk.find path = .illFormed) :
      Escapes s (.file path) .illFormedPath
  /-- The path of a file has a surrogate that stands for no byte. -/
  | unencodablePath {path : Path} (h : s.disk.find path = .unencodable) :
      Escapes s (.file path) .unencodable

theorem failure_addFeed {event : Event} {name : Text} {feed : Feed} {r : Registry} {e : LoadError}
    (h : (s.addFeed event name feed r).failure = some e) : e.IsDocumented := by
  have hread := Config.failure_outcomeOf_eq_some.1 h
  rw [readFeed_result] at hread
  split at hread
  · next e' hlines =>
    obtain rfl := Except.error.inj hread
    exact ((readLines_error hlines).resolve_right nofun).isDocumented.within name
  · split at hread
    · obtain rfl := Except.error.inj hread
      exact LoadError.isDocumented_unreadable name
    · cases hread

/-- **The user's texts and streams fail as documented; catalogs and files do so but for the escapes,
and these happen.** The escapes are those of `Session.Escapes` and no others, given that there is
room for as many nested calls as catalogs include each other: `Session.readCatalog` does not run out
of it, while a program may, in a chain of some hundreds of catalogs. -/
theorem failures_documented (s : Session) (r : Registry) :
    (∀ call e, (s.perform r call).failure = some e → e.IsDocumented ∨ s.Escapes call e) ∧
    (∀ call e, s.Escapes call e → ¬e.IsDocumented) ∧
    (∀ t e, (s.perform r (.text t)).failure = some e → e.IsDocumented) ∧
    (∀ name feed e, (s.perform r (.stream name feed)).failure = some e → e.IsDocumented) ∧
    (∀ name target e, name ≠ nonPortableName → s.Balks name none e →
      (s.perform r (.catalog name target)).failure = some e) ∧
    (∀ path, s.disk.find path = .illFormed →
      (s.perform r (.file path)).failure = some .illFormedPath) ∧
    ∀ path, s.disk.find path = .unencodable →
      (s.perform r (.file path)).failure = some .unencodable := by
  have hfile (path : Path) (e : LoadError) (h : (s.perform r (.file path)).failure = some e) :
      e.IsDocumented ∨ s.Escapes (.file path) e := by
    rw [perform, addFile] at h
    split at h
    · exact .inl (failure_addFeed h)
    case h_7 hpath =>
      obtain rfl := Option.some.inj h
      exact .inr (.illFormedPath hpath)
    case h_8 hpath =>
      obtain rfl := Option.some.inj h
      exact .inr (.unencodablePath hpath)
    all_goals
      obtain rfl := Option.some.inj h
      exact .inl (LoadError.isDocumented_unreadable path.text)
  refine ⟨fun call e h => ?_, fun call e h => ?_, fun t e => failure_addFeed,
    fun name feed e => failure_addFeed, fun name target e hne h => ?_, fun path hpath => ?_,
    fun path hpath => ?_⟩
  · cases call with
    | catalog name target =>
      rcases readCatalog_error (Config.failure_outcomeOf_eq_some.1 h) with h | ⟨t, ht, h⟩ | h
      · exact .inl h
      · exact .inr (.asked ht h)
      · exact .inr (.included h)
    | text t => exact .inl (failure_addFeed h)
    | stream name feed => exact .inl (failure_addFeed h)
    | file path => exact hfile path e h
  · cases h with
    | asked ht h => exact h.not_isDocumented
    | included h => exact h.not_isDocumented
    | illFormedPath h => exact id
    | unencodablePath h => exact id
  · exact Config.failure_outcomeOf_eq_some.2 (h.readCatalog hne [] _ r.start)
  · rw [perform, addFile, hpath]
  · rw [perform, addFile, hpath]

/-- A name whose version is a row of zeros. -/
def zerosName (n : Nat) : Text := "jdk-a".toText ++ .char '-' :: List.replicate n (.char '0')

/-- A row of more zeros than are converted gives no canonical name. -/
theorem canonicalName_zerosName {n : Nat} (h : Numeral.maxDigits < n) :
    Catalog.canonicalName (zerosName n) none = .error .numeralTooLong := by
  have hzero : ∀ c ∈ List.replicate n (CodePoint.char '0'), c = '0' :=
    fun _ => List.eq_of_mem_replicate
  have hsplit : Text.split '.' (List.replicate n (CodePoint.char '0')) =
      [List.replicate n (CodePoint.char '0')] :=
    Text.split_of_notMem fun hc => absurd (hzero _ hc) (by decide)
  have hversion : Catalog.isVersionText (List.replicate n (CodePoint.char '0')) = true := by
    have hne : n ≠ 0 := by omega
    simp [Catalog.isVersionText, hsplit, hne, show Text.isDecimal '0' = true by decide]
  have hname : Catalog.isName (zerosName n) = true := by
    simp [Catalog.isName, zerosName, Catalog.isNameChar, String.toText, CodePoint.isAlphanum]
  refine Catalog.canonicalName_eq_numeralTooLong.2
    ⟨hname, hname, "jdk-a-".toText, List.replicate n (.char '0'), ?_, ?_, ?_⟩
  · rw [Catalog.addTarget, Catalog.splitVersion?, zerosName,
      Text.cutLast_append _ fun hc => absurd (hzero _ hc) (by decide)]
    dsimp only
    rw [if_pos (by rw [hversion]; decide)]
    rfl
  · simp [hsplit]
  · simpa [hsplit] using h

/-- Such a name balks, whatever the store and the classes. -/
theorem failure_zerosName (s : Session) (r : Registry) (target : Option Text) {n : Nat}
    (h : Numeral.maxDigits < n) : (s.perform r (.catalog (zerosName n) target)).failure =
      some (.reference .numeralTooLong) := by
  have hbalks : s.Balks (zerosName n) none (.reference .numeralTooLong) :=
    .numeral (canonicalName_zerosName h)
  have hne : zerosName n ≠ nonPortableName := by
    intro heq
    have hlength := congrArg List.length heq
    simp [zerosName, nonPortableName, String.toText] at hlength
    have hmax : Numeral.maxDigits = 4300 := rfl
    omega
  exact Config.failure_outcomeOf_eq_some.2 (hbalks.readCatalog hne [] _ r.start)

/-- **A call that does not keep to the documented failures**: a catalog is asked for by a name whose
version has one digit more than is converted. -/
theorem failure_undocumented :
    ∃ e, ((Session.mk {} (.mapping .empty) ⟨⟨[]⟩, []⟩).perform (.ofClasses .empty)
      (.catalog (zerosName 4301) none)).failure = some e ∧ ¬e.IsDocumented :=
  ⟨_, failure_zerosName _ (.ofClasses .empty) none (by decide), id⟩

end Session
end Embargo
