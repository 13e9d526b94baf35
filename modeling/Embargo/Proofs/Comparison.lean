import Embargo.Proofs.Finding
import Embargo.Proofs.Lines
import Embargo.Proofs.Run

/-!
# Two runs side by side

Signatures may be read twice: from another registry, on behalf of another chain of catalogs, or with
another session. This file compares two such runs. It starts from a relation between the progress of
the one and of the other that every single change keeps if both runs make it, and concludes that the
runs make the same changes throughout, and come to the same.

* `Event.isDeed` – what is done, as against what is told about it. Two runs do the same, and may
  tell different things.
* `Compares` – the relations that every change keeps, with one field for each change.
* `Agree` – two readings come to the same and leave related progress. Sometimes this holds only of a
  first reading that goes through; then nothing is said about one that fails.
* `Session.readCatalog_agree`, `Session.perform_agree` – one session, from two states.
* `Session.Covers.readCatalog_agree` – two sessions and two chains, where the second session can
  read what the first one reads: a catalog that is read without failure on behalf of a chain is read
  so on behalf of fewer catalogs, and the contents of catalogs in progress do not matter.
-/

namespace Embargo

/-! ### Answers of stores -/

namespace Store.Answer

/-- The answer of a store, without the stores that chains found the catalog in. -/
def plain : Answer → Answer
  | .served bytes _ => .served bytes []
  | answer => answer

theorem isServed_plain (answer : Answer) : answer.plain.isServed = answer.isServed := by
  cases answer <;> rfl

theorem plain_eq_unknown {answer : Answer} : answer.plain = .unknown ↔ answer = .unknown := by
  cases answer <;> simp [plain]

end Store.Answer

/-! ### Deeds -/

/-- What is done, as against what is told about it. -/
def Event.isDeed : Event → Bool
  | .considered _ _ | .forbadeNonPortable => true
  | _ => false

/-- The deeds of a trace, in order. -/
def deedsOf (t : Trace) : Trace := t.filter Event.isDeed

theorem Event.IsRemark.isDeed {chain : List Text} {e : Event} (h : e.IsRemark chain) :
    e.isDeed = false := by
  cases e with
  | considered r policy => exact h.elim
  | forbadeNonPortable => exact h.elim
  | _ => rfl

theorem Event.isDeed_of_isSummary {e : Event} (h : e.isSummary = true) : e.isDeed = false := by
  cases e with
  | missingClasses => rfl
  | summary line => rfl
  | _ => cases h

/-! ### Readings that agree -/

/-- What is read next, unless the reading failed. -/
def Reading.andThen {α β : Type} (a : Reading α) (next : α → Progress → Reading β) : Reading β :=
  match a with
  | (.ok x, p) => next x p
  | (.error e, p) => (.error e, p)

/-- **Two readings agree**: they come to the same, and leave related progress. Unless `always`
holds, this is asked only of a first reading that goes through. -/
def Agree {α : Type} (always : Prop) (R : Progress → Progress → Prop) (a b : Reading α) : Prop :=
  always ∨ a.1.isOk = true → b.1 = a.1 ∧ R a.2 b.2

/-- **A relation between the progress of two runs that every change keeps**, if both make it. -/
structure Compares (R : Progress → Progress → Prop) : Prop where
  /-- Both consider a record: it comes to the same. -/
  record : ∀ {p q}, R p q → ∀ policy r, (readRecord policy r q).1 = (readRecord policy r p).1 ∧
    R (readRecord policy r p).2 (readRecord policy r q).2
  /-- Both tell something, not necessarily the same. -/
  tell : ∀ {p q t t'}, R p q → (∀ e ∈ t, Event.isDeed e = false) →
    (∀ e ∈ t', Event.isDeed e = false) → R (p.note t) (q.note t')
  /-- Both forbid internal classes of the runtime. -/
  nonPortable : ∀ {p q}, R p q →
    R ({ p with index := p.index.forbidNonPortable }.note [.forbadeNonPortable])
      ({ q with index := q.index.forbidNonPortable }.note [.forbadeNonPortable])

namespace Agree

variable {α β : Type} {always : Prop} {R : Progress → Progress → Prop}

theorem pure {p q : Progress} (h : R p q) (result : Except LoadError α) :
    Agree always R (result, p) (result, q) := fun _ => ⟨rfl, h⟩

/-- A first reading that fails is not compared. -/
theorem of_error (e : LoadError) (p : Progress) {b : Reading α} : Agree False R (.error e, p) b :=
  fun ha => ha.elim False.elim nofun

/-- What agreed goes on to agree. -/
theorem andThen {a b : Reading α} (hab : Agree always R a b) {next next' : α → Progress → Reading β}
    (hnext : ∀ x p q, R p q → Agree always R (next x p) (next' x q)) :
    Agree always R (a.andThen next) (b.andThen next') := by
  intro ha
  obtain ⟨result | x, p⟩ := a
  · obtain ⟨hresult, hR⟩ := hab (ha.imp_right nofun)
    obtain ⟨result', q⟩ := b
    obtain rfl : result' = .error result := hresult
    exact ⟨rfl, hR⟩
  · obtain ⟨hresult, hR⟩ := hab (.inr rfl)
    obtain ⟨result', q⟩ := b
    obtain rfl : result' = .ok x := hresult
    exact hnext x p q hR ha

/-- Sources agree if their lines do, and both or neither can be read to the end. -/
theorem finish {a b : Reading Scope} (hab : Agree always R a b) (name : Text) {feed feed' : Feed}
    (hbroken : feed'.broken = feed.broken) :
    Agree always R (feed.finish name a) (feed'.finish name b) := by
  intro ha
  obtain ⟨e | scope, p⟩ := a
  · obtain ⟨hresult, hR⟩ := hab (ha.imp_right nofun)
    obtain ⟨result', q⟩ := b
    obtain rfl : result' = .error e := hresult
    exact ⟨rfl, hR⟩
  · obtain ⟨hresult, hR⟩ := hab (.inr rfl)
    obtain ⟨result', q⟩ := b
    obtain rfl : result' = .ok scope := hresult
    refine ⟨?_, hR⟩
    simp only [Feed.finish, hbroken]

end Agree

section Steps

variable {origin : Origin} {expand : Text → Progress → Reading Unit} {line : Text} {scope : Scope}
  {p : Progress}

/-- A record is read, and the scope stays. -/
theorem readLine_eq_of_record {r : Record} (hc : isContent (Text.trim line) = true)
    (hl : Line.parse (Text.trim line) scope.message = .ok (.record r)) :
    readLine origin expand line scope p =
      (readRecord scope.policy r p).andThen fun _ p => (.ok scope, p) := by
  unfold readLine
  dsimp only
  rw [if_neg (by simp [hc]), hl]
  dsimp only
  rcases readRecord scope.policy r p with ⟨e | u, q⟩ <;> rfl

/-- A directive is told, and followed. -/
theorem readLine_eq_of_directive {d : Directive} (hc : isContent (Text.trim line) = true)
    (hl : Line.parse (Text.trim line) scope.message = .ok (.directive d)) :
    readLine origin expand line scope p =
      readDirective origin expand (Text.trim line) scope (p.note [.directive (Text.trim line)])
        d := by
  unfold readLine
  dsimp only
  rw [if_neg (by simp [hc]), hl]

/-- A catalog is included, and the scope stays. -/
theorem readDirective_eq_of_include {name : Text} :
    readDirective .catalog expand line scope p (.includeCatalog name) =
      (expand name p).andThen fun _ p => (.ok scope, p) := by
  dsimp only [readDirective]
  rcases expand name p with ⟨e | u, q⟩ <;> rfl

theorem readLines_cons_eq {lines : List Text} : readLines origin expand (line :: lines) scope p =
    (readLine origin expand line scope p).andThen (readLines origin expand lines) := by
  rw [readLines_cons]
  rcases readLine origin expand line scope p with ⟨e | u, q⟩ <;> rfl

/-- The lines at the end are read with what those before them left. -/
theorem readLines_append (front back : List Text) (scope : Scope) (p : Progress) :
    readLines origin expand (front ++ back) scope p =
      (readLines origin expand front scope p).andThen (readLines origin expand back) := by
  induction front generalizing scope p with
  | nil => rfl
  | cons line front ih =>
    rw [List.cons_append, readLines_cons_eq, readLines_cons_eq]
    rcases readLine origin expand line scope p with ⟨e | scope', q⟩
    · rfl
    · exact ih scope' q

/-- A line that includes a catalog leaves the scope alone. -/
theorem readLine_of_included? {name : Text} (h : Catalog.included? line = some name) :
    readLine .catalog expand line scope p =
      (expand name (p.note [.directive (Text.trim line)])).andThen fun _ p => (.ok scope, p) := by
  obtain ⟨hc, hl⟩ := Catalog.parse_of_included? h
  rw [readLine_eq_of_directive hc (hl scope.message), readDirective_eq_of_include]

/-- A line without content is skipped. -/
theorem readLine_of_blank (h : isContent (Text.trim line) = false) :
    readLine origin expand line scope p = (.ok scope, p) := by
  unfold readLine
  dsimp only
  rw [if_pos (by simp [h])]

end Steps

namespace Compares

variable {R : Progress → Progress → Prop} (hR : Compares R) {always : Prop}

include hR

theorem readRecord_agree {p q : Progress} (h : R p q) (policy : Policy) (r : Record) :
    Agree always R (readRecord policy r p) (readRecord policy r q) := fun _ => hR.record h policy r

variable {expand expand' : Text → Progress → Reading Unit}
  (hexpand : ∀ name p q, R p q → Agree always R (expand name p) (expand' name q))

include hexpand

theorem readLine_agree {p q : Progress} (h : R p q) (origin : Origin) (line : Text)
    (scope : Scope) :
    Agree always R (readLine origin expand line scope p)
      (readLine origin expand' line scope q) := by
  have htell : R (p.note [.directive (Text.trim line)]) (q.note [.directive (Text.trim line)]) :=
    hR.tell h (by simp [Event.isDeed]) (by simp [Event.isDeed])
  cases hc : isContent (Text.trim line) with
  | false => simpa [readLine, hc] using Agree.pure h _
  | true =>
    cases hl : Line.parse (Text.trim line) scope.message with
    | error e => simpa [readLine, hc, hl] using Agree.pure h _
    | ok said =>
      cases said with
      | record r =>
        rw [readLine_eq_of_record hc hl, readLine_eq_of_record hc hl]
        exact (hR.readRecord_agree h scope.policy r).andThen fun _ _ _ h => .pure h _
      | directive d =>
        rw [readLine_eq_of_directive hc hl, readLine_eq_of_directive hc hl]
        cases d with
        | defaultMessage message => exact .pure htell _
        | ignoreUnresolvable => exact .pure htell _
        | includeCatalog name =>
          cases origin with
          | user => exact .pure htell _
          | catalog =>
            rw [readDirective_eq_of_include, readDirective_eq_of_include]
            exact (hexpand name _ _ htell).andThen fun _ _ _ h => .pure h _

theorem readLines_agree {p q : Progress} (h : R p q) (origin : Origin) (lines : List Text)
    (scope : Scope) :
    Agree always R (readLines origin expand lines scope p)
      (readLines origin expand' lines scope q) := by
  induction lines generalizing scope p q with
  | nil => exact .pure h _
  | cons line lines ih =>
    rw [readLines_cons_eq, readLines_cons_eq]
    exact (hR.readLine_agree hexpand h origin line scope).andThen fun scope p q h => ih h scope

theorem readFeed_agree {p q : Progress} (h : R p q) {c c' : Config}
    (hscope : c'.firstScope = c.firstScope) (origin : Origin) (name : Text) (feed : Feed) :
    Agree always R (readFeed c origin expand name feed p)
      (readFeed c' origin expand' name feed q) := by
  rw [readFeed_eq_finish, readFeed_eq_finish, hscope]
  exact (hR.readLines_agree hexpand h origin feed.lines c.firstScope).finish name rfl

end Compares

/-! ### Catalogs -/

namespace Compares

variable {R : Progress → Progress → Prop} (hR : Compares R) {always : Prop}

include hR

theorem tell_of_isRemark {p q : Progress} (h : R p q) {chain chain' : List Text} {t t' : Trace}
    (ht : ∀ e ∈ t, Event.IsRemark chain e) (ht' : ∀ e ∈ t', Event.IsRemark chain' e) :
    R (p.note t) (q.note t') :=
  hR.tell h (fun e he => (ht e he).isDeed) fun e he => (ht' e he).isDeed

theorem forbidNonPortable {p q : Progress} (h : R p q) (chain chain' : List Text) :
    R (Session.forbidNonPortable chain p) (Session.forbidNonPortable chain' q) := by
  have htold := hR.tell_of_isRemark h
    (Session.isRemark_of_mem_announce chain Session.nonPortableName)
    (Session.isRemark_of_mem_announce chain' Session.nonPortableName)
  rw [Session.forbidNonPortable, Session.forbidNonPortable, ← Progress.note_note,
    ← Progress.note_note]
  exact hR.nonPortable htold

/-- A catalog that both runs open and close, and read alike in between. -/
theorem opened_agree {read read' : Progress → Reading Unit}
    (hread : ∀ p q, R p q → Agree always R (read p) (read' q)) {p q : Progress} (h : R p q)
    (chain chain' : List Text) (name : Text) :
    let a := read (p.note (Session.announce chain name ++ [.opened name]))
    let b := read' (q.note (Session.announce chain' name ++ [.opened name]))
    Agree always R (a.1, a.2.note [.closed name]) (b.1, b.2.note [.closed name]) := by
  intro a b ha
  have hopened : R (p.note (Session.announce chain name ++ [.opened name]))
      (q.note (Session.announce chain' name ++ [.opened name])) := by
    rw [← Progress.note_note, ← Progress.note_note]
    refine hR.tell (hR.tell_of_isRemark h (Session.isRemark_of_mem_announce chain name)
      (Session.isRemark_of_mem_announce chain' name)) ?_ ?_
    all_goals simp [Event.isDeed]
  obtain ⟨hresult, hprogress⟩ := hread _ _ hopened ha
  exact ⟨hresult, hR.tell hprogress (by simp [Event.isDeed]) (by simp [Event.isDeed])⟩

end Compares

namespace Session

variable {s : Session} {R : Progress → Progress → Prop} (hR : Compares R)

include hR in
/-- **One session from two states**: if every change keeps a relation, then so does reading a
catalog, and it comes to the same. -/
theorem readCatalog_agree {p q : Progress} (h : R p q) (chain : List Text) (name : Text)
    (target : Option Text) : Agree True R (s.readCatalog chain name target p)
      (s.readCatalog chain name target q) := by
  induction chain using s.chain_induction generalizing name target p q with | longer chain ih
  rw [readCatalog, readCatalog]
  unfold readCatalogWith
  split
  · exact .pure h _
  · next name _ =>
    split
    · exact .pure (hR.forbidNonPortable h chain chain) _
    · obtain ⟨e | found, t, ht, hfind⟩ := s.find_frame chain name target
      · rw [hfind, hfind]
        exact .pure (hR.tell_of_isRemark h ht ht) _
      · rw [hfind, hfind]
        have hfound := hR.tell_of_isRemark h ht ht
        dsimp only
        split
        · exact .pure hfound _
        · next hc =>
          exact hR.opened_agree (fun p q h => hR.readFeed_agree
            (fun name p q h => ih found hc h name none) h rfl .catalog found.name _) hfound chain
            chain found.name

/-! ### Calls -/

include hR in
theorem outcomeOf_agree {a b : Reading Unit} (h : Agree True R a b) (c : Config) :
    (c.outcomeOf b).failure = (c.outcomeOf a).failure ∧
      R (c.outcomeOf a).progress (c.outcomeOf b).progress := by
  obtain ⟨hresult, hprogress⟩ := h (.inl trivial)
  obtain ⟨t, ht, ha⟩ := c.outcomeOf_progress a
  obtain ⟨t', ht', hb⟩ := c.outcomeOf_progress b
  rw [ha, hb]
  refine ⟨?_, hR.tell hprogress (fun e he => Event.isDeed_of_isSummary (ht e he))
    fun e he => Event.isDeed_of_isSummary (ht' e he)⟩
  obtain ⟨result, p⟩ := a
  obtain ⟨result', q⟩ := b
  obtain rfl : result' = result := hresult
  cases result' <;> rfl

include hR in
theorem addFeed_agree {r r' : Registry} (h : R r.start r'.start) {event : Event}
    (hevent : event.isDeed = false) (name : Text) (feed : Feed) :
    (s.addFeed event name feed r').failure = (s.addFeed event name feed r).failure ∧
      R (s.addFeed event name feed r).progress (s.addFeed event name feed r').progress := by
  have htold : R (r.start.note [event]) (r'.start.note [event]) :=
    hR.tell h (by simpa using hevent) (by simpa using hevent)
  exact outcomeOf_agree hR
    (hR.readFeed_agree (fun _ _ _ h => .pure h _) htold rfl .user name feed) _

include hR in
/-- **One call on two registries** comes to the same, and leaves them related. -/
theorem perform_agree {r r' : Registry} (h : R r.start r'.start) (call : Call) :
    (s.perform r' call).failure = (s.perform r call).failure ∧
      R (s.perform r call).progress (s.perform r' call).progress := by
  cases call with
  | catalog name target => exact outcomeOf_agree hR (readCatalog_agree hR h [] name _) _
  | text t => exact addFeed_agree hR h rfl _ _
  | stream name feed => exact addFeed_agree hR h rfl _ _
  | file path =>
    rw [perform, perform, addFile, addFile]
    split
    · exact addFeed_agree hR h rfl _ _
    all_goals exact ⟨rfl, h⟩

/-! ### A session that can read what another one reads -/

/-- **What the first session reads on behalf of a chain, the second one can read on behalf of
another**: texts begin with the same scope, no more catalogs are in progress, and the stores answer
alike about every catalog that is not in progress in the first session. -/
structure Covers (s : Session) (chain : List Text) (s' : Session) (chain' : List Text) : Prop where
  /-- Texts begin with the same scope. -/
  scope : s'.config.firstScope = s.config.firstScope
  /-- No more catalogs are in progress. -/
  subset : ∀ name ∈ chain', name ∈ chain
  /-- What is in progress is served. -/
  served : ∀ name ∈ chain, s.serves name = true
  /-- The stores answer alike about everything else. -/
  answers : ∀ name ∉ chain,
    (s'.store.answer s'.disk name).plain = (s.store.answer s.disk name).plain

namespace Covers

variable {s' : Session} {chain chain' : List Text} (h : s.Covers chain s' chain')

include h

theorem concat (found : s.Found) :
    s.Covers (chain ++ [found.name]) s' (chain' ++ [found.name]) where
  scope := h.scope
  subset := fun name hname => List.mem_append.2 ((List.mem_append.1 hname).imp_left (h.subset name))
  served := fun name hname => (List.mem_append.1 hname).elim (h.served name) fun hname =>
    List.mem_singleton.1 hname ▸ found.serves
  answers := fun name hname => h.answers name fun hc => hname (List.mem_append_left _ hc)

theorem serves {name : Text} (hs : s.serves name = true) (hc : name ∉ chain) :
    s'.serves name = true := by
  obtain ⟨hname, hserved⟩ := Bool.and_eq_true_iff.1 hs
  refine Bool.and_eq_true_iff.2 ⟨hname, ?_⟩
  rw [← Store.Answer.isServed_plain, h.answers name hc, Store.Answer.isServed_plain]
  exact hserved

/-- A name refers to the same catalog, if the second session serves that at all. -/
theorem refersTo_of_serves {name canonical : Text} {target : Option Text}
    (hr : s.RefersTo name target canonical) (hs : s'.serves canonical = true) :
    s'.RefersTo name target canonical := by
  refine ⟨hs, hr.2.imp_right ?_⟩
  rintro ⟨bare, hbare, hunknown, htarget⟩
  -- What the first store does not know is not in progress, so the second does not know it either.
  have hbare' : bare ∉ chain := fun hmem => by
    have hserved := (Bool.and_eq_true_iff.1 (h.served bare hmem)).2
    rw [hunknown] at hserved
    cases hserved
  have hplain := h.answers bare hbare'
  rw [hunknown] at hplain
  exact ⟨bare, hbare, Store.Answer.plain_eq_unknown.1 hplain, htarget⟩

/-- A name refers to the same catalog, if that is not in progress. -/
theorem refersTo {name canonical : Text} {target : Option Text}
    (hr : s.RefersTo name target canonical) (hc : canonical ∉ chain) :
    s'.RefersTo name target canonical :=
  h.refersTo_of_serves hr (h.serves hr.1 hc)

/-- The catalog of a name has the same content, if it is not in progress. -/
theorem bytes_eq {found : s.Found} {found' : s'.Found} (hname : found'.name = found.name)
    (hc : found.name ∉ chain) : found'.bytes = found.bytes := by
  obtain ⟨servers, ha⟩ := found.answer
  obtain ⟨servers', ha'⟩ := found'.answer
  have hplain := h.answers found.name hc
  rw [← hname, ha', hname, ha] at hplain
  exact (Store.Answer.served.inj hplain).1

/-- **Two sessions, two chains**: what the first one reads without failure, the second one reads
with the same changes. -/
theorem readCatalog_agree (hR : Compares R) {p q : Progress} (hpq : R p q) (name : Text)
    (target : Option Text) : Agree False R (s.readCatalog chain name target p)
      (s'.readCatalog chain' name target q) := by
  induction chain using s.chain_induction generalizing chain' name target p q with | longer chain ih
  rw [readCatalog, readCatalog]
  unfold readCatalogWith
  split
  · exact .of_error _ _
  · next name _ =>
    split
    · exact .pure (hR.forbidNonPortable hpq chain chain') _
    · obtain ⟨e | found, t, ht, hfind⟩ := s.find_frame chain name target
      · rw [hfind]
        exact .of_error _ _
      · rw [hfind]
        dsimp only
        split
        · exact .of_error _ _
        · next hc =>
          -- The second session finds the same catalog, and it is not in progress there.
          obtain ⟨found', hname, t', ht', hfind'⟩ :=
            s'.find_of_refersTo chain' (h.refersTo (refersTo_of_find (hfind p)) hc)
          have hbytes := h.bytes_eq hname hc
          obtain ⟨name', bytes', isName', answer'⟩ := found'
          obtain rfl : name' = found.name := hname
          obtain rfl : bytes' = found.bytes := hbytes
          have hc' : found.name ∉ chain' := fun hmem => hc (h.subset _ hmem)
          rw [hfind']
          dsimp only
          rw [dif_neg hc']
          exact hR.opened_agree (fun p q hpq => hR.readFeed_agree
            (fun name p q hpq => ih found hc (h.concat found) hpq name none) hpq h.scope .catalog
            found.name _) (hR.tell_of_isRemark hpq ht ht') chain chain' found.name

end Covers
end Session
end Embargo
