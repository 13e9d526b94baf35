import Embargo.Registry
import Embargo.Proofs.View

/-!
# What reading does

The readers of signatures – of a record, of a line, of lines, of a catalog with the catalogs that it
includes – differ in what makes them stop, but change the progress in few ways. This file lists the
ways, and draws the conclusion once: a relation between the progress before and after that every
single change respects is respected by every reader.

| reader | what it does |
|---|---|
| a record | `readRecord_asides`, `readRecord_index`, `readRecord_classes`, `readRecord_eq_ok` |
| a line | `LineReading`, `readLine_reading` |
| finding a catalog | `Session.find_asides` |
| one round of a catalog | `Session.CatalogReading`, `Session.readCatalogWith_reading` |

What lines have to do with it is `LinesRespect`. A catalog is read on behalf of a chain of catalogs,
and the catalogs that it includes on behalf of a longer one, so the relation may depend on the
chain: `Session.Respects` says what it must respect, with one field for each change, and
`Session.Respects.readCatalog` is the conclusion. Its induction is `Session.chain_induction`, over
the served names that are not in the chain.
-/

namespace Embargo

/-! ### Events without effect -/

/-- A remark: an event that neither considers a record nor forbids anything nor opens or closes a
catalog nor sums up. A request is made for the catalogs that are in progress. -/
def Event.IsRemark (chain : List Text) : Event → Prop
  | .considered _ _ | .forbadeNonPortable | .opened _ | .closed _ | .missingClasses | .summary _ =>
    False
  | .requested _ chain' => chain' = chain
  | _ => True

/-- An event that sums up the classes that were skipped, at the end of a call. -/
def Event.isSummary : Event → Bool
  | .missingClasses | .summary _ => true
  | _ => false

theorem Event.IsRemark.isSummary {chain : List Text} {e : Event} (h : e.IsRemark chain) :
    e.isSummary = false := by
  cases e with
  | missingClasses => exact h.elim
  | summary line => exact h.elim
  | _ => rfl

/-- A remark that follows no directive either. -/
def Event.IsAside (chain : List Text) : Event → Prop
  | .directive _ => False
  | e => e.IsRemark chain

theorem Event.IsAside.isRemark {chain : List Text} {e : Event} (h : e.IsAside chain) :
    e.IsRemark chain := by
  cases e with
  | directive line => trivial
  | _ => exact h

namespace Progress

variable {p : Progress} {t t' : Trace}

@[simp] theorem note_nil : p.note [] = p := by simp [note]

@[simp] theorem note_note : (p.note t).note t' = p.note (t ++ t') := by simp [note]

@[simp] theorem index_note : (p.note t).index = p.index := rfl

@[simp] theorem classes_note : (p.note t).classes = p.classes := rfl

@[simp] theorem trace_note : (p.note t).trace = p.trace ++ t := rfl

end Progress

/-! ### Records -/

/-- The index with what a record forbids in a universe. -/
def Index.accept (u : Universe) (index : Index) (r : Record) : Index :=
  if r.isPattern then index.addPattern r.pattern else index.add r.printout (r.keysIn u)

section Records

variable (policy : Policy) (r : Record) (p : Progress)

/-- What a policy does about a gap leaves the index and the universe alone, and is only told. -/
theorem Policy.handle_frame (gap : Gap) :
    (policy.handle r gap p).2.index = p.index ∧ (policy.handle r gap p).2.classes = p.classes ∧
      ∃ t, (policy.handle r gap p).2.trace = p.trace ++ t ∧
        ∀ chain, ∀ e ∈ t, Event.IsAside chain e := by
  unfold Policy.handle
  split
  · exact ⟨rfl, rfl, _, rfl, by simp [Event.IsAside, Event.IsRemark]⟩
  · refine ⟨rfl, rfl, _, rfl, fun chain e he => ?_⟩
    cases policy with
    | warn =>
      obtain rfl := List.mem_singleton.1 he
      trivial
    | fail | silent => cases he

/-- A policy that does not fail lets every gap pass. -/
theorem Policy.handle_eq_ok (gap : Gap) (h : policy ≠ .fail) :
    (policy.handle r gap p).1 = .ok () := by
  unfold Policy.handle
  split
  · rfl
  · cases policy with
    | fail => exact absurd rfl h
    | warn | silent => rfl

theorem readRecord_index : (readRecord policy r p).2.index = p.index.accept p.classes r := by
  unfold readRecord Index.accept Record.keysIn
  dsimp only [Progress.classes_note]
  split
  · rfl
  · cases h : r.resolve (p.classes.lookUp r.className) with
    | ok keys => rfl
    | error gap =>
      rw [(policy.handle_frame r _ gap).1]
      rfl

theorem readRecord_classes : (readRecord policy r p).2.classes =
    if r.isPattern then p.classes else (p.classes.lookUp r.className).after := by
  unfold readRecord
  dsimp only [Progress.classes_note]
  split
  · rfl
  · cases h : r.resolve (p.classes.lookUp r.className) with
    | ok keys => rfl
    | error gap =>
      rw [(policy.handle_frame r _ gap).2.1]
      rfl

/-- Reading a record leaves what the universe says alone. -/
theorem readRecord_view : (readRecord policy r p).2.classes.view = p.classes.view := by
  rw [readRecord_classes]
  split
  · rfl
  · exact p.classes.view_after r.className

theorem Universe.Answer.isAside_of_mem_trace {answer : Universe.Answer} {name : Text} {e : Event}
    (h : e ∈ answer.trace name) (chain : List Text) : e.IsAside chain := by
  obtain ⟨s, -, rfl⟩ := List.mem_map.1 h
  trivial

/-- **A record is considered once**, and all else that happens are asides. -/
theorem readRecord_asides : ∃ t, (readRecord policy r p).2.trace =
    p.trace ++ .considered r policy :: t ∧ ∀ chain, ∀ e ∈ t, Event.IsAside chain e := by
  unfold readRecord
  dsimp only [Progress.classes_note]
  split
  · exact ⟨[.addedPattern r], by simp, by simp [Event.IsAside, Event.IsRemark]⟩
  · have hskipped :=
      @Universe.Answer.isAside_of_mem_trace (p.classes.lookUp r.className) r.className
    cases h : r.resolve (p.classes.lookUp r.className) with
    | ok keys =>
      refine ⟨(p.classes.lookUp r.className).trace r.className ++ [.addedKeys r keys.length],
        by simp, fun chain e he => ?_⟩
      rcases List.mem_append.1 he with he | he
      · exact hskipped he chain
      · obtain rfl := List.mem_singleton.1 he
        trivial
    | error gap =>
      obtain ⟨-, -, t, ht, hremarks⟩ := policy.handle_frame r
        ({ p.note [.considered r policy] with classes := (p.classes.lookUp r.className).after }.note
          ((p.classes.lookUp r.className).trace r.className)) gap
      refine ⟨(p.classes.lookUp r.className).trace r.className ++ t, ?_, fun chain e he => ?_⟩
      · simpa using ht
      · exact (List.mem_append.1 he).elim (fun he => hskipped he chain) (hremarks chain e)

theorem readRecord_trace : ∃ t, (readRecord policy r p).2.trace =
    p.trace ++ .considered r policy :: t ∧ ∀ chain, ∀ e ∈ t, Event.IsRemark chain e := by
  obtain ⟨t, ht, hasides⟩ := readRecord_asides policy r p
  exact ⟨t, ht, fun chain e he => (hasides chain e he).isRemark⟩

/-- Unless the policy fails, a record never stops a reader. -/
theorem readRecord_eq_ok (h : policy ≠ .fail) : (readRecord policy r p).1 = .ok () := by
  unfold readRecord
  dsimp only [Progress.classes_note]
  split
  · rfl
  · split
    · rfl
    · exact policy.handle_eq_ok r _ _ h

end Records

/-! ### Lines -/

section Lines

variable {origin : Origin} {expand : Text → Progress → Reading Unit}

/-- **What reading a line can come to**, with one constructor for each way through. -/
inductive LineReading (origin : Origin) (expand : Text → Progress → Reading Unit) (line : Text)
    (scope : Scope) (p : Progress) : Reading Scope → Prop
  /-- The line is blank or a comment. -/
  | skipped (hc : isContent (Text.trim line) = false) : LineReading origin expand line scope p
      (.ok scope, p)
  /-- The line cannot be read. -/
  | malformed {e : SyntaxError} (hc : isContent (Text.trim line) = true)
      (hl : Line.parse (Text.trim line) scope.message = .error e) :
      LineReading origin expand line scope p (.error (.grammar e), p)
  /-- The line is a record that does not stop the reader. -/
  | record {r : Record} {q : Progress} (hc : isContent (Text.trim line) = true)
      (hl : Line.parse (Text.trim line) scope.message = .ok (.record r))
      (hr : readRecord scope.policy r p = (.ok (), q)) :
      LineReading origin expand line scope p (.ok scope, q)
  /-- The line is a record that stops the reader. -/
  | recordFailed {r : Record} {e : LoadError} {q : Progress}
      (hc : isContent (Text.trim line) = true)
      (hl : Line.parse (Text.trim line) scope.message = .ok (.record r))
      (hr : readRecord scope.policy r p = (.error e, q)) :
      LineReading origin expand line scope p (.error e, q)
  /-- The user's texts include nothing. -/
  | includeRefused {name : Text} (hc : isContent (Text.trim line) = true)
      (hl : Line.parse (Text.trim line) scope.message = .ok (.directive (.includeCatalog name)))
      (ho : origin = .user) : LineReading origin expand line scope p
        (.error (.grammar (.directive (Text.trim line))), p.note [.directive (Text.trim line)])
  /-- A catalog is included, and read to its end. -/
  | included {name : Text} {q : Progress} (hc : isContent (Text.trim line) = true)
      (hl : Line.parse (Text.trim line) scope.message = .ok (.directive (.includeCatalog name)))
      (ho : origin = .catalog)
      (hx : expand name (p.note [.directive (Text.trim line)]) = (.ok (), q)) :
      LineReading origin expand line scope p (.ok scope, q)
  /-- A catalog is included, and stops the reader. -/
  | includeFailed {name : Text} {e : LoadError} {q : Progress}
      (hc : isContent (Text.trim line) = true)
      (hl : Line.parse (Text.trim line) scope.message = .ok (.directive (.includeCatalog name)))
      (ho : origin = .catalog)
      (hx : expand name (p.note [.directive (Text.trim line)]) = (.error e, q)) :
      LineReading origin expand line scope p (.error e, q)
  /-- The line sets the default message. -/
  | message {message : Option Text} (hc : isContent (Text.trim line) = true)
      (hl : Line.parse (Text.trim line) scope.message =
        .ok (.directive (.defaultMessage message))) :
      LineReading origin expand line scope p
        (.ok { scope with message := message }, p.note [.directive (Text.trim line)])
  /-- The line asks to ignore gaps. -/
  | lenient (hc : isContent (Text.trim line) = true)
      (hl : Line.parse (Text.trim line) scope.message = .ok (.directive .ignoreUnresolvable)) :
      LineReading origin expand line scope p
        (.ok { scope with policy := origin.lenientPolicy }, p.note [.directive (Text.trim line)])

variable (origin expand) in
theorem readLine_reading (line : Text) (scope : Scope) (p : Progress) :
    LineReading origin expand line scope p (readLine origin expand line scope p) := by
  unfold readLine
  dsimp only
  cases hc : isContent (Text.trim line) with
  | false => exact .skipped hc
  | true =>
    rw [if_neg (by simp)]
    cases hl : Line.parse (Text.trim line) scope.message with
    | error e => exact .malformed hc hl
    | ok said =>
      cases said with
      | record r =>
        dsimp only
        cases hr : readRecord scope.policy r p with
        | mk result q =>
          cases result with
          | ok u => exact .record hc hl hr
          | error e => exact .recordFailed hc hl hr
      | directive d =>
        cases d with
        | defaultMessage message => exact .message hc hl
        | ignoreUnresolvable => exact .lenient hc hl
        | includeCatalog name =>
          cases origin with
          | user => exact .includeRefused hc hl rfl
          | catalog =>
            dsimp only [readDirective]
            cases hx : expand name (p.note [.directive (Text.trim line)]) with
            | mk result q =>
              cases result with
              | ok u => exact .included hc hl rfl hx
              | error e => exact .includeFailed hc hl rfl hx

@[simp] theorem readLines_nil (scope : Scope) (p : Progress) :
    readLines origin expand [] scope p = (.ok scope, p) := rfl

/-- The first line is read, and then the others unless it stops the reader. -/
theorem readLines_cons {line : Text} {lines : List Text} {scope : Scope} {p : Progress} :
    readLines origin expand (line :: lines) scope p =
      match readLine origin expand line scope p with
      | (.ok scope, p) => readLines origin expand lines scope p
      | (.error e, p) => (.error e, p) := rfl

/-- What a text does is what its lines do. -/
theorem readFeed_progress (c : Config) (name : Text) (feed : Feed) (p : Progress) :
    (readFeed c origin expand name feed p).2 =
      (readLines origin expand feed.lines c.firstScope p).2 := by
  unfold readFeed
  split
  · next h => rw [h]
  · next h => rw [h]

/-- What a text comes to is what its lines come to, unless its source breaks off. -/
theorem readFeed_result (c : Config) (name : Text) (feed : Feed) (p : Progress) :
    (readFeed c origin expand name feed p).1 =
      match (readLines origin expand feed.lines c.firstScope p).1 with
      | .error e => .error (e.within name)
      | .ok _ => if feed.broken then .error (.unreadable name) else .ok () := by
  unfold readFeed
  split
  · next h => rw [h]
  · next h => rw [h]

end Lines

/-! ### Relations that lines respect -/

/-- **A relation between the progress before and after that every line respects**, apart from what
it includes. -/
structure LinesRespect (R : Progress → Progress → Prop) : Prop where
  /-- Nothing happens. -/
  refl : ∀ {p}, R p p
  /-- One thing happens after the other. -/
  trans : ∀ {p q r}, R p q → R q r → R p r
  /-- A record is read. -/
  record : ∀ policy r p, R p (readRecord policy r p).2
  /-- A directive is told. -/
  directive : ∀ line p, R p (p.note [.directive line])

namespace LinesRespect

variable {R : Progress → Progress → Prop} (hR : LinesRespect R) {origin : Origin}
variable {expand : Text → Progress → Reading Unit} (hexpand : ∀ name p, R p (expand name p).2)

include hR hexpand

theorem readLine (line : Text) (scope : Scope) (p : Progress) :
    R p (readLine origin expand line scope p).2 := by
  have hdirective : R p (p.note [.directive (Text.trim line)]) := hR.directive _ p
  generalize hres : Embargo.readLine origin expand line scope p = res
  have hreading := hres ▸ readLine_reading origin expand line scope p
  cases hreading with
  | skipped hc => exact hR.refl
  | malformed hc hl => exact hR.refl
  | record hc hl hr => exact congrArg Prod.snd hr ▸ hR.record scope.policy _ p
  | recordFailed hc hl hr => exact congrArg Prod.snd hr ▸ hR.record scope.policy _ p
  | includeRefused hc hl ho => exact hdirective
  | included hc hl ho hx => exact hR.trans hdirective (congrArg Prod.snd hx ▸ hexpand _ _)
  | includeFailed hc hl ho hx => exact hR.trans hdirective (congrArg Prod.snd hx ▸ hexpand _ _)
  | message hc hl => exact hdirective
  | lenient hc hl => exact hdirective

theorem readLines (lines : List Text) (scope : Scope) (p : Progress) :
    R p (readLines origin expand lines scope p).2 := by
  induction lines generalizing scope p with
  | nil => exact hR.refl
  | cons line lines ih =>
    have hline : R p (Embargo.readLine origin expand line scope p).2 :=
      hR.readLine hexpand line scope p
    rw [readLines_cons]
    split
    · next scope' q hq =>
      rw [hq] at hline
      exact hR.trans hline (ih scope' q)
    · next e q hq =>
      rw [hq] at hline
      exact hline

end LinesRespect

namespace Session

variable (s : Session)

/-! ### Finding a catalog -/

/-- What a store is asked, and what it answers, do not depend on the progress, and are only told. -/
theorem ask_frame (chain : List Text) (name : Text) (hn : Catalog.isName name = true) :
    ∃ result t, (∀ e ∈ t, Event.IsAside chain e) ∧
      ∀ p, s.ask chain name hn p = (result, p.note t) := by
  unfold ask
  split
  · refine ⟨_, _, fun e he => ?_, fun p => rfl⟩
    rcases List.mem_cons.1 he with rfl | he
    · rfl
    · obtain ⟨server, -, rfl⟩ := List.mem_map.1 he
      trivial
  all_goals exact ⟨_, [.requested name chain], List.forall_mem_singleton.2 rfl, fun p => rfl⟩

theorem askCanonical_frame (chain : List Text) (name : Text) (target : Option Text) :
    ∃ result t, (∀ e ∈ t, Event.IsAside chain e) ∧
      ∀ p, s.askCanonical chain name target p = (result, p.note t) := by
  unfold askCanonical
  split
  · exact ⟨_, [], by simp, fun p => by rw [Progress.note_nil]⟩
  · next canonical h =>
    obtain ⟨result, t, ht, hask⟩ := s.ask_frame chain canonical (Catalog.isName_of_canonicalName h)
    simp only [hask]
    cases result with
    | ok found => exact ⟨_, t, ht, fun p => rfl⟩
    | error e => exact ⟨_, t, ht, fun p => rfl⟩

/-- **Finding a catalog is only told**, and what is found does not depend on the progress. -/
theorem find_asides (chain : List Text) (name : Text) (target : Option Text) :
    ∃ result t, (∀ e ∈ t, Event.IsAside chain e) ∧
      ∀ p, s.find chain name target p = (result, p.note t) := by
  unfold find
  obtain ⟨first, t, ht, hask⟩ := s.askCanonical_frame chain name none
  obtain ⟨second, t', ht', hask'⟩ := s.askCanonical_frame chain name target
  have hboth : ∀ e ∈ t ++ t', Event.IsAside chain e := fun e he =>
    (List.mem_append.1 he).elim (ht e) (ht' e)
  simp only [hask, hask']
  -- Only if the first question finds nothing, and the target can help, there is a second.
  obtain e | ⟨canonical, _ | found⟩ := first
  · exact ⟨_, t, ht, fun p => rfl⟩
  · split
    · obtain e | ⟨canonical', _ | found⟩ := second
      all_goals exact ⟨_, t ++ t', hboth, fun p => congrArg (Prod.mk _) Progress.note_note⟩
    · exact ⟨_, t, ht, fun p => rfl⟩
  · exact ⟨_, t, ht, fun p => rfl⟩

theorem find_frame (chain : List Text) (name : Text) (target : Option Text) :
    ∃ result t, (∀ e ∈ t, Event.IsRemark chain e) ∧
      ∀ p, s.find chain name target p = (result, p.note t) := by
  obtain ⟨result, t, ht, hfind⟩ := s.find_asides chain name target
  exact ⟨result, t, fun e he => (ht e he).isRemark, hfind⟩

/-! ### One round of reading a catalog -/

/-- Announcing a catalog is an aside. -/
theorem isAside_of_mem_announce (chain : List Text) (name : Text) :
    ∀ e ∈ announce chain name, Event.IsAside chain e := by
  intro e he
  unfold announce at he
  split at he
  · obtain rfl := List.mem_singleton.1 he
    trivial
  · cases he

theorem isRemark_of_mem_announce (chain : List Text) (name : Text) :
    ∀ e ∈ announce chain name, Event.IsRemark chain e :=
  fun e he => (isAside_of_mem_announce chain name e he).isRemark

/-- **What one round of reading a catalog can come to**, one constructor for each way through. -/
inductive CatalogReading (chain : List Text)
    (expand : (found : s.Found) → found.name ∉ chain → Text → Progress → Reading Unit)
    (name : Text) (target : Option Text) (p : Progress) : Reading Unit → Prop
  /-- The name is no name. -/
  | illNamed {e : CatalogNameError} (h : Catalog.checkName name = .error e) :
      CatalogReading chain expand name target p (.error (.reference e), p)
  /-- The name stands for the internal classes of the runtime. -/
  | nonPortable (h : name = nonPortableName) :
      CatalogReading chain expand name target p (.ok (), forbidNonPortable chain p)
  /-- No catalog is found. -/
  | notFound {e : LoadError} {t : Trace} (h : name ≠ nonPortableName)
      (ht : ∀ e ∈ t, Event.IsAside chain e)
      (hfind : ∀ p, s.find chain name target p = (.error e, p.note t)) :
      CatalogReading chain expand name target p (.error e, p.note t)
  /-- The catalog that is found is in progress. -/
  | recursive {found : s.Found} {t : Trace} (h : name ≠ nonPortableName)
      (ht : ∀ e ∈ t, Event.IsAside chain e)
      (hfind : ∀ p, s.find chain name target p = (.ok found, p.note t)) (hc : found.name ∈ chain) :
      CatalogReading chain expand name target p
        (.error (.recursion (chain ++ [found.name])), p.note t)
  /-- The catalog is opened, read and closed. -/
  | opened {found : s.Found} {t : Trace} {result : Except LoadError Unit} {q : Progress}
      (h : name ≠ nonPortableName) (ht : ∀ e ∈ t, Event.IsAside chain e)
      (hfind : ∀ p, s.find chain name target p = (.ok found, p.note t)) (hc : found.name ∉ chain)
      (hfeed : readFeed s.config .catalog (expand found hc) found.name (.ofBytes found.bytes)
        ((p.note (t ++ announce chain found.name)).note [.opened found.name]) = (result, q)) :
      CatalogReading chain expand name target p (result, q.note [.closed found.name])

theorem readCatalogWith_reading (chain : List Text)
    (expand : (found : s.Found) → found.name ∉ chain → Text → Progress → Reading Unit)
    (name : Text) (target : Option Text) (p : Progress) :
    s.CatalogReading chain expand name target p
      (s.readCatalogWith chain expand name target p) := by
  unfold readCatalogWith
  cases hname : Catalog.checkName name with
  | error e => exact .illNamed hname
  | ok name' =>
    obtain rfl : name = name' := by
      rw [Catalog.checkName] at hname
      split at hname
      · exact Except.ok.inj hname
      · cases hname
    dsimp only
    by_cases hn : name = nonPortableName
    · rw [if_pos hn]
      exact .nonPortable hn
    · rw [if_neg hn]
      obtain ⟨e | found, t, ht, hfind⟩ := s.find_asides chain name target
      · rw [hfind p]
        exact .notFound hn ht hfind
      · rw [hfind p]
        dsimp only
        by_cases hc : found.name ∈ chain
        · rw [dif_pos hc]
          exact .recursive hn ht hfind hc
        · rw [dif_neg hc]
          exact .opened hn ht hfind hc (by simp)

/-- A property of chains holds if it holds of every chain for which it holds of the longer ones: a
chain cannot grow for ever. -/
theorem chain_induction {P : List Text → Prop}
    (longer : ∀ chain, (∀ found : s.Found, found.name ∉ chain → P (chain ++ [found.name])) →
      P chain) (chain : List Text) : P chain := by
  -- Of the served names, those that are not in the chain become fewer.
  induction hn : (s.unread chain).length using Nat.strongRecOn generalizing chain with
  | ind n ih =>
    refine longer chain fun found hc => ih _ ?_ _ rfl
    exact hn ▸ s.length_unread_lt found.mem_served hc

/-! ### Relations that reading respects -/

/-- **A relation between the progress before and after that every change respects**, for the chain
of catalogs that are in progress. -/
structure Respects (R : List Text → Progress → Progress → Prop) : Prop where
  /-- Nothing happens. -/
  refl : ∀ {chain p}, R chain p p
  /-- One thing happens after the other. -/
  trans : ∀ {chain p q r}, R chain p q → R chain q r → R chain p r
  /-- A record is read. -/
  record : ∀ {chain} policy r p, R chain p (readRecord policy r p).2
  /-- Something is told. -/
  remark : ∀ {chain e} p, Event.IsRemark chain e → R chain p (p.note [e])
  /-- Internal classes of the runtime are forbidden. -/
  nonPortable : ∀ {chain} p,
    R chain p ({ p with index := p.index.forbidNonPortable }.note [.forbadeNonPortable])
  /-- A catalog that is not in progress is opened, read and closed. -/
  nest : ∀ {chain name p q}, name ∉ chain → s.serves name = true →
    R (chain ++ [name]) (p.note [.opened name]) q → R chain p (q.note [.closed name])

namespace Respects

variable {s} {R : List Text → Progress → Progress → Prop} (hR : s.Respects R) {chain : List Text}

include hR

/-- What each of some events respects, they all respect together. -/
theorem noted {t : Trace} (p : Progress) (ht : ∀ e ∈ t, ∀ q, R chain q (q.note [e])) :
    R chain p (p.note t) := by
  induction t generalizing p with
  | nil =>
    rw [Progress.note_nil]
    exact hR.refl
  | cons e t ih =>
    have hhead := ht e List.mem_cons_self p
    have htail := ih (p.note [e]) fun e' he' => ht e' (List.mem_cons_of_mem e he')
    rw [Progress.note_note] at htail
    exact hR.trans hhead htail

theorem remarks {t : Trace} (p : Progress) (ht : ∀ e ∈ t, Event.IsRemark chain e) :
    R chain p (p.note t) :=
  hR.noted p fun e he q => hR.remark q (ht e he)

/-- Lines respect it, on behalf of each chain. -/
theorem lines (chain : List Text) : LinesRespect (R chain) where
  refl := hR.refl
  trans := hR.trans
  record := hR.record
  directive := fun _ p => hR.remark p trivial

theorem readLines {origin : Origin} {expand : Text → Progress → Reading Unit}
    (hexpand : ∀ name p, R chain p (expand name p).2) (lines : List Text)
    (scope : Scope) (p : Progress) : R chain p (readLines origin expand lines scope p).2 :=
  (hR.lines chain).readLines hexpand lines scope p

/-- **Reading a catalog respects what every change respects.** -/
theorem readCatalog (chain : List Text) (name : Text) (target : Option Text) (p : Progress) :
    R chain p (s.readCatalog chain name target p).2 := by
  induction chain using s.chain_induction generalizing name target p with | longer chain ih
  rw [Session.readCatalog]
  generalize hres : s.readCatalogWith chain _ name target p = res
  have hreading := hres ▸ s.readCatalogWith_reading chain _ name target p
  cases hreading with
  | illNamed h => exact hR.refl
  | nonPortable h =>
    have hannounce := hR.remarks p (isRemark_of_mem_announce chain nonPortableName)
    rw [forbidNonPortable, ← Progress.note_note]
    exact hR.trans hannounce (hR.nonPortable (p.note (announce chain nonPortableName)))
  | notFound h ht hfind => exact hR.remarks p fun e he => (ht e he).isRemark
  | recursive h ht hfind hc => exact hR.remarks p fun e he => (ht e he).isRemark
  | @opened found t result q h ht hfind hc hfeed =>
    -- The lines are read on behalf of the longer chain, where the induction hypothesis holds.
    have hremarks := hR.remarks (t := t ++ announce chain found.name) p fun e he =>
      (List.mem_append.1 he).elim (fun he => (ht e he).isRemark)
        (isRemark_of_mem_announce chain found.name e)
    refine hR.trans hremarks (hR.nest hc (Session.mem_served.1 found.mem_served) ?_)
    rw [show q = _ from (congrArg Prod.snd hfeed).symm, readFeed_progress]
    exact hR.readLines (fun name p => ih found hc name none p) _ _ _

end Respects
end Session
end Embargo
