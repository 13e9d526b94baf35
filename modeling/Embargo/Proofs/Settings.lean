import Embargo.Proofs.Finding
import Embargo.Proofs.Run

/-!
# One session under other settings

What a store serves, which catalog a name refers to and what is told about it has nothing to do with
the settings. They are asked for three things only: the scope that a text begins with, the target
version, and the summary at the end of a call.

* `Session.withConfig` – the session with other settings. It finds the same catalogs
  (`Session.find_withConfig`).
* `Session.Carries` – what two relations, between states and between readings, must be good for, to
  be carried from the lines of catalogs to catalogs, at any depth (`Session.Carries.readCatalog`).
* `Session.readCatalog_withConfig` – settings with the same scope for a text to begin with read
  catalogs to the same end, with the same trace.
* `Session.readCall` – what a call reads, before it is summed up. Every call is that, with the
  summary behind it (`Session.perform_eq`), so that the settings for the summary have their effect
  in one place.
-/

namespace Embargo

theorem logOf_append (t t' : Trace) : logOf (t ++ t') = logOf t ++ logOf t' :=
  List.filterMap_append

namespace Session

/-- The session with other settings. -/
def withConfig (s : Session) (c : Config) : Session := { s with config := c }

variable {s : Session} {c : Config}

/-! ### Finding catalogs -/

/-- A catalog that is found is found under other settings, too. -/
def Found.withConfig (found : s.Found) (c : Config) : (s.withConfig c).Found :=
  ⟨found.name, found.bytes, found.isName, found.answer⟩

theorem ask_withConfig (chain : List Text) (name : Text) (hn : Catalog.isName name = true)
    (p : Progress) : (s.withConfig c).ask chain name hn p =
      ((s.ask chain name hn p).1.map (Option.map (Found.withConfig · c)),
        (s.ask chain name hn p).2) := by
  unfold ask
  dsimp only [withConfig]
  split <;> rfl

theorem askCanonical_withConfig (chain : List Text) (name : Text) (target : Option Text)
    (p : Progress) : (s.withConfig c).askCanonical chain name target p =
      ((s.askCanonical chain name target p).1.map (Prod.map id (Option.map (Found.withConfig · c))),
        (s.askCanonical chain name target p).2) := by
  unfold askCanonical
  split
  · rfl
  · next canonical hc =>
    rw [ask_withConfig]
    rcases s.ask chain canonical (Catalog.isName_of_canonicalName hc) p with ⟨e | found, q⟩ <;> rfl

/-- **The settings do not matter for what a name refers to**, nor for what is told about it. -/
theorem find_withConfig (chain : List Text) (name : Text) (target : Option Text) (p : Progress) :
    (s.withConfig c).find chain name target p =
      ((s.find chain name target p).1.map (Found.withConfig · c),
        (s.find chain name target p).2) := by
  unfold find
  rw [askCanonical_withConfig]
  rcases s.askCanonical chain name none p with ⟨e | ⟨canonical, _ | found⟩, q⟩
  · rfl
  · dsimp only [Except.map, Prod.map, Option.map]
    split
    · rw [askCanonical_withConfig]
      rcases s.askCanonical chain name target q with ⟨e | ⟨canonical', _ | found⟩, q'⟩ <;> rfl
    · rfl
  · rfl

/-! ### Reading catalogs -/

/-- **What is carried from the lines of catalogs to catalogs**: a relation between the states of two
sessions that differ in their settings, and one between what they read. -/
structure Carries (s : Session) (c : Config) (R : Progress → Progress → Prop)
    (Q : Reading Unit → Reading Unit → Prop) : Prop where
  /-- Both stop, or both are done. -/
  pure : ∀ {p q}, R p q → ∀ result, Q (result, p) (result, q)
  /-- Both tell the same. -/
  note : ∀ {p q}, R p q → ∀ t, R (p.note t) (q.note t)
  /-- Both tell the same behind what they read. -/
  close : ∀ {a b}, Q a b → ∀ t, Q (a.1, a.2.note t) (b.1, b.2.note t)
  /-- Both forbid internal classes of the runtime. -/
  nonPortable : ∀ {p q}, R p q → ∀ chain, R (forbidNonPortable chain p) (forbidNonPortable chain q)
  /-- Both read the same lines, if they read alike what these include. -/
  lines : ∀ {chain}, (∀ name p q, R p q → Q (s.readCatalog chain name none p)
      ((s.withConfig c).readCatalog chain name none q)) → ∀ name feed p q, R p q →
    Q (readFeed s.config .catalog (fun name p => s.readCatalog chain name none p) name feed p)
      (readFeed c .catalog (fun name p => (s.withConfig c).readCatalog chain name none p) name feed
        q)

/-- **What is carried from lines to catalogs holds of all catalogs.** -/
theorem Carries.readCatalog {R : Progress → Progress → Prop}
    {Q : Reading Unit → Reading Unit → Prop} (h : s.Carries c R Q) {p q : Progress} (hpq : R p q)
    (chain : List Text) (name : Text) (target : Option Text) :
    Q (s.readCatalog chain name target p) ((s.withConfig c).readCatalog chain name target q) := by
  induction chain using s.chain_induction generalizing name target p q with | longer chain ih
  rw [Session.readCatalog, Session.readCatalog]
  unfold readCatalogWith
  split
  · exact h.pure hpq _
  · next name _ =>
    split
    · exact h.pure (h.nonPortable hpq chain) _
    · rw [find_withConfig]
      obtain ⟨e | found, t, -, hfind⟩ := s.find_frame chain name target
      · rw [hfind, hfind]
        exact h.pure (h.note hpq t) _
      · rw [hfind, hfind]
        dsimp only [Except.map, Found.withConfig]
        split
        · exact h.pure (h.note hpq t) _
        · next hc =>
          -- The lines are read on behalf of the longer chain, where the induction hypothesis holds.
          exact h.close (h.lines (fun name p q hpq => ih found hc hpq name none) _ _ _ _
            (h.note (h.note hpq t) _)) _

/-- **Of the settings, reading a catalog asks for the scope that a text begins with only.** -/
theorem readCatalog_withConfig (h : c.firstScope = s.config.firstScope) :
    (s.withConfig c).readCatalog = s.readCatalog := by
  have hcarries : s.Carries c Eq Eq :=
    { pure := fun hpq result => congrArg (Prod.mk result) hpq
      note := fun hpq t => congrArg (Progress.note · t) hpq
      close := fun hab t => by rw [hab]
      nonPortable := fun hpq chain => congrArg (forbidNonPortable chain) hpq
      lines := fun {chain} hexpand name feed p q hpq => by
        have hexpand' : (fun name p => (s.withConfig c).readCatalog chain name none p) =
            fun name p => s.readCatalog chain name none p :=
          funext fun name => funext fun p => (hexpand name p p rfl).symm
        rw [hexpand', hpq, readFeed_eq_finish, readFeed_eq_finish, h] }
  funext chain name target p
  exact (hcarries.readCatalog rfl chain name target).symm

/-! ### Calls -/

/-- What reading a source of text of the user comes to, after an event that tells of it. -/
def readUser (s : Session) (event : Event) (name : Text) (feed : Feed) (r : Registry) :
    Reading Unit :=
  readFeed s.config .user (fun _ p => (.ok (), p)) name feed (r.start.note [event])

/-- What a call reads. -/
def readCall (s : Session) (r : Registry) : Call → Reading Unit
  | .catalog name target => s.readCatalog [] name (s.targetOf target) r.start
  | .text t => s.readUser .readingInline "<inline>".toText (.ofText t) r
  | .stream name feed => s.readUser (.readingText name) name feed r
  | .file path =>
    match s.disk.find path with
    | .found (.file content) => s.readUser (.readingText path.text) path.text (.ofBytes content) r
    | .found .unreadable | .found .directory | .found .closed | .absent | .refused =>
      (.error (.unreadable path.text), r.start)
    | .illFormed => (.error .illFormedPath, r.start)
    | .unencodable => (.error .unencodable, r.start)

/-- **A call is what it reads, summed up.** -/
theorem perform_eq (s : Session) (r : Registry) (call : Call) :
    s.perform r call = s.config.outcomeOf (s.readCall r call) := by
  cases call with
  | catalog name target => rfl
  | text t => rfl
  | stream name feed => rfl
  | file path =>
    rw [perform, addFile, readCall]
    obtain (_ | _ | _ | _) | _ | _ | _ | _ := s.disk.find path <;> rfl

theorem targetOf_withConfig (h : c.jdkTargetVersion = s.config.jdkTargetVersion)
    (target : Option Text) : (s.withConfig c).targetOf target = s.targetOf target := by
  unfold targetOf
  rw [← h]
  rfl

theorem readUser_withConfig (h : c.firstScope = s.config.firstScope) (event : Event) (name : Text)
    (feed : Feed) (r : Registry) :
    (s.withConfig c).readUser event name feed r = s.readUser event name feed r := by
  rw [readUser, readUser, readFeed_eq_finish, readFeed_eq_finish, ← h]
  rfl

/-- **Of the settings, what a call reads asks for the scope that a text begins with and for the
target version only.** -/
theorem readCall_withConfig (h : c.firstScope = s.config.firstScope)
    (htarget : c.jdkTargetVersion = s.config.jdkTargetVersion) (r : Registry) (call : Call) :
    (s.withConfig c).readCall r call = s.readCall r call := by
  cases call with
  | catalog name target =>
    rw [readCall, readCall, readCatalog_withConfig h, targetOf_withConfig htarget]
  | text t => exact readUser_withConfig h _ _ _ r
  | stream name feed => exact readUser_withConfig h _ _ _ r
  | file path =>
    unfold readCall
    dsimp only [withConfig]
    split
    · exact readUser_withConfig h _ _ _ r
    all_goals rfl

end Session
end Embargo
