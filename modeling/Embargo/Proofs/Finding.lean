import Embargo.Proofs.Reading

/-!
# The catalog that a name refers to

A name refers to the catalog with its canonical form, or, if no such catalog is served and the name
is one of the platform without a version, to that with the target's version. Asking for a catalog
says what was found and tells about it; what is found is a matter of the name, the target and the
store, and of nothing that was read before.

* `Session.RefersTo` – the canonical name that a name refers to.
* `Session.refersTo_of_find`, `Session.find_of_refersTo` – a name is found to be what it refers to.
* `Session.Opens` – reading a name opens the catalog that it refers to, unless that is in progress.
  `Session.readCatalog_cases` and `Session.readCatalog_of_opens` say what reading a name comes to in
  these terms, for all states at once.
-/

namespace Embargo

/-- A name with a canonical form is well formed. -/
theorem Catalog.checkName_of_canonicalName {name canonical : Text} {target : Option Text}
    (h : canonicalName name target = .ok canonical) : checkName name = .ok name := by
  unfold canonicalName at h
  unfold checkName at h ⊢
  split
  · rfl
  · next hn => simp [hn, bind, Except.bind] at h

/-- What reading a source of text comes to, given what its lines come to. -/
def Feed.finish (feed : Feed) (name : Text) (a : Reading Scope) : Reading Unit :=
  (match a.1 with
    | .error e => .error (e.within name)
    | .ok _ => if feed.broken then .error (.unreadable name) else .ok (),
    a.2)

theorem readFeed_eq_finish (c : Config) (origin : Origin) (expand : Text → Progress → Reading Unit)
    (name : Text) (feed : Feed) (p : Progress) : readFeed c origin expand name feed p =
      feed.finish name (readLines origin expand feed.lines c.firstScope p) :=
  Prod.ext (readFeed_result c name feed p) (readFeed_progress c name feed p)

theorem Catalog.eq_of_checkName {name name' : Text} (h : checkName name = .ok name') :
    name' = name := by
  unfold checkName at h
  split at h
  · exact (Except.ok.inj h).symm
  · cases h

namespace Session

variable (s : Session)

/-! ### Asking a store -/

/-- A store that has no catalog with a name says so. -/
theorem ask_of_unknown (chain : List Text) {name : Text} (hn : Catalog.isName name = true)
    (h : s.store.answer s.disk name = .unknown) (p : Progress) :
    s.ask chain name hn p = (.ok none, p.note [.requested name chain]) := by
  unfold ask
  split
  case h_2 => rfl
  all_goals next h' => cases h'.symm.trans h

theorem askCanonical_of_unknown (chain : List Text) {name canonical : Text} {target : Option Text}
    (hc : Catalog.canonicalName name target = .ok canonical)
    (h : s.store.answer s.disk canonical = .unknown) (p : Progress) :
    s.askCanonical chain name target p =
      (.ok (canonical, none), p.note [.requested canonical chain]) := by
  unfold askCanonical
  split
  · next e hc' => cases hc'.symm.trans hc
  · next canonical' hc' =>
    obtain rfl := Except.ok.inj (hc'.symm.trans hc)
    rw [s.ask_of_unknown chain _ h]

/-- A store that serves the canonical form of a name yields the catalog. -/
theorem askCanonical_of_serves (chain : List Text) {name canonical : Text} {target : Option Text}
    (hc : Catalog.canonicalName name target = .ok canonical) (hs : s.serves canonical = true) :
    ∃ found : s.Found, found.name = canonical ∧ ∃ t, (∀ e ∈ t, Event.IsRemark chain e) ∧
      ∀ p, s.askCanonical chain name target p = (.ok (canonical, some found), p.note t) := by
  obtain ⟨hname, hserved⟩ := Bool.and_eq_true_iff.1 hs
  obtain ⟨bytes, servers, ha⟩ :
      ∃ bytes servers, s.store.answer s.disk canonical = .served bytes servers := by
    cases ha : s.store.answer s.disk canonical with
    | served bytes servers => exact ⟨bytes, servers, rfl⟩
    | unknown | refused | unencodable => simp [ha, Store.Answer.isServed] at hserved
  refine ⟨⟨canonical, bytes, hname, servers, ha⟩, rfl,
    .requested canonical chain :: servers.map (.served canonical), fun e he => ?_, fun p => ?_⟩
  · rcases List.mem_cons.1 he with rfl | he
    · rfl
    · obtain ⟨server, -, rfl⟩ := List.mem_map.1 he
      trivial
  · have hask : s.ask chain canonical hname p =
        (.ok (some ⟨canonical, bytes, hname, servers, ha⟩),
          p.note (.requested canonical chain :: servers.map (.served canonical))) := by
      unfold ask
      split
      · next bytes' servers' ha' =>
        obtain ⟨rfl, rfl⟩ := Store.Answer.served.inj (ha'.symm.trans ha)
        rfl
      all_goals next ha' => cases ha'.symm.trans ha
    unfold askCanonical
    split
    · next e hc' => cases hc'.symm.trans hc
    · next canonical' hc' =>
      obtain rfl := Except.ok.inj (hc'.symm.trans hc)
      rw [hask]

/-- What a store that was asked has answered. -/
theorem of_ask {chain : List Text} {name : Text} {hn : Catalog.isName name = true} {p q : Progress}
    {answer : Option s.Found} (h : s.ask chain name hn p = (.ok answer, q)) :
    (∃ found, answer = some found ∧ found.name = name) ∨
      answer = none ∧ s.store.answer s.disk name = .unknown := by
  unfold ask at h
  split at h
  · exact .inl ⟨_, (Except.ok.inj (Prod.mk.inj h).1).symm, rfl⟩
  · next ha => exact .inr ⟨(Except.ok.inj (Prod.mk.inj h).1).symm, ha⟩
  · cases h
  · cases h

theorem of_askCanonical {chain : List Text} {name canonical : Text} {target : Option Text}
    {answer : Option s.Found} {p q : Progress}
    (h : s.askCanonical chain name target p = (.ok (canonical, answer), q)) :
    Catalog.canonicalName name target = .ok canonical ∧
      ((∃ found, answer = some found ∧ found.name = canonical) ∨
        answer = none ∧ s.store.answer s.disk canonical = .unknown) := by
  unfold askCanonical at h
  split at h
  · cases h
  · next canonical' hc =>
    split at h
    · cases h
    · next answer' q' hask =>
      obtain ⟨rfl, rfl⟩ := Prod.mk.inj (Except.ok.inj (Prod.mk.inj h).1)
      exact ⟨hc, s.of_ask hask⟩

/-! ### The catalog that a name refers to -/

/-- **The catalog that a name refers to**, by its canonical name: that of the name itself, or, if it
is an unversioned name of the platform that is not served, that of the name with the target's
version. -/
def RefersTo (name : Text) (target : Option Text) (canonical : Text) : Prop :=
  s.serves canonical = true ∧ (Catalog.canonicalName name none = .ok canonical ∨
    ∃ bare, Catalog.canonicalName name none = .ok bare ∧
      s.store.answer s.disk bare = .unknown ∧ (target.isSome && Catalog.isUnversioned name) = true ∧
      Catalog.canonicalName name target = .ok canonical)

variable {s} in
theorem Found.serves (found : s.Found) : s.serves found.name = true :=
  Session.mem_served.1 found.mem_served

variable {s} in
/-- What is found is what the name refers to. -/
theorem refersTo_of_find {chain : List Text} {name : Text} {target : Option Text} {found : s.Found}
    {p q : Progress} (h : s.find chain name target p = (.ok found, q)) :
    s.RefersTo name target found.name := by
  refine ⟨found.serves, ?_⟩
  unfold find at h
  split at h
  · cases h
  · next canonical found' q' hask =>
    obtain rfl := Except.ok.inj (Prod.mk.inj h).1
    obtain ⟨hc, ⟨found'', hfound, rfl⟩ | ⟨hnone, -⟩⟩ := s.of_askCanonical hask
    · obtain rfl := Option.some.inj hfound
      exact .inl hc
    · cases hnone
  · next bare q' hask =>
    obtain ⟨hbare, ⟨found'', hfound, -⟩ | ⟨-, hunknown⟩⟩ := s.of_askCanonical hask
    · cases hfound
    · split at h
      · next htarget =>
        split at h
        · cases h
        · next canonical found' q'' hask' =>
          obtain rfl := Except.ok.inj (Prod.mk.inj h).1
          obtain ⟨hc, ⟨found'', hfound, rfl⟩ | ⟨hnone, -⟩⟩ := s.of_askCanonical hask'
          · obtain rfl := Option.some.inj hfound
            exact .inr ⟨bare, hbare, hunknown, htarget, hc⟩
          · cases hnone
        · cases h
      · cases h

/-- **What a name refers to is found.** -/
theorem find_of_refersTo (chain : List Text) {name canonical : Text} {target : Option Text}
    (h : s.RefersTo name target canonical) :
    ∃ found : s.Found, found.name = canonical ∧ ∃ t, (∀ e ∈ t, Event.IsRemark chain e) ∧
      ∀ p, s.find chain name target p = (.ok found, p.note t) := by
  obtain ⟨hs, hc | ⟨bare, hbare, hunknown, htarget, hc⟩⟩ := h
  · obtain ⟨found, hname, t, ht, hask⟩ := s.askCanonical_of_serves chain hc hs
    refine ⟨found, hname, t, ht, fun p => ?_⟩
    unfold find
    rw [hask]
  · obtain ⟨found, hname, t, ht, hask⟩ := s.askCanonical_of_serves chain hc hs
    refine ⟨found, hname, .requested bare chain :: t, fun e he => ?_, fun p => ?_⟩
    · rcases List.mem_cons.1 he with rfl | he
      · rfl
      · exact ht e he
    · unfold find
      rw [s.askCanonical_of_unknown chain hbare hunknown]
      dsimp only
      rw [if_pos htarget, hask]
      simp

/-- A name whose canonical form is served is found at once, whatever the target. -/
theorem find_of_serves (chain : List Text) {name canonical : Text} (target : Option Text)
    (hc : Catalog.canonicalName name none = .ok canonical) (hs : s.serves canonical = true) :
    ∃ found : s.Found, found.name = canonical ∧ ∃ t, (∀ e ∈ t, Event.IsRemark chain e) ∧
      ∀ p, s.find chain name target p = (.ok found, p.note t) :=
  s.find_of_refersTo chain ⟨hs, .inl hc⟩

/-! ### Opening a catalog -/

variable {s}

/-- The store serves one content for each name. -/
theorem Found.eq_of_name {found found' : s.Found} (h : found'.name = found.name) :
    found' = found := by
  obtain ⟨name, bytes, isName, servers, ha⟩ := found
  obtain ⟨name', bytes', isName', servers', ha'⟩ := found'
  obtain rfl : name' = name := h
  obtain ⟨rfl, -⟩ := Store.Answer.served.inj (ha'.symm.trans ha)
  rfl

/-- The lines of a catalog. -/
def Found.lines (found : s.Found) : List Text := (Feed.ofBytes found.bytes).lines

/-- What reading a catalog comes to, given what its lines come to. -/
def Found.finish (found : s.Found) (a : Reading Scope) : Reading Unit :=
  let b := (Feed.ofBytes found.bytes).finish found.name a
  (b.1, b.2.note [.closed found.name])

/-- Only a catalog whose lines go through goes through. -/
theorem Found.isOk_of_finish {found : s.Found} {a : Reading Scope}
    (h : (found.finish a).1 = .ok ()) : a.1.isOk = true := by
  obtain ⟨e | scope, p⟩ := a
  · cases h
  · rfl

variable (s) in
/-- What including a catalog does in the lines of another, which is read on behalf of a chain. -/
def inside (chain : List Text) (found : s.Found) (name : Text) (p : Progress) : Reading Unit :=
  s.readCatalog (chain ++ [found.name]) name none p

theorem readCatalog_nonPortable (chain : List Text) (target : Option Text) (p : Progress) :
    s.readCatalog chain nonPortableName target p = (.ok (), forbidNonPortable chain p) := by
  have hname : Catalog.checkName nonPortableName = .ok nonPortableName := by rfl
  rw [readCatalog, readCatalogWith, hname]
  dsimp only
  rw [if_pos rfl]

variable (s) in
/-- **Reading a name on behalf of a chain opens a catalog**: the name refers to it, and it is not in
progress. -/
structure Opens (chain : List Text) (name : Text) (target : Option Text) (found : s.Found) :
    Prop where
  /-- The name does not stand for the internal classes of the runtime. -/
  ne : name ≠ nonPortableName
  /-- The name refers to the catalog. -/
  refers : s.RefersTo name target found.name
  /-- The catalog is not in progress. -/
  fresh : found.name ∉ chain

theorem RefersTo.checkName {name canonical : Text} {target : Option Text}
    (h : s.RefersTo name target canonical) : Catalog.checkName name = .ok name := by
  obtain ⟨-, hc | ⟨bare, hc, -⟩⟩ := h
  all_goals exact Catalog.checkName_of_canonicalName hc

/-- **A catalog that is opened is read line by line**, with the scope that texts begin with. -/
theorem readCatalog_of_opens {chain : List Text} {name : Text} {target : Option Text}
    {found : s.Found} (h : s.Opens chain name target found) :
    ∃ t, (∀ e ∈ t, Event.IsRemark chain e) ∧ ∀ p, s.readCatalog chain name target p =
      found.finish (readLines .catalog (s.inside chain found) found.lines s.config.firstScope
        ((p.note t).note [.opened found.name])) := by
  obtain ⟨found', hname, t, ht, hfind⟩ := s.find_of_refersTo chain h.refers
  obtain rfl := Found.eq_of_name hname
  refine ⟨t ++ announce chain found'.name, fun e he => ?_, fun p => ?_⟩
  · exact (List.mem_append.1 he).elim (ht e) (isRemark_of_mem_announce chain found'.name e)
  · rw [readCatalog, readCatalogWith, h.refers.checkName]
    dsimp only
    rw [if_neg h.ne, hfind]
    dsimp only
    rw [dif_neg h.fresh, readFeed_eq_finish]
    simp only [Progress.note_note, List.append_assoc]
    rfl

/-- **What reading a name comes to**: internal classes of the runtime are forbidden, or a catalog is
opened, or the reader fails, whatever the progress, and only tells. -/
theorem readCatalog_cases (chain : List Text) (name : Text) (target : Option Text) :
    name = nonPortableName ∨ (∃ found, s.Opens chain name target found) ∨
      ∃ e t, (∀ e ∈ t, Event.IsRemark chain e) ∧
        ∀ p, s.readCatalog chain name target p = (.error e, p.note t) := by
  cases hname : Catalog.checkName name with
  | error e =>
    refine .inr (.inr ⟨.reference e, [], by simp, fun p => ?_⟩)
    rw [readCatalog, readCatalogWith, hname, Progress.note_nil]
  | ok name' =>
    obtain rfl := Catalog.eq_of_checkName hname
    by_cases hne : name' = nonPortableName
    · exact .inl hne
    refine .inr ?_
    obtain ⟨e | found, t, ht, hfind⟩ := s.find_frame chain name' target
    · refine .inr ⟨e, t, ht, fun p => ?_⟩
      rw [readCatalog, readCatalogWith, hname]
      dsimp only
      rw [if_neg hne, hfind]
    · by_cases hc : found.name ∈ chain
      · refine .inr ⟨.recursion (chain ++ [found.name]), t, ht, fun p => ?_⟩
        rw [readCatalog, readCatalogWith, hname]
        dsimp only
        rw [if_neg hne, hfind]
        dsimp only
        rw [dif_pos hc]
      · exact .inl ⟨found, hne, refersTo_of_find (hfind ⟨.empty, .empty, [], []⟩), hc⟩

end Session
end Embargo
