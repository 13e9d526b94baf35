import Embargo.Proofs.Scoping
import Embargo.Proofs.Stopping
import Embargo.Proofs.Utf8

/-!
# What a failing call keeps

A call that fails keeps what it did before it failed, and nothing more: what it leaves is what a
call for the lines before the failing one leaves, which goes through. If the failing line includes a
catalog, what that catalog keeps comes on top, and so on down to the line that could not be read.

* `FailsAt` – the calls for the first lines of a text go through up to a line, and fail alike from
  there on.
* `Session.CallKeeps` – what the call for a catalog keeps, in terms of calls for the first lines of
  that catalog (`Session.withFirstLines`) from the same registry.
* `Session.Keeps` – what reading a catalog keeps on behalf of any chain, recursively.
* `Session.isSummary_of_failure` – a call that fails sums nothing up.
* `Session.failure_keeps_prefix` – all this together.
-/

namespace Embargo

open Catalog

/-- **Of the calls for the first lines, those with no more than `k` lines go through**, and those
with more fail alike, and leave what the `k` lines leave. -/
structure FailsAt (upTo : Nat → Outcome) (k : Nat) (e : LoadError) : Prop where
  /-- No more than `k` lines go through. -/
  goesThrough : ∀ n ≤ k, (upTo n).failure = none
  /-- More than `k` lines fail alike. -/
  failure : ∀ n > k, (upTo n).failure = some e
  /-- The lines from the failing one on leave nothing. -/
  index : ∀ n > k, (upTo n).registry.index = (upTo k).registry.index

namespace Session

variable {s : Session}

/-! ### Texts -/

/-- The text of the first lines of a text. -/
def firstLines (t : Text) (n : Nat) : Text := Text.join ['\n'] ((Text.split '\n' t).take n)

/-- The lines of a text, read in the scope of a call. -/
def readInline (s : Session) (r : Registry) (lines : List Text) : Reading Scope :=
  readLines .user (fun _ p => (.ok (), p)) lines s.config.firstScope (r.start.note [.readingInline])

theorem perform_text_eq (s : Session) (r : Registry) (t : Text) : s.perform r (.text t) =
    s.config.outcomeOf
      ((Feed.ofText t).finish "<inline>".toText (s.readInline r (Text.split '\n' t))) := by
  rw [perform, addText, addFeed, readFeed_eq_finish]
  rfl

theorem perform_firstLines_eq (s : Session) (r : Registry) (t : Text) (n : Nat) :
    s.perform r (.text (firstLines t n)) = s.config.outcomeOf
      ((Feed.ofText (firstLines t n)).finish "<inline>".toText
        (s.readInline r ((Text.split '\n' t).take n))) := by
  have hlines : ∀ line ∈ (Text.split '\n' t).take n, CodePoint.char '\n' ∉ line :=
    fun line hline hc => (Text.of_mem_split (List.mem_of_mem_take hline) hc).1 rfl
  rw [perform_text_eq, show s.readInline r (Text.split '\n' (firstLines t n)) = _ from
    readLines_split_join hlines _ _]
  rfl

/-- The calls for the first lines of a text with a line that fails. -/
theorem failsAt_firstLines {r : Registry} {t : Text} {k : Nat} {line : Text} {scope : Scope}
    {q last : Progress} {e : LoadError}
    (hstop : StopsAt .user (fun _ p => (.ok (), p)) (Text.split '\n' t) s.config.firstScope
      (r.start.note [.readingInline]) k line scope q e last) :
    (s.perform r (.text (firstLines t k))).registry.index = q.index ∧
      FailsAt (fun n => s.perform r (.text (firstLines t n))) k (e.within "<inline>".toText) := by
  have hk : (s.perform r (.text (firstLines t k))).registry.index = q.index := by
    rw [perform_firstLines_eq, show s.readInline r _ = _ from hstop.before]
    rfl
  have hmore {n : Nat} (hn : n > k) : s.perform r (.text (firstLines t n)) =
      s.config.outcomeOf (.error (e.within "<inline>".toText), last) := by
    rw [perform_firstLines_eq, show s.readInline r _ = _ from hstop.take_of_lt hn]
    rfl
  refine ⟨hk, fun n hn => ?_, fun n hn => ?_, fun n hn => ?_⟩
  · rw [perform_firstLines_eq, Config.failure_outcomeOf_eq_none]
    have hok : (s.readInline r ((Text.split '\n' t).take n)).1.isOk = true := hstop.isOk_take hn
    generalize s.readInline r ((Text.split '\n' t).take n) = a at hok ⊢
    obtain ⟨e' | scope', q'⟩ := a
    · cases hok
    · rfl
  · rw [hmore hn]
    rfl
  · rw [hmore hn, hk]
    exact index_of_readLine hstop.stops (.inl rfl)

/-- **A text that fails keeps the lines before the one that fails.** -/
theorem perform_text_keeps (s : Session) (r : Registry) {t : Text} {e : LoadError}
    (he : (s.perform r (.text t)).failure = some e) :
    ∃ k < (Text.split '\n' t).length,
      FailsAt (fun n => s.perform r (.text (firstLines t n))) k e ∧
        (s.perform r (.text t)).registry.index =
          (s.perform r (.text (firstLines t k))).registry.index := by
  rw [perform_text_eq] at he ⊢
  generalize hres : s.readInline r (Text.split '\n' t) = a at he ⊢
  obtain ⟨e' | scope, last⟩ := a
  · obtain ⟨k, line, scope, q, hstop⟩ := readLines_stopsAt hres
    obtain ⟨hk, hfails⟩ := failsAt_firstLines hstop
    obtain rfl : e'.within "<inline>".toText = e := Option.some.inj he
    have hlast : last.index = q.index := index_of_readLine hstop.stops (.inl rfl)
    exact ⟨k, hstop.lt_length, hfails, hlast.trans hk.symm⟩
  · cases he

/-! ### Catalogs -/

/-- The session in which a catalog has its first lines only. -/
def withFirstLines (s : Session) (found : s.Found) (n : Nat) : Session :=
  { s with store :=
      .chained [.mapping ⟨[(found.name, Text.join ['\n'] (found.lines.take n))]⟩, s.store] }

variable {found : s.Found} {n : Nat}

variable (found n) in
/-- **A catalog can have the first lines of a catalog.** None of them give an empty line. -/
theorem exists_found_withFirstLines :
    ∃ found' : (s.withFirstLines found n).Found, found'.name = found.name ∧
      Feed.ofBytes found'.bytes =
        ⟨if found.lines.take n = [] then [[]] else found.lines.take n, false⟩ := by
  have hlines : ∀ line ∈ found.lines.take n, Feed.IsLine line := fun line hline =>
    Feed.isLine_of_mem_ofBytes (List.mem_of_mem_take hline)
  obtain ⟨hencodable, hbytes⟩ := Feed.ofBytes_encode_join hlines
  have hanswer : ∃ servers, (s.withFirstLines found n).store.answer
      (s.withFirstLines found n).disk found.name =
        .served (Utf8.encode (Text.join ['\n'] (found.lines.take n))) servers := by
    simp [withFirstLines, Store.answer, Store.firstAnswer, Table.get?, Store.Answer.ofText?,
      hencodable]
  exact ⟨⟨found.name, _, found.isName, hanswer⟩, rfl, hbytes⟩

/-- All other catalogs stay as they are. -/
theorem covers_withFirstLines :
    s.Covers [found.name] (s.withFirstLines found n) [found.name] where
  scope := rfl
  subset := fun _ => id
  served := fun name hname => List.mem_singleton.1 hname ▸ found.serves
  answers := by
    intro name hname
    have hne : name ≠ found.name := fun h => hname (List.mem_singleton.2 h)
    have hmapping : (Store.mapping ⟨[(found.name, Text.join ['\n'] (found.lines.take n))]⟩).answer
        s.disk name = .unknown := by
      simp [Store.answer, Table.get?, hne, Store.Answer.ofText?]
    change (Store.answer s.disk name (.chained [_, s.store])).plain = _
    rw [Store.answer, Store.firstAnswer, hmapping]
    dsimp only
    rw [Store.firstAnswer]
    cases s.store.answer s.disk name <;> rfl

/-- What opens a catalog opens the one with its first lines. -/
theorem Opens.withFirstLines {name : Text} {target : Option Text}
    (h : s.Opens [] name target found) {found' : (s.withFirstLines found n).Found}
    (hname : found'.name = found.name) : (s.withFirstLines found n).Opens [] name target found' :=
  ⟨h.ne, hname ▸ covers_withFirstLines.refersTo_of_serves h.refers (hname ▸ found'.serves),
    List.not_mem_nil⟩

/-- **Lines that go through in a catalog go through in one that has its first lines only**, and do
the same. -/
theorem readLines_withFirstLines {found' : (s.withFirstLines found n).Found}
    (hname : found'.name = found.name) {p q : Progress} (h : Ahead [] p q) (lines : List Text)
    (scope : Scope) : Agree False (Ahead []) (readLines .catalog (s.inside [] found) lines scope p)
      (readLines .catalog ((s.withFirstLines found n).inside [] found') lines scope q) := by
  refine (compares_ahead []).readLines_agree (fun name p q h => ?_) h .catalog lines scope
  rw [inside, inside, hname]
  exact covers_withFirstLines.readCatalog_agree (compares_ahead []) h name none

/-- **A line that fails in a catalog fails in one that has its first lines only**, if it includes
nothing. -/
theorem stopsAt_withFirstLines {found' : (s.withFirstLines found n).Found}
    (hname : found'.name = found.name) {p p' : Progress} (h : Ahead [] p p') {first scope : Scope}
    {k : Nat} {line : Text} {q last : Progress} {e : LoadError}
    (hstop : StopsAt .catalog (s.inside [] found) found.lines first p k line scope q e last)
    (hline : included? line = none) : ∃ q' last', Ahead [] last last' ∧
      StopsAt .catalog ((s.withFirstLines found n).inside [] found') found.lines first p' k line
        scope q' e last' := by
  have hbefore := readLines_withFirstLines hname h (found.lines.take k) first
  rw [hstop.before] at hbefore
  obtain ⟨hresult, hahead⟩ := hbefore (.inr rfl)
  generalize hres : readLines .catalog ((s.withFirstLines found n).inside [] found')
    (found.lines.take k) first p' = a at hresult hahead
  obtain ⟨result, q'⟩ := a
  obtain rfl : result = .ok scope := hresult
  -- The line includes nothing, so what including does can be replaced by what does nothing.
  have hagree : Agree True (Ahead []) (readLine .catalog (fun _ p => (.ok (), p)) line scope q)
      (readLine .catalog (fun _ p => (.ok (), p)) line scope q') :=
    (compares_ahead []).readLine_agree (fun _ _ _ h => .pure h _) hahead .catalog line scope
  rw [readLine_expand hline (s.inside [] found), hstop.stops,
    readLine_expand hline ((s.withFirstLines found n).inside [] found')] at hagree
  obtain ⟨hresult', hahead'⟩ := hagree (.inl trivial)
  exact ⟨q', _, hahead', hstop.at_line, hres, Prod.ext hresult' rfl⟩

/-- What the call for a catalog with its first lines only comes to. -/
theorem perform_withFirstLines {name : Text} {target : Option Text}
    (h : s.Opens [] name (s.targetOf target) found) (r : Registry) (n : Nat) :
    ∃ found' : (s.withFirstLines found n).Found, ∃ t, found'.name = found.name ∧
      ∀ a, readLines .catalog ((s.withFirstLines found n).inside [] found') (found.lines.take n)
          s.config.firstScope (r.start.note t) = a →
        let outcome := (s.withFirstLines found n).perform r (.catalog name target)
        outcome.registry = ⟨a.2.index, a.2.classes⟩ ∧
        ∀ e, outcome.failure = some e ↔ ∃ e', a.1 = .error e' ∧ e = e'.within found.name := by
  obtain ⟨found', hname, hfeed⟩ := exists_found_withFirstLines found n
  obtain ⟨t, -, hread⟩ := readCatalog_of_opens (h.withFirstLines hname)
  refine ⟨found', t ++ [.opened found'.name], hname, fun a ha => ?_⟩
  intro outcome
  have houtcome : outcome = s.config.outcomeOf (found'.finish a) := by
    rw [← ha, ← Progress.note_note, ← readLines_ite_nil (found.lines.take n)]
    have hlines : found'.lines =
        if found.lines.take n = [] then [[]] else found.lines.take n := congrArg Feed.lines hfeed
    rw [← hlines]
    exact congrArg s.config.outcomeOf (hread r.start)
  refine ⟨by rw [houtcome, Config.registry_outcomeOf]; rfl, fun e => ?_⟩
  rw [houtcome, Config.failure_outcomeOf_eq_some, Found.finish, Feed.finish, hfeed, hname]
  obtain ⟨e' | scope, q⟩ := a
  · constructor
    · intro he
      exact ⟨e', rfl, (Except.error.inj he).symm⟩
    · rintro ⟨_, he', he⟩
      obtain rfl := Except.error.inj he'
      rw [he]
  · constructor
    · intro he
      cases he
    · rintro ⟨_, he', -⟩
      cases he'

section Calls

variable {name : Text} {target : Option Text} (h : s.Opens [] name (s.targetOf target) found)
  (r : Registry) (t : Trace)

include h

/-- First lines that go through in a catalog go through in a call for no more than them. -/
theorem perform_withFirstLines_of_isOk {a : Reading Scope}
    (ha : readLines .catalog (s.inside [] found) (found.lines.take n) s.config.firstScope
      (r.start.note t) = a) (hok : a.1.isOk = true) :
    let outcome := (s.withFirstLines found n).perform r (.catalog name target)
    outcome.failure = none ∧ outcome.registry = ⟨a.2.index, a.2.classes⟩ := by
  intro outcome
  obtain ⟨found', t', hname, hperform⟩ := perform_withFirstLines h r n
  obtain ⟨hregistry, hfailure⟩ := hperform _ rfl
  have hstart : Ahead [] (r.start.note t) (r.start.note t') := ahead_note r.start t t'
  obtain ⟨hresult, hahead⟩ :=
    readLines_withFirstLines hname hstart (found.lines.take n) s.config.firstScope
      (.inr (ha ▸ hok))
  rw [ha] at hresult hahead
  refine ⟨Option.eq_none_iff_forall_ne_some.2 fun e he => ?_, ?_⟩
  · obtain ⟨e', he', -⟩ := (hfailure e).1 he
    rw [← hresult, he'] at hok
    cases hok
  · exact hregistry.trans (Registry.mk.injEq .. ▸ ⟨hahead.index, hahead.classes⟩)

/-- Once the line that fails is among them, the first lines fail alike. -/
theorem perform_withFirstLines_of_stopsAt {k : Nat} {line : Text} {scope : Scope}
    {q last : Progress} {e : LoadError} (hstop : StopsAt .catalog (s.inside [] found) found.lines
      s.config.firstScope (r.start.note t) k line scope q e last)
    (hline : included? line = none) (hn : k < n) :
    let outcome := (s.withFirstLines found n).perform r (.catalog name target)
    outcome.failure = some (e.within found.name) ∧ outcome.registry.index = q.index := by
  intro outcome
  obtain ⟨found', t', hname, hperform⟩ := perform_withFirstLines h r n
  have hstart : Ahead [] (r.start.note t) (r.start.note t') := ahead_note r.start t t'
  obtain ⟨q', last', hahead, hstop'⟩ := stopsAt_withFirstLines hname hstart hstop hline
  obtain ⟨hregistry, hfailure⟩ := hperform _ (hstop'.take_of_lt hn)
  refine ⟨(hfailure _).2 ⟨e, rfl, rfl⟩, ?_⟩
  exact (congrArg Registry.index hregistry).trans
    (hahead.index.trans (index_of_readLine hstop.stops (.inr hline)))

end Calls

/-- **What a call for a catalog that fails keeps**, with one constructor for each way to fail. -/
inductive CallKeeps (s : Session) (r : Registry) (name : Text) (target : Option Text) :
    LoadError → Index → Prop
  /-- No catalog is opened: what was forbidden before. -/
  | unopened {e : LoadError} (h : ¬∃ found, s.Opens [] name (s.targetOf target) found) :
      CallKeeps s r name target e r.index
  /-- The source of the catalog breaks off: what its lines forbid, which all go through. -/
  | brokenOff {found : s.Found} (h : s.Opens [] name (s.targetOf target) found)
      (hbroken : (Feed.ofBytes found.bytes).broken = true)
      (hok : ∀ n, ((s.withFirstLines found n).perform r (.catalog name target)).failure = none) :
      CallKeeps s r name target (.unreadable found.name)
        ((s.withFirstLines found found.lines.length).perform r
          (.catalog name target)).registry.index
  /-- A line fails that includes nothing: what the lines before it forbid. -/
  | line {found : s.Found} {k : Nat} {line : Text} {e : LoadError}
      (h : s.Opens [] name (s.targetOf target) found) (hk : found.lines[k]? = some line)
      (hline : included? line = none)
      (hfails : FailsAt
        (fun n => (s.withFirstLines found n).perform r (.catalog name target)) k e) :
      CallKeeps s r name target e
        ((s.withFirstLines found k).perform r (.catalog name target)).registry.index
  /-- An inclusion fails: what the included catalog keeps, after the lines before it. -/
  | inclusion {found : s.Found} {k : Nat} {line name' : Text} {e : LoadError} {last : Progress}
      (h : s.Opens [] name (s.targetOf target) found) (hk : found.lines[k]? = some line)
      (hline : included? line = some name')
      (hok : ∀ n ≤ k, ((s.withFirstLines found n).perform r (.catalog name target)).failure = none)
      (hinside : s.inside [] found name'
        ((s.withFirstLines found k).perform r (.catalog name target)).registry.start =
          (.error e, last)) :
      CallKeeps s r name target (e.within found.name) last.index

section Calls

variable {name : Text} {target : Option Text} (h : s.Opens [] name (s.targetOf target) found)
  (r : Registry) (t : Trace)

include h

/-- What a catalog keeps of which a line fails. -/
theorem callKeeps_of_stopsAt {k : Nat} {line : Text} {scope : Scope} {q last : Progress}
    {e : LoadError} (hstop : StopsAt .catalog (s.inside [] found) found.lines s.config.firstScope
      (r.start.note t) k line scope q e last) :
    s.CallKeeps r name target (e.within found.name) last.index := by
  have hok : ∀ n ≤ k, ((s.withFirstLines found n).perform r (.catalog name target)).failure =
      none := fun n hn => (perform_withFirstLines_of_isOk h r _ rfl (hstop.isOk_take hn)).1
  have hk := (perform_withFirstLines_of_isOk h r _ hstop.before rfl).2
  cases hline : included? line with
  | none =>
    have hmore {n : Nat} (hn : n > k) := perform_withFirstLines_of_stopsAt h r _ hstop hline hn
    have hkeeps := CallKeeps.line h hstop.at_line hline ⟨hok, fun n hn => (hmore hn).1,
      fun n hn => (hmore hn).2.trans (congrArg Registry.index hk).symm⟩
    rw [hk] at hkeeps
    rwa [← index_of_readLine hstop.stops (.inr hline)] at hkeeps
  | some name' =>
    -- The included catalog is read from the same state, but for what was told and skipped.
    obtain ⟨hresult, hahead⟩ := readCatalog_agree (compares_ahead q.missing)
      (ahead_start (q.note [.directive (Text.trim line)]) []) ([] ++ [found.name]) name' none
      (.inl trivial)
    rw [show s.readCatalog _ name' none _ = _ from eq_of_readLine hstop.stops hline]
      at hresult hahead
    have hinside : s.inside [] found name' ((s.withFirstLines found k).perform r
        (.catalog name target)).registry.start =
          (.error e, (s.readCatalog ([] ++ [found.name]) name' none
            ⟨q.index, q.classes, [], []⟩).2) := by
      rw [hk]
      exact Prod.ext hresult rfl
    have hkeeps := CallKeeps.inclusion h hstop.at_line hline hok hinside
    rwa [show (s.readCatalog ([] ++ [found.name]) name' none
      ⟨q.index, q.classes, [], []⟩).2.index = last.index from hahead.index] at hkeeps

/-- What a catalog keeps whose source breaks off. -/
theorem callKeeps_of_broken {scope : Scope} {last : Progress}
    (hlines : readLines .catalog (s.inside [] found) found.lines s.config.firstScope
      (r.start.note t) = (.ok scope, last))
    (hbroken : (Feed.ofBytes found.bytes).broken = true) :
    s.CallKeeps r name target (.unreadable found.name) last.index := by
  have hok (n : Nat) : ((s.withFirstLines found n).perform r (.catalog name target)).failure =
      none := (perform_withFirstLines_of_isOk h r _ rfl
    (isOk_readLines_take n (congrArg (·.1.isOk) hlines))).1
  have hall := (perform_withFirstLines_of_isOk h r _
    ((congrArg (readLines _ _ · _ _) List.take_length).trans hlines) rfl).2
  have hkeeps := CallKeeps.brokenOff h hbroken hok
  rwa [hall] at hkeeps

end Calls

/-- **A catalog that fails keeps the lines before the one that fails**, and what the catalog that
this line includes keeps. -/
theorem perform_catalog_keeps (s : Session) (r : Registry) {name : Text} {target : Option Text}
    {e : LoadError} (he : (s.perform r (.catalog name target)).failure = some e) :
    s.CallKeeps r name target e (s.perform r (.catalog name target)).registry.index := by
  have hres : (s.readCatalog [] name (s.targetOf target) r.start).1 = .error e :=
    Config.failure_outcomeOf_eq_some.1 he
  have hindex : (s.perform r (.catalog name target)).registry.index =
      (s.readCatalog [] name (s.targetOf target) r.start).2.index :=
    congrArg Registry.index (s.config.registry_outcomeOf _)
  rw [hindex]
  by_cases hopens : ∃ found, s.Opens [] name (s.targetOf target) found
  · obtain ⟨found, hopens⟩ := hopens
    obtain ⟨t, -, hread⟩ := readCatalog_of_opens hopens
    rw [hread, Progress.note_note] at hres ⊢
    generalize hlines : readLines .catalog (s.inside [] found) found.lines s.config.firstScope
      (r.start.note (t ++ [.opened found.name])) = a at hres ⊢
    obtain ⟨e' | scope, last⟩ := a
    · obtain ⟨k, line, scope, q, hstop⟩ := readLines_stopsAt hlines
      obtain rfl : e'.within found.name = e := Except.error.inj hres
      have hkeeps := callKeeps_of_stopsAt hopens r _ hstop
      exact hkeeps
    · rw [Found.finish, Feed.finish] at hres
      dsimp only at hres
      split at hres
      · next hbroken =>
        obtain rfl := Except.error.inj hres
        have hkeeps := callKeeps_of_broken hopens r _ hlines hbroken
        exact hkeeps
      · cases hres
  · rcases s.readCatalog_cases [] name (s.targetOf target) with rfl | h | ⟨e', t, -, hfailed⟩
    · rw [readCatalog_nonPortable] at hres
      cases hres
    · exact absurd h hopens
    · rw [hfailed]
      exact .unopened hopens

/-! ### Catalogs that are included -/

/-- **What a reader that fails keeps**, with one constructor for each way to fail. -/
inductive Keeps (s : Session) : List Text → Text → Option Text → Progress → Index → Prop
  /-- No catalog is opened: what was forbidden before. -/
  | unopened {chain : List Text} {name : Text} {target : Option Text} {p : Progress}
      (h : ¬∃ found, s.Opens chain name target found) : Keeps s chain name target p p.index
  /-- The source of the catalog breaks off: what its lines forbid. -/
  | brokenOff {chain : List Text} {name : Text} {target : Option Text} {p q : Progress}
      {found : s.Found} {t : Trace} {scope : Scope} (h : s.Opens chain name target found)
      (hbroken : (Feed.ofBytes found.bytes).broken = true)
      (hread : readLines .catalog (s.inside chain found) found.lines s.config.firstScope
        (p.note t) = (.ok scope, q)) : Keeps s chain name target p q.index
  /-- A line fails that includes nothing: what the lines before it forbid. -/
  | line {chain : List Text} {name : Text} {target : Option Text} {p q last : Progress}
      {found : s.Found} {t : Trace} {k : Nat} {line : Text} {scope : Scope} {e : LoadError}
      (h : s.Opens chain name target found)
      (hstop : StopsAt .catalog (s.inside chain found) found.lines s.config.firstScope (p.note t)
        k line scope q e last)
      (hline : included? line = none) : Keeps s chain name target p q.index
  /-- An inclusion fails: what the included catalog keeps, after the lines before it. -/
  | inclusion {chain : List Text} {name name' : Text} {target : Option Text} {p q last : Progress}
      {found : s.Found} {t : Trace} {k : Nat} {line : Text} {scope : Scope} {e : LoadError}
      {index : Index} (h : s.Opens chain name target found)
      (hstop : StopsAt .catalog (s.inside chain found) found.lines s.config.firstScope (p.note t)
        k line scope q e last)
      (hline : included? line = some name')
      (hkeeps : Keeps s (chain ++ [found.name]) name' none
        (q.note [.directive (Text.trim line)]) index) : Keeps s chain name target p index

/-- **A catalog that fails keeps its prefix**, however deep it is included. -/
theorem keeps_readCatalog (chain : List Text) {name : Text} {target : Option Text} {p : Progress}
    {e : LoadError} (he : (s.readCatalog chain name target p).1 = .error e) :
    s.Keeps chain name target p (s.readCatalog chain name target p).2.index := by
  induction chain using s.chain_induction generalizing name target p e with | longer chain ih
  by_cases hopens : ∃ found, s.Opens chain name target found
  · obtain ⟨found, hopens⟩ := hopens
    obtain ⟨t, -, hread⟩ := readCatalog_of_opens hopens
    rw [hread, Progress.note_note] at he ⊢
    generalize hlines : readLines .catalog (s.inside chain found) found.lines s.config.firstScope
      (p.note (t ++ [.opened found.name])) = a at he ⊢
    obtain ⟨e' | scope, last⟩ := a
    · obtain ⟨k, line, scope, q, hstop⟩ := readLines_stopsAt hlines
      cases hline : included? line with
      | none =>
        have hkeeps := Keeps.line hopens hstop hline
        rwa [← index_of_readLine hstop.stops (.inr hline)] at hkeeps
      | some name' =>
        have hinner : s.readCatalog (chain ++ [found.name]) name' none
            (q.note [.directive (Text.trim line)]) = (.error e', last) :=
          eq_of_readLine hstop.stops hline
        have hkeeps := ih found hopens.fresh (congrArg Prod.fst hinner)
        rw [hinner] at hkeeps
        exact .inclusion hopens hstop hline hkeeps
    · rw [Found.finish, Feed.finish] at he
      dsimp only at he
      split at he
      · next hbroken =>
        exact Keeps.brokenOff (q := last) hopens hbroken hlines
      · cases he
  · rcases s.readCatalog_cases chain name target with rfl | h | ⟨e', t, -, hfailed⟩
    · rw [readCatalog_nonPortable] at he
      cases he
    · exact absurd h hopens
    · rw [hfailed]
      exact .unopened hopens

/-! ### Summing up -/

/-- What is new in the trace sums nothing up. -/
def SumsNothingUp (p q : Progress) : Prop :=
  ∃ t, q.trace = p.trace ++ t ∧ ∀ e ∈ t, Event.isSummary e = false

theorem respects_sumsNothingUp (s : Session) : s.Respects fun _ => SumsNothingUp where
  refl := ⟨[], by simp, by simp⟩
  trans := by
    rintro - p q r ⟨t, ht, hnone⟩ ⟨t', ht', hnone'⟩
    refine ⟨t ++ t', by rw [ht', ht, List.append_assoc], fun e he => ?_⟩
    exact (List.mem_append.1 he).elim (hnone e) (hnone' e)
  record := by
    intro _ policy r p
    obtain ⟨t, ht, hremarks⟩ := readRecord_trace policy r p
    exact ⟨_, ht, List.forall_mem_cons.2 ⟨rfl, fun e he => (hremarks [] e he).isSummary⟩⟩
  remark := fun p he => ⟨_, rfl, List.forall_mem_singleton.2 he.isSummary⟩
  nonPortable := fun p => ⟨_, rfl, List.forall_mem_singleton.2 rfl⟩
  nest := by
    rintro - name p q - - ⟨t, ht, hnone⟩
    refine ⟨.opened name :: t ++ [.closed name], ?_, fun e he => ?_⟩
    · rw [Progress.trace_note, ht, Progress.trace_note]
      simp
    · rcases List.mem_append.1 he with he | he
      · rcases List.mem_cons.1 he with rfl | he
        · rfl
        · exact hnone e he
      · obtain rfl := List.mem_singleton.1 he
        rfl

/-- **A call that fails sums nothing up.** -/
theorem isSummary_of_failure (s : Session) (r : Registry) (call : Call)
    (hfailure : (s.perform r call).failure.isSome = true) :
    ∀ e ∈ (s.perform r call).trace, e.isSummary = false := by
  have houtcome {res : Reading Unit} (h : (s.config.outcomeOf res).failure.isSome = true) :
      (s.config.outcomeOf res).trace = res.2.trace := by
    obtain ⟨e | u, p⟩ := res
    · rfl
    · cases h
  have hfeed {event : Event} (hevent : event.isSummary = false) (name : Text) (feed : Feed)
      (h : (s.addFeed event name feed r).failure.isSome = true) :
      ∀ e ∈ (s.addFeed event name feed r).trace, e.isSummary = false := by
    rw [addFeed] at h ⊢
    rw [houtcome h, readFeed_progress]
    have hlines : SumsNothingUp (r.start.note [event]) (readLines .user (fun _ p => (.ok (), p))
        feed.lines s.config.firstScope (r.start.note [event])).2 :=
      @Respects.readLines s _ s.respects_sumsNothingUp [] .user _
        (fun _ _ => ⟨[], by simp, by simp⟩) _ _ _
    obtain ⟨t, ht, hnone⟩ := hlines
    rw [ht]
    exact List.forall_mem_cons.2 ⟨hevent, hnone⟩
  cases call with
  | catalog name target =>
    obtain ⟨t, ht, hnone⟩ :=
      s.respects_sumsNothingUp.readCatalog [] name (s.targetOf target) r.start
    rw [perform, addCatalog] at hfailure ⊢
    rw [houtcome hfailure, ht]
    exact hnone
  | text t => exact hfeed rfl _ _ hfailure
  | stream name feed => exact hfeed rfl _ _ hfailure
  | file path =>
    rw [perform, addFile] at hfailure ⊢
    split at hfailure
    · exact hfeed rfl _ _ hfailure
    all_goals simp

/-! ### What a failing call keeps -/

/-- **A failing call keeps exactly its prefix.** A text that fails leaves what the lines before the
failing one leave, which go through; so does a catalog, unless the failing line includes one, which
then adds what it keeps itself. Below the call the same holds of every catalog that is read. No call
that fails sums up the classes that were skipped. -/
theorem failure_keeps_prefix (s : Session) (r : Registry) :
    (∀ {t e}, (s.perform r (.text t)).failure = some e → ∃ k < (Text.split '\n' t).length,
      FailsAt (fun n => s.perform r (.text (firstLines t n))) k e ∧
        (s.perform r (.text t)).registry.index =
          (s.perform r (.text (firstLines t k))).registry.index) ∧
    (∀ {name target e}, (s.perform r (.catalog name target)).failure = some e →
      s.CallKeeps r name target e (s.perform r (.catalog name target)).registry.index) ∧
    (∀ {chain name target p e}, (s.readCatalog chain name target p).1 = .error e →
      s.Keeps chain name target p (s.readCatalog chain name target p).2.index) ∧
    ∀ call, (s.perform r call).failure.isSome = true →
      ∀ e ∈ (s.perform r call).trace, e.isSummary = false :=
  ⟨s.perform_text_keeps r, s.perform_catalog_keeps r, keeps_readCatalog _,
    s.isSummary_of_failure r⟩

/-- A catalog that fails in the second line of the one that it includes in its second line. -/
def failing : Table Text Text where
  entries := [("w".toText, "a.*\n@includeBundled x\nd.*".toText),
    ("x".toText, "b.*\nc.C\nd.*".toText)]

/-- The session with these catalogs that does not let pass what cannot be resolved. -/
def failingSession : Session where
  config := {}
  store := .mapping failing
  disk := ⟨⟨[]⟩, []⟩

/-- Two calls that fail in their second line, the one in a line of its own, the other in a line of
the catalog that it includes. -/
theorem failure_keeps_prefix_inclusion :
    let s := failingSession
    let r := Registry.ofClasses .empty
    let t := "a.*\nc.C\nb.*".toText
    (∃ e, (s.perform r (.text t)).failure = some e ∧ ∃ k < 3,
      FailsAt (fun n => s.perform r (.text (firstLines t n))) k e ∧
        (s.perform r (.text t)).registry.index =
          (s.perform r (.text (firstLines t k))).registry.index) ∧
    ∃ e, (s.perform r (.catalog "w".toText none)).failure = some e ∧
      s.CallKeeps r "w".toText none e
        (s.perform r (.catalog "w".toText none)).registry.index ∧
      s.Keeps [] "w".toText none r.start (s.readCatalog [] "w".toText none r.start).2.index ∧
      ∀ e ∈ (s.perform r (.catalog "w".toText none)).trace, e.isSummary = false := by
  intro s r t
  obtain ⟨htext, hcatalog, hreading, hcall⟩ := failure_keeps_prefix s r
  have hread : s.readWithin (fun _ _ _ p => (.ok (), p)) 3 [] = s.readCatalog [] :=
    s.readWithin_eq _ (by decide)
  have hfails : (s.perform r (.catalog "w".toText none)).failure.isSome = true := by
    change (s.config.outcomeOf (s.readCatalog [] "w".toText none r.start)).failure.isSome = true
    rw [← hread]
    decide +kernel
  refine ⟨?_, ?_⟩
  · have ht : (s.perform r (.text t)).failure.isSome = true := by decide +kernel
    obtain ⟨e, he⟩ := Option.isSome_iff_exists.1 ht
    exact ⟨e, he, htext he⟩
  · obtain ⟨e, he⟩ := Option.isSome_iff_exists.1 hfails
    exact ⟨e, he, hcatalog he, hreading (Config.failure_outcomeOf_eq_some.1 he), hcall _ hfails⟩

end Session
end Embargo
