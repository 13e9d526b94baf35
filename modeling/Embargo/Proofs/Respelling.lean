import Embargo.Proofs.CatalogSpellings
import Embargo.Proofs.Utf8

/-!
# Respelled catalogs

In the lines of catalogs, too, one name of a catalog may take the place of another one: the lines
are told as they are written, and all else is the same.

* `Catalog.RespellsLine`, `Session.Respells` – lines of which one includes a name where the other
  one includes another, and sessions whose stores serve catalogs that are respelled line by line.
* `Corresponds` – two questions to such stores come to the same error, or to catalogs that are
  respelled: `Session.Respells.find_corresponds`.
* `Session.Respells.readCatalog_agree` – respelled catalogs are read alike, at any depth, and
  `Session.Respells.perform` – calls over them end the same way.
* `Catalog.respell` – the text with the one name in the place of the other. A table of respelled
  texts serves respelled catalogs (`Session.respells_respellAll`).
* `Session.catalog_spellings` – what is known about the names of a catalog, in calls and in lines.
-/

namespace Embargo

/-! ### Respelled catalogs -/

/-- **The line is respelled**: it is the same, or it includes one name where the other includes the
other name. -/
def Catalog.RespellsLine (n n' line line' : Text) : Prop :=
  line' = line ∨ included? line = some n ∧ included? line' = some n'

/-- The source is respelled line by line. -/
structure Feed.Respells (n n' : Text) (feed feed' : Feed) : Prop where
  /-- Each line is respelled. -/
  lines : List.Forall₂ (Catalog.RespellsLine n n') feed.lines feed'.lines
  /-- Both can be read to the end, or neither can. -/
  broken : feed'.broken = feed.broken

/-- **The answer of a store is respelled**: it serves a respelled catalog, or none for the same
reason. -/
inductive Store.Answer.Respells (n n' : Text) : Answer → Answer → Prop where
  /-- A catalog is served. -/
  | served {bytes bytes' : Bytes} {servers servers' : List Text}
      (h : (Feed.ofBytes bytes).Respells n n' (Feed.ofBytes bytes')) :
      Respells n n' (.served bytes servers) (.served bytes' servers')
  /-- None is served. -/
  | unserved {answer : Answer} (h : answer.isServed = false) : Respells n n' answer answer

/-- Two results correspond: they are the same error, or values that do. -/
inductive Corresponds {α β : Type} (V : α → β → Prop) :
    Except LoadError α → Except LoadError β → Prop where
  /-- Both are the same error. -/
  | error (e : LoadError) : Corresponds V (.error e) (.error e)
  /-- Both are values, and correspond. -/
  | ok {x : α} {y : β} (h : V x y) : Corresponds V (.ok x) (.ok y)

/-- Results that correspond go on to correspond. -/
theorem Corresponds.andThen {α β γ δ : Type} {V : α → β → Prop} {W : γ → δ → Prop} {a : Reading α}
    {b : Reading β} (h : Corresponds V a.1 b.1) {next : α → Progress → Reading γ}
    {next' : β → Progress → Reading δ}
    (hnext : ∀ {x y}, V x y → ∀ p q, Corresponds W (next x p).1 (next' y q).1) :
    Corresponds W (a.andThen next).1 (b.andThen next').1 := by
  obtain ⟨result, p⟩ := a
  obtain ⟨result', q⟩ := b
  cases h with
  | error e => exact .error e
  | ok h => exact hnext h p q

namespace Session

variable {s s' : Session} {n n' c : Text}

/-- **Two sessions differ in the spelling of a name in the lines of catalogs.** -/
structure Respells (n n' : Text) (s s' : Session) : Prop where
  /-- The settings are the same. -/
  config : s'.config = s.config
  /-- Messages show the stores alike. -/
  text : s'.store.text = s.store.text
  /-- What one store serves, the other one serves respelled. -/
  answers : ∀ name,
    (s.store.answer s.disk name).Respells n n' (s'.store.answer s'.disk name)

/-- A catalog that is found is respelled. -/
structure Found.Respells (n n' : Text) (found : s.Found) (found' : s'.Found) : Prop where
  /-- The names are the same. -/
  name : found'.name = found.name
  /-- The lines are respelled. -/
  feed : (Feed.ofBytes found.bytes).Respells n n' (Feed.ofBytes found'.bytes)

/-- A store that serves a catalog yields it. -/
theorem ask_of_served (chain : List Text) {name : Text} (hn : Catalog.isName name = true)
    {bytes : Bytes} {servers : List Text} (h : s.store.answer s.disk name = .served bytes servers)
    (p : Progress) : (s.ask chain name hn p).1 = .ok (some ⟨name, bytes, hn, servers, h⟩) := by
  unfold ask
  split
  · next bytes' servers' h' =>
    obtain ⟨rfl, rfl⟩ := Store.Answer.served.inj (h'.symm.trans h)
    rfl
  all_goals next h' => cases h'.symm.trans h

/-- A store that serves no catalog says why. -/
theorem ask_of_unserved (chain : List Text) {name : Text} (hn : Catalog.isName name = true)
    (h : (s.store.answer s.disk name).isServed = false) (p : Progress) :
    (s.ask chain name hn p).1 = match s.store.answer s.disk name with
      | .refused => .error .refused
      | .unencodable => .error .unencodable
      | _ => .ok none := by
  unfold ask
  split
  · next bytes servers h' =>
    rw [h'] at h
    cases h
  all_goals next h' => rw [h']

namespace Respells

variable (h : s.Respells n n' s')

include h

theorem ask_corresponds (chain : List Text) {name : Text} (hn : Catalog.isName name = true)
    (p q : Progress) : Corresponds (Option.Rel (Found.Respells n n')) (s.ask chain name hn p).1
      (s'.ask chain name hn q).1 := by
  have hanswers := h.answers name
  generalize ha : s.store.answer s.disk name = answer at hanswers
  generalize ha' : s'.store.answer s'.disk name = answer' at hanswers
  cases hanswers with
  | served hfeed =>
    rw [ask_of_served chain hn ha, ask_of_served chain hn ha']
    exact .ok (.some ⟨rfl, hfeed⟩)
  | unserved hserved =>
    rw [ask_of_unserved chain hn (by rwa [ha]), ask_of_unserved chain hn (by rwa [ha']), ha, ha']
    cases answer with
    | served bytes servers => cases hserved
    | unknown => exact .ok .none
    | refused => exact .error _
    | unencodable => exact .error _

theorem askCanonical_corresponds (chain : List Text) (name : Text) (target : Option Text)
    (p q : Progress) :
    Corresponds (fun asked asked' => asked'.1 = asked.1 ∧
        Option.Rel (Found.Respells n n') asked.2 asked'.2)
      (s.askCanonical chain name target p).1 (s'.askCanonical chain name target q).1 := by
  cases hc : Catalog.canonicalName name target with
  | error e =>
    rw [s.askCanonical_of_error chain hc, s'.askCanonical_of_error chain hc]
    exact .error _
  | ok canonical =>
    rw [s.askCanonical_of_ok chain hc, s'.askCanonical_of_ok chain hc]
    exact (h.ask_corresponds chain _ p q).andThen fun hfound _ _ => .ok ⟨rfl, hfound⟩

theorem settle_corresponds {asked : Text × Option s.Found} {asked' : Text × Option s'.Found}
    (hasked : asked'.1 = asked.1 ∧ Option.Rel (Found.Respells n n') asked.2 asked'.2)
    (p q : Progress) : Corresponds (Found.Respells n n') (s.settle asked p).1
      (s'.settle asked' q).1 := by
  obtain ⟨name, found⟩ := asked
  obtain ⟨name', found'⟩ := asked'
  obtain ⟨rfl, hfound⟩ := hasked
  cases hfound with
  | some hfound => exact .ok hfound
  | none =>
    rw [settle, settle, h.text]
    exact .error _

/-- **A name is found to be a respelled catalog**, or is not found for the same reason. -/
theorem find_corresponds (chain : List Text) (name : Text) (target : Option Text)
    (p q : Progress) : Corresponds (Found.Respells n n') (s.find chain name target p).1
      (s'.find chain name target q).1 := by
  rw [find_eq_andThen, find_eq_andThen]
  refine (h.askCanonical_corresponds chain name none p q).andThen ?_
  rintro ⟨canonical, found⟩ ⟨canonical', found'⟩ hasked p q
  have hnone : found'.isNone = found.isNone := by
    have hfound := hasked.2
    cases hfound <;> rfl
  dsimp only
  rw [hnone]
  split
  · exact (h.askCanonical_corresponds chain name target p q).andThen h.settle_corresponds
  · exact h.settle_corresponds hasked p q

end Respells

/-! ### Reading respelled catalogs -/

/-- Respelled lines are read alike where the two spellings are. -/
theorem readLines_respelled {R : Progress → Progress → Prop} (hR : Compares R)
    {expand expand' : Text → Progress → Reading Unit}
    (hexpand : ∀ name p q, R p q → Agree True R (expand name p) (expand' name q))
    (hspelling : ∀ p, expand' n' p = expand' n p) {lines lines' : List Text}
    (hlines : List.Forall₂ (Catalog.RespellsLine n n') lines lines') (scope : Scope)
    {p q : Progress} (h : R p q) : Agree True R (readLines .catalog expand lines scope p)
      (readLines .catalog expand' lines' scope q) := by
  induction hlines generalizing scope p q with
  | nil => exact .pure h _
  | @cons line line' lines lines' hline hlines ih =>
    rw [readLines_cons_eq, readLines_cons_eq]
    refine Agree.andThen ?_ fun scope p q h => ih scope h
    obtain rfl | ⟨hincluded, hincluded'⟩ := hline
    · exact hR.readLine_agree hexpand h .catalog line' scope
    · rw [readLine_of_included? hincluded, readLine_of_included? hincluded', hspelling]
      have htold : R (p.note [.directive (Text.trim line)])
          (q.note [.directive (Text.trim line')]) :=
        hR.tell h (by simp [Event.isDeed]) (by simp [Event.isDeed])
      exact (hexpand n _ _ htold).andThen fun _ _ _ h => .pure h _

namespace Respells

variable (h : s.Respells n n' s') (hn : Catalog.canonicalName n none = .ok c)
variable (hn' : Catalog.canonicalName n' none = .ok c)

include h hn hn'

/-- **Respelled catalogs are read alike**, at any depth. -/
theorem readCatalog_agree {R : Progress → Progress → Prop} (hR : Compares R) {p q : Progress}
    (hpq : R p q) (chain : List Text) (name : Text) (target : Option Text) :
    Agree True R (s.readCatalog chain name target p) (s'.readCatalog chain name target q) := by
  induction chain using s.chain_induction generalizing name target p q with | longer chain ih
  rw [readCatalog, readCatalog]
  unfold readCatalogWith
  split
  · exact .pure hpq _
  · next name _ =>
    split
    · exact .pure (hR.forbidNonPortable hpq chain chain) _
    · have hfound := h.find_corresponds chain name target p q
      obtain ⟨result, t, ht, hfind⟩ := s.find_frame chain name target
      obtain ⟨result', t', ht', hfind'⟩ := s'.find_frame chain name target
      have htold := hR.tell_of_isRemark hpq ht ht'
      rw [hfind, hfind'] at hfound ⊢
      dsimp only at hfound
      cases hfound with
      | error e => exact .pure htold _
      | @ok found found' hfound =>
        obtain ⟨name', bytes', isName', answer'⟩ := found'
        obtain ⟨rfl, hfeed⟩ := hfound
        dsimp only at hfeed ⊢
        split
        · exact .pure htold _
        · next hc =>
          -- The lines are read on behalf of the longer chain, in either session.
          refine hR.opened_agree (fun p q hpq => ?_) htold chain chain found.name
          rw [readFeed_eq_finish, readFeed_eq_finish, h.config]
          exact (readLines_respelled hR (fun name p q hpq => ih found hc hpq name none)
            (fun p => s'.readCatalog_of_canonicalName hn hn' _ none p) hfeed.lines _ hpq).finish
            found.name hfeed.broken

/-- **Calls over respelled catalogs end the same way**, and leave the same. -/
theorem perform (r : Registry) {call : Call}
    (hfile : ∀ path, call = .file path → s'.disk.find path = s.disk.find path) :
    (s.perform r call).SameEnd (s'.perform r call) := by
  have hfeed (event : Event) (name : Text) (feed : Feed) :
      (s.addFeed event name feed r).SameEnd (s'.addFeed event name feed r) := by
    rw [addFeed, addFeed, h.config]
    exact .refl _
  cases call with
  | catalog name target =>
    have htarget : s'.targetOf target = s.targetOf target := by
      unfold targetOf
      rw [h.config]
    rw [Session.perform, Session.perform, addCatalog, addCatalog, h.config, htarget]
    exact .of_agree (outcomeOf_agree compares_sameState
      (h.readCatalog_agree hn hn' compares_sameState (.refl _) [] name _) s.config)
  | text t => exact hfeed _ _ _
  | stream name feed => exact hfeed _ _ _
  | file path =>
    rw [Session.perform, Session.perform, addFile, addFile, hfile path rfl]
    split
    · exact hfeed _ _ _
    all_goals exact .refl _

end Respells
end Session

/-! ### Respelled texts -/

namespace Table

variable {α β γ : Type}

/-- The table with each value changed. -/
def mapValues (f : β → γ) (t : Table α β) : Table α γ :=
  ⟨t.entries.map fun entry => (entry.1, f entry.2)⟩

@[simp] theorem keys_mapValues (f : β → γ) (t : Table α β) : (t.mapValues f).keys = t.keys := by
  simp [mapValues, keys, Function.comp_def]

@[simp] theorem get?_mapValues [DecidableEq α] (f : β → γ) (t : Table α β) (k : α) :
    (t.mapValues f).get? k = (t.get? k).map f := by
  obtain ⟨entries⟩ := t
  unfold mapValues get?
  induction entries with
  | nil => rfl
  | cons entry entries ih =>
    rw [List.map_cons, List.lookup_cons, List.lookup_cons, ih]
    split <;> rfl

end Table

namespace Catalog

theorem isBlank_of_isNameChar {c : CodePoint} (h : isNameChar c = true) :
    Text.isBlank c = false := by
  obtain ⟨-, hlow, hhigh⟩ := bounds_of_isNameChar h
  simp only [Text.isBlank, Bool.or_eq_false_iff, Bool.and_eq_false_iff, decide_eq_false_iff_not]
  omega

/-- The line that includes a catalog. -/
def includeLine (name : Text) : Text := "@includeBundled ".toText ++ name

theorem included?_includeLine {name : Text} (h : isName name = true) :
    included? (includeLine name) = some name := by
  obtain ⟨hnonempty, hchars⟩ := Bool.and_eq_true_iff.1 h
  have hne : name ≠ [] := by simpa using hnonempty
  have hblank (c : CodePoint) (hc : c ∈ name) : Text.isBlank c = false :=
    isBlank_of_isNameChar (List.all_eq_true.1 hchars c hc)
  have hname : Text.trim name = name := Text.trim_of_forall hblank
  have htrim : Text.trim (includeLine name) = includeLine name := by
    refine Text.trim_eq_self (fun c hc => ?_) fun c hc => ?_
    · obtain rfl := Option.some.inj hc
      decide
    · rw [includeLine, List.getLast?_append_of_ne_nil _ hne] at hc
      exact hblank c (List.mem_of_getLast? hc)
  have hcut : Text.cut ' ' (includeLine name) = some ("@includeBundled".toText, name) :=
    Text.cut_eq_some_iff.2 ⟨rfl, by decide⟩
  have hdirective : Directive.parse (includeLine name) = .ok (.includeCatalog name) := by
    rw [Directive.parse, hcut]
    dsimp only [Option.getD_some]
    rw [hname, if_pos ⟨rfl, hne⟩]
  have hparse : Line.parse (includeLine name) none = .ok (.directive (.includeCatalog name)) := by
    change (Directive.parse (includeLine name)).map Line.directive = _
    rw [hdirective]
    rfl
  have hcontent : isContent (includeLine name) = true := by rfl
  rw [included?, htrim, if_pos hcontent, hparse]
/-- A line in which one name takes the place of another one that is included. -/
def respellLine (n n' line : Text) : Text :=
  if included? line = some n then includeLine n' else line

/-- A text in which one name takes the place of another one, in the lines that include it. -/
def respell (n n' t : Text) : Text := Text.join ['\n'] ((lines t).map (respellLine n n'))

/-- The catalogs of a table, respelled. -/
def respellAll (n n' : Text) (catalogs : Table Text Text) : Table Text Text :=
  catalogs.mapValues (respell n n')

variable {n n' t : Text}

theorem respellsLine_respellLine (h : isName n' = true) (line : Text) :
    RespellsLine n n' line (respellLine n n' line) := by
  unfold respellLine
  split
  · next hincluded => exact .inr ⟨hincluded, included?_includeLine h⟩
  · exact .inl rfl

theorem isLine_includeLine (h : isName n' = true) : Feed.IsLine (includeLine n') := by
  have hkeyword : Feed.IsLine "@includeBundled ".toText := by unfold Feed.IsLine; decide
  intro c hc
  rcases List.mem_append.1 hc with hc | hc
  · exact hkeyword c hc
  · obtain ⟨hchar, hlow, -⟩ := bounds_of_isNameChar
      (List.all_eq_true.1 (Bool.and_eq_true_iff.1 h).2 c hc)
    exact ⟨hchar, fun h => absurd (h ▸ hlow) (by decide), fun h => absurd (h ▸ hlow) (by decide)⟩

/-- **A respelled text is read as the respelled lines.** -/
theorem ofBytes_respell (ht : Utf8.isEncodable t = true) (h : isName n' = true) :
    Utf8.isEncodable (respell n n' t) = true ∧ Feed.ofBytes (Utf8.encode (respell n n' t)) =
      ⟨(lines t).map (respellLine n n'), false⟩ := by
  have hlines : ∀ line ∈ (lines t).map (respellLine n n'), Feed.IsLine line := by
    intro line hline
    obtain ⟨line, hmem, rfl⟩ := List.mem_map.1 hline
    unfold respellLine
    split
    · exact isLine_includeLine h
    · exact Feed.isLine_of_mem_split ht hmem
  have hne : (lines t).map (respellLine n n') ≠ [] := by simp [lines]
  obtain ⟨hencodable, hfeed⟩ := Feed.ofBytes_encode_join hlines
  exact ⟨hencodable, by rwa [if_neg hne] at hfeed⟩

end Catalog

namespace Session

/-- **A table of respelled texts serves respelled catalogs.** -/
theorem respells_respellAll (s : Session) {catalogs : Table Text Text} {n n' : Text}
    (hcatalogs : ∀ entry ∈ catalogs.entries, Utf8.isEncodable entry.2 = true)
    (hn' : Catalog.isName n' = true) :
    Respells n n' { s with store := .mapping catalogs }
      { s with store := .mapping (Catalog.respellAll n n' catalogs) } where
  config := rfl
  text := by rw [Store.text, Store.text, Catalog.respellAll, Table.keys_mapValues]
  answers := by
    intro name
    rw [Store.answer, Store.answer, Catalog.respellAll, Table.get?_mapValues]
    cases ht : catalogs.get? name with
    | none => exact .unserved rfl
    | some t =>
      have hencodable : Utf8.isEncodable t = true := hcatalogs _ (Table.mem_entries_of_get? ht)
      obtain ⟨hencodable', hfeed⟩ := Catalog.ofBytes_respell (n := n) hencodable hn'
      rw [Option.map_some, Store.Answer.ofText?, Store.Answer.ofText?, if_pos hencodable,
        if_pos hencodable']
      refine .served ⟨?_, ?_⟩
      · rw [hfeed, Feed.ofBytes_encode hencodable]
        exact List.forall₂_map_right_iff.2
          (List.forall₂_same.2 fun line _ => Catalog.respellsLine_respellLine hn' line)
      · rw [hfeed, Feed.ofBytes_encode hencodable]

/-! ### The spellings of a catalog -/

/-- **It does not matter which name of a catalog is used.** Two names with one canonical form lead
to the same outcome of a call, with the same log, whatever the target version. In the lines of
catalogs the one may take the place of the other: then only what is told about these lines is
different. And a target version may as well stand at the end of a name that is not served: then only
a request that finds nothing is left out. -/
theorem catalog_spellings (s : Session) (r : Registry) :
    (∀ {n n' c}, Catalog.canonicalName n none = .ok c → Catalog.canonicalName n' none = .ok c →
      (∀ target, s.perform r (.catalog n' target) = s.perform r (.catalog n target)) ∧
      ∀ {s'}, s.Respells n n' s' → ∀ {call},
        (∀ path, call = .file path → s'.disk.find path = s.disk.find path) →
        (s.perform r call).SameEnd (s'.perform r call)) ∧
    ∀ {n t}, Catalog.isName n = true → Catalog.isUnversioned n = true → n ≠ nonPortableName →
      s.store.answer s.disk n = .unknown → Catalog.IsDigitRows t → ∀ target,
      (s.perform r (.catalog n (some t))).SameEnd
        (s.perform r (.catalog (n ++ "-".toText ++ t) target)) := by
  refine ⟨fun hn hn' => ⟨fun target => ?_, fun hrespells => ?_⟩, ?_⟩
  · exact s.perform_catalog_congr hn hn' r target
  · exact hrespells.perform hn hn' r
  · intro n t hname hu hne hunknown ht target
    exact s.perform_catalog_target hname hu hne hunknown ht r target

/-- A catalog that includes another one, which has a version. -/
def versionedCatalogs : Table Text Text where
  entries := [("a".toText, "b.B\n@includeBundled jdk-x-8\n".toText),
    ("jdk-x-1.8".toText, "c.C\n".toText)]

/-- The session with these catalogs. -/
def versionedSession : Session where
  config := { failOnUnresolvable := .bool false }
  store := .mapping versionedCatalogs
  disk := ⟨⟨[]⟩, []⟩

/-- The second catalog by three of its names: in calls, in the line that includes it, and without
its version. -/
theorem catalog_spellings_versioned :
    let s := versionedSession
    let s' := { s with
      store := .mapping (Catalog.respellAll "jdk-x-8".toText "jdk-x-8.0".toText versionedCatalogs) }
    let r := Registry.ofClasses .empty
    s.perform r (.catalog "jdk-x-8.0".toText none) = s.perform r (.catalog "jdk-x-8".toText none) ∧
    (s.perform r (.catalog "a".toText none)).SameEnd (s'.perform r (.catalog "a".toText none)) ∧
    (s.perform r (.catalog "jdk-x".toText (some "8".toText))).SameEnd
      (s.perform r (.catalog "jdk-x-8".toText none)) := by
  intro s s' r
  have hrespells : s.Respells "jdk-x-8".toText "jdk-x-8.0".toText s' :=
    respells_respellAll s (by decide) (by decide)
  obtain ⟨hsame, hunversioned⟩ := catalog_spellings s r
  have hcanonical : Catalog.canonicalName "jdk-x-8".toText none = .ok "jdk-x-1.8".toText := by
    decide
  have hcanonical' : Catalog.canonicalName "jdk-x-8.0".toText none = .ok "jdk-x-1.8".toText := by
    decide
  obtain ⟨hcalls, hlines⟩ := hsame hcanonical hcanonical'
  exact ⟨hcalls none, hlines hrespells nofun,
    hunversioned (by decide) (by decide) (by decide) (by decide) (by decide) none⟩

end Session
end Embargo
