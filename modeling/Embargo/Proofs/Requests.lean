import Embargo.Proofs.CanonicalNames
import Embargo.Proofs.InProgress

/-!
# What a store is asked for

Names of catalogs come from callers, from the lines of catalogs and from target versions that nobody
has checked. Whatever they are, a store is asked for canonical names only, on behalf of catalogs
with canonical names, and so the file of a catalog that is looked for in a directory lies in it.

* `Event.catalogs` – the catalogs that an event names to a store, or puts in progress.
* `Progress.IsCanonical` – the invariant: everything that happened names canonical catalogs. Each
  reader keeps it: `Session.find_isCanonical` is the load-bearing step, and
  `Session.readCatalog_isCanonical` carries it over to nested catalogs.
* `Run.requests_isSafe` – the main statement, for runs of any steps.
-/

namespace Embargo

/-! ### Safe names -/

/-- **A name that is safe to look for**: it is made of letters and digits of ASCII, hyphens and
dots, nothing brings it to another form, and its file stands directly in the directory where it is
looked for. -/
structure Catalog.IsSafe (name : Text) : Prop where
  /-- It has a character. -/
  ne_nil : name ≠ []
  /-- It has no other characters. -/
  chars : ∀ c ∈ name, c.isAlphanum = true ∨ c = '-' ∨ c = '.'
  /-- It is its own canonical name. -/
  canonical : Catalog.IsCanonical name
  /-- It is no path. -/
  slash : CodePoint.char '/' ∉ name
  /-- Its file is one part below the root of a directory, and does not lead out of it. -/
  file : ∀ root, Store.file root name = ⟨root.anchor, root.parts ++ [name ++ Store.fileSuffix]⟩ ∧
    name ++ Store.fileSuffix ≠ ".".toText ∧ name ++ Store.fileSuffix ≠ "..".toText

theorem Catalog.IsCanonical.isSafe {name : Text} (h : Catalog.IsCanonical name) :
    Catalog.IsSafe name := by
  have hslash := Catalog.slash_notMem_of_isName h.isName
  obtain ⟨hne, hchars⟩ := Bool.and_eq_true_iff.1 h.isName
  refine ⟨by simpa using hne, fun c hc => ?_, h, hslash, fun root => ⟨Store.file_eq root hslash,
    Store.ne_of_length_append (by decide), Store.ne_of_length_append (by decide)⟩⟩
  simpa [Catalog.isNameChar, or_assoc] using List.all_eq_true.1 hchars c hc

/-! ### Events -/

/-- The catalogs that an event names to a store, or puts in progress. -/
def Event.catalogs : Event → List Text
  | .requested name chain => name :: chain
  | .opened name => [name]
  | _ => []

theorem Event.IsAside.catalogs {e : Event} (h : ∀ chain, e.IsAside chain) : e.catalogs = [] := by
  cases e with
  | requested name chain =>
    -- A request is made for one chain, and this one is made for any.
    have hnil : chain = [] := h []
    have hone : chain = [[]] := h [[]]
    cases hnil.symm.trans hone
  | opened name => exact (h []).elim
  | _ => rfl

theorem Event.catalogs_of_isSummary {e : Event} (h : e.isSummary = true) : e.catalogs = [] := by
  cases e with
  | missingClasses => rfl
  | summary line => rfl
  | _ => cases h

/-- Every event of a trace names canonical catalogs. -/
def NamesCanonical (t : Trace) : Prop := ∀ e ∈ t, ∀ name ∈ e.catalogs, Catalog.IsCanonical name

namespace NamesCanonical

variable {t t' : Trace}

theorem nil : NamesCanonical [] := fun _ he => absurd he List.not_mem_nil

theorem append (h : NamesCanonical t) (h' : NamesCanonical t') : NamesCanonical (t ++ t') :=
  fun e he => (List.mem_append.1 he).elim (h e) (h' e)

/-- Events that name no catalog. -/
theorem of_catalogs_eq_nil (h : ∀ e ∈ t, e.catalogs = []) : NamesCanonical t :=
  fun e he _ hname => absurd (h e he ▸ hname) List.not_mem_nil

/-- A catalog in progress was opened. -/
theorem inProgress (h : NamesCanonical t) {name : Text} (hname : name ∈ inProgress t) :
    Catalog.IsCanonical name := by
  induction t using List.reverseRecOn with
  | nil => exact absurd hname List.not_mem_nil
  | append_singleton t e ih =>
    have hbefore (hmem : name ∈ Embargo.inProgress t) : Catalog.IsCanonical name :=
      ih (fun e' he' => h e' (List.mem_append_left _ he')) hmem
    rw [Embargo.inProgress, List.foldl_append, ← Embargo.inProgress] at hname
    cases e with
    | opened opened =>
      rcases List.mem_append.1 hname with hname | hname
      · exact hbefore hname
      · exact h (.opened opened) (by simp) name hname
    | closed closed => exact hbefore (List.dropLast_subset _ hname)
    | _ => exact hbefore hname

end NamesCanonical

/-! ### Readers -/

/-- **Everything that happened names canonical catalogs.** -/
def Progress.IsCanonical (p : Progress) : Prop := NamesCanonical p.trace

theorem Progress.IsCanonical.note {p : Progress} (h : p.IsCanonical) {t : Trace}
    (ht : NamesCanonical t) : (p.note t).IsCanonical :=
  h.append ht

/-- Lines name no catalog, apart from what they include. -/
theorem linesRespect_isCanonical : LinesRespect fun p q => p.IsCanonical → q.IsCanonical where
  refl := id
  trans := fun hpq hqr hp => hqr (hpq hp)
  record := by
    intro policy r p hp
    obtain ⟨t, ht, hasides⟩ := readRecord_asides policy r p
    rw [Progress.IsCanonical, ht]
    refine NamesCanonical.append hp (.of_catalogs_eq_nil fun e he => ?_)
    rcases List.mem_cons.1 he with rfl | he
    · rfl
    · exact Event.IsAside.catalogs fun chain => hasides chain e he
  directive := fun line p hp => hp.note (.of_catalogs_eq_nil (by simp [Event.catalogs]))

namespace Session

variable (s : Session) {chain : List Text} (hchain : ∀ name ∈ chain, Catalog.IsCanonical name)

theorem namesCanonical_announce (chain : List Text) (name : Text) :
    NamesCanonical (announce chain name) := by
  refine .of_catalogs_eq_nil fun e he => ?_
  unfold announce at he
  split at he
  · obtain rfl := List.mem_singleton.1 he
    rfl
  · cases he

include hchain

theorem ask_isCanonical {name : Text} (hname : Catalog.IsCanonical name)
    (hn : Catalog.isName name = true) {p : Progress} (hp : p.IsCanonical) :
    (s.ask chain name hn p).2.IsCanonical := by
  have hrequest : NamesCanonical [.requested name chain] := by
    intro e he asked hasked
    obtain rfl := List.mem_singleton.1 he
    rcases List.mem_cons.1 hasked with rfl | hmem
    · exact hname
    · exact hchain asked hmem
  unfold ask
  split
  · next bytes servers _ =>
    have hserved : NamesCanonical (servers.map (.served name)) := .of_catalogs_eq_nil fun e he => by
      obtain ⟨server, -, rfl⟩ := List.mem_map.1 he
      rfl
    exact hp.note (hrequest.append hserved)
  all_goals exact hp.note hrequest

theorem askCanonical_isCanonical (name : Text) (target : Option Text) {p : Progress}
    (hp : p.IsCanonical) : (s.askCanonical chain name target p).2.IsCanonical := by
  unfold askCanonical
  split
  · exact hp
  · next canonical hc =>
    have hask := s.ask_isCanonical hchain (Catalog.isCanonical_of_canonicalName hc)
      (Catalog.isName_of_canonicalName hc) hp
    split
    all_goals next hres => exact congrArg Prod.snd hres ▸ hask

/-- **A name is brought to its canonical form before a store is asked**, also when the target's
version is added. -/
theorem find_isCanonical (name : Text) (target : Option Text) {p : Progress}
    (hp : p.IsCanonical) : (s.find chain name target p).2.IsCanonical := by
  have hfirst := s.askCanonical_isCanonical hchain name none hp
  unfold find
  split
  · next hres => exact congrArg Prod.snd hres ▸ hfirst
  · next hres => exact congrArg Prod.snd hres ▸ hfirst
  · next canonical q hres =>
    obtain rfl : _ = q := congrArg Prod.snd hres
    have hsecond := s.askCanonical_isCanonical hchain name target hfirst
    split
    · split
      all_goals next hres' => exact congrArg Prod.snd hres' ▸ hsecond
    · exact hfirst

omit hchain in
/-- What is found has a canonical name. -/
theorem isCanonical_of_find {name : Text} {target : Option Text} {found : s.Found}
    {p q : Progress} (h : s.find chain name target p = (.ok found, q)) :
    Catalog.IsCanonical found.name := by
  obtain ⟨-, hc | ⟨bare, -, -, -, hc⟩⟩ := refersTo_of_find h
  all_goals exact Catalog.isCanonical_of_canonicalName hc

/-- **Reading a catalog names canonical catalogs only**, at any depth. -/
theorem readCatalog_isCanonical (name : Text) (target : Option Text) {p : Progress}
    (hp : p.IsCanonical) : (s.readCatalog chain name target p).2.IsCanonical := by
  induction chain using s.chain_induction generalizing name target p with | longer chain ih
  rw [readCatalog]
  generalize hres : s.readCatalogWith chain _ name target p = res
  have hreading := hres ▸ s.readCatalogWith_reading chain _ name target p
  have hfind := s.find_isCanonical hchain name target hp
  cases hreading with
  | illNamed h => exact hp
  | nonPortable h =>
    exact hp.note ((namesCanonical_announce chain nonPortableName).append
      (.of_catalogs_eq_nil (by simp [Event.catalogs])))
  | notFound h ht hasked => rwa [hasked p] at hfind
  | recursive h ht hasked hc => rwa [hasked p] at hfind
  | @opened found t result q h ht hasked hc hfeed =>
    -- The catalogs that this one includes are read for the chain with its canonical name.
    have hfound : Catalog.IsCanonical found.name := s.isCanonical_of_find (hasked p)
    have hlonger : ∀ name ∈ chain ++ [found.name], Catalog.IsCanonical name := fun name hname =>
      (List.mem_append.1 hname).elim (hchain name) fun hname => List.mem_singleton.1 hname ▸ hfound
    have hopened : NamesCanonical [.opened found.name] := by
      intro e he name hname
      obtain rfl := List.mem_singleton.1 he
      exact List.mem_singleton.1 hname ▸ hfound
    rw [hasked p] at hfind
    have hannounced : (p.note (t ++ announce chain found.name)).IsCanonical := by
      rw [← Progress.note_note]
      exact hfind.note (namesCanonical_announce chain found.name)
    have hlines : q.IsCanonical := by
      rw [show q = _ from (congrArg Prod.snd hfeed).symm, readFeed_progress]
      exact linesRespect_isCanonical.readLines
        (fun name p hp => ih found hc hlonger name none hp) _ _ _ (hannounced.note hopened)
    exact hlines.note (.of_catalogs_eq_nil (by simp [Event.catalogs]))

omit hchain

/-! ### Calls -/

theorem outcomeOf_namesCanonical (c : Config) {res : Reading Unit} (h : res.2.IsCanonical) :
    NamesCanonical (c.outcomeOf res).trace := by
  obtain ⟨t, ht, heq⟩ := c.outcomeOf_progress res
  have hnoted : (res.2.note t).IsCanonical :=
    h.note (.of_catalogs_eq_nil fun e he => Event.catalogs_of_isSummary (ht e he))
  rw [← heq] at hnoted
  exact hnoted

theorem addFeed_namesCanonical {event : Event} (hevent : event.catalogs = []) (name : Text)
    (feed : Feed) (r : Registry) : NamesCanonical (s.addFeed event name feed r).trace := by
  have hstart : (r.start.note [event]).IsCanonical :=
    NamesCanonical.append .nil (.of_catalogs_eq_nil (by simpa using hevent))
  refine outcomeOf_namesCanonical s.config ?_
  rw [readFeed_progress]
  exact linesRespect_isCanonical.readLines (fun _ _ hp => hp) _ _ _ hstart

/-- A call names canonical catalogs only. -/
theorem perform_namesCanonical (r : Registry) (call : Call) :
    NamesCanonical (s.perform r call).trace := by
  cases call with
  | catalog name target =>
    exact outcomeOf_namesCanonical s.config
      (s.readCatalog_isCanonical (fun _ h => absurd h List.not_mem_nil) name _ NamesCanonical.nil)
  | text t => exact s.addFeed_namesCanonical rfl _ _ r
  | stream name feed => exact s.addFeed_namesCanonical rfl _ _ r
  | file path =>
    rw [perform, addFile]
    split
    · exact s.addFeed_namesCanonical rfl _ _ r
    all_goals exact .nil

end Session

/-! ### Runs -/

namespace Run

theorem namesCanonical_ofSteps (steps : List Step) : NamesCanonical (ofSteps steps).trace := by
  induction steps using List.reverseRecOn with
  | nil => exact .nil
  | append_singleton steps st ih =>
    rw [ofSteps_append_singleton]
    cases st with
    | populate s call => exact ih.append (s.perform_namesCanonical _ call)
    | provide op => exact ih

/-- **Stores are asked for safe names only.** In a run of any calls, failed or not, over any stores
and with any target versions, every name that a store is asked for is safe, and so are the names of
the catalogs on behalf of which it is asked, and of those that are in progress at any moment. -/
theorem requests_isSafe (steps : List Step) :
    let run := ofSteps steps
    (∀ name chain, .requested name chain ∈ run.trace →
      Catalog.IsSafe name ∧ ∀ name' ∈ chain, Catalog.IsSafe name') ∧
    ∀ t, t <+: run.trace → ∀ name ∈ inProgress t, Catalog.IsSafe name := by
  intro run
  have hrun := namesCanonical_ofSteps steps
  refine ⟨fun name chain he => ?_, fun t ht name hname => ?_⟩
  · have hnames := hrun _ he
    exact ⟨(hnames name List.mem_cons_self).isSafe,
      fun name' hname' => (hnames name' (List.mem_cons_of_mem _ hname')).isSafe⟩
  · have hbefore : NamesCanonical t := fun e he => hrun e (ht.subset he)
    exact (hbefore.inProgress hname).isSafe

end Run
end Embargo
