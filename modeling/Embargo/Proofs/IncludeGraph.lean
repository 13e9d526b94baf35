import Embargo.Proofs.Finding
import Embargo.Proofs.Lines
import Embargo.Proofs.Run
import Embargo.Proofs.Utf8
import Mathlib.Data.List.Chain
import Mathlib.Data.List.Nodup

/-!
# The graph of inclusions

The catalogs of a table include one another. Taken between canonical names, inclusion is a graph
(`Catalog.Includes`), and reading a catalog follows its edges depth first, without remembering what
was read before. Where nothing else can go wrong (`Session.Closed`: every line can be read, every
inclusion leads to a catalog that is served, and records that cannot be resolved are let pass)
reading fails exactly if a cycle can be reached.

* `Session.Expansion` – what reading a catalog comes to then, with one constructor for each way.
* `Session.Closed.acc` – from a catalog that is read without failure no endless path leaves. So no
  cycle is missed, however the names are spelled on it.
* `Session.Closed.trail` – a failure names a path of the graph that comes back to itself. So a
  catalog that is included twice, over different catalogs, is not taken for a cycle.
* `Session.Closed.recursion_exact` – the two together.
-/

namespace Embargo

open Relation

/-! ### Inclusions of a text -/

namespace Catalog

/-- The lines of the text of a catalog. -/
def lines (t : Text) : List Text := Text.split '\n' (Feed.unifyLineEnds t)

/-- The line is no content, or it can be read. -/
def IsReadable (line : Text) : Prop :=
  isContent (Text.trim line) = true → (Line.parse (Text.trim line) none).isOk = true

instance (line : Text) : Decidable (IsReadable line) := inferInstanceAs (Decidable (_ → _))

/-- **The graph of inclusions**, between canonical names: one catalog includes the other. The name
of the internal classes of the runtime stands for no text, and has no edge. -/
def Includes (catalogs : Table Text Text) (a b : Text) : Prop :=
  a ≠ Session.nonPortableName ∧ ∃ t, catalogs.get? a = some t ∧
    ∃ name ∈ inclusions (lines t), canonicalName name none = .ok b

/-- Only the name itself stands for the internal classes of the runtime. -/
theorem ne_nonPortableName {name b : Text} (hn : name ≠ Session.nonPortableName)
    (hb : canonicalName name none = .ok b) : b ≠ Session.nonPortableName := by
  rintro rfl
  have hlast : Session.nonPortableName.getLast? = some 'e' := by decide
  exact hn (eq_of_canonicalForm (canonicalForm_of_canonicalName hb) hlast (by decide) (by decide)
    (by decide)).symm

end Catalog

open Catalog

/-! ### Lines that can be read -/

section Lines

variable (expand : Text → Progress → Reading Unit)

/-- A line that can be read stops a lenient reader only if it includes a catalog that does. -/
theorem readLine_of_isReadable {line : Text} (hline : IsReadable line) {scope : Scope}
    (hpolicy : scope.policy ≠ .fail) (p : Progress) :
    (∃ scope' : Scope, (readLine .catalog expand line scope p).1 = .ok scope' ∧
      scope'.policy ≠ .fail ∧
      ∀ name, included? line = some name → ∃ q, (expand name q).1 = .ok ()) ∨
    ∃ e name q, (readLine .catalog expand line scope p).1 = .error e ∧
      included? line = some name ∧ (expand name q).1 = .error e := by
  generalize hres : readLine .catalog expand line scope p = res
  have hreading := hres ▸ readLine_reading .catalog expand line scope p
  cases hreading with
  | skipped hc => exact Or.inl ⟨scope, rfl, hpolicy, by simp [included?, hc]⟩
  | malformed hc hl =>
    have hok := hline hc
    -- The line can be read without a default message, so it can be with this one.
    rw [← Line.isOk_parse _ none scope.message, hl] at hok
    cases hok
  | record hc hl hr =>
    obtain ⟨r', hr'⟩ := Line.parse_eq_record hl none
    exact Or.inl ⟨scope, rfl, hpolicy, by simp [included?, hc, hr']⟩
  | @recordFailed r e q hc hl hr =>
    have hok := readRecord_eq_ok scope.policy r p hpolicy
    rw [hr] at hok
    cases hok
  | includeRefused hc hl ho => cases ho
  | included hc hl ho hx =>
    refine Or.inl ⟨scope, rfl, hpolicy, fun name hname => ?_⟩
    rw [included?_of_parse hc hl] at hname
    obtain rfl := Option.some.inj hname
    exact ⟨_, congrArg Prod.fst hx⟩
  | includeFailed hc hl ho hx =>
    exact Or.inr ⟨_, _, _, rfl, included?_of_parse hc hl, congrArg Prod.fst hx⟩
  | message hc hl => exact Or.inl ⟨_, rfl, hpolicy, by simp [included?_of_parse hc hl]⟩
  | lenient hc hl =>
    have hlenient : Origin.catalog.lenientPolicy ≠ .fail := by decide
    exact Or.inl ⟨_, rfl, hlenient, by simp [included?_of_parse hc hl]⟩

/-- Lines that can be read stop a lenient reader exactly if they include a catalog that does. -/
theorem readLines_of_isReadable {lines : List Text} (hlines : ∀ line ∈ lines, IsReadable line)
    {scope : Scope} (hpolicy : scope.policy ≠ .fail) (p : Progress) :
    (∃ scope', (readLines .catalog expand lines scope p).1 = .ok scope' ∧
      ∀ name ∈ inclusions lines, ∃ q, (expand name q).1 = .ok ()) ∨
    ∃ e, (readLines .catalog expand lines scope p).1 = .error e ∧
      ∃ name ∈ inclusions lines, ∃ q, (expand name q).1 = .error e := by
  induction lines generalizing scope p with
  | nil => exact Or.inl ⟨scope, rfl, by simp [inclusions]⟩
  | cons line lines ih =>
    obtain ⟨hline, hlines⟩ := List.forall_mem_cons.1 hlines
    rw [readLines_cons]
    generalize hres : readLine .catalog expand line scope p = res
    obtain ⟨result, q⟩ := res
    rcases readLine_of_isReadable expand hline hpolicy p with
      ⟨scope', hok, hpolicy', hincluded⟩ | ⟨e, name, q', herror, hname, hx⟩
    · rw [hres] at hok
      obtain rfl : result = .ok scope' := hok
      rcases ih hlines hpolicy' q with ⟨scope'', hok', hall⟩ | ⟨e, herror, name, hmem, q', hx⟩
      · refine Or.inl ⟨scope'', hok', fun name hname => ?_⟩
        obtain ⟨line', hline', hname'⟩ := List.mem_filterMap.1 hname
        rcases List.mem_cons.1 hline' with rfl | hline'
        · exact hincluded name hname'
        · exact hall name (List.mem_filterMap.2 ⟨line', hline', hname'⟩)
      · refine Or.inr ⟨e, herror, name, ?_, q', hx⟩
        obtain ⟨line', hline', hname'⟩ := List.mem_filterMap.1 hmem
        exact List.mem_filterMap.2 ⟨line', List.mem_cons_of_mem _ hline', hname'⟩
    · rw [hres] at herror
      obtain rfl : result = .error e := herror
      exact Or.inr ⟨e, rfl, name, List.mem_filterMap.2 ⟨line, List.mem_cons_self, hname⟩, q', hx⟩

end Lines

namespace Session

variable {s : Session} {catalogs : Table Text Text}

/-- The catalog that a name leads to, without a target, is served. -/
def LeadsToServed (s : Session) (name : Text) : Prop :=
  (canonicalName name none).toOption.any s.serves = true

instance (s : Session) (name : Text) : Decidable (s.LeadsToServed name) :=
  inferInstanceAs (Decidable (_ = _))

/-- **Nothing but recursion can go wrong**: the catalogs are those of a table, records that cannot
be resolved are let pass, every line of a catalog can be read, and every inclusion leads to a
catalog that is served, or stands for the internal classes of the runtime. -/
structure Closed (s : Session) (catalogs : Table Text Text) : Prop where
  /-- The store is the table. -/
  store : s.store = .mapping catalogs
  /-- Records that cannot be resolved are let pass. -/
  lenient : s.config.failOnUnresolvable.isTrue = false
  /-- Every line can be read. -/
  readable : ∀ c ∈ catalogs.entries, ∀ line ∈ lines c.2, IsReadable line
  /-- Every inclusion leads to a catalog that is served. -/
  served : ∀ c ∈ catalogs.entries, ∀ name ∈ inclusions (lines c.2),
    name = nonPortableName ∨ s.LeadsToServed name

theorem LeadsToServed.exists_canonicalName {name : Text} (h : s.LeadsToServed name) :
    ∃ b, canonicalName name none = .ok b ∧ s.serves b = true := by
  unfold LeadsToServed at h
  cases hb : canonicalName name none with
  | error e =>
    rw [hb] at h
    cases h
  | ok b =>
    rw [hb] at h
    exact ⟨b, rfl, h⟩

/-- The catalog that a name leads to is found, whatever the progress. -/
theorem LeadsToServed.find {name : Text} (h : s.LeadsToServed name) (chain : List Text)
    (target : Option Text) {result : Except LoadError s.Found} {t : Trace}
    (hfind : ∀ p, s.find chain name target p = (result, p.note t)) :
    ∃ found : s.Found, result = .ok found ∧ canonicalName name none = .ok found.name := by
  obtain ⟨b, hb, hserves⟩ := h.exists_canonicalName
  obtain ⟨found, rfl, t', -, hfind'⟩ := s.find_of_serves chain target hb hserves
  have heq := (hfind ⟨.empty, .empty, [], []⟩).symm.trans (hfind' ⟨.empty, .empty, [], []⟩)
  exact ⟨found, congrArg Prod.fst heq, hb⟩

theorem LeadsToServed.isName {name : Text} (h : s.LeadsToServed name) :
    Catalog.checkName name = .ok name := by
  obtain ⟨b, hb, -⟩ := h.exists_canonicalName
  exact checkName_of_canonicalName hb

/-! ### What reading a catalog comes to -/

/-- **What reading a catalog can come to if nothing but recursion can go wrong**, with one
constructor for each way. -/
inductive Expansion (s : Session) (catalogs : Table Text Text) (chain : List Text) (name : Text) :
    Except LoadError Unit → Prop
  /-- The name stands for the internal classes of the runtime. -/
  | nonPortable (h : name = nonPortableName) : Expansion s catalogs chain name (.ok ())
  /-- The catalog is in progress. -/
  | recursive {b : Text} (h : name ≠ nonPortableName) (hb : canonicalName name none = .ok b)
      (hc : b ∈ chain) : Expansion s catalogs chain name (.error (.recursion (chain ++ [b])))
  /-- The catalog is read, and so is every catalog that it includes. -/
  | completed {found : s.Found} {t : Text} (h : name ≠ nonPortableName)
      (hb : canonicalName name none = .ok found.name) (hc : found.name ∉ chain)
      (ht : catalogs.get? found.name = some t)
      (hall : ∀ name' ∈ inclusions (lines t),
        ∃ q, (s.readCatalog (chain ++ [found.name]) name' none q).1 = .ok ()) :
      Expansion s catalogs chain name (.ok ())
  /-- The catalog includes one that cannot be read. -/
  | failed {found : s.Found} {t name' : Text} {q : Progress} {e : LoadError}
      (h : name ≠ nonPortableName) (hb : canonicalName name none = .ok found.name)
      (hc : found.name ∉ chain) (ht : catalogs.get? found.name = some t)
      (hmem : name' ∈ inclusions (lines t))
      (hq : (s.readCatalog (chain ++ [found.name]) name' none q).1 = .error e) :
      Expansion s catalogs chain name (.error (e.within found.name))

namespace Closed

variable (hs : s.Closed catalogs)

include hs

/-- A catalog that is served is the encoding of its text. -/
theorem text_of_found (found : s.Found) : ∃ t, catalogs.get? found.name = some t ∧
    (found.name, t) ∈ catalogs.entries ∧ Feed.ofBytes found.bytes = ⟨lines t, false⟩ := by
  obtain ⟨servers, ha⟩ := found.answer
  rw [hs.store, Store.answer] at ha
  unfold Store.Answer.ofText? at ha
  split at ha
  · next t ht =>
    split at ha
    · next he =>
      obtain ⟨hbytes, -⟩ := Store.Answer.served.inj ha
      refine ⟨t, ht, Table.mem_entries_of_get? ht, ?_⟩
      rw [← hbytes]
      exact Feed.ofBytes_encode he
    · cases ha
  · cases ha

theorem firstScope_policy : s.config.firstScope.policy ≠ .fail := by
  rw [Config.firstScope, Config.firstPolicy, hs.lenient]
  nofun

theorem expansion (chain : List Text) {name : Text}
    (hn : name = nonPortableName ∨ s.LeadsToServed name) (target : Option Text) (p : Progress) :
    s.Expansion catalogs chain name (s.readCatalog chain name target p).1 := by
  rw [readCatalog]
  generalize hres : s.readCatalogWith chain _ name target p = res
  have hreading := hres ▸ s.readCatalogWith_reading chain _ name target p
  cases hreading with
  | illNamed h =>
    rcases hn with rfl | hn
    · cases h
    · rw [hn.isName] at h
      cases h
  | nonPortable h => exact .nonPortable h
  | notFound h ht hfind =>
    obtain ⟨found, hfound, -⟩ := (hn.resolve_left h).find chain target hfind
    cases hfound
  | recursive h ht hfind hc =>
    obtain ⟨found, hfound, hb⟩ := (hn.resolve_left h).find chain target hfind
    obtain rfl := Except.ok.inj hfound
    exact .recursive h hb hc
  | @opened found t result q h ht hfind hc hfeed =>
    obtain ⟨found', hfound, hb⟩ := (hn.resolve_left h).find chain target hfind
    obtain rfl := Except.ok.inj hfound
    obtain ⟨text, htext, hmem, hbytes⟩ := hs.text_of_found found
    have hresult := congrArg Prod.fst hfeed
    rw [readFeed_result, hbytes] at hresult
    rcases readLines_of_isReadable
        (fun name p => s.readCatalog (chain ++ [found.name]) name none p)
        (hs.readable _ hmem) hs.firstScope_policy
        ((p.note (t ++ announce chain found.name)).note [.opened found.name]) with
      ⟨scope', hok, hall⟩ | ⟨e, herror, name', hmem', q', hq'⟩
    · rw [hok] at hresult
      obtain rfl : .ok () = result := hresult
      exact .completed h hb hc htext hall
    · rw [herror] at hresult
      obtain rfl : .error (e.within found.name) = result := hresult
      exact .failed h hb hc htext hmem' hq'

/-- The names that a catalog includes lead on. -/
theorem served_of_mem {b t name : Text} (ht : catalogs.get? b = some t)
    (hmem : name ∈ inclusions (lines t)) : name = nonPortableName ∨ s.LeadsToServed name :=
  hs.served _ (Table.mem_entries_of_get? ht) name hmem

/-! ### Success -/

/-- **From a catalog that is read without failure no endless path leaves.** -/
theorem acc (chain : List Text) {name : Text} (hn : name = nonPortableName ∨ s.LeadsToServed name)
    {target : Option Text} {p : Progress} (hok : (s.readCatalog chain name target p).1 = .ok ())
    {b : Text} (hb : canonicalName name none = .ok b) : Acc (flip (Includes catalogs)) b := by
  induction chain using s.chain_induction generalizing name target p b with | longer chain ih
  have hexpansion := hs.expansion chain hn target p
  rw [hok] at hexpansion
  cases hexpansion with
  | nonPortable h =>
    obtain rfl := h
    obtain rfl := Except.ok.inj hb
    exact Acc.intro _ fun b' hedge => absurd rfl hedge.1
  | @completed found t h hb' hc ht hall =>
    obtain rfl := Except.ok.inj (hb'.symm.trans hb)
    -- Every edge comes from a name in the text, and every such name was read without failure.
    refine Acc.intro _ fun b'' hedge => ?_
    obtain ⟨-, t', ht', name', hname', hb''⟩ := hedge
    obtain rfl := Option.some.inj (ht'.symm.trans ht)
    obtain ⟨q, hq⟩ := hall name' hname'
    exact ih found hc (hs.served_of_mem ht hname') hq hb''

/-! ### Failure -/

/-- **A failure names a path that comes back to itself**: it goes on from the catalogs in progress
and the catalog that was to be read, over catalogs that are all different, to one of these. -/
theorem trail (chain : List Text) {name : Text} (hn : name = nonPortableName ∨ s.LeadsToServed name)
    {target : Option Text} {p : Progress} {e : LoadError}
    (he : (s.readCatalog chain name target p).1 = .error e) {b : Text}
    (hb : canonicalName name none = .ok b) (hnodup : chain.Nodup)
    (hchain : (chain ++ [b]).IsChain (Includes catalogs)) :
    ∃ path last, e = .recursion (path ++ [last]) ∧ path.head? = (chain ++ [b]).head? ∧
      (path ++ [last]).IsChain (Includes catalogs) ∧ path.Nodup ∧ last ∈ path := by
  induction chain using s.chain_induction generalizing name target p e b with | longer chain ih
  have hexpansion := hs.expansion chain hn target p
  rw [he] at hexpansion
  cases hexpansion with
  | @recursive b' h hb' hc =>
    obtain rfl := Except.ok.inj (hb'.symm.trans hb)
    -- The chain is the path, and the catalog in it the end.
    refine ⟨chain, b', rfl, ?_, hchain, hnodup, hc⟩
    cases chain with
    | nil => cases hc
    | cons c chain => rfl
  | @failed found t name' q e' h hb' hc ht hmem hq =>
    obtain rfl := Except.ok.inj (hb'.symm.trans hb)
    -- The failure comes from a catalog that is included: the path grows by its edge.
    have hn' := hs.served_of_mem ht hmem
    obtain ⟨b'', hb''⟩ : ∃ b'', canonicalName name' none = .ok b'' := by
      rcases hn' with rfl | hn'
      · exact ⟨nonPortableName, by decide⟩
      · obtain ⟨b'', hb'', -⟩ := hn'.exists_canonicalName
        exact ⟨b'', hb''⟩
    have hedge : Includes catalogs found.name b'' :=
      ⟨ne_nonPortableName h hb, t, ht, name', hmem, hb''⟩
    have hnodup' : (chain ++ [found.name]).Nodup := by
      rw [← List.concat_eq_append]
      exact List.Nodup.concat hc hnodup
    have hchain' : (chain ++ [found.name] ++ [b'']).IsChain (Includes catalogs) := by
      refine hchain.append (List.isChain_singleton b'') fun x hx y hy => ?_
      rw [List.getLast?_concat] at hx
      obtain rfl := Option.some.inj hx
      obtain rfl := Option.some.inj hy
      exact hedge
    obtain ⟨path, last, rfl, hhead, hpath⟩ :=
      ih found hc hn' hq hb'' hnodup' hchain'
    refine ⟨path, last, rfl, hhead.trans ?_, hpath⟩
    cases chain <;> rfl

end Closed

/-- A path that comes back to itself has reached a cycle. -/
theorem exists_cycle_of_isChain {R : Text → Text → Prop} {path : List Text} {r last : Text}
    (hhead : path.head? = some r) (hchain : (path ++ [last]).IsChain R) (hmem : last ∈ path) :
    ∃ c, ReflTransGen R r c ∧ TransGen R c c := by
  obtain ⟨front, back, rfl⟩ := List.append_of_mem hmem
  refine ⟨last, ?_, ?_⟩
  · have hfront : (front ++ [last]).IsChain R := by
      have hsplit : front ++ last :: back ++ [last] = (front ++ [last]) ++ (back ++ [last]) := by
        simp
      rw [hsplit] at hchain
      exact hchain.left_of_append
    cases front with
    | nil =>
      obtain rfl := Option.some.inj hhead
      exact .refl
    | cons r' front =>
      obtain rfl := Option.some.inj hhead
      exact List.relationReflTransGen_of_exists_isChain_cons _ hfront (by simp)
  · rw [List.append_assoc] at hchain
    have hback : (last :: (back ++ [last])).IsChain R := hchain.right_of_append
    cases back with
    | nil => exact .single (List.isChain_cons_cons.1 hback).1
    | cons b back =>
      obtain ⟨hedge, hrest⟩ := List.isChain_cons_cons.1 hback
      exact .head' hedge (List.relationReflTransGen_of_exists_isChain_cons _ hrest (by simp))

/-- Where no endless path leaves, there is no cycle. -/
theorem not_transGen_of_acc {R : Text → Text → Prop} {c : Text} (h : Acc (flip R) c) :
    ¬TransGen R c c := by
  induction h with
  | intro c _ ih =>
    intro hcycle
    obtain ⟨b, hedge, hrest⟩ := TransGen.head'_iff.1 hcycle
    exact ih b hedge (.tail' hrest hedge)

/-- Where no endless path leaves, none leaves anywhere on the way. -/
theorem acc_of_reflTransGen {R : Text → Text → Prop} {r c : Text} (h : Acc (flip R) r)
    (hreach : ReflTransGen R r c) : Acc (flip R) c := by
  induction hreach with
  | refl => exact h
  | tail _ hedge ih => exact ih.inv hedge

/-- **Recursion is reported exactly if there is one.** Where nothing else can go wrong, reading a
catalog by its canonical name fails if and only if a cycle of inclusions can be reached from it; and
then the report spells out a path of inclusions from that catalog, over catalogs that are all
different, back to one of them. -/
theorem Closed.recursion_exact (hs : s.Closed catalogs) {r : Text} (hr : s.serves r = true)
    (hcanonical : canonicalName r none = .ok r) (target : Option Text) (registry : Registry) :
    let failure := (s.perform registry (.catalog r target)).failure
    (failure.isSome ↔
      ∃ c, ReflTransGen (Includes catalogs) r c ∧ TransGen (Includes catalogs) c c) ∧
    ∀ e, failure = some e → ∃ path last, e = .recursion (path ++ [last]) ∧
      e.problem = .failure (.parse ("Recursive bundled signature inclusion: ".toText ++
        Text.join " -> ".toText (path ++ [last])) none) ∧
      path.head? = some r ∧ (path ++ [last]).IsChain (Includes catalogs) ∧ path.Nodup ∧
      last ∈ path := by
  intro failure
  have hn : r = nonPortableName ∨ s.LeadsToServed r := by
    right
    rw [LeadsToServed, hcanonical]
    exact hr
  have htrail : ∀ e, failure = some e → ∃ path last, e = .recursion (path ++ [last]) ∧
      path.head? = some r ∧ (path ++ [last]).IsChain (Includes catalogs) ∧ path.Nodup ∧
      last ∈ path := fun e he =>
    hs.trail [] hn (Config.failure_outcomeOf_eq_some.1 he) hcanonical List.nodup_nil
      (List.isChain_singleton r)
  refine ⟨⟨fun h => ?_, ?_⟩, fun e he => ?_⟩
  · obtain ⟨e, he⟩ := Option.isSome_iff_exists.1 h
    obtain ⟨path, last, -, hhead, hchain, -, hmem⟩ := htrail e he
    exact exists_cycle_of_isChain hhead hchain hmem
  · rintro ⟨c, hreach, hcycle⟩
    by_contra hnone
    have hok := Config.failure_outcomeOf_eq_none.1 (Option.not_isSome_iff_eq_none.1 hnone)
    have hacc := hs.acc [] hn hok hcanonical
    exact not_transGen_of_acc (acc_of_reflTransGen hacc hreach) hcycle
  · obtain ⟨path, last, rfl, hrest⟩ := htrail e he
    exact ⟨path, last, rfl, rfl, hrest⟩

/-- Two catalogs that include each other, the one under a second spelling of its name. -/
def twoSpellings : Table Text Text where
  entries := [("jdk-x-1.8".toText, "@includeBundled y\n@includeBundled jdk-nonportable".toText),
    ("y".toText, "# once more\n@includeBundled jdk-x-8".toText)]

/-- The session with these catalogs that lets pass what cannot be resolved. -/
def twoSpellingsSession : Session where
  config := { failOnUnresolvable := .bool false }
  store := .mapping twoSpellings
  disk := ⟨⟨[]⟩, []⟩

/-- The second spelling does not hide the cycle. -/
theorem recursion_exact_twoSpellings : twoSpellingsSession.Closed twoSpellings ∧
    (twoSpellingsSession.perform (.ofClasses .empty)
      (.catalog "jdk-x-1.8".toText none)).failure.isSome := by
  have hs : twoSpellingsSession.Closed twoSpellings := ⟨rfl, rfl, by decide, by decide +kernel⟩
  refine ⟨hs, (hs.recursion_exact (by decide) (by decide) none _).1.2 ⟨_, .refl, ?_⟩⟩
  have hforth : Includes twoSpellings "jdk-x-1.8".toText "y".toText :=
    ⟨by decide, _, rfl, "y".toText, by decide, by decide⟩
  have hback : Includes twoSpellings "y".toText "jdk-x-1.8".toText :=
    ⟨by decide, _, rfl, "jdk-x-8".toText, by decide, by decide⟩
  exact .tail (.single hforth) hback

end Session
end Embargo
