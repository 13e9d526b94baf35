import Embargo.Catalog.Store
import Embargo.Config
import Embargo.Event
import Embargo.Index
import Embargo.Line.Reader
import Embargo.Missing
import Embargo.Text.Feed

/-!
# Reading signatures into the index

A text of signatures is read line by line. A **scope** – the policy about gaps and the default
message – belongs to the text; the **progress** – index, universe, missing classes and trace – goes
on from text to text. A catalog can include catalogs: each is read in a scope of its own, on behalf
of the **chain** of catalogs that led to it, and a catalog that is already in the chain is refused.

* `readLines` – the lines of a text, given what including a catalog does.
* `Session.readCatalog` – a catalog with the catalogs that it includes. It ends because a chain
  holds no catalog twice and only catalogs that the store serves; `Session.readCatalogWith` is one
  round of it.
* `Progress` is returned by every reader, also by one that fails: what was read before the failure
  stays.

## Room for nested calls

A call of the reader stands open for each catalog of a chain. The readers of documents count how
deep they may go (`Toml.nestingRoom`, `Json.nestingRoom`). The reader of catalogs is **assumed** to
have room for any chain: a program that runs out of it, after some hundreds of catalogs of which
each includes the next, fails in a way that no `LoadError` tells.
-/

namespace Embargo

/-! ### Errors -/

/-- Why signatures cannot be read, given that there is room for as many nested calls as the chain of
catalogs is long. -/
inductive LoadError where
  /-- A line cannot be read. -/
  | grammar (e : SyntaxError)
  /-- A catalog reference names no catalog. -/
  | reference (e : CatalogNameError)
  /-- A record cannot be resolved, and the policy does not let it pass. -/
  | unresolvable (reason signature : Text)
  /-- A catalog includes itself, over the other catalogs of the chain. -/
  | recursion (chain : List Text)
  /-- No store serves the catalog. -/
  | notFound (name store : Text)
  /-- A source of text cannot be read to its end. -/
  | unreadable (name : Text)
  /-- The system refuses to look for the file of a catalog, or to open it. -/
  | refused
  /-- A text has no bytes: that of a catalog, or that of the path of a file. -/
  | unencodable
  /-- The path of a file has a character that no path can have. -/
  | illFormedPath
  deriving DecidableEq

namespace LoadError

/-- The report of an error. -/
def problem : LoadError → Problem
  | .grammar e => e.problem
  | .reference e => e.problem
  | .unresolvable reason signature => .failure (.unresolvable reason signature)
  | .recursion chain =>
    .failure (.parse ("Recursive bundled signature inclusion: ".toText ++
      Text.join " -> ".toText chain) none)
  | .notFound name store => .failure (.notFound name [store])
  | .unreadable name => .failure (.resource name none)
  | .refused => .fault .system
  | .unencodable => .fault .notEncodable
  | .illFormedPath => .fault .badValue

/-- The error of a text with an error in one of its lines: that the system refuses a catalog which
the text includes is told as the text's own. -/
def within (name : Text) : LoadError → LoadError
  | .refused => .unreadable name
  | e => e

end LoadError

/-! ### State -/

/-- What reading changes. -/
structure Progress where
  /-- What is forbidden. -/
  index : Index
  /-- The classes. -/
  classes : Universe
  /-- The classes that were skipped silently, in order. -/
  missing : List Text
  /-- What happened. -/
  trace : Trace
  deriving DecidableEq

/-- What holds for the lines of one text. -/
structure Scope where
  /-- What is done about records that cannot be resolved. -/
  policy : Policy
  /-- The message of records that carry none. -/
  message : Option Text
  deriving DecidableEq

/-- What a reader gives: a result or an error, and in either case the progress. -/
abbrev Reading (α : Type) := Except LoadError α × Progress

namespace Progress

/-- The progress with some events more. -/
def note (p : Progress) (events : Trace) : Progress := { p with trace := p.trace ++ events }

end Progress

/-- The policy that a text begins with. -/
def Config.firstPolicy (c : Config) : Policy := if c.failOnUnresolvable.isTrue then .fail else .warn

/-- The scope that a text begins with. -/
def Config.firstScope (c : Config) : Scope := ⟨c.firstPolicy, none⟩

/-! ### Records -/

/-- What a policy says about a signature that cannot be resolved: an error, a warning or nothing. -/
def Policy.report (policy : Policy) (reason signature : Text) : Except LoadError Unit × Trace :=
  match policy with
  | .fail => (.error (.unresolvable reason signature), [])
  | .warn => (.ok (), [.ignored reason signature])
  | .silent => (.ok (), [])

/-- What a policy does about a record with a gap: a missing class may be kept for the summary, and
anything else is reported. -/
def Policy.handle (policy : Policy) (r : Record) (gap : Gap) (p : Progress) : Reading Unit :=
  if policy.collectsMissing && gap.isClass then
    (.ok (), { p with missing := Missing.add p.missing r.className }.note [.deferred r])
  else
    let (result, events) := policy.report gap.reason r.signature
    (result, p.note events)

/-- The events of looking a class up by a name. -/
def Universe.Answer.trace (answer : Universe.Answer) (name : Text) : Trace :=
  answer.skipped.map fun s => .skippedSupertype s (Text.internalName name)

/-- Reads a record: a pattern is added as it is, and any other record is resolved. -/
def readRecord (policy : Policy) (r : Record) (p : Progress) : Reading Unit :=
  let p := p.note [.considered r policy]
  if r.isPattern then
    (.ok (), { p with index := p.index.addPattern r.pattern }.note [.addedPattern r])
  else
    let answer := p.classes.lookUp r.className
    let p := { p with classes := answer.after }.note (answer.trace r.className)
    match r.resolve answer with
    | .ok keys =>
      (.ok (), { p with index := p.index.add r.printout keys }.note [.addedKeys r keys.length])
    | .error gap => policy.handle r gap p

/-! ### Lines -/

/-- Where a text comes from, and so what its directives can do. -/
inductive Origin where
  /-- The user: the text includes nothing, and can be no more than warned about gaps. -/
  | user
  /-- A store: the text is a catalog. -/
  | catalog
  deriving DecidableEq

/-- The policy that a text gets when it asks to ignore gaps. -/
def Origin.lenientPolicy : Origin → Policy
  | .user => .warn
  | .catalog => .silent

/-- Follows a directive; `expand` is what including a catalog does. -/
def readDirective (origin : Origin) (expand : Text → Progress → Reading Unit) (line : Text)
    (scope : Scope) (p : Progress) : Directive → Reading Scope
  | .includeCatalog name =>
    match origin with
    | .user => (.error (.grammar (.directive line)), p)
    | .catalog =>
      match expand name p with
      | (.ok (), p) => (.ok scope, p)
      | (.error e, p) => (.error e, p)
  | .defaultMessage message => (.ok { scope with message := message }, p)
  | .ignoreUnresolvable => (.ok { scope with policy := origin.lenientPolicy }, p)

/-- Reads a line, and gives the scope of the line after it. -/
def readLine (origin : Origin) (expand : Text → Progress → Reading Unit) (line : Text)
    (scope : Scope) (p : Progress) : Reading Scope :=
  let line := Text.trim line
  if !isContent line then (.ok scope, p)
  else match Line.parse line scope.message with
    | .error e => (.error (.grammar e), p)
    | .ok (.record r) =>
      match readRecord scope.policy r p with
      | (.ok (), p) => (.ok scope, p)
      | (.error e, p) => (.error e, p)
    | .ok (.directive d) => readDirective origin expand line scope (p.note [.directive line]) d

/-- Reads the lines of a text, up to the first that fails. -/
def readLines (origin : Origin) (expand : Text → Progress → Reading Unit) :
    List Text → Scope → Progress → Reading Scope
  | [], scope, p => (.ok scope, p)
  | line :: lines, scope, p =>
    match readLine origin expand line scope p with
    | (.ok scope, p) => readLines origin expand lines scope p
    | (.error e, p) => (.error e, p)

/-- Reads what a source of text yields. A source that breaks off is an error once its lines are
read. -/
def readFeed (c : Config) (origin : Origin) (expand : Text → Progress → Reading Unit) (name : Text)
    (feed : Feed) (p : Progress) : Reading Unit :=
  match readLines origin expand feed.lines c.firstScope p with
  | (.error e, p) => (.error (e.within name), p)
  | (.ok _, p) => (if feed.broken then .error (.unreadable name) else .ok (), p)

/-! ### Catalogs -/

/-- What reading needs and does not change. -/
structure Session where
  /-- The settings. -/
  config : Config
  /-- Where catalogs come from. -/
  store : Store
  /-- The files. -/
  disk : Disk

namespace Session

/-- The store has a catalog with a name, and the name is well formed. -/
def serves (s : Session) (name : Text) : Bool :=
  Catalog.isName name && (s.store.answer s.disk name).isServed

/-- The names of the catalogs that the store serves, once each. -/
def served (s : Session) : List Text := distinct ((s.store.names s.disk).filter s.serves)

/-- **Only finitely many catalogs are served**, and these are all. -/
theorem mem_served {s : Session} {name : Text} : name ∈ s.served ↔ s.serves name = true := by
  simp only [served, mem_distinct, List.mem_filter, and_iff_right_iff_imp]
  intro h
  obtain ⟨hname, hserved⟩ := Bool.and_eq_true_iff.1 h
  cases ha : s.store.answer s.disk name with
  | served bytes servers =>
    exact Store.mem_names_of_answer hname ha
  | unknown | refused | unencodable => simp [ha, Store.Answer.isServed] at hserved

/-- A catalog that the store serves. -/
structure Found (s : Session) where
  /-- The canonical name of the catalog. -/
  name : Text
  /-- Its content. -/
  bytes : Bytes
  /-- The name is well formed. -/
  isName : Catalog.isName name = true
  /-- The store serves this content. -/
  answer : ∃ servers, s.store.answer s.disk name = .served bytes servers

theorem Found.mem_served {s : Session} (found : s.Found) : found.name ∈ s.served := by
  obtain ⟨servers, h⟩ := found.answer
  exact Session.mem_served.2 (by simp [serves, found.isName, h, Store.Answer.isServed])

/-- Asks the store for a catalog, on behalf of the catalogs of a chain. -/
def ask (s : Session) (chain : List Text) (name : Text) (hn : Catalog.isName name = true)
    (p : Progress) : Reading (Option s.Found) :=
  match h : s.store.answer s.disk name with
  | .served bytes servers =>
    (.ok (some ⟨name, bytes, hn, servers, h⟩),
      p.note (.requested name chain :: servers.map (.served name)))
  | .unknown => (.ok none, p.note [.requested name chain])
  | .refused => (.error .refused, p.note [.requested name chain])
  | .unencodable => (.error .unencodable, p.note [.requested name chain])

/-- Asks the store for the catalog with the canonical form of a name. -/
def askCanonical (s : Session) (chain : List Text) (name : Text) (target : Option Text)
    (p : Progress) : Reading (Text × Option s.Found) :=
  match h : Catalog.canonicalName name target with
  | .error e => (.error (.reference e), p)
  | .ok canonical =>
    match s.ask chain canonical (Catalog.isName_of_canonicalName h) p with
    | (.error e, p) => (.error e, p)
    | (.ok found, p) => (.ok (canonical, found), p)

/-- Finds the catalog that a name refers to: under the name itself, or else, if it is the name of a
platform catalog without a version, under the name with the target's version. -/
def find (s : Session) (chain : List Text) (name : Text) (target : Option Text) (p : Progress) :
    Reading s.Found :=
  match s.askCanonical chain name none p with
  | (.error e, p) => (.error e, p)
  | (.ok (_, some found), p) => (.ok found, p)
  | (.ok (canonical, none), p) =>
    if target.isSome && Catalog.isUnversioned name then
      match s.askCanonical chain name target p with
      | (.error e, p) => (.error e, p)
      | (.ok (_, some found), p) => (.ok found, p)
      | (.ok (canonical, none), p) => (.error (.notFound canonical s.store.text), p)
    else (.error (.notFound canonical s.store.text), p)

/-- The name that stands for the internal classes of the runtime, and for no catalog. -/
def nonPortableName : Text := "jdk-nonportable".toText

/-- The events of reading a catalog: only what the user asks for is told. -/
def announce (chain : List Text) (name : Text) : Trace :=
  if chain.isEmpty then [.readingCatalog name] else []

/-- Forbids the use of internal classes of the runtime. -/
def forbidNonPortable (chain : List Text) (p : Progress) : Progress :=
  { p with index := p.index.forbidNonPortable }.note
    (announce chain nonPortableName ++ [Event.forbadeNonPortable])

/-- The served names that are not in a chain. -/
def unread (s : Session) (chain : List Text) : List Text := s.served.filter fun n => n ∉ chain

/-- A chain that grows by a served catalog leaves fewer names. -/
theorem length_unread_lt (s : Session) {chain : List Text} {name : Text} (hn : name ∈ s.served)
    (hc : name ∉ chain) : (s.unread (chain ++ [name])).length < (s.unread chain).length := by
  have hsub : s.unread (chain ++ [name]) = (s.unread chain).filter fun n => n ≠ name := by
    simp only [unread, List.filter_filter]
    congr 1
    funext n
    simp [not_or, and_comm]
  have hmem : name ∈ s.unread chain := by simp [unread, hn, hc]
  rw [hsub]
  exact List.length_filter_lt_length_iff_exists.2 ⟨name, hmem, by simp⟩

/-- Reads a catalog, given what including a catalog does once this one is open. -/
def readCatalogWith (s : Session) (chain : List Text)
    (expand : (found : s.Found) → found.name ∉ chain → Text → Progress → Reading Unit)
    (name : Text) (target : Option Text) (p : Progress) : Reading Unit :=
  match Catalog.checkName name with
  | .error e => (.error (.reference e), p)
  | .ok name =>
    if name = nonPortableName then (.ok (), forbidNonPortable chain p)
    else match s.find chain name target p with
      | (.error e, p) => (.error e, p)
      | (.ok found, p) =>
        if h : found.name ∈ chain then (.error (.recursion (chain ++ [found.name])), p)
        else
          let (result, p) := readFeed s.config .catalog (expand found h) found.name
            (.ofBytes found.bytes) (p.note (announce chain found.name ++ [.opened found.name]))
          (result, p.note [.closed found.name])

/-- **Reads a catalog**, and the catalogs that it includes. The calls nest as deep as the chain is
long, and it is assumed that there is room for them. -/
def readCatalog (s : Session) (chain : List Text) (name : Text) (target : Option Text)
    (p : Progress) : Reading Unit :=
  s.readCatalogWith chain
    (fun found _h name p => s.readCatalog (chain ++ [found.name]) name none p) name target p
termination_by (s.unread chain).length
decreasing_by exact s.length_unread_lt found.mem_served _h

end Session
end Embargo
