import Embargo.Proofs.Documented
import Embargo.Proofs.Gaps
import Embargo.Proofs.LineParts
import Embargo.Proofs.Stopping

/-!
# The grammar of lines

A line that is trimmed and neither blank nor a comment is a directive if it begins with an `@`, and
a record otherwise. What a record can be is said by its signature, which stands for a class, or for
a member of one.

* `IsSignature`, `Signifies` – the signatures that there are, and what they stand for.
* `Record.signifies_of_ofSignature`, `Record.ofSignature_of_signifies` – the reader takes them for
  that, and reads no others.
* `Session.perform_not_isVacant` – a line cannot lack its signature, nor a signature its class: the
  line does not begin with an `@`, and so not with its message, and it does not begin with a `#`,
  and so not with the mark of a member. The two errors for that are never reported, whatever
  catalogs include.
* `Line.content_grammar` – the main statement.
-/

namespace Embargo

/-! ### Records -/

/-- **A signature can be read**: it is the name of a class or a pattern, or the name of a class, the
mark of a member, and a field or the declaration of a method. -/
def IsSignature (signature : Text) : Prop :=
  CodePoint.char '#' ∉ signature ∨
    ∃ before after, signature = before ++ .char '#' :: after ∧ CodePoint.char '#' ∉ before ∧
      CodePoint.char '*' ∉ before ∧ CodePoint.char '?' ∉ before ∧ Text.trim after ≠ [] ∧
      (CodePoint.char '(' ∉ Text.trim after ∨
        (Jvm.Method.ofDeclaration (Text.trim after)).isOk = true)

/-- **What a signature stands for**: a class name or pattern, and what part of the class. -/
inductive Signifies (signature : Text) : Text → Member → Prop
  /-- There is no mark of a member. -/
  | whole (h : CodePoint.char '#' ∉ signature) : Signifies signature signature .whole
  /-- There is a mark, and what stands behind the first one is the member. -/
  | member {before after : Text} {member : Member}
      (hsignature : signature = before ++ .char '#' :: after) (hmark : CodePoint.char '#' ∉ before)
      (hstar : CodePoint.char '*' ∉ before) (hquestion : CodePoint.char '?' ∉ before)
      (hmember : member.IsNamedBy (Text.trim after)) :
      Signifies signature (Text.trim before) member

/-- The text begins as a record does: not with white space, and not with the mark of a directive, of
a comment or of a member. -/
def BeginsRecord (t : Text) : Prop :=
  ∃ c ∈ t.head?, Text.isBlank c = false ∧ c ≠ '@' ∧ c ≠ '#'

theorem Text.head?_trim {c : CodePoint} {t : Text} (hc : isBlank c = false)
    (h : t.head? = some c) : (trim t).head? = some c := by
  obtain ⟨r, rfl⟩ := List.head?_eq_some_iff.1 h
  rw [trim, trimLeft, List.dropWhile_cons_of_neg (by simp [hc]), trimRight, List.reverse_cons,
    List.dropWhile_append]
  split <;> simp [hc]

namespace BeginsRecord

variable {t before after : Text}

theorem trim (h : BeginsRecord t) : BeginsRecord (Text.trim t) := by
  obtain ⟨c, hhead, hc⟩ := h
  exact ⟨c, Text.head?_trim hc.1 hhead, hc⟩

theorem ne_nil (h : BeginsRecord t) : t ≠ [] := by
  rintro rfl
  obtain ⟨c, hhead, -⟩ := h
  cases hhead

/-- What stands before a mark begins a record if it all does. -/
theorem of_append {c : CodePoint} (hc : c = '@' ∨ c = '#')
    (h : BeginsRecord (before ++ c :: after)) : BeginsRecord before := by
  obtain ⟨d, hhead, hd⟩ := h
  cases before with
  | nil =>
    obtain rfl := Option.some.inj hhead
    rcases hc with rfl | rfl
    · exact absurd rfl hd.2.1
    · exact absurd rfl hd.2.2
  | cons e before => exact ⟨d, hhead, hd⟩

theorem isSignatureOf (h : BeginsRecord t) (hs : IsSignatureOf t before) : BeginsRecord before := by
  rcases hs with - | ⟨hmark⟩
  · exact h.trim
  · rw [hmark.line_eq] at h
    exact (h.of_append (.inl rfl)).trim

end BeginsRecord

/-- The error of a line without a signature, or of a signature without a class. -/
def SyntaxError.isVacant : SyntaxError → Bool
  | .signatureMissing _ | .classMissing _ => true
  | _ => false

section Records

variable {signature line : Text} {message default : Option Text}

/-- A signature can be read exactly if it stands for something. -/
theorem isSignature_iff : IsSignature signature ↔
    ∃ className member, Signifies signature className member := by
  constructor
  · rintro (h | ⟨before, after, hsignature, hmark, hstar, hquestion, hne, hmember⟩)
    · exact ⟨_, _, .whole h⟩
    · by_cases hopen : CodePoint.char '(' ∈ Text.trim after
      · have hok := hmember.resolve_left (not_not_intro hopen)
        cases hm : Jvm.Method.ofDeclaration (Text.trim after) with
        | error e =>
          rw [hm] at hok
          cases hok
        | ok m => exact ⟨_, _, .member hsignature hmark hstar hquestion (.method hopen hm)⟩
      · exact ⟨_, _, .member hsignature hmark hstar hquestion (.field hne hopen)⟩
  · rintro ⟨className, member, h | ⟨hsignature, hmark, hstar, hquestion, hmember⟩⟩
    · exact .inl h
    · refine .inr ⟨_, _, hsignature, hmark, hstar, hquestion, ?_⟩
      rcases hmember with ⟨hne, hopen⟩ | ⟨hopen, hm⟩
      · exact ⟨hne, .inl hopen⟩
      · exact ⟨List.ne_nil_of_mem hopen, .inr (hm ▸ rfl)⟩

theorem Text.of_mem_trim {c : CodePoint} {t : Text} (h : c ∈ trim t) : c ∈ t := by
  have hsub {u : Text} (hu : c ∈ u.dropWhile isBlank) : c ∈ u :=
    (List.dropWhile_sublist isBlank).mem hu
  exact hsub (List.mem_reverse.1 (hsub (List.mem_reverse.1 h)))

/-- A class name is a glob with or without the white space around it. -/
theorem Glob.isGlob_trim_eq_false_iff {t : Text} : isGlob (Text.trim t) = false ↔
    CodePoint.char '*' ∉ t ∧ CodePoint.char '?' ∉ t := by
  have hmem {c : CodePoint} (hc : Text.isBlank c = false) : c ∈ Text.trim t ↔ c ∈ t :=
    ⟨Text.of_mem_trim, Text.mem_trim hc⟩
  have hstar := hmem (c := CodePoint.char '*') (by decide)
  have hquestion := hmem (c := CodePoint.char '?') (by decide)
  simp [isGlob, hstar, hquestion]

/-- How a signature with a member is read. Its class is never missing. -/
theorem Record.ofSignature_eq_of_mark (hs : BeginsRecord signature) {before after : Text}
    (hsignature : signature = before ++ .char '#' :: after) (hmark : CodePoint.char '#' ∉ before) :
    ofSignature signature message =
      (Member.parse signature (Text.trim after)).bind fun member =>
        if Glob.isGlob (Text.trim before) then .error (.memberOfGlob signature)
        else .ok ⟨signature, Text.trim before, member, message⟩ := by
  have hclass : Text.trim before ≠ [] :=
    (BeginsRecord.of_append (.inr rfl) (hsignature ▸ hs)).trim.ne_nil
  rw [ofSignature, Text.cut_eq_some_iff.2 ⟨hsignature, hmark⟩]
  simp only [bind, if_neg hclass]

/-- **What is read is what the signature stands for.** -/
theorem Record.signifies_of_ofSignature (hs : BeginsRecord signature) {r : Record}
    (h : ofSignature signature message = .ok r) :
    r.signature = signature ∧ r.message = message ∧ Signifies signature r.className r.member := by
  cases hcut : Text.cut '#' signature with
  | none =>
    rw [ofSignature, hcut] at h
    obtain rfl := Except.ok.inj h
    exact ⟨rfl, rfl, .whole (Text.cut_eq_none_iff.1 hcut)⟩
  | some parts =>
    obtain ⟨before, after⟩ := parts
    obtain ⟨hsignature, hmark⟩ := Text.cut_eq_some_iff.1 hcut
    rw [ofSignature_eq_of_mark hs hsignature hmark] at h
    cases hmember : Member.parse signature (Text.trim after) with
    | error e =>
      rw [hmember] at h
      cases h
    | ok member =>
      rw [hmember] at h
      dsimp only [Except.bind] at h
      split at h
      · cases h
      · next hglob =>
        obtain rfl := Except.ok.inj h
        obtain ⟨hstar, hquestion⟩ := Glob.isGlob_trim_eq_false_iff.1 (Bool.eq_false_iff.2 hglob)
        exact ⟨rfl, rfl, .member hsignature hmark hstar hquestion
          (Member.parse_eq_ok_iff.1 hmember)⟩

/-- **A signature that stands for something is read.** -/
theorem Record.ofSignature_of_signifies (hs : BeginsRecord signature) {className : Text}
    {member : Member} (h : Signifies signature className member) :
    ofSignature signature message = .ok ⟨signature, className, member, message⟩ := by
  rcases h with hmark | ⟨hsignature, hmark, hstar, hquestion, hmember⟩
  · rw [ofSignature, Text.cut_eq_none_iff.2 hmark]
  · rw [ofSignature_eq_of_mark hs hsignature hmark, Member.parse_eq_ok_iff.2 hmember]
    dsimp only [Except.bind]
    rw [if_neg (by simp [Glob.isGlob_trim_eq_false_iff.2 ⟨hstar, hquestion⟩])]

/-- What is wrong with a member is neither that the signature is missing nor that the class is. -/
theorem Member.isVacant_of_parse {text : Text} {e : SyntaxError}
    (h : Member.parse signature text = .error e) : e.isVacant = false := by
  unfold Member.parse at h
  split at h
  · obtain rfl := Except.error.inj h
    rfl
  · split at h
    · cases h
    · obtain rfl := Except.error.inj h
      rfl
  · split at h
    · obtain rfl := Except.error.inj h
      rfl
    · cases h

theorem Record.isVacant_of_ofSignature (hs : BeginsRecord signature) {e : SyntaxError}
    (h : ofSignature signature message = .error e) : e.isVacant = false := by
  cases hcut : Text.cut '#' signature with
  | none =>
    rw [ofSignature, hcut] at h
    cases h
  | some parts =>
    obtain ⟨before, after⟩ := parts
    obtain ⟨hsignature, hmark⟩ := Text.cut_eq_some_iff.1 hcut
    rw [ofSignature_eq_of_mark hs hsignature hmark] at h
    cases hmember : Member.parse signature (Text.trim after) with
    | error e' =>
      rw [hmember] at h
      obtain rfl := Except.error.inj h
      exact Member.isVacant_of_parse hmember
    | ok member =>
      rw [hmember] at h
      dsimp only [Except.bind] at h
      split at h
      · obtain rfl := Except.error.inj h
        rfl
      · cases h

/-- How a line with a signature is read: it is never missing. -/
theorem Record.parse_eq_ofSignature (hline : BeginsRecord line)
    (hs : IsSignatureOf line signature) : Record.parse line default =
      ofSignature signature (effectiveMessage (splitMessage line).2 default) := by
  rw [Record.parse]
  dsimp only
  rw [splitMessage_eq_iff.2 hs, if_neg (hline.isSignatureOf hs).ne_nil]

end Records

/-! ### Lines -/

section Lines

variable {line signature : Text} {m : Option Text}

/-- A content line without the mark of a directive begins like a record. -/
theorem beginsRecord_of_isContent (htrim : Text.trim line = line) (hc : isContent line = true)
    (hat : line.head? ≠ some (.char '@')) : BeginsRecord line := by
  cases line with
  | nil => cases hc
  | cons c r =>
    refine ⟨c, rfl, Text.isBlank_head htrim c rfl, fun h => hat (congrArg some h), ?_⟩
    rintro rfl
    cases hc

/-- How a line is read that begins as a record does. -/
theorem Line.parse_eq_ofSignature (h : BeginsRecord line) (hs : IsSignatureOf line signature) :
    Line.parse line m = (Record.ofSignature signature
      (effectiveMessage (splitMessage line).2 m)).map .record := by
  have hrecord : Line.parse line m = (Record.parse line m).map .record := by
    obtain ⟨c, hhead, -, hc, -⟩ := h
    unfold Line.parse
    split
    · exact absurd (Option.some.inj hhead).symm hc
    · rfl
  rw [hrecord, Record.parse_eq_ofSignature h hs]

/-- **The reader accepts a record exactly if its signature can be read.** -/
theorem Line.isOk_parse_iff (h : BeginsRecord line) (hs : IsSignatureOf line signature) :
    (Line.parse line m).isOk = true ↔ IsSignature signature := by
  rw [Line.parse_eq_ofSignature h hs, isSignature_iff]
  constructor
  · intro hok
    cases hr : Record.ofSignature signature (effectiveMessage (splitMessage line).2 m) with
    | error e =>
      rw [hr] at hok
      cases hok
    | ok r => exact ⟨_, _, (Record.signifies_of_ofSignature (h.isSignatureOf hs) hr).2.2⟩
  · rintro ⟨className, member, hmeans⟩
    rw [Record.ofSignature_of_signifies (h.isSignatureOf hs) hmeans]
    rfl

/-- A line with the mark of a directive is read as one. -/
theorem Line.parse_eq_directive_parse (h : line.head? = some (.char '@')) :
    Line.parse line m = (Directive.parse line).map .directive := by
  obtain ⟨r, rfl⟩ := List.head?_eq_some_iff.1 h
  rfl

/-- **A trimmed content line is a directive, or has a signature that is not empty.** -/
theorem Line.parse_cases (htrim : Text.trim line = line) (hc : isContent line = true)
    (m : Option Text) : Line.parse line m = (Directive.parse line).map .directive ∨
      ∃ signature, IsSignatureOf line signature ∧ BeginsRecord signature ∧
        Line.parse line m = (Record.ofSignature signature
          (effectiveMessage (splitMessage line).2 m)).map .record := by
  by_cases hat : line.head? = some (.char '@')
  · exact .inl (Line.parse_eq_directive_parse hat)
  · have hline := beginsRecord_of_isContent htrim hc hat
    have hs : IsSignatureOf line (splitMessage line).1 := splitMessage_eq_iff.1 rfl
    exact .inr ⟨_, hs, hline.isSignatureOf hs, Line.parse_eq_ofSignature hline hs⟩

theorem Directive.isVacant_of_parse {e : SyntaxError} (h : Directive.parse line = .error e) :
    e.isVacant = false := by
  rw [Directive.parse] at h
  dsimp only at h
  split at h
  · cases h
  · split at h
    · cases h
    · split at h
      · cases h
      · obtain rfl := Except.error.inj h
        rfl

/-- A trimmed content line is not said to lack its signature, nor its signature the class. -/
theorem Line.isVacant_of_parse (htrim : Text.trim line = line) (hc : isContent line = true)
    {e : SyntaxError} (h : Line.parse line m = .error e) : e.isVacant = false := by
  rcases Line.parse_cases htrim hc m with heq | ⟨signature, -, hs, heq⟩
  · cases hd : Directive.parse line with
    | error e' =>
      rw [heq, hd] at h
      obtain rfl := Except.error.inj h
      exact Directive.isVacant_of_parse hd
    | ok d =>
      rw [heq, hd] at h
      cases h
  · cases hr : Record.ofSignature signature (effectiveMessage (splitMessage line).2 m) with
    | error e' =>
      rw [heq, hr] at h
      obtain rfl := Except.error.inj h
      exact Record.isVacant_of_ofSignature hs hr
    | ok r =>
      rw [heq, hr] at h
      cases h

/-- **What is read from a line** is what its signature stands for. -/
theorem Line.signifies_of_parse (htrim : Text.trim line = line) (hc : isContent line = true)
    {r : Record} (h : Line.parse line m = .ok (.record r)) :
    IsSignatureOf line r.signature ∧ BeginsRecord r.signature ∧
      Signifies r.signature r.className r.member := by
  rcases Line.parse_cases htrim hc m with heq | ⟨signature, hsignature, hs, heq⟩
  · cases hd : Directive.parse line <;> rw [heq, hd] at h <;> cases h
  · cases hr : Record.ofSignature signature (effectiveMessage (splitMessage line).2 m) with
    | error e =>
      rw [heq, hr] at h
      cases h
    | ok r' =>
      rw [heq, hr] at h
      obtain rfl := Line.record.inj (Except.ok.inj h)
      obtain ⟨rfl, -, hmeans⟩ := Record.signifies_of_ofSignature hs hr
      exact ⟨hsignature, hs, hmeans⟩

/-- The signature of a line is trimmed. -/
theorem IsSignatureOf.trim (h : IsSignatureOf line signature) :
    Text.trim signature = signature := by
  rcases h with - | - <;> exact Text.trim_trim _

/-- What a signature stands for: a class with a name that is trimmed, and if that is a pattern, then
the whole class. -/
theorem Signifies.className (h : BeginsRecord signature) (htrim : Text.trim signature = signature)
    {className : Text} {member : Member} (hmeans : Signifies signature className member) :
    className ≠ [] ∧ Text.trim className = className ∧
      (Glob.isGlob className = true → member = .whole) := by
  rcases hmeans with hmark | ⟨hsignature, hmark, hstar, hquestion, hmember⟩
  · exact ⟨h.ne_nil, htrim, fun _ => rfl⟩
  · refine ⟨(BeginsRecord.of_append (.inr rfl) (hsignature ▸ h)).trim.ne_nil, Text.trim_trim _,
      fun hglob => ?_⟩
    cases (Glob.isGlob_trim_eq_false_iff.2 ⟨hstar, hquestion⟩).symm.trans hglob

end Lines

/-! ### What population calls report -/

/-- The error is that of a line without a signature, or of a signature without a class. -/
def LoadError.IsVacant : LoadError → Prop
  | .grammar e => e.isVacant = true
  | _ => False

theorem LoadError.IsVacant.of_within {e : LoadError} {name : Text} (h : (e.within name).IsVacant) :
    e.IsVacant := by
  cases e <;> exact h

theorem LoadError.IsVacant.isOfText {e : LoadError} (h : e.IsVacant) : e.IsOfText := by
  cases e with
  | grammar e => trivial
  | _ => exact h.elim

section Reading

variable {origin : Origin} {expand : Text → Progress → Reading Unit}

theorem readRecord_not_isVacant {policy : Policy} {r : Record} {p : Progress} {e : LoadError}
    (h : (readRecord policy r p).1 = .error e) : ¬e.IsVacant := by
  obtain ⟨-, gap, -, rfl⟩ := readRecord_eq_error_iff.1 h
  exact id

variable (hexpand : ∀ name p e, (expand name p).1 = .error e → ¬e.IsVacant)

include hexpand

/-- No line is said to lack its signature or class, if nothing that it includes is. -/
theorem readLine_not_isVacant {line : Text} {scope : Scope} {p q : Progress} {e : LoadError}
    (h : readLine origin expand line scope p = (.error e, q)) : ¬e.IsVacant := by
  have hreading := readLine_reading origin expand line scope p
  rw [h] at hreading
  cases hreading with
  | malformed hc hl =>
    change ¬SyntaxError.isVacant _ = true
    rw [Line.isVacant_of_parse (Text.trim_trim line) hc hl]
    nofun
  | recordFailed hc hl hr => exact readRecord_not_isVacant (congrArg Prod.fst hr)
  | includeRefused hc hl ho => nofun
  | includeFailed hc hl ho hx => exact hexpand _ _ _ (congrArg Prod.fst hx)

theorem readFeed_not_isVacant {c : Config} {name : Text} {feed : Feed} {p : Progress}
    {e : LoadError} (h : (readFeed c origin expand name feed p).1 = .error e) : ¬e.IsVacant := by
  rw [readFeed_result] at h
  cases hlines : readLines origin expand feed.lines c.firstScope p with
  | mk result q =>
    rw [hlines] at h
    cases result with
    | error e' =>
      obtain rfl := Except.error.inj h
      obtain ⟨k, line, scope, q', hstop⟩ := readLines_stopsAt hlines
      exact fun hvacant => readLine_not_isVacant hexpand hstop.stops hvacant.of_within
    | ok scope =>
      dsimp only at h
      split at h
      · obtain rfl := Except.error.inj h
        exact id
      · cases h

end Reading

namespace Session

variable {s : Session}

/-- However deep catalogs include each other, no line is said to lack its signature or class. -/
theorem readCatalog_not_isVacant {chain : List Text} {name : Text} {target : Option Text}
    {p : Progress} {e : LoadError} (h : (s.readCatalog chain name target p).1 = .error e) :
    ¬e.IsVacant := by
  induction chain using s.chain_induction generalizing name target p e with | longer chain ih
  rw [Session.readCatalog] at h
  generalize hres : s.readCatalogWith chain _ name target p = res at h
  have hreading := hres ▸ s.readCatalogWith_reading chain _ name target p
  cases hreading with
  | illNamed hname =>
    obtain rfl := Except.error.inj h
    exact id
  | nonPortable hname => cases h
  | notFound hname ht hfind =>
    obtain rfl := Except.error.inj h
    exact fun he => find_not_isOfText (congrArg Prod.fst (hfind p)) he.isOfText
  | recursive hname ht hfind hc =>
    obtain rfl := Except.error.inj h
    exact id
  | @opened found t result q hname ht hfind hc hfeed =>
    obtain rfl : result = .error e := h
    exact readFeed_not_isVacant (fun name p e he => ih found hc he) (congrArg Prod.fst hfeed)

/-- **No population call says that a line lacks its signature, or a signature its class.** -/
theorem perform_not_isVacant (r : Registry) {call : Call} {e : LoadError}
    (h : (s.perform r call).failure = some e) : ¬e.IsVacant := by
  have hfeed {event : Event} {name : Text} {feed : Feed}
      (h : (s.addFeed event name feed r).failure = some e) : ¬e.IsVacant :=
    readFeed_not_isVacant (fun _ _ _ he => by cases he) (Config.failure_outcomeOf_eq_some.1 h)
  cases call with
  | catalog name target => exact readCatalog_not_isVacant (Config.failure_outcomeOf_eq_some.1 h)
  | text t => exact hfeed h
  | stream name feed => exact hfeed h
  | file path =>
    rw [perform, addFile] at h
    split at h
    · exact hfeed h
    all_goals
      obtain rfl := Option.some.inj h
      exact id

end Session

/-! ### The grammar -/

/-- **The grammar of lines.** A line that is trimmed, not empty and no comment is accepted or not,
whatever the default message.

* With the mark of a directive in front, it is accepted exactly if it is a directive.
* Any other line has one signature, and is accepted exactly if that can be read. Then it gives a
  record of what the signature stands for: the class name is trimmed and not empty, there is a field
  or a method but not both, and neither of a pattern.
* What is not accepted is reported as text that cannot be read, and never because a signature or the
  name of a class is missing.

So no population call says that one of these is missing, from wherever it reads and whatever
catalogs include.

Two of these parts hold by the types alone, of any record and any syntax error. A `Member` is the
whole class, a field or a method, so there is no record of both a field and a method; and a
`SyntaxError` has no other report than that text cannot be read. What the reader adds is which member
a record has, by `Signifies`, and which errors there are. -/
theorem Line.content_grammar :
    (∀ line : Text, Text.trim line = line → isContent line = true → ∀ m : Option Text,
      (line.head? = some (.char '@') → ((Line.parse line m).isOk = true ↔ IsDirective line)) ∧
      (line.head? ≠ some (.char '@') → ∃ signature,
        (∀ signature', IsSignatureOf line signature' ↔ signature' = signature) ∧
        ((Line.parse line m).isOk = true ↔ IsSignature signature)) ∧
      (∀ r, Line.parse line m = .ok (.record r) →
        IsSignatureOf line r.signature ∧ Signifies r.signature r.className r.member ∧
        (∀ name method, ¬(r.member = .field name ∧ r.member = .method method)) ∧
        (r.isPattern = true → r.member = .whole) ∧
        r.className ≠ [] ∧ Text.trim r.className = r.className) ∧
      (∀ m', (Line.parse line m').isOk = (Line.parse line m).isOk) ∧
      ∀ e, Line.parse line m = .error e →
        (∃ f, e.problem = .failure f ∧ f.kind = .parse) ∧
        ∀ text, e ≠ .signatureMissing text ∧ e ≠ .classMissing text) ∧
    ∀ (s : Session) (r : Registry) (call : Call) (text : Text),
      (s.perform r call).failure ≠ some (.grammar (.signatureMissing text)) ∧
      (s.perform r call).failure ≠ some (.grammar (.classMissing text)) := by
  constructor
  · intro line htrim hc m
    refine ⟨fun hat => ?_, fun hat => ?_, fun r hr => ?_, fun m' => Line.isOk_parse line m m',
      fun e he => ⟨⟨_, rfl, rfl⟩, fun text => ?_⟩⟩
    · rw [Line.parse_eq_directive_parse hat, ← Directive.isOk_parse_iff]
      cases Directive.parse line <;> rfl
    · have hs (signature : Text) :
          (splitMessage line).1 = signature ↔ IsSignatureOf line signature := splitMessage_eq_iff
      exact ⟨_, fun signature => (hs signature).symm.trans eq_comm,
        Line.isOk_parse_iff (beginsRecord_of_isContent htrim hc hat) ((hs _).1 rfl)⟩
    · obtain ⟨hs, hbegins, hmeans⟩ := Line.signifies_of_parse htrim hc hr
      obtain ⟨hne, hclass, hpattern⟩ := hmeans.className hbegins hs.trim
      refine ⟨hs, hmeans, fun name method h => ?_, hpattern, hne, hclass⟩
      cases h.1.symm.trans h.2
    · have hvacant := Line.isVacant_of_parse htrim hc he
      constructor <;> rintro rfl <;> cases hvacant
  · intro s r call text
    exact ⟨fun h => Session.perform_not_isVacant r h rfl,
      fun h => Session.perform_not_isVacant r h rfl⟩

/-- The three marks in one line: the message begins at the second `@`, since a backslash hides the
third, and the member at the first `#`. -/
def threeMarks : Text := "a.B # c(a.D) @ e # ( \\@ f".toText

/-- This line declares a method, and its message has each of the marks again. A pattern with a
member is no signature. -/
theorem Line.content_grammar_threeMarks :
    (Line.parse threeMarks none).isOk = true ∧
    IsSignatureOf threeMarks "a.B # c(a.D)".toText ∧ IsSignature "a.B # c(a.D)".toText ∧
    (Line.parse "a.* # c".toText none).isOk = false ∧ ¬IsSignature "a.* # c".toText := by
  have hmarks : IsSignatureOf threeMarks "a.B # c(a.D)".toText :=
    splitMessage_eq_iff.1 (by decide +kernel)
  have hpattern : IsSignatureOf "a.* # c".toText "a.* # c".toText :=
    splitMessage_eq_iff.1 (by decide +kernel)
  have hok : (Line.parse threeMarks none).isOk = true := by decide +kernel
  have hrefused : (Line.parse "a.* # c".toText none).isOk = false := by decide +kernel
  obtain ⟨hlines, -⟩ := Line.content_grammar
  obtain ⟨-, haccepted, -⟩ := hlines threeMarks (by decide +kernel) (by decide +kernel) none
  obtain ⟨-, haccepted', -⟩ := hlines "a.* # c".toText (by decide +kernel) (by decide +kernel) none
  obtain ⟨signature, hunique, hiff⟩ := haccepted (by decide +kernel)
  obtain ⟨signature', hunique', hiff'⟩ := haccepted' (by decide +kernel)
  obtain rfl := (hunique _).1 hmarks
  obtain rfl := (hunique' _).1 hpattern
  refine ⟨hok, hmarks, hiff.1 hok, hrefused, fun h => ?_⟩
  rw [hiff'.2 h] at hrefused
  cases hrefused

end Embargo
