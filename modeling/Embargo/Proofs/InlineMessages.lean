import Embargo.Failure
import Embargo.Proofs.Lines
import Mathlib.Data.List.TakeWhile

/-!
# Inline messages

A record carries its message behind an `@`, and an `@` inside the message is written `\@`. **Every
message can be written so**, with whatever backslashes and marks there are in it, and a line with an
inline message says the same as the line without it under that message as the default one.

Two things could go wrong, and neither does.

* **The line could be cut elsewhere.** It is cut at the last `@` without a backslash directly
  before it. The marks of an escaped message all have one (`cutMessage_escapeMessage`), so that it
  is cut at the mark in front of the message if nothing before that mark hides it
  (`cutMessage_append`).
* **The message could be read as another one.** Backslashes are not escaped themselves. But a
  backslash is taken away only before an `@`, and before each `@` there is the one that was put
  there (`unescapeMessage_escapeMessage`).

What is left is the report of a line without a signature, which shows the line and so tells the two
lines apart (`SyntaxError.withLine`, `Record.parse_congr`). The conclusion is
`Record.parse_inlineMessage`.
-/

namespace Embargo

/-! ### Where a line is cut -/

/-- **Each mark has a backslash directly before it**, so that none of them begins a message. -/
def IsEscaped (t : Text) : Prop :=
  ∀ before after, t = before ++ CodePoint.char '@' :: after →
    before.getLast? = some (CodePoint.char '\\')

theorem isEscaped_iff {t : Text} : IsEscaped t ↔ cutMessage none t = none := by
  simp only [cutMessage_eq_none_iff, Option.or_none, IsEscaped]

instance (t : Text) : Decidable (IsEscaped t) := decidable_of_iff _ isEscaped_iff.symm

/-- **A line is cut at its last mark** that has no backslash before it. -/
theorem cutMessage_append {before after : Text} (hafter : cutMessage (some '@') after = none)
    {previous : Option CodePoint}
    (hbefore : before.getLast?.or previous ≠ some (CodePoint.char '\\')) :
    cutMessage previous (before ++ CodePoint.char '@' :: after) = some (before, after) := by
  induction before generalizing previous with
  | nil =>
    have hprevious : previous ≠ some (CodePoint.char '\\') := hbefore
    simp [cutMessage, hafter, hprevious]
  | cons c before ih =>
    have hrest : before.getLast?.or (some c) ≠ some (CodePoint.char '\\') := by
      rw [List.getLast?_cons] at hbefore
      cases hb : before.getLast? <;> simp_all
    rw [List.cons_append, cutMessage, ih hrest]

/-! ### Escaping -/

/-- **A message as it is written in a line**, with `\@` for each `@`. -/
def escapeMessage : Text → Text
  | [] => []
  | c :: m => if c = '@' then '\\' :: '@' :: escapeMessage m else c :: escapeMessage m

theorem head?_escapeMessage (m : Text) : (escapeMessage m).head? ≠ some (CodePoint.char '@') := by
  cases m with
  | nil => nofun
  | cons c m =>
    rw [escapeMessage]
    split
    · simp
    · next hc => simpa using hc

theorem unescapeMessage_cons {c : CodePoint} {t : Text}
    (h : t.head? ≠ some (CodePoint.char '@')) :
    unescapeMessage (c :: t) = c :: unescapeMessage t := by
  rw [unescapeMessage]
  rintro r rfl rfl
  exact h rfl

/-- **The message that is read is the one that was written.** -/
theorem unescapeMessage_escapeMessage (m : Text) : unescapeMessage (escapeMessage m) = m := by
  induction m with
  | nil => rfl
  | cons c m ih =>
    rw [escapeMessage]
    split
    · next hc => rw [unescapeMessage, ih, hc]
    · rw [unescapeMessage_cons (head?_escapeMessage m), ih]

/-- No mark of an escaped message begins a message. -/
theorem cutMessage_escapeMessage (previous : Option CodePoint) (m : Text) :
    cutMessage previous (escapeMessage m) = none := by
  induction m generalizing previous with
  | nil => rfl
  | cons c m ih =>
    rw [escapeMessage]
    split
    · simp [cutMessage, ih]
    · next hc => simp [cutMessage, ih, hc]

/-- Without marks there is nothing to escape. -/
theorem escapeMessage_of_notMem {m : Text} (h : CodePoint.char '@' ∉ m) : escapeMessage m = m := by
  induction m with
  | nil => rfl
  | cons c m ih =>
    obtain ⟨hc, hm⟩ := List.ne_and_not_mem_of_not_mem_cons h
    rw [escapeMessage, if_neg (Ne.symm hc), ih hm]

/-! ### Lines with a message -/

theorem Text.trim_eq_nil {t : Text} (h : ∀ c ∈ t, isBlank c = true) : trim t = [] := by
  rw [trim, trimLeft, List.dropWhile_eq_nil_iff.2 h]
  rfl

section Splitting

variable {s : Text}

theorem IsEscaped.splitMessage_eq (hs : IsEscaped s) : splitMessage s = (Text.trim s, none) := by
  rw [splitMessage, isEscaped_iff.1 hs]

theorem splitMessage_append (hlast : s.getLast? ≠ some (CodePoint.char '\\')) (m : Text) :
    splitMessage (s ++ CodePoint.char '@' :: escapeMessage m) =
      (Text.trim s, some (Text.trim m)) := by
  have hcut : cutMessage none (s ++ CodePoint.char '@' :: escapeMessage m) =
      some (s, escapeMessage m) :=
    cutMessage_append (cutMessage_escapeMessage _ m) (by rwa [Option.or_none])
  rw [splitMessage, hcut]
  dsimp only
  rw [unescapeMessage_escapeMessage]

end Splitting

/-! ### Reports -/

/-- The report for another line. Only that of a line without a signature shows the line. -/
def SyntaxError.withLine (line : Text) : SyntaxError → SyntaxError
  | .signatureMissing _ => .signatureMissing line
  | e => e

theorem SyntaxError.message_withLine (line : Text) (e : SyntaxError) :
    (e.withLine line).message = e.message := by
  cases e <;> rfl

namespace Record

theorem withLine_of_parseMember {signature member line : Text} {e : SyntaxError}
    (h : Member.parse signature member = .error e) : e.withLine line = e := by
  unfold Member.parse at h
  split at h
  · obtain rfl := Except.error.inj h
    rfl
  · split at h
    · cases h
    · obtain rfl := Except.error.inj h
      rfl
  · split at h
    · obtain rfl := Except.error.inj h
      rfl
    · cases h

theorem withLine_of_ofSignature {signature line : Text} {message : Option Text} {e : SyntaxError}
    (h : ofSignature signature message = .error e) : e.withLine line = e := by
  unfold ofSignature at h
  split at h
  · cases h
  · next before after hcut =>
    cases hmember : Member.parse signature (Text.trim after) with
    | error e' =>
      rw [hmember] at h
      obtain rfl := Except.error.inj h
      exact withLine_of_parseMember hmember
    | ok member =>
      rw [hmember] at h
      dsimp only [bind, Except.bind] at h
      split at h
      · obtain rfl := Except.error.inj h
        rfl
      · split at h
        · obtain rfl := Except.error.inj h
          rfl
        · cases h

/-- **Lines with the same signature and the same message say the same**, but for the report that
shows the line. -/
theorem parse_congr {line line' signature : Text} {written written' default default' : Option Text}
    (h : splitMessage line = (signature, written)) (h' : splitMessage line' = (signature, written'))
    (hmessage : effectiveMessage written default = effectiveMessage written' default') :
    parse line default = (parse line' default').mapError (.withLine line) := by
  rw [parse, parse, h, h']
  dsimp only
  rw [hmessage]
  split
  · rfl
  · cases hread : ofSignature signature (effectiveMessage written' default') with
    | ok r => rfl
    | error e => exact congrArg Except.error (withLine_of_ofSignature hread).symm

/-- The message of a record is the one that counts. -/
theorem message_of_parse {line : Text} {default : Option Text} {r : Record}
    (h : parse line default = .ok r) :
    r.message = effectiveMessage (splitMessage line).2 default := by
  have hsame := parse_default line default default
  rw [h] at hsame
  exact congrArg message (Except.ok.inj hsame)

/-! ### The result -/

/-- **Two readings agree.** -/
structure SameReading (a b : Except SyntaxError Record) : Prop where
  /-- They give the same record, if one of them gives a record. -/
  ok_iff : ∀ r, a = .ok r ↔ b = .ok r
  /-- Otherwise both report, in the same words, that signature text cannot be read. -/
  refused : (∀ r, a ≠ .ok r) → ∃ e e', a = .error e ∧ b = .error e' ∧ e.message = e'.message ∧
    ∃ f f', e.problem = .failure f ∧ f.kind = .parse ∧ e'.problem = .failure f' ∧ f'.kind = .parse

theorem sameReading_mapError (a : Except SyntaxError Record) (line : Text) :
    SameReading (a.mapError (.withLine line)) a := by
  cases a with
  | ok r => exact ⟨fun _ => Iff.rfl, fun h => absurd rfl (h r)⟩
  | error e =>
    exact ⟨fun r => ⟨nofun, nofun⟩, fun _ =>
      ⟨_, e, rfl, rfl, e.message_withLine line, _, _, rfl, rfl, rfl, rfl⟩⟩

/-- **A message can be written inline.** Behind a signature, and with a backslash before each `@`,
any message is read back, and the line says what the signature alone says with this message as the
default one. Nothing but white space is no message, whatever the default one is. -/
theorem parse_inlineMessage (s : Text) (hs : IsEscaped s)
    (hlast : s.getLast? ≠ some (CodePoint.char '\\')) (default : Option Text) :
    (∀ m, m ≠ [] → Text.trim m = m →
      SameReading (parse (s ++ CodePoint.char '@' :: escapeMessage m) default)
        (parse s (some m)) ∧
      ∀ r, parse (s ++ CodePoint.char '@' :: escapeMessage m) default = .ok r →
        r.message = some m) ∧
    ∀ blank, (∀ c ∈ blank, Text.isBlank c = true) →
      SameReading (parse (s ++ CodePoint.char '@' :: blank) default) (parse s none) := by
  have hs := hs.splitMessage_eq
  constructor
  · intro m hne htrim
    have hcounts : effectiveMessage (some m) default = some m ∧
        effectiveMessage none (some m) = some m := by
      obtain ⟨c, m, rfl⟩ := List.exists_cons_of_ne_nil hne
      exact ⟨rfl, rfl⟩
    have hline := splitMessage_append hlast m
    rw [htrim] at hline
    refine ⟨?_, fun r hr => ?_⟩
    · rw [parse_congr hline hs (hcounts.1.trans hcounts.2.symm)]
      exact sameReading_mapError _ _
    · rw [message_of_parse hr, hline, hcounts.1]
  · intro blank hblank
    have hmark : CodePoint.char '@' ∉ blank := fun hmem => absurd (hblank _ hmem) (by decide)
    have hline := splitMessage_append hlast blank
    rw [escapeMessage_of_notMem hmark, Text.trim_eq_nil hblank] at hline
    have hcounts : effectiveMessage (some []) default = effectiveMessage none none := rfl
    rw [parse_congr hline hs hcounts]
    exact sameReading_mapError _ _

/-- A message of marks and backslashes, behind a field whose name has an escaped mark. -/
theorem parse_inlineMessage_marks :
    IsEscaped "a.B#f\\@g ".toText ∧
      "a.B#f\\@g ".toText.getLast? ≠ some (CodePoint.char '\\') ∧
      "\\@ @@\\".toText ≠ [] ∧ Text.trim "\\@ @@\\".toText = "\\@ @@\\".toText ∧
      (∀ c ∈ " \t".toText, Text.isBlank c = true) ∧
      parse "a.B#f\\@g @\\\\@ \\@\\@\\".toText (some "other".toText) =
        .ok ⟨"a.B#f\\@g".toText, "a.B".toText, .field "f\\@g".toText, some "\\@ @@\\".toText⟩ ∧
      parse "a.B#f\\@g @ \t".toText (some "other".toText) =
        .ok ⟨"a.B#f\\@g".toText, "a.B".toText, .field "f\\@g".toText, none⟩ := by
  have hs : IsEscaped "a.B#f\\@g ".toText := by decide
  have hlast : "a.B#f\\@g ".toText.getLast? ≠ some (CodePoint.char '\\') := by decide
  have hne : "\\@ @@\\".toText ≠ [] := by decide
  have htrim : Text.trim "\\@ @@\\".toText = "\\@ @@\\".toText := by decide
  have hblank : ∀ c ∈ " \t".toText, Text.isBlank c = true := by decide
  obtain ⟨hmessages, hblanks⟩ := parse_inlineMessage _ hs hlast (some "other".toText)
  refine ⟨hs, hlast, hne, htrim, hblank, ?_, ?_⟩
  · exact ((hmessages _ hne htrim).1.ok_iff _).2 (by decide)
  · exact ((hblanks _ hblank).ok_iff _).2 (by decide)

end Record
end Embargo
