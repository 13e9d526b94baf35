import Embargo.Proofs.Declaration
import Embargo.Proofs.InlineMessages

/-!
# The parts of lines

A directive is cut at its first space. Three characters cut a record apart, and each may also stand
inside the parts that another one cuts off, so the order decides: first the last `@` that no
backslash hides, then the first `#` before that, then the first `(` behind that. For each cut this
file says what the parts are, in terms of the line alone, and that the reader finds them.

| part | what it is | theorem |
|---|---|---|
| the keyword of a directive | `HasKeyword` | `hasKeyword_iff` |
| the message of a record | `HasMessageMark` | `cutMessage_eq_some_iff` |
| what stands before the message | `IsSignatureOf` | `splitMessage_eq_iff` |
| the member behind the first `#` | `Member.IsNamedBy` | `Member.parse_eq_ok_iff` |

The directives that there are follow from the first of these (`IsDirective`,
`Directive.isOk_parse_iff`).
-/

namespace Embargo

/-! ### Directives -/

/-- A line consists of a keyword, which goes up to the first space, and the rest. -/
inductive HasKeyword (line : Text) : Text → Text → Prop
  /-- There is a space. -/
  | space {keyword rest : Text} (hline : line = keyword ++ .char ' ' :: rest)
      (hkeyword : CodePoint.char ' ' ∉ keyword) : HasKeyword line keyword rest
  /-- There is none. -/
  | alone (h : CodePoint.char ' ' ∉ line) : HasKeyword line line []

/-- **The line is a directive**: an inclusion with a name, a default message with or without a text,
or the request to ignore gaps and nothing else. -/
def IsDirective (line : Text) : Prop :=
  ∃ keyword rest, HasKeyword line keyword rest ∧
    (keyword = "@includeBundled".toText ∧ Text.trim rest ≠ [] ∨
      keyword = "@defaultMessage".toText ∨
      keyword = "@ignoreUnresolvable".toText ∧ Text.trim rest = [])

section Directives

variable {line keyword rest : Text}

theorem hasKeyword_iff : HasKeyword line keyword rest ↔
    (Text.cut ' ' line).getD (line, []) = (keyword, rest) := by
  cases hcut : Text.cut ' ' line with
  | none =>
    have hnone := Text.cut_eq_none_iff.1 hcut
    constructor
    · rintro (⟨rfl, hkeyword⟩ | h)
      · exact absurd (by simp) hnone
      · rfl
    · rintro h
      obtain ⟨rfl, rfl⟩ := Prod.mk.inj h
      exact .alone hnone
  | some parts =>
    obtain ⟨before, after⟩ := parts
    obtain ⟨hline, hbefore⟩ := Text.cut_eq_some_iff.1 hcut
    constructor
    · rintro (⟨rfl, hkeyword⟩ | h)
      · exact Option.some.inj (hcut.symm.trans (Text.cut_eq_some_iff.2 ⟨rfl, hkeyword⟩))
      · exact absurd (hline ▸ by simp) h
    · rintro h
      obtain ⟨rfl, rfl⟩ := Prod.mk.inj h
      exact .space hline hbefore

/-- **The reader takes directives for what they are.** -/
theorem Directive.isOk_parse_iff : (Directive.parse line).isOk = true ↔ IsDirective line := by
  generalize hparts : (Text.cut ' ' line).getD (line, []) = parts
  obtain ⟨keyword, rest⟩ := parts
  have hdirective : IsDirective line ↔
      (keyword = "@includeBundled".toText ∧ Text.trim rest ≠ [] ∨
        keyword = "@defaultMessage".toText ∨
        keyword = "@ignoreUnresolvable".toText ∧ Text.trim rest = []) := by
    unfold IsDirective
    simp only [hasKeyword_iff, hparts, Prod.mk.injEq]
    constructor
    · rintro ⟨_, _, ⟨rfl, rfl⟩, h⟩
      exact h
    · exact fun h => ⟨_, _, ⟨rfl, rfl⟩, h⟩
  rw [hdirective, Directive.parse, hparts]
  dsimp only
  split
  · next h => exact iff_of_true rfl (.inl h)
  · next hinclude =>
    split
    · next h => exact iff_of_true rfl (.inr (.inl h))
    · next hmessage =>
      split
      · next h => exact iff_of_true rfl (.inr (.inr h))
      · next hignore => exact iff_of_false nofun (by simp [hinclude, hmessage, hignore])

end Directives

/-! ### Signatures -/

/-- **The message of a line begins at a mark**: the last `@` with no backslash directly before it.
-/
structure HasMessageMark (line before after : Text) : Prop where
  /-- The mark stands between the two parts. -/
  line_eq : line = before ++ .char '@' :: after
  /-- No backslash hides it. -/
  bare : before.getLast? ≠ some (.char '\\')
  /-- No other one that is not hidden stands behind it. -/
  last : ∀ before' after', line = before' ++ .char '@' :: after' →
    before'.getLast? ≠ some (.char '\\') → before'.length ≤ before.length

/-- **The signature of a line**: what stands before its message, without the white space around it,
or all of a line that has no message. -/
inductive IsSignatureOf (line : Text) : Text → Prop
  /-- Each mark is hidden by a backslash. -/
  | whole (h : IsEscaped line) : IsSignatureOf line (Text.trim line)
  /-- There is a message. -/
  | before {before after : Text} (h : HasMessageMark line before after) :
      IsSignatureOf line (Text.trim before)

section Messages

variable {line before after : Text}

theorem getLast?_append_cons (front : Text) (c : CodePoint) (back : Text) :
    (front ++ c :: back).getLast? = back.getLast?.or (some c) := by
  rw [List.getLast?_append, List.getLast?_cons]
  cases back.getLast? <;> rfl

/-- What a cut line is. -/
theorem of_cutMessage {previous : Option CodePoint}
    (h : cutMessage previous line = some (before, after)) :
    line = before ++ .char '@' :: after ∧ before.getLast?.or previous ≠ some (.char '\\') ∧
      cutMessage (some '@') after = none := by
  induction line generalizing previous before with
  | nil => cases h
  | cons c r ih =>
    rw [cutMessage] at h
    split at h
    · next before' after' hcut =>
      obtain ⟨rfl, rfl⟩ := Prod.mk.inj (Option.some.inj h)
      obtain ⟨hr, hbare, hafter⟩ := ih hcut
      refine ⟨congrArg _ hr, ?_, hafter⟩
      rw [List.getLast?_cons]
      cases hlast : before'.getLast? <;> simpa [hlast] using hbare
    · next hcut =>
      split at h
      · next hmark =>
        obtain ⟨rfl, hprevious⟩ := hmark
        obtain ⟨rfl, rfl⟩ := Prod.mk.inj (Option.some.inj h)
        exact ⟨rfl, hprevious, hcut⟩
      · cases h

/-- Behind the last mark of a line there is none that is not hidden. -/
theorem HasMessageMark.cutMessage_after (h : HasMessageMark line before after) :
    cutMessage (some '@') after = none := by
  refine cutMessage_eq_none_iff.2 fun front back hafter => ?_
  by_contra hbare
  have hle := h.last (before ++ .char '@' :: front) back (by simp [h.line_eq, hafter])
    (getLast?_append_cons before _ front ▸ hbare)
  rw [List.length_append, List.length_cons] at hle
  omega

/-- **A line is cut at the mark of its message.** -/
theorem cutMessage_eq_some_iff :
    cutMessage none line = some (before, after) ↔ HasMessageMark line before after := by
  constructor
  · intro hcut
    obtain ⟨hline, hbare, hafter⟩ := of_cutMessage hcut
    rw [Option.or_none] at hbare
    refine ⟨hline, hbare, fun before' after' hline' hbare' => ?_⟩
    -- A later mark would stand behind this one, where each is hidden.
    by_contra hlt
    obtain ⟨front, rfl⟩ : ∃ front, before' = before ++ .char '@' :: front := by
      have hprefix : before ++ [.char '@'] <+: before' :=
        List.prefix_of_prefix_length_le (show before ++ [.char '@'] <+: line from
          ⟨after, by simp [hline]⟩) ⟨.char '@' :: after', hline'.symm⟩
          (by rw [List.length_append]; exact Nat.lt_of_not_le hlt)
      obtain ⟨front, hfront⟩ := hprefix
      exact ⟨front, by simp [← hfront]⟩
    have hrest : after = front ++ .char '@' :: after' := by
      simpa using hline.symm.trans hline'
    rw [getLast?_append_cons] at hbare'
    exact hbare' (cutMessage_eq_none_iff.1 hafter front after' hrest)
  · intro h
    rw [h.line_eq]
    exact cutMessage_append h.cutMessage_after (by rw [Option.or_none]; exact h.bare)

/-- **A line has one signature**, and the reader finds it. -/
theorem splitMessage_eq_iff {signature : Text} :
    (splitMessage line).1 = signature ↔ IsSignatureOf line signature := by
  rw [splitMessage]
  cases hcut : cutMessage none line with
  | none =>
    constructor
    · rintro rfl
      exact .whole (isEscaped_iff.2 hcut)
    · rintro (h | h)
      · rfl
      · cases hcut.symm.trans (cutMessage_eq_some_iff.2 h)
  | some parts =>
    obtain ⟨before, after⟩ := parts
    constructor
    · rintro rfl
      exact .before (cutMessage_eq_some_iff.1 hcut)
    · rintro (h | h)
      · cases hcut.symm.trans (isEscaped_iff.1 h)
      · rw [(Prod.mk.inj (Option.some.inj (hcut.symm.trans (cutMessage_eq_some_iff.2 h)))).1]

end Messages

/-! ### Members -/

/-- **A text names a member**: a field, or a method if there is a parenthesis in it. -/
inductive Member.IsNamedBy (text : Text) : Member → Prop
  /-- A field has any name without a parenthesis. -/
  | field (hne : text ≠ []) (h : CodePoint.char '(' ∉ text) : IsNamedBy text (.field text)
  /-- A method is declared. -/
  | method {m : Jvm.Method} (h : CodePoint.char '(' ∈ text)
      (hm : Jvm.Method.ofDeclaration text = .ok m) : IsNamedBy text (.method m)

/-- Nothing is declared without a name. -/
theorem Jvm.Method.ofDeclaration_ne_ok (r : Text) (m : Jvm.Method) :
    ofDeclaration ('(' :: r) ≠ .ok m := by
  intro h
  obtain ⟨name, inside, after, hform, hopen, hclose⟩ := exists_form_of_ofDeclaration h
  obtain rfl : name = [] := by
    rw [form_eq] at hform
    cases name with
    | nil => rfl
    | cons c name =>
      obtain rfl := (List.cons.inj hform).1
      exact absurd List.mem_cons_self hopen
  rw [hform] at h
  obtain ⟨-, hname, -⟩ := (ofDeclaration_form_eq_ok_iff hopen hclose).1 h
  cases hname

/-- **The reader takes members for what they are.** -/
theorem Member.parse_eq_ok_iff {signature text : Text} {member : Member} :
    Member.parse signature text = .ok member ↔ member.IsNamedBy text := by
  rw [Member.parse]
  cases hcut : Text.cut '(' text with
  | none =>
    have hopen := Text.cut_eq_none_iff.1 hcut
    dsimp only
    split
    · next hnil => exact iff_of_false nofun fun h => by cases h <;> contradiction
    · next hne =>
      constructor
      · intro h
        obtain rfl := Except.ok.inj h
        exact .field hne hopen
      · rintro (⟨-, -⟩ | ⟨h, -⟩)
        · rfl
        · exact absurd h hopen
  | some parts =>
    obtain ⟨before, after⟩ := parts
    obtain ⟨htext, -⟩ := Text.cut_eq_some_iff.1 hcut
    have hopen : CodePoint.char '(' ∈ text := by simp [htext]
    cases before with
    | nil =>
      refine iff_of_false nofun ?_
      rintro (⟨-, h⟩ | ⟨-, hm⟩)
      · exact h hopen
      · exact Jvm.Method.ofDeclaration_ne_ok after _ (htext ▸ hm)
    | cons c before =>
      dsimp only
      cases hm : Jvm.Method.ofDeclaration text with
      | error e =>
        refine iff_of_false nofun ?_
        rintro (⟨-, h⟩ | ⟨-, hm'⟩)
        · exact h hopen
        · cases hm.symm.trans hm'
      | ok m =>
        constructor
        · intro h
          obtain rfl := Except.ok.inj h
          exact .method hopen hm
        · rintro (⟨-, h⟩ | ⟨-, hm'⟩)
          · exact absurd hopen h
          · rw [Except.ok.inj (hm.symm.trans hm')]

end Embargo
