import Embargo.Line.Reader

/-!
# Lines and the default message

The message that a text sets as its default ends up in the records that carry none of their own, and
has no other effect: what a line is, and whether it can be read, is said by the line alone
(`Line.parse_default`). So whether the lines of a text can be read does not depend on the lines
before them, and neither does which catalogs they include (`Catalog.included?`).

A record has a message of its own if its line is cut, which is so unless each mark of messages has a
backslash before it (`cutMessage_eq_none_iff`).
-/

namespace Embargo

/-- A text is not cut if each mark has a backslash before it. -/
theorem cutMessage_eq_none_iff {previous : Option CodePoint} {t : Text} :
    cutMessage previous t = none ↔ ∀ before after, t = before ++ CodePoint.char '@' :: after →
      before.getLast?.or previous = some (CodePoint.char '\\') := by
  induction t generalizing previous with
  | nil => simp [cutMessage]
  | cons c r ih =>
    have hcut : cutMessage previous (c :: r) = none ↔
        cutMessage (some c) r = none ∧ (c = '@' → previous = some (CodePoint.char '\\')) := by
      rw [cutMessage]
      cases cutMessage (some c) r <;> simp
    have hlast (before : Text) :
        (c :: before).getLast?.or previous = before.getLast?.or (some c) := by
      rw [List.getLast?_cons]
      cases before.getLast? <;> rfl
    rw [hcut, ih]
    constructor
    · rintro ⟨hrest, hfront⟩ (_ | ⟨d, before⟩) after ht
      · exact hfront (List.cons.inj ht).1
      · obtain ⟨rfl, rfl⟩ := List.cons.inj ht
        exact (hlast before).trans (hrest before after rfl)
    · intro h
      refine ⟨fun before after hr => ?_, fun hc => ?_⟩
      · exact (hlast before).symm.trans (h (c :: before) after (congrArg _ hr))
      · exact h [] r (congrArg (· :: r) hc)

/-- The line with another message, if it is a record. -/
def Line.withMessage (message : Option Text) : Line → Line
  | .record r => .record { r with message := message }
  | line => line

theorem Record.ofSignature_message (signature : Text) (m m' : Option Text) :
    Record.ofSignature signature m' =
      (Record.ofSignature signature m).map fun r => { r with message := m' } := by
  unfold Record.ofSignature
  split
  · rfl
  · next before after h =>
    cases Member.parse signature (Text.trim after) with
    | error e => rfl
    | ok member =>
      dsimp only [bind, Except.bind]
      split
      · rfl
      · split <;> rfl

theorem Record.parse_default (line : Text) (m m' : Option Text) :
    Record.parse line m' = (Record.parse line m).map fun r =>
      { r with message := effectiveMessage (splitMessage line).2 m' } := by
  unfold Record.parse
  obtain ⟨signature, written⟩ := splitMessage line
  dsimp only
  split
  · rfl
  · exact Record.ofSignature_message signature _ _

namespace Line

/-- **The default message is only passed on.** -/
theorem parse_default (line : Text) (m m' : Option Text) :
    parse line m' =
      (parse line m).map (withMessage (effectiveMessage (splitMessage line).2 m')) := by
  unfold parse
  split
  · cases Directive.parse _ with
    | error e => rfl
    | ok d => rfl
  · rw [Record.parse_default line m m']
    cases Record.parse line m with
    | error e => rfl
    | ok r => rfl

theorem isOk_parse (line : Text) (m m' : Option Text) :
    (parse line m').isOk = (parse line m).isOk := by
  rw [parse_default line m m']
  cases parse line m with
  | error e => rfl
  | ok l => rfl

theorem parse_eq_directive {line : Text} {m : Option Text} {d : Directive}
    (h : parse line m = .ok (.directive d)) (m' : Option Text) :
    parse line m' = .ok (.directive d) := by
  rw [parse_default line m m', h]
  rfl

theorem parse_eq_record {line : Text} {m : Option Text} {r : Record}
    (h : parse line m = .ok (.record r)) (m' : Option Text) :
    ∃ r', parse line m' = .ok (.record r') := by
  rw [parse_default line m m', h]
  exact ⟨_, rfl⟩

end Line

/-! ### Inclusions -/

namespace Catalog

/-- The name that a line includes. -/
def included? (line : Text) : Option Text :=
  if isContent (Text.trim line) then
    match Line.parse (Text.trim line) none with
    | .ok (.directive (.includeCatalog name)) => some name
    | _ => none
  else none

/-- The names that lines include, in order. -/
def inclusions (lines : List Text) : List Text := lines.filterMap included?

theorem included?_of_parse {line : Text} {m : Option Text} {d : Directive}
    (hc : isContent (Text.trim line) = true)
    (hl : Line.parse (Text.trim line) m = .ok (.directive d)) :
    included? line = match d with
      | .includeCatalog name => some name
      | _ => none := by
  rw [included?, if_pos hc, Line.parse_eq_directive hl none]
  cases d <;> rfl

/-- A line that includes a catalog is the directive to do so, whatever the default message. -/
theorem parse_of_included? {line name : Text} (h : included? line = some name) :
    isContent (Text.trim line) = true ∧
      ∀ m, Line.parse (Text.trim line) m = .ok (.directive (.includeCatalog name)) := by
  unfold included? at h
  split at h
  · next hc =>
    split at h
    · next name' hl =>
      obtain rfl := Option.some.inj h
      exact ⟨hc, Line.parse_eq_directive hl⟩
    · cases h
  · cases h

end Catalog
end Embargo
