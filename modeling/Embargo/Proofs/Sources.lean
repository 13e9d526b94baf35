import Embargo.Proofs.Comparison
import Embargo.Proofs.Utf8

/-!
# A text is read alike from every source

The user gives signatures as a text, as a stream of text, as a stream of bytes or as a file. These
sources do not end lines alike: a text ends them at line feeds only, bytes at carriage returns, too.
**As long as each carriage return stands before a line feed** it makes no difference, for then it is
white space at the end of a line, and a line is trimmed before it is read.

* `Feed.split_unifyLineEnds` – the lines of the bytes are those of the text, without the carriage
  returns that they end with.
* `readLines_congr` – lines are read alike if they are alike once they are trimmed.
* `readLines_after` – reading does not look at what happened before, so that what is told
  first cannot matter for the rest.
* `readLines_error` – why lines fail. What is wrong with a line of the user does not speak of the
  source.
* `Session.sources_agree` – the result.
-/

namespace Embargo

/-! ### Lines -/

namespace Text

theorem trim_concat {c : CodePoint} (h : isBlank c = true) (t : Text) :
    trim (t ++ [c]) = trim t := by
  rw [trim, trim, trimLeft, trimLeft, List.dropWhile_append]
  split
  · next hnil =>
    rw [List.isEmpty_iff.1 hnil]
    simp [h]
  · simp [trimRight, h]

end Text

namespace Feed

/-- Each carriage return of a text stands before a line feed. -/
def HasPairedReturns (t : Text) : Prop :=
  ∀ i < t.length, t[i]? = some (.char '\r') → t[i + 1]? = some (.char '\n')

instance (t : Text) : Decidable (HasPairedReturns t) :=
  inferInstanceAs (Decidable (∀ i < t.length, _ → _))

theorem HasPairedReturns.of_cons {c : CodePoint} {t : Text} (h : HasPairedReturns (c :: t)) :
    HasPairedReturns t := fun i hi hr =>
  h (i + 1) (Nat.succ_lt_succ hi) hr

theorem dropPendingReturn_cons {c : CodePoint} (h : c ≠ '\r') (t : Text) :
    dropPendingReturn (c :: t) = c :: dropPendingReturn t := by
  cases t with
  | nil => simp [dropPendingReturn, h]
  | cons d r =>
    rw [dropPendingReturn, dropPendingReturn, List.getLast?_cons_cons]
    split <;> rfl

/-- **The lines of a text that was written as bytes** are its own, but for the carriage returns that
they end with. -/
theorem split_unifyLineEnds {t : Text} (h : HasPairedReturns t) :
    Text.split '\n' (unifyLineEnds t) = (Text.split '\n' t).map dropPendingReturn := by
  fun_induction unifyLineEnds t with
  | case1 => rfl
  | case2 r ih =>
    -- The carriage return is a line of its own, and nothing is left of it.
    simp [Text.split, ih h.of_cons.of_cons, dropPendingReturn]
  | case3 r hr ih =>
    -- No line feed follows.
    obtain ⟨rest, rfl⟩ : ∃ rest, r = .char '\n' :: rest :=
      List.head?_eq_some_iff.1 (List.head?_eq_getElem?.trans (h 0 (Nat.succ_pos _) rfl))
    exact absurd rfl (hr rest)
  | case4 c r hrn hr ih =>
    rw [Text.split, Text.split]
    split
    · simp [ih h.of_cons, dropPendingReturn]
    · rw [ih h.of_cons]
      cases hfields : Text.split '\n' r with
      | nil => exact absurd hfields (Text.split_ne_nil _ _)
      | cons field fields => simp [dropPendingReturn_cons hr]

/-- A carriage return alone ends a line of the bytes, and no line of the text. -/
example : Text.split '\n' (unifyLineEnds "a\rb".toText) ≠
    (Text.split '\n' "a\rb".toText).map dropPendingReturn := by decide

/-- A carriage return at the end is white space. -/
theorem trim_dropPendingReturn (t : Text) : Text.trim (dropPendingReturn t) = Text.trim t := by
  rw [dropPendingReturn]
  split
  · next h =>
    obtain ⟨front, rfl⟩ := List.getLast?_eq_some_iff.1 h
    rw [List.dropLast_concat, Text.trim_concat (by decide)]
  · rfl

end Feed

section Lines

variable {origin : Origin} {expand : Text → Progress → Reading Unit}

theorem readLines_congr {lines lines' : List Text}
    (h : lines.map Text.trim = lines'.map Text.trim) (scope : Scope) (p : Progress) :
    readLines origin expand lines scope p = readLines origin expand lines' scope p := by
  induction lines generalizing lines' scope p with
  | nil =>
    obtain rfl := List.map_eq_nil_iff.1 h.symm
    rfl
  | cons line lines ih =>
    obtain ⟨line', lines', rfl, hline, hlines⟩ := List.map_eq_cons_iff.1 h.symm
    have hread : readLine origin expand line scope p = readLine origin expand line' scope p := by
      rw [readLine, readLine, hline]
    rw [readLines_cons_eq, readLines_cons_eq, hread]
    exact congrArg _ (funext fun scope => funext fun p => ih hlines.symm scope p)

end Lines

/-! ### What happened before -/

/-- The progress with events before those that happened. -/
def Progress.after (p : Progress) (front : Trace) : Progress := { p with trace := front ++ p.trace }

@[simp] theorem Progress.note_after (p : Progress) (front t : Trace) :
    (p.after front).note t = (p.note t).after front := by
  simp [after, note]

@[simp] theorem Progress.classes_after (p : Progress) (front : Trace) :
    (p.after front).classes = p.classes := rfl

/-- A reading with events before those that happened. -/
def Reading.after {α : Type} (a : Reading α) (front : Trace) : Reading α := (a.1, a.2.after front)

theorem Reading.after_andThen {α β : Type} {next : α → Progress → Reading β} {front : Trace}
    (hnext : ∀ x p, next x (p.after front) = (next x p).after front) (a : Reading α) :
    (a.after front).andThen next = (a.andThen next).after front := by
  rcases a with ⟨e | x, p⟩
  · rfl
  · exact hnext x p

section Lines

variable {origin : Origin} {expand : Text → Progress → Reading Unit} {front : Trace}

theorem Policy.handle_after (policy : Policy) (r : Record) (gap : Gap) (p : Progress) :
    policy.handle r gap (p.after front) = (policy.handle r gap p).after front := by
  unfold Policy.handle
  split <;> simp [Reading.after, Progress.after, Progress.note]

theorem readRecord_after (policy : Policy) (r : Record) (p : Progress) :
    readRecord policy r (p.after front) = (readRecord policy r p).after front := by
  unfold readRecord
  simp only [Progress.note_after, Progress.classes_after, Progress.classes_note]
  split
  · simp [Reading.after, Progress.after, Progress.note]
  · cases r.resolve (p.classes.lookUp r.className) with
    | ok keys => simp [Reading.after, Progress.after, Progress.note]
    | error gap =>
      rw [← policy.handle_after]
      simp [Progress.after, Progress.note]

variable (hexpand : ∀ name p, expand name (p.after front) = (expand name p).after front)

include hexpand

theorem readLine_after (line : Text) (scope : Scope) (p : Progress) :
    readLine origin expand line scope (p.after front) =
      (readLine origin expand line scope p).after front := by
  cases hc : isContent (Text.trim line) with
  | false =>
    rw [readLine_of_blank hc, readLine_of_blank hc]
    rfl
  | true =>
    cases hl : Line.parse (Text.trim line) scope.message with
    | error e => simp [readLine, hc, hl, Reading.after]
    | ok said =>
      cases said with
      | record r =>
        rw [readLine_eq_of_record hc hl, readLine_eq_of_record hc hl, readRecord_after]
        exact Reading.after_andThen (fun _ _ => rfl) _
      | directive d =>
        rw [readLine_eq_of_directive hc hl, readLine_eq_of_directive hc hl, Progress.note_after]
        cases d with
        | defaultMessage message => rfl
        | ignoreUnresolvable => rfl
        | includeCatalog name =>
          cases origin with
          | user => rfl
          | catalog =>
            rw [readDirective_eq_of_include, readDirective_eq_of_include, hexpand]
            exact Reading.after_andThen (fun _ _ => rfl) _

/-- **Reading does not look at what happened before.** -/
theorem readLines_after (lines : List Text) (scope : Scope) (p : Progress) :
    readLines origin expand lines scope (p.after front) =
      (readLines origin expand lines scope p).after front := by
  induction lines generalizing scope p with
  | nil => rfl
  | cons line lines ih =>
    rw [readLines_cons_eq, readLines_cons_eq, readLine_after hexpand]
    exact Reading.after_andThen ih _

end Lines

/-! ### Why lines fail -/

/-- The error is one of a line of a text, and does not come from elsewhere. -/
def LoadError.IsOfLine : LoadError → Prop
  | .grammar _ | .unresolvable _ _ => True
  | _ => False

/-- A text reports an error in it as it is, unless it is that the system refuses. -/
theorem LoadError.within_eq {e : LoadError} (h : e ≠ .refused) (name : Text) :
    e.within name = e := by
  cases e with
  | refused => exact absurd rfl h
  | _ => rfl

theorem LoadError.IsOfLine.ne_refused {e : LoadError} (h : e.IsOfLine) : e ≠ .refused := by
  rintro rfl
  exact h

theorem readRecord_error {policy : Policy} {r : Record} {p : Progress} {e : LoadError}
    (h : (readRecord policy r p).1 = .error e) : e.IsOfLine := by
  have hhandle (gap : Gap) (p : Progress) (h : (policy.handle r gap p).1 = .error e) :
      e.IsOfLine := by
    unfold Policy.handle at h
    split at h
    · cases h
    · cases policy with
      | fail =>
        obtain rfl := Except.error.inj h
        trivial
      | warn | silent => cases h
  unfold readRecord at h
  dsimp only at h
  split at h
  · cases h
  · split at h
    · cases h
    · exact hhandle _ _ h

/-- **Why lines fail**: because of one of them, or of a catalog that one of them includes. -/
theorem readLines_error {origin : Origin} {expand : Text → Progress → Reading Unit}
    {lines : List Text} {scope : Scope} {p : Progress} {e : LoadError}
    (h : (readLines origin expand lines scope p).1 = .error e) : e.IsOfLine ∨
      origin = .catalog ∧ ∃ line ∈ lines, ∃ name q,
        Catalog.included? line = some name ∧ (expand name q).1 = .error e := by
  induction lines generalizing scope p with
  | nil => cases h
  | cons line lines ih =>
    rw [readLines_cons] at h
    have hreading := readLine_reading origin expand line scope p
    split at h
    · refine (ih h).imp_right fun ⟨ho, line', hline', hincluded⟩ => ?_
      exact ⟨ho, line', List.mem_cons_of_mem line hline', hincluded⟩
    · next e' q hq =>
      obtain rfl := Except.error.inj h
      rw [hq] at hreading
      cases hreading with
      | malformed hc hl => exact .inl trivial
      | recordFailed hc hl hr => exact .inl (readRecord_error (congrArg Prod.fst hr))
      | includeRefused hc hl ho => exact .inl trivial
      | includeFailed hc hl ho hx =>
        exact .inr ⟨ho, line, List.mem_cons_self, _, _, Catalog.included?_of_parse hc hl,
          congrArg Prod.fst hx⟩

/-! ### Sources -/

/-- The outcome with an event before what happened. -/
def Outcome.announced (o : Outcome) (e : Event) : Outcome := { o with trace := e :: o.trace }

namespace Session

variable (s : Session) (r : Registry)

/-- What the user's lines come to, wherever they come from. -/
def readUserLines (lines : List Text) : Outcome :=
  s.config.outcomeOf ((readLines .user (fun _ p => (.ok (), p)) lines s.config.firstScope
    r.start).andThen fun _ p => (.ok (), p))

/-- **Only the first event tells where lines come from.** -/
theorem addFeed_eq_announced (event : Event) (name : Text) (lines : List Text) :
    s.addFeed event name ⟨lines, false⟩ r = (s.readUserLines r lines).announced event := by
  have hafter : readLines .user (fun _ p => (.ok (), p)) lines s.config.firstScope
      (r.start.note [event]) = (readLines .user (fun _ p => (.ok (), p)) lines s.config.firstScope
        r.start).after [event] := by
    rw [show r.start.note [event] = r.start.after [event] from rfl]
    exact readLines_after (fun _ _ => rfl) lines _ r.start
  rw [addFeed, readFeed, readUserLines, hafter]
  rcases hres : readLines .user (fun _ p => (.ok (), p)) lines s.config.firstScope r.start with
    ⟨e | x, p⟩
  · have herror : e.IsOfLine := (readLines_error (congrArg Prod.fst hres)).resolve_right nofun
    simp [Reading.after, Reading.andThen, Config.outcomeOf, Outcome.announced, Progress.after,
      LoadError.within_eq herror.ne_refused name]
  · simp [Reading.after, Reading.andThen, Config.outcomeOf, Outcome.announced, Progress.after]

theorem readUserLines_congr {lines lines' : List Text}
    (h : lines.map Text.trim = lines'.map Text.trim) :
    s.readUserLines r lines = s.readUserLines r lines' := by
  rw [readUserLines, readUserLines, readLines_congr h]

/-- The lines of the bytes of a text are read like its own. -/
theorem readUserLines_unifyLineEnds {t : Text} (h : Feed.HasPairedReturns t) :
    s.readUserLines r (Text.split '\n' (Feed.unifyLineEnds t)) =
      s.readUserLines r (Text.split '\n' t) := by
  refine s.readUserLines_congr r ?_
  rw [Feed.split_unifyLineEnds h, List.map_map]
  exact congrArg (List.map · _) (funext Feed.trim_dropPendingReturn)

/-- **A text is read alike from every source.** If each of its carriage returns stands before a line
feed, it comes to the same whether it is given as a text, as a stream of text, as a stream of the
bytes that write it or as a file that holds them: the same failure or none, the same registry, the
same classes skipped silently, and the same events after the first. The log records of these events
stand behind one record of the first, which tells the source. -/
theorem sources_agree (t : Text) (path : Path) (hreturns : Feed.HasPairedReturns t)
    (hencodable : Utf8.isEncodable t = true)
    (hfile : s.disk.find path = .found (.file (Utf8.encode t))) :
    ∃ o : Outcome,
      s.perform r (.text t) = o.announced .readingInline ∧
      (∀ name, s.perform r (.stream name (.ofText t)) = o.announced (.readingText name)) ∧
      (∀ name, s.perform r (.stream name (.ofBytes (Utf8.encode t))) =
        o.announced (.readingText name)) ∧
      s.perform r (.file path) = o.announced (.readingText path.text) ∧
      logOf (o.announced .readingInline).trace =
        ⟨.info, "Reading inline API signatures...".toText⟩ :: logOf o.trace ∧
      ∀ name, logOf (o.announced (.readingText name)).trace =
        ⟨.info, "Reading API signatures: ".toText ++ name⟩ :: logOf o.trace := by
  have hbytes (name : Text) : s.perform r (.stream name (.ofBytes (Utf8.encode t))) =
      (s.readUserLines r (Text.split '\n' t)).announced (.readingText name) := by
    rw [Feed.ofBytes_encode hencodable, ← s.readUserLines_unifyLineEnds r hreturns]
    exact s.addFeed_eq_announced r _ _ _
  refine ⟨s.readUserLines r (Text.split '\n' t), s.addFeed_eq_announced r _ _ _,
    fun name => s.addFeed_eq_announced r _ _ _, hbytes, ?_, rfl, fun name => rfl⟩
  rw [perform, addFile, hfile]
  exact hbytes path.text

/-- Some signatures with both ends of lines, and a blank line. -/
def mixedText : Text := "a.B#c()\r\n\r\n  @ignoreUnresolvable \r\nd.**\n".toText

/-- A session whose files hold this text. -/
def mixedSession : Session where
  config := {}
  store := .mapping .empty
  disk := ⟨⟨[([Utf8.encode "a.txt".toText], .file (Utf8.encode mixedText))]⟩, []⟩

/-- This text agrees from every source, though some of its own lines end with a carriage return, and
no line of its bytes does. -/
theorem sources_agree_mixed :
    Feed.HasPairedReturns mixedText ∧ Utf8.isEncodable mixedText = true ∧
    mixedSession.disk.find (.ofText "a.txt".toText) = .found (.file (Utf8.encode mixedText)) ∧
    ∃ o : Outcome,
      mixedSession.perform (.ofClasses .empty) (.text mixedText) = o.announced .readingInline ∧
      mixedSession.perform (.ofClasses .empty) (.file (.ofText "a.txt".toText)) =
        o.announced (.readingText "a.txt".toText) := by
  have hreturns : Feed.HasPairedReturns mixedText := by decide +kernel
  have hencodable : Utf8.isEncodable mixedText = true := by decide +kernel
  have hfile : mixedSession.disk.find (.ofText "a.txt".toText) =
      .found (.file (Utf8.encode mixedText)) := by decide +kernel
  obtain ⟨o, htext, -, -, hpath, -⟩ :=
    mixedSession.sources_agree (.ofClasses .empty) mixedText (.ofText "a.txt".toText) hreturns
      hencodable hfile
  exact ⟨hreturns, hencodable, hfile, o, htext, hpath⟩

end Session
end Embargo
