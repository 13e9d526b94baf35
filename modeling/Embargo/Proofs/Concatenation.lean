import Embargo.Proofs.GlobSegments
import Embargo.Proofs.Sources
import Embargo.Proofs.UserTexts

/-!
# Texts in parts

All that one line of a text hands on to the next is the scope: the policy about gaps and the default
message. So a text whose lines leave the scope that they began with can be given apart from what
follows it, and a line that is blank or a comment can stand anywhere.

| lines | what they leave | theorem |
|---|---|---|
| a line that is read | the scope that it says | `scope_of_readLine` |
| lines that are read | the scope that the last of them say | `scope_of_readLines` |
| lines that ask for nothing and clear the message | the first scope | `LeavesScope.scope_eq` |
| blank lines and comments | everything | `readLines_filter_content` |

* `Session.readInline_append` – a text in two parts, for lines.
* `Session.text_concat` – the main statement.
-/

namespace Embargo

open Catalog

/-! ### What lines hand on -/

/-- The default message that the line sets, or clears; nothing if it does neither. -/
def Line.setMessage? (line : Text) : Option (Option Text) :=
  match said? line with
  | some (.ok (.directive (.defaultMessage message))) => some message
  | _ => none

/-- The default message that the last of some lines sets that set or clear one. -/
def Line.lastMessage? (lines : List Text) : Option (Option Text) :=
  (lines.filterMap setMessage?).getLast?

section Scopes

variable {origin : Origin} {expand : Text → Progress → Reading Unit} {scope scope' : Scope}
  {p q : Progress}

/-- **What a line hands on** is the scope, with what it says of it. -/
theorem scope_of_readLine {line : Text}
    (h : readLine origin expand line scope p = (.ok scope', q)) :
    scope' = ⟨if Line.asksToIgnore line then origin.lenientPolicy else scope.policy,
      (Line.setMessage? line).getD scope.message⟩ := by
  have hreading := readLine_reading origin expand line scope p
  rw [h] at hreading
  unfold Line.asksToIgnore Line.setMessage?
  cases hreading with
  | skipped hc => rw [Line.said?_of_blank hc]; rfl
  | record hc hl hr => rw [Line.said?_of_parse hc hl]; rfl
  | included hc hl ho hx => rw [Line.said?_of_parse hc hl]; rfl
  | message hc hl => rw [Line.said?_of_parse hc hl]; rfl
  | lenient hc hl => rw [Line.said?_of_parse hc hl]; rfl

/-- **What lines hand on**: whether one of them asked to ignore gaps, and the last message. -/
theorem scope_of_readLines {lines : List Text}
    (h : readLines origin expand lines scope p = (.ok scope', q)) :
    scope' = ⟨if lines.any Line.asksToIgnore then origin.lenientPolicy else scope.policy,
      (Line.lastMessage? lines).getD scope.message⟩ := by
  induction lines generalizing scope p with
  | nil =>
    obtain ⟨hscope, -⟩ := Prod.mk.inj h
    obtain rfl := Except.ok.inj hscope
    rfl
  | cons line lines ih =>
    rw [readLines_cons_eq] at h
    generalize hline : readLine origin expand line scope p = a at h
    obtain ⟨e | between, q'⟩ := a
    · cases h
    · rw [ih h, scope_of_readLine hline]
      unfold Line.lastMessage?
      rw [List.any_cons, List.filterMap_cons]
      congr 1
      · cases Line.asksToIgnore line <;> cases lines.any Line.asksToIgnore <;> rfl
      · cases Line.setMessage? line with
        | none => rfl
        | some message =>
          rw [List.getLast?_cons]
          cases (lines.filterMap Line.setMessage?).getLast? <;> rfl

/-- **Lines that leave the first scope of a text**: none asks to ignore gaps, and the last that says
something of the default message clears it. -/
structure LeavesScope (lines : List Text) : Prop where
  /-- None asks to ignore gaps. -/
  asksNothing : ∀ line ∈ lines, Line.asksToIgnore line = false
  /-- The last message is none, if there is any. -/
  clears : ∀ message, Line.lastMessage? lines = some message → message = none

/-- Lines that leave the first scope of a text behind it are as good as none before it. -/
theorem LeavesScope.scope_eq {lines : List Text} (hl : LeavesScope lines) {c : Config}
    (h : readLines origin expand lines c.firstScope p = (.ok scope, q)) : scope = c.firstScope := by
  have hany : lines.any Line.asksToIgnore = false := by simpa using hl.asksNothing
  have hmessage : (Line.lastMessage? lines).getD none = none := by
    cases hlast : Line.lastMessage? lines with
    | none => rfl
    | some message => exact hl.clears message hlast
  rw [scope_of_readLines h, hany]
  change Scope.mk c.firstPolicy ((Line.lastMessage? lines).getD none) = ⟨c.firstPolicy, none⟩
  rw [hmessage]

/-! ### Lines that say nothing -/

/-- **Blank lines and comments are as good as none.** -/
theorem readLines_filter_content (lines : List Text) (scope : Scope) (p : Progress) :
    readLines origin expand (lines.filter fun line => isContent (Text.trim line)) scope p =
      readLines origin expand lines scope p := by
  induction lines generalizing scope p with
  | nil => rfl
  | cons line lines ih =>
    cases hc : isContent (Text.trim line) with
    | false =>
      rw [List.filter_cons_of_neg (by simp [hc]), readLines_cons_eq, readLine_of_blank hc]
      exact ih scope p
    | true =>
      rw [List.filter_cons_of_pos (by simp [hc]), readLines_cons_eq, readLines_cons_eq]
      exact congrArg _ (funext fun scope => funext fun p => ih scope p)

theorem readLines_insert_blank {front blank back : List Text}
    (hblank : ∀ line ∈ blank, isContent (Text.trim line) = false) (scope : Scope) (p : Progress) :
    readLines origin expand (front ++ blank ++ back) scope p =
      readLines origin expand (front ++ back) scope p := by
  have hnone : (blank.filter fun line => isContent (Text.trim line)) = [] :=
    List.filter_eq_nil_iff.2 fun line hline => by simp [hblank line hline]
  rw [← readLines_filter_content, ← readLines_filter_content (front ++ back), List.filter_append,
    List.filter_append, List.filter_append, hnone, List.append_nil]

end Scopes

/-! ### What happened before -/

/-- Nothing is summed up if nothing was kept for it. -/
theorem Config.append_summaryOf (c : Config) {missing : List Text} (h : missing = []) (t : Trace) :
    t ++ c.summaryOf missing = t := by
  subst h
  exact List.append_nil t

/-- The outcome with events before those that happened. -/
def Outcome.after (o : Outcome) (front : Trace) : Outcome := { o with trace := front ++ o.trace }

namespace Session

variable (s : Session) (r : Registry)

/-- The outcome of a text of which the lines are read. -/
def inlineOutcome (a : Reading Scope) : Outcome :=
  s.config.outcomeOf ((Feed.ofText []).finish "<inline>".toText a)

theorem perform_text_eq_inlineOutcome (t : Text) :
    s.perform r (.text t) = s.inlineOutcome (s.readInline r (Text.split '\n' t)) :=
  s.perform_text_eq r t

theorem inlineOutcome_after (a : Reading Scope) (front : Trace) :
    s.inlineOutcome (a.after front) = (s.inlineOutcome a).after front := by
  obtain ⟨e | scope, q⟩ := a
  · rfl
  · exact congrArg (Outcome.mk none ⟨q.index, q.classes⟩ q.missing) (List.append_assoc _ _ _)

/-! ### Lines in two parts -/

/-- The lines of the user keep no class for a summary, wherever they come from. -/
theorem missing_readLines_user (lines : List Text) {event : Event} (h : event.isEntry = false) :
    (readLines .user (fun _ p => (.ok (), p)) lines s.config.firstScope
      (r.start.note [event])).2.missing = [] := by
  have hlines := readLines_userLines s.config lines (r.start.note [event]) (fun _ p => (.ok (), p))
  generalize readLines .user _ lines s.config.firstScope (r.start.note [event]) = res at hlines ⊢
  cases hlines with
  | read ha hscope hq => exact (hq.of_start h).1
  | offends hsplit ha ho hq => exact (hq.of_start h).1

/-- The lines of the user leave a state that a call can begin with, but for what happened. -/
theorem progress_readInline {lines : List Text} {res : Except LoadError Scope} {q : Progress}
    (h : s.readInline r lines = (res, q)) :
    q = (Registry.start ⟨q.index, q.classes⟩).after q.trace := by
  have hmissing : (s.readInline r lines).2.missing = [] := s.missing_readLines_user r lines rfl
  rw [h] at hmissing
  obtain ⟨index, classes, missing, trace⟩ := q
  obtain rfl : missing = [] := hmissing
  simp [Progress.after, Registry.start]

variable {s r}

/-- **Lines that leave the first scope of a text can be read apart from the lines behind them.**
Either way those are read alike, after what the first lines told and after what a call tells. -/
theorem readInline_append {front : List Text} (hfront : LeavesScope front) {scope : Scope}
    {q : Progress} (hok : s.readInline r front = (.ok scope, q)) (back : List Text) :
    ∃ a : Reading Scope, s.readInline r (front ++ back) = a.after q.trace ∧
      s.readInline ⟨q.index, q.classes⟩ back = a.after [.readingInline] := by
  have hafter (events : Trace) : readLines .user (fun _ p => (.ok (), p)) back s.config.firstScope
      ((Registry.start ⟨q.index, q.classes⟩).after events) =
        (readLines .user (fun _ p => (.ok (), p)) back s.config.firstScope
          (Registry.start ⟨q.index, q.classes⟩)).after events :=
    readLines_after (fun _ _ => rfl) back _ _
  obtain rfl : scope = s.config.firstScope := hfront.scope_eq hok
  refine ⟨_, ?_, hafter [.readingInline]⟩
  have hboth : s.readInline r (front ++ back) =
      (s.readInline r front).andThen fun scope p =>
        readLines .user (fun _ p => (.ok (), p)) back scope p := readLines_append _ _ _ _
  rw [hboth, hok, ← hafter q.trace, ← s.progress_readInline r hok]
  rfl

/-! ### Texts in two parts -/

/-- A text in two parts comes to what the second part comes to behind the first, which is to say in
the registry that it leaves and after what it told. -/
theorem perform_text_append {a : Text} (hok : (s.perform r (.text a)).failure = none)
    (ha : LeavesScope (Text.split '\n' a)) (b : Text) :
    ∃ o : Outcome,
      s.perform (s.perform r (.text a)).registry (.text b) = o.after [.readingInline] ∧
        s.perform r (.text (a ++ .char '\n' :: b)) = o.after (s.perform r (.text a)).trace := by
  simp only [perform_text_eq_inlineOutcome, Text.split_append] at hok ⊢
  generalize hread : s.readInline r (Text.split '\n' a) = res at hok ⊢
  obtain ⟨e | scope, q⟩ := res
  · cases hok
  obtain ⟨x, hwhole, hsecond⟩ := readInline_append ha hread (Text.split '\n' b)
  have hregistry : (s.inlineOutcome (.ok scope, q)).registry = ⟨q.index, q.classes⟩ := rfl
  have htrace : (s.inlineOutcome (.ok scope, q)).trace = q.trace :=
    s.config.append_summaryOf (congrArg Progress.missing (s.progress_readInline r hread)) q.trace
  rw [hregistry, htrace, hwhole, hsecond, inlineOutcome_after, inlineOutcome_after]
  exact ⟨_, rfl, rfl⟩

/-- Blank lines and comments can stand anywhere in a text. -/
theorem perform_text_insert {t : Text} {front blank back : List Text}
    (hsplit : Text.split '\n' t = front ++ back)
    (hblank : ∀ line ∈ blank, CodePoint.char '\n' ∉ line ∧ isContent (Text.trim line) = false) :
    s.perform r (.text (Text.join ['\n'] (front ++ blank ++ back))) = s.perform r (.text t) := by
  have hlines : ∀ line ∈ front ++ blank ++ back, CodePoint.char '\n' ∉ line := by
    intro line hline hc
    rw [List.append_assoc, List.mem_append, List.mem_append, or_left_comm] at hline
    rcases hline with hline | hline
    · exact (hblank line hline).1 hc
    · exact (Text.of_mem_split (hsplit ▸ List.mem_append.2 hline) hc).1 rfl
  have hread : s.readInline r (Text.split '\n' (Text.join ['\n'] (front ++ blank ++ back))) =
      s.readInline r (Text.split '\n' t) := by
    rw [hsplit]
    exact (readLines_split_join hlines _ _).trans
      (readLines_insert_blank (fun line hline => (hblank line hline).2) _ _)
  rw [perform_text_eq_inlineOutcome, perform_text_eq_inlineOutcome, hread]

/-- **A text of the user can be given in two parts**, as two calls one after the other, if the first
part goes through and leaves the scope that a text begins with: it asks for no gaps to be ignored,
and its last line about the default message clears it. The second call fails as the one call does,
or goes through like it, and leaves the same registry; together the two calls tell the same, but
that each begins with telling that it reads. Blank lines and comments between any two lines of a
text, or at its ends, are of no account at all. -/
theorem text_concat (s : Session) (r : Registry) :
    (∀ a b : Text, let first := s.perform r (.text a)
      first.failure = none →
      (∀ line ∈ Text.split '\n' a, Line.asksToIgnore line = false) →
      (∀ message, Line.lastMessage? (Text.split '\n' a) = some message → message = none) →
      let second := s.perform first.registry (.text b)
      let whole := s.perform r (.text (a ++ .char '\n' :: b))
      whole.failure = second.failure ∧ whole.registry = second.registry ∧
        whole.missing = second.missing ∧
        ∃ told, second.trace = .readingInline :: told ∧ whole.trace = first.trace ++ told) ∧
    ∀ (t : Text) (front blank back : List Text), Text.split '\n' t = front ++ back →
      (∀ line ∈ blank, CodePoint.char '\n' ∉ line ∧ isContent (Text.trim line) = false) →
      s.perform r (.text (Text.join ['\n'] (front ++ blank ++ back))) = s.perform r (.text t) := by
  constructor
  · intro a b first hok hasks hclears second whole
    obtain ⟨o, hsecond, hwhole⟩ := perform_text_append hok ⟨hasks, hclears⟩ b
    rw [show second = _ from hsecond, show whole = _ from hwhole]
    exact ⟨rfl, rfl, rfl, o.trace, rfl, rfl⟩
  · intro t front blank back hsplit hblank
    exact perform_text_insert hsplit hblank

/-- A text that sets a default message, uses it and clears it. -/
def clearingText : Text := "@defaultMessage m\na.*\n@defaultMessage".toText

/-- This text can stand before one that gives its pattern another message and then fails, and
comments can stand in it. -/
theorem text_concat_clearing :
    let s : Session := ⟨{}, .bundled, ⟨⟨[]⟩, []⟩⟩
    let r := Registry.ofClasses .empty
    let first := s.perform r (.text clearingText)
    let second := s.perform first.registry (.text "a.*\nc.C".toText)
    let whole := s.perform r (.text (clearingText ++ .char '\n' :: "a.*\nc.C".toText))
    first.registry ≠ second.registry ∧ second.failure.isSome = true ∧
    whole.failure = second.failure ∧ whole.registry = second.registry ∧
    s.perform r (.text "@defaultMessage m\n  # x\n\na.*\n@defaultMessage".toText) = first := by
  intro s r first second whole
  obtain ⟨hconcat, hinsert⟩ := text_concat s r
  have hlast : Line.lastMessage? (Text.split '\n' clearingText) = some none := by decide +kernel
  obtain ⟨hfailure, hregistry, -⟩ := hconcat clearingText "a.*\nc.C".toText
    (by decide +kernel) (by decide +kernel)
    fun message hmessage => (Option.some.inj (hlast.symm.trans hmessage)).symm
  exact ⟨by decide +kernel, by decide +kernel, hfailure, hregistry,
    hinsert clearingText ["@defaultMessage m".toText] ["  # x".toText, []]
      ["a.*".toText, "@defaultMessage".toText] (by decide +kernel) (by decide +kernel)⟩

end Session
end Embargo
