import Embargo.Proofs.Gaps
import Embargo.Proofs.IncludeGraph
import Embargo.Proofs.KeptPrefix

/-!
# Texts of the user

A text of the user can be read to its end unless one of its lines offends: a line that cannot be
read, one that includes a catalog, or one whose record has a gap while gaps are not let pass.
Reading stops at the first line that does. Up to there each gap is told in a warning, and none is
ever passed over.

| what a line does | theorem |
|---|---|
| it is read, or it offends, and then it is the reason of the failure | `readLine_userLine` |
| all lines are read, or those before the first that offends | `readLines_userLines` |
| it has no part in whether an earlier line offends | `isAcceptable_concat` |

* `Line.said?` – what a line says, which is the same whatever the default message.
* `IsAcceptable`, `Offends` – no line offends; a line offends behind others. These speak of the
  lines alone, and of what the classes are said to be.
* `Session.text_reported` – the main statement.
-/

namespace Embargo

open Catalog

/-! ### What lines say -/

namespace Line

/-- What a line says, but for the default message; nothing if it is blank or a comment. -/
def said? (line : Text) : Option (Except SyntaxError Line) :=
  if isContent (Text.trim line) then some (Line.parse (Text.trim line) none) else none

variable {line : Text}

theorem said?_of_blank (hc : isContent (Text.trim line) = false) : said? line = none :=
  if_neg (by simp [hc])

/-- What a line says with a default message is what it says without one. -/
theorem said?_of_parse (hc : isContent (Text.trim line) = true) {m : Option Text}
    {said : Except SyntaxError Line} (hl : Line.parse (Text.trim line) m = said) :
    said? line =
      some (said.map (withMessage (effectiveMessage (splitMessage (Text.trim line)).2 none))) := by
  rw [said?, if_pos hc, parse_default (Text.trim line) m none, hl]

/-- A record is what it is with any default message, but for its own message. -/
theorem said?_of_record (hc : isContent (Text.trim line) = true) {m : Option Text} {r : Record}
    (hl : Line.parse (Text.trim line) m = .ok (.record r)) :
    ∃ m', said? line = some (.ok (.record { r with message := m' })) :=
  ⟨_, said?_of_parse hc hl⟩

theorem isReadable_iff : IsReadable line ↔ ∀ e, said? line ≠ some (.error e) := by
  unfold IsReadable said?
  cases isContent (Text.trim line) with
  | false => simp
  | true => cases Line.parse (Text.trim line) none <;> simp [Except.isOk, Except.toBool]

theorem included?_eq_some {name : Text} :
    included? line = some name ↔ said? line = some (.ok (.directive (.includeCatalog name))) := by
  unfold included? said?
  cases isContent (Text.trim line) with
  | false => simp
  | true =>
    cases Line.parse (Text.trim line) none with
    | error e => simp
    | ok said =>
      cases said with
      | record r => simp
      | directive d => cases d <;> simp

/-- The line asks to ignore gaps. -/
def asksToIgnore (line : Text) : Bool :=
  match said? line with
  | some (.ok (.directive .ignoreUnresolvable)) => true
  | _ => false

/-- The warning about the gap of the record that a line gives. -/
def warning? (u : Universe) (line : Text) : Option LogRecord :=
  match said? line with
  | some (.ok (.record r)) => (r.gap? u).map fun gap => gap.warning r.signature
  | _ => none

end Line

/-! ### Lines that offend -/

/-- The policy of a line of the user behind some other lines. -/
def Config.policyBehind (c : Config) (front : List Text) : Policy :=
  if front.any Line.asksToIgnore then .warn else c.firstPolicy

/-- **No line of a text of the user offends.** -/
structure IsAcceptable (c : Config) (u : Universe) (lines : List Text) : Prop where
  /-- Each line can be read. -/
  readable : ∀ line ∈ lines, IsReadable line
  /-- No line includes a catalog. -/
  includesNothing : ∀ line ∈ lines, included? line = none
  /-- If gaps are not let pass, the records before the first line that asks for it have none. -/
  accepted : c.failOnUnresolvable.isTrue = true →
    ∀ line ∈ lines.takeWhile fun line => !Line.asksToIgnore line,
      ∀ r, Line.said? line = some (.ok (.record r)) → r.isPattern = true ∨ r.isResolvedIn u = true

/-- **A line of the user offends behind some other lines**, and is the reason of a failure. -/
inductive Offends (c : Config) (u : Universe) (front : List Text) (line : Text) : LoadError → Prop
  /-- It cannot be read. -/
  | malformed {e : SyntaxError} (h : Line.said? line = some (.error e)) :
      Offends c u front line (.grammar e)
  /-- It includes a catalog. -/
  | inclusion {name : Text} (h : Line.said? line = some (.ok (.directive (.includeCatalog name)))) :
      Offends c u front line (.grammar (.directive (Text.trim line)))
  /-- Its record has a gap, and gaps are not let pass. -/
  | gap {r : Record} {gap : Gap} (h : Line.said? line = some (.ok (.record r)))
      (hgap : r.gap? u = some gap) (hpolicy : c.policyBehind front = .fail) :
      Offends c u front line (.unresolvable gap.reason r.signature)

section Offending

variable {c : Config} {u : Universe} {front lines : List Text} {line : Text} {e : LoadError}

theorem Config.policyBehind_eq_fail : c.policyBehind front = .fail ↔
    c.failOnUnresolvable.isTrue = true ∧ ∀ line ∈ front, Line.asksToIgnore line = false := by
  have hany : front.any Line.asksToIgnore = false ↔
      ∀ line ∈ front, Line.asksToIgnore line = false := by simp
  unfold policyBehind firstPolicy
  rw [← hany]
  cases front.any Line.asksToIgnore <;> cases c.failOnUnresolvable.isTrue <;> simp

theorem Config.policyBehind_concat : c.policyBehind (front ++ [line]) =
    if Line.asksToIgnore line then .warn else c.policyBehind front := by
  unfold policyBehind
  rw [List.any_append]
  cases h : Line.asksToIgnore line <;> cases front.any Line.asksToIgnore <;> simp [h]

theorem Config.policyBehind_ne_silent : c.policyBehind front ≠ .silent := by
  unfold policyBehind firstPolicy
  split
  · decide
  · split <;> decide

theorem isAcceptable_nil : IsAcceptable c u [] := ⟨by simp, by simp, by simp⟩

/-- A line with a record in which nothing is asked for. -/
theorem Line.asksToIgnore_of_record {r : Record} (h : said? line = some (.ok (.record r))) :
    asksToIgnore line = false := by
  rw [asksToIgnore, h]

/-- What stands at the end of a row is reached from its front if all of the row is passed. -/
theorem mem_takeWhile_concat {α : Type} {p : α → Bool} {xs : List α} {x y : α} :
    y ∈ (xs ++ [x]).takeWhile p ↔
      y ∈ xs.takeWhile p ∨ (∀ z ∈ xs, p z = true) ∧ p x = true ∧ y = x := by
  induction xs with
  | nil => cases h : p x <;> simp [h]
  | cons z xs ih => cases h : p z <;> simp [h, ih, or_assoc]

/-- **A text is acceptable if its last line does not offend**, and the text without it is. -/
theorem isAcceptable_concat : IsAcceptable c u (front ++ [line]) ↔
    IsAcceptable c u front ∧ ∀ e, ¬Offends c u front line e := by
  constructor
  · intro h
    refine ⟨⟨fun l hl => h.readable l (List.mem_append_left _ hl),
      fun l hl => h.includesNothing l (List.mem_append_left _ hl),
      fun hc l hl => h.accepted hc l (mem_takeWhile_concat.2 (.inl hl))⟩, fun e ho => ?_⟩
    have hmem : line ∈ front ++ [line] := by simp
    cases ho with
    | malformed he => exact Line.isReadable_iff.1 (h.readable line hmem) _ he
    | inclusion hname =>
      cases (h.includesNothing line hmem).symm.trans (Line.included?_eq_some.2 hname)
    | gap hr hgap hpolicy =>
      obtain ⟨hc, hfront⟩ := Config.policyBehind_eq_fail.1 hpolicy
      have hreached : line ∈ (front ++ [line]).takeWhile fun line => !Line.asksToIgnore line :=
        mem_takeWhile_concat.2
          (.inr ⟨by simpa using hfront, by simp [Line.asksToIgnore_of_record hr], rfl⟩)
      have hnone := Record.gap?_eq_none.2
        (by simpa [Record.isAcceptedIn] using h.accepted hc line hreached _ hr)
      cases hgap.symm.trans hnone
  · rintro ⟨h, hline⟩
    refine ⟨fun l hl => ?_, fun l hl => ?_, fun hc l hl r hr => ?_⟩
    · rcases List.mem_append.1 hl with hl | hl
      · exact h.readable l hl
      · obtain rfl := List.mem_singleton.1 hl
        exact Line.isReadable_iff.2 fun e he => hline _ (.malformed he)
    · rcases List.mem_append.1 hl with hl | hl
      · exact h.includesNothing l hl
      · obtain rfl := List.mem_singleton.1 hl
        exact Option.eq_none_iff_forall_ne_some.2 fun name hname =>
          hline _ (.inclusion (Line.included?_eq_some.1 hname))
    · rcases mem_takeWhile_concat.1 hl with hl | ⟨hfront, -, rfl⟩
      · exact h.accepted hc l hl r hr
      · have hpolicy : c.policyBehind front = .fail :=
          Config.policyBehind_eq_fail.2 ⟨hc, by simpa using hfront⟩
        have hnone : r.gap? u = none :=
          Option.eq_none_iff_forall_ne_some.2 fun gap hgap => hline _ (.gap hr hgap hpolicy)
        simpa [Record.isAcceptedIn] using Record.gap?_eq_none.1 hnone

/-- No line of an acceptable text offends. -/
theorem IsAcceptable.not_offends {back : List Text} (h : IsAcceptable c u lines)
    (hlines : lines = front ++ line :: back) : ¬Offends c u front line e := by
  subst hlines
  induction back using List.reverseRecOn with
  | nil => exact (isAcceptable_concat.1 h).2 e
  | append_singleton back last ih =>
    rw [← List.cons_append, ← List.append_assoc] at h
    exact ih (isAcceptable_concat.1 h).1

/-- What an offending line is reported as: text that cannot be read, and more precisely a record
that does not resolve exactly if the line is a record with a gap. -/
theorem Offends.problem_eq (h : Offends c u front line e) :
    ∃ f, e.problem = .failure f ∧ .parse ∈ f.kind.withAncestors ∧
      (f.kind = .unresolvable ↔
        ∃ r, Line.said? line = some (.ok (.record r)) ∧ r.gap? u ≠ none) := by
  cases h with
  | malformed he =>
    exact ⟨_, rfl, List.mem_cons_self, by simp [Failure.parse, he]⟩
  | inclusion hname =>
    exact ⟨_, rfl, List.mem_cons_self, by simp [Failure.parse, hname]⟩
  | gap hr hgap hpolicy =>
    exact ⟨_, rfl, List.mem_cons_of_mem _ List.mem_cons_self,
      by simp [Failure.unresolvable, hr, hgap]⟩

/-- An offending line is told as it is, not as a refusal of the system. -/
theorem Offends.within_eq (h : Offends c u front line e) (name : Text) : e.within name = e := by
  cases h <;> rfl

end Offending

/-! ### What lines do -/

/-- An event that needs the silent policy: a record is considered under it, a class is kept for the
summary, or the summary is told. -/
def Event.needsSilence : Event → Bool
  | .considered _ policy => policy = .silent
  | .deferred _ | .missingClasses | .summary _ => true
  | _ => false

theorem Event.needsSilence_entriesOf {t : Trace} :
    (∀ e ∈ t, Event.needsSilence e = false) ↔ ∀ e ∈ entriesOf t, Event.needsSilence e = false := by
  constructor
  · exact fun h e he => h e (List.mem_of_mem_filter he)
  · intro h e he
    cases hentry : e.isEntry with
    | true => exact h e (List.mem_filter.2 ⟨he, hentry⟩)
    | false => cases e <;> first | rfl | cases hentry

theorem Missing.foldl_follow_of_needsSilence {t : Trace}
    (h : ∀ e ∈ t, Event.needsSilence e = false) (names : List Text) :
    t.foldl follow names = names := by
  induction t with
  | nil => rfl
  | cons e t ih =>
    have hhead : follow names e = names := by
      have he := h e List.mem_cons_self
      cases e with
      | deferred r => cases he
      | _ => rfl
    rw [List.foldl_cons, hhead]
    exact ih fun e' he' => h e' (List.mem_cons_of_mem e he')

theorem Record.needsSilence_of_mem_entries {r : Record} {policy : Policy} (h : policy ≠ .silent)
    {u : Universe} : ∀ e ∈ r.entries policy u, e.needsSilence = false := by
  unfold entries
  cases policy with
  | silent => exact absurd rfl h
  | fail | warn =>
    cases r.gap? u <;> simp [Policy.notice, Policy.collectsMissing, Policy.report,
      Event.needsSilence]

/-- **What is told of the lines of a user**: each gap in a warning. None is passed over. -/
def Warns (u : Universe) (lines : List Text) (p q : Progress) : Prop :=
  ∃ entries, Accounts entries p q ∧ warningsOf entries = lines.filterMap (Line.warning? u) ∧
    ∀ e ∈ entries, Event.needsSilence e = false

namespace Warns

variable {u : Universe} {lines lines' : List Text} {line : Text} {p q q' : Progress}

theorem refl : Warns u [] p p := ⟨[], .refl, rfl, by simp⟩

theorem trans (h : Warns u lines p q) (h' : Warns u lines' q q') :
    Warns u (lines ++ lines') p q' := by
  obtain ⟨entries, haccounts, hwarnings, hquiet⟩ := h
  obtain ⟨entries', haccounts', hwarnings', hquiet'⟩ := h'
  refine ⟨entries ++ entries', haccounts.trans haccounts', ?_, fun e he => ?_⟩
  · rw [warningsOf_append, hwarnings, hwarnings', List.filterMap_append]
  · exact (List.mem_append.1 he).elim (hquiet e) (hquiet' e)

/-- A line without a record tells no gap. -/
theorem of_no_record (h : Accounts [] p q) (hline : Line.warning? u line = none) :
    Warns u [line] p q :=
  ⟨[], h, by simp [hline, warningsOf], by simp⟩

/-- A record is told by its gap, unless the policy is strict. -/
theorem of_record {r : Record} {m : Option Text}
    (hsaid : Line.said? line = some (.ok (.record { r with message := m })))
    (hview : p.classes.view = u.view) {policy : Policy}
    (hpasses : ∀ gap, r.gap? u = some gap → policy ≠ .fail) (hpolicy : policy ≠ .silent) :
    Warns u [line] p (readRecord policy r p).2 := by
  refine ⟨_, .record policy r p, ?_, Record.needsSilence_of_mem_entries hpolicy⟩
  have hline : Line.warning? u line = (r.gap? u).map fun gap => gap.warning r.signature := by
    rw [Line.warning?, hsaid]
    rfl
  rw [Record.warningsOf_entries, r.gap?_congr hview, List.filterMap_cons, hline]
  cases hgap : r.gap? u with
  | none => simp
  | some gap =>
    cases policy with
    | fail => exact absurd rfl (hpasses gap hgap)
    | silent => exact absurd rfl hpolicy
    | warn => rfl

/-- What is told by a call that begins with an event which is no entry. -/
theorem of_start {r : Registry} {e : Event} (he : e.isEntry = false)
    (h : Warns u lines (r.start.note [e]) q) : q.missing = [] ∧
      warningsOf q.trace = lines.filterMap (Line.warning? u) ∧
      ∀ e ∈ q.trace, Event.needsSilence e = false := by
  have hnote : Accounts [] r.start (r.start.note [e]) := .note (by simpa using he)
  obtain ⟨entries, haccounts, hwarnings, hquiet⟩ := h
  obtain ⟨-, hmissing, t, ht, hentries⟩ := hnote.trans haccounts
  obtain rfl : q.trace = t := ht
  rw [List.nil_append] at hmissing hentries
  refine ⟨?_, ?_, ?_⟩
  · rw [hmissing, Missing.foldl_follow_of_needsSilence hquiet]
    rfl
  · rw [← warningsOf_entriesOf, hentries, hwarnings]
  · rw [Event.needsSilence_entriesOf, hentries]
    exact hquiet

end Warns

section Lines

variable {c : Config} {u : Universe} {front lines : List Text} {line : Text} {scope : Scope}
  {p : Progress} (expand : Text → Progress → Reading Unit)

/-- **What a line of the user comes to**, behind other lines that were read: it is read, and gives
the policy of the line behind it, or it offends. -/
inductive UserLine (c : Config) (u : Universe) (front : List Text) (line : Text) (p : Progress) :
    Reading Scope → Prop
  /-- It is read. -/
  | read {scope : Scope} {q : Progress} (ho : ∀ e, ¬Offends c u front line e)
      (hscope : scope.policy = c.policyBehind (front ++ [line])) (hq : Warns u [line] p q) :
      UserLine c u front line p (.ok scope, q)
  /-- It offends, and tells no gap. -/
  | offends {e : LoadError} {q : Progress} (ho : Offends c u front line e) (hq : Warns u [] p q) :
      UserLine c u front line p (.error e, q)

variable (line) in
theorem readLine_userLine (hscope : scope.policy = c.policyBehind front)
    (hview : p.classes.view = u.view) :
    UserLine c u front line p (readLine .user expand line scope p) := by
  generalize hres : readLine .user expand line scope p = res
  have hreading := hres ▸ readLine_reading .user expand line scope p
  -- A line offends by what it says, and so does it change the policy of the line behind it.
  have hpolicy {said : Option (Except SyntaxError Line)} (hsaid : Line.said? line = said)
      (hne : said ≠ some (.ok (.directive .ignoreUnresolvable))) :
      scope.policy = c.policyBehind (front ++ [line]) := by
    have hasks : Line.asksToIgnore line = false := by
      rw [Line.asksToIgnore, hsaid]
      split
      · exact absurd rfl hne
      · rfl
    rw [Config.policyBehind_concat, hasks]
    exact hscope
  cases hreading with
  | skipped hc =>
    have hsaid := Line.said?_of_blank hc
    refine .read ?_ (hpolicy hsaid (by simp)) (.of_no_record .refl (by rw [Line.warning?, hsaid]))
    rintro e (h | h | ⟨h, -, -⟩) <;> cases hsaid.symm.trans h
  | malformed hc hl => exact .offends (.malformed (Line.said?_of_parse hc hl)) .refl
  | @record r q hc hl hr =>
    obtain ⟨m, hsaid⟩ := Line.said?_of_record hc hl
    have hpasses (gap : Gap) (hgap : r.gap? u = some gap) : c.policyBehind front ≠ .fail := by
      intro hfail
      have herror := readRecord_eq_error_iff.2
        ⟨hscope.trans hfail, gap, (r.gap?_congr hview).trans hgap, rfl⟩
      cases (congrArg Prod.fst hr).symm.trans herror
    obtain rfl : (readRecord scope.policy r p).2 = q := congrArg Prod.snd hr
    refine .read ?_ (hpolicy hsaid nofun) (.of_record hsaid hview ?_ ?_)
    · rintro e (h | h | ⟨h, hgap, hfail⟩)
      · cases hsaid.symm.trans h
      · cases hsaid.symm.trans h
      · obtain rfl := Line.record.inj (Except.ok.inj (Option.some.inj (hsaid.symm.trans h)))
        exact hpasses _ hgap hfail
    · exact fun gap hgap => hscope ▸ hpasses gap hgap
    · exact hscope ▸ Config.policyBehind_ne_silent
  | @recordFailed r e q hc hl hr =>
    obtain ⟨m, hsaid⟩ := Line.said?_of_record hc hl
    obtain ⟨hfail, gap, hgap, rfl⟩ := readRecord_eq_error_iff.1 (congrArg Prod.fst hr)
    obtain rfl : (readRecord scope.policy r p).2 = q := congrArg Prod.snd hr
    have ho := Offends.gap hsaid ((r.gap?_congr hview).symm.trans hgap) (hscope ▸ hfail)
    refine .offends ho ⟨_, .record scope.policy r p, ?_, ?_⟩
    · rw [Record.warningsOf_entries, if_neg (by simp [hfail])]
      rfl
    · exact Record.needsSilence_of_mem_entries (by simp [hfail])
  | includeRefused hc hl ho =>
    exact .offends (.inclusion (Line.said?_of_parse hc hl)) ⟨[], .directive _, rfl, by simp⟩
  | included hc hl ho hx => cases ho
  | includeFailed hc hl ho hx => cases ho
  | message hc hl =>
    have hsaid := Line.said?_of_parse hc hl
    refine .read ?_ (hpolicy hsaid nofun)
      (.of_no_record (.directive _) (by rw [Line.warning?, hsaid]; rfl))
    rintro e (h | h | ⟨h, -, -⟩) <;> cases hsaid.symm.trans h
  | lenient hc hl =>
    have hsaid := Line.said?_of_parse hc hl
    refine .read ?_ ?_ (.of_no_record (.directive _) (by rw [Line.warning?, hsaid]; rfl))
    · rintro e (h | h | ⟨h, -, -⟩) <;> cases hsaid.symm.trans h
    · rw [Config.policyBehind_concat, Line.asksToIgnore, hsaid]
      rfl

/-- **What the lines of a user come to.** -/
inductive UserLines (c : Config) (lines : List Text) (p : Progress) : Reading Scope → Prop
  /-- All lines are read. -/
  | read {scope : Scope} {q : Progress} (ha : IsAcceptable c p.classes lines)
      (hscope : scope.policy = c.policyBehind lines) (hq : Warns p.classes lines p q) :
      UserLines c lines p (.ok scope, q)
  /-- The lines are read up to the first that offends. -/
  | offends {front back : List Text} {line : Text} {e : LoadError} {q : Progress}
      (hlines : lines = front ++ line :: back) (ha : IsAcceptable c p.classes front)
      (ho : Offends c p.classes front line e) (hq : Warns p.classes front p q) :
      UserLines c lines p (.error e, q)

variable (c lines p) in
/-- **The lines of a user are read up to the first that offends.** -/
theorem readLines_userLines :
    UserLines c lines p (readLines .user expand lines c.firstScope p) := by
  induction lines using List.reverseRecOn with
  | nil => exact .read isAcceptable_nil rfl .refl
  | append_singleton front line ih =>
    rw [readLines_append]
    generalize readLines .user expand front c.firstScope p = res at ih
    cases ih with
    | offends hlines ha ho hq =>
      exact .offends (by rw [hlines, List.append_assoc, List.cons_append]) ha ho hq
    | @read scope q ha hscope hq =>
      obtain ⟨entries, haccounts, -⟩ := id hq
      change UserLines c _ p (readLines .user expand [line] scope q)
      rw [readLines_cons_eq]
      have hline := readLine_userLine line expand hscope haccounts.view
      generalize readLine .user expand line scope q = res' at hline
      cases hline with
      | read ho hscope' hq' =>
        exact .read (isAcceptable_concat.2 ⟨ha, ho⟩) hscope' (hq.trans hq')
      | offends ho hq' =>
        refine .offends rfl ha ho ?_
        have hboth := hq.trans hq'
        rwa [List.append_nil] at hboth

end Lines

/-! ### Calls -/

/-- **How far a text of the user is read**: to its end, or up to the first line that offends. -/
inductive IsReadUpTo (c : Config) (u : Universe) (lines : List Text) :
    Option LoadError → List Text → Prop
  /-- No line offends. -/
  | end (ha : IsAcceptable c u lines) : IsReadUpTo c u lines none lines
  /-- The line behind those that are read is the first that offends, and the reason of the failure.
  -/
  | offending {front back : List Text} {line : Text} {e : LoadError}
      (hlines : lines = front ++ line :: back) (ha : IsAcceptable c u front)
      (ho : Offends c u front line e) : IsReadUpTo c u lines (some e) front

/-- Reading goes through exactly if no line offends. -/
theorem IsReadUpTo.eq_none_iff {c : Config} {u : Universe} {lines read : List Text}
    {failure : Option LoadError} (h : IsReadUpTo c u lines failure read) :
    failure = none ↔ IsAcceptable c u lines := by
  cases h with
  | «end» ha => exact iff_of_true rfl ha
  | offending hsplit ha ho => exact iff_of_false nofun fun h => h.not_offends hsplit ho

namespace Session

/-- The call for a text reads up to the first line that offends, tells each gap on the way, and
keeps nothing for a summary. -/
theorem exists_isReadUpTo (s : Session) (r : Registry) (t : Text) :
    let outcome := s.perform r (.text t)
    ∃ read, IsReadUpTo s.config r.classes (Text.split '\n' t) outcome.failure read ∧
      outcome.missing = [] ∧ warningsOf outcome.trace = read.filterMap (Line.warning? r.classes) ∧
      ∀ e ∈ outcome.trace, e.needsSilence = false := by
  intro outcome
  have houtcome : outcome = s.config.outcomeOf
      ((Feed.ofText t).finish "<inline>".toText (s.readInline r (Text.split '\n' t))) :=
    s.perform_text_eq r t
  have hlines := readLines_userLines s.config (Text.split '\n' t) (r.start.note [.readingInline])
    (fun _ p => (.ok (), p))
  change UserLines s.config _ _ (s.readInline r (Text.split '\n' t)) at hlines
  rw [houtcome]
  generalize s.readInline r (Text.split '\n' t) = res at hlines
  cases hlines with
  | @read scope q ha hscope hq =>
    have hq := hq.of_start rfl
    have htrace : (s.config.outcomeOf ((Feed.ofText t).finish "<inline>".toText
        (.ok scope, q))).trace = q.trace := by
      change q.trace ++ s.config.summaryOf q.missing = q.trace
      rw [hq.1]
      exact List.append_nil _
    rw [htrace]
    exact ⟨_, .end ha, hq⟩
  | offends hsplit ha ho hq =>
    refine ⟨_, ?_, hq.of_start rfl⟩
    have hoffending := IsReadUpTo.offending hsplit ha ho
    rwa [← ho.within_eq "<inline>".toText] at hoffending

/-- **What a text of the user comes to.** The call for it goes through exactly if none of its lines
offends, and otherwise fails for the first that does, which is told as text that cannot be read, and
more precisely as a record that does not resolve exactly if it is a record with a gap. Up to there
each gap is told in one warning, in the order of the lines, and there are no other warnings. No
record is considered under the silent policy, no class is kept for the summary, and none is told. -/
theorem text_reported (s : Session) (r : Registry) (t : Text) :
    let outcome := s.perform r (.text t)
    let lines := Text.split '\n' t
    (outcome.failure = none ↔ IsAcceptable s.config r.classes lines) ∧
    (∃ read, IsReadUpTo s.config r.classes lines outcome.failure read ∧
      warningsOf outcome.trace = read.filterMap (Line.warning? r.classes)) ∧
    (∀ {front line e}, Offends s.config r.classes front line e →
      ∃ f, e.problem = .failure f ∧ .parse ∈ f.kind.withAncestors ∧
        (f.kind = .unresolvable ↔
          ∃ record, Line.said? line = some (.ok (.record record)) ∧
            record.gap? r.classes ≠ none)) ∧
    outcome.missing = [] ∧ ∀ e ∈ outcome.trace, e.needsSilence = false := by
  intro outcome lines
  obtain ⟨read, hread, hmissing, hwarnings, hquiet⟩ := s.exists_isReadUpTo r t
  exact ⟨hread.eq_none_iff, ⟨read, hread, hwarnings⟩, Offends.problem_eq, hmissing, hquiet⟩

end Session
end Embargo
