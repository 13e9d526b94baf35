import Embargo.Proofs.Comparison

/-!
# Where a reader of lines stops

A reader of lines goes on up to the first line that fails. That line forbids nothing, unless it
includes a catalog, and the lines after it are not read.

* `StopsAt` – the line at which a reader stops, with what it is read from. A reader that fails stops
  at one of its lines (`readLines_stopsAt`), and so does each reader of the first lines, once that
  line is among them (`StopsAt.take_of_lt`).
* `index_of_readLine`, `eq_of_readLine` – what the line that fails leaves.
-/

namespace Embargo

open Catalog

/-! ### Where a reader of lines stops -/

section Lines

variable {origin : Origin} {expand : Text → Progress → Reading Unit}

/-- **A reader of lines stops at a line**: those before it go through. -/
structure StopsAt (origin : Origin) (expand : Text → Progress → Reading Unit) (lines : List Text)
    (first : Scope) (p : Progress) (k : Nat) (line : Text) (scope : Scope) (q : Progress)
    (e : LoadError) (last : Progress) : Prop where
  /-- The line has this number, counted from zero. -/
  at_line : lines[k]? = some line
  /-- The lines before it go through. -/
  before : readLines origin expand (lines.take k) first p = (.ok scope, q)
  /-- The line itself does not. -/
  stops : readLine origin expand line scope q = (.error e, last)

/-- **A reader of lines that fails stops at one of them.** -/
theorem readLines_stopsAt {lines : List Text} {first : Scope} {p last : Progress} {e : LoadError}
    (h : readLines origin expand lines first p = (.error e, last)) :
    ∃ k line scope q, StopsAt origin expand lines first p k line scope q e last := by
  induction lines generalizing first p with
  | nil => cases h
  | cons line lines ih =>
    rw [readLines_cons_eq] at h
    generalize hline : readLine origin expand line first p = a at h
    obtain ⟨e' | scope, q⟩ := a
    · exact ⟨0, line, first, p, rfl, rfl, hline.trans h⟩
    · obtain ⟨k, line', scope', q', hk, hbefore, hstops⟩ := ih h
      refine ⟨k + 1, line', scope', q', hk, ?_, hstops⟩
      rw [List.take_succ_cons, readLines_cons_eq, hline]
      exact hbefore

/-- The first of some lines that go through go through. -/
theorem isOk_readLines_take {lines : List Text} {first : Scope} {p : Progress} (n : Nat)
    (h : (readLines origin expand lines first p).1.isOk = true) :
    (readLines origin expand (lines.take n) first p).1.isOk = true := by
  rw [← List.take_append_drop n lines, readLines_append] at h
  generalize readLines origin expand (lines.take n) first p = a at h
  obtain ⟨e | scope, q⟩ := a
  · cases h
  · rfl

namespace StopsAt

variable {lines : List Text} {first scope : Scope} {p q last : Progress} {k : Nat} {line : Text}
  {e : LoadError} (h : StopsAt origin expand lines first p k line scope q e last)

include h

theorem lt_length : k < lines.length := (List.getElem?_eq_some_iff.1 h.at_line).1

/-- Some of the lines before it go through. -/
theorem isOk_take {n : Nat} (hn : n ≤ k) :
    (readLines origin expand (lines.take n) first p).1.isOk = true := by
  have hbefore : (readLines origin expand (lines.take k) first p).1.isOk = true :=
    h.before ▸ rfl
  have htake := isOk_readLines_take n hbefore
  rwa [List.take_take, Nat.min_eq_left hn] at htake

/-- What comes after it is not read. -/
theorem take_of_lt {n : Nat} (hn : k < n) :
    readLines origin expand (lines.take n) first p = (.error e, last) := by
  have hget : (lines.take n)[k]? = some line := by
    rw [List.getElem?_take_of_lt hn]
    exact h.at_line
  obtain ⟨hlt, rfl⟩ := List.getElem?_eq_some_iff.1 hget
  rw [← List.take_append_drop k (lines.take n), List.take_take, Nat.min_eq_left (Nat.le_of_lt hn),
    List.drop_eq_getElem_cons hlt, readLines_append, h.before]
  change readLines origin expand (_ :: _) scope q = _
  rw [readLines_cons_eq, h.stops]
  rfl

end StopsAt

/-! ### The line that fails -/

/-- A record that stops the reader forbids nothing. -/
theorem index_readRecord_of_error {policy : Policy} {r : Record} {p : Progress} {e : LoadError}
    (h : (readRecord policy r p).1 = .error e) : (readRecord policy r p).2.index = p.index := by
  unfold readRecord at h ⊢
  dsimp only [Progress.classes_note] at h ⊢
  split at h
  · cases h
  · next hp =>
    rw [if_neg hp]
    split at h
    · cases h
    · next gap hgap => exact (policy.handle_frame r _ gap).1

/-- **A line that fails forbids nothing**, unless it includes a catalog. -/
theorem index_of_readLine {line : Text} {scope : Scope} {q last : Progress} {e : LoadError}
    (h : readLine origin expand line scope q = (.error e, last))
    (hline : origin = .user ∨ included? line = none) : last.index = q.index := by
  have hreading := readLine_reading origin expand line scope q
  rw [h] at hreading
  cases hreading with
  | malformed hc hl => rfl
  | recordFailed hc hl hr =>
    have hindex := index_readRecord_of_error (congrArg Prod.fst hr)
    rwa [hr] at hindex
  | includeRefused hc hl ho => rfl
  | includeFailed hc hl ho hx =>
    rcases hline with rfl | hline
    · cases ho
    · rw [included?_of_parse hc hl] at hline
      cases hline

/-- A line that includes a catalog fails with it. -/
theorem eq_of_readLine {line name : Text} {scope : Scope} {q last : Progress} {e : LoadError}
    (h : readLine .catalog expand line scope q = (.error e, last))
    (hline : included? line = some name) :
    expand name (q.note [.directive (Text.trim line)]) = (.error e, last) := by
  rw [readLine_of_included? hline] at h
  generalize expand name (q.note [.directive (Text.trim line)]) = a at h ⊢
  obtain ⟨e' | u, q'⟩ := a
  · obtain ⟨he, rfl⟩ := Prod.mk.inj h
    obtain rfl := Except.error.inj he
    rfl
  · cases h

/-- What including a catalog does is of no account to a line that includes none. -/
theorem readLine_expand {line : Text} (hline : included? line = none)
    (expand' : Text → Progress → Reading Unit) (scope : Scope) (p : Progress) :
    readLine .catalog expand line scope p = readLine .catalog expand' line scope p := by
  cases hc : isContent (Text.trim line) with
  | false => rw [readLine_of_blank hc, readLine_of_blank hc]
  | true =>
    cases hl : Line.parse (Text.trim line) scope.message with
    | error e => simp [readLine, hc, hl]
    | ok said =>
      cases said with
      | record r => rw [readLine_eq_of_record hc hl, readLine_eq_of_record hc hl]
      | directive d =>
        rw [readLine_eq_of_directive hc hl, readLine_eq_of_directive hc hl]
        rw [included?_of_parse hc hl] at hline
        cases d with
        | includeCatalog name => cases hline
        | defaultMessage message => rfl
        | ignoreUnresolvable => rfl

/-- No lines are read as an empty line. -/
theorem readLines_ite_nil (lines : List Text) (scope : Scope) (p : Progress) :
    readLines origin expand (if lines = [] then [[]] else lines) scope p =
      readLines origin expand lines scope p := by
  split
  · next h =>
    rw [h, readLines_cons_eq, readLine_of_blank (by decide)]
    rfl
  · rfl

/-- The lines of a text that is put together from lines. -/
theorem readLines_split_join {lines : List Text} (h : ∀ line ∈ lines, CodePoint.char '\n' ∉ line)
    (scope : Scope) (p : Progress) :
    readLines origin expand (Text.split '\n' (Text.join ['\n'] lines)) scope p =
      readLines origin expand lines scope p := by
  rw [← readLines_ite_nil lines]
  split
  · next hnil =>
    rw [hnil]
    rfl
  · next hne => rw [Text.split_join h hne]

end Lines

end Embargo
