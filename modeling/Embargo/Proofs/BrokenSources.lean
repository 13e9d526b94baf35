import Embargo.Proofs.Concatenation
import Embargo.Proofs.Documented
import Embargo.Proofs.Utf8Classes
import Mathlib.Data.List.DropRight

/-!
# Sources that break off

Bytes that are not those of a text can still be read in part. If something is wrong with their first
block, and so with any that are no longer than a block, no line is read. If they are merely cut off,
the lines that are finished are read as in any other source, and only then the reader fails, unless
one of the lines has made it fail before.

| bytes | what is read | a stream | a catalog |
|---|---|---|---|
| ill formed in block 1 | nothing | `perform_stream_of_isIllFormed` | `readCatalog_of_isIllFormed` |
| a text and a tail | its finished part | `perform_stream_of_isCutOff` | `readCatalog_of_isCutOff` |

The finished part of a text (`Feed.finished`) goes up to its last line end. As bytes of its own it
has one line more than is read of the text, but that is empty
(`Feed.split_unifyLineEnds_finished`), and so it can stand for the lines that are finished.

A source that breaks off is reported as unreadable, by its name. Catalogs lead to others, and each
passes the report on, so the name is that of the innermost: `Session.BreaksOff` follows the lines
that include catalogs down to it. It also counts that the system refuses to look for a catalog,
which the including one reports as its own failure.

* `Session.readCatalog_eq_unreadable_iff` – the report names what `BreaksOff` finds. From there to
  the report, each catalog fails with the one below it (`Reaches.readCatalog`); from the report to
  there, the induction is on the chain of catalogs in progress.
* `Session.broken_sources` – the main statement.
-/

namespace Embargo

open Catalog

/-! ### Lines that are finished -/

namespace Feed

/-- **The finished part of a text**: all up to its last line end. -/
def finished (t : Text) : Text := t.rdropWhile fun c => c ≠ '\n' && c ≠ '\r'

section Finished

variable {t u v : Text}

/-- A carriage return alone ends a line. -/
theorem unifyLineEnds_return (h : u.head? ≠ some (.char '\n')) :
    unifyLineEnds (.char '\r' :: u) = .char '\n' :: unifyLineEnds u := by
  rw [unifyLineEnds]
  rintro r rfl
  exact h rfl

theorem unifyLineEnds_cons {c : CodePoint} (h : c ≠ '\r') :
    unifyLineEnds (c :: u) = c :: unifyLineEnds u := by
  rw [unifyLineEnds]
  · exact fun r hc => absurd hc h
  · exact h

theorem unifyLineEnds_append (h : u.head? ≠ some (.char '\n')) :
    unifyLineEnds (t ++ u) = unifyLineEnds t ++ unifyLineEnds u := by
  fun_induction unifyLineEnds t with
  | case1 => rfl
  | case2 r ih => simp [unifyLineEnds, ih]
  | case3 r hr ih =>
    have hhead : (r ++ u).head? ≠ some (.char '\n') := by
      cases r with
      | nil => exact h
      | cons c r => exact fun hc => hr r (congrArg (· :: r) (Option.some.inj hc))
    rw [List.cons_append, unifyLineEnds_return hhead, ih, List.cons_append]
  | case4 c r hrn hr ih => rw [List.cons_append, unifyLineEnds_cons hr, ih, List.cons_append]

/-- The last character stays, unless it is a carriage return. -/
theorem getLast?_unifyLineEnds (t : Text) : (unifyLineEnds t).getLast? =
    t.getLast?.map fun c : CodePoint => if c = '\r' then CodePoint.char '\n' else c := by
  fun_induction unifyLineEnds t with
  | case1 => rfl
  | case2 r ih | case3 r hr ih =>
    simp only [List.getLast?_cons, ih]
    cases r.getLast? <;> rfl
  | case4 c r hrn hr ih =>
    have hc : c = if c = '\r' then CodePoint.char '\n' else c := (if_neg hr).symm
    simp only [List.getLast?_cons, ih]
    cases r.getLast? with
    | none => exact congrArg some hc
    | some d => rfl

/-- **What is left behind the finished part** does not end a line; the finished part does, if there
is any. -/
theorem finished_spec (t : Text) : ∃ rest, t = finished t ++ rest ∧
    (∀ c ∈ rest, c ≠ '\n' ∧ c ≠ '\r') ∧ ∀ c ∈ (finished t).getLast?, c = '\n' ∨ c = '\r' := by
  refine ⟨t.rtakeWhile fun c => c ≠ '\n' && c ≠ '\r', List.rdropWhile_append_rtakeWhile.symm,
    fun c hc => by simpa using List.mem_rtakeWhile_imp hc, fun c hc => ?_⟩
  have hne : finished t ≠ [] := List.ne_nil_of_mem (List.mem_of_mem_getLast? hc)
  have hlast := List.rdropWhile_last_not (fun c : CodePoint => c ≠ '\n' && c ≠ '\r') t hne
  obtain rfl : (finished t).getLast hne = c := List.getLast_of_mem_getLast? hc
  exact or_iff_not_imp_left.2 (by simpa [finished] using hlast)

/-- **The lines of the finished part** are those of the text but the last, and an empty one. -/
theorem split_unifyLineEnds_finished (t : Text) :
    Text.split '\n' (unifyLineEnds (finished t)) =
      (Text.split '\n' (unifyLineEnds t)).dropLast ++ [[]] := by
  obtain ⟨rest, ht, hrest, hend⟩ := finished_spec t
  have hhead : rest.head? ≠ some (.char '\n') := fun h => (hrest _ (List.mem_of_head? h)).1 rfl
  have hunify : unifyLineEnds t = unifyLineEnds (finished t) ++ rest := by
    conv_lhs => rw [ht]
    rw [unifyLineEnds_append hhead, unifyLineEnds_of_notMem fun h => (hrest _ h).2 rfl]
  have hsplit : Text.split '\n' rest = [rest] := Text.split_of_notMem fun h => (hrest _ h).1 rfl
  have hlast := getLast?_unifyLineEnds (finished t)
  cases hc : (finished t).getLast? with
  | none =>
    -- No line is finished.
    rw [hunify, List.getLast?_eq_none_iff.1 hc]
    exact congrArg (·.dropLast ++ [[]]) hsplit.symm
  | some c =>
    have hfeed : (unifyLineEnds (finished t)).getLast? = some (.char '\n') := by
      rw [hlast, hc]
      rcases hend c hc with rfl | rfl <;> rfl
    obtain ⟨front, hfront⟩ := List.getLast?_eq_some_iff.1 hfeed
    rw [hunify, hfront, List.append_assoc, List.singleton_append, Text.split_append,
      Text.split_append, hsplit, List.dropLast_concat]
    rfl

end Finished

/-! ### Feeds that break off -/

section Feeds

variable {bytes tail : Bytes} {v : Text}

/-- If the first block is ill formed, nothing can be decoded. -/
theorem decodable_of_isIllFormed (h : Utf8.IsIllFormed (bytes.take blockSize)) (n : Nat) :
    decodable bytes n = [] := by
  induction n with
  | zero => rfl
  | succ n ih =>
    -- The first block stays a part of the first `n + 1` blocks.
    have hle : blockSize ≤ (n + 1) * blockSize := Nat.le_mul_of_pos_left _ n.succ_pos
    have hsplit := List.take_append_drop blockSize (bytes.take ((n + 1) * blockSize))
    rw [List.take_take, Nat.min_eq_left hle] at hsplit
    have hill := Utf8.decode_append_of_illFormed (Utf8.decode_eq_illFormed_iff.2 h)
      ((bytes.take ((n + 1) * blockSize)).drop blockSize)
    rw [hsplit] at hill
    rw [decodable, hill]
    exact ih

/-- **Bytes whose first block is ill formed** yield no line. -/
theorem ofBytes_of_isIllFormed (h : Utf8.IsIllFormed (bytes.take blockSize)) :
    ofBytes bytes = ⟨[], true⟩ := by
  have hill := Utf8.decode_append_of_illFormed (Utf8.decode_eq_illFormed_iff.2 h)
    (bytes.drop blockSize)
  rw [List.take_append_drop] at hill
  rw [ofBytes, hill]
  dsimp only
  rw [decodable_of_isIllFormed h]
  rfl

/-- **Bytes that are cut off** yield the lines of the finished part, which as bytes of its own
yields an empty line behind them. -/
theorem ofBytes_of_isCutOff (hv : Utf8.isEncodable v = true)
    (hreturn : v.getLast? ≠ some (.char '\r')) (htail : Utf8.IsCutOff tail) :
    ∃ lines, ofBytes (Utf8.encode (finished v)) = ⟨lines ++ [[]], false⟩ ∧
      ofBytes (Utf8.encode v ++ tail) = ⟨lines, true⟩ := by
  have hfinished : Utf8.isEncodable (finished v) = true :=
    List.all_eq_true.2 fun c hc =>
      List.all_eq_true.1 hv c ((List.rdropWhile_prefix _ _).mem hc)
  refine ⟨_, (ofBytes_encode hfinished).trans
    (congrArg (Feed.mk · false) (split_unifyLineEnds_finished v)), ?_⟩
  have hpending : dropPendingReturn v = v := if_neg hreturn
  rw [ofBytes, Utf8.decode_eq_cutOff_iff.2 ⟨hv, tail, rfl, htail⟩]
  dsimp only
  rw [brokenBehind, hpending]

end Feeds
end Feed

section Reading

variable {c : Config} {origin : Origin} {expand : Text → Progress → Reading Unit} {name : Text}
  {bytes tail : Bytes} {v : Text} {p : Progress}

/-- No line is read of bytes whose first block is ill formed. -/
theorem readFeed_of_isIllFormed (h : Utf8.IsIllFormed (bytes.take Feed.blockSize)) :
    readFeed c origin expand name (.ofBytes bytes) p = (.error (.unreadable name), p) := by
  rw [Feed.ofBytes_of_isIllFormed h]
  rfl

/-- **Of bytes that are cut off the finished lines are read as in any other source**, which then
fails at the latest. -/
theorem readFeed_of_isCutOff (hv : Utf8.isEncodable v = true)
    (hreturn : v.getLast? ≠ some (.char '\r')) (htail : Utf8.IsCutOff tail) :
    let whole := readFeed c origin expand name (.ofBytes (Utf8.encode (Feed.finished v))) p
    readFeed c origin expand name (.ofBytes (Utf8.encode v ++ tail)) p =
      (whole.1.bind fun _ => .error (.unreadable name), whole.2) := by
  intro whole
  obtain ⟨lines, hfinished, hcut⟩ := Feed.ofBytes_of_isCutOff hv hreturn htail
  have hlines : readLines origin expand (lines ++ [[]]) c.firstScope p =
      readLines origin expand lines c.firstScope p := by
    have hblank : readLines origin expand (lines ++ [[]] ++ []) c.firstScope p =
        readLines origin expand (lines ++ []) c.firstScope p :=
      readLines_insert_blank (by decide) _ _
    rwa [List.append_nil, List.append_nil] at hblank
  have hwhole : whole = Feed.finish ⟨lines ++ [[]], false⟩ name
      (readLines origin expand lines c.firstScope p) := by
    rw [← hlines, ← readFeed_eq_finish, ← hfinished]
  rw [hwhole, hcut, readFeed_eq_finish]
  generalize readLines origin expand lines c.firstScope p = a
  obtain ⟨e | scope, q⟩ := a <;> rfl

end Reading

namespace Session

variable {s : Session} {r : Registry}

/-! ### Streams -/

section Streams

variable {bytes tail : Bytes} {v : Text}

/-- A stream that is ill formed in its first block leaves everything as it was. -/
theorem perform_stream_of_isIllFormed (h : Utf8.IsIllFormed (bytes.take Feed.blockSize))
    (name : Text) :
    s.perform r (.stream name (.ofBytes bytes)) =
      ⟨some (.unreadable name), r, [], [.readingText name]⟩ := by
  rw [perform, addStream, addFeed, readFeed_of_isIllFormed h]
  rfl

/-- **A stream that is cut off comes to what its finished part comes to**, but that it fails. -/
theorem perform_stream_of_isCutOff (hv : Utf8.isEncodable v = true)
    (hreturn : v.getLast? ≠ some (.char '\r')) (htail : Utf8.IsCutOff tail) (name : Text) :
    let whole := s.perform r (.stream name (.ofBytes (Utf8.encode (Feed.finished v))))
    s.perform r (.stream name (.ofBytes (Utf8.encode v ++ tail))) =
      { whole with failure := some (whole.failure.getD (.unreadable name)) } := by
  rw [perform, perform, addStream, addStream, addFeed, addFeed,
    readFeed_of_isCutOff hv hreturn htail]
  have hmissing : (readFeed s.config .user (fun _ p => (.ok (), p)) name
      (.ofBytes (Utf8.encode (Feed.finished v))) (r.start.note [.readingText name])).2.missing =
        [] := by
    rw [readFeed_progress]
    exact s.missing_readLines_user r _ rfl
  generalize readFeed s.config .user (fun _ p => (.ok (), p)) name
    (.ofBytes (Utf8.encode (Feed.finished v))) (r.start.note [.readingText name]) = a at hmissing ⊢
  obtain ⟨e | u, q⟩ := a
  · rfl
  · -- Nothing was kept for a summary, so the call that goes through has nothing more to tell.
    exact congrArg (Outcome.mk (some (.unreadable name)) ⟨q.index, q.classes⟩ q.missing)
      (s.config.append_summaryOf hmissing q.trace).symm

/-- **A stream is said to be unreadable if it breaks off**, and none of its lines offends. -/
theorem failure_stream_eq_unreadable_iff {name n : Text} {feed : Feed} :
    (s.perform r (.stream name feed)).failure = some (.unreadable n) ↔
      n = name ∧ feed.broken = true ∧ IsAcceptable s.config r.classes feed.lines := by
  rw [perform, addStream, addFeed, Config.failure_outcomeOf_eq_some, readFeed_result]
  have hlines := readLines_userLines s.config feed.lines (r.start.note [.readingText name])
    (fun _ p => (.ok (), p))
  generalize readLines .user _ feed.lines s.config.firstScope (r.start.note [.readingText name]) =
    res at hlines ⊢
  cases hlines with
  | read ha hscope hq =>
    dsimp only
    cases feed.broken with
    | false => simp
    | true =>
      constructor
      · intro h
        exact ⟨(LoadError.unreadable.inj (Except.error.inj h)).symm, rfl, ha⟩
      · rintro ⟨rfl, -, -⟩
        rfl
  | offends hsplit ha ho hq =>
    refine iff_of_false (fun h => ?_) fun h => h.2.2.not_offends hsplit ho
    dsimp only at h
    rw [ho.within_eq] at h
    cases Except.error.inj h
    cases ho

end Streams

/-! ### Catalogs -/

section Catalogs

variable {chain : List Text} {name : Text} {target : Option Text} {found : s.Found}

/-- No line of a catalog is read that is ill formed in its first block: it is opened and closed. -/
theorem readCatalog_of_isIllFormed (h : s.Opens chain name target found)
    (hbytes : Utf8.IsIllFormed (found.bytes.take Feed.blockSize)) :
    ∃ t, (∀ e ∈ t, Event.IsRemark chain e) ∧ ∀ p, s.readCatalog chain name target p =
      (.error (.unreadable found.name),
        p.note (t ++ [.opened found.name, .closed found.name])) := by
  obtain ⟨t, ht, hread⟩ := readCatalog_of_opens h
  refine ⟨t, ht, fun p => ?_⟩
  rw [hread, Found.finish, Found.lines, ← readFeed_eq_finish, readFeed_of_isIllFormed hbytes]
  simp

/-- **A catalog that is cut off comes to what the source of its finished part comes to**, but that
it fails. -/
theorem readCatalog_of_isCutOff (h : s.Opens chain name target found) {v : Text} {tail : Bytes}
    (hv : Utf8.isEncodable v = true) (hreturn : v.getLast? ≠ some (.char '\r'))
    (htail : Utf8.IsCutOff tail) (hbytes : found.bytes = Utf8.encode v ++ tail) :
    ∃ t, (∀ e ∈ t, Event.IsRemark chain e) ∧ ∀ p,
      let whole := readFeed s.config .catalog (s.inside chain found) found.name
        (.ofBytes (Utf8.encode (Feed.finished v))) (p.note (t ++ [.opened found.name]))
      s.readCatalog chain name target p =
        (whole.1.bind fun _ => .error (.unreadable found.name),
          whole.2.note [.closed found.name]) := by
  obtain ⟨t, ht, hread⟩ := readCatalog_of_opens h
  refine ⟨t, ht, fun p => ?_⟩
  rw [hread, Found.finish, Found.lines, ← readFeed_eq_finish, hbytes,
    readFeed_of_isCutOff hv hreturn htail, Progress.note_note]

/-- What reading a catalog comes to does not depend on what was told before its lines are read. -/
theorem readCatalog_result (h : s.Opens chain name target found) (p : Progress) (t : Trace) :
    (s.readCatalog chain name target p).1 = (found.finish (readLines .catalog
      (s.inside chain found) found.lines s.config.firstScope (p.note t))).1 := by
  obtain ⟨t', -, hread⟩ := readCatalog_of_opens h
  rw [hread, Progress.note_note]
  have hagree : Agree True (Ahead [])
      (readLines .catalog (s.inside chain found) found.lines s.config.firstScope (p.note t))
      (readLines .catalog (s.inside chain found) found.lines s.config.firstScope
        (p.note (t' ++ [.opened found.name]))) :=
    (compares_ahead []).readLines_agree
      (fun name p q h => readCatalog_agree (compares_ahead []) h _ name none)
      (ahead_note p t _) .catalog found.lines _
  exact (hagree.finish found.name rfl (.inl trivial)).1

end Catalogs

/-! ### The innermost source -/

/-- **A line of a catalog is reached**: the lines before it go through. -/
def Reaches (s : Session) (chain : List Text) (found : s.Found) (p : Progress) (line : Text)
    (q : Progress) : Prop :=
  ∃ front back t scope, found.lines = front ++ line :: back ∧
    readLines .catalog (s.inside chain found) front s.config.firstScope (p.note t) =
      (.ok scope, q)

/-- **The source that breaks off, by its name**, where a name is read on behalf of a chain: the
catalog that is opened, or the innermost of those that its lines lead to. -/
inductive BreaksOff (s : Session) : List Text → Text → Option Text → Progress → Text → Prop
  /-- The lines of the catalog go through, and its bytes are not those of a text. -/
  | bytes {chain : List Text} {name : Text} {target : Option Text} {p q : Progress}
      {found : s.Found} {t : Trace} {scope : Scope} (h : s.Opens chain name target found)
      (hread : readLines .catalog (s.inside chain found) found.lines s.config.firstScope
        (p.note t) = (.ok scope, q))
      (hbroken : (Feed.ofBytes found.bytes).broken = true) :
      BreaksOff s chain name target p found.name
  /-- A line includes a catalog, and the system refuses to look for its file. -/
  | refused {chain : List Text} {name line included : Text} {target : Option Text}
      {p q : Progress} {found : s.Found} (h : s.Opens chain name target found)
      (hreaches : s.Reaches chain found p line q) (hincluded : included? line = some included)
      (hne : included ≠ nonPortableName) (hbalks : s.Balks included none .refused) :
      BreaksOff s chain name target p found.name
  /-- A line includes a catalog, and a source breaks off there. -/
  | inside {chain : List Text} {name line included n : Text} {target : Option Text}
      {p q : Progress} {found : s.Found} (h : s.Opens chain name target found)
      (hreaches : s.Reaches chain found p line q) (hincluded : included? line = some included)
      (hinner : BreaksOff s (chain ++ [found.name]) included none
        (q.note [.directive (Text.trim line)]) n) :
      BreaksOff s chain name target p n

section Innermost

variable {chain : List Text} {name line included : Text} {target : Option Text} {p q : Progress}
  {found : s.Found} {e : LoadError}

/-- **A catalog fails with a catalog that a line of it includes**, once the line is reached. -/
theorem Reaches.readCatalog (h : s.Opens chain name target found)
    (hreaches : s.Reaches chain found p line q) (hincluded : included? line = some included)
    (he : (s.readCatalog (chain ++ [found.name]) included none
      (q.note [.directive (Text.trim line)])).1 = .error e) :
    (s.readCatalog chain name target p).1 = .error (e.within found.name) := by
  obtain ⟨front, back, t, scope, hlines, hfront⟩ := hreaches
  rw [readCatalog_result h p t, hlines, readLines_append, hfront]
  change (found.finish (readLines .catalog (s.inside chain found) (line :: back) scope q)).1 = _
  rw [readLines_cons_eq, readLine_of_included? hincluded]
  rw [show s.readCatalog _ included none _ = s.inside chain found included _ from rfl] at he
  generalize s.inside chain found included (q.note [.directive (Text.trim line)]) = a at he ⊢
  obtain ⟨e' | u, q'⟩ := a
  · obtain rfl := Except.error.inj he
    rfl
  · cases he

/-- A line that includes nothing fails with an error of its own. -/
theorem isOfLine_of_readLine {expand : Text → Progress → Reading Unit} {scope : Scope}
    {last : Progress} (h : readLine .catalog expand line scope q = (.error e, last))
    (hline : included? line = none) : e.IsOfLine := by
  have hreading := readLine_reading .catalog expand line scope q
  rw [h] at hreading
  cases hreading with
  | malformed hc hl => trivial
  | recordFailed hc hl hr => exact readRecord_error (congrArg Prod.fst hr)
  | includeRefused hc hl ho => cases ho
  | includeFailed hc hl ho hx => cases hline.symm.trans (included?_of_parse hc hl)

/-- Reading a name fails because the system refuses only if it does so for the name itself. -/
theorem balks_of_refused
    (h : (s.readCatalog chain name target p).1 = .error .refused) :
    name ≠ nonPortableName ∧ ∃ t, (t = none ∨ t = target) ∧ s.Balks name t .refused := by
  constructor
  · rintro rfl
    rw [readCatalog_nonPortable] at h
    cases h
  · rcases readCatalog_error h with hdocumented | hbalks | hleads
    · exact hdocumented.elim
    · exact hbalks
    · exact absurd rfl hleads.ne_refused

/-- What breaks off is reported. -/
theorem BreaksOff.readCatalog {n : Text} (h : s.BreaksOff chain name target p n) :
    (s.readCatalog chain name target p).1 = .error (.unreadable n) := by
  induction h with
  | @bytes chain name target p q found t scope h hread hbroken =>
    rw [readCatalog_result h p t, hread, Found.finish, Feed.finish]
    exact if_pos hbroken
  | refused h hreaches hincluded hne hbalks =>
    exact hreaches.readCatalog h hincluded (hbalks.readCatalog hne _ _ _)
  | inside h hreaches hincluded hinner ih => exact hreaches.readCatalog h hincluded ih

/-- **Reading a name reports a source as unreadable exactly if that is the innermost one that breaks
off.** -/
theorem readCatalog_eq_unreadable_iff {n : Text} :
    (s.readCatalog chain name target p).1 = .error (.unreadable n) ↔
      s.BreaksOff chain name target p n := by
  refine ⟨fun h => ?_, BreaksOff.readCatalog⟩
  induction chain using s.chain_induction generalizing name target p with | longer chain ih
  obtain ⟨found, hopens⟩ := opens_of_isOfText h trivial
  rw [readCatalog_result hopens p []] at h
  generalize hlines : readLines .catalog (s.inside chain found) found.lines s.config.firstScope
    (p.note []) = a at h
  obtain ⟨e | scope, last⟩ := a
  · obtain ⟨k, line, scope, q, hstop⟩ := readLines_stopsAt hlines
    have hwithin : e.within found.name = .unreadable n := Except.error.inj h
    have hreaches : s.Reaches chain found p line q := by
      obtain ⟨hk, rfl⟩ := List.getElem?_eq_some_iff.1 hstop.at_line
      have hsplit := (List.take_append_drop k found.lines).symm
      rw [List.drop_eq_getElem_cons hk] at hsplit
      exact ⟨_, _, [], scope, hsplit, hstop.before⟩
    cases hincluded : included? line with
    | none =>
      have hline := isOfLine_of_readLine hstop.stops hincluded
      rw [LoadError.within_eq hline.ne_refused] at hwithin
      rw [hwithin] at hline
      exact hline.elim
    | some included =>
      have hinner : s.readCatalog (chain ++ [found.name]) included none
          (q.note [.directive (Text.trim line)]) = (.error e, last) :=
        eq_of_readLine hstop.stops hincluded
      have hinner := congrArg Prod.fst hinner
      by_cases hrefused : e = .refused
      · subst hrefused
        obtain ⟨hne, t, ht, hbalks⟩ := balks_of_refused hinner
        obtain rfl : t = none := ht.elim id id
        obtain rfl := LoadError.unreadable.inj hwithin
        exact .refused hopens hreaches hincluded hne hbalks
      · rw [LoadError.within_eq hrefused] at hwithin
        exact .inside hopens hreaches hincluded (ih found hopens.fresh (hwithin ▸ hinner))
  · rw [Found.finish, Feed.finish] at h
    dsimp only at h
    split at h
    · next hbroken =>
      obtain rfl := LoadError.unreadable.inj (Except.error.inj h)
      exact .bytes hopens hlines hbroken
    · cases h

end Innermost

/-! ### Broken sources -/

/-- **What is read of sources that break off.**

* Of bytes that are ill formed in their first block, as all are that are ill formed and no longer
  than a block, no line is read. A stream of them leaves the registry as it was; a catalog of them
  is opened and closed, and nothing else happens. It is reported as unreadable.
* Of a text that does not end in a carriage return and a tail that is cut off, those lines are read
  that a line end finishes, as in any other stream or catalog. Then it is reported as unreadable,
  unless one of the lines has failed before.

What is reported is the innermost source that breaks off, by its name: a stream itself, and of
catalogs the one that a line of another leads to, at any depth. -/
theorem broken_sources (s : Session) (r : Registry) :
    (∀ bytes, Utf8.IsIllFormed (bytes.take Feed.blockSize) →
      (∀ name, s.perform r (.stream name (.ofBytes bytes)) =
        ⟨some (.unreadable name), r, [], [.readingText name]⟩) ∧
      ∀ chain name target (found : s.Found), s.Opens chain name target found →
        found.bytes = bytes → ∃ t, (∀ e ∈ t, Event.IsRemark chain e) ∧ ∀ p,
          s.readCatalog chain name target p = (.error (.unreadable found.name),
            p.note (t ++ [.opened found.name, .closed found.name]))) ∧
    (∀ v tail, Utf8.isEncodable v = true → v.getLast? ≠ some (.char '\r') → Utf8.IsCutOff tail →
      (∀ name, let whole := s.perform r (.stream name (.ofBytes (Utf8.encode (Feed.finished v))))
        s.perform r (.stream name (.ofBytes (Utf8.encode v ++ tail))) =
          { whole with failure := some (whole.failure.getD (.unreadable name)) }) ∧
      ∀ chain name target (found : s.Found), s.Opens chain name target found →
        found.bytes = Utf8.encode v ++ tail → ∃ t, (∀ e ∈ t, Event.IsRemark chain e) ∧ ∀ p,
          let whole := readFeed s.config .catalog (s.inside chain found) found.name
            (.ofBytes (Utf8.encode (Feed.finished v))) (p.note (t ++ [.opened found.name]))
          s.readCatalog chain name target p =
            (whole.1.bind fun _ => .error (.unreadable found.name),
              whole.2.note [.closed found.name])) ∧
    (∀ name feed n, (s.perform r (.stream name feed)).failure = some (.unreadable n) ↔
      n = name ∧ feed.broken = true ∧ IsAcceptable s.config r.classes feed.lines) ∧
    (∀ chain name target p n, (s.readCatalog chain name target p).1 = .error (.unreadable n) ↔
      s.BreaksOff chain name target p n) ∧
    (∀ name target n, (s.perform r (.catalog name target)).failure = some (.unreadable n) ↔
      s.BreaksOff [] name (s.targetOf target) r.start n) ∧
    ∀ n, (LoadError.unreadable n).problem = .failure (.resource n none) := by
  refine ⟨fun bytes h => ⟨perform_stream_of_isIllFormed h, ?_⟩, fun v tail hv hreturn htail =>
    ⟨perform_stream_of_isCutOff hv hreturn htail, ?_⟩,
    fun name feed n => failure_stream_eq_unreadable_iff,
    fun chain name target p n => readCatalog_eq_unreadable_iff, fun name target n => ?_,
    fun n => rfl⟩
  · rintro chain name target found hopens rfl
    exact readCatalog_of_isIllFormed hopens h
  · intro chain name target found hopens hbytes
    exact readCatalog_of_isCutOff hopens hv hreturn htail hbytes
  · rw [perform, addCatalog, Config.failure_outcomeOf_eq_some]
    exact readCatalog_eq_unreadable_iff

/-- **A tail that is cut off need not begin a character**: a text and two bytes of a surrogate are
no text, nor one with the beginning of a character behind it, and yet the text is read. -/
theorem surrogate_tail_is_read :
    let s : Session := ⟨{}, .bundled, ⟨⟨[]⟩, []⟩⟩
    let r := Registry.ofClasses .empty
    let bytes : Bytes := Utf8.encode "*\n".toText ++ [0xED, 0xA0]
    (∀ v tail, Utf8.isEncodable v = true → bytes = Utf8.encode v ++ tail → tail ≠ [] ∧
      ∀ c missing, missing ≠ [] → tail ++ missing ≠ String.utf8EncodeChar c) ∧
    (s.perform r (.stream "s".toText (.ofBytes bytes))).registry ≠ r := by
  intro s r bytes
  have hdecode : Utf8.decode bytes = .cutOff "*\n".toText := by decide +kernel
  refine ⟨fun v tail hv hbytes => ?_, by decide +kernel⟩
  have hne : tail ≠ [] := by
    rintro rfl
    rw [hbytes, List.append_nil, Utf8.decode_encode hv] at hdecode
    cases hdecode
  refine ⟨hne, fun c missing hmissing hc => ?_⟩
  have hcut := Utf8.decode_eq_cutOff_iff.2 ⟨hv, tail, hbytes, .char hc hne hmissing⟩
  obtain rfl := Utf8.Decoding.cutOff.inj (hdecode.symm.trans hcut)
  obtain rfl : [0xED, 0xA0] = tail := List.append_cancel_left hbytes
  exact Utf8.ne_encodeChar_of_surrogate (by decide) c missing hc

/-- Bytes that are cut off in their second line. -/
def cutOffBytes : Bytes := Utf8.encode "a.*\nb.*".toText ++ [0xC3]

/-- Bytes that are ill formed in their second line. -/
def illFormedBytes : Bytes := Utf8.encode "a.*\n".toText ++ [0xFF]

/-- A session with catalogs of these bytes, and one that includes the first of them. -/
def brokenSession : Session where
  config := {}
  store := .directory (Path.ofText "/d".toText)
  disk := ⟨⟨[([Utf8.encode "d".toText, Utf8.encode "w.txt".toText],
      .file (Utf8.encode "@includeBundled x\n".toText)),
    ([Utf8.encode "d".toText, Utf8.encode "x.txt".toText], .file cutOffBytes),
    ([Utf8.encode "d".toText, Utf8.encode "y.txt".toText], .file illFormedBytes)]⟩, []⟩

/-- What these catalogs hold is opened by their names. -/
theorem exists_opens_brokenSession (name : Text) (bytes : Bytes)
    (hname : canonicalName name none = .ok name) (hne : name ≠ nonPortableName)
    (h : brokenSession.store.answer brokenSession.disk name = .served bytes []) :
    ∃ found : brokenSession.Found, found.name = name ∧ found.bytes = bytes ∧
      ∀ chain, name ∉ chain → brokenSession.Opens chain name none found := by
  let found : brokenSession.Found := ⟨name, bytes, isName_of_canonicalName hname, [], h⟩
  exact ⟨found, rfl, rfl, fun chain hc => ⟨hne, ⟨found.serves, .inl hname⟩, hc⟩⟩

/-- What the including catalog includes breaks off. -/
theorem breaksOff_brokenSession (p : Progress) :
    brokenSession.BreaksOff [] "w".toText none p "x".toText := by
  obtain ⟨w, hw, hwbytes, hwopens⟩ := exists_opens_brokenSession "w".toText
    (Utf8.encode "@includeBundled x\n".toText) (by decide +kernel) (by decide +kernel)
    (by decide +kernel)
  obtain ⟨x, hx, hxbytes, hxopens⟩ := exists_opens_brokenSession "x".toText
    cutOffBytes (by decide +kernel) (by decide +kernel) (by decide +kernel)
  have hincluded : included? "@includeBundled x".toText = some "x".toText := by decide +kernel
  have hlines : w.lines = ["@includeBundled x".toText, []] := by
    rw [Found.lines, hwbytes]
    decide +kernel
  have hfeed : Feed.ofBytes x.bytes = ⟨["a.*".toText], true⟩ := by
    rw [hxbytes]
    decide +kernel
  have hinner (q : Progress) :
      brokenSession.BreaksOff ["w".toText] "x".toText none q "x".toText := by
    have hok : (readLines .catalog (brokenSession.inside ["w".toText] x) x.lines
        brokenSession.config.firstScope (q.note [])).1.isOk = true := by
      rw [Found.lines, hfeed]
      rfl
    generalize hread : readLines .catalog (brokenSession.inside ["w".toText] x) x.lines
      brokenSession.config.firstScope (q.note []) = res at hok
    obtain ⟨e | scope, q'⟩ := res
    · cases hok
    · have hbytes := BreaksOff.bytes (hxopens _ (by decide)) hread (congrArg Feed.broken hfeed)
      rwa [hx] at hbytes
  refine .inside (hwopens [] List.not_mem_nil) ⟨[], [[]], [], _, hlines, rfl⟩ hincluded ?_
  rw [hw]
  exact hinner _

/-- Behind their first line, a stream and a catalog are ill formed, and a stream and a catalog that
another one includes are cut off. -/
theorem broken_sources_second_line :
    let s := brokenSession
    let r := Registry.ofClasses .empty
    (s.perform r (.stream [] (.ofBytes illFormedBytes))).registry = r ∧
    (s.readCatalog [] "y".toText none r.start).2.index = r.index ∧
    (s.perform r (.stream [] (.ofBytes cutOffBytes))).registry.index =
      r.index.addPattern ⟨"a.*".toText, none⟩ ∧
    (s.readCatalog [] "x".toText none r.start).2.index =
      r.index.addPattern ⟨"a.*".toText, none⟩ ∧
    (s.perform r (.catalog "w".toText none)).failure = some (.unreadable "x".toText) := by
  intro s r
  obtain ⟨hill, hcut, -, -, hinnermost, -⟩ := broken_sources s r
  obtain ⟨hstream, hcatalog⟩ := hill illFormedBytes
    (Utf8.decode_eq_illFormed_iff.1 (by decide +kernel))
  obtain ⟨y, -, hybytes, hyopens⟩ := exists_opens_brokenSession "y".toText
    illFormedBytes (by decide +kernel) (by decide +kernel) (by decide +kernel)
  obtain ⟨t, -, hy⟩ := hcatalog [] "y".toText none y (hyopens [] List.not_mem_nil) hybytes
  have htail : Utf8.IsCutOff [0xC3] :=
    .char (show [0xC3] ++ [0xA9] = String.utf8EncodeChar 'é' by decide +kernel) (by simp) (by simp)
  obtain ⟨hstream', hcatalog'⟩ := hcut "a.*\nb.*".toText [0xC3] (by decide +kernel)
    (by decide +kernel) htail
  obtain ⟨x, -, hxbytes, hxopens⟩ := exists_opens_brokenSession "x".toText
    cutOffBytes (by decide +kernel) (by decide +kernel) (by decide +kernel)
  obtain ⟨t', -, hx⟩ := hcatalog' [] "x".toText none x (hxopens [] List.not_mem_nil) hxbytes
  have hfeed : Feed.ofBytes (Utf8.encode (Feed.finished "a.*\nb.*".toText)) =
      ⟨["a.*".toText, []], false⟩ := by decide +kernel
  refine ⟨by rw [hstream], by rw [hy]; rfl, ?_, ?_, ?_⟩
  · rw [cutOffBytes, hstream']
    decide +kernel
  · rw [hx, hfeed]
    rfl
  · exact (hinnermost _ _ _).2 (breaksOff_brokenSession _)

end Session
end Embargo
