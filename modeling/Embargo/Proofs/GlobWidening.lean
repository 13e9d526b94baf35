import Embargo.Proofs.GlobSegments
import Mathlib.Logic.Relation

/-!
# Wider globs

A glob is **widened** by writing `*` for one of its question marks, or `**` for one of its stars.
A wider glob catches what the glob catches, wherever the change is made.

Token by token this cannot be seen: which stars are paired depends on what stands next to them. The
`?` of `?*` goes, and the one token `**` is left; `***` is `**` and `*`, and `****` is `**` twice.
What can be compared are whole rows of stars, with no further star on either side:

| stars in a row | what they stand for, together |
| --- | --- |
| none | the empty text |
| one | any text without a dot |
| more, even or odd | any text |

* `Glob.StarsCover` – the table; rows are put together by `Glob.StarsCover.append`.
* `Glob.accepts_scan_stars_iff` – **a row of stars takes off the front what the table says**.
* `Glob.exists_stars_around` – every place in a glob is a place in such a row, perhaps an empty one.
* `Glob.Widens` – one character is widened; `Glob.Widens.accepts_scan` is the step.
* `ClassPattern.catches_widened` – the conclusion, for patterns.
-/

namespace Embargo

namespace Glob

/-! ### Rows of stars -/

/-- Some stars in a row. -/
def stars (n : Nat) : Text := List.replicate n '*'

theorem stars_append_stars (m n : Nat) : stars m ++ stars n = stars (m + n) :=
  List.replicate_append_replicate

theorem stars_succ (n : Nat) : stars (n + 1) = CodePoint.char '*' :: stars n := List.replicate_succ

/-- **What a row of stars stands for.** -/
def StarsCover : Nat → Text → Prop
  | 0, piece => piece = []
  | 1, piece => CodePoint.char '.' ∉ piece
  | _ + 2, _ => True

namespace StarsCover

theorem nil (n : Nat) : StarsCover n [] := by
  match n with
  | 0 => rfl
  | 1 => exact List.not_mem_nil
  | _ + 2 => trivial

theorem of_two_le {n : Nat} (h : 2 ≤ n) (piece : Text) : StarsCover n piece := by
  obtain ⟨n, rfl⟩ := Nat.exists_eq_add_of_le' h
  trivial

theorem singleton {c : CodePoint} (h : c ≠ '.') : StarsCover 1 [c] :=
  fun hmem => h (List.mem_singleton.1 hmem).symm

/-- Two rows that are put together stand for what they stood for one after the other. -/
theorem append {m n : Nat} {piece piece' : Text} (h : StarsCover m piece)
    (h' : StarsCover n piece') : StarsCover (m + n) (piece ++ piece') := by
  rcases m with _ | m
  · obtain rfl : piece = [] := h
    rwa [Nat.zero_add, List.nil_append]
  rcases n with _ | n
  · obtain rfl : piece' = [] := h'
    rwa [Nat.add_zero, List.append_nil]
  · exact of_two_le (by omega) _

end StarsCover

/-- **A row of stars takes off the front what it stands for**, if no star stands behind it. -/
theorem accepts_scan_stars_iff {g : Text} (hg : g.head? ≠ some '*') {n : Nat} {name : Text} :
    accepts (scan (stars n ++ g)) name = true ↔
      ∃ piece rest, name = piece ++ rest ∧ StarsCover n piece ∧
        accepts (scan g) rest = true := by
  -- The stars are paired from the left, so the induction takes away two of them at a time.
  induction n using Nat.twoStepInduction generalizing name with
  | zero => simp [stars, StarsCover]
  | one =>
    rw [show stars 1 ++ g = CodePoint.char '*' :: g from rfl, scan_star hg, accepts_cons_iff]
    rfl
  | more n ih _ =>
    rw [stars_succ, stars_succ, List.cons_append, List.cons_append, scan, accepts_cons_iff]
    constructor
    · rintro ⟨piece, name, rfl, -, hname⟩
      obtain ⟨piece', rest, rfl, -, hrest⟩ := ih.1 hname
      exact ⟨piece ++ piece', rest, (List.append_assoc _ _ _).symm, trivial, hrest⟩
    · rintro ⟨piece, rest, rfl, -, hrest⟩
      exact ⟨piece, rest, rfl, trivial, ih.2 ⟨[], rest, rfl, .nil n, hrest⟩⟩

/-! ### Places in a glob -/

theorem exists_stars_append (g : Text) :
    ∃ n rest, g = stars n ++ rest ∧ rest.head? ≠ some (CodePoint.char '*') := by
  induction g with
  | nil => exact ⟨0, [], rfl, by simp⟩
  | cons c g ih =>
    by_cases hc : c = '*'
    · obtain ⟨n, rest, rfl, hrest⟩ := ih
      exact ⟨n + 1, rest, by rw [hc, stars_succ, List.cons_append], hrest⟩
    · exact ⟨0, c :: g, rfl, by simpa using hc⟩

theorem exists_append_stars (g : Text) :
    ∃ front n, g = front ++ stars n ∧ front.getLast? ≠ some (CodePoint.char '*') := by
  obtain ⟨n, rest, hrest, hhead⟩ := exists_stars_append g.reverse
  refine ⟨rest.reverse, n, ?_, by rwa [List.getLast?_reverse]⟩
  rw [← List.reverse_reverse g, hrest, List.reverse_append, stars, List.reverse_replicate]

/-- **Every place in a glob is a place in a row of stars**, perhaps an empty one. -/
theorem exists_stars_around (before after : Text) : ∃ front m n rest,
    front.getLast? ≠ some (CodePoint.char '*') ∧ rest.head? ≠ some (CodePoint.char '*') ∧
      before = front ++ stars m ∧ after = stars n ++ rest := by
  obtain ⟨front, m, hbefore, hfront⟩ := exists_append_stars before
  obtain ⟨n, rest, hafter, hrest⟩ := exists_stars_append after
  exact ⟨front, m, n, rest, hfront, hrest, hbefore, hafter⟩

/-- A row of stars joins those on either side of it. -/
theorem stars_around (front rest : Text) (m k n : Nat) :
    front ++ stars m ++ (stars k ++ (stars n ++ rest)) =
      front ++ (stars (m + k + n) ++ rest) := by
  rw [← stars_append_stars, ← stars_append_stars]
  simp only [List.append_assoc]

section Around

variable {front rest : Text} (hfront : front.getLast? ≠ some '*') (hrest : rest.head? ≠ some '*')

include hfront hrest

/-- A row of stars takes its piece out of the middle of a name. -/
theorem accepts_scan_around_iff {n : Nat} {name : Text} :
    accepts (scan (front ++ (stars n ++ rest))) name = true ↔
      ∃ start piece stop, name = start ++ (piece ++ stop) ∧ accepts (scan front) start = true ∧
        StarsCover n piece ∧ accepts (scan rest) stop = true := by
  rw [scan_append (.inl hfront), accepts_append_iff]
  constructor
  · rintro ⟨start, name, rfl, hstart, hname⟩
    obtain ⟨piece, stop, rfl, hpiece, hstop⟩ := (accepts_scan_stars_iff hrest).1 hname
    exact ⟨start, piece, stop, rfl, hstart, hpiece, hstop⟩
  · rintro ⟨start, piece, stop, rfl, hstart, hpiece, hstop⟩
    exact ⟨start, piece ++ stop, rfl, hstart,
      (accepts_scan_stars_iff hrest).2 ⟨piece, stop, rfl, hpiece, hstop⟩⟩

/-- One star more loses nothing. -/
theorem accepts_scan_around_succ {n : Nat} {name : Text}
    (h : accepts (scan (front ++ (stars n ++ rest))) name = true) :
    accepts (scan (front ++ (stars (n + 1) ++ rest))) name = true := by
  obtain ⟨start, piece, stop, rfl, hstart, hpiece, hstop⟩ :=
    (accepts_scan_around_iff hfront hrest).1 h
  have hpiece' : StarsCover (n + 1) piece := by
    simpa using hpiece.append (.nil 1)
  exact (accepts_scan_around_iff hfront hrest).2 ⟨start, piece, stop, rfl, hstart, hpiece', hstop⟩

/-- A question mark between two rows of stars takes a character that the one row they make with a
star in its place can take. -/
theorem accepts_scan_around_mark {m n : Nat} {name : Text}
    (h : accepts (scan (front ++ (stars m ++ CodePoint.char '?' :: (stars n ++ rest)))) name =
      true) :
    accepts (scan (front ++ (stars (m + 1 + n) ++ rest))) name = true := by
  have hmark : (CodePoint.char '?' :: (stars n ++ rest)).head? ≠ some '*' := by simp
  obtain ⟨start, piece, name, rfl, hstart, hpiece, hname⟩ :=
    (accepts_scan_around_iff hfront hmark).1 h
  rw [scan, accepts_cons_iff] at hname
  obtain ⟨_, name, rfl, ⟨c, hc, rfl⟩, hname⟩ := hname
  obtain ⟨piece', stop, rfl, hpiece', hstop⟩ := (accepts_scan_stars_iff hrest).1 hname
  refine (accepts_scan_around_iff hfront hrest).2
    ⟨start, piece ++ [c] ++ piece', stop, by simp, hstart, ?_, hstop⟩
  exact (hpiece.append (.singleton hc)).append hpiece'

/-- All rows of two or more stars are alike. -/
theorem accepts_scan_around_congr {m n : Nat} (hm : 2 ≤ m) (hn : 2 ≤ n) (name : Text) :
    accepts (scan (front ++ (stars m ++ rest))) name =
      accepts (scan (front ++ (stars n ++ rest))) name := by
  refine Bool.eq_iff_iff.2 ?_
  rw [accepts_scan_around_iff hfront hrest, accepts_scan_around_iff hfront hrest]
  simp only [StarsCover.of_two_le hm, StarsCover.of_two_le hn]

end Around

/-! ### Widening -/

/-- **One character of a glob is widened.** -/
inductive Widens : Text → Text → Prop where
  /-- A question mark becomes a star. -/
  | mark (before after : Text) :
    Widens (before ++ CodePoint.char '?' :: after) (before ++ CodePoint.char '*' :: after)
  /-- A star becomes two. -/
  | star (before after : Text) :
    Widens (before ++ CodePoint.char '*' :: after)
      (before ++ CodePoint.char '*' :: CodePoint.char '*' :: after)

theorem Widens.binaryName {g g' : Text} (h : Widens g g') :
    Widens (Text.binaryName g) (Text.binaryName g') := by
  cases h with
  | mark before after =>
    simpa [Text.binaryName] using Widens.mark (Text.binaryName before) (Text.binaryName after)
  | star before after =>
    simpa [Text.binaryName] using Widens.star (Text.binaryName before) (Text.binaryName after)

/-- **A wider glob accepts what the glob accepts.** -/
theorem Widens.accepts_scan {g g' : Text} (h : Widens g g') {name : Text}
    (hname : accepts (scan g) name = true) : accepts (scan g') name = true := by
  cases h with
  | mark before after =>
    obtain ⟨front, m, n, rest, hfront, hrest, rfl, rfl⟩ := exists_stars_around before after
    rw [List.append_assoc] at hname
    rw [show CodePoint.char '*' :: (stars n ++ rest) = stars 1 ++ (stars n ++ rest) from rfl,
      stars_around]
    exact accepts_scan_around_mark hfront hrest hname
  | star before after =>
    obtain ⟨front, m, n, rest, hfront, hrest, rfl, rfl⟩ := exists_stars_around before after
    rw [show CodePoint.char '*' :: (stars n ++ rest) = stars 1 ++ (stars n ++ rest) from rfl,
      stars_around] at hname
    rw [show CodePoint.char '*' :: CodePoint.char '*' :: (stars n ++ rest) =
        stars 2 ++ (stars n ++ rest) from rfl,
      stars_around, show m + 2 + n = m + 1 + n + 1 by omega]
    exact accepts_scan_around_succ hfront hrest hname

/-- In a row of two or more stars their number does not matter. -/
theorem accepts_scan_stars_congr {m n : Nat} (hm : 2 ≤ m) (hn : 2 ≤ n) (before after name : Text) :
    accepts (scan (before ++ (stars m ++ after))) name =
      accepts (scan (before ++ (stars n ++ after))) name := by
  obtain ⟨front, i, j, rest, hfront, hrest, rfl, rfl⟩ := exists_stars_around before after
  rw [stars_around, stars_around]
  exact accepts_scan_around_congr hfront hrest (by omega) (by omega) name

end Glob

/-! ### Patterns -/

theorem Text.binaryName_append (t u : Text) : binaryName (t ++ u) = binaryName t ++ binaryName u :=
  List.map_append

theorem Text.binaryName_stars (n : Nat) : binaryName (Glob.stars n) = Glob.stars n :=
  List.map_replicate

/-- **Widening a glob loses no name**, be it once or several times, at any places and whatever
stands next to them. In particular the number of stars in a row does not matter, from two on. -/
theorem ClassPattern.catches_widened (pattern : ClassPattern) :
    (∀ wider name, Relation.ReflTransGen Glob.Widens pattern.glob wider →
      pattern.catches name = true → { pattern with glob := wider }.catches name = true) ∧
    ∀ before after n name, 2 ≤ n →
      { pattern with glob := before ++ (Glob.stars n ++ after) }.catches name =
        { pattern with glob := before ++ ("**".toText ++ after) }.catches name := by
  constructor
  · intro wider name hwider hname
    induction hwider with
    | refl => exact hname
    | tail _ hstep ih =>
      rw [catches_eq_accepts] at ih ⊢
      exact hstep.binaryName.accepts_scan ih
  · intro before after n name hn
    rw [show "**".toText = Glob.stars 2 from rfl, catches_eq_accepts, catches_eq_accepts]
    simp only [Text.binaryName_append, Text.binaryName_stars]
    exact Glob.accepts_scan_stars_congr hn (Nat.le_refl 2) _ _ name

/-- The question mark between two stars goes into their row, whose stars are paired anew. -/
theorem ClassPattern.catches_widened_between :
    Relation.ReflTransGen Glob.Widens "java/*?*".toText "java/***".toText ∧
      (ClassPattern.mk "java/*?*".toText none).catches "java.util".toText = true ∧
      (ClassPattern.mk "java/***".toText none).catches "java.util".toText = true ∧
      2 ≤ 3 ∧
      (ClassPattern.mk "java/***".toText none).catches "java.util.List".toText =
        (ClassPattern.mk "java/**".toText none).catches "java.util.List".toText := by
  have hwider : Relation.ReflTransGen Glob.Widens "java/*?*".toText "java/***".toText :=
    .single (.mark "java/*".toText "*".toText)
  have hcatches : (ClassPattern.mk "java/*?*".toText none).catches "java.util".toText = true := by
    decide
  obtain ⟨hwidened, hrows⟩ := ClassPattern.catches_widened ⟨"java/*?*".toText, none⟩
  exact ⟨hwider, hcatches, hwidened _ _ hwider hcatches, by decide,
    hrows "java/".toText [] 3 _ (by decide)⟩

end Embargo
