import Embargo.Glob
import Mathlib.Data.List.Forall2

/-!
# The language of a glob

A glob is read in two steps. From the left it is cut into tokens, and then a name is caught if it
can be cut into consecutive **pieces**, one for each token and in their order. The steps are given
here apart from the functions that take them.

| token | written | its pieces |
| --- | --- | --- |
| `deep` | `**` | any text |
| `run` | `*`, without a star behind it | any text without a dot |
| `one` | `?` | one character other than a dot |
| `literal c` | `c` | that character |

* `Glob.IsCutInto` – how a glob is cut; there is one way to do it (`Glob.isCutInto_iff`).
* `GlobToken.Covers` – what the pieces of a token are.
* `Glob.accepts_iff` – tokens accept the names that can be cut into their pieces.
* `ClassPattern.catches_iff` – **the language of a pattern**, from the two steps.
-/

namespace Embargo

/-! ### Tokens -/

namespace Glob

/-- **Cutting a glob into tokens**, from the left. A star is a token of its own only if no star
follows it. -/
inductive IsCutInto : Text → List GlobToken → Prop where
  /-- Nothing is left. -/
  | nil : IsCutInto [] []
  /-- Two stars are one token, whatever follows them. -/
  | deep {g : Text} {ts : List GlobToken} (h : IsCutInto g ts) :
    IsCutInto ('*' :: '*' :: g) (.deep :: ts)
  /-- A star that no star follows. -/
  | run {g : Text} {ts : List GlobToken} (hstar : g.head? ≠ some '*') (h : IsCutInto g ts) :
    IsCutInto ('*' :: g) (.run :: ts)
  /-- A question mark. -/
  | one {g : Text} {ts : List GlobToken} (h : IsCutInto g ts) : IsCutInto ('?' :: g) (.one :: ts)
  /-- Any other character. -/
  | literal {c : CodePoint} {g : Text} {ts : List GlobToken} (hstar : c ≠ '*') (hmark : c ≠ '?')
    (h : IsCutInto g ts) : IsCutInto (c :: g) (.literal c :: ts)

theorem scan_star {g : Text} (h : g.head? ≠ some '*') : scan ('*' :: g) = .run :: scan g := by
  rcases g with _ | ⟨c, g⟩
  · rfl
  · have hc : c ≠ '*' := fun hc => h (congrArg some hc)
    rw [scan]
    rintro r hr
    exact hc (List.cons.inj hr).1

theorem scan_literal {c : CodePoint} (hstar : c ≠ '*') (hmark : c ≠ '?') (g : Text) :
    scan (c :: g) = .literal c :: scan g := by
  rw [scan]
  · exact fun _ hc _ => hstar hc
  · exact hstar
  · exact hmark

theorem isCutInto_scan (g : Text) : IsCutInto g (scan g) := by
  fun_induction scan g with
  | case1 => exact .nil
  | case2 g ih => exact .deep ih
  | case3 g hstar ih =>
    refine .run (fun h => ?_) ih
    obtain ⟨r, rfl⟩ := List.head?_eq_some_iff.1 h
    exact hstar r rfl
  | case4 g ih => exact .one ih
  | case5 c g hdeep hstar hmark ih => exact .literal hstar hmark ih

/-- **A glob is cut in one way.** -/
theorem isCutInto_iff {g : Text} {ts : List GlobToken} : IsCutInto g ts ↔ ts = scan g := by
  constructor
  · intro h
    induction h with
    | nil => rfl
    | deep h ih => rw [ih, scan]
    | run hstar h ih => rw [ih, scan_star hstar]
    | one h ih => rw [ih, scan]
    | literal hstar hmark h ih => rw [ih, scan_literal hstar hmark]
  · rintro rfl
    exact isCutInto_scan g

/-- Between two stars a glob may not be taken apart. Anywhere else, what stands on either side is
cut as if alone. -/
theorem IsCutInto.append {g g' : Text} {ts ts' : List GlobToken} (h : IsCutInto g ts)
    (h' : IsCutInto g' ts') (hplace : g.getLast? ≠ some '*' ∨ g'.head? ≠ some '*') :
    IsCutInto (g ++ g') (ts ++ ts') := by
  have htail {c : CodePoint} {r : Text} (hplace : (c :: r).getLast? ≠ some '*' ∨
      g'.head? ≠ some '*') : r.getLast? ≠ some '*' ∨ g'.head? ≠ some '*' :=
    hplace.imp_left fun hlast hr => hlast (by simp [List.getLast?_cons, hr])
  induction h with
  | nil => exact h'
  | deep h ih => exact .deep (ih (htail (htail hplace)))
  | @run r ts hstar h ih =>
    refine .run ?_ (ih (htail hplace))
    rcases r with _ | ⟨c, r⟩
    · exact hplace.resolve_left fun hlast => hlast rfl
    · exact hstar
  | one h ih => exact .one (ih (htail hplace))
  | literal hstar hmark h ih => exact .literal hstar hmark (ih (htail hplace))

theorem scan_append {g g' : Text} (h : g.getLast? ≠ some '*' ∨ g'.head? ≠ some '*') :
    scan (g ++ g') = scan g ++ scan g' :=
  (isCutInto_iff.1 ((isCutInto_scan g).append (isCutInto_scan g') h)).symm

end Glob

/-! ### Pieces -/

/-- **What a token stands for** in a name. -/
def GlobToken.Covers : GlobToken → Text → Prop
  | .deep, _ => True
  | .run, piece => CodePoint.char '.' ∉ piece
  | .one, piece => ∃ c : CodePoint, c ≠ '.' ∧ piece = [c]
  | .literal c, piece => piece = [c]

namespace Glob

theorem afterAny_iff {p : Text → Bool} {name : Text} :
    afterAny p name = true ↔ ∃ piece rest, name = piece ++ rest ∧ p rest = true := by
  induction name with
  | nil => simp [afterAny]
  | cons c name ih =>
    rw [afterAny, Bool.or_eq_true, ih]
    constructor
    · rintro (h | ⟨piece, rest, rfl, h⟩)
      · exact ⟨[], c :: name, rfl, h⟩
      · exact ⟨c :: piece, rest, rfl, h⟩
    · rintro ⟨_ | ⟨d, piece⟩, rest, hname, h⟩
      · exact .inl (hname ▸ h)
      · exact .inr ⟨piece, rest, (List.cons.inj hname).2, h⟩

theorem afterRun_iff {p : Text → Bool} {name : Text} :
    afterRun p name = true ↔
      ∃ piece rest, name = piece ++ rest ∧ CodePoint.char '.' ∉ piece ∧ p rest = true := by
  induction name with
  | nil => simp [afterRun]
  | cons c name ih =>
    rw [afterRun, Bool.or_eq_true, Bool.and_eq_true, ih, decide_eq_true_eq]
    constructor
    · rintro (h | ⟨hc, piece, rest, rfl, hpiece, h⟩)
      · exact ⟨[], c :: name, rfl, List.not_mem_nil, h⟩
      · exact ⟨c :: piece, rest, rfl, List.not_mem_cons_of_ne_of_not_mem (Ne.symm hc) hpiece, h⟩
    · rintro ⟨_ | ⟨d, piece⟩, rest, hname, hpiece, h⟩
      · exact .inl (hname ▸ h)
      · obtain ⟨rfl, rfl⟩ := List.cons.inj hname
        obtain ⟨hc, hpiece⟩ := List.ne_and_not_mem_of_not_mem_cons hpiece
        exact .inr ⟨Ne.symm hc, piece, rest, rfl, hpiece, h⟩

/-- A token takes one of its pieces off the front of a name, and the others take the rest. -/
theorem accepts_cons_iff {t : GlobToken} {ts : List GlobToken} {name : Text} :
    accepts (t :: ts) name = true ↔
      ∃ piece rest, name = piece ++ rest ∧ t.Covers piece ∧ accepts ts rest = true := by
  cases t with
  | deep => simp [accepts, afterAny_iff, GlobToken.Covers]
  | run => rw [accepts, afterRun_iff]; rfl
  | one =>
    cases name with
    | nil => simp [accepts, GlobToken.Covers]
    | cons d name => simp [accepts, GlobToken.Covers]
  | literal c =>
    cases name with
    | nil => simp [accepts, GlobToken.Covers]
    | cons d name => simp [accepts, GlobToken.Covers]

/-- **Tokens accept the names that can be cut into their pieces.** -/
theorem accepts_iff {ts : List GlobToken} {name : Text} :
    accepts ts name = true ↔
      ∃ pieces, List.Forall₂ GlobToken.Covers ts pieces ∧ pieces.flatten = name := by
  induction ts generalizing name with
  | nil => simp [accepts]
  | cons t ts ih =>
    rw [accepts_cons_iff]
    constructor
    · rintro ⟨piece, rest, rfl, hpiece, hrest⟩
      obtain ⟨pieces, hpieces, rfl⟩ := ih.1 hrest
      exact ⟨piece :: pieces, .cons hpiece hpieces, rfl⟩
    · rintro ⟨pieces, hpieces, rfl⟩
      obtain _ | ⟨hpiece, hpieces⟩ := hpieces
      exact ⟨_, _, rfl, hpiece, ih.2 ⟨_, hpieces, rfl⟩⟩

end Glob

/-! ### Patterns -/

theorem ClassPattern.catches_eq_accepts (pattern : ClassPattern) (name : Text) :
    pattern.catches name = Glob.accepts (Glob.scan (Text.binaryName pattern.glob)) name :=
  Glob.Matches_eq_accepts pattern.glob name

/-- **The language of a pattern.** Its glob, with dots for slashes, is cut into tokens in one way,
and the pattern catches a name if and only if the name can be cut into consecutive pieces, one for
each token in order. -/
theorem ClassPattern.catches_iff (pattern : ClassPattern) (name : Text) :
    (∃! ts, Glob.IsCutInto (Text.binaryName pattern.glob) ts) ∧
      (pattern.catches name = true ↔
        ∃ ts pieces, Glob.IsCutInto (Text.binaryName pattern.glob) ts ∧
          List.Forall₂ GlobToken.Covers ts pieces ∧ pieces.flatten = name) := by
  refine ⟨⟨_, Glob.isCutInto_scan _, fun ts h => Glob.isCutInto_iff.1 h⟩, ?_⟩
  rw [pattern.catches_eq_accepts, Glob.accepts_iff]
  constructor
  · rintro ⟨pieces, hpieces, hname⟩
    exact ⟨_, pieces, Glob.isCutInto_scan _, hpieces, hname⟩
  · rintro ⟨ts, pieces, hcut, hpieces, hname⟩
    obtain rfl := Glob.isCutInto_iff.1 hcut
    exact ⟨pieces, hpieces, hname⟩

/-- A run of three stars reaches across dots, a star alone does not; metacharacters stand for
themselves. -/
example : (ClassPattern.mk "a/***".toText none).catches "a.b.C".toText = true ∧
    (ClassPattern.mk "a/*".toText none).catches "a.b.C".toText = false ∧
    (ClassPattern.mk "a[b]+?".toText none).catches "a[b]+c".toText = true := by
  decide

end Embargo
