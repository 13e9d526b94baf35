import Mathlib.Order.Bounds.Basic
import Embargo.Proofs.Scoping
import Embargo.Proofs.TextOrder

/-!
# The summary line

The summary of missing classes is written one name after the other, the first one behind two spaces
and each of the others behind a comma. Behind every name its length is measured, and once it is long
enough, the names that are left are only counted. Two ends look alike: if the last name makes the
line long enough, and if no name does, nothing is left to be counted.

What is written step by step is compared here with the first names in one line, as many of them as
it takes. The invariant is that the line has not been long enough behind any name that it has.

| what | theorem |
|---|---|
| the names that are kept are said by the set of those that were added | `Missing.foldl_add_congr` |
| one more name in the line | `Missing.listing_concat` |
| the name that makes the line long enough | `Missing.CutsOff.of_isShort` |
| the line that goes on, whatever names it has | `Missing.exists_extend_eq` |

* `Missing.listing` – names in one line.
* `Missing.CutsOff` – the index of the name behind which the line is cut off. There is one such
  index only (`Missing.CutsOff.unique`).
* `Missing.Tallies` – what a summary says of names.
* `Missing.summary_exact` – the main statement.
-/

namespace Embargo

/-- One more text is joined behind a separator. -/
theorem Text.join_concat (separator : Text) {ts : List Text} (h : ts ≠ []) (t : Text) :
    Text.join separator (ts ++ [t]) = Text.join separator ts ++ separator ++ t := by
  fun_induction Text.join separator ts with
  | case1 => exact absurd rfl h
  | case2 u => rfl
  | case3 u v ts ih =>
    have htail : Text.join separator (v :: ts ++ [t]) =
        Text.join separator (v :: ts) ++ separator ++ t := ih (List.cons_ne_nil v ts)
    calc Text.join separator (u :: v :: ts ++ [t])
        = u ++ separator ++ Text.join separator (v :: ts ++ [t]) := rfl
      _ = u ++ separator ++ Text.join separator (v :: ts) ++ separator ++ t := by
        rw [htail]
        simp only [List.append_assoc]

namespace Missing

/-! ### The names that are kept -/

theorem mem_foldl_add {names added : List Text} {name : Text} :
    name ∈ added.foldl add names ↔ name ∈ names ∨ name ∈ added := by
  induction added generalizing names with
  | nil => simp
  | cons t added ih =>
    rw [List.foldl_cons, ih, mem_add, List.mem_cons, or_assoc]
    exact or_left_comm

/-- Names are kept in order, and once each. -/
theorem pairwise_foldl_add (added : List Text) : (added.foldl add []).Pairwise (· < ·) :=
  List.foldlRecOn added add List.Pairwise.nil fun _ h _ _ => Text.pairwise_lt_insertOnce h

/-- **The names that are kept are said by the set of those that were added**, and not by their order
or by how often they came. -/
theorem foldl_add_congr {added added' : List Text} (h : ∀ name, name ∈ added' ↔ name ∈ added) :
    added'.foldl add [] = added.foldl add [] := by
  have hordered (added : List Text) : (added.foldl add []).Pairwise fun t u => id t < id u :=
    pairwise_foldl_add added
  refine Text.eq_of_pairwise_lt (hordered added') (hordered added) fun name => ?_
  rw [mem_foldl_add, mem_foldl_add, h]

/-! ### Names in one line -/

/-- Names in one line, behind two spaces. Without names there is no line. -/
def listing : List Text → Text
  | [] => []
  | name :: names => "  ".toText ++ Text.join ", ".toText (name :: names)

/-- What is written between the names that stand in the line and the next one. -/
def separatorAfter : List Text → Text
  | [] => "  ".toText
  | _ :: _ => ", ".toText

theorem listing_of_ne_nil {names : List Text} (h : names ≠ []) :
    listing names = "  ".toText ++ Text.join ", ".toText names := by
  cases names with
  | nil => exact absurd rfl h
  | cons name names => rfl

theorem separatorAfter_concat (front : List Text) (name : Text) :
    separatorAfter (front ++ [name]) = ", ".toText := by
  cases front <;> rfl

/-- **One more name in the line.** -/
theorem listing_concat (front : List Text) (name : Text) :
    listing (front ++ [name]) = listing front ++ separatorAfter front ++ name := by
  cases front with
  | nil => rfl
  | cons first front =>
    have hjoin := Text.join_concat ", ".toText (List.cons_ne_nil first front) name
    calc listing (first :: front ++ [name])
        = "  ".toText ++ Text.join ", ".toText (first :: front ++ [name]) := rfl
      _ = listing (first :: front) ++ ", ".toText ++ name := by
        rw [hjoin, listing]
        simp only [List.append_assoc]

/-- The words about names that are left out stand only where some are. -/
theorem leftOut_eq (n : Nat) :
    leftOut n = if 0 < n then ",... (and ".toText ++ Numeral.ofNat n ++ " more).".toText
      else [] := by
  cases n <;> rfl

/-! ### Where the line is cut off -/

/-- The line has not been long enough behind any of the names. -/
def IsShort (reached : Nat → Prop) (names : List Text) : Prop :=
  ∀ i, 1 ≤ i → i ≤ names.length → ¬reached (listing (names.take i)).length

/-- **The line is cut off behind the name with this index**, counted from one: the least one at
which the line is long enough, or the last one if there is none such. -/
inductive CutsOff (reached : Nat → Prop) (names : List Text) : Nat → Prop
  /-- With this name, and not sooner, the line is long enough. -/
  | reached {k : Nat}
      (h : IsLeast {i | 1 ≤ i ∧ i ≤ names.length ∧ reached (listing (names.take i)).length} k) :
      CutsOff reached names k
  /-- The line never is long enough. -/
  | never (h : IsShort reached names) : CutsOff reached names names.length

section Cut

variable {reached : Nat → Prop} {names front : List Text} {name : Text} {i k k' : Nat}

theorem IsShort.concat (h : IsShort reached front)
    (hname : ¬reached (listing (front ++ [name])).length) : IsShort reached (front ++ [name]) := by
  intro i hi hle
  rcases Nat.lt_or_eq_of_le hle with hlt | rfl
  · have hfront : i ≤ front.length := by simpa [Nat.lt_succ_iff] using hlt
    rw [List.take_append_of_le_length hfront]
    exact h i hi hfront
  · rwa [List.take_length]

namespace CutsOff

/-- The first name that makes the line long enough is the one behind which it is cut off. -/
theorem of_isShort (h : IsShort reached front)
    (hname : reached (listing (front ++ [name])).length) (rest : List Text) :
    CutsOff reached (front ++ [name] ++ rest) (front ++ [name]).length := by
  refine .reached ⟨⟨by simp, by simp, by rwa [List.take_left]⟩, ?_⟩
  rintro i ⟨hi, -, hr⟩
  by_contra hlt
  have hfront : i ≤ front.length := by simpa [Nat.lt_succ_iff] using hlt
  rw [List.append_assoc, List.take_append_of_le_length hfront] at hr
  exact h i hi hfront hr

/-- **There is one such index only.** -/
theorem unique (h : CutsOff reached names k) (h' : CutsOff reached names k') : k = k' := by
  cases h with
  | reached h =>
    cases h' with
    | reached h' => exact h.unique h'
    | never h' => exact absurd h.1.2.2 (h' k h.1.1 h.1.2.1)
  | never h =>
    cases h' with
    | reached h' => exact absurd h'.1.2.2 (h k' h'.1.1 h'.1.2.1)
    | never => rfl

theorem le_length (h : CutsOff reached names k) : k ≤ names.length := by
  cases h with
  | reached h => exact h.1.2.1
  | never => exact Nat.le_refl _

/-- Of some names one at least is listed. -/
theorem pos (h : CutsOff reached names k) (hne : names ≠ []) : 1 ≤ k := by
  cases h with
  | reached h => exact h.1.1
  | never => exact List.length_pos_of_ne_nil hne

/-- Before it is cut off, the line is not long enough. -/
theorem not_reached (h : CutsOff reached names k) (hi : 1 ≤ i) (hik : i < k) :
    ¬reached (listing (names.take i)).length := by
  intro hreached
  cases h with
  | reached h => exact absurd (h.2 ⟨hi, hik.le.trans h.1.2.1, hreached⟩) (Nat.not_le.2 hik)
  | never h => exact h i hi hik.le hreached

end CutsOff

end Cut

/-- **The line that goes on**, whatever names it has, if it has not been long enough behind any of
them: it ends where the whole line is cut off, and says how many names that leaves out. -/
theorem exists_extend_eq {longEnough : Nat → Bool} {reached : Nat → Prop}
    (hreached : ∀ n, longEnough n = true ↔ reached n) {front : List Text}
    (hshort : IsShort reached front) (rest : List Text) :
    ∃ k, CutsOff reached (front ++ rest) k ∧
      extend longEnough (separatorAfter front) (listing front) rest =
        listing ((front ++ rest).take k) ++ leftOut ((front ++ rest).length - k) := by
  -- On the names that are still to come; the names before them only have to be short together.
  induction rest generalizing front with
  | nil =>
    rw [List.append_nil]
    refine ⟨front.length, .never hshort, ?_⟩
    rw [List.take_length, Nat.sub_self]
    exact (List.append_nil _).symm
  | cons name rest ih =>
    rw [extend, ← listing_concat, List.append_cons]
    by_cases hlong : reached (listing (front ++ [name])).length
    · refine ⟨_, .of_isShort hshort hlong rest, ?_⟩
      rw [if_pos ((hreached _).2 hlong), List.take_left, List.length_append,
        Nat.add_sub_cancel_left]
    · -- The line goes on with one more name in it, and has not been long enough behind that either.
      rw [if_neg fun h => hlong ((hreached _).1 h), ← separatorAfter_concat front name]
      exact ih (hshort.concat hlong)

/-- **A summary is a listing that is cut off**, and says how many names that leaves out. -/
theorem exists_summary_eq {width : Number} {reached : Nat → Prop}
    (hreached : ∀ n, width.leNat n = true ↔ reached n) (names : List Text) :
    ∃ k, CutsOff reached names k ∧
      summary width names = listing (names.take k) ++ leftOut (names.length - k) := by
  have hshort : IsShort reached [] := fun i hi hle => absurd (hi.trans hle) (by simp)
  exact exists_extend_eq hreached hshort names

/-- **The line tallies the names**: it shows the first `k` of them, and announces `left` more. -/
structure Tallies (width : Int) (names : List Text) (k left : Nat) (line : Text) : Prop where
  /-- The last name that is shown is the first one to make the line as long as `width`, or the last
  one of all. -/
  cutsOff : CutsOff (fun length => width ≤ length) names k
  /-- Together, the names that are shown and those that are announced are all names. -/
  total : k + left = names.length
  /-- Without names there is no line. -/
  empty : names = [] → line = []
  /-- The names stand behind two spaces, with commas between them, and before the announcement. -/
  text : names ≠ [] → 1 ≤ k ∧ line = "  ".toText ++ Text.join ", ".toText (names.take k) ++
    if 0 < left then ",... (and ".toText ++ Numeral.ofNat left ++ " more).".toText else []
  /-- Without its last name the line is shorter than `width`. -/
  short : 1 < k → (listing (names.take (k - 1))).length < width

theorem Tallies.of_cutsOff {width : Int} {names : List Text} {k : Nat} {line : Text}
    (h : CutsOff (fun length => width ≤ length) names k)
    (hline : line = listing (names.take k) ++ leftOut (names.length - k)) :
    Tallies width names k (names.length - k) line where
  cutsOff := h
  total := Nat.add_sub_of_le h.le_length
  empty := by
    rintro rfl
    simpa [listing, leftOut] using hline
  text := by
    intro hne
    have hpos := h.pos hne
    have htake : names.take k ≠ [] := by simp [hne, Nat.ne_of_gt hpos]
    rw [listing_of_ne_nil htake, leftOut_eq] at hline
    exact ⟨hpos, hline⟩
  short := fun hk =>
    Int.not_le.1 (h.not_reached (Nat.le_sub_one_of_lt hk) (Nat.sub_one_lt_of_lt hk))

/-- **The summary never miscounts.** Whatever names are added, in whatever order and how often, they
are kept in order and once each, and the summary tallies them: it is cut off behind the least index
at which it is long enough, and what it announces is what it leaves out. It depends on the set of
the names only. -/
theorem summary_exact (added : List Text) (width : Int) :
    let names := added.foldl add []
    (names.Pairwise (· < ·) ∧ ∀ name, name ∈ names ↔ name ∈ added) ∧
    (∃ k left, Tallies width names k left (summary (.int width) names) ∧
      ∀ k', CutsOff (fun length => width ≤ length) names k' → k' = k) ∧
    ∀ added' : List Text, (∀ name, name ∈ added' ↔ name ∈ added) →
      summary (.int width) (added'.foldl add []) = summary (.int width) names := by
  intro names
  have hmem : ∀ name, name ∈ names ↔ name ∈ added := fun name => by
    rw [mem_foldl_add, or_iff_right List.not_mem_nil]
  have hreached : ∀ n, (Number.int width).leNat n = true ↔ width ≤ n := fun n => decide_eq_true_iff
  obtain ⟨k, hcut, hsummary⟩ := exists_summary_eq hreached names
  exact ⟨⟨pairwise_foldl_add added, hmem⟩,
    ⟨k, names.length - k, .of_cutsOff hcut hsummary, fun k' h' => h'.unique hcut⟩,
    fun added' h => congrArg (summary (.int width)) (foldl_add_congr h)⟩

/-- The second of three names makes the line exactly as long as it has to be. One is left out, in
whatever order they come. -/
theorem summary_exact_boundary :
    let added := ["b.B", "a.A", "c.C", "b.B"].map String.toText
    let names := added.foldl add []
    Tallies 10 names 2 1 "  a.A, b.B,... (and 1 more).".toText ∧
    (∀ name, name ∈ ["c.C", "b.B", "a.A"].map String.toText ↔ name ∈ added) ∧
    summary (.int 10) ((["c.C", "b.B", "a.A"].map String.toText).foldl add []) =
      "  a.A, b.B,... (and 1 more).".toText := by
  intro added names
  have hline : summary (.int 10) names = "  a.A, b.B,... (and 1 more).".toText := by decide
  have hsame : ∀ name, name ∈ ["c.C", "b.B", "a.A"].map String.toText ↔ name ∈ added := by
    intro name
    simp only [added, List.map_cons, List.map_nil, List.mem_cons, List.not_mem_nil, or_false]
    tauto
  obtain ⟨-, ⟨k, left, htallies, hunique⟩, hcongr⟩ := summary_exact added 10
  have hcut : CutsOff (fun length => (10 : Int) ≤ length) names 2 := by
    refine .reached ⟨by decide, ?_⟩
    rintro i ⟨hi, -, hr⟩
    by_contra hlt
    -- With the first name alone, the line has five characters.
    obtain rfl : i = 1 := by omega
    revert hr
    decide
  obtain rfl := hunique 2 hcut
  have hleft : left = 1 := by
    have htotal : 2 + left = 3 := htallies.total.trans (by decide)
    omega
  refine ⟨?_, hsame, ?_⟩
  · rw [← hline, ← hleft]
    exact htallies
  · rw [← hline]
    exact hcongr _ hsame

end Missing
end Embargo
