import Mathlib.Data.List.Sort
import Embargo.Text

/-!
# The order of texts

Texts are in the order of their code points, as words are in a dictionary. This order is linear, so
a list that is strictly in order is said by its members alone: two lists with the same members are
one list, however each of them came about.

* `Text.pairwise_sortBy` – sorting puts elements in the order of their keys, and strictly so if no
  key is there twice (`Text.pairwise_lt_sortBy`).
* `Text.eq_of_pairwise_lt` – two lists that are strictly in order are one if they have the same
  members.
* `Text.pairwise_lt_insertOnce` – a text put into an ordered list leaves it in order, without
  duplicates.
-/

namespace Embargo

instance : Std.IsLinearOrder CodePoint where
  le_refl a := Nat.le_refl a.toNat
  le_trans _ _ _ := Nat.le_trans
  le_antisymm _ _ h h' := CodePoint.toNat_inj.1 (Nat.le_antisymm h h')
  le_total a b := Nat.le_total a.toNat b.toNat

instance : Std.LawfulOrderLT CodePoint where
  lt_iff a b := by
    change a.toNat < b.toNat ↔ a.toNat ≤ b.toNat ∧ ¬b.toNat ≤ a.toNat
    omega

namespace Text

/-! ### Sorting by a key -/

section SortBy

variable {α : Type} {key : α → Text} {x : α} {xs : List α}

theorem perm_insertBy : (insertBy key x xs).Perm (x :: xs) := by
  induction xs with
  | nil => exact .refl _
  | cons y ys ih =>
    rw [insertBy]
    split
    · exact .refl _
    · exact (ih.cons y).trans (.swap x y ys)

theorem perm_sortBy : (sortBy key xs).Perm xs := by
  induction xs with
  | nil => exact .refl _
  | cons x xs ih => exact perm_insertBy.trans (ih.cons x)

theorem pairwise_insertBy (h : xs.Pairwise fun y z => key y ≤ key z) :
    (insertBy key x xs).Pairwise fun y z => key y ≤ key z := by
  induction xs with
  | nil => exact List.pairwise_singleton _ x
  | cons y ys ih =>
    obtain ⟨hy, hys⟩ := List.pairwise_cons.1 h
    rw [insertBy]
    split
    · next hle =>
      refine List.pairwise_cons.2 ⟨fun z hz => ?_, h⟩
      rcases List.mem_cons.1 hz with rfl | hz
      · exact hle
      · exact List.le_trans hle (hy z hz)
    · next hle =>
      refine List.pairwise_cons.2 ⟨fun z hz => ?_, ih hys⟩
      rcases mem_insertBy.1 hz with rfl | hz
      · exact (List.le_total _ _).resolve_left hle
      · exact hy z hz

/-- **Sorting puts elements in the order of their keys.** -/
theorem pairwise_sortBy : (sortBy key xs).Pairwise fun y z => key y ≤ key z := by
  induction xs with
  | nil => exact List.Pairwise.nil
  | cons x xs ih => exact pairwise_insertBy ih

/-- Elements with different keys are strictly in order. -/
theorem pairwise_lt_sortBy (h : (xs.map key).Nodup) :
    (sortBy key xs).Pairwise fun y z => key y < key z := by
  have hdistinct : (sortBy key xs).Pairwise fun y z => key y ≠ key z :=
    List.pairwise_map.1 ((perm_sortBy.map key).nodup_iff.2 h)
  exact (pairwise_sortBy.and hdistinct).imp fun ⟨hle, hne⟩ => Std.lt_of_le_of_ne hle hne

/-- **A list that is strictly in order is said by its members.** -/
theorem eq_of_pairwise_lt {ys : List α} (hx : xs.Pairwise fun y z => key y < key z)
    (hy : ys.Pairwise fun y z => key y < key z) (h : ∀ x, x ∈ xs ↔ x ∈ ys) : xs = ys := by
  have hirrefl : Std.Irrefl fun y z => key y < key z := ⟨fun y => List.lt_irrefl (key y)⟩
  have hantisymm : Std.Antisymm fun y z => key y < key z :=
    ⟨fun y z hyz hzy => absurd (List.lt_trans hyz hzy) (List.lt_irrefl (key y))⟩
  exact hx.eq_of_mem_iff hy h

end SortBy

/-- **A sorted list begins with its least element.** -/
theorem head_le_sort (ts : List Text) : ∀ u ∈ (sort ts).head?, ∀ v ∈ sort ts, u ≤ v := by
  have hsorted : (sort ts).Pairwise fun u v => u ≤ v := pairwise_sortBy
  intro u hu v hv
  obtain ⟨us, hus⟩ := List.head?_eq_some_iff.1 hu
  rw [hus] at hsorted hv
  rcases List.mem_cons.1 hv with rfl | hv
  · exact List.le_refl _
  · exact (List.pairwise_cons.1 hsorted).1 v hv

/-! ### Ordered lists without duplicates -/

/-- **A text put into an ordered list, once, leaves it in order.** -/
theorem pairwise_lt_insertOnce {t : Text} {us : List Text} (h : us.Pairwise (· < ·)) :
    (insertOnce t us).Pairwise (· < ·) := by
  induction us with
  | nil => exact List.pairwise_singleton _ t
  | cons u us ih =>
    obtain ⟨hu, hus⟩ := List.pairwise_cons.1 h
    rw [insertOnce]
    split
    · exact h
    · next hne =>
      split
      · next hlt =>
        refine List.pairwise_cons.2 ⟨fun v hv => ?_, h⟩
        rcases List.mem_cons.1 hv with rfl | hv
        · exact hlt
        · exact List.lt_trans hlt (hu v hv)
      · next hlt =>
        refine List.pairwise_cons.2 ⟨fun v hv => ?_, ih hus⟩
        rcases mem_insertOnce.1 hv with rfl | hv
        · exact Std.lt_of_le_of_ne (List.not_lt.1 hlt) (Ne.symm hne)
        · exact hu v hv

end Text
end Embargo
