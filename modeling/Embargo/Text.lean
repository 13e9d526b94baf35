import Embargo.CodePoint

/-!
# Text

Every reader of the library recurses on the characters of its input, so a text *is* the list of
its code points. This module holds the operations that the readers and printers share.

* `Text.cut` and `Text.cutLast` – the parts before and after the first, or last, occurrence of a
  character.
* `Text.split` and `Text.join` – fields between separators, and back.
* `Text.trim` – a text without white space at its ends.
* `Text.internalName` and `Text.binaryName` – the two spellings of a class name, with slashes and
  with dots.
* `Text.sort` – texts in the order of their code points.
-/

namespace Embargo

/-- A text is the list of its code points. -/
abbrev Text := List CodePoint

instance : LawfulBEq Text := inferInstanceAs (LawfulBEq (List CodePoint))

end Embargo

/-- The text of a string. -/
def String.toText (s : String) : Embargo.Text := s.toList.map .char

namespace Embargo.Text

/-! ### Cutting and splitting -/

/-- The parts before and after the first `c`; none if there is no `c`. -/
def cut (c : CodePoint) : Text → Option (Text × Text)
  | [] => none
  | d :: r =>
    if d = c then some ([], r) else (cut c r).map fun (before, after) => (d :: before, after)

theorem cut_eq_none_iff {c : CodePoint} {t : Text} : cut c t = none ↔ c ∉ t := by
  induction t with
  | nil => simp [cut]
  | cons d r ih =>
    by_cases h : d = c
    · simp [cut, h]
    · simp [cut, h, Ne.symm h, ih]

theorem cut_eq_some_iff {c : CodePoint} {t before after : Text} :
    cut c t = some (before, after) ↔ t = before ++ c :: after ∧ c ∉ before := by
  induction t generalizing before with
  | nil => simp [cut]
  | cons d r ih =>
    by_cases h : d = c
    · subst h
      cases before with
      | nil => simp [cut]
      | cons e b => simp only [cut]; grind
    · cases before with
      | nil => simp [cut, h]
      | cons e b =>
        have hi := @ih b
        simp only [cut, h, if_false, Option.map_eq_some_iff, Prod.mk.injEq, List.cons.injEq,
          List.cons_append, List.mem_cons, not_or, Prod.exists]
        grind

/-- The parts before and after the last `c`; none if there is no `c`. -/
def cutLast (c : CodePoint) : Text → Option (Text × Text)
  | [] => none
  | d :: r =>
    match cutLast c r with
    | some (before, after) => some (d :: before, after)
    | none => if d = c then some ([], r) else none

theorem mem_of_cutLast {c d : CodePoint} {t before after : Text}
    (h : cutLast c t = some (before, after)) (hd : d ∈ before) : d ∈ t := by
  induction t generalizing before with
  | nil => simp [cutLast] at h
  | cons e r ih =>
    rw [cutLast] at h
    split at h
    · next b a hb =>
      obtain ⟨rfl, rfl⟩ := Prod.mk.inj (Option.some.inj h)
      rcases List.mem_cons.1 hd with rfl | hd
      · simp
      · exact List.mem_cons_of_mem _ (ih hb hd)
    · split at h
      · obtain ⟨rfl, -⟩ := Prod.mk.inj (Option.some.inj h)
        simp at hd
      · simp at h

/-- The fields between the separators: one more field than there are separators. -/
def split (c : CodePoint) : Text → List Text
  | [] => [[]]
  | d :: r =>
    if d = c then [] :: split c r
    else match split c r with
      | [] => [[d]]
      | field :: fields => (d :: field) :: fields

@[simp] theorem split_ne_nil (c : CodePoint) (t : Text) : split c t ≠ [] := by
  cases t with
  | nil => simp [split]
  | cons d r =>
    rw [split]
    split
    · simp
    · split <;> simp

/-- A text without separators is one field. -/
theorem split_of_notMem {c : CodePoint} {t : Text} (h : c ∉ t) : split c t = [t] := by
  induction t with
  | nil => rfl
  | cons d r ih =>
    obtain ⟨hd, hr⟩ := List.ne_and_not_mem_of_not_mem_cons h
    simp [split, Ne.symm hd, ih hr]

/-- The texts one after the other, with a separator between two of them. -/
def join (separator : Text) : List Text → Text
  | [] => []
  | [t] => t
  | t :: u :: ts => t ++ separator ++ join separator (u :: ts)

theorem split_eq_splitOn (c : CodePoint) (t : Text) : split c t = t.splitOn c := by
  induction t with
  | nil => rfl
  | cons d r ih =>
    rw [split, List.splitOn_cons_eq_if_modifyHead, ih]
    by_cases h : d = c
    · simp [h]
    · cases hr : r.splitOn c with
      | nil => exact absurd hr (List.splitOn_ne_nil c r)
      | cons field fields => simp [h]

theorem join_eq_intercalate (separator : Text) (ts : List Text) :
    join separator ts = separator.intercalate ts := by
  fun_induction join separator ts with
  | case1 => rfl
  | case2 t => exact List.intercalate_singleton.symm
  | case3 t u ts ih => rw [List.intercalate_cons_cons, ih, List.append_assoc]

/-- Fields without separators are read back. -/
theorem split_join {c : CodePoint} {fields : List Text} (h : ∀ field ∈ fields, c ∉ field)
    (hne : fields ≠ []) : split c (join [c] fields) = fields := by
  rw [split_eq_splitOn, join_eq_intercalate, List.splitOn_intercalate c h hne]

/-- Two fields without separators are read back. -/
theorem split_pair {c : CodePoint} {field field' : Text} (h : c ∉ field) (h' : c ∉ field') :
    split c (field ++ [c] ++ field') = [field, field'] := by
  have hfields : ∀ f ∈ [field, field'], c ∉ f := by
    rintro f hf
    rcases List.mem_cons.1 hf with rfl | hf
    · exact h
    · exact List.mem_singleton.1 hf ▸ h'
  exact split_join hfields (by simp)

/-- A text is its fields with the separators between them. -/
theorem join_split (c : CodePoint) (t : Text) : join [c] (split c t) = t := by
  rw [split_eq_splitOn, join_eq_intercalate, List.intercalate_splitOn]

/-- A field holds no separator, and nothing that the text does not hold. -/
theorem of_mem_split {c d : CodePoint} {t field : Text} (h : field ∈ split c t) (hd : d ∈ field) :
    d ≠ c ∧ d ∈ t := by
  induction t generalizing field with
  | nil =>
    obtain rfl := List.mem_singleton.1 h
    cases hd
  | cons e r ih =>
    rw [split] at h
    split at h
    · rcases List.mem_cons.1 h with rfl | h
      · cases hd
      · exact (ih h hd).imp_right (List.mem_cons_of_mem e)
    · next hne =>
      split at h
      · next hr => exact absurd hr (split_ne_nil c r)
      · next first fields hr =>
        rw [hr] at ih
        rcases List.mem_cons.1 h with rfl | h
        · rcases List.mem_cons.1 hd with rfl | hd
          · exact ⟨hne, List.mem_cons_self⟩
          · exact (ih List.mem_cons_self hd).imp_right (List.mem_cons_of_mem e)
        · exact (ih (List.mem_cons_of_mem first h) hd).imp_right (List.mem_cons_of_mem e)

/-- What stands in a joined text stands in a separator or in one of the texts. -/
theorem of_mem_join {separator : Text} {c : CodePoint} {ts : List Text}
    (h : c ∈ join separator ts) : c ∈ separator ∨ ∃ t ∈ ts, c ∈ t := by
  fun_induction join separator ts with
  | case1 => cases h
  | case2 t => exact .inr ⟨t, List.mem_singleton_self t, h⟩
  | case3 t u ts ih =>
    rcases List.mem_append.1 h with h | h
    · rcases List.mem_append.1 h with h | h
      · exact .inr ⟨t, List.mem_cons_self, h⟩
      · exact .inl h
    · rcases ih h with h | ⟨v, hv, h⟩
      · exact .inl h
      · exact .inr ⟨v, List.mem_cons_of_mem t hv, h⟩

/-! ### White space -/

/-- White space that is removed at the ends of a line, over all of Unicode. -/
def isBlank (c : CodePoint) : Bool :=
  let code := c.toNat
  (0x09 ≤ code && code ≤ 0x0D) || (0x1C ≤ code && code ≤ 0x20) || code = 0x85 || code = 0xA0 ||
    code = 0x1680 || (0x2000 ≤ code && code ≤ 0x200A) || code = 0x2028 || code = 0x2029 ||
    code = 0x202F || code = 0x205F || code = 0x3000

/-- The text without the white space that it begins with. -/
def trimLeft (t : Text) : Text := t.dropWhile isBlank

/-- The text without the white space that it ends with. -/
def trimRight (t : Text) : Text := (t.reverse.dropWhile isBlank).reverse

/-- The text without white space at either end. -/
def trim (t : Text) : Text := trimRight (trimLeft t)

/-- A text with other characters at both ends is trimmed. -/
theorem trim_eq_self {t : Text} (hhead : ∀ c ∈ t.head?, isBlank c = false)
    (hlast : ∀ c ∈ t.getLast?, isBlank c = false) : trim t = t := by
  have hdrop {t : Text} (h : ∀ c ∈ t.head?, isBlank c = false) : t.dropWhile isBlank = t := by
    cases t with
    | nil => rfl
    | cons c r => simp [h c rfl]
  rw [trim, trimLeft, hdrop hhead, trimRight, hdrop (by simpa using hlast), List.reverse_reverse]

theorem trim_of_forall {t : Text} (h : ∀ c ∈ t, isBlank c = false) : trim t = t :=
  trim_eq_self (fun c hc => h c (List.mem_of_mem_head? hc))
    fun c hc => h c (List.mem_of_getLast? hc)

theorem trim_cons {c : CodePoint} (h : isBlank c = true) (t : Text) : trim (c :: t) = trim t := by
  simp [trim, trimLeft, h]

theorem length_trim_le (t : Text) : (trim t).length ≤ t.length := by
  have hdrop (t : Text) : (t.dropWhile isBlank).length ≤ t.length :=
    (List.dropWhile_sublist isBlank).length_le
  have hright := hdrop (trimLeft t).reverse
  have hleft : (trimLeft t).length ≤ t.length := hdrop t
  rw [List.length_reverse] at hright
  rw [trim, trimRight, List.length_reverse]
  omega

/-- A trimmed text does not begin with white space. -/
theorem isBlank_head {t : Text} (h : trim t = t) : ∀ c ∈ t.head?, isBlank c = false := by
  intro c hc
  cases t with
  | nil => cases hc
  | cons d r =>
    obtain rfl := Option.some.inj hc
    cases hblank : isBlank d with
    | false => rfl
    | true =>
      have hlength := congrArg List.length h
      have hsub := length_trim_le r
      rw [trim_cons hblank, List.length_cons] at hlength
      omega

/-- A trimmed text is trimmed. -/
theorem trim_trim (t : Text) : trim (trim t) = trim t := by
  have hdrop (u : Text) : ∀ c ∈ (u.dropWhile isBlank).head?, isBlank c = false := by
    intro c hc
    have hhead := List.head?_dropWhile_not isBlank u
    rw [Option.mem_def.1 hc] at hhead
    simpa using hhead
  refine trim_eq_self (fun c hc => hdrop t c ?_) fun c hc => hdrop (trimLeft t).reverse c ?_
  · -- What stands first in the trimmed text stands first without white space at the front.
    obtain ⟨u, hu⟩ : trim t <+: trimLeft t :=
      List.reverse_suffix.1 (by simpa [trim, trimRight] using List.dropWhile_suffix isBlank)
    obtain ⟨r, hr⟩ := List.head?_eq_some_iff.1 hc
    rw [hr] at hu
    exact (congrArg List.head? hu).symm
  · simpa [trim, trimRight] using hc

theorem mem_dropWhile_isBlank {c : CodePoint} (hc : isBlank c = false) {t : Text} (h : c ∈ t) :
    c ∈ t.dropWhile isBlank := by
  induction t with
  | nil => cases h
  | cons d r ih =>
    cases hd : isBlank d with
    | true =>
      rw [List.dropWhile_cons_of_pos hd]
      refine ih ((List.mem_cons.1 h).resolve_left ?_)
      rintro rfl
      rw [hd] at hc
      cases hc
    | false => rwa [List.dropWhile_cons_of_neg (by simp [hd])]

/-- Only white space is taken away at the ends. -/
theorem mem_trim {c : CodePoint} (hc : isBlank c = false) {t : Text} (h : c ∈ t) : c ∈ trim t :=
  List.mem_reverse.2 (mem_dropWhile_isBlank hc (List.mem_reverse.2 (mem_dropWhile_isBlank hc h)))

/-! ### Class names -/

/-- A class name with slashes: `java/lang/String`. -/
def internalName (t : Text) : Text := t.map fun (c : CodePoint) => if c = '.' then '/' else c

/-- A class name with dots: `java.lang.String`. -/
def binaryName (t : Text) : Text := t.map fun (c : CodePoint) => if c = '/' then '.' else c

@[simp] theorem internalName_binaryName (t : Text) :
    internalName (binaryName t) = internalName t := by
  simp only [internalName, binaryName, List.map_map]
  congr 1; funext c; by_cases h : c = CodePoint.char '/' <;> simp [h]

@[simp] theorem internalName_internalName (t : Text) :
    internalName (internalName t) = internalName t := by
  simp only [internalName, List.map_map]
  congr 1; funext c; by_cases h : c = CodePoint.char '.' <;> simp [h]

/-! ### Order -/

/-- The element put before the first one whose key is not smaller. -/
def insertBy {α : Type} (key : α → Text) (x : α) : List α → List α
  | [] => [x]
  | y :: ys => if key x ≤ key y then x :: y :: ys else y :: insertBy key x ys

/-- The elements in the order of their keys; elements with one key keep their order. -/
def sortBy {α : Type} (key : α → Text) (xs : List α) : List α := xs.foldr (insertBy key) []

@[simp] theorem mem_insertBy {α : Type} {key : α → Text} {x y : α} {xs : List α} :
    y ∈ insertBy key x xs ↔ y = x ∨ y ∈ xs := by
  induction xs with
  | nil => simp [insertBy]
  | cons z zs ih =>
    rw [insertBy]
    split
    · simp
    · rw [List.mem_cons, ih, List.mem_cons]
      exact or_left_comm

@[simp] theorem mem_sortBy {α : Type} {key : α → Text} {y : α} {xs : List α} :
    y ∈ sortBy key xs ↔ y ∈ xs := by
  induction xs with
  | nil => simp [sortBy]
  | cons x xs ih => rw [sortBy, List.foldr_cons, ← sortBy, mem_insertBy, ih, List.mem_cons]

/-- The texts in the order of their code points. -/
def sort (ts : List Text) : List Text := sortBy id ts

/-- A text put into an ordered list of texts, once. -/
def insertOnce (t : Text) : List Text → List Text
  | [] => [t]
  | u :: us => if t = u then u :: us else if t < u then t :: u :: us else u :: insertOnce t us

@[simp] theorem mem_insertOnce {t u : Text} {us : List Text} :
    u ∈ insertOnce t us ↔ u = t ∨ u ∈ us := by
  induction us with
  | nil => simp [insertOnce]
  | cons v vs ih =>
    rw [insertOnce]
    split
    · next h => simp [h]
    · split
      · simp
      · rw [List.mem_cons, ih, List.mem_cons]
        exact or_left_comm

end Embargo.Text

namespace Embargo

/-! ### Duplicate-free lists -/

/-- An element added at the end of a list that does not hold it. -/
def addOnce {α : Type} [DecidableEq α] (xs : List α) (x : α) : List α :=
  if x ∈ xs then xs else xs ++ [x]

/-- The distinct elements of a list, each at its first position. -/
def distinct {α : Type} [DecidableEq α] (xs : List α) : List α := xs.foldl addOnce []

@[simp] theorem mem_addOnce {α : Type} [DecidableEq α] {xs : List α} {x y : α} :
    y ∈ addOnce xs x ↔ y ∈ xs ∨ y = x := by
  unfold addOnce; split <;> grind

theorem nodup_addOnce {α : Type} [DecidableEq α] {xs : List α} (h : xs.Nodup) (x : α) :
    (addOnce xs x).Nodup := by
  unfold addOnce
  split
  · exact h
  · next hx => simpa [List.nodup_append, h] using fun a ha (hax : a = x) => hx (hax ▸ ha)

@[simp] theorem mem_distinct {α : Type} [DecidableEq α] {xs : List α} {x : α} :
    x ∈ distinct xs ↔ x ∈ xs := by
  have general (acc : List α) : x ∈ xs.foldl addOnce acc ↔ x ∈ acc ∨ x ∈ xs := by
    induction xs generalizing acc with
    | nil => simp
    | cons y ys ih => rw [List.foldl_cons, ih, mem_addOnce, List.mem_cons, or_assoc]
  simp [distinct, general]

theorem nodup_distinct {α : Type} [DecidableEq α] (xs : List α) : (distinct xs).Nodup :=
  List.foldlRecOn xs addOnce List.nodup_nil fun _ h x _ => nodup_addOnce h x

theorem find?_addOnce {α : Type} [DecidableEq α] (p : α → Bool) (xs : List α) (x : α) :
    (addOnce xs x).find? p = (xs ++ [x]).find? p := by
  unfold addOnce
  split
  · next hx =>
    rw [List.find?_append]
    cases h : xs.find? p with
    | some y => rfl
    | none => simp [List.find?_eq_none.1 h x hx]
  · rfl

/-- What is found first is found first among the distinct elements. -/
theorem find?_distinct {α : Type} [DecidableEq α] (p : α → Bool) (xs : List α) :
    (distinct xs).find? p = xs.find? p := by
  have general (acc : List α) : (xs.foldl addOnce acc).find? p = (acc ++ xs).find? p := by
    induction xs generalizing acc with
    | nil => simp
    | cons x xs ih =>
      rw [List.foldl_cons, ih, List.find?_append, find?_addOnce, ← List.find?_append]
      simp
  exact general []

end Embargo
