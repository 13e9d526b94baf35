import Embargo.Jvm.Type.Descriptor
import Embargo.Jvm.Type.SourceName

/-!
# Descriptors and rows of them

A descriptor shows where it ends, and so a row of descriptors needs no separators: descriptors are
a prefix code. This module says which texts are descriptors and rows of descriptors. Each reader
gives a type back if and only if the text is the descriptor of that type, with the rest behind it,
and the class name in it is one that descriptors can hold.

* `FieldType.NameSatisfies`, `ReturnType.NameSatisfies` – a condition on the class name in a type.
* `IsInternalName` – the class names that descriptors can hold: any text but the empty one and
  those with a semicolon, be it with spaces or parentheses.
* `FieldType.read?_eq_some_iff`, `FieldType.readMany_eq_iff`, `ReturnType.ofDescriptor_eq_ok_iff` –
  **what is read is what is written**, for one descriptor with a rest, a row and a whole text.
* `FieldType.notMem_descriptor_iff`, `FieldType.of_mem_descriptor` – the characters of a descriptor.
-/

namespace Embargo.Jvm

/-! ### Letters of base types -/

/-- The letters of the base types. -/
def BaseType.letters : Text := "ZCBSIFJD".toText

theorem BaseType.isSome_ofLetter?_iff {c : CodePoint} :
    (ofLetter? c).isSome = true ↔ c ∈ BaseType.letters := by
  rw [show BaseType.letters = all.map letter from rfl, ofLetter?, List.find?_isSome, List.mem_map]
  simp only [decide_eq_true_eq]

theorem BaseType.letter_mem_letters (b : BaseType) : b.letter ∈ BaseType.letters := by
  cases b <;> decide

/-! ### Class names in types -/

/-- The class names that descriptors can hold. -/
def IsInternalName (name : Text) : Prop := name ≠ [] ∧ CodePoint.char ';' ∉ name

instance (name : Text) : Decidable (IsInternalName name) := inferInstanceAs (Decidable (_ ∧ _))

namespace FieldType

/-- The name of the class in a type satisfies a condition. There is at most one name, for arrays
that of their innermost elements. -/
def NameSatisfies (p : Text → Prop) : FieldType → Prop
  | .base _ => True
  | .object name => p name
  | .array t => t.NameSatisfies p

instance NameSatisfies.decidable (p : Text → Prop) [DecidablePred p] :
    (t : FieldType) → Decidable (t.NameSatisfies p)
  | .base _ => isTrue trivial
  | .object name => inferInstanceAs (Decidable (p name))
  | .array t => NameSatisfies.decidable p t

theorem NameSatisfies.mono {p q : Text → Prop} {t : FieldType} (h : t.NameSatisfies p)
    (hpq : ∀ name, p name → q name) : t.NameSatisfies q := by
  induction t with
  | base b => trivial
  | object name => exact hpq name h
  | array t ih => exact ih h

theorem nameSatisfies_and {p q : Text → Prop} {t : FieldType} :
    t.NameSatisfies (fun name => p name ∧ q name) ↔ t.NameSatisfies p ∧ t.NameSatisfies q := by
  induction t with
  | base b => exact (and_self_iff).symm
  | object name => exact Iff.rfl
  | array t ih => exact ih

end FieldType

/-- The name of the class in a return type satisfies a condition. -/
def ReturnType.NameSatisfies (p : Text → Prop) : ReturnType → Prop
  | .void => True
  | .value t => t.NameSatisfies p

/-! ### Characters of descriptors -/

namespace FieldType

theorem descriptor_object (name : Text) :
    (object name).descriptor = CodePoint.char 'L' :: (name ++ [CodePoint.char ';']) := by
  simp [descriptor, String.toText]

/-- A character that descriptors themselves do not use can stand in the class name only. -/
theorem notMem_descriptor_iff {c : CodePoint} (hc : c ∉ "[L;".toText ++ BaseType.letters)
    {t : FieldType} : c ∉ t.descriptor ↔ t.NameSatisfies (c ∉ ·) := by
  have hmarks : c ≠ '[' ∧ c ≠ 'L' ∧ c ≠ ';' ∧ c ∉ BaseType.letters := by
    simpa [String.toText, List.mem_append, not_or, and_assoc] using hc
  obtain ⟨hbracket, hclass, hsemicolon, hletter⟩ := hmarks
  induction t with
  | base b =>
    refine iff_of_true (fun hmem => hletter ?_) trivial
    exact List.mem_singleton.1 hmem ▸ b.letter_mem_letters
  | object name =>
    rw [descriptor_object]
    simp [hclass, hsemicolon, NameSatisfies]
  | array t ih =>
    rw [descriptor, List.mem_cons, not_or]
    exact (and_iff_right hbracket).trans ih

theorem notMem_descriptors_iff {c : CodePoint} (hc : c ∉ "[L;".toText ++ BaseType.letters)
    {ts : List FieldType} :
    c ∉ ts.flatMap descriptor ↔ ∀ t ∈ ts, t.NameSatisfies (c ∉ ·) := by
  simp only [List.mem_flatMap, not_exists, not_and, notMem_descriptor_iff hc]

/-- A descriptor ends with a semicolon or with the letter of a base type. -/
theorem descriptor_eq_append (t : FieldType) :
    ∃ front c, t.descriptor = front ++ [c] ∧ (isIdentifierChar c = true ∨ c = ';') := by
  induction t with
  | base b =>
    have hletter : isIdentifierChar b.letter = true := by cases b <;> decide
    exact ⟨[], b.letter, rfl, .inl hletter⟩
  | object name => exact ⟨'L' :: name, ';', descriptor_object name, .inr rfl⟩
  | array t ih =>
    obtain ⟨front, c, hfront, hc⟩ := ih
    exact ⟨'[' :: front, c, congrArg (CodePoint.char '[' :: ·) hfront, hc⟩

/-- Without a semicolon there is no class in a descriptor. -/
theorem nameSatisfies_of_notMem {t : FieldType} (h : CodePoint.char ';' ∉ t.descriptor)
    (p : Text → Prop) : t.NameSatisfies p := by
  induction t with
  | base b => trivial
  | object name => simp [descriptor_object] at h
  | array t ih => exact ih fun hmem => h (List.mem_cons_of_mem _ hmem)

/-- Without a class, a descriptor consists of brackets and a letter. -/
theorem of_mem_descriptor {t : FieldType} (h : CodePoint.char ';' ∉ t.descriptor) {c : CodePoint}
    (hc : c ∈ t.descriptor) : c = '[' ∨ c ∈ BaseType.letters := by
  induction t with
  | base b => exact .inr (List.mem_singleton.1 hc ▸ b.letter_mem_letters)
  | object name => simp [descriptor_object] at h
  | array t ih =>
    rcases List.mem_cons.1 hc with rfl | hc
    · exact .inl rfl
    · exact ih (fun hmem => h (List.mem_cons_of_mem _ hmem)) hc

end FieldType

theorem ReturnType.descriptor_eq_append (t : ReturnType) :
    ∃ front c, t.descriptor = front ++ [c] ∧ (isIdentifierChar c = true ∨ c = ';') := by
  cases t with
  | void => exact ⟨[], 'V', rfl, .inl (by decide)⟩
  | value t => exact t.descriptor_eq_append

theorem ReturnType.descriptor_ne_nil (t : ReturnType) : t.descriptor ≠ [] := by
  obtain ⟨front, c, hfront, -⟩ := t.descriptor_eq_append
  simp [hfront]

/-! ### Reading descriptors -/

namespace FieldType

/-- **A descriptor is read back**, whatever follows it. -/
theorem read?_descriptor {t : FieldType} (h : t.NameSatisfies IsInternalName) (rest : Text) :
    read? (t.descriptor ++ rest) = some (t, rest) := by
  induction t with
  | base b => cases b <;> rfl
  | object name =>
    obtain ⟨hne, hsemicolon⟩ : IsInternalName name := h
    have hcut : Text.cut ';' (name ++ CodePoint.char ';' :: rest) = some (name, rest) :=
      Text.cut_eq_some_iff.2 ⟨rfl, hsemicolon⟩
    have happend : (object name).descriptor ++ rest =
        CodePoint.char 'L' :: (name ++ CodePoint.char ';' :: rest) := by
      simp [descriptor_object]
    rw [happend, read?, hcut]
    simp [hne]
  | array t ih =>
    rw [descriptor, List.cons_append, read?, ih h]
    rfl

/-- **One descriptor is read, with the rest behind it.** -/
theorem read?_eq_some_iff {s rest : Text} {t : FieldType} :
    read? s = some (t, rest) ↔ s = t.descriptor ++ rest ∧ t.NameSatisfies IsInternalName := by
  constructor
  · intro h
    fun_induction read? s generalizing t with
    | case1 => cases h
    | case2 r ih =>
      obtain ⟨⟨u, rest'⟩, hu, hp⟩ := Option.map_eq_some_iff.1 h
      obtain ⟨rfl, rfl⟩ := Prod.mk.inj hp
      obtain ⟨rfl, hname⟩ := ih hu
      exact ⟨rfl, hname⟩
    | case3 => cases h
    | case4 r name rest' hcut hname =>
      obtain ⟨rfl, rfl⟩ := Prod.mk.inj (Option.some.inj h)
      obtain ⟨rfl, hsemicolon⟩ := Text.cut_eq_some_iff.1 hcut
      exact ⟨by simp [descriptor_object], hname, hsemicolon⟩
    | case5 => cases h
    | case6 c r hbracket hclass =>
      obtain ⟨b, hb, hp⟩ := Option.map_eq_some_iff.1 h
      obtain ⟨rfl, rfl⟩ := Prod.mk.inj hp
      have hletter : b.letter = c := by simpa using List.find?_some hb
      exact ⟨by rw [descriptor, hletter]; rfl, trivial⟩
  · rintro ⟨rfl, h⟩
    exact read?_descriptor h rest

theorem readMany_nil : readMany [] = ([], []) := by
  rw [readMany.eq_def]
  rfl

theorem readMany_of_read? {s rest : Text} {t : FieldType} (h : read? s = some (t, rest)) :
    readMany s = (t :: (readMany rest).1, (readMany rest).2) := by
  rw [readMany.eq_def]
  split
  · next hnone => cases hnone.symm.trans h
  · next u rest' hsome =>
    obtain ⟨rfl, rfl⟩ := Prod.mk.inj (Option.some.inj (hsome.symm.trans h))
    rfl

/-- **A row of descriptors is read back.** -/
theorem readMany_descriptors {ts : List FieldType}
    (h : ∀ t ∈ ts, t.NameSatisfies IsInternalName) :
    readMany (ts.flatMap descriptor) = (ts, []) := by
  induction ts with
  | nil => exact readMany_nil
  | cons t ts ih =>
    obtain ⟨ht, hts⟩ := List.forall_mem_cons.1 h
    rw [List.flatMap_cons, readMany_of_read? (read?_descriptor ht _), ih hts]

/-- **A whole text is read as a row** if it is one. -/
theorem readMany_eq_iff {s : Text} {ts : List FieldType} : readMany s = (ts, []) ↔
    s = ts.flatMap descriptor ∧ ∀ t ∈ ts, t.NameSatisfies IsInternalName := by
  constructor
  · intro h
    fun_induction readMany s generalizing ts with
    | case1 s hread =>
      obtain ⟨rfl, rfl⟩ := Prod.mk.inj h
      exact ⟨rfl, nofun⟩
    | case2 s t rest hread hlt us rest' hmany ih =>
      obtain ⟨rfl, rfl⟩ := Prod.mk.inj h
      obtain ⟨rfl, ht⟩ := read?_eq_some_iff.1 hread
      obtain ⟨rfl, hus⟩ := ih hmany
      exact ⟨rfl, List.forall_mem_cons.2 ⟨ht, hus⟩⟩
  · rintro ⟨rfl, h⟩
    exact readMany_descriptors h

theorem of_mem_of_readMany {s : Text} (h : (readMany s).2 = []) (hs : CodePoint.char ';' ∉ s)
    {c : CodePoint} (hc : c ∈ s) : c = '[' ∨ c ∈ BaseType.letters := by
  obtain ⟨hrow, -⟩ := readMany_eq_iff.1 (Prod.ext rfl h)
  rw [hrow] at hs hc
  obtain ⟨t, ht, hc⟩ := List.mem_flatMap.1 hc
  exact of_mem_descriptor (fun hmem => hs (List.mem_flatMap.2 ⟨t, ht, hmem⟩)) hc

/-- A text of letters of base types is a row of descriptors. -/
theorem readMany_letters {s : Text} (h : ∀ c ∈ s, c ∈ BaseType.letters) :
    ∃ ts, readMany s = (ts, []) ∧ ts.length = s.length := by
  induction s with
  | nil => exact ⟨[], readMany_nil, rfl⟩
  | cons c s ih =>
    obtain ⟨hc, hs⟩ := List.forall_mem_cons.1 h
    obtain ⟨b, hb⟩ := Option.isSome_iff_exists.1 (BaseType.isSome_ofLetter?_iff.2 hc)
    obtain ⟨ts, hts, hlength⟩ := ih hs
    have hletter : b.letter = c := by simpa using List.find?_some hb
    have hread : read? (c :: s) = some (base b, s) :=
      read?_eq_some_iff.2 ⟨by rw [descriptor, hletter]; rfl, trivial⟩
    refine ⟨base b :: ts, ?_, by simp [hlength]⟩
    rw [readMany_of_read? hread, hts]

end FieldType

/-- **A whole text is read as a descriptor** if it is one. -/
theorem ReturnType.ofDescriptor_eq_ok_iff {s : Text} {t : ReturnType} :
    ofDescriptor s = .ok t ↔ s = t.descriptor ∧ t.NameSatisfies IsInternalName := by
  have hread : ofDescriptor s = .ok t ↔ read? s = some (t, []) := by
    unfold ofDescriptor
    split <;> simp_all
  rw [hread]
  constructor
  · intro h
    unfold read? at h
    split at h
    · obtain ⟨rfl, rfl⟩ := Prod.mk.inj (Option.some.inj h)
      exact ⟨rfl, trivial⟩
    · obtain ⟨⟨u, rest⟩, hu, hp⟩ := Option.map_eq_some_iff.1 h
      obtain ⟨rfl, rfl⟩ := Prod.mk.inj hp
      obtain ⟨hs, hname⟩ := FieldType.read?_eq_some_iff.1 hu
      exact ⟨hs.trans (List.append_nil _), hname⟩
  · rintro ⟨rfl, h⟩
    cases t with
    | void => rfl
    | value t =>
      -- No field type has a descriptor that begins with the letter of `void`.
      have hvoid : ∀ r, t.descriptor ≠ CodePoint.char 'V' :: r := by
        cases t with
        | base b => cases b <;> simp [FieldType.descriptor, BaseType.letter]
        | object name => simp [FieldType.descriptor_object]
        | array t => simp [FieldType.descriptor]
      have hdescriptor : FieldType.read? t.descriptor = some (t, []) :=
        FieldType.read?_eq_some_iff.2 ⟨(List.append_nil _).symm, h⟩
      change read? t.descriptor = _
      unfold read?
      split
      · next r hr => exact absurd hr (hvoid r)
      · rw [hdescriptor]
        rfl

end Embargo.Jvm
