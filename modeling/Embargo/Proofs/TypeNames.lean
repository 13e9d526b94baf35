import Embargo.Jvm.Type.SourceName
import Embargo.Proofs.Descriptors

/-!
# Two spellings of one type

A type has a name in source text, `java.lang.String[]`, and a descriptor in class files,
`[Ljava/lang/String;`. Both are read back, for every type that source text can name at all.

* `FieldType.IsNamed` – the types that source text can name: what is read from source text is one
  of them (`FieldType.isNamed_of_ofSourceName`). A class `a;b` or a class `int` is none.
* `FieldType.ofSourceName_className` – **the name of a type names it**. The marks of the dimensions
  are read from the end of the name, so that what matters is how a class name ends.
* `FieldType.isIdentifierChar_of_mem_source` – the characters of source text that names a type, with
  white space and all.
* `FieldType.IsNamed.nameSatisfies_isInternalName` – the descriptor of such a type is read back,
  too: descriptors can hold more class names than source text can.
* `IsMadeOf` – the characters of either spelling: those of identifiers, and a few marks. White space
  is none of them, nor are the marks with which methods and records are put together.
-/

namespace Embargo

open Jvm

/-! ### Characters of names -/

/-- The numbers of white space. -/
def Text.blanks : List Nat :=
  [0x09, 0x0A, 0x0B, 0x0C, 0x0D, 0x1C, 0x1D, 0x1E, 0x1F, 0x20, 0x85, 0xA0, 0x1680, 0x2000, 0x2001,
    0x2002, 0x2003, 0x2004, 0x2005, 0x2006, 0x2007, 0x2008, 0x2009, 0x200A, 0x2028, 0x2029, 0x202F,
    0x205F, 0x3000]

theorem Text.mem_blanks {c : CodePoint} (h : Text.isBlank c = true) : c.toNat ∈ Text.blanks := by
  simp only [Text.isBlank, Bool.or_eq_true, Bool.and_eq_true, decide_eq_true_eq] at h
  simp only [Text.blanks, List.mem_cons, List.not_mem_nil, or_false]
  omega

theorem Text.eq_char_of_mem_blanks {c : CodePoint} (h : c.toNat ∈ Text.blanks) :
    c = .char (Char.ofNat c.toNat) := by
  have hnumber : ∀ n ∈ Text.blanks, (CodePoint.char (Char.ofNat n)).toNat = n := by decide
  exact CodePoint.toNat_inj.1 (hnumber _ h).symm

namespace Jvm

/-- **White space is no part of an identifier**, in any script. -/
theorem isBlank_of_isIdentifierChar {c : CodePoint} (h : isIdentifierChar c = true) :
    Text.isBlank c = false := by
  have hblanks : ∀ n ∈ Text.blanks, isIdentifierChar (.char (Char.ofNat n)) = false := by
    decide +kernel
  cases hblank : Text.isBlank c with
  | false => rfl
  | true =>
    have hmem := Text.mem_blanks hblank
    rw [Text.eq_char_of_mem_blanks hmem, hblanks _ hmem] at h
    cases h

/-- The text has the characters of identifiers and some marks, and no other characters. -/
def IsMadeOf (marks t : Text) : Prop := ∀ c ∈ t, isIdentifierChar c = true ∨ c ∈ marks

instance (marks t : Text) : Decidable (IsMadeOf marks t) :=
  inferInstanceAs (Decidable (∀ c ∈ t, isIdentifierChar c = true ∨ c ∈ marks))

namespace IsMadeOf

variable {marks marks' t t' : Text}

theorem append (h : IsMadeOf marks t) (h' : IsMadeOf marks t') : IsMadeOf marks (t ++ t') :=
  fun c hc => (List.mem_append.1 hc).elim (h c) (h' c)

theorem mono (h : IsMadeOf marks t) (hmarks : ∀ c ∈ marks, c ∈ marks') : IsMadeOf marks' t :=
  fun c hc => (h c hc).imp_right (hmarks c)

/-- Without white space among the marks there is none in the text. -/
theorem isBlank (h : IsMadeOf marks t) (hmarks : ∀ c ∈ marks, Text.isBlank c = false) :
    ∀ c ∈ t, Text.isBlank c = false :=
  fun c hc => (h c hc).elim isBlank_of_isIdentifierChar (hmarks c)

theorem notMem (h : IsMadeOf marks t) {c : CodePoint}
    (hc : isIdentifierChar c = false ∧ c ∉ marks) : c ∉ t := by
  intro hmem
  rcases h c hmem with hid | hmark
  · rw [hc.1] at hid
    cases hid
  · exact hc.2 hmark

end IsMadeOf

/-! ### Class names -/

theorem isMadeOf_of_isIdentifier {t : Text} (h : isIdentifier t = true) : IsMadeOf [] t := by
  cases t with
  | nil => nofun
  | cons d r => exact fun c hc => .inl (List.all_eq_true.1 (Bool.and_eq_true_iff.1 h).2 c hc)

theorem ne_nil_of_isIdentifier {t : Text} (h : isIdentifier t = true) : t ≠ [] := by
  rintro rfl
  cases h

section ClassName

variable {name : Text} (h : isClassName name = true)

include h

/-- The characters of a class name are those of its parts, and dots. -/
theorem isMadeOf_binaryName : IsMadeOf ['.'] (Text.binaryName name) := by
  intro c hc
  rw [← Text.join_split '.' (Text.binaryName name)] at hc
  rcases Text.of_mem_join hc with hc | ⟨part, hpart, hc⟩
  · exact .inr hc
  · have hid := isMadeOf_of_isIdentifier (List.all_eq_true.1 h part hpart)
    exact hid.mono (by simp) c hc

theorem binaryName_ne_nil : Text.binaryName name ≠ [] := by
  intro hnil
  rw [isClassName, hnil] at h
  cases h

/-- A class name ends with a character of its last part. -/
theorem isIdentifierChar_getLast {c : CodePoint} (hc : (Text.binaryName name).getLast? = some c) :
    isIdentifierChar c = true := by
  rcases isMadeOf_binaryName h c (List.mem_of_getLast? hc) with hid | hdot
  · exact hid
  · obtain rfl := List.mem_singleton.1 hdot
    -- A dot at the end would leave an empty part behind it.
    obtain ⟨front, hfront⟩ := List.getLast?_eq_some_iff.1 hc
    have hpart : [] ∈ Text.split '.' (Text.binaryName name) := by
      rw [hfront, Text.split_eq_splitOn, List.splitOn_append_cons_self]
      simp
    exact absurd rfl (ne_nil_of_isIdentifier (List.all_eq_true.1 h _ hpart))

end ClassName

theorem binaryName_internalName (t : Text) :
    Text.binaryName (Text.internalName t) = Text.binaryName t := by
  rw [Text.binaryName, Text.internalName, List.map_map]
  refine List.map_congr_left fun c _ => ?_
  by_cases h : c = CodePoint.char '.'
  · simp [h]
  · simp [h]

theorem binaryName_binaryName (t : Text) :
    Text.binaryName (Text.binaryName t) = Text.binaryName t := by
  rw [Text.binaryName, Text.binaryName, List.map_map]
  refine List.map_congr_left fun c _ => ?_
  by_cases h : c = CodePoint.char '/'
  · simp [h]
  · simp [h]

theorem internalName_eq_self {t : Text} (h : CodePoint.char '.' ∉ t) :
    Text.internalName t = t := by
  refine (List.map_congr_left fun c hc => if_neg ?_).trans (List.map_id t)
  rintro rfl
  exact h hc

theorem dot_notMem_internalName (t : Text) : CodePoint.char '.' ∉ Text.internalName t := by
  intro h
  obtain ⟨c, -, hc⟩ := List.mem_map.1 h
  split at hc
  · cases hc
  · next hne => exact hne hc

/-- A name that has no dots with dots has no slashes either. -/
theorem binaryName_eq_self {t : Text} (h : CodePoint.char '.' ∉ Text.binaryName t) :
    Text.binaryName t = t := by
  refine (List.map_congr_left fun c hc => ?_).trans (List.map_id t)
  split
  · next hslash =>
    have hdot : CodePoint.char '.' ∈ Text.binaryName t :=
      List.mem_map.2 ⟨c, hc, if_pos hslash⟩
    exact absurd hdot h
  · rfl

/-! ### Types that source text can name -/

namespace FieldType

/-- **The types that source text can name.** The parts of a class name are identifiers, and it is no
keyword of another type. -/
def IsNamed : FieldType → Prop
  | .base _ => True
  | .object name => isClassName name = true ∧ CodePoint.char '.' ∉ name ∧
      BaseType.ofKeyword? (Text.binaryName name) = none ∧
      Text.binaryName name ≠ ReturnType.voidKeyword
  | .array t => t.IsNamed

theorem isNamed_nest {n : Nat} {t : FieldType} (h : t.IsNamed) : (nest n t).IsNamed := by
  induction n with
  | zero => exact h
  | succ n ih => exact ih

theorem dot_notMem_keyword (b : BaseType) : CodePoint.char '.' ∉ b.keyword := by
  cases b <;> decide

/-- A class that source text names can be named. -/
theorem isNamed_ofClassName {name : Text} (h : isClassName name = true)
    (hkeyword : BaseType.ofKeyword? name = none) (hvoid : name ≠ ReturnType.voidKeyword) :
    (ofClassName name).IsNamed := by
  refine ⟨?_, dot_notMem_internalName name, ?_, ?_⟩
  · rwa [isClassName, binaryName_internalName]
  · rw [binaryName_internalName]
    cases hb : BaseType.ofKeyword? (Text.binaryName name) with
    | none => rfl
    | some b =>
      have hname : b.keyword = Text.binaryName name := by
        simpa using List.find?_some hb
      rw [binaryName_eq_self (hname ▸ dot_notMem_keyword b), hkeyword] at hb
      cases hb
  · rw [binaryName_internalName]
    intro hname
    have hdot : CodePoint.char '.' ∉ ReturnType.voidKeyword := by decide
    rw [binaryName_eq_self (hname ▸ hdot)] at hname
    exact hvoid hname

theorem isMadeOf_keyword (b : BaseType) : IsMadeOf [] b.keyword := by cases b <;> decide

/-- What stands in the name of a type. -/
theorem isMadeOf_className {t : FieldType} (h : t.IsNamed) :
    IsMadeOf ".[]".toText t.className := by
  induction t with
  | base b => exact (isMadeOf_keyword b).mono (by simp)
  | object name => exact (isMadeOf_binaryName h.1).mono (by decide)
  | array t ih => exact (ih h).append (by decide)

theorem isBlank_of_mem_className {t : FieldType} (h : t.IsNamed) :
    ∀ c ∈ t.className, Text.isBlank c = false := (isMadeOf_className h).isBlank (by decide)

theorem className_ne_nil {t : FieldType} (h : t.IsNamed) : t.className ≠ [] := by
  cases t with
  | base b => cases b <;> simp [className, BaseType.keyword, String.toText]
  | object name => exact binaryName_ne_nil h.1
  | array t => simp [className, String.toText]

/-- **What source text names can be named.** -/
theorem isNamed_of_ofSourceName {source : Text} {t : FieldType}
    (h : ReturnType.ofSourceName source = .ok (.value t)) : t.IsNamed := by
  unfold ReturnType.ofSourceName at h
  dsimp only at h
  split at h
  · cases h
  · next hname =>
    have hname : isClassName (splitMarks source).2 = true := by simpa using hname
    split at h
    · split at h <;> cases h
    · next hvoid =>
      split at h
      · obtain rfl := ReturnType.value.inj (Except.ok.inj h)
        exact isNamed_nest trivial
      · next hkeyword =>
        obtain rfl := ReturnType.value.inj (Except.ok.inj h)
        exact isNamed_nest (isNamed_ofClassName hname hkeyword hvoid)

/-! ### Reading a name back -/

theorem nest_dimensions (t : FieldType) : nest t.dimensions t.element = t := by
  induction t with
  | array t ih => exact congrArg array ih
  | _ => rfl

theorem isClassName_keyword (b : BaseType) : isClassName b.keyword = true := by
  cases b <;> decide

theorem keyword_ne_void (b : BaseType) : b.keyword ≠ ReturnType.voidKeyword := by
  cases b <;> decide

/-- The name of the innermost elements says what they are. -/
theorem element_className {t : FieldType} (h : t.IsNamed) :
    isClassName t.element.className = true ∧ t.element.className ≠ ReturnType.voidKeyword ∧
      (match BaseType.ofKeyword? t.element.className with
        | some b => base b
        | none => ofClassName t.element.className) = t.element := by
  induction t with
  | base b =>
    refine ⟨isClassName_keyword b, keyword_ne_void b, ?_⟩
    simp [element, className]
  | object name =>
    obtain ⟨hname, hdot, hkeyword, hvoid⟩ := h
    refine ⟨?_, hvoid, ?_⟩
    · change isClassName (Text.binaryName name) = true
      rwa [isClassName, binaryName_binaryName]
    · simp [element, className, hkeyword, ofClassName, internalName_eq_self hdot]
  | array t ih => exact ih h

/-- Without a mark at its end a text is its own name. -/
theorem dropMarks_eq {r : Text} (h : ∀ c ∈ r.head?, isIdentifierChar c = true) :
    dropMarks r = (0, r) := by
  unfold dropMarks
  split
  · have hmark := h _ rfl
    cases hmark
  · have hmark := h _ rfl
    cases hmark
  · rfl

theorem getLast?_className_element {t : FieldType} (h : t.IsNamed) {c : CodePoint}
    (hc : t.element.className.getLast? = some c) : isIdentifierChar c = true := by
  induction t with
  | base b => exact (isMadeOf_keyword b c (List.mem_of_getLast? hc)).resolve_right List.not_mem_nil
  | object name => exact isIdentifierChar_getLast h.1 hc
  | array t ih => exact ih h hc

/-- The marks of a name are those of its dimensions. -/
theorem dropMarks_reverse_className {t : FieldType} (h : t.IsNamed) :
    dropMarks t.className.reverse = (t.dimensions, t.element.className.reverse) := by
  induction t with
  | array t ih =>
    have ht : t.IsNamed := h
    have hblank : ∀ c ∈ t.className.reverse.head?, Text.isBlank c = false := fun c hc =>
      isBlank_of_mem_className ht c (List.mem_reverse.1 (List.mem_of_mem_head? hc))
    have hreverse : (array t).className.reverse =
        CodePoint.char ']' :: CodePoint.char '[' :: t.className.reverse := by
      simp [className, String.toText]
    have hdrop : t.className.reverse.dropWhile Text.isBlank = t.className.reverse := by
      cases hr : t.className.reverse with
      | nil => rfl
      | cons c r => simp [hblank c (by rw [hr]; rfl)]
    rw [hreverse, dropMarks, hdrop, ih ht]
    rfl
  | base b =>
    exact dropMarks_eq fun c hc => getLast?_className_element h (List.head?_reverse ▸ hc)
  | object name =>
    exact dropMarks_eq fun c hc => getLast?_className_element h (List.head?_reverse ▸ hc)

/-- **The name of a type names it.** -/
theorem ofSourceName_className {t : FieldType} (h : t.IsNamed) :
    ReturnType.ofSourceName t.className = .ok (.value t) := by
  have htrim : Text.trim t.className = t.className :=
    Text.trim_of_forall (isBlank_of_mem_className h)
  have hmarks : splitMarks t.className = (t.dimensions, t.element.className) := by
    rw [splitMarks, htrim, dropMarks_reverse_className h]
    dsimp only
    rw [List.reverse_reverse]
  obtain ⟨hname, hvoid, helement⟩ := element_className h
  rw [ReturnType.ofSourceName, hmarks]
  dsimp only
  rw [if_neg (by simp [hname]), if_neg hvoid]
  revert helement
  cases BaseType.ofKeyword? t.element.className with
  | some b =>
    intro (helement : base b = t.element)
    change Except.ok (ReturnType.value (nest _ (base b))) = _
    rw [helement, nest_dimensions]
  | none =>
    intro (helement : ofClassName t.element.className = t.element)
    change Except.ok (ReturnType.value (nest _ (ofClassName _))) = _
    rw [helement, nest_dimensions]

/-- An empty text names no type. -/
theorem ofSourceName_nil : ReturnType.ofSourceName [] = .error (.typeName []) := by
  have hmarks : splitMarks [] = (0, []) := by
    rw [splitMarks, show (Text.trim []).reverse = [] from rfl, dropMarks_eq (by simp)]
    rfl
  rw [ReturnType.ofSourceName, hmarks]
  rfl

/-- White space before a name is of no account. -/
theorem ofSourceName_cons {c : CodePoint} (h : Text.isBlank c = true) (t : Text) :
    ReturnType.ofSourceName (c :: t) = ReturnType.ofSourceName t := by
  have hmarks : splitMarks (c :: t) = splitMarks t := by
    rw [splitMarks, splitMarks, Text.trim_cons h]
  rw [ReturnType.ofSourceName, ReturnType.ofSourceName, hmarks]

/-! ### Characters of the source text of a type -/

/-- Only the marks, and white space before them, are dropped. -/
theorem mem_dropMarks {r : Text} {c : CodePoint} (hblank : Text.isBlank c = false)
    (hmark : c ∉ ".[]".toText) (hc : c ∈ r) : c ∈ (dropMarks r).2 := by
  have hne : c ≠ '.' ∧ c ≠ '[' ∧ c ≠ ']' := by simpa [String.toText] using hmark
  obtain ⟨hdot, hopen, hclose⟩ := hne
  fun_induction dropMarks r with
  | case1 r n rest hdrop ih =>
    simp only [List.mem_cons, hopen, hclose, false_or] at hc
    simpa [hdrop] using ih (Text.mem_dropWhile_isBlank hblank hc)
  | case2 r n rest hdrop ih =>
    simp only [List.mem_cons, hdot, false_or] at hc
    simpa [hdrop] using ih (Text.mem_dropWhile_isBlank hblank hc)
  | case3 r => exact hc

theorem isClassName_of_ofSourceName {source : Text} {t : ReturnType}
    (h : ReturnType.ofSourceName source = .ok t) : isClassName (splitMarks source).2 = true := by
  cases hname : isClassName (splitMarks source).2 with
  | true => rfl
  | false =>
    rw [ReturnType.ofSourceName] at h
    simp [hname] at h

/-- **What stands in the source text of a type**: besides white space and marks, the characters of
identifiers. -/
theorem isIdentifierChar_of_mem_source {source : Text} {t : ReturnType}
    (h : ReturnType.ofSourceName source = .ok t) {c : CodePoint} (hblank : Text.isBlank c = false)
    (hmark : c ∉ "/.[]".toText) (hc : c ∈ source) : isIdentifierChar c = true := by
  have hne : c ≠ '/' ∧ c ∉ ".[]".toText := by simpa [String.toText] using hmark
  obtain ⟨hslash, hmark⟩ := hne
  have hname : c ∈ (splitMarks source).2 :=
    List.mem_reverse.2 (mem_dropMarks hblank hmark (List.mem_reverse.2 (Text.mem_trim hblank hc)))
  have hbinary : c ∈ Text.binaryName (splitMarks source).2 :=
    List.mem_map.2 ⟨c, hname, if_neg hslash⟩
  rcases isMadeOf_binaryName (isClassName_of_ofSourceName h) c hbinary with hid | hdot
  · exact hid
  · simp [String.toText, List.mem_singleton.1 hdot] at hmark

/-! ### Descriptors of types with names -/

/-- What stands in a class name with slashes. -/
theorem isMadeOf_name {name : Text} (h : (object name).IsNamed) : IsMadeOf ['/'] name := by
  obtain ⟨hname, hdot, -⟩ := h
  intro c hc
  by_cases hslash : c = CodePoint.char '/'
  · exact .inr (List.mem_singleton.2 hslash)
  · have hmem : c ∈ Text.binaryName name := List.mem_map.2 ⟨c, hc, if_neg hslash⟩
    refine .inl ((isMadeOf_binaryName hname c hmem).resolve_right fun heq => ?_)
    obtain rfl := List.mem_singleton.1 heq
    exact hdot hc

/-- The name of the class in such a type, if there is one. -/
theorem IsNamed.nameSatisfies {t : FieldType} (h : t.IsNamed) :
    t.NameSatisfies fun name => name ≠ [] ∧ IsMadeOf ['/'] name := by
  induction t with
  | base b => trivial
  | object name =>
    refine ⟨?_, isMadeOf_name h⟩
    rintro rfl
    exact binaryName_ne_nil h.1 rfl
  | array t ih => exact ih h

/-- **A descriptor can hold the name of such a type.** -/
theorem IsNamed.nameSatisfies_isInternalName {t : FieldType} (h : t.IsNamed) :
    t.NameSatisfies IsInternalName :=
  h.nameSatisfies.mono fun _ hname => ⟨hname.1, hname.2.notMem (by decide)⟩

end FieldType
end Jvm
end Embargo
