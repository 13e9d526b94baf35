import Embargo.Proofs.Descriptors
import Embargo.Proofs.Growth
import Embargo.Proofs.TypeNames

/-!
# Questions about types

A scanner asks about a type by a text. The text may be a descriptor, the name of a class in either
spelling, or the name of an array; how it begins and how it ends tells which:

| the text, without white space around it | is read as |
|---|---|
| begins with `[`, or begins with `L` and ends with `;` | a descriptor |
| is one of the letters `VZCBSIFJD` | a descriptor |
| ends with `[]` or `...` | the name of an array in source text |
| anything else | the name of a class |

The rows overlap, and each reader has errors of its own. Still all spellings of one class lead to
one answer, and no text that is read as anything but a class has a report.

* `Index.IsReadAs` – the table as a relation, with one constructor for each row.
* `Index.IsPlainName`, `Index.IsClassless` – names that are read as names of classes, and texts
  that never are.
* `Index.ReadsWithoutClass` – what some reader reads as `void`, as a base type or as an array.
* `Index.Reflects` – what an index forbids is said by certain records. This is carried from one
  record over traces to runs (`Run.reflects_ofSteps`).
* `Run.type_questions` – the main statement.
-/

namespace Embargo

open Jvm

/-! ### Names and the marks at their ends -/

namespace Text

/-- A name that has no slashes with slashes has no dots either. -/
theorem internalName_eq_of_notMem {t : Text} (h : CodePoint.char '/' ∉ internalName t) :
    internalName t = t := by
  refine internalName_eq_self fun hdot => h ?_
  exact List.mem_map.2 ⟨_, hdot, if_pos rfl⟩

/-- What a name ends with is what its spelling with slashes ends with. -/
theorem suffix_of_suffix_internalName {t marks : Text} (hslash : CodePoint.char '/' ∉ marks)
    (h : marks <:+ internalName t) : marks <:+ t := by
  obtain ⟨front, hfront⟩ := h
  obtain ⟨before, after, rfl, -, hafter⟩ := List.map_eq_append_iff.1 hfront.symm
  have hsame : internalName after = marks := hafter
  rw [internalName_eq_of_notMem (hsame ▸ hslash)] at hsame
  exact ⟨before, by rw [hsame]⟩

theorem isBlank_getLast {t : Text} (h : trim t = t) : ∀ c ∈ t.getLast?, isBlank c = false := by
  intro c hc
  rw [← h, trim, trimRight, List.getLast?_reverse] at hc
  have hhead := List.head?_dropWhile_not isBlank (trimLeft t).reverse
  rw [Option.mem_def.1 hc] at hhead
  simpa using hhead

/-- A character of a name is white space in either spelling or in none. -/
theorem isBlank_internalName (c : CodePoint) :
    isBlank (if c = CodePoint.char '.' then CodePoint.char '/' else c) = isBlank c := by
  split
  · next h =>
    rw [h]
    decide
  · rfl

theorem trim_internalName {t : Text} (h : trim t = t) :
    trim (internalName t) = internalName t := by
  refine trim_eq_self (fun c hc => ?_) fun c hc => ?_
  · rw [internalName, List.head?_map] at hc
    obtain ⟨d, hd, rfl⟩ := Option.map_eq_some_iff.1 hc
    exact (isBlank_internalName d).trans (isBlank_head h d hd)
  · rw [internalName, List.getLast?_map] at hc
    obtain ⟨d, hd, rfl⟩ := Option.map_eq_some_iff.1 hc
    exact (isBlank_internalName d).trans (isBlank_getLast h d hd)

end Text

namespace Jvm

/-- The text ends with a mark of an array. -/
def IsMarked (t : Text) : Prop := "[]".toText <:+ t ∨ "...".toText <:+ t

instance (t : Text) : Decidable (IsMarked t) := inferInstanceAs (Decidable (_ ∨ _))

namespace IsMarked

variable {t : Text} (h : IsMarked t)

include h

theorem getLast? :
    t.getLast? = some (CodePoint.char ']') ∨ t.getLast? = some (CodePoint.char '.') := by
  rcases h with ⟨front, rfl⟩ | ⟨front, rfl⟩
  · exact .inl (by simp [String.toText])
  · exact .inr (by simp [String.toText])

theorem getLast?_ne : t.getLast? ≠ some (CodePoint.char ';') := by
  intro hlast
  rcases h.getLast? with hbracket | hdot
  · rw [hlast] at hbracket
    cases hbracket
  · rw [hlast] at hdot
    cases hdot

theorem length_ne : t.length ≠ 1 := by
  rcases h with ⟨front, rfl⟩ | ⟨front, rfl⟩ <;> simp [String.toText]

end IsMarked

theorem dropMarks_eq_zero_iff {r : Text} : (dropMarks r).1 = 0 ↔ ¬IsMarked r.reverse := by
  have hmarks : IsMarked r.reverse ↔ "][".toText <+: r ∨ "...".toText <+: r := by
    rw [IsMarked, ← List.reverse_prefix, ← List.reverse_prefix, List.reverse_reverse]
    rfl
  rw [hmarks]
  unfold dropMarks
  split
  · next r =>
    have hmark : "][".toText <+: CodePoint.char ']' :: CodePoint.char '[' :: r := ⟨r, rfl⟩
    simp [hmark]
  · next r =>
    have hmark : "...".toText <+: CodePoint.char '.' :: CodePoint.char '.' ::
      CodePoint.char '.' :: r := ⟨r, rfl⟩
    simp [hmark]
  · next hbrackets hdots =>
    refine iff_of_true rfl ?_
    rintro (⟨rest, hrest⟩ | ⟨rest, hrest⟩)
    · exact hbrackets rest hrest.symm
    · exact hdots rest hrest.symm

/-- What is left of a text without its marks is a part of it. -/
theorem dropMarks_suffix (r : Text) : (dropMarks r).2 <:+ r := by
  fun_induction dropMarks r with
  | case1 r n rest hdrop ih =>
    rw [hdrop] at ih
    exact ih.trans ((List.dropWhile_suffix _).trans ⟨[_, _], rfl⟩)
  | case2 r n rest hdrop ih =>
    rw [hdrop] at ih
    exact ih.trans ((List.dropWhile_suffix _).trans ⟨[_, _, _], rfl⟩)
  | case3 r => exact List.suffix_rfl

theorem splitMarks_eq_zero_iff {t : Text} : (splitMarks t).1 = 0 ↔ ¬IsMarked (Text.trim t) := by
  change (dropMarks (Text.trim t).reverse).1 = 0 ↔ _
  rw [dropMarks_eq_zero_iff, List.reverse_reverse]

theorem splitMarks_prefix (t : Text) : (splitMarks t).2 <+: Text.trim t := by
  have hsuffix := List.reverse_prefix.2 (dropMarks_suffix (Text.trim t).reverse)
  rwa [List.reverse_reverse] at hsuffix

/-- **A name in source text names an array if and only if it ends with a mark.** -/
theorem isMarked_iff_of_ofSourceName {t : Text} {ty : ReturnType}
    (h : ReturnType.ofSourceName t = .ok ty) :
    IsMarked (Text.trim t) ↔ ∃ component, ty = .value (.array component) := by
  rw [← not_iff_not, ← splitMarks_eq_zero_iff]
  unfold ReturnType.ofSourceName at h
  dsimp only at h
  generalize (splitMarks t).1 = n, (splitMarks t).2 = name at h ⊢
  -- The marks are put around a type that is no array.
  have hnest (u : FieldType) (hu : u.dimensions = 0) :
      n = 0 ↔ ¬∃ component, ReturnType.value (.nest n u) = .value (.array component) := by
    cases n with
    | zero =>
      refine iff_of_true rfl ?_
      rintro ⟨component, hcomponent⟩
      obtain rfl := ReturnType.value.inj hcomponent
      cases hu
    | succ n => exact iff_of_false (Nat.succ_ne_zero n) (not_not.2 ⟨_, rfl⟩)
  split at h
  · cases h
  split at h
  · split at h
    · next hn =>
      obtain rfl := Except.ok.inj h
      exact iff_of_true hn (by simp)
    · cases h
  split at h
  · obtain rfl := Except.ok.inj h
    exact hnest _ rfl
  · obtain rfl := Except.ok.inj h
    exact hnest _ rfl

/-- No name in source text begins with a bracket. -/
theorem head?_ne_of_ofSourceName {t : Text} {ty : ReturnType}
    (h : ReturnType.ofSourceName t = .ok ty) :
    (Text.trim t).head? ≠ some (CodePoint.char '[') := by
  intro hhead
  have hname := FieldType.isClassName_of_ofSourceName h
  obtain ⟨marks, hmarks⟩ := splitMarks_prefix t
  have hmem : CodePoint.char '[' ∈ (splitMarks t).2 := by
    cases hparts : (splitMarks t).2 with
    | nil =>
      rw [hparts] at hname
      exact absurd rfl (binaryName_ne_nil hname)
    | cons c rest =>
      rw [← hmarks, hparts] at hhead
      exact Option.some.inj hhead ▸ List.mem_cons_self
  have hbinary : CodePoint.char '[' ∈ Text.binaryName (splitMarks t).2 :=
    List.mem_map.2 ⟨_, hmem, rfl⟩
  have hmade := isMadeOf_binaryName hname _ hbinary
  revert hmade
  decide

end Jvm

/-! ### What a question is read as -/

namespace Index

/-- **What a text is read as**, with one constructor for each row of the table; white space around
it is gone. -/
inductive IsReadAs (s : Text) : Except SyntaxError ReturnType → Prop
  /-- A text that begins with a bracket is a descriptor. -/
  | bracket (h : s.head? = some (CodePoint.char '[')) : IsReadAs s (ReturnType.ofDescriptor s)
  /-- A text that begins and ends as the descriptor of a class is a descriptor. -/
  | object (hhead : s.head? = some (CodePoint.char 'L'))
      (hlast : s.getLast? = some (CodePoint.char ';')) : IsReadAs s (ReturnType.ofDescriptor s)
  /-- A letter of a type is a descriptor. -/
  | letter {l : CodePoint} (hl : l ∈ typeLetters) (h : s = [l]) :
      IsReadAs s (ReturnType.ofDescriptor s)
  /-- A text with a mark at its end is the name of an array. -/
  | mark (hhead : s.head? ≠ some (CodePoint.char '[')) (h : IsMarked s) :
      IsReadAs s (ReturnType.ofSourceName s)
  /-- Any other text is the name of a class. -/
  | name (hhead : s.head? ≠ some (CodePoint.char '['))
      (hobject : s.head? = some (CodePoint.char 'L') → s.getLast? ≠ some (CodePoint.char ';'))
      (hletter : ∀ l ∈ typeLetters, s ≠ [l]) (hmark : ¬IsMarked s) :
      IsReadAs s (.ok (.value (.ofClassName s)))

variable {c t : Text}

/-- **What a text is read as is read.** The rows that overlap agree. -/
theorem IsReadAs.typeOfQuestion_eq {a : Except SyntaxError ReturnType}
    (h : IsReadAs (Text.trim t) a) : typeOfQuestion t = a := by
  have hnotLetter {s : Text} (h : ∀ l ∈ typeLetters, s ≠ [l]) :
      ¬(s.length = 1 ∧ typeLetters.contains (s.head?.getD ' ') = true) := by
    rintro ⟨hlength, hmem⟩
    obtain ⟨l, rfl⟩ := List.length_eq_one_iff.1 hlength
    exact h l (List.contains_iff_mem.1 hmem) rfl
  have hsuffix {s : Text} : ("[]".toText.isSuffixOf s = true ∨ "...".toText.isSuffixOf s = true) ↔
      IsMarked s := by
    rw [List.isSuffixOf_iff_suffix, List.isSuffixOf_iff_suffix, IsMarked]
  cases h with
  | bracket h => exact if_pos (.inl h)
  | object hhead hlast => exact if_pos (.inr ⟨hhead, hlast⟩)
  | letter hl h =>
    have hletter : (Text.trim t).length = 1 ∧
        typeLetters.contains ((Text.trim t).head?.getD ' ') = true := by
      rw [h]
      exact ⟨rfl, List.contains_iff_mem.2 hl⟩
    -- The rows before have the same reader.
    by_cases hfirst : (Text.trim t).head? = some (CodePoint.char '[') ∨
        ((Text.trim t).head? = some (CodePoint.char 'L') ∧
          (Text.trim t).getLast? = some (CodePoint.char ';'))
    · exact if_pos hfirst
    · exact (if_neg hfirst).trans (if_pos hletter)
  | mark hhead h =>
    refine (if_neg ?_).trans ((if_neg ?_).trans (if_pos (hsuffix.2 h)))
    · rintro (hbracket | ⟨-, hlast⟩)
      · exact hhead hbracket
      · exact h.getLast?_ne hlast
    · exact fun hletter => h.length_ne hletter.1
  | name hhead hobject hletter hmark =>
    refine (if_neg ?_).trans ((if_neg (hnotLetter hletter)).trans (if_neg (mt hsuffix.1 hmark)))
    rintro (hbracket | ⟨hclass, hlast⟩)
    · exact hhead hbracket
    · exact hobject hclass hlast

/-- Every text is read as something. -/
theorem isReadAs_typeOfQuestion (t : Text) : IsReadAs (Text.trim t) (typeOfQuestion t) := by
  have hread {a : Except SyntaxError ReturnType} (h : IsReadAs (Text.trim t) a) :
      IsReadAs (Text.trim t) (typeOfQuestion t) := h.typeOfQuestion_eq ▸ h
  by_cases hhead : (Text.trim t).head? = some (CodePoint.char '[')
  · exact hread (.bracket hhead)
  by_cases hobject : (Text.trim t).head? = some (CodePoint.char 'L') ∧
      (Text.trim t).getLast? = some (CodePoint.char ';')
  · exact hread (.object hobject.1 hobject.2)
  by_cases hletter : ∃ l ∈ typeLetters, Text.trim t = [l]
  · obtain ⟨l, hl, h⟩ := hletter
    exact hread (.letter hl h)
  by_cases hmark : IsMarked (Text.trim t)
  · exact hread (.mark hhead hmark)
  · exact hread (.name hhead (not_and.1 hobject) (fun l hl h => hletter ⟨l, hl, h⟩) hmark)

/-! ### Names of classes -/

/-- **The names that are read as names of classes** without white space around them. -/
structure IsPlainName (c : Text) : Prop where
  /-- It is not empty. -/
  ne_nil : c ≠ []
  /-- No white space is around it. -/
  trim_eq : Text.trim c = c
  /-- It has no semicolon. -/
  semicolon : CodePoint.char ';' ∉ c
  /-- It does not begin with a bracket. -/
  head : c.head? ≠ some (CodePoint.char '[')
  /-- It does not end with a mark of an array. -/
  mark : ¬IsMarked c
  /-- It is not a letter of a type. -/
  letter : ∀ l ∈ typeLetters, c ≠ [l]

theorem IsPlainName.internalName (h : IsPlainName c) : IsPlainName (Text.internalName c) where
  ne_nil := by simpa [Text.internalName] using h.ne_nil
  trim_eq := Text.trim_internalName h.trim_eq
  semicolon := by
    intro hmem
    obtain ⟨d, hd, hsemicolon⟩ := List.mem_map.1 hmem
    split at hsemicolon
    · cases hsemicolon
    · exact h.semicolon (hsemicolon ▸ hd)
  head := by
    intro hhead
    rw [Text.internalName, List.head?_map] at hhead
    obtain ⟨d, hd, hbracket⟩ := Option.map_eq_some_iff.1 hhead
    split at hbracket
    · cases hbracket
    · exact h.head (hbracket ▸ hd)
  mark := fun hmark => h.mark (hmark.imp (Text.suffix_of_suffix_internalName (by decide))
    (Text.suffix_of_suffix_internalName (by decide)))
  letter := by
    intro l hl hletter
    refine h.letter l hl ((Text.internalName_eq_of_notMem ?_).symm.trans hletter)
    rw [hletter, List.mem_singleton]
    rintro rfl
    revert hl
    decide

theorem IsPlainName.isInternalName (h : IsPlainName c) : IsInternalName c :=
  ⟨h.ne_nil, h.semicolon⟩

theorem IsPlainName.typeOfQuestion_eq (h : IsPlainName c) :
    typeOfQuestion c = .ok (.value (.ofClassName c)) := by
  have hread : IsReadAs c (.ok (.value (.ofClassName c))) :=
    .name h.head (fun _ hlast => h.semicolon (List.mem_of_getLast? hlast)) h.letter h.mark
  rw [← h.trim_eq] at hread
  rw [hread.typeOfQuestion_eq, h.trim_eq]

theorem ofDescriptor_object (h : IsInternalName c) :
    ReturnType.ofDescriptor (FieldType.object c).descriptor = .ok (.value (.object c)) :=
  ReturnType.ofDescriptor_eq_ok_iff.2 ⟨rfl, h⟩

/-- The descriptor of a class is read as a descriptor. -/
theorem typeOfQuestion_descriptor (h : IsInternalName c) :
    typeOfQuestion (FieldType.object c).descriptor = .ok (.value (.object c)) := by
  have hhead : (FieldType.object c).descriptor.head? = some (CodePoint.char 'L') := rfl
  have hlast : (FieldType.object c).descriptor.getLast? = some (CodePoint.char ';') := by
    rw [FieldType.descriptor_object, ← List.cons_append, List.getLast?_concat]
  have htrim : Text.trim (FieldType.object c).descriptor = (FieldType.object c).descriptor := by
    refine Text.trim_eq_self (fun d hd => ?_) fun d hd => ?_
    · obtain rfl := Option.some.inj (hhead.symm.trans hd)
      decide
    · obtain rfl := Option.some.inj (hlast.symm.trans hd)
      decide
  have hread : IsReadAs (FieldType.object c).descriptor _ := .object hhead hlast
  rw [← htrim] at hread
  rw [hread.typeOfQuestion_eq, htrim, ofDescriptor_object h]

/-! ### Texts that name no class -/

/-- **The texts that are never read as names of classes**: letters of types, and texts that begin or
end as arrays do. -/
inductive IsClassless (s : Text) : Prop
  /-- It begins with a bracket. -/
  | bracket (h : s.head? = some (CodePoint.char '['))
  /-- It is a letter of a type. -/
  | letter {l : CodePoint} (hl : l ∈ typeLetters) (h : s = [l])
  /-- It ends with a mark of an array. -/
  | mark (h : IsMarked s)

/-- The descriptor of a class has none of these shapes. -/
theorem not_isClassless_descriptor (name : Text) :
    ¬IsClassless (FieldType.object name).descriptor := by
  rw [FieldType.descriptor_object]
  intro h
  cases h with
  | bracket h => cases h
  | letter hl h => simp at h
  | mark h =>
    rw [← List.cons_append] at h
    exact h.getLast?_ne List.getLast?_concat

theorem IsClassless.typeOfQuestion_ne (h : IsClassless (Text.trim t)) (name : Text) :
    typeOfQuestion t ≠ .ok (.value (.object name)) := by
  intro hclass
  have hdescriptor : ReturnType.ofDescriptor (Text.trim t) ≠ .ok (.value (.object name)) := by
    intro hread
    rw [(ReturnType.ofDescriptor_eq_ok_iff.1 hread).1] at h
    exact not_isClassless_descriptor name h
  have hread := isReadAs_typeOfQuestion t
  rw [hclass] at hread
  generalize ha : Except.ok (ReturnType.value (FieldType.object name)) = a at hread
  cases hread with
  | bracket | object | letter => exact hdescriptor ha.symm
  | mark hhead hmark =>
    rw [← Text.trim_trim] at hmark
    obtain ⟨component, hcomponent⟩ := (isMarked_iff_of_ofSourceName ha.symm).1 hmark
    cases hcomponent
  | name hhead hobject hletter hmark =>
    cases h with
    | bracket h => exact hhead h
    | letter hl h => exact hletter _ hl h
    | mark h => exact hmark h

/-- **The text reads as `void`, as a base type or as an array**, by its descriptor or by the name of
an array. -/
inductive ReadsWithoutClass (t : Text) : ReturnType → Prop
  /-- It is a descriptor, but not that of a class. -/
  | descriptor {ty : ReturnType} (h : ReturnType.ofDescriptor t = .ok ty)
      (hclass : ∀ name, ty ≠ .value (.object name)) : ReadsWithoutClass t ty
  /-- It is the name of an array. -/
  | source {component : FieldType}
      (h : ReturnType.ofSourceName t = .ok (.value (.array component))) :
      ReadsWithoutClass t (.value (.array component))

theorem ReadsWithoutClass.typeOfQuestion_eq {ty : ReturnType}
    (h : ReadsWithoutClass (Text.trim t) ty) : typeOfQuestion t = .ok ty := by
  cases h with
  | descriptor h hclass =>
    obtain ⟨ht, -⟩ := ReturnType.ofDescriptor_eq_ok_iff.1 h
    rw [← h]
    refine IsReadAs.typeOfQuestion_eq ?_
    cases ty with
    | void => exact .letter (by decide) ht
    | value ty =>
      cases ty with
      | base b => exact .letter (by cases b <;> decide) ht
      | object name => exact absurd rfl (hclass name)
      | array component =>
        refine .bracket ?_
        rw [ht]
        rfl
  | source h =>
    rw [← h]
    have hmark := (isMarked_iff_of_ofSourceName h).2 ⟨_, rfl⟩
    have hhead := head?_ne_of_ofSourceName h
    rw [Text.trim_trim] at hmark hhead
    exact (IsReadAs.mark hhead hmark).typeOfQuestion_eq

/-! ### Answers -/

section Answers

variable (index : Index)

theorem checkTypeText_eq_ok {ty : ReturnType} (h : typeOfQuestion t = .ok ty) :
    index.checkTypeText t = .ok (index.checkType ty) := by
  rw [checkTypeText, h]
  rfl

/-- Only a class has a report. -/
theorem exists_of_checkType {ty : ReturnType} {report : Text}
    (h : index.checkType ty = some report) :
    ∃ name, ty = .value (.object name) ∧ index.checkClass name = some report := by
  cases ty with
  | void => cases h
  | value ty =>
    cases ty with
    | base b => cases h
    | object name => exact ⟨name, rfl, h⟩
    | array component => cases h

theorem checkTypeText_of_isPlainName (h : IsPlainName c) :
    index.checkTypeText c = .ok (index.checkClass (Text.internalName c)) :=
  index.checkTypeText_eq_ok h.typeOfQuestion_eq

/-- What reads as anything but a class has no report. -/
theorem ReadsWithoutClass.checkTypeText_eq {ty : ReturnType}
    (h : ReadsWithoutClass (Text.trim t) ty) : index.checkTypeText t = .ok none := by
  rw [index.checkTypeText_eq_ok h.typeOfQuestion_eq]
  cases hreport : index.checkType ty with
  | none => rfl
  | some report =>
    obtain ⟨name, rfl, -⟩ := index.exists_of_checkType hreport
    cases h with
    | descriptor h hclass => exact absurd rfl (hclass name)

/-- What is shaped like a letter or an array has no report. -/
theorem IsClassless.checkTypeText_ne (h : IsClassless (Text.trim t)) (report : Text) :
    index.checkTypeText t ≠ .ok (some report) := by
  intro hreport
  cases hread : typeOfQuestion t with
  | error e =>
    rw [checkTypeText, hread] at hreport
    cases hreport
  | ok ty =>
    rw [index.checkTypeText_eq_ok hread] at hreport
    obtain ⟨name, rfl, -⟩ := index.exists_of_checkType (Except.ok.inj hreport)
    exact h.typeOfQuestion_ne name hread

end Answers

/-! ### Where answers come from -/

/-- **What is forbidden is said by the records** of which `p` holds. The keys of methods depend on
their class, too, and so not every record about a method has a report. -/
structure Reflects (p : Record → Prop) (index : Index) : Prop where
  /-- A report is the printout of a record that is written about its key. -/
  exists_record : ∀ {k report}, index.reports.get? k = some report →
    ∃ r, p r ∧ r.concerns k = true ∧ report = r.printout
  /-- A record about a class has a report. -/
  exists_report : ∀ {r name}, p r → r.concerns (.class name) = true →
    ∃ report, index.reports.get? (.class name) = some report
  /-- The patterns are those of the records with a glob. -/
  mem_patterns_iff : ∀ {pattern}, pattern ∈ index.patterns ↔
    ∃ r, p r ∧ r.isPattern = true ∧ pattern = r.pattern

theorem reflects_empty : empty.Reflects fun _ => False where
  exists_record := fun h => nomatch h
  exists_report := False.elim
  mem_patterns_iff := iff_of_false List.not_mem_nil fun ⟨_, h, _⟩ => h

namespace Reflects

variable {p q : Record → Prop} {index : Index}

theorem congr (hi : index.Reflects p) (hpq : ∀ r, p r ↔ q r) : index.Reflects q :=
  funext (fun r => propext (hpq r)) ▸ hi

/-- A record adds its own printout and its own pattern, if it is accepted. -/
theorem accept (hi : index.Reflects p) {u : Universe} (hu : u.Coherent) (r : Record) :
    (index.accept u r).Reflects fun r' => p r' ∨ (r' = r ∧ r.isAcceptedIn u = true) where
  exists_record := by
    intro k report h
    rw [get?_reports_accept hu] at h
    split at h
    · next hwrites =>
      simp only [Bool.and_eq_true] at hwrites
      exact ⟨r, .inr ⟨rfl, hwrites.1.1⟩, hwrites.1.2, (Option.some.inj h).symm⟩
    · obtain ⟨r', hr', hrest⟩ := hi.exists_record h
      exact ⟨r', .inl hr', hrest⟩
  exists_report := by
    intro r' name hr' hconcerns
    rw [get?_reports_accept hu]
    split
    · exact ⟨_, rfl⟩
    · next hwrites =>
      rcases hr' with hr' | ⟨rfl, haccepted⟩
      · exact hi.exists_report hr' hconcerns
      · exact absurd (by simp [haccepted, hconcerns, Universe.offers]) hwrites
  mem_patterns_iff := by
    intro pattern
    rw [patterns_accept]
    split
    · next hpattern =>
      have haccepted : r.isAcceptedIn u = true := by simp [Record.isAcceptedIn, hpattern]
      rw [mem_addOnce, hi.mem_patterns_iff]
      constructor
      · rintro (⟨r', hr', hrest⟩ | rfl)
        · exact ⟨r', .inl hr', hrest⟩
        · exact ⟨r, .inr ⟨rfl, haccepted⟩, hpattern, rfl⟩
      · rintro ⟨r', hr' | ⟨rfl, -⟩, hrest⟩
        · exact .inl ⟨r', hr', hrest⟩
        · exact .inr hrest.2
    · next hpattern =>
      rw [hi.mem_patterns_iff]
      constructor
      · rintro ⟨r', hr', hrest⟩
        exact ⟨r', .inl hr', hrest⟩
      · rintro ⟨r', hr' | ⟨rfl, -⟩, hrest⟩
        · exact ⟨r', hr', hrest⟩
        · exact absurd hrest.1 hpattern

/-- **What a trace does is said by the records that it accepts.** -/
theorem foldl_follow (hi : index.Reflects p) {u : Universe} (hu : u.Coherent) (t : Trace) :
    (t.foldl (follow u) index).Reflects fun r => p r ∨ r ∈ acceptedOf u t := by
  induction t using List.reverseRecOn with
  | nil => exact hi.congr fun r => by simp [acceptedOf, recordsOf]
  | append_singleton t e ih =>
    rw [List.foldl_append, List.foldl_cons, List.foldl_nil]
    rcases eq_considered_or e with ⟨r, policy, rfl⟩ | he
    · refine (ih.accept hu r).congr fun r' => ?_
      rw [acceptedOf_concat, List.mem_append, ← or_assoc]
      refine or_congr_right ?_
      split <;> simp [*]
    · rw [acceptedOf_concat_of_considered? he]
      obtain ⟨hreports, -, hpatterns⟩ := follow_of_considered? he u (t.foldl (follow u) index)
      exact ⟨fun h => ih.exists_record (hreports ▸ h),
        fun hr hconcerns => hreports ▸ ih.exists_report hr hconcerns,
        hpatterns ▸ ih.mem_patterns_iff⟩

end Reflects
end Index

namespace Run

/-- **After every run, what is forbidden is said by the records that it accepted.** -/
theorem reflects_ofSteps (steps : List Step) :
    (ofSteps steps).registry.index.Reflects (Accepts steps) := by
  induction steps using List.reverseRecOn with
  | nil => exact Index.reflects_empty.congr fun r => by simp [Accepts]
  | append_singleton steps st ih =>
    rw [ofSteps_append_singleton]
    cases st with
    | populate s call =>
      obtain ⟨-, t, ht, hindex⟩ := s.respects_replays.perform replays_of_isSummary
        (ofSteps steps).registry call
      obtain rfl : (s.perform (ofSteps steps).registry call).trace = t := ht
      rw [show ((ofSteps steps).step (.populate s call)).registry.index = _ from hindex]
      refine (Index.Reflects.foldl_follow ih (coherent_ofSteps steps) _).congr fun r => ?_
      rw [accepts_concat]
      simp
    | provide op => exact ih.congr fun r => by simp [accepts_concat]

/-- **A report of a class**, by its name with slashes: the printout of an accepted record about the
class, or that of the pattern of an accepted record which catches the class. -/
inductive Reports (steps : List Step) (name report : Text) : Prop
  /-- The record names the class. -/
  | class {r : Record} (hr : Accepts steps r) (hclass : r.concerns (.class name) = true)
      (h : report = r.printout)
  /-- The record is a glob that the name of the class, with dots, belongs to. -/
  | pattern {r : Record} (hr : Accepts steps r) (hpattern : r.isPattern = true)
      (hcatches : r.pattern.catches (Text.binaryName name) = true)
      (h : report = r.pattern.printout (Text.binaryName name))

/-- What is answered about a class is a report of it. -/
theorem reports_of_checkClass {steps : List Step} {name report : Text}
    (h : (ofSteps steps).registry.index.checkClass name = some report) :
    Reports steps name report := by
  have hreflects := reflects_ofSteps steps
  rcases Option.or_eq_some_iff.1 h with hclass | ⟨-, hpattern⟩
  · obtain ⟨r, hr, hconcerns, hreport⟩ := hreflects.exists_record hclass
    exact .class hr hconcerns hreport
  · obtain ⟨pattern, hfind, rfl⟩ := Option.map_eq_some_iff.1 hpattern
    obtain ⟨r, hr, hglob, rfl⟩ := hreflects.mem_patterns_iff.1 (List.mem_of_find?_eq_some hfind)
    exact .pattern hr hglob (by simpa using List.find?_some hfind) rfl

/-- Nothing is answered about a class exactly if there is no report of it. -/
theorem checkClass_eq_none_iff {steps : List Step} {name : Text} :
    (ofSteps steps).registry.index.checkClass name = none ↔
      ∀ report, ¬Reports steps name report := by
  have hreflects := reflects_ofSteps steps
  constructor
  · intro hnone report hreport
    obtain ⟨hclass, hpattern⟩ := Option.or_eq_none_iff.1 hnone
    cases hreport with
    | «class» hr hconcerns h =>
      obtain ⟨report', hreport'⟩ := hreflects.exists_report hr hconcerns
      rw [hreport'] at hclass
      cases hclass
    | pattern hr hglob hcatches h =>
      have hmem := hreflects.mem_patterns_iff.2 ⟨_, hr, hglob, rfl⟩
      exact List.find?_eq_none.1 (Option.map_eq_none_iff.1 hpattern) _ hmem hcatches
  · intro hnone
    cases hanswer : (ofSteps steps).registry.index.checkClass name with
    | none => rfl
    | some report => exact absurd (reports_of_checkClass hanswer) (hnone report)

/-- Every question has an answer, or is a syntax error. -/
theorem checkTypeText_cases (steps : List Step) (t : Text) :
    let index := (ofSteps steps).registry.index
    index.checkTypeText t = .ok none ∨
    (∃ name report, Index.typeOfQuestion t = .ok (.value (.object name)) ∧
      index.checkTypeText t = .ok (some report) ∧ Reports steps name report) ∨
    ∃ e f, index.checkTypeText t = .error e ∧ e.problem = .failure f ∧ f.kind = .parse := by
  intro index
  cases hread : Index.typeOfQuestion t with
  | error e => exact .inr (.inr ⟨e, _, by rw [Index.checkTypeText, hread]; rfl, rfl, rfl⟩)
  | ok ty =>
    have hanswer := index.checkTypeText_eq_ok hread
    cases hreport : index.checkType ty with
    | none => exact .inl (by rw [hanswer, hreport])
    | some report =>
      obtain ⟨name, rfl, hclass⟩ := index.exists_of_checkType hreport
      rw [hreport] at hanswer
      exact .inr (.inl ⟨name, report, rfl, hanswer, reports_of_checkClass hclass⟩)

/-! ### The result -/

/-- **Questions about types are answered by the class that they name.** After every run:

* the name of a class with dots, the name with slashes, its descriptor, and the types that the
  readers make of the descriptor and of the name all have one answer, which is no report exactly if
  no record that the run accepted is about the class;
* every text has an answer or is a syntax error, and an answer that is a report stems from a record
  that the run accepted;
* what reads as `void`, as a base type or as an array has no report, and what is only shaped like
  one has none either. -/
theorem type_questions (steps : List Step) :
    let index := (ofSteps steps).registry.index
    (∀ c, Index.IsPlainName c →
      let descriptor := "L".toText ++ Text.internalName c ++ ";".toText
      (index.checkTypeText c = .ok none ↔
        ∀ report, ¬Reports steps (Text.internalName c) report) ∧
      index.checkTypeText (Text.internalName c) = index.checkTypeText c ∧
      index.checkTypeText descriptor = index.checkTypeText c ∧
      (∃ ty, ReturnType.ofDescriptor descriptor = .ok ty ∧
        .ok (index.checkType ty) = index.checkTypeText c) ∧
      .ok (index.checkType (.value (.ofClassName c))) = index.checkTypeText c) ∧
    (∀ t, index.checkTypeText t = .ok none ∨
      (∃ name report, Index.typeOfQuestion t = .ok (.value (.object name)) ∧
        index.checkTypeText t = .ok (some report) ∧ Reports steps name report) ∨
      ∃ e f, index.checkTypeText t = .error e ∧ e.problem = .failure f ∧ f.kind = .parse) ∧
    (∀ t ty, Index.ReadsWithoutClass (Text.trim t) ty → index.checkTypeText t = .ok none) ∧
    ∀ t, Index.IsClassless (Text.trim t) → ∀ report, index.checkTypeText t ≠ .ok (some report) := by
  intro index
  refine ⟨fun c hc => ?_, checkTypeText_cases steps, fun t ty h => h.checkTypeText_eq index,
    fun t h => h.checkTypeText_ne index⟩
  intro descriptor
  have hinternal := hc.internalName
  -- All spellings lead to the name with slashes.
  rw [index.checkTypeText_of_isPlainName hc]
  refine ⟨?_, ?_,
    index.checkTypeText_eq_ok (Index.typeOfQuestion_descriptor hinternal.isInternalName),
    ⟨_, Index.ofDescriptor_object hinternal.isInternalName, rfl⟩, rfl⟩
  · rw [← checkClass_eq_none_iff]
    exact ⟨Except.ok.inj, congrArg _⟩
  · rw [index.checkTypeText_of_isPlainName hinternal, Text.internalName_internalName]

/-- A call that forbids the classes of a package. -/
def packageSteps : List Step :=
  [.populate ⟨{}, .mapping .empty, ⟨⟨[]⟩, []⟩⟩ (.text "java.util.* @ Not here".toText)]

/-- A class of the package is caught in every spelling, and no array of it is. -/
theorem type_questions_package :
    let index := (ofSteps packageSteps).registry.index
    let report := "java.util.Date [Not here]".toText
    Index.IsPlainName "java.util.Date".toText ∧
    index.checkTypeText "java.util.Date".toText = .ok (some report) ∧
    index.checkTypeText "java/util/Date".toText = .ok (some report) ∧
    index.checkTypeText "Ljava/util/Date;".toText = .ok (some report) ∧
    Index.ReadsWithoutClass "[Ljava/util/Date;".toText
      (.value (.array (.object "java/util/Date".toText))) ∧
    index.checkTypeText "[Ljava/util/Date;".toText = .ok none ∧
    Index.IsClassless "java.util.Date...".toText ∧
    index.checkTypeText "java.util.Date...".toText ≠ .ok (some report) := by
  intro index report
  obtain ⟨hspellings, -, hreads, hclassless⟩ := type_questions packageSteps
  have hname : Index.IsPlainName "java.util.Date".toText :=
    ⟨by decide, by decide, by decide, by decide, by decide, by decide⟩
  have hreport : index.checkTypeText "java.util.Date".toText = .ok (some report) := by
    decide +kernel
  obtain ⟨-, hinternal, hdescriptor, -⟩ := hspellings _ hname
  have harray : Index.ReadsWithoutClass "[Ljava/util/Date;".toText
      (.value (.array (.object "java/util/Date".toText))) :=
    .descriptor (by decide) nofun
  have hvariadic : Index.IsClassless "java.util.Date...".toText := .mark (by decide)
  exact ⟨hname, hreport, hinternal.trans hreport, hdescriptor.trans hreport, harray,
    hreads _ _ harray, hvariadic, hclassless "java.util.Date...".toText hvariadic report⟩

end Run
end Embargo
