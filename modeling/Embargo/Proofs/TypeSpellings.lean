import Embargo.Proofs.MethodForms

/-!
# Types from source text and from class files

A type has three spellings. What is read from source text may have white space, slashes and either
mark for a dimension; the descriptor and the printed name are each written in one way. **Both of
them lead back to the type**, however it was written in the source text.

| spelling | dimensions | class names | other types |
| --- | --- | --- | --- |
| source text | `[]` or `...` behind | with dots or slashes | keywords |
| descriptor | `[` in front | with slashes | letters |
| printed name | `[]` behind | with dots | keywords |

Class files know more types than source text, namely classes with names that are no class names
there, and classes named like keywords. All others have the three spellings.

* `FieldType.descriptor_eq`, `FieldType.className_eq` – the dimensions of a type in its spellings.
* `IsSlashedName`, `keywords` – the class names of source text, with slashes, and the names that do
  not stand for classes.
* `FieldType.isNamed_iff` – the types that source text can name.
* `ReturnType.spellings_inverse` – the conclusion.
-/

namespace Embargo

/-- Without dots, the fields between the dots of a name with dots are those between its slashes. -/
theorem Text.split_binaryName {t : Text} (h : CodePoint.char '.' ∉ t) :
    split '.' (binaryName t) = split '/' t := by
  induction t with
  | nil => rfl
  | cons c r ih =>
    obtain ⟨hc, hr⟩ := List.ne_and_not_mem_of_not_mem_cons h
    have hrest : split '.' (binaryName r) = split '/' r := ih hr
    by_cases hslash : c = CodePoint.char '/'
    · rw [binaryName, List.map_cons, if_pos hslash, split, if_pos rfl, split, if_pos hslash]
      exact congrArg ([] :: ·) hrest
    · rw [binaryName, List.map_cons, if_neg hslash, split, if_neg (Ne.symm hc), split,
        if_neg hslash]
      rw [binaryName] at hrest
      rw [hrest]

namespace Jvm

/-! ### Dimensions -/

namespace FieldType

theorem dimensions_element (t : FieldType) : t.element.dimensions = 0 := by
  induction t with
  | array t ih => exact ih
  | _ => rfl

/-- The dimensions stand in front of a descriptor, -/
theorem descriptor_eq (t : FieldType) :
    t.descriptor = List.replicate t.dimensions (CodePoint.char '[') ++ t.element.descriptor := by
  induction t with
  | array t ih =>
    rw [descriptor, dimensions, element, List.replicate_succ, List.cons_append, ← ih]
  | _ => rfl

/-- and behind a printed name. -/
theorem className_eq (t : FieldType) :
    t.className = t.element.className ++ (List.replicate t.dimensions "[]".toText).flatten := by
  induction t with
  | array t ih =>
    rw [className, dimensions, element, List.replicate_succ', List.flatten_append,
      ← List.append_assoc, ← ih, List.flatten_singleton]
  | _ => exact (List.append_nil _).symm

end FieldType

/-! ### Names of classes -/

/-- **The class names of source text**, with slashes: simple names with slashes between them. -/
def IsSlashedName (name : Text) : Prop := ∀ part ∈ Text.split '/' name, Method.IsSimpleName part

/-- The names that stand for `void` and for base types. -/
def keywords : List Text := ReturnType.voidKeyword :: BaseType.all.map BaseType.keyword

theorem IsSlashedName.dot_notMem {name : Text} (h : IsSlashedName name) :
    CodePoint.char '.' ∉ name := by
  intro hdot
  rw [← Text.join_split '/' name] at hdot
  rcases Text.of_mem_join hdot with hslash | ⟨part, hpart, hdot⟩
  · exact absurd hslash (by decide)
  · exact (isMadeOf_of_isIdentifier (Method.isIdentifier_iff.2 (h part hpart))).notMem
      (by decide) hdot

theorem isSlashedName_iff {name : Text} :
    IsSlashedName name ↔ isClassName name = true ∧ CodePoint.char '.' ∉ name := by
  have hclass (hdot : CodePoint.char '.' ∉ name) :
      isClassName name = true ↔ IsSlashedName name := by
    simp only [isClassName, Text.split_binaryName hdot, List.all_eq_true, Method.isIdentifier_iff,
      IsSlashedName]
  exact ⟨fun h => ⟨(hclass h.dot_notMem).2 h, h.dot_notMem⟩, fun h => (hclass h.2).1 h.1⟩

theorem mem_keywords_iff {name : Text} : name ∈ keywords ↔
    name = ReturnType.voidKeyword ∨ (BaseType.ofKeyword? name).isSome = true := by
  rw [keywords, List.mem_cons, BaseType.ofKeyword?, List.find?_isSome, List.mem_map]
  simp only [decide_eq_true_eq]

/-- Keywords are read as they are, also where slashes are read as dots. -/
theorem binaryName_mem_keywords_iff {name : Text} :
    Text.binaryName name ∈ keywords ↔ name ∈ keywords := by
  have hmarks : ∀ keyword ∈ keywords,
      CodePoint.char '.' ∉ keyword ∧ Text.binaryName keyword = keyword := by decide
  constructor
  · intro hname
    rwa [← binaryName_eq_self (hmarks _ hname).1]
  · intro hname
    rwa [(hmarks _ hname).2]

namespace FieldType

/-- **The types that source text can name**: those without a class, and those with a class whose
name is a class name there and no keyword. -/
theorem isNamed_iff {t : FieldType} : t.IsNamed ↔
    t.NameSatisfies fun name => IsSlashedName name ∧ name ∉ keywords := by
  induction t with
  | base b => exact Iff.rfl
  | object name =>
    have hkeyword : name ∉ keywords ↔ BaseType.ofKeyword? (Text.binaryName name) = none ∧
        Text.binaryName name ≠ ReturnType.voidKeyword := by
      rw [← binaryName_mem_keywords_iff, mem_keywords_iff, not_or, and_comm,
        Option.not_isSome_iff_eq_none]
    rw [IsNamed, NameSatisfies, isSlashedName_iff, hkeyword, and_assoc]
  | array t ih => exact ih

/-- A class is the class of its name in either spelling. -/
theorem ofClassName_of_isNamed {name : Text} (h : (object name).IsNamed) :
    ofClassName name = object name ∧ ofClassName (object name).className = object name := by
  have hname : ofClassName name = object name := congrArg object (internalName_eq_self h.2.1)
  exact ⟨hname, (congrArg object (Text.internalName_binaryName name)).trans hname⟩

end FieldType

/-! ### The spellings of a type -/

namespace ReturnType

theorem ofSourceName_voidKeyword : ofSourceName voidKeyword = .ok .void := by decide +kernel

/-- The types that source text can name are those that it names. -/
theorem nameSatisfies_of_ofSourceName {source : Text} {t : ReturnType}
    (h : ofSourceName source = .ok t) :
    t.NameSatisfies fun name => IsSlashedName name ∧ name ∉ keywords := by
  cases t with
  | void => trivial
  | value t => exact FieldType.isNamed_iff.1 (FieldType.isNamed_of_ofSourceName h)

/-- **A printed name is read back.** -/
theorem ofSourceName_className {t : ReturnType}
    (h : t.NameSatisfies fun name => IsSlashedName name ∧ name ∉ keywords) :
    ofSourceName t.className = .ok t := by
  cases t with
  | void => exact ofSourceName_voidKeyword
  | value t => exact FieldType.ofSourceName_className (FieldType.isNamed_iff.2 h)

/-- **A descriptor is read back.** -/
theorem ofDescriptor_descriptor {t : ReturnType}
    (h : t.NameSatisfies fun name => IsSlashedName name ∧ name ∉ keywords) :
    ofDescriptor t.descriptor = .ok t := by
  refine ofDescriptor_eq_ok_iff.2 ⟨rfl, ?_⟩
  cases t with
  | void => trivial
  | value t => exact (FieldType.isNamed_iff.2 h).nameSatisfies_isInternalName

/-- **The spellings of a type lead back to it.** What is read from source text has a descriptor and
a printed name that are read as the same type, and so are the two spellings of the name of a class.
The dimensions stand in front of a descriptor and behind a printed name. The other way round, the
type of a descriptor is read from its printed name if its class, if any, can be named. -/
theorem spellings_inverse :
    (∀ source t, ofSourceName source = .ok t →
      ofDescriptor t.descriptor = .ok t ∧ ofSourceName t.className = .ok t ∧
      t.descriptor = List.replicate t.dimensions (CodePoint.char '[') ++ t.element.descriptor ∧
      t.className = t.element.className ++ (List.replicate t.dimensions "[]".toText).flatten ∧
      t.element.dimensions = 0 ∧
      (t.kind = .object → .value (.ofClassName t.internalName) = t ∧
        .value (.ofClassName t.className) = t)) ∧
    ∀ d t, ofDescriptor d = .ok t →
      (t.NameSatisfies fun name => IsSlashedName name ∧ name ∉ keywords) →
      t.descriptor = d ∧ ofSourceName t.className = .ok t := by
  constructor
  · intro source t h
    have hname := nameSatisfies_of_ofSourceName h
    refine ⟨ofDescriptor_descriptor hname, ofSourceName_className hname, ?_⟩
    rcases t with _ | t
    · exact ⟨rfl, rfl, rfl, nofun⟩
    · refine ⟨t.descriptor_eq, t.className_eq, t.dimensions_element, fun hkind => ?_⟩
      cases t with
      | object name =>
        obtain ⟨hinternal, hprinted⟩ :=
          FieldType.ofClassName_of_isNamed (FieldType.isNamed_iff.2 hname)
        exact ⟨congrArg value hinternal, congrArg value hprinted⟩
      | base b => cases hkind
      | array t => cases hkind
  · intro d t h hname
    exact ⟨(ofDescriptor_eq_ok_iff.1 h).1.symm, ofSourceName_className hname⟩

/-- Both marks with white space before them, behind a class named like a base type; and a class of
class files that is named like `void` in a package. -/
theorem spellings_inverse_marks :
    ∃ t, ofSourceName " a/b.int [] ... ".toText = .ok t ∧
      t.descriptor = "[[La/b/int;".toText ∧ ofDescriptor t.descriptor = .ok t ∧
      t.className = "a.b.int[][]".toText ∧ ofSourceName t.className = .ok t ∧
      ofDescriptor "[La/void;".toText = .ok (.value (.array (.object "a/void".toText))) ∧
      IsSlashedName "a/void".toText ∧ "a/void".toText ∉ keywords ∧
      ofSourceName "a.void[]".toText = .ok (.value (.array (.object "a/void".toText))) := by
  have hsource : ofSourceName " a/b.int [] ... ".toText =
      .ok (.value (.array (.array (.object "a/b/int".toText)))) := by decide +kernel
  have hclass : ofDescriptor "[La/void;".toText =
      .ok (.value (.array (.object "a/void".toText))) := by decide
  have hslashed : IsSlashedName "a/void".toText := isSlashedName_iff.2 (by decide +kernel)
  have hkeyword : "a/void".toText ∉ keywords := by decide
  obtain ⟨hread, hnamed⟩ := spellings_inverse
  obtain ⟨hdescriptor, hprinted, -⟩ := hread _ _ hsource
  exact ⟨_, hsource, rfl, hdescriptor, rfl, hprinted, hclass, hslashed, hkeyword,
    (hnamed _ _ hclass ⟨hslashed, hkeyword⟩).2⟩

end ReturnType
end Jvm
end Embargo
