import Embargo.Failure
import Embargo.Proofs.Declaration

/-!
# The grammar of method signatures

A method is written in one of two forms, and the text alone says which it is. This module gives the
grammar of either form apart from the reader, and shows that the reader follows it.

| form | text | |
| --- | --- | --- |
| class files | `n(d₁…dₖ)r` | `Method.HasDescriptorForm`: descriptors, without `)` before the last |
| source text | `n(p)` | `Method.HasSourceForm`: names of types that are no row of descriptors |

* `Method.declaredArguments_eq_ok_iff` – what is read between the parentheses of source text.
* `Method.parse_eq_ok_iff` – **the reader accepts a text in one of the forms, and no other text**.
* `Method.not_hasSourceForm` – no text has both forms.
* `Method.parse_text` – **the text of a method that was read is read as that method**, whichever
  form it was read from.
-/

namespace Embargo.Jvm.Method

/-! ### The form of class files -/

/-- **The form of class files**: a name, and descriptors between the parentheses and after them.
The first closing parenthesis ends the arguments, so that the class names among these cannot hold
one. -/
structure HasDescriptorForm (m : Method) (s : Text) : Prop where
  /-- The text has a name, descriptors between parentheses and a descriptor after them. -/
  text_eq : s = form m.name (m.arguments.flatMap FieldType.descriptor) m.returns.descriptor
  /-- There is a name. -/
  name_ne_nil : m.name ≠ []
  /-- The name has no parentheses. -/
  parenthesis_notMem : CodePoint.char '(' ∉ m.name ∧ CodePoint.char ')' ∉ m.name
  /-- The class names among the arguments are not empty and have neither `;` nor `)`. -/
  arguments : ∀ t ∈ m.arguments,
    t.NameSatisfies fun name => IsInternalName name ∧ CodePoint.char ')' ∉ name
  /-- The class name in the return type is not empty and has no `;`. -/
  returns : m.returns.NameSatisfies IsInternalName

namespace HasDescriptorForm

variable {m : Method} {s : Text}

theorem close_notMem (h : m.HasDescriptorForm s) :
    CodePoint.char ')' ∉ m.arguments.flatMap FieldType.descriptor :=
  (FieldType.notMem_descriptors_iff (by decide)).2 fun t ht =>
    (h.arguments t ht).mono fun _ => And.right

theorem parse {t : Text} (h : m.HasDescriptorForm (Text.trim t)) : Method.parse t = .ok m := by
  obtain ⟨hopen, hclose⟩ := h.parenthesis_notMem
  rw [parse_eq h.text_eq hopen h.close_notMem, if_neg (not_or.2 ⟨h.name_ne_nil, hclose⟩),
    if_pos m.returns.descriptor_ne_nil, ofDescriptor_eq_ok_iff h.close_notMem]
  exact ⟨rfl, FieldType.readMany_descriptors fun t ht => (h.arguments t ht).mono fun _ => And.left,
    ReturnType.ofDescriptor_eq_ok_iff.2 ⟨rfl, h.returns⟩⟩

/-- What is read behind a name without parentheses has the form of class files. -/
theorem of_ofDescriptor {name inside after : Text} (hname : name ≠ [])
    (hopen : CodePoint.char '(' ∉ name) (hclose : CodePoint.char ')' ∉ name)
    (hinside : CodePoint.char ')' ∉ inside)
    (h : ofDescriptor name ('(' :: (inside ++ CodePoint.char ')' :: after)) = .ok m) :
    m.HasDescriptorForm (form name inside after) := by
  obtain ⟨rfl, hmany, hreturns⟩ := (ofDescriptor_eq_ok_iff hinside).1 h
  obtain ⟨rfl, harguments⟩ := FieldType.readMany_eq_iff.1 hmany
  obtain ⟨rfl, hinternal⟩ := ReturnType.ofDescriptor_eq_ok_iff.1 hreturns
  have hparenthesis := (FieldType.notMem_descriptors_iff (by decide)).1 hinside
  exact ⟨rfl, hname, ⟨hopen, hclose⟩, fun t ht =>
    FieldType.nameSatisfies_and.2 ⟨harguments t ht, hparenthesis t ht⟩, hinternal⟩

end HasDescriptorForm

/-! ### The form of source text -/

/-- **The simple names of the language**: letters and numbers, `_` and `$`, at least one character
and no digit first. -/
def IsSimpleName (name : Text) : Prop :=
  name ≠ [] ∧ (∀ c ∈ name, Text.isAlphanumeric c = true ∨ c = '_' ∨ c = '$') ∧
    ∀ c ∈ name.head?, Text.hasDigitValue c = false

/-- **A row of one or more descriptors**, without semicolons or parentheses in the class names. -/
def IsRow (inside : Text) : Prop :=
  ∃ ts : List FieldType, ts ≠ [] ∧ inside = ts.flatMap FieldType.descriptor ∧
    ∀ t ∈ ts, t.NameSatisfies fun name =>
      CodePoint.char ';' ∉ name ∧ CodePoint.char '(' ∉ name ∧ CodePoint.char ')' ∉ name

/-- **A row of type names** with commas between them; no names in an empty row. -/
def NamesTypes (inside : Text) (ts : List FieldType) : Prop :=
  (Text.trim inside = [] ∧ ts = []) ∨
    List.Forall₂ (fun part t => ReturnType.ofSourceName part = .ok (.value t))
      (Text.split ',' (Text.trim inside)) ts

/-- What a declaration says about a method: its parts before the parentheses and between them. -/
structure IsDeclaredBy (m : Method) (before inside : Text) : Prop where
  /-- The first closing parenthesis ends the arguments. -/
  close_notMem : CodePoint.char ')' ∉ inside
  /-- White space around the name is of no account. -/
  name_eq : m.name = Text.trim before
  /-- The name is a simple name, or that of a constructor or class initialiser. -/
  isName : IsSimpleName m.name ∨ m.name = "<init>".toText ∨ m.name = "<clinit>".toText
  /-- The types of the arguments are named between the parentheses. -/
  arguments : NamesTypes inside m.arguments
  /-- Arguments that are descriptors would lack a return type. -/
  not_isRow : ¬IsRow inside
  /-- The return type is left at `void`. -/
  returns : m.returns = .void

/-- **The form of source text**: a name, and names of types between the parentheses. -/
def HasSourceForm (m : Method) (s : Text) : Prop :=
  ∃ before inside, s = form before inside [] ∧ m.IsDeclaredBy before inside

theorem isIdentifier_iff {name : Text} : isIdentifier name = true ↔ IsSimpleName name := by
  cases name with
  | nil => exact iff_of_false nofun fun h => h.1 rfl
  | cons c r => simp [isIdentifier, IsSimpleName, isIdentifierChar, or_assoc, and_comm]

theorem isMethodName_iff {name : Text} : isMethodName name = true ↔
    IsSimpleName name ∨ name = "<init>".toText ∨ name = "<clinit>".toText := by
  rw [isMethodName, Bool.or_eq_true, isIdentifier_iff]
  simp [specialNames]

theorem IsDeclaredBy.isMethodName {m : Method} {before inside : Text}
    (h : m.IsDeclaredBy before inside) : Method.isMethodName (Text.trim before) = true :=
  isMethodName_iff.2 (h.name_eq ▸ h.isName)

/-- **What is read from the arguments of a declaration.** -/
theorem declaredArguments_eq_ok_iff {declaration inside : Text} {ts : List FieldType} :
    declaredArguments declaration inside = .ok ts ↔ NamesTypes inside ts := by
  rw [declaredArguments, NamesTypes]
  split
  · next hblank =>
    -- Otherwise the one part would be an empty text, and this names no type.
    have hparts : ¬List.Forall₂ (fun part t => ReturnType.ofSourceName part = .ok (.value t))
        (Text.split ',' (Text.trim inside)) ts := by
      rw [hblank]
      rintro (_ | ⟨hname, -⟩)
      rw [FieldType.ofSourceName_nil] at hname
      cases hname
    rw [or_iff_left hparts, and_iff_right hblank, Except.ok.injEq, eq_comm]
  · next hinside =>
    rw [mapM_eq_ok_iff]
    refine ⟨fun h => .inr (h.imp fun part t ht => ?_), fun h =>
      (h.resolve_left fun hblank => hinside hblank.1).imp fun part t ht => by rw [ht]⟩
    split at ht
    · next u hu => rw [hu, Except.ok.inj ht]
    · cases ht
    · cases ht

theorem NamesTypes.isNamed {inside : Text} {ts : List FieldType} (h : NamesTypes inside ts) :
    ∀ t ∈ ts, t.IsNamed := by
  obtain ⟨-, rfl⟩ | hparts := h
  · nofun
  · have hsources : List.Forall₂ (fun t part => t.IsNamed ∧
        ReturnType.ofSourceName part = .ok (.value t)) ts (Text.split ',' (Text.trim inside)) :=
      hparts.flip.imp fun t part h => ⟨FieldType.isNamed_of_ofSourceName h, h⟩
    exact ((List.forall₂_and_left _ _).1 hsources).1

/-- Names of types have no semicolons, whereas class names among descriptors end with one. -/
theorem NamesTypes.semicolon_notMem {inside : Text} {ts : List FieldType}
    (h : NamesTypes inside ts) : CodePoint.char ';' ∉ inside := by
  intro hmem
  have hblank : Text.isBlank (CodePoint.char ';') = false := by decide
  have htrim := Text.mem_trim hblank hmem
  obtain ⟨hnil, -⟩ | hparts := h
  · rw [hnil] at htrim
    cases htrim
  · have hsources : ∀ part ∈ Text.split ',' (Text.trim inside),
        ∃ t, ReturnType.ofSourceName part = .ok (.value t) :=
      ((List.forall₂_and_left _ _).1 (hparts.imp fun part t h => ⟨⟨t, h⟩, h⟩)).1
    rw [← Text.join_split ',' (Text.trim inside)] at htrim
    rcases Text.of_mem_join htrim with hcomma | ⟨part, hpart, hmem⟩
    · exact absurd hcomma (by decide)
    · obtain ⟨t, hsource⟩ := hsources part hpart
      have hid := FieldType.isIdentifierChar_of_mem_source hsource hblank (by decide) hmem
      revert hid
      decide

/-- **The reader takes rows of descriptors for what they are.** -/
theorem isDescriptorRow_iff_isRow {inside : Text} (hsemicolon : CodePoint.char ';' ∉ inside)
    (hclose : CodePoint.char ')' ∉ inside) : isDescriptorRow inside = true ↔ IsRow inside := by
  rw [isDescriptorRow_iff]
  constructor
  · rintro ⟨hne, hrest, hopen⟩
    obtain ⟨hrow, hnames⟩ := FieldType.readMany_eq_iff.1 (Prod.ext rfl hrest)
    rw [hrow, FieldType.notMem_descriptors_iff (by decide)] at hopen hclose
    exact ⟨_, hne, hrow, fun t ht =>
      FieldType.nameSatisfies_and.2 ⟨(hnames t ht).mono fun _ => And.right,
        FieldType.nameSatisfies_and.2 ⟨hopen t ht, hclose t ht⟩⟩⟩
  · rintro ⟨ts, hne, rfl, hnames⟩
    have hmany : FieldType.readMany (ts.flatMap FieldType.descriptor) = (ts, []) :=
      FieldType.readMany_descriptors fun t ht => FieldType.nameSatisfies_of_notMem
        (fun hmem => hsemicolon (List.mem_flatMap.2 ⟨t, ht, hmem⟩)) IsInternalName
    rw [hmany]
    exact ⟨hne, rfl, (FieldType.notMem_descriptors_iff (by decide)).2 fun t ht =>
      (hnames t ht).mono fun _ h => h.2.1⟩

/-- The name of a method stands before the parentheses, perhaps with white space around it. -/
theorem notMem_of_trim {before : Text} (h : isMethodName (Text.trim before) = true) {c : CodePoint}
    (hc : Text.isBlank c = false ∧ isIdentifierChar c = false ∧ c ∉ "<>".toText) : c ∉ before :=
  fun hmem => (isMadeOf_of_isMethodName h).notMem hc.2 (Text.mem_trim hc.1 hmem)

theorem ne_nil_of_trim {before : Text} (h : isMethodName (Text.trim before) = true) :
    before ≠ [] := by
  rintro rfl
  cases h

theorem HasSourceForm.parse {m : Method} {t : Text} (h : m.HasSourceForm (Text.trim t)) :
    Method.parse t = .ok m := by
  obtain ⟨before, inside, hform, hdeclared⟩ := h
  have hname := hdeclared.isMethodName
  have hopen : CodePoint.char '(' ∉ before := notMem_of_trim hname (by decide)
  have hrow : ¬isDescriptorRow inside = true := fun hrow => hdeclared.not_isRow
    ((isDescriptorRow_iff_isRow hdeclared.arguments.semicolon_notMem hdeclared.close_notMem).1 hrow)
  rw [parse_eq hform hopen hdeclared.close_notMem,
    if_neg (not_or.2 ⟨ne_nil_of_trim hname, notMem_of_trim hname (by decide)⟩),
    if_neg (not_not.2 rfl), if_neg hrow, ofDeclaration_form_eq_ok_iff hopen hdeclared.close_notMem]
  refine ⟨rfl, hname, m.arguments, declaredArguments_eq_ok_iff.2 hdeclared.arguments, ?_⟩
  rw [← hdeclared.name_eq, ← hdeclared.returns]

/-! ### Both forms -/

theorem exists_form_of_parse {t : Text} {m : Method} (h : parse t = .ok m) :
    ∃ name inside after, Text.trim t = form name inside after ∧ CodePoint.char '(' ∉ name ∧
      CodePoint.char ')' ∉ inside := by
  unfold parse at h
  dsimp only at h
  split at h
  · exact exists_form_of_ofDeclaration h
  · next name rest hopen =>
    split at h
    · exact exists_form_of_ofDeclaration h
    · next inside after hclose => exact ⟨name, inside, after, form_eq_of_cut hopen hclose⟩

/-- **What the reader accepts has one of the forms.** -/
theorem hasForm_of_parse {t : Text} {m : Method} (h : parse t = .ok m) :
    m.HasDescriptorForm (Text.trim t) ∨ m.HasSourceForm (Text.trim t) := by
  obtain ⟨name, inside, after, hform, hopen, hclose⟩ := exists_form_of_parse h
  rw [parse_eq hform hopen hclose] at h
  split at h
  · next hbare =>
    -- Without a name, or with a parenthesis in it, the text is read as a declaration in vain.
    obtain ⟨-, hname, -⟩ := (ofDeclaration_form_eq_ok_iff hopen hclose).1 h
    exact absurd hbare (not_or.2 ⟨ne_nil_of_trim hname, notMem_of_trim hname (by decide)⟩)
  · next hname =>
    obtain ⟨hne, hparenthesis⟩ := not_or.1 hname
    split at h
    · exact .inl (hform ▸ .of_ofDescriptor hne hopen hparenthesis hclose h)
    · next hafter =>
      obtain rfl := not_not.1 hafter
      split at h
      · cases h
      · next hrow =>
        obtain ⟨-, hname, ts, hts, rfl⟩ := (ofDeclaration_form_eq_ok_iff hopen hclose).1 h
        have harguments : NamesTypes inside ts := declaredArguments_eq_ok_iff.1 hts
        have hnotRow : ¬IsRow inside := fun h =>
          hrow ((isDescriptorRow_iff_isRow harguments.semicolon_notMem hclose).2 h)
        exact .inr ⟨name, inside, hform, hclose, rfl, isMethodName_iff.1 hname, harguments,
          hnotRow, rfl⟩

/-- **The reader accepts a text in one of the forms, and no other text.** -/
theorem parse_eq_ok_iff {t : Text} {m : Method} : parse t = .ok m ↔
    m.HasDescriptorForm (Text.trim t) ∨ m.HasSourceForm (Text.trim t) :=
  ⟨hasForm_of_parse, fun h => h.elim HasDescriptorForm.parse HasSourceForm.parse⟩

/-- **No text has both forms**: only descriptors have something after the parentheses. -/
theorem not_hasSourceForm {m m' : Method} {s : Text} (h : m.HasDescriptorForm s) :
    ¬m'.HasSourceForm s := by
  rintro ⟨before, inside, hform, hdeclared⟩
  have hname := hdeclared.isMethodName
  obtain ⟨-, -, hreturns⟩ := form_inj h.parenthesis_notMem.1 (notMem_of_trim hname (by decide))
    h.close_notMem hdeclared.close_notMem (h.text_eq.symm.trans hform)
  exact m.returns.descriptor_ne_nil hreturns

/-- **The grammar of method signatures.** A text is read as a method if and only if it has one of
the two forms, without the white space around it. It has at most one of them, and any other text is
reported as signature text that cannot be read. -/
theorem parse_grammar (t : Text) :
    (∀ m, parse t = .ok m ↔
      m.HasDescriptorForm (Text.trim t) ∨ m.HasSourceForm (Text.trim t)) ∧
    (∀ m m' : Method, ¬(m.HasDescriptorForm (Text.trim t) ∧ m'.HasSourceForm (Text.trim t))) ∧
    ((∃ m : Method, m.HasDescriptorForm (Text.trim t) ∨ m.HasSourceForm (Text.trim t)) ∨
      ∃ e f, parse t = .error e ∧ e.problem = .failure f ∧ f.kind = .parse) := by
  refine ⟨fun m => parse_eq_ok_iff, fun m m' h => not_hasSourceForm h.1 h.2, ?_⟩
  cases hparse : parse t with
  | ok m => exact .inl ⟨m, parse_eq_ok_iff.1 hparse⟩
  | error e => exact .inr ⟨e, _, rfl, rfl, rfl⟩

/-- White space before a class name makes the difference between a descriptor that lacks its return
type and a declaration. -/
example : parse "exit(I)".toText = .error (.returnTypeMissing "exit(I)".toText) ∧
    parse "exit( I)".toText = .ok ⟨"exit".toText, [.object "I".toText], .void⟩ := by
  decide +kernel

/-! ### Rendering -/

theorem parse_trim (t : Text) : parse (Text.trim t) = parse t := by
  rw [parse, Text.trim_trim]
  rfl

theorem text_eq_form (m : Method) :
    m.text = form m.name (m.arguments.flatMap FieldType.descriptor) m.returns.descriptor := by
  simp [text, descriptor, form]

/-- **The text of a method that was read is read as that method.** A method that was read from
source text is rendered with a return type, in the form of class files. -/
theorem parse_text {t : Text} {m : Method} (h : parse t = .ok m) : parse m.text = .ok m := by
  rcases parse_eq_ok_iff.1 h with hdescriptor | ⟨before, inside, hform, hdeclared⟩
  · rw [text_eq_form, ← hdescriptor.text_eq, parse_trim, h]
  · have hname : isMethodName m.name = true := isMethodName_iff.2 hdeclared.isName
    have hvoid : ReturnType.ofDescriptor m.returns.descriptor = .ok m.returns := by
      rw [hdeclared.returns]
      rfl
    rw [text_eq_form, parse_descriptor hvoid hname hdeclared.arguments.isNamed]

theorem text_injective {t t' : Text} {m m' : Method} (h : parse t = .ok m) (h' : parse t' = .ok m')
    (htext : m.text = m'.text) : m = m' := by
  have hread := parse_text h
  rw [htext, parse_text h'] at hread
  exact (Except.ok.inj hread).symm

/-- **Descriptors that are read one at a time are read in a row.** -/
theorem ofDescriptor_row (name : Text) {ds : List Text} {ts : List FieldType}
    (hds : List.Forall₂ (fun d t => CodePoint.char ')' ∉ d ∧
      ReturnType.ofDescriptor d = .ok (.value t)) ds ts) {d : Text} {r : ReturnType}
    (hd : ReturnType.ofDescriptor d = .ok r) :
    ofDescriptor name ("(".toText ++ ds.flatten ++ ")".toText ++ d) = .ok ⟨name, ts, r⟩ := by
  obtain ⟨hparenthesis, hread⟩ := (List.forall₂_and_left _ _).1 hds
  have hclose : CodePoint.char ')' ∉ ds.flatten := by simpa using hparenthesis
  have hrow : ds.flatten = ts.flatMap FieldType.descriptor ∧
      ∀ t ∈ ts, t.NameSatisfies IsInternalName := by
    clear hds hparenthesis hclose
    induction hread with
    | nil => exact ⟨rfl, nofun⟩
    | cons h _ ih =>
      obtain ⟨rfl, hname⟩ := ReturnType.ofDescriptor_eq_ok_iff.1 h
      exact ⟨congrArg (_ ++ ·) ih.1, List.forall_mem_cons.2 ⟨hname, ih.2⟩⟩
  have hform : "(".toText ++ ds.flatten ++ ")".toText ++ d =
      CodePoint.char '(' :: (ds.flatten ++ CodePoint.char ')' :: d) := by
    simp [String.toText]
  rw [hform, ofDescriptor_eq_ok_iff hclose]
  exact ⟨rfl, FieldType.readMany_eq_iff.2 hrow, hd⟩

/-- **Rendering undoes reading.** The text of a method that was read is read as that method, so that
methods with one text are one method; and descriptors that are read one at a time are read as the
types of a method, in order. -/
theorem text_roundtrip :
    (∀ t m, parse t = .ok m → parse m.text = .ok m) ∧
    (∀ t t' m m', parse t = .ok m → parse t' = .ok m' → m.text = m'.text → m = m') ∧
    ∀ (name : Text) (ds : List Text) (ts : List FieldType) (d : Text) (r : ReturnType),
      List.Forall₂ (fun d t => CodePoint.char ')' ∉ d ∧
        ReturnType.ofDescriptor d = .ok (.value t)) ds ts →
      ReturnType.ofDescriptor d = .ok r →
      ofDescriptor name ("(".toText ++ ds.flatten ++ ")".toText ++ d) = .ok ⟨name, ts, r⟩ :=
  ⟨fun _ _ h => parse_text h, fun _ _ _ _ h h' htext => text_injective h h' htext,
    fun name _ _ _ _ hds hd => ofDescriptor_row name hds hd⟩

/-- One method, from source text and from class files; and a row of descriptors with odd names. -/
theorem text_roundtrip_odd :
    ∃ m m', parse " append ( int , java.lang.String [] )".toText = .ok m ∧
      parse m.text = .ok m ∧
      parse "append(I[Ljava/lang/String;)V".toText = .ok m' ∧ m.text = m'.text ∧ m = m' ∧
      ofDescriptor "a b".toText "([L(;I)L);".toText = .ok ⟨"a b".toText,
        [.array (.object "(".toText), .base .int], .value (.object ")".toText)⟩ := by
  have hsource : parse " append ( int , java.lang.String [] )".toText = .ok ⟨"append".toText,
      [.base .int, .array (.object "java/lang/String".toText)], .void⟩ := by decide +kernel
  have hclass : parse "append(I[Ljava/lang/String;)V".toText = .ok ⟨"append".toText,
      [.base .int, .array (.object "java/lang/String".toText)], .void⟩ := by decide +kernel
  have hfirst : CodePoint.char ')' ∉ "[L(;".toText ∧
      ReturnType.ofDescriptor "[L(;".toText = .ok (.value (.array (.object "(".toText))) := by
    decide
  have hsecond : CodePoint.char ')' ∉ "I".toText ∧
      ReturnType.ofDescriptor "I".toText = .ok (.value (.base .int)) := by decide
  obtain ⟨hread, hinjective, hrow⟩ := text_roundtrip
  exact ⟨_, _, hsource, hread _ _ hsource, hclass, rfl, hinjective _ _ _ _ hsource hclass rfl,
    hrow _ _ _ "L);".toText _ (.cons hfirst (.cons hsecond .nil)) (by decide)⟩

end Embargo.Jvm.Method
