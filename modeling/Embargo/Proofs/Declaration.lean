import Embargo.Jvm.Method.Reader
import Embargo.Proofs.TypeNames
import Mathlib.Data.List.Forall2

/-!
# Two spellings of one method

A method is named by the declaration `charAt(int)` in source text and by `charAt(I)C` in class
files. The declaration leaves the return type out; but for that, both are read back as the method
that they were written for.

* `Method.declaration` – the declaration with a name and argument types. It is read back
  (`Method.ofDeclaration_declaration`), whatever the types that source text can name.
* `Method.form` – what both spellings have in common, a name with something between parentheses and
  something after them.
* `Method.ofDeclaration_form_eq_ok_iff`, `Method.ofDescriptor_eq_ok_iff` – which texts are read as
  declarations, and which as descriptors.
* `Method.parse_declaration`, `Method.parse_descriptor` – what the reader of either form makes of
  them. It takes `exit(I)` for a descriptor without its return type. So a declaration is refused if
  its only argument is of a class with such a name (`Method.isLetterRow`), and **no other
  declaration** is: a row of type names is a row of descriptors in that case only
  (`Method.isDescriptorRow_row`).
-/

namespace Embargo.Jvm

/-! ### Names of methods -/

namespace Method

/-- What stands in the name of a method. -/
theorem isMadeOf_of_isMethodName {name : Text} (h : isMethodName name = true) :
    IsMadeOf "<>".toText name := by
  rcases Bool.or_eq_true_iff.1 h with h | h
  · exact (isMadeOf_of_isIdentifier h).mono (by simp)
  · have hspecial : ∀ name ∈ specialNames, IsMadeOf "<>".toText name := by decide
    exact hspecial name (by simpa using h)

theorem isBlank_of_mem_name {name : Text} (h : isMethodName name = true) :
    ∀ c ∈ name, Text.isBlank c = false :=
  (isMadeOf_of_isMethodName h).isBlank (by decide)

theorem ne_nil_of_isMethodName {name : Text} (h : isMethodName name = true) : name ≠ [] := by
  rintro rfl
  cases h

/-! ### The two forms -/

/-- A name with something between parentheses and something after them. -/
def form (name inside after : Text) : Text := name ++ "(".toText ++ inside ++ ")".toText ++ after

theorem form_eq (name inside after : Text) : form name inside after =
    name ++ CodePoint.char '(' :: (inside ++ CodePoint.char ')' :: after) := by
  simp [form, String.toText]

section Form

variable {name inside after : Text}

theorem cut_form (hopen : CodePoint.char '(' ∉ name) : Text.cut '(' (form name inside after) =
    some (name, inside ++ CodePoint.char ')' :: after) :=
  Text.cut_eq_some_iff.2 ⟨form_eq name inside after, hopen⟩

theorem cut_inside (hclose : CodePoint.char ')' ∉ inside) :
    Text.cut ')' (inside ++ CodePoint.char ')' :: after) = some (inside, after) :=
  Text.cut_eq_some_iff.2 ⟨rfl, hclose⟩

theorem form_eq_of_cut {s rest : Text} (hopen : Text.cut '(' s = some (name, rest))
    (hclose : Text.cut ')' rest = some (inside, after)) :
    s = form name inside after ∧ CodePoint.char '(' ∉ name ∧ CodePoint.char ')' ∉ inside := by
  obtain ⟨rfl, hname⟩ := Text.cut_eq_some_iff.1 hopen
  obtain ⟨rfl, hinside⟩ := Text.cut_eq_some_iff.1 hclose
  exact ⟨(form_eq name inside after).symm, hname, hinside⟩

/-- The first parentheses cut a text of this form in one way. -/
theorem form_inj {name' inside' after' : Text} (hopen : CodePoint.char '(' ∉ name)
    (hopen' : CodePoint.char '(' ∉ name') (hclose : CodePoint.char ')' ∉ inside)
    (hclose' : CodePoint.char ')' ∉ inside')
    (h : form name inside after = form name' inside' after') :
    name = name' ∧ inside = inside' ∧ after = after' := by
  have hcut : Text.cut '(' (form name inside after) = _ := cut_form hopen
  rw [h, cut_form hopen'] at hcut
  obtain ⟨rfl, hrest⟩ := Prod.mk.inj (Option.some.inj hcut)
  have hcut : Text.cut ')' (inside ++ CodePoint.char ')' :: after) = _ := cut_inside hclose
  rw [← hrest, cut_inside hclose'] at hcut
  obtain ⟨rfl, rfl⟩ := Prod.mk.inj (Option.some.inj hcut)
  exact ⟨rfl, rfl, rfl⟩

/-- **What can be read as a declaration has the form of one.** -/
theorem exists_form_of_ofDeclaration {s : Text} {m : Method} (h : ofDeclaration s = .ok m) :
    ∃ name inside after, s = form name inside after ∧ CodePoint.char '(' ∉ name ∧
      CodePoint.char ')' ∉ inside := by
  unfold ofDeclaration at h
  split at h
  · cases h
  · next name rest hopen =>
    split at h
    · cases h
    · next inside after hclose => exact ⟨name, inside, after, form_eq_of_cut hopen hclose⟩

/-- **The declarations that can be read.** Nothing but white space stands after the parentheses, and
the name is that of a method. -/
theorem ofDeclaration_form_eq_ok_iff (hopen : CodePoint.char '(' ∉ name)
    (hclose : CodePoint.char ')' ∉ inside) {m : Method} :
    ofDeclaration (form name inside after) = .ok m ↔
      Text.trim after = [] ∧ isMethodName (Text.trim name) = true ∧
        ∃ ts, declaredArguments (form name inside after) inside = .ok ts ∧
          m = ⟨Text.trim name, ts, .void⟩ := by
  rw [ofDeclaration, cut_form hopen]
  dsimp only
  rw [cut_inside hclose]
  dsimp only
  by_cases hafter : Text.trim after = []
  · rw [if_neg (not_not.2 hafter)]
    cases hname : isMethodName (Text.trim name) with
    | false => split <;> simp
    | true =>
      rw [if_neg (ne_nil_of_isMethodName hname), if_neg (by simp)]
      cases declaredArguments (form name inside after) inside with
      | error e => simp [Except.map]
      | ok ts => simp [Except.map, hafter, eq_comm]
  · rw [if_pos hafter]
    exact iff_of_false nofun fun h => hafter h.1

/-- **What is read from a descriptor with a name.** -/
theorem ofDescriptor_eq_ok_iff (hclose : CodePoint.char ')' ∉ inside) {m : Method} :
    ofDescriptor name ('(' :: (inside ++ CodePoint.char ')' :: after)) = .ok m ↔
      m.name = name ∧ FieldType.readMany inside = (m.arguments, []) ∧
        ReturnType.ofDescriptor after = .ok m.returns := by
  obtain ⟨name', arguments, returns⟩ := m
  rw [ofDescriptor, cut_inside hclose]
  dsimp only
  obtain ⟨ts, _ | ⟨c, rest⟩⟩ := FieldType.readMany inside
  · cases ReturnType.ofDescriptor after with
    | error e => simp [Except.map]
    | ok r => simp [Except.map, eq_comm]
  · split <;> simp_all

end Form

/-- The name of a declaration that can be read is the name of a method. -/
theorem isMethodName_of_ofDeclaration {declaration : Text} {m : Method}
    (h : ofDeclaration declaration = .ok m) : isMethodName m.name = true := by
  obtain ⟨name, inside, after, rfl, hopen, hclose⟩ := exists_form_of_ofDeclaration h
  obtain ⟨-, hname, ts, -, rfl⟩ := (ofDeclaration_form_eq_ok_iff hopen hclose).1 h
  exact hname

/-! ### Rows of type names -/

/-- The names of types with commas between them. -/
def row (ts : List FieldType) : Text := Text.join ", ".toText (ts.map FieldType.className)

/-- The spelling of a method in source text, which leaves the return type out. -/
def declaration (name : Text) (ts : List FieldType) : Text :=
  name ++ "(".toText ++ row ts ++ ")".toText

/-- Behind a comma there is a space before the next name. -/
theorem join_comma (name : Text) (names : List Text) :
    Text.join ", ".toText (name :: names) =
      Text.join [','] (name :: names.map (CodePoint.char ' ' :: ·)) := by
  induction names generalizing name with
  | nil => rfl
  | cons name' names ih =>
    rw [Text.join, ih name', List.map_cons]
    cases names with
    | nil => simp [Text.join, String.toText]
    | cons name'' names => simp [Text.join, String.toText]

/-- What stands in a row of type names. -/
theorem isMadeOf_row {ts : List FieldType} (h : ∀ t ∈ ts, t.IsNamed) :
    IsMadeOf ".[], ".toText (row ts) := by
  intro c hc
  rcases Text.of_mem_join hc with hc | ⟨name, hname, hc⟩
  · have hseparator : IsMadeOf ".[], ".toText ", ".toText := by decide
    exact hseparator c hc
  · obtain ⟨t, ht, rfl⟩ := List.mem_map.1 hname
    exact (FieldType.isMadeOf_className (h t ht)).mono (by decide) c hc

theorem row_cons (t u : FieldType) (ts : List FieldType) :
    row (t :: u :: ts) = t.className ++ ", ".toText ++ row (u :: ts) := rfl

theorem row_ne_nil {t : FieldType} (h : t.IsNamed) (ts : List FieldType) : row (t :: ts) ≠ [] := by
  cases ts with
  | nil => exact FieldType.className_ne_nil h
  | cons u ts => simp [row_cons, FieldType.className_ne_nil h]

/-- A row begins with the name of its first type. -/
theorem head?_row {t : FieldType} (h : t.IsNamed) (ts : List FieldType) :
    (row (t :: ts)).head? = t.className.head? := by
  cases ts with
  | nil => rfl
  | cons u ts =>
    rw [row_cons, List.append_assoc, List.head?_append_of_ne_nil _ (FieldType.className_ne_nil h)]

/-- A row ends with the name of its last type. -/
theorem isBlank_getLast_row {ts : List FieldType} (h : ∀ t ∈ ts, t.IsNamed) :
    ∀ c ∈ (row ts).getLast?, Text.isBlank c = false := by
  induction ts with
  | nil => nofun
  | cons t ts ih =>
    obtain ⟨ht, hts⟩ := List.forall_mem_cons.1 h
    cases ts with
    | nil => exact fun c hc => FieldType.isBlank_of_mem_className ht c (List.mem_of_getLast? hc)
    | cons u ts =>
      rw [row_cons, List.getLast?_append_of_ne_nil _ (row_ne_nil (hts u List.mem_cons_self) ts)]
      exact ih hts

theorem trim_row {ts : List FieldType} (h : ∀ t ∈ ts, t.IsNamed) : Text.trim (row ts) = row ts := by
  refine Text.trim_eq_self (fun c hc => ?_) (isBlank_getLast_row h)
  cases ts with
  | nil => cases hc
  | cons t ts =>
    have ht := h t List.mem_cons_self
    rw [head?_row ht] at hc
    exact FieldType.isBlank_of_mem_className ht c (List.mem_of_mem_head? hc)

theorem split_row {t : FieldType} {ts : List FieldType} (h : ∀ u ∈ t :: ts, u.IsNamed) :
    Text.split ',' (row (t :: ts)) =
      t.className :: ts.map fun u => CodePoint.char ' ' :: u.className := by
  have hcomma {u : FieldType} (hu : u.IsNamed) : CodePoint.char ',' ∉ u.className :=
    (FieldType.isMadeOf_className hu).notMem (by decide)
  obtain ⟨ht, hts⟩ := List.forall_mem_cons.1 h
  rw [row, List.map_cons, join_comma, List.map_map]
  refine Text.split_join (fun field hfield => ?_) (List.cons_ne_nil _ _)
  rcases List.mem_cons.1 hfield with rfl | hfield
  · exact hcomma ht
  · obtain ⟨u, hu, rfl⟩ := List.mem_map.1 hfield
    intro hmem
    rcases List.mem_cons.1 hmem with heq | hmem
    · cases heq
    · exact hcomma (hts u hu) hmem

/-- Fallible steps go through together if all of them go through. -/
theorem mapM_eq_ok_iff {α β ε : Type} {f : α → Except ε β} {xs : List α} {ys : List β} :
    xs.mapM f = .ok ys ↔ List.Forall₂ (fun x y => f x = .ok y) xs ys := by
  induction xs generalizing ys with
  | nil => cases ys <;> simp [pure, Except.pure]
  | cons x xs ih =>
    rw [List.mapM_cons]
    cases hx : f x with
    | error e => simp [hx, bind, Except.bind, List.forall₂_cons_left_iff]
    | ok y =>
      cases hxs : xs.mapM f with
      | error e =>
        have hnone : ∀ zs, ¬List.Forall₂ (fun x y => f x = .ok y) xs zs := fun zs hzs => by
          rw [ih.2 hzs] at hxs
          cases hxs
        simp [bind, Except.bind, List.forall₂_cons_left_iff, hnone]
      | ok zs =>
        simp [hx, bind, Except.bind, pure, Except.pure, List.forall₂_cons_left_iff, ← ih, hxs,
          eq_comm]

/-- **The types of a row are read back.** -/
theorem declaredArguments_row (text : Text) {ts : List FieldType} (h : ∀ t ∈ ts, t.IsNamed) :
    declaredArguments text (row ts) = .ok ts := by
  rw [declaredArguments, trim_row h]
  cases ts with
  | nil => rfl
  | cons t ts =>
    obtain ⟨ht, hts⟩ := List.forall_mem_cons.1 h
    rw [if_neg (row_ne_nil ht ts), split_row h]
    refine mapM_eq_ok_iff.2 (.cons ?_ ?_)
    · rw [FieldType.ofSourceName_className ht]
    · refine List.forall₂_map_left_iff.2 (List.forall₂_same.2 fun u hu => ?_)
      rw [FieldType.ofSourceName_cons (by decide), FieldType.ofSourceName_className (hts u hu)]

/-! ### Names of types that are descriptors -/

/-- A single argument whose name is made of letters of base types, so that it is a row of
descriptors, too. -/
def isLetterRow : List FieldType → Bool
  | [t] => t.className.all fun c => BaseType.letters.contains c
  | _ => false

theorem isLetterRow_singleton {t : FieldType} :
    isLetterRow [t] = true ↔ ∀ c ∈ t.className, c ∈ BaseType.letters := by
  simp [isLetterRow]

theorem isDescriptorRow_iff {arguments : Text} : isDescriptorRow arguments = true ↔
    (FieldType.readMany arguments).1 ≠ [] ∧ (FieldType.readMany arguments).2 = [] ∧
      CodePoint.char '(' ∉ arguments := by
  unfold isDescriptorRow
  obtain ⟨_ | ⟨t, ts⟩, _ | ⟨c, rest⟩⟩ := FieldType.readMany arguments <;> simp

/-- The name of a type has opening brackets only together with closing ones. -/
theorem letters_of_isDescriptorRow {t : FieldType} (ht : t.IsNamed)
    (h : isDescriptorRow t.className = true) : ∀ c ∈ t.className, c ∈ BaseType.letters := by
  have hsemicolon : CodePoint.char ';' ∉ t.className :=
    (FieldType.isMadeOf_className ht).notMem (by decide)
  have hmark : ∀ c ∈ t.className, c = '[' ∨ c ∈ BaseType.letters := fun c hc =>
    FieldType.of_mem_of_readMany (isDescriptorRow_iff.1 h).2.1 hsemicolon hc
  cases t with
  | base b =>
    have hkeyword : ¬∀ c ∈ b.keyword, c = '[' ∨ c ∈ BaseType.letters := by cases b <;> decide
    exact absurd hmark hkeyword
  | object name =>
    refine fun c hc => (hmark c hc).resolve_left ?_
    rintro rfl
    exact (isMadeOf_binaryName ht.1).notMem (by decide) hc
  | array t =>
    have hclose : CodePoint.char ']' ∈ (FieldType.array t).className := by
      simp [FieldType.className, String.toText]
    exact absurd (hmark _ hclose) (by decide)

/-- **The only names of types that are descriptors** are those that consist of letters of base
types: names of classes. -/
theorem isDescriptorRow_row {ts : List FieldType} (h : ∀ t ∈ ts, t.IsNamed) :
    isDescriptorRow (row ts) = isLetterRow ts := by
  rw [Bool.eq_iff_iff]
  match ts with
  | [] =>
    have hread : FieldType.readMany [] = ([], []) := FieldType.readMany_nil
    exact ⟨fun hrow => absurd (congrArg Prod.fst hread) (isDescriptorRow_iff.1 hrow).1, nofun⟩
  | [t] =>
    have ht : t.IsNamed := h t List.mem_cons_self
    rw [isLetterRow_singleton]
    refine ⟨letters_of_isDescriptorRow ht, fun hletters => ?_⟩
    obtain ⟨us, hus, hlength⟩ := FieldType.readMany_letters hletters
    have hpositive : 0 < us.length :=
      hlength ▸ List.length_pos_of_ne_nil (FieldType.className_ne_nil ht)
    have hread : FieldType.readMany (row [t]) = (us, []) := hus
    refine isDescriptorRow_iff.2 ⟨?_, congrArg Prod.snd hread, (isMadeOf_row h).notMem (by decide)⟩
    rw [hread]
    exact List.ne_nil_of_length_pos hpositive
  | t :: u :: ts =>
    refine ⟨fun hrow => ?_, nofun⟩
    have hcomma : CodePoint.char ',' ∈ row (t :: u :: ts) := by simp [row_cons, String.toText]
    have hmark := FieldType.of_mem_of_readMany (isDescriptorRow_iff.1 hrow).2.1
      ((isMadeOf_row h).notMem (by decide)) hcomma
    exact absurd hmark (by decide)

/-! ### Telling the forms apart -/

theorem declaration_eq (name : Text) (ts : List FieldType) :
    declaration name ts = form name (row ts) [] := (List.append_nil _).symm

theorem getLast?_declaration (name : Text) (ts : List FieldType) :
    (declaration name ts).getLast? = some (CodePoint.char ')') := by
  rw [declaration, List.getLast?_append]
  rfl

/-- A text with a name and parentheses is a descriptor if something stands after them. -/
theorem parse_eq {t name inside after : Text} (htrim : Text.trim t = form name inside after)
    (hopen : CodePoint.char '(' ∉ name) (hclose : CodePoint.char ')' ∉ inside) :
    parse t =
      if name = [] ∨ CodePoint.char ')' ∈ name then ofDeclaration (form name inside after)
      else if after ≠ [] then ofDescriptor name ('(' :: (inside ++ CodePoint.char ')' :: after))
      else if isDescriptorRow inside then .error (.returnTypeMissing (form name inside after))
      else ofDeclaration (form name inside after) := by
  rw [parse, htrim, cut_form hopen]
  dsimp only
  rw [cut_inside hclose]

section Form

variable {name inside after : Text} (hname : isMethodName name = true)

include hname

theorem parenthesis_notMem_name : CodePoint.char '(' ∉ name ∧ CodePoint.char ')' ∉ name :=
  ⟨(isMadeOf_of_isMethodName hname).notMem (by decide),
    (isMadeOf_of_isMethodName hname).notMem (by decide)⟩

theorem isBlank_head_form : ∀ c ∈ (form name inside after).head?, Text.isBlank c = false := by
  intro c hc
  rw [form_eq, List.head?_append_of_ne_nil _ (ne_nil_of_isMethodName hname)] at hc
  exact isBlank_of_mem_name hname c (List.mem_of_mem_head? hc)

theorem trim_form (h : ∀ c ∈ (form name inside after).getLast?, Text.isBlank c = false) :
    Text.trim (form name inside after) = form name inside after :=
  Text.trim_eq_self (isBlank_head_form hname) h

/-- After the name of a method, the text is a descriptor if something stands after the
parentheses. -/
theorem parse_form (hinside : CodePoint.char ')' ∉ inside)
    (htrim : Text.trim (form name inside after) = form name inside after) :
    parse (form name inside after) =
      if after ≠ [] then ofDescriptor name ('(' :: (inside ++ CodePoint.char ')' :: after))
      else if isDescriptorRow inside then .error (.returnTypeMissing (form name inside after))
      else ofDeclaration (form name inside after) := by
  obtain ⟨hopen, hclose⟩ := parenthesis_notMem_name hname
  rw [parse_eq htrim hopen hinside, if_neg (by simp [ne_nil_of_isMethodName hname, hclose])]

end Form

/-! ### Declarations -/

section Declaration

variable {name : Text} {ts : List FieldType} (hname : isMethodName name = true)

include hname

theorem trim_declaration : Text.trim (declaration name ts) = declaration name ts := by
  rw [declaration_eq]
  refine trim_form hname fun c hc => ?_
  rw [← declaration_eq, getLast?_declaration] at hc
  obtain rfl := Option.some.inj hc
  decide

variable (hts : ∀ t ∈ ts, t.IsNamed)

include hts

/-- What stands in a declaration. -/
theorem isMadeOf_declaration : IsMadeOf "<>.[], ()".toText (declaration name ts) := by
  have hleft : IsMadeOf "<>.[], ()".toText name :=
    (isMadeOf_of_isMethodName hname).mono (by decide)
  have hopen : IsMadeOf "<>.[], ()".toText "(".toText := by decide
  have hinside : IsMadeOf "<>.[], ()".toText (row ts) := (isMadeOf_row hts).mono (by decide)
  have hclose : IsMadeOf "<>.[], ()".toText ")".toText := by decide
  exact ((hleft.append hopen).append hinside).append hclose

/-- **A declaration is read back.** -/
theorem ofDeclaration_declaration :
    ofDeclaration (declaration name ts) = .ok ⟨name, ts, .void⟩ := by
  have hblank : Text.trim name = name := Text.trim_of_forall (isBlank_of_mem_name hname)
  rw [declaration_eq, ofDeclaration_form_eq_ok_iff (parenthesis_notMem_name hname).1
    ((isMadeOf_row hts).notMem (by decide)), hblank]
  exact ⟨rfl, hname, ts, declaredArguments_row _ hts, rfl⟩

/-- **A declaration is told from a descriptor**, except for a single argument whose name is made of
letters of base types. -/
theorem parse_declaration : parse (declaration name ts) =
    if isLetterRow ts then .error (.returnTypeMissing (declaration name ts))
    else .ok ⟨name, ts, .void⟩ := by
  have htrim : Text.trim (form name (row ts) []) = form name (row ts) [] :=
    declaration_eq name ts ▸ trim_declaration hname
  rw [← ofDeclaration_declaration hname hts, declaration_eq,
    parse_form hname ((isMadeOf_row hts).notMem (by decide)) htrim, if_neg (by simp),
    isDescriptorRow_row hts]

end Declaration

/-! ### Descriptors -/

section Descriptor

variable {d : Text} {returns : ReturnType} (hd : ReturnType.ofDescriptor d = .ok returns)

include hd

/-- What ends with a descriptor ends neither with white space nor with a parenthesis. -/
theorem getLast?_form {name inside : Text} : ∀ c ∈ (form name inside d).getLast?,
    Text.isBlank c = false ∧ c ≠ ')' := by
  obtain ⟨rfl, -⟩ := ReturnType.ofDescriptor_eq_ok_iff.1 hd
  obtain ⟨front, c, hfront, hc⟩ := returns.descriptor_eq_append
  intro c' hc'
  rw [form, hfront, ← List.append_assoc, List.getLast?_concat] at hc'
  obtain rfl := Option.some.inj hc'
  rcases hc with hid | rfl
  · refine ⟨isBlank_of_isIdentifierChar hid, ?_⟩
    rintro rfl
    revert hid
    decide
  · decide

variable {name : Text} {ts : List FieldType} (hname : isMethodName name = true)
  (hts : ∀ t ∈ ts, t.IsNamed)

include hname

theorem trim_descriptor {inside : Text} : Text.trim (form name inside d) = form name inside d :=
  trim_form hname fun c hc => (getLast?_form hd c hc).1

include hts

/-- **The form with a return type is read back.** -/
theorem parse_descriptor :
    parse (form name (ts.flatMap FieldType.descriptor) d) = .ok ⟨name, ts, returns⟩ := by
  have hclose : CodePoint.char ')' ∉ ts.flatMap FieldType.descriptor :=
    (FieldType.notMem_descriptors_iff (by decide)).2 fun t ht =>
      (hts t ht).nameSatisfies.mono fun _ hname => hname.2.notMem (by decide)
  have hne : d ≠ [] := by
    obtain ⟨rfl, -⟩ := ReturnType.ofDescriptor_eq_ok_iff.1 hd
    exact returns.descriptor_ne_nil
  rw [parse_form hname hclose (trim_descriptor hd hname), if_pos hne,
    ofDescriptor_eq_ok_iff hclose]
  exact ⟨rfl, FieldType.readMany_descriptors fun t ht => (hts t ht).nameSatisfies_isInternalName,
    hd⟩

end Descriptor
end Method
end Embargo.Jvm
