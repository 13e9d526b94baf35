import Embargo.Proofs.MethodForms
import Embargo.Proofs.MethodIndex
import Mathlib

/-!
# Questions about methods

A scanner asks about a method by a text in either form. The text is read twice: the reader of
methods tells the form by what stands behind the first closing parenthesis, and the index by the
last character.

| the text, without white space around it | the form | the table that is asked |
|---|---|---|
| goes on behind the first closing parenthesis | of class files | reports by full signature |
| ends with the first closing parenthesis | of source text | reports without return types |

Both tests agree on every text that is read as a method. In the form of class files the last
character is that of a descriptor, and so no parenthesis, whatever stands in the names of classes;
in the form of source text the first closing parenthesis is the last character.

* `Method.IsFollowed` – the test of the reader.
* `Index.checkMethodText_of_descriptorForm`, `Index.checkMethodText_of_sourceForm` – which table
  is asked.
* `Run.method_questions` – the main statement, with what the two tables have to do with each other.
-/

namespace Embargo

open Jvm

/-! ### Telling the forms apart -/

namespace Jvm.Method

/-- **Something follows the first closing parenthesis.** -/
def IsFollowed (s : Text) : Prop :=
  ∃ before after, s = before ++ CodePoint.char ')' :: after ∧ CodePoint.char ')' ∉ before ∧
    after ≠ []

/-- What follows the first closing parenthesis is what stands behind the arguments. -/
theorem isFollowed_form {name inside after : Text} (hname : CodePoint.char ')' ∉ name)
    (hinside : CodePoint.char ')' ∉ inside) : IsFollowed (form name inside after) ↔ after ≠ [] := by
  have hfront : CodePoint.char ')' ∉ name ++ CodePoint.char '(' :: inside := by
    simp [hname, hinside]
  have hform : form name inside after =
      (name ++ CodePoint.char '(' :: inside) ++ CodePoint.char ')' :: after := by
    simp [form_eq]
  constructor
  · rintro ⟨before, after', hs, hbefore, hafter⟩
    -- The text has one first closing parenthesis only.
    have hcut := Text.cut_eq_some_iff.2 ⟨hs, hbefore⟩
    rw [Text.cut_eq_some_iff.2 ⟨hform, hfront⟩] at hcut
    obtain ⟨-, rfl⟩ := Prod.mk.inj (Option.some.inj hcut)
    exact hafter
  · exact fun hafter => ⟨_, after, hform, hfront, hafter⟩

section Forms

variable {m : Method} {s : Text}

theorem HasDescriptorForm.isFollowed (h : m.HasDescriptorForm s) : IsFollowed s := by
  rw [h.text_eq, isFollowed_form h.parenthesis_notMem.2 h.close_notMem]
  exact m.returns.descriptor_ne_nil

theorem HasSourceForm.not_isFollowed (h : m.HasSourceForm s) : ¬IsFollowed s := by
  obtain ⟨before, inside, rfl, hdeclared⟩ := h
  have hbefore : CodePoint.char ')' ∉ before :=
    notMem_of_trim hdeclared.isMethodName (by decide)
  exact fun hfollowed => (isFollowed_form hbefore hdeclared.close_notMem).1 hfollowed rfl

/-- The form of class files ends with a descriptor. -/
theorem HasDescriptorForm.getLast?_ne (h : m.HasDescriptorForm s) :
    s.getLast? ≠ some (CodePoint.char ')') := by
  have hreturns : ReturnType.ofDescriptor m.returns.descriptor = .ok m.returns :=
    ReturnType.ofDescriptor_eq_ok_iff.2 ⟨rfl, h.returns⟩
  intro hlast
  rw [h.text_eq] at hlast
  exact (getLast?_form hreturns _ hlast).2 rfl

/-- The form of source text ends with the parenthesis behind the arguments. -/
theorem HasSourceForm.getLast?_eq (h : m.HasSourceForm s) :
    s.getLast? = some (CodePoint.char ')') := by
  obtain ⟨before, inside, rfl, -⟩ := h
  rw [form, List.append_nil, List.getLast?_append]
  rfl

end Forms

/-- **The reader tells the forms by what follows the first closing parenthesis.** -/
theorem form_of_parse {t : Text} {m : Method} (h : parse t = .ok m) :
    (IsFollowed (Text.trim t) → m.HasDescriptorForm (Text.trim t)) ∧
      (¬IsFollowed (Text.trim t) → m.HasSourceForm (Text.trim t)) := by
  rcases hasForm_of_parse h with hdescriptor | hsource
  · exact ⟨fun _ => hdescriptor, fun hnot => absurd hdescriptor.isFollowed hnot⟩
  · exact ⟨fun hfollowed => absurd hfollowed hsource.not_isFollowed, fun _ => hsource⟩

end Jvm.Method

/-! ### Which table is asked -/

namespace Index

variable (index : Index) (c : Text) {t : Text} {m : Method}

/-- A text that is no method is reported by the reader of methods. -/
theorem checkMethodText_eq_error_iff {e : SyntaxError} :
    index.checkMethodText c t = .error e ↔ Method.parse t = .error e := by
  rw [checkMethodText]
  cases Method.parse t with
  | error e' => simp [Except.map]
  | ok m => exact iff_of_false nofun nofun

/-- The form of class files asks for the full signature. -/
theorem checkMethodText_of_descriptorForm (h : m.HasDescriptorForm (Text.trim t)) :
    index.checkMethodText c t = .ok (index.checkMethod c m) := by
  rw [checkMethodText, h.parse]
  exact congrArg Except.ok (if_neg h.getLast?_ne)

/-- The form of source text asks for the name and the arguments. -/
theorem checkMethodText_of_sourceForm (h : m.HasSourceForm (Text.trim t)) :
    index.checkMethodText c t = .ok (index.checkUse c m) := by
  rw [checkMethodText, h.parse]
  exact congrArg Except.ok (if_pos h.getLast?_eq)

namespace Paired

variable {index}

/-- **A report without return type is that of some method with one**, and there is such a report if
there is such a method. -/
theorem checkUse_iff (hi : index.Paired) :
    (∀ {report}, index.checkUse c m = some report →
      ∃ r, index.checkMethod c { m with returns := r } = some report) ∧
    ∀ {r}, index.checkMethod c { m with returns := r } ≠ none → index.checkUse c m ≠ none := by
  constructor
  · intro report hreport
    obtain ⟨m', hm', hkey⟩ := hi.key_of_use hreport
    obtain ⟨hname, harguments⟩ : m'.name = m.name ∧ m'.arguments = m.arguments := by
      simpa [MethodUse.of] using hm'
    refine ⟨m'.returns, ?_⟩
    rw [← hname, ← harguments]
    exact hkey
  · intro r hr
    obtain ⟨report, hreport⟩ := Option.ne_none_iff_exists'.1 hr
    obtain ⟨report', huse⟩ := hi.use_of_key hreport
    exact Option.ne_none_iff_exists'.2 ⟨report', huse⟩

end Paired
end Index

/-! ### The result -/

namespace Run

/-- **Questions about methods are answered in the form that the reader reads.** After every run:

* a text is refused exactly if it cannot be read as a method, with the report of the reader;
* if something follows its first closing parenthesis, it is read in the form of class files, and the
  answer is that for the full signature, whatever stands in the table without return types;
* otherwise it is read in the form of source text, and the answer does not depend on the table of
  full signatures, `void` or not. It is the report of a method with this name and these arguments
  and some return type, and there is one exactly if there is such a method. -/
theorem method_questions (steps : List Step) (c t : Text) :
    let index := (ofSteps steps).registry.index
    (∀ e, index.checkMethodText c t = .error e ↔ Method.parse t = .error e) ∧
    (∀ e, index.checkMethodText c t = .error e → ∃ f, e.problem = .failure f ∧ f.kind = .parse) ∧
    (∀ m, Method.parse t = .ok m → Method.IsFollowed (Text.trim t) →
      m.HasDescriptorForm (Text.trim t) ∧
      index.checkMethodText c t = .ok (index.checkMethod c m) ∧
      ∀ uses, { index with uses := uses }.checkMethodText c t = index.checkMethodText c t) ∧
    ∀ m, Method.parse t = .ok m → ¬Method.IsFollowed (Text.trim t) →
      m.HasSourceForm (Text.trim t) ∧
      (∃ answer, index.checkMethodText c t = .ok answer ∧
        (answer ≠ none ↔ ∃ r, index.checkMethod c { m with returns := r } ≠ none) ∧
        ∀ report, answer = some report →
          ∃ r, index.checkMethod c { m with returns := r } = some report) ∧
      ∀ reports, { index with reports := reports }.checkMethodText c t =
        index.checkMethodText c t := by
  intro index
  refine ⟨fun e => index.checkMethodText_eq_error_iff c, fun e _ => ⟨_, rfl, rfl⟩,
    fun m hparse hfollowed => ?_, fun m hparse hends => ?_⟩
  · have hform := (Method.form_of_parse hparse).1 hfollowed
    refine ⟨hform, index.checkMethodText_of_descriptorForm c hform, fun uses => ?_⟩
    rw [Index.checkMethodText_of_descriptorForm _ c hform,
      Index.checkMethodText_of_descriptorForm _ c hform]
    rfl
  · have hform := (Method.form_of_parse hparse).2 hends
    obtain ⟨hreport, hhit⟩ := (paired_ofSteps steps).checkUse_iff c (m := m)
    refine ⟨hform, ⟨_, index.checkMethodText_of_sourceForm c hform, ?_, fun report => hreport⟩,
      fun reports => ?_⟩
    · constructor
      · intro hanswer
        obtain ⟨report, huse⟩ := Option.ne_none_iff_exists'.1 hanswer
        obtain ⟨r, hkey⟩ := hreport huse
        exact ⟨r, Option.ne_none_iff_exists'.2 ⟨report, hkey⟩⟩
      · exact fun ⟨r, hr⟩ => hhit hr
    · rw [Index.checkMethodText_of_sourceForm _ c hform,
        Index.checkMethodText_of_sourceForm _ c hform]
      rfl

/-- A class with a method that returns a number is declared, and the method forbidden. -/
def lengthSteps : List Step :=
  [.provide (.register (.make "a.Text".toText [⟨"length".toText, [], .value (.base .int)⟩]
      [] [] none [])),
    .populate ⟨{}, .mapping .empty, ⟨⟨[]⟩, []⟩⟩ (.text "a.Text#length()".toText)]

/-- There is a report for the return type that the method has, and none for `void`. -/
theorem checkMethod_lengthSteps :
    let check returns := (ofSteps lengthSteps).registry.index.checkMethod "a/Text".toText
      ⟨"length".toText, [], returns⟩
    check .void = none ∧ check (.value (.base .int)) = some "a.Text#length()".toText := by
  constructor <;> cbv

/-- The method is found by source text, though none with this name returns `void`, and by its own
descriptor, though not by another one. -/
theorem method_questions_length :
    let index := (ofSteps lengthSteps).registry.index
    let c := "a/Text".toText
    let m : Method := ⟨"length".toText, [], .void⟩
    (Method.parse " length ( ) ".toText = .ok m ∧
      ¬Method.IsFollowed (Text.trim " length ( ) ".toText) ∧
      index.checkMethod c m = none ∧
      (∃ r, index.checkMethod c { m with returns := r } ≠ none) ∧
      ∃ report, index.checkMethodText c " length ( ) ".toText = .ok (some report)) ∧
    (Method.parse "length()V".toText = .ok m ∧ Method.IsFollowed (Text.trim "length()V".toText) ∧
      index.checkUse c m ≠ none ∧ index.checkMethodText c "length()V".toText = .ok none) := by
  intro index c m
  have hsource : Method.parse " length ( ) ".toText = .ok m := by decide +kernel
  have hends : ¬Method.IsFollowed (Text.trim " length ( ) ".toText) := by
    rw [show Text.trim _ = Method.form "length ".toText " ".toText [] by decide,
      Method.isFollowed_form (by decide) (by decide)]
    exact not_not.2 rfl
  obtain ⟨hvoid, hreport⟩ := checkMethod_lengthSteps
  have hint : index.checkMethod c { m with returns := .value (.base .int) } ≠ none :=
    Option.ne_none_iff_exists'.2 ⟨_, hreport⟩
  have hclass : Method.parse "length()V".toText = .ok m := by decide +kernel
  have hfollowed : Method.IsFollowed (Text.trim "length()V".toText) := by
    rw [show Text.trim _ = Method.form "length".toText [] "V".toText by decide,
      Method.isFollowed_form (by decide) (by decide)]
    decide
  obtain ⟨-, -, -, hopen⟩ := method_questions lengthSteps c " length ( ) ".toText
  obtain ⟨-, ⟨answer, hanswer, hiff, -⟩, -⟩ := hopen m hsource hends
  obtain ⟨-, -, hexact, -⟩ := method_questions lengthSteps c "length()V".toText
  obtain ⟨-, hnone, -⟩ := hexact m hclass hfollowed
  obtain ⟨report, rfl⟩ := Option.ne_none_iff_exists'.1 (hiff.2 ⟨_, hint⟩)
  exact ⟨⟨hsource, hends, hvoid, ⟨_, hint⟩, report, hanswer⟩, hclass, hfollowed,
    (paired_ofSteps lengthSteps).checkUse_iff c |>.2 hint, hnone.trans (congrArg _ hvoid)⟩

end Run
end Embargo
