import Embargo.Proofs.Answers
import Embargo.Proofs.Comparison
import Embargo.Proofs.Declaration

/-!
# Methods that are forbidden by source text

A signature file names a method by its declaration, `java.lang.Text#at(int)`, and a scanner asks for
it by its descriptor, `at(I)C`. Between the line and the answer stand four readers and two indexes;
here they are put together.

| step | statement |
|---|---|
| the line is read | `parse_methodLine` |
| the text goes through | `Session.addText_of_record` |
| the record is in both indexes | `get?_reports_methodRecord`, `get?_uses_methodRecord` |
| the question is read | `Index.checkMethodText_descriptor`, `Index.checkMethodText_declaration` |

The main statement is `Session.spellings_meet`: the report is found **under every return type** that
the class has the method with, and under its declaration – unless that looks like a descriptor.
-/

namespace Embargo

open Jvm

/-! ### Records of methods -/

theorem cutMessage_eq_none {line : Text} (h : CodePoint.char '@' ∉ line)
    (previous : Option CodePoint) : cutMessage previous line = none := by
  refine cutMessage_eq_none_iff.2 fun before after hline => absurd ?_ h
  rw [hline]
  exact List.mem_append_right before List.mem_cons_self

/-- A line without the mark of messages and directives is a record with the default message. -/
theorem Line.parse_of_notMem {line : Text} (h : CodePoint.char '@' ∉ line)
    (hne : Text.trim line ≠ []) (default : Option Text) : Line.parse line default =
      (Record.ofSignature (Text.trim line) (effectiveMessage none default)).map .record := by
  unfold Line.parse
  split
  · exact absurd List.mem_cons_self h
  · rw [Record.parse, splitMessage, cutMessage_eq_none h]
    dsimp only
    rw [if_neg hne]

/-- A name that stands in a record as it is, for the class with this name. -/
structure IsPlainClass (name : Text) : Prop where
  /-- The name is not empty. -/
  ne_nil : name ≠ []
  /-- No white space stands around it. -/
  trim_eq : Text.trim name = name
  /-- It has no line feed, and no character that means something else in a record. -/
  notMem : ∀ c ∈ "\n#@*?".toText, c ∉ name

theorem IsPlainClass.isGlob {name : Text} (h : IsPlainClass name) : Glob.isGlob name = false := by
  have hstar := h.notMem '*' (by decide)
  have hquestion := h.notMem '?' (by decide)
  simp [Glob.isGlob, hstar, hquestion]

/-- The line that forbids the methods of a class with a name and argument types. -/
def methodLine (className name : Text) (ts : List FieldType) : Text :=
  className ++ "#".toText ++ Method.declaration name ts

/-- The record of such a line. -/
def methodRecord (className name : Text) (ts : List FieldType) (message : Option Text) : Record :=
  ⟨methodLine className name ts, className, .method ⟨name, ts, .void⟩, message⟩

theorem methodLine_eq (className name : Text) (ts : List FieldType) :
    methodLine className name ts =
      className ++ CodePoint.char '#' :: Method.declaration name ts := by
  simp [methodLine, String.toText]

section Ends

variable {className name : Text} {ts : List FieldType} (hc : IsPlainClass className)

include hc

theorem head?_methodLine : (methodLine className name ts).head? = className.head? := by
  rw [methodLine_eq, List.head?_append_of_ne_nil _ hc.ne_nil]

theorem trim_methodLine :
    Text.trim (methodLine className name ts) = methodLine className name ts := by
  refine Text.trim_eq_self (fun c hhead => ?_) (fun c hlast => ?_)
  · rw [head?_methodLine hc] at hhead
    exact Text.isBlank_head hc.trim_eq c hhead
  · rw [methodLine, List.getLast?_append, Method.getLast?_declaration] at hlast
    obtain rfl := Option.some.inj hlast
    decide

theorem isContent_methodLine : isContent (methodLine className name ts) = true := by
  have hmark : className.head? ≠ some (CodePoint.char '#') := fun hhead =>
    hc.notMem '#' (by decide) (List.mem_of_mem_head? hhead)
  have hne : methodLine className name ts ≠ [] := by simp [methodLine_eq]
  rw [isContent, head?_methodLine hc]
  simp [hmark, hne]

theorem isPattern_methodRecord (message : Option Text) :
    (methodRecord className name ts message).isPattern = false :=
  hc.isGlob

/-- The record is about the method, whatever it returns. -/
theorem concerns_methodRecord (returns : ReturnType) (message : Option Text) :
    (methodRecord className name ts message).concerns
      (.method (Text.internalName className) ⟨name, ts, returns⟩) = true := by
  have hmatches : Method.Matches ⟨name, ts, returns⟩ ⟨name, ts, .void⟩ := ⟨rfl, rfl⟩
  unfold Record.concerns
  rw [isPattern_methodRecord hc]
  simp [methodRecord, hmatches]

end Ends

section Characters

variable {className name : Text} {ts : List FieldType}
  (hname : Method.isMethodName name = true) (hts : ∀ t ∈ ts, t.IsNamed)

include hname hts

theorem notMem_methodLine {c : CodePoint} (hclass : c ∉ className)
    (hc : isIdentifierChar c = false ∧ c ∉ "<>.[], ()".toText) (hmark : c ≠ '#') :
    c ∉ methodLine className name ts := by
  rw [methodLine_eq, List.mem_append, List.mem_cons]
  rintro (hmem | hmem | hmem)
  · exact hclass hmem
  · exact hmark hmem
  · exact (Method.isMadeOf_declaration hname hts).notMem hc hmem

variable (hc : IsPlainClass className)

include hc

/-- **The line is read as the record that it was written for.** -/
theorem parse_methodLine (message : Option Text) :
    Line.parse (methodLine className name ts) message =
      .ok (.record (methodRecord className name ts (effectiveMessage none message))) := by
  have hat : CodePoint.char '@' ∉ methodLine className name ts :=
    notMem_methodLine hname hts (hc.notMem '@' (by decide)) (by decide) (by decide)
  have hcut : Text.cut '#' (methodLine className name ts) =
      some (className, Method.declaration name ts) :=
    Text.cut_eq_some_iff.2 ⟨methodLine_eq className name ts, hc.notMem '#' (by decide)⟩
  have hmember : Member.parse (methodLine className name ts) (Method.declaration name ts) =
      .ok (.method ⟨name, ts, .void⟩) := by
    have hopen : Text.cut '(' (Method.declaration name ts) =
        some (name, Method.row ts ++ CodePoint.char ')' :: []) :=
      Method.declaration_eq name ts ▸ Method.cut_form (Method.parenthesis_notMem_name hname).1
    rw [Member.parse, hopen, Method.ofDeclaration_declaration hname hts]
    obtain ⟨d, rest, rfl⟩ := List.exists_cons_of_ne_nil (Method.ne_nil_of_isMethodName hname)
    rfl
  have hne : methodLine className name ts ≠ [] := by simp [methodLine_eq]
  rw [Line.parse_of_notMem hat (by rwa [trim_methodLine hc]), trim_methodLine hc,
    Record.ofSignature, hcut]
  dsimp only
  rw [Method.trim_declaration hname, hmember]
  dsimp only [bind, Except.bind]
  rw [hc.trim_eq, if_neg hc.ne_nil, hc.isGlob]
  rfl

end Characters

/-! ### Reading a record -/

section Reading

variable {r : Record} {p : Progress}

/-- A record that resolves stops no reader. -/
theorem readRecord_of_isResolvedIn (policy : Policy) (hp : r.isPattern = false)
    (hr : r.isResolvedIn p.classes = true) :
    readRecord policy r p = (.ok (), (readRecord policy r p).2) := by
  obtain ⟨info, keys, hv, hkeys⟩ := Record.isResolvedIn_iff.1 hr
  refine Prod.ext ?_ rfl
  unfold readRecord Record.resolve
  dsimp only [Progress.classes_note]
  rw [if_neg (by simp [hp]), show (p.classes.lookUp r.className).found = some info from hv]
  dsimp only
  rw [hkeys]

/-- A text of one line that is a record which resolves goes through, and forbids what the record
does. -/
theorem Session.addText_of_record (s : Session) {line : Text} {registry : Registry}
    (hline : CodePoint.char '\n' ∉ line) (hc : isContent (Text.trim line) = true)
    (hl : Line.parse (Text.trim line) none = .ok (.record r)) (hp : r.isPattern = false)
    (hr : r.isResolvedIn registry.classes = true) :
    (s.addText line registry).failure = none ∧
      (s.addText line registry).registry.index = registry.index.accept registry.classes r := by
  have hlines : (Feed.ofText line).lines = [line] := Text.split_of_notMem hline
  have hread := readRecord_of_isResolvedIn s.config.firstScope.policy
    (p := registry.start.note [.readingInline]) hp hr
  have hall : readLines .user (fun _ p => (.ok (), p)) (Feed.ofText line).lines s.config.firstScope
      (registry.start.note [.readingInline]) = (.ok s.config.firstScope,
        (readRecord s.config.firstScope.policy r (registry.start.note [.readingInline])).2) := by
    rw [hlines, readLines_cons, readLine_eq_of_record hc hl, hread]
    rfl
  constructor
  · refine Config.failure_outcomeOf_eq_none.2 ?_
    rw [readFeed_result, hall]
    rfl
  · rw [Session.addText, Session.addFeed, Config.registry_outcomeOf, readFeed_progress, hall,
      readRecord_index]
    rfl

end Reading

/-! ### Answers to either spelling -/

namespace Index

section Questions

variable (index : Index) (c : Text) {name : Text} {ts : List FieldType}
  (hname : Method.isMethodName name = true) (hts : ∀ t ∈ ts, t.IsNamed)

include hname hts

/-- A declaration asks for a method without its return type. -/
theorem checkMethodText_declaration : index.checkMethodText c (Method.declaration name ts) =
    if Method.isLetterRow ts then .error (.returnTypeMissing (Method.declaration name ts))
    else .ok (index.uses.get? ⟨c, name, ts⟩) := by
  rw [checkMethodText, Method.parse_declaration hname hts, Method.trim_declaration hname,
    Method.getLast?_declaration]
  cases Method.isLetterRow ts <;> rfl

/-- A descriptor asks for a method with its return type. -/
theorem checkMethodText_descriptor {d : Text} {returns : ReturnType}
    (hd : ReturnType.ofDescriptor d = .ok returns) :
    index.checkMethodText c (Method.form name (ts.flatMap FieldType.descriptor) d) =
      .ok (index.reports.get? (.method c ⟨name, ts, returns⟩)) := by
  have hlast : (Method.form name (ts.flatMap FieldType.descriptor) d).getLast? ≠
      some (CodePoint.char ')') := by
    intro h
    exact absurd (Method.getLast?_form hd _ h) (by decide)
  rw [checkMethodText, Method.parse_descriptor hd hname hts, Method.trim_descriptor hd hname]
  exact congrArg Except.ok (if_neg hlast)

end Questions
end Index

/-! ### The record in the index -/

section Accepted

variable {u : Universe} (hu : u.Coherent) {className name : Text} {ts : List FieldType}
  (hc : IsPlainClass className) {info : ClassInfo} (hv : u.view className = some info)

variable (hm : ∃ m ∈ info.methods, m.Matches ⟨name, ts, .void⟩)

include hv hm

/-- The record resolves if the class has such a method. -/
theorem isResolvedIn_methodRecord (message : Option Text) :
    (methodRecord className name ts message).isResolvedIn u = true := by
  obtain ⟨m, hmem, hmatch⟩ := hm
  have hfound : m ∈ info.findMethods ⟨name, ts, .void⟩ :=
    ClassInfo.mem_findMethods.2 ⟨hmem, hmatch⟩
  refine Record.isResolvedIn_iff.2
    ⟨info, (info.findMethods ⟨name, ts, .void⟩).map (.method info.name), hv, ?_⟩
  rw [methodRecord, ClassInfo.keysOf]
  split
  · next hnil =>
    rw [hnil] at hfound
    cases hfound
  · next m' ms hms => rw [hms]

theorem isAcceptedIn_methodRecord (message : Option Text) :
    (methodRecord className name ts message).isAcceptedIn u = true := by
  rw [Record.isAcceptedIn, isResolvedIn_methodRecord hv hm, Bool.or_true]

include hu hc

/-- The record forbids each method of the class with this name and these arguments, whatever it
returns. -/
theorem get?_reports_methodRecord (index : Index) {returns : ReturnType} (message : Option Text)
    (hmem : ⟨name, ts, returns⟩ ∈ info.methods) :
    (index.accept u (methodRecord className name ts message)).reports.get?
        (.method (Text.internalName className) ⟨name, ts, returns⟩) =
      some (methodRecord className name ts message).printout := by
  have hoffers : u.offers (.method (Text.internalName className) ⟨name, ts, returns⟩) = true := by
    rw [Universe.offers, Universe.view_internalName, hv]
    exact List.contains_iff_mem.2 hmem
  rw [Index.get?_reports_accept hu, isAcceptedIn_methodRecord hv hm, concerns_methodRecord hc,
    hoffers]
  rfl

theorem get?_uses_methodRecord (index : Index) (message : Option Text) :
    (index.accept u (methodRecord className name ts message)).uses.get?
        ⟨Text.internalName className, name, ts⟩ =
      some (methodRecord className name ts message).printout := by
  rw [Index.get?_uses_accept hu _ _ _ .void, isAcceptedIn_methodRecord hv hm,
    concerns_methodRecord hc]
  rfl

end Accepted

/-- **A method that is forbidden by source text is found under its descriptor.** Whatever was read
and declared before, the line for a method that a class has goes through; afterwards its report is
the answer for every return type that the class has the method with, and for the declaration itself,
unless that is refused as a descriptor without a return type. -/
theorem Session.spellings_meet (steps : List Step) (s : Session) (className name : Text)
    (ts : List FieldType) (info : ClassInfo) (hc : IsPlainClass className)
    (hname : ∃ text m, Method.ofDeclaration text = .ok m ∧ m.name = name)
    (hts : ∀ t ∈ ts, ∃ source, ReturnType.ofSourceName source = .ok (.value t))
    (hv : (Run.ofSteps steps).registry.classes.view className = some info)
    (hm : ∃ m ∈ info.methods, m.Matches ⟨name, ts, .void⟩) :
    let arguments := Text.join ", ".toText (ts.map FieldType.className)
    let declaration := name ++ "(".toText ++ arguments ++ ")".toText
    let line := className ++ "#".toText ++ declaration
    let after := s.perform (Run.ofSteps steps).registry (.text line)
    let c := Text.internalName className
    after.failure = none ∧ ∃ r, Line.parse line none = .ok (.record r) ∧ r.printout = line ∧
      (∀ d returns, ReturnType.ofDescriptor d = .ok returns → ⟨name, ts, returns⟩ ∈ info.methods →
        after.registry.index.checkMethodText c
          (name ++ "(".toText ++ ts.flatMap FieldType.descriptor ++ ")".toText ++ d) =
            .ok (some r.printout)) ∧
      after.registry.index.checkMethodText c declaration =
        if Method.isLetterRow ts then .error (.returnTypeMissing declaration)
        else .ok (some r.printout) := by
  obtain ⟨text, m, htext, rfl⟩ := hname
  have hname := Method.isMethodName_of_ofDeclaration htext
  have hnamed : ∀ t ∈ ts, t.IsNamed := fun t ht =>
    have ⟨_, hsource⟩ := hts t ht
    FieldType.isNamed_of_ofSourceName hsource
  intro arguments declaration line after c
  have hu := Run.coherent_ofSteps steps
  have hparse := parse_methodLine hname hnamed hc none
  have hnewline : CodePoint.char '\n' ∉ line := notMem_methodLine hname hnamed
    (hc.notMem '\n' (by decide)) (by decide) (by decide)
  have htrim : Text.trim line = line := trim_methodLine hc
  obtain ⟨hfailure, hindex⟩ := s.addText_of_record hnewline
    (htrim.symm ▸ isContent_methodLine hc) (htrim.symm ▸ hparse) (isPattern_methodRecord hc none)
    (isResolvedIn_methodRecord hv hm none)
  refine ⟨hfailure, _, hparse, rfl, fun d returns hd hmem => ?_, ?_⟩
  · refine (Index.checkMethodText_descriptor _ c hname hnamed hd).trans ?_
    exact congrArg _ (hindex ▸ get?_reports_methodRecord hu hc hv hm _ none hmem)
  · refine (Index.checkMethodText_declaration _ c hname hnamed).trans ?_
    rw [show after.registry.index = _ from hindex, get?_uses_methodRecord hu hc hv hm]
    rfl

/-- A class whose subclass declares the same method with another return type. -/
def sequenceClass : ClassInfo := .make "j.Sequence".toText
  [⟨"at".toText, [.base .int, .array (.object "j/Text".toText)],
    .value (.object "j/Object".toText)⟩] [] [] none []

/-- The subclass. It has a method with an argument of a class `I`, too. -/
def textClass : ClassInfo := .make "j.Text".toText
  [⟨"at".toText, [.base .int, .array (.object "j/Text".toText)], .value (.base .char)⟩,
    ⟨"of".toText, [.object "I".toText], .void⟩] [] [] (some "j.Sequence".toText) []

/-- The two classes are declared. -/
def sequenceSteps : List Step :=
  [.provide (.register sequenceClass), .provide (.register textClass)]

/-- A session without catalogs. -/
def sequenceSession : Session where
  config := {}
  store := .mapping .empty
  disk := ⟨⟨[]⟩, []⟩

theorem lineage_sequenceSteps :
    (Run.ofSteps sequenceSteps).registry.classes.lineage "j/Text".toText =
      ["j/Text".toText, "j/Sequence".toText] := by
  rw [Universe.lineage, Universe.visit_of_get? (c := textClass) (by decide) (by decide +kernel),
    show textClass.supertypes ++ [] = ["j/Sequence".toText] by decide,
    Universe.visit_of_get? (c := sequenceClass) (by decide) (by decide +kernel),
    show sequenceClass.supertypes ++ [] = [] by decide, Universe.visit]
  rfl

/-- The subclass has the method with both return types. -/
theorem view_sequenceSteps :
    ((Run.ofSteps sequenceSteps).registry.classes.view "j.Text".toText).map ClassInfo.methods =
      some (textClass.methods ++ sequenceClass.methods) := by
  rw [(Run.coherent_ofSteps sequenceSteps).view_eq, Universe.closure?, Universe.ancestry,
    show Text.internalName "j.Text".toText = "j/Text".toText by decide, lineage_sequenceSteps]
  decide +kernel

/-- A method that is there with two return types, one of them inherited, and a method whose argument
is of a class `I`. -/
theorem Session.spellings_meet_inherited :
    let indexAfter (line : Text) :=
      (sequenceSession.perform (Run.ofSteps sequenceSteps).registry (.text line)).registry.index
    let c := "j/Text".toText
    let line := "j.Text#at(int, j.Text[])".toText
    let letter := "j.Text#of(I)".toText
    (indexAfter line).checkMethodText c "at(I[Lj/Text;)C".toText = .ok (some line) ∧
    (indexAfter line).checkMethodText c "at(I[Lj/Text;)Lj/Object;".toText = .ok (some line) ∧
    (indexAfter line).checkMethodText c "at(int, j.Text[])".toText = .ok (some line) ∧
    (indexAfter letter).checkMethodText c "of(LI;)V".toText = .ok (some letter) ∧
    (indexAfter letter).checkMethodText c "of(I)".toText =
      .error (.returnTypeMissing "of(I)".toText) := by
  intro indexAfter c line letter
  obtain ⟨info, hv, hmethods⟩ := Option.map_eq_some_iff.1 view_sequenceSteps
  have hc : IsPlainClass "j.Text".toText := ⟨by decide, by decide, by decide⟩
  have hint : ReturnType.ofSourceName _ = .ok (.value (.base .int)) :=
    FieldType.ofSourceName_className trivial
  have htext : ReturnType.ofSourceName _ = .ok (.value (.array (.object "j/Text".toText))) :=
    FieldType.ofSourceName_className ⟨by decide, by decide, by decide, by decide⟩
  have hletter : ReturnType.ofSourceName _ = .ok (.value (.object "I".toText)) :=
    FieldType.ofSourceName_className ⟨by decide, by decide, by decide, by decide⟩
  obtain ⟨-, r, -, hr, hdescriptor, hdeclaration⟩ :=
    sequenceSession.spellings_meet sequenceSteps "j.Text".toText "at".toText
      [.base .int, .array (.object "j/Text".toText)] info hc
      ⟨"at()".toText, ⟨"at".toText, [], .void⟩, rfl, rfl⟩
      (List.forall_mem_cons.2 ⟨⟨_, hint⟩, List.forall_mem_singleton.2 ⟨_, htext⟩⟩) hv
      (by rw [hmethods]; decide)
  obtain ⟨-, r', -, hr', hdescriptor', hdeclaration'⟩ :=
    sequenceSession.spellings_meet sequenceSteps "j.Text".toText "of".toText
      [.object "I".toText] info hc ⟨"of()".toText, ⟨"of".toText, [], .void⟩, rfl, rfl⟩
      (List.forall_mem_singleton.2 ⟨_, hletter⟩) hv (by rw [hmethods]; decide)
  rw [hr] at hdescriptor hdeclaration
  rw [hr'] at hdescriptor' hdeclaration'
  exact ⟨hdescriptor "C".toText (.value (.base .char)) rfl (by rw [hmethods]; decide),
    hdescriptor "Lj/Object;".toText (.value (.object "j/Object".toText)) rfl
      (by rw [hmethods]; decide), hdeclaration,
    hdescriptor' "V".toText .void rfl (by rw [hmethods]; decide), hdeclaration'⟩

end Embargo
