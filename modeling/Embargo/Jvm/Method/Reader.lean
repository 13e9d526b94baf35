import Embargo.Jvm.Method
import Embargo.Jvm.Type.Descriptor
import Embargo.Jvm.Type.SourceName

/-!
# Reading method signatures

A method is written in one of two forms.

* The **descriptor form** of class files has descriptors between the parentheses and a return type
  after them: `substring(II)Ljava/lang/String;`.
* The **declaration form** of source text has type names with commas, and nothing after the
  parentheses: `substring(int, int)`.

`Method.parse` reads either. Nothing after the parentheses means a declaration – except that
arguments which are descriptors are then refused, since `exit(I)` is more likely a descriptor
without its return type than a method with an argument of class `I`.
-/

namespace Embargo.Jvm.Method

/-- The method with a name and a descriptor. -/
def ofDescriptor (name descriptor : Text) : Except SyntaxError Method :=
  match descriptor with
  | '(' :: r =>
    match Text.cut ')' r with
    | none => .error (.methodDescriptor (name ++ descriptor))
    | some (arguments, returns) =>
      match FieldType.readMany arguments with
      | (types, []) => (ReturnType.ofDescriptor returns).map fun t => ⟨name, types, t⟩
      | (_, 'V' :: _) => .error (.methodDescriptor (name ++ descriptor))
      | _ => .error (.typeDescriptor ('(' :: arguments))
  | _ => .error (.methodDescriptor (name ++ descriptor))

/-- The two names of methods that are no identifiers: constructors and class initialisers. -/
def specialNames : List Text := ["<init>".toText, "<clinit>".toText]

/-- A name that a declared method can have. -/
def isMethodName (name : Text) : Bool := isIdentifier name || specialNames.contains name

/-- The argument types of a declaration, from the text between its parentheses. -/
def declaredArguments (declaration arguments : Text) : Except SyntaxError (List FieldType) :=
  if Text.trim arguments = [] then .ok []
  else (Text.split ',' (Text.trim arguments)).mapM fun argument =>
    match ReturnType.ofSourceName argument with
    | .ok (.value t) => .ok t
    | .ok .void => .error (.methodSignature declaration)
    | .error e => .error e

/-- The method that a source declaration names. Its return type is left at `void`. -/
def ofDeclaration (t : Text) : Except SyntaxError Method :=
  match Text.cut '(' t with
  | none => .error (.methodSignature t)
  | some (before, rest) =>
    match Text.cut ')' rest with
    | none => .error (.methodSignature t)
    | some (arguments, after) =>
      if Text.trim after ≠ [] then .error (.methodSignature t)
      else if Text.trim before = [] then .error (.methodNameMissing t)
      else if !isMethodName (Text.trim before) then .error (.methodSignature t)
      else (declaredArguments t arguments).map fun types => ⟨Text.trim before, types, .void⟩

/-- A row of one or more descriptors without a parenthesis in a class name. -/
def isDescriptorRow (arguments : Text) : Bool :=
  match FieldType.readMany arguments with
  | (_ :: _, []) => !arguments.contains '('
  | _ => false

/-- The method that a text names in either form. -/
def parse (t : Text) : Except SyntaxError Method :=
  let s := Text.trim t
  match Text.cut '(' s with
  | none => ofDeclaration s
  | some (name, rest) =>
    match Text.cut ')' rest with
    | none => ofDeclaration s
    | some (arguments, returns) =>
      if name = [] ∨ CodePoint.char ')' ∈ name then ofDeclaration s
      else if returns ≠ [] then ofDescriptor name ('(' :: rest)
      else if isDescriptorRow arguments then .error (.returnTypeMissing s)
      else ofDeclaration s

end Embargo.Jvm.Method
