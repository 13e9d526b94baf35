import Embargo.Line
import Embargo.Jvm.Method.Reader

/-!
# Reading the lines of a signature file

```
directive := "@includeBundled " NAME | "@defaultMessage" [" " TEXT] | "@ignoreUnresolvable"
record    := CLASS [ "#" MEMBER ] [ "@" MESSAGE ]
MEMBER    := FIELD | METHOD "(" TYPES ")"
```

A message begins at the last `@` that has no backslash before it; inside it, `\@` stands for `@`.

* `Directive.parse`, `Record.parse` – the two kinds of lines.
* `Line.parse` – a content line of either kind.
-/

namespace Embargo

/-! ### Directives -/

/-- The directive that a line gives: a keyword up to the first space, and what follows it. -/
def Directive.parse (line : Text) : Except SyntaxError Directive :=
  let (keyword, rest) := (Text.cut ' ' line).getD (line, [])
  let rest := Text.trim rest
  if keyword = "@includeBundled".toText ∧ rest ≠ [] then .ok (.includeCatalog rest)
  else if keyword = "@defaultMessage".toText then
    .ok (.defaultMessage (if rest = [] then none else some rest))
  else if keyword = "@ignoreUnresolvable".toText ∧ rest = [] then .ok .ignoreUnresolvable
  else .error (.directive line)

/-! ### Messages -/

/-- The parts before and after the last `@` that has no backslash before it; `previous` is the
character before the text. -/
def cutMessage (previous : Option CodePoint) : Text → Option (Text × Text)
  | [] => none
  | c :: r =>
    match cutMessage (some c) r with
    | some (before, after) => some (c :: before, after)
    | none => if c = '@' ∧ previous ≠ some '\\' then some ([], r) else none

/-- A message with each `\@` read as `@`. -/
def unescapeMessage : Text → Text
  | [] => []
  | '\\' :: '@' :: r => '@' :: unescapeMessage r
  | c :: r => c :: unescapeMessage r

/-- The signature of a record and, if it has one, the message written behind it, both trimmed. -/
def splitMessage (line : Text) : Text × Option Text :=
  match cutMessage none line with
  | none => (Text.trim line, none)
  | some (before, after) => (Text.trim before, some (Text.trim (unescapeMessage after)))

/-- The message that counts: the written one, or else the default one. An empty message is none. -/
def effectiveMessage (written default : Option Text) : Option Text :=
  match written.or default with
  | some [] => none
  | message => message

/-! ### Records -/

/-- The member that stands behind the mark of a signature. -/
def Member.parse (signature member : Text) : Except SyntaxError Member :=
  match Text.cut '(' member with
  | some ([], _) => .error (.methodNameMissing signature)
  | some _ =>
    match Jvm.Method.ofDeclaration member with
    | .ok m => .ok (.method m)
    | .error _ => .error (.methodSignature signature)
  | none => if member = [] then .error (.memberMissing signature) else .ok (.field member)

/-- The record with a signature and a message. -/
def Record.ofSignature (signature : Text) (message : Option Text) : Except SyntaxError Record :=
  match Text.cut '#' signature with
  | none => .ok ⟨signature, signature, .whole, message⟩
  | some (before, after) => do
    let member ← Member.parse signature (Text.trim after)
    let className := Text.trim before
    if className = [] then .error (.classMissing signature)
    else if Glob.isGlob className then .error (.memberOfGlob signature)
    else .ok ⟨signature, className, member, message⟩

/-- The record that a line gives, with a default message for lines that carry none. -/
def Record.parse (line : Text) (default : Option Text) : Except SyntaxError Record :=
  let (signature, written) := splitMessage line
  if signature = [] then .error (.signatureMissing line)
  else Record.ofSignature signature (effectiveMessage written default)

/-- What a content line says. -/
def Line.parse (line : Text) (default : Option Text) : Except SyntaxError Line :=
  match line with
  | '@' :: _ => (Directive.parse line).map .directive
  | _ => (Record.parse line default).map .record

end Embargo
