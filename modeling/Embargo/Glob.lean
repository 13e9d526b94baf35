import Embargo.Text

/-!
# Class globs

A glob stands for the class names of its language. It is cut, from the left, into tokens: `**` for
any text, `*` for any text without a dot, `?` for one character that is not a dot, and every other
character for itself; a slash reads as a dot. Two stars in a row are always one token.

* `Glob.tokens` – the tokens of a glob.
* `Glob.accepts` – whether a name can be cut into one piece per token. This is the definition of the
  language; tried out piece by piece, it takes a time that grows with the number of ways to cut.
* `Glob.verdicts` – the same for all ends of a name at once. One sweep over the name per token is
  enough, and `Glob.Matches_eq_accepts` says that the answer is the same.
* `ClassPattern` – a forbidden glob with the message that a report of it carries.
-/

namespace Embargo

/-- A piece of a glob. -/
inductive GlobToken where
  /-- Any text. -/
  | deep
  /-- Any text without a dot. -/
  | run
  /-- One character other than a dot. -/
  | one
  /-- This character. -/
  | literal (c : CodePoint)
  deriving DecidableEq

namespace Glob

/-- A class name is a glob if it has a star or a question mark. -/
def isGlob (t : Text) : Bool := t.contains '*' || t.contains '?'

/-- The tokens of a glob in which dots are dots. -/
def scan : Text → List GlobToken
  | [] => []
  | '*' :: '*' :: r => .deep :: scan r
  | '*' :: r => .run :: scan r
  | '?' :: r => .one :: scan r
  | c :: r => .literal c :: scan r

/-- The tokens of a glob. -/
def tokens (glob : Text) : List GlobToken := scan (Text.binaryName glob)

/-! ### The language -/

/-- Some text without a dot can be taken off the front so that the rest satisfies `p`. -/
def afterRun (p : Text → Bool) : Text → Bool
  | [] => p []
  | c :: r => p (c :: r) || (c ≠ '.' && afterRun p r)

/-- Some text can be taken off the front so that the rest satisfies `p`. -/
def afterAny (p : Text → Bool) : Text → Bool
  | [] => p []
  | c :: r => p (c :: r) || afterAny p r

/-- The name can be cut into consecutive pieces, one per token, in order. -/
def accepts : List GlobToken → Text → Bool
  | [], name => name.isEmpty
  | .literal _ :: _, [] => false
  | .literal c :: ts, d :: name => d = c && accepts ts name
  | .one :: _, [] => false
  | .one :: ts, d :: name => d ≠ '.' && accepts ts name
  | .run :: ts, name => afterRun (accepts ts) name
  | .deep :: ts, name => afterAny (accepts ts) name

/-! ### The verdicts on all ends -/

/-- The token can stand for the empty text. -/
def canBeEmpty : GlobToken → Bool
  | .deep | .run => true
  | .one | .literal _ => false

/-- The verdict of a token and the others behind it on a name that begins with `d`. It depends on
three verdicts: of the others on the whole name (`skip`), of the others on the name behind `d`
(`step`), and of them all on the name behind `d` (`stay`). -/
def verdict (t : GlobToken) (d : CodePoint) (skip step stay : Bool) : Bool :=
  match t with
  | .literal c => d = c && step
  | .one => d ≠ '.' && step
  | .run => skip || (d ≠ '.' && stay)
  | .deep => skip || stay

/-- The verdicts of a token and the others behind it on all ends of a name, the longest first, from
those of the others alone. -/
def sweep (t : GlobToken) : Text → List Bool → List Bool
  | [], others => [canBeEmpty t && others.headD false]
  | d :: name, others =>
    let shorter := sweep t name others.tail
    verdict t d (others.headD false) (others.tail.headD false) (shorter.headD false) :: shorter

/-- The verdicts of tokens on all ends of a name, the longest first. -/
def verdicts : List GlobToken → Text → List Bool
  | [], name => name.map (fun _ => false) ++ [true]
  | t :: ts, name => sweep t name (verdicts ts name)

/-- The class name, with dots, is in the language of the glob. -/
def Matches (glob name : Text) : Bool := (verdicts (tokens glob) name).headD false

theorem verdicts_empty (ts : List GlobToken) : verdicts ts [] = [accepts ts []] := by
  induction ts with
  | nil => rfl
  | cons t ts ih => cases t <;> simp [verdicts, ih, sweep, canBeEmpty, accepts, afterRun, afterAny]

theorem verdicts_cons (ts : List GlobToken) (d : CodePoint) (name : Text) :
    verdicts ts (d :: name) = accepts ts (d :: name) :: verdicts ts name := by
  induction ts generalizing d name with
  | nil => rfl
  | cons t ts ih =>
    have head (name : Text) : (verdicts ts name).headD false = accepts ts name := by
      cases name with
      | nil => simp [verdicts_empty]
      | cons e name => simp [ih]
    have step (d : CodePoint) (name : Text)
        (stay : (verdicts (t :: ts) name).headD false = accepts (t :: ts) name) :
        verdicts (t :: ts) (d :: name) =
          accepts (t :: ts) (d :: name) :: verdicts (t :: ts) name := by
      rw [verdicts] at stay
      rw [verdicts, ih, sweep, List.tail_cons, List.headD_cons, head, stay, verdicts]
      cases t <;> rfl
    induction name generalizing d with
    | nil => exact step d [] (by simp [verdicts_empty])
    | cons e name ihn => exact step d (e :: name) (by simp [ihn e])

/-- **The sweeps decide the language.** -/
theorem Matches_eq_accepts (glob name : Text) : Matches glob name = accepts (tokens glob) name := by
  cases name with
  | nil => simp [Matches, verdicts_empty]
  | cons d name => simp [Matches, verdicts_cons]

end Glob

/-- A forbidden glob and its message. -/
structure ClassPattern where
  /-- The glob, as written. -/
  glob : Text
  /-- What to say about a class that it catches. -/
  message : Option Text
  deriving DecidableEq

/-- A name as reports show it, followed by the message in brackets if there is one. -/
def printout (name : Text) : Option Text → Text
  | some message => name ++ " [".toText ++ message ++ "]".toText
  | none => name

namespace ClassPattern

/-- The class name, with dots, is in the language of the glob. -/
def catches (pattern : ClassPattern) (name : Text) : Bool := Glob.Matches pattern.glob name

/-- The report of a class that the pattern catches. -/
def printout (pattern : ClassPattern) (name : Text) : Text := Embargo.printout name pattern.message

end ClassPattern
end Embargo
