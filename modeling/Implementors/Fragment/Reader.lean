import Implementors.Fragment
import Implementors.Text.Blank

/-!
# Reading fragments

Reading is by lines. After blanks and the opening, every line that begins with `implementors[`,
blanks aside, has to be an assignment, and all other lines are passed over. Lines are counted from
one in the source as given; the rest of the opening's own line is the first to be read. The first
line that is not an assignment although it begins like one ends the reading.
-/
namespace Implementors.Fragment

/-- What is wrong with a line that begins like an assignment. -/
inductive LineFault where
  /-- No `] = ` after the name. -/
  | noMiddle
  /-- No semicolon at the end. -/
  | noSemicolon
  /-- The list is not between square brackets. -/
  | noList
  /-- The name or the list is not written in string literals. -/
  | badLiteral
  deriving DecidableEq, Repr

inductive ReadError where
  | noOpening
  | badLine (line : Nat) (fault : LineFault)
  deriving DecidableEq, Repr

def LineFault.message : LineFault → Text
  | .noMiddle => "malformed assignment: expected `] = ` after the crate name".toList
  | .noSemicolon => "malformed assignment: missing trailing `;`".toList
  | .noList => "malformed assignment: expected an array literal".toList
  | .badLiteral => "invalid string literal".toList

def ReadError.message : ReadError → Text
  | .noOpening => "not an implementors fragment: missing prelude".toList
  | .badLine line fault =>
    "line ".toList ++ Nat.toDigits 10 line ++ ": ".toList ++ fault.message

/-- Reads the list of an assignment with its semicolon; one comma may follow the last item. -/
def readList (s : Text) : Except LineFault (List Text) :=
  match Text.beforeEnd? [';'] (Text.trimEnd s) with
  | none => .error .noSemicolon
  | some list =>
    match Text.afterStart? ['['] (Text.trimEnd list) >>= Text.beforeEnd? [']'] with
    | none => .error .noList
    | some inner =>
      let inner := Text.trimEnd inner
      match Text.Literal.readItems? ((Text.beforeEnd? [','] inner).getD inner) with
      | none => .error .badLiteral
      | some items => .ok items

/-- Reads an assignment from behind its beginning: the crate and its list. -/
def readAssignment (s : Text) : Except LineFault (Text × List Text) :=
  match Text.cut? assignmentMiddle s with
  | none => .error .noMiddle
  | some (name, list) =>
    match Text.Literal.read? name with
    | none => .error .badLiteral
    | some crate => (readList list).map (crate, ·)

/-- What follows the beginning of an assignment, if the line begins like one. -/
def assignmentOf? (line : Text) : Option Text := Text.afterStart? assignmentStart (Text.trim line)

/-- Carries out the assignments among some lines; the first of these has the given number. -/
def readLines (number : Nat) (f : Fragment) : List Text → Except ReadError Fragment
  | [] => .ok f
  | line :: rest =>
    match assignmentOf? line with
    | none => readLines (number + 1) f rest
    | some assigned =>
      match readAssignment assigned with
      | .error fault => .error (.badLine number fault)
      | .ok (crate, items) => readLines (number + 1) (f.assign crate items) rest

def parse (source : Text) : Except ReadError Fragment :=
  match Text.afterStart? opening (Text.trimStart source) with
  | none => .error .noOpening
  | some body =>
    readLines ((source.takeWhile Text.isBlank).count '\n' + 1) Catalog.empty
      (Text.splitOn '\n' body)

end Implementors.Fragment
