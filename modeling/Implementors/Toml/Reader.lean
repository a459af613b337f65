import Implementors.Toml.Scalar
import Implementors.Toml.Strings
import Implementors.Toml.Value

/-!
# Reading TOML documents

A document is read line by line: each line holds one assignment or one header, apart from blanks and
a comment at its end, and an array or an inline table may run over several. The lines are then put
together to one table.

The readers of keys, values and lines take a number of steps that bounds their recursion. It is
computed from the length of the text, of which two steps in a row always use up a character.
-/
namespace Implementors.Toml

/-- Arrays and inline tables may be nested this deep, and a key may have this many names. -/
def maxDepth : Nat := 80

def isSpace (c : Char) : Bool := c == ' ' || c == '\t'

def skipSpaces (s : Text) : Text := s.dropWhile isSpace

/-- Skips spaces, line ends and comments; a comment runs to the end of its line. -/
def skipTrivia? (inComment : Bool) : Text → Option Text
  | [] => some []
  | '\n' :: rest => skipTrivia? false rest
  | '\r' :: '\n' :: rest => skipTrivia? false rest
  | c :: rest =>
    if inComment then if Strings.isPlain c then skipTrivia? true rest else none
    else if isSpace c then skipTrivia? false rest
    else if c = '#' then skipTrivia? true rest
    else some (c :: rest)

/-- Skips what may stand after an assignment or a header, up to the next line that is neither blank
nor a comment. -/
def nextLine? (s : Text) : Option Text :=
  match skipSpaces s with
  | [] => some []
  | '\n' :: rest => skipTrivia? false rest
  | '\r' :: '\n' :: rest => skipTrivia? false rest
  | '#' :: rest => skipTrivia? true rest
  | _ => none

def isKeyChar (c : Char) : Bool := c.isAlphanum || c == '_' || c == '-'

/-- Reads a key without dots, bare or between quotes. -/
def simpleKey? (s : Text) : Option (Text × Text) :=
  match Strings.line? s with
  | some read => some read
  | none =>
    match s.takeWhile isKeyChar with
    | [] => none
    | key => some (key, s.dropWhile isKeyChar)

/-- Reads a dotted key and the spaces after it. -/
def keyFrom? : Nat → Text → Option (Key × Text)
  | 0, _ => none
  | steps + 1, s => do
    let (name, rest) ← simpleKey? s
    match skipSpaces rest with
    | '.' :: rest =>
      let (key, rest) ← keyFrom? steps (skipSpaces rest)
      pure ({ key with path := name :: key.path }, rest)
    | rest => pure (⟨[], name⟩, rest)

def key? (s : Text) : Option (Key × Text) := do
  let (key, rest) ← keyFrom? s.length s
  if key.path.length < maxDepth then pure (key, rest) else none

/-- Whether a word comes next that is neither a string nor a part of a number. -/
def startsWord (s : Text) : Bool :=
  s.head?.any fun c => Scalar.isWordChar c && !".\"'".toList.contains c

/-- Parts the words at the beginning from what follows them. Blanks belong to them if another word
comes next, as between a date and a time. -/
def words : Text → Text × Text
  | [] => ([], [])
  | c :: rest =>
    if Scalar.isWordChar c || (isSpace c && startsWord (skipSpaces rest)) then
      let (more, rest) := words rest
      (c :: more, rest)
    else ([], c :: rest)

/-- Reads a scalar that is no string. -/
def scalar? (s : Text) : Option (Value × Text) :=
  let (scalar, rest) := words s
  (Scalar.scalar? scalar).map fun inRange => (.scalar inRange, rest)

mutual

/-- Reads a value that may hold values nested so deep. -/
def value? : Nat → Nat → Text → Option (Value × Text)
  | 0, _, _ => none
  | steps + 1, depth, s =>
    match s, depth with
    | '[' :: rest, depth + 1 => do
      let (items, rest) ← items? steps depth rest
      pure (.array false items, rest)
    | '{' :: rest, depth + 1 => do
      let (entries, rest) ← fields? steps depth [] rest
      pure (.table .inline entries, rest)
    | s, _ =>
      match Strings.any? s with
      | some (string, rest) => some (.string string, rest)
      | none => scalar? s

/-- Reads the items of an array up to its closing bracket. -/
def items? : Nat → Nat → Text → Option (List Value × Text)
  | 0, _, _ => none
  | steps + 1, depth, s => do
    match ← skipTrivia? false s with
    | ']' :: rest => pure ([], rest)
    | s =>
      let (item, rest) ← value? steps depth s
      match ← skipTrivia? false rest with
      | ']' :: rest => pure ([item], rest)
      | ',' :: rest =>
        let (items, rest) ← items? steps depth rest
        pure (item :: items, rest)
      | _ => none

/-- Reads the assignments of an inline table up to its closing brace, and adds them to those read
before. Line ends and comments may stand between any two parts of it, except inside of a key. -/
def fields? : Nat → Nat → Entries → Text → Option (Entries × Text)
  | 0, _, _, _ => none
  | steps + 1, depth, entries, s => do
    match ← skipTrivia? false s with
    | '\x7d' :: rest => pure (entries, rest)
    | s =>
      let (key, rest) ← key? s
      match ← skipTrivia? false rest with
      | '=' :: rest =>
        let (value, rest) ← value? steps depth (← skipTrivia? false rest)
        let entries ← entries.assign? ⟨key, value⟩
        match ← skipTrivia? false rest with
        | '\x7d' :: rest => pure (entries, rest)
        | ',' :: rest => fields? steps depth entries rest
        | _ => none
      | _ => none

end

/-- A line of a document. -/
inductive Line where
  | header (h : TableHeader)
  | assignment (a : Assignment)

def line? (s : Text) : Option (Line × Text) :=
  match s with
  | '[' :: '[' :: rest => do
    match ← key? (skipSpaces rest) with
    | (key, ']' :: ']' :: rest) => pure (.header ⟨true, key⟩, rest)
    | _ => none
  | '[' :: rest => do
    match ← key? (skipSpaces rest) with
    | (key, ']' :: rest) => pure (.header ⟨false, key⟩, rest)
    | _ => none
  | s => do
    match ← key? s with
    | (key, '=' :: rest) =>
      let (value, rest) ← value? (2 * rest.length + 2) maxDepth (skipSpaces rest)
      pure (.assignment ⟨key, value⟩, rest)
    | _ => none

/-- Reads lines, where the text does not begin with blanks. -/
def lines? : Nat → Text → Option (List Line)
  | _, [] => some []
  | 0, _ => none
  | steps + 1, s => do
    let (line, rest) ← line? s
    let lines ← lines? steps (← nextLine? rest)
    pure (line :: lines)

/-- The assignments before the first header, and the sections. -/
def sections : List Line → List Assignment × List Section
  | [] => ([], [])
  | .assignment a :: rest =>
    let (first, later) := sections rest
    (a :: first, later)
  | .header h :: rest =>
    let (first, later) := sections rest
    ([], ⟨h, first⟩ :: later)

/-- Reads a document; a byte order mark at its beginning is passed over. -/
def read? (source : Text) : Option Entries := do
  let s := match source with
    | '\ufeff' :: rest => rest
    | s => s
  let lines ← lines? source.length (← skipTrivia? false s)
  let (first, later) := sections lines
  document? first later

end Implementors.Toml
