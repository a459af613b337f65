import Implementors.Implementor
import Implementors.Markup
import Implementors.Text.Digits

/-!
# Reading markup

Any text can be read as markup. A tag runs from `<` to the next `>` and is dropped, except that a
line break becomes a line feed; a `<` without a `>` after it ends the markup, and what follows is
kept as it is. A character reference becomes its character; an `&` that begins none is kept.

A reference has to end within twelve bytes. These are looked through if they are whole characters,
and the whole text if they are not; since a reference has only ASCII characters, neither finds one
that is longer.
-/
namespace Implementors.Markup

/-- The first `n` bytes of a text in UTF-8, if they are whole characters. -/
def takeBytes? : Nat → Text → Option Text
  | 0, _ => some []
  | _ + 1, [] => none
  | n + 1, c :: rest =>
    if c.utf8Size ≤ n + 1 then (takeBytes? (n + 1 - c.utf8Size) rest).map (c :: ·) else none

/-- The references by name. A hard space is read as a space. -/
def namedChars : List (Text × Char) :=
  [("lt".toList, '<'), ("gt".toList, '>'), ("amp".toList, '&'), ("quot".toList, '"'),
    ("apos".toList, '\''), ("nbsp".toList, ' ')]

/-- A number of at least one digit, after an optional plus sign. -/
def number? (base : Nat) : Text → Option Nat
  | '+' :: c :: rest => Text.ofDigits? base (c :: rest)
  | c :: rest => Text.ofDigits? base (c :: rest)
  | [] => none

/-- The character that a reference of the given name stands for. -/
def charOfName? (name : Text) : Option Char :=
  match namedChars.lookup name with
  | some c => some c
  | none =>
    match name with
    | '#' :: 'x' :: hex => number? 16 hex >>= Text.ofCodePoint?
    | '#' :: 'X' :: hex => number? 16 hex >>= Text.ofCodePoint?
    | '#' :: decimal => number? 10 decimal >>= Text.ofCodePoint?
    | _ => none

/-- Decodes the reference that a text begins with, an `&` being its first character. The number is
that of the characters read. -/
def reference? (s : Text) : Option (Char × Nat) :=
  let window := (takeBytes? 12 s).getD s
  let beforeEnd := window.takeWhile (· != ';')
  if beforeEnd.length < window.length then
    (charOfName? (beforeEnd.drop 1)).map fun c => (c, beforeEnd.length + 1)
  else none

/-- Whether a tag with the given content breaks the line. -/
def isLineBreak (content : Text) : Bool :=
  (Text.trim (Text.dropEndWhile (· == '/') content)).map Char.toLower == "br".toList

/-- The text of markup after leaving out its first characters. -/
def readFrom : Nat → Text → Text
  | _, [] => []
  | skip + 1, _ :: rest => readFrom skip rest
  | 0, '<' :: rest =>
    let content := rest.takeWhile (· != '>')
    if content.length < rest.length then
      (if isLineBreak content then ['\n'] else []) ++ readFrom (content.length + 1) rest
    else '<' :: rest
  | 0, '&' :: rest =>
    match reference? ('&' :: rest) with
    | some (c, length) => c :: readFrom (length - 1) rest
    | none => '&' :: readFrom 0 rest
  | 0, c :: rest => c :: readFrom 0 rest

/-- The text that markup shows. -/
def toText (markup : Text) : Text := readFrom 0 markup

/-- The implementor that markup shows, with that markup. -/
def read (markup : Text) : Implementor := ⟨Header.ofText (toText markup), some markup⟩

end Implementors.Markup
