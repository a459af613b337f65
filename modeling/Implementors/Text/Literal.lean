import Implementors.Text.Digits
import Implementors.Text.Scanner

/-!
# String literals of scripts

A literal is a text between double quotes in the syntax of JSON. Writing escapes only quotes,
backslashes and the characters below the space; reading accepts every spelling that JSON allows, in
particular a character written as one or two UTF-16 code units.

An array of literals is read by cutting it at the commas outside the quotes: each piece has to be
one literal with JSON blanks around it.
-/
namespace Implementors.Text.Literal

/-- The digit for a number below sixteen, in lower case. -/
def hexDigit (n : Nat) : Char := Nat.digitChar n

/-- One character as it stands in a written literal. -/
def writeChar (c : Char) : Text :=
  match c with
  | '"' => "\\\"".toList
  | '\\' => "\\\\".toList
  | '\x08' => "\\b".toList
  | '\x0c' => "\\f".toList
  | '\n' => "\\n".toList
  | '\r' => "\\r".toList
  | '\t' => "\\t".toList
  | c =>
    if c.toNat < 0x20 then "\\u00".toList ++ [hexDigit (c.toNat / 16), hexDigit (c.toNat % 16)]
    else [c]

def write (s : Text) : Text := '"' :: s.flatMap writeChar ++ ['"']

/-- A part of a literal: a character, or a UTF-16 code unit written by its number. -/
inductive Part where
  | char (c : Char)
  | unit (n : Nat)
  deriving DecidableEq, Repr

/-- The character that a backslash and the given character stand for. -/
def escaped? : Char → Option Char
  | '"' => some '"'
  | '\\' => some '\\'
  | '/' => some '/'
  | 'b' => some '\x08'
  | 'f' => some '\x0c'
  | 'n' => some '\n'
  | 'r' => some '\r'
  | 't' => some '\t'
  | _ => none

/-- The parts of a literal up to its closing quote, and what follows the quote. -/
def parts? : Text → Option (List Part × Text)
  | [] => none
  | '"' :: rest => some ([], rest)
  | '\\' :: 'u' :: a :: b :: c :: d :: rest => do
    let n ← ofDigits? 16 [a, b, c, d]
    let (ps, after) ← parts? rest
    pure (.unit n :: ps, after)
  | '\\' :: e :: rest => do
    let c ← escaped? e
    let (ps, after) ← parts? rest
    pure (.char c :: ps, after)
  | c :: rest => do
    if c.toNat < 0x20 then none
    let (ps, after) ← parts? rest
    pure (.char c :: ps, after)

/-- Joins each pair of surrogates to one character; a surrogate without its partner is refused. -/
def joinUnits? : List Part → Option Text
  | [] => some []
  | .char c :: ps => (joinUnits? ps).map (c :: ·)
  | .unit n :: ps =>
    if 0xD800 ≤ n ∧ n < 0xDC00 then
      match ps with
      | .unit m :: ps =>
        if 0xDC00 ≤ m ∧ m < 0xE000 then
          (joinUnits? ps).map (Char.ofNat (0x10000 + (n - 0xD800) * 0x400 + (m - 0xDC00)) :: ·)
        else none
      | _ => none
    else if 0xDC00 ≤ n ∧ n < 0xE000 then none
    else (joinUnits? ps).map (Char.ofNat n :: ·)

/-- The blanks of JSON. -/
def isSpace (c : Char) : Bool := c == ' ' || c == '\t' || c == '\n' || c == '\r'

/-- Reads a text that is one literal with JSON blanks around it. -/
def read? (s : Text) : Option Text :=
  match s.dropWhile isSpace with
  | '"' :: rest => do
    let (ps, after) ← parts? rest
    if after.all isSpace then joinUnits? ps else none
  | _ => none

/-- Where a scan of an array stands: outside its literals, inside one, or after a backslash. -/
inductive Place where
  | outside
  | inside
  | afterBackslash
  deriving DecidableEq, Repr

def Place.step : Place → Char → Place
  | .outside, c => if c = '"' then .inside else .outside
  | .inside, c => if c = '"' then .outside else if c = '\\' then .afterBackslash else .inside
  | .afterBackslash, _ => .inside

def outside : Scanner Place := ⟨.outside, Place.step, (· == .outside)⟩

/-- Reads what stands between the brackets of an array of literals. -/
def readItems? (s : Text) : Option (List Text) :=
  if s.all isSpace then some [] else (outside.pieces s).mapM read?

end Implementors.Text.Literal
