/-!
# Texts

A text is the list of its characters, so that every scan in this library is a recursion on the
text it reads. Strings occur only where a program meets the outside.

Splitting a text at a character loses nothing but that character: there is always one more piece
than there are separators.
-/
namespace Implementors

/-- The characters of a text, in order. -/
abbrev Text := List Char

namespace Text

/-- The pieces between the separators. -/
def splitOn (separator : Char) : Text → List Text
  | [] => [[]]
  | c :: rest =>
    if c = separator then [] :: splitOn separator rest
    else (splitOn separator rest).modifyHead (c :: ·)

@[simp] theorem splitOn_nil (separator : Char) : splitOn separator [] = [[]] := rfl

@[simp] theorem splitOn_separator (separator : Char) (rest : Text) :
    splitOn separator (separator :: rest) = [] :: splitOn separator rest := by
  simp [splitOn]

theorem splitOn_cons_of_ne {separator c : Char} (h : c ≠ separator) (rest : Text) :
    splitOn separator (c :: rest) = (splitOn separator rest).modifyHead (c :: ·) := by
  simp [splitOn, h]

/-- Drops the longest ending whose characters all satisfy `p`. -/
def dropEndWhile (p : Char → Bool) : Text → Text
  | [] => []
  | c :: rest =>
    match dropEndWhile p rest with
    | [] => if p c then [] else [c]
    | d :: kept => c :: d :: kept

@[simp] theorem dropEndWhile_nil (p : Char → Bool) : dropEndWhile p [] = [] := rfl

/-- The rest of `s` after a literal beginning, if `s` begins with it. -/
def afterStart? (beginning s : Text) : Option Text := beginning.isPrefixOf? s

/-- The beginning of `s` before a literal ending, if `s` ends with it. -/
def beforeEnd? (ending s : Text) : Option Text := ending.isSuffixOf? s

/-- The character with a code point, unless that is a surrogate or out of range. -/
def ofCodePoint? (n : Nat) : Option Char := if n.isValidChar then some (Char.ofNat n) else none

end Text
end Implementors
