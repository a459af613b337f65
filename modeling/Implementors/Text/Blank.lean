import Implementors.Text

/-!
# Blank characters and words

A character is blank if it has the Unicode property `White_Space`. A text is trimmed by dropping
blanks at its ends, and squashed by writing its words, its longest runs without a blank, one space
apart. Squashed text has no blank but single inner spaces, and squashing it again changes nothing.
-/
namespace Implementors.Text

/-- The `White_Space` property of Unicode. -/
def isBlank (c : Char) : Bool :=
  let n := c.toNat
  (0x09 ≤ n && n ≤ 0x0D) || n == 0x20 || n == 0x85 || n == 0xA0 || n == 0x1680 ||
    (0x2000 ≤ n && n ≤ 0x200A) || n == 0x2028 || n == 0x2029 || n == 0x202F || n == 0x205F ||
    n == 0x3000

@[simp] theorem isBlank_space : isBlank ' ' = true := rfl

@[simp] theorem isBlank_newline : isBlank '\n' = true := rfl

def trimStart (s : Text) : Text := s.dropWhile isBlank

def trimEnd (s : Text) : Text := dropEndWhile isBlank s

def trim (s : Text) : Text := trimEnd (trimStart s)

/-- The longest runs of characters that are not blank, in order. -/
def words : Text → List Text
  | [] => []
  | [c] => if isBlank c then [] else [[c]]
  | c :: d :: rest =>
    if isBlank c then words (d :: rest)
    else if isBlank d then [c] :: words (d :: rest)
    else (words (d :: rest)).modifyHead (c :: ·)

/-- Writes the words of a text one space apart. -/
def squash (s : Text) : Text := [' '].intercalate (words s)

/-- A text that is its own squashed form: no blank but single inner spaces. -/
def IsSquashed (s : Text) : Prop := squash s = s

instance (s : Text) : Decidable (IsSquashed s) := inferInstanceAs (Decidable (_ = _))

end Implementors.Text
