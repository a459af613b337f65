import Implementors.Text.Digits

/-!
# TOML strings

Basic strings have escapes, literal strings have none; each is written on one line between single
quotes of its kind, or on several between three of them. A string of several lines leaves out a line
end right after its opening, keeps its other line ends as they are, and may have up to two quotes
before its closing. In a basic one, a backslash at the end of a line joins the lines, leaving out
the blanks between them.

Every function reads from behind the opening quotes, and gives the string and what follows it.
-/
namespace Implementors.Toml.Strings

/-- The characters that may stand in strings and comments: no control character but the tab. -/
def isPlain (c : Char) : Bool := c == '\t' || (0x20 ≤ c.toNat && c.toNat != 0x7F)

/-- The character whose code point is written with the given hexadecimal digits. -/
def ofHex? (digits : Text) : Option Char := Text.ofDigits? 16 digits >>= Text.ofCodePoint?

/-- The character that a backslash and a letter stand for. -/
def escaped? : Char → Option Char
  | 'b' => some '\x08'
  | 't' => some '\t'
  | 'n' => some '\n'
  | 'f' => some '\x0c'
  | 'r' => some '\r'
  | 'e' => some '\x1b'
  | '"' => some '"'
  | '\\' => some '\\'
  | _ => none

/-- Puts a character before a string that was read. -/
def before (c : Char) (read : Option (Text × Text)) : Option (Text × Text) :=
  read.map fun (s, rest) => (c :: s, rest)

def basic? : Text → Option (Text × Text)
  | [] => none
  | '"' :: rest => some ([], rest)
  | '\\' :: 'x' :: a :: b :: rest => do before (← ofHex? [a, b]) (basic? rest)
  | '\\' :: 'u' :: a :: b :: c :: d :: rest => do before (← ofHex? [a, b, c, d]) (basic? rest)
  | '\\' :: 'U' :: a :: b :: c :: d :: e :: f :: g :: h :: rest => do
    before (← ofHex? [a, b, c, d, e, f, g, h]) (basic? rest)
  | '\\' :: e :: rest => do before (← escaped? e) (basic? rest)
  | c :: rest => if isPlain c then before c (basic? rest) else none

def literal? : Text → Option (Text × Text)
  | [] => none
  | '\'' :: rest => some ([], rest)
  | c :: rest => if isPlain c then before c (literal? rest) else none

/-- Leaves out a line end at the beginning. -/
def skipLineEnd : Text → Text
  | '\n' :: rest => rest
  | '\r' :: '\n' :: rest => rest
  | s => s

/-- Whether nothing but spaces and tabs stands before the next line end. -/
def endsLine (s : Text) : Bool :=
  match s.dropWhile fun c => c == ' ' || c == '\t' with
  | '\n' :: _ => true
  | '\r' :: '\n' :: _ => true
  | _ => false

/-- A basic string of several lines; `joining` lines after a backslash skips their blanks. -/
def multiBasic? (joining : Bool) : Text → Option (Text × Text)
  | [] => none
  | '"' :: '"' :: '"' :: '"' :: '"' :: rest => some (['"', '"'], rest)
  | '"' :: '"' :: '"' :: '"' :: rest => some (['"'], rest)
  | '"' :: '"' :: '"' :: rest => some ([], rest)
  | '\r' :: '\n' :: rest =>
    if joining then multiBasic? true rest
    else before '\r' (before '\n' (multiBasic? false rest))
  | '\\' :: 'x' :: a :: b :: rest => do before (← ofHex? [a, b]) (multiBasic? false rest)
  | '\\' :: 'u' :: a :: b :: c :: d :: rest => do
    before (← ofHex? [a, b, c, d]) (multiBasic? false rest)
  | '\\' :: 'U' :: a :: b :: c :: d :: e :: f :: g :: h :: rest => do
    before (← ofHex? [a, b, c, d, e, f, g, h]) (multiBasic? false rest)
  | '\\' :: e :: rest =>
    if endsLine (e :: rest) then multiBasic? true (e :: rest)
    else do before (← escaped? e) (multiBasic? false rest)
  | c :: rest =>
    if joining && (c == ' ' || c == '\t' || c == '\n') then multiBasic? true rest
    else if c == '\n' || isPlain c then before c (multiBasic? false rest)
    else none

def multiLiteral? : Text → Option (Text × Text)
  | [] => none
  | '\'' :: '\'' :: '\'' :: '\'' :: '\'' :: rest => some (['\'', '\''], rest)
  | '\'' :: '\'' :: '\'' :: '\'' :: rest => some (['\''], rest)
  | '\'' :: '\'' :: '\'' :: rest => some ([], rest)
  | '\r' :: '\n' :: rest => before '\r' (before '\n' (multiLiteral? rest))
  | c :: rest => if c == '\n' || isPlain c then before c (multiLiteral? rest) else none

/-- Reads a string on one line, with its quotes. -/
def line? : Text → Option (Text × Text)
  | '"' :: rest => basic? rest
  | '\'' :: rest => literal? rest
  | _ => none

/-- Reads a string of any of the four forms, with its quotes. -/
def any? : Text → Option (Text × Text)
  | '"' :: '"' :: '"' :: rest => multiBasic? false (skipLineEnd rest)
  | '\'' :: '\'' :: '\'' :: rest => multiLiteral? (skipLineEnd rest)
  | s => line? s

end Implementors.Toml.Strings
