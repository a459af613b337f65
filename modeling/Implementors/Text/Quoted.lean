import Implementors.Text
import Implementors.Text.Printable

/-!
# Quoted text in messages

A message shows a text it complains about between double quotes. Quotes, backslashes and the usual
control characters are written with a backslash, and any other unprintable character by its code
point in braces, so that the message is one line of visible characters.
-/
namespace Implementors.Text

/-- One character as it stands between the quotes. -/
def quoteChar (c : Char) : Text :=
  match c with
  | '\x00' => "\\0".toList
  | '\t' => "\\t".toList
  | '\r' => "\\r".toList
  | '\n' => "\\n".toList
  | '"' => "\\\"".toList
  | '\\' => "\\\\".toList
  | c => if isPrintable c then [c] else "\\u\x7b".toList ++ Nat.toDigits 16 c.toNat ++ "\x7d".toList

def quote (s : Text) : Text := '"' :: s.flatMap quoteChar ++ ['"']

end Implementors.Text
