import Implementors.Text

/-!
# Digits

Numbers are read from digits in bases up to sixteen, most significant first, where the letters for
the digits above nine may be of either case.
-/
namespace Implementors.Text

/-- The value of a digit of the base. -/
def digitValue? (base : Nat) (c : Char) : Option Nat :=
  let value :=
    if '0' ≤ c ∧ c ≤ '9' then c.toNat - '0'.toNat
    else if 'a' ≤ c ∧ c ≤ 'f' then c.toNat - 'a'.toNat + 10
    else if 'A' ≤ c ∧ c ≤ 'F' then c.toNat - 'A'.toNat + 10
    else base
  if value < base then some value else none

/-- The number with the digits of `value` and then those of a text. -/
def digitsFrom? (base : Nat) : Nat → Text → Option Nat
  | value, [] => some value
  | value, c :: rest => do digitsFrom? base (value * base + (← digitValue? base c)) rest

/-- The number that the digits stand for, zero if there are none. -/
def ofDigits? (base : Nat) (s : Text) : Option Nat := digitsFrom? base 0 s

end Implementors.Text
