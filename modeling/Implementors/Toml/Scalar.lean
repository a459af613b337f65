import Implementors.Text.Digits

/-!
# TOML scalars other than strings

These functions say which words are booleans, numbers, dates and times, and which numbers are in
range. An integer is in range if it has 128 bits, signed or not, and a number with a fraction or an
exponent if it does not round to infinity.
-/
namespace Implementors.Toml.Scalar

open Text

/-- The characters that words are made of: all but blanks, line ends, and those that part values from
one another. -/
def isWordChar (c : Char) : Bool := !" \t\r\n=,#[]\x7b\x7d".toList.contains c

def splitSign : Text → Text × Text
  | '+' :: rest => (['+'], rest)
  | '-' :: rest => (['-'], rest)
  | s => ([], s)

/-- Digits of a base, with single underscores between digits allowed; gives the digits. -/
def underscored? (base : Nat) : Text → Option Text
  | [] => none
  | [c] => (digitValue? base c).map fun _ => [c]
  | c :: '_' :: rest => do
    let _ ← digitValue? base c
    pure (c :: (← underscored? base rest))
  | c :: rest => do
    let _ ← digitValue? base c
    pure (c :: (← underscored? base rest))

/-- The number that digits stand for. -/
def value (base : Nat) (digits : Text) : Nat := (ofDigits? base digits).getD 0

/-- Decimal digits without a needless zero in front. -/
def decimal? (s : Text) : Option Text := do
  let digits ← underscored? 10 s
  if digits.length > 1 ∧ digits.head? = some '0' then none else pure digits

/-- The bounds of integers of 128 bits, without a sign and with one. -/
def maxUnsigned : Nat := Nat.pow 2 128 - 1
def maxNegative : Nat := Nat.pow 2 127

/-- Whether the digits behind the mark of a base make a number in range. The mark alone is an
integer too, but one out of every range. -/
def based? (base : Nat) (s : Text) : Option Bool :=
  if s.isEmpty then some false
  else (underscored? base s).map fun digits => value base digits ≤ maxUnsigned

/-- Whether a text has the form of a decimal integer, but holds other characters than digits, so that
it is out of every range. Behind its first underscore, an integer is looked at only beside its
underscores, each of which must stand between hexadecimal digits. -/
def isStray (s : Text) : Bool :=
  let startsWithDigit (part : Text) : Bool := part.head?.any fun c => (digitValue? 16 c).isSome
  let endsWithDigit (part : Text) : Bool := part.getLast?.any fun c => (digitValue? 16 c).isSome
  match splitOn '_' s with
  | whole :: part :: parts =>
    (decimal? whole).isSome && whole.head? != some '0' &&
      (part :: parts).all startsWithDigit && (part :: parts).dropLast.all endsWithDigit &&
      s.all fun c => !" .eE".toList.contains c
  | _ => false

/-- Whether an integer is in range. -/
def integer? (s : Text) : Option Bool :=
  match s with
  | '0' :: 'x' :: rest => based? 16 rest
  | '0' :: 'o' :: rest => based? 8 rest
  | '0' :: 'b' :: rest => based? 2 rest
  | _ =>
    let (sign, rest) := splitSign s
    let bound := if sign = ['-'] then maxNegative else maxUnsigned
    match decimal? rest with
    | some digits => some (value 10 digits ≤ bound)
    | none => if isStray rest then some false else none

/-- The least number that rounds to infinity, halfway between the largest number of 53 binary digits
below `2 ^ 1024` and `2 ^ 1024` itself. -/
def overflow : Nat := Nat.pow 2 1024 - Nat.pow 2 970

/-- Whether `digits · 10 ^ exponent` does not round to infinity. -/
def isFinite (digits : Text) (exponent : Int) : Bool :=
  let n := value 10 digits
  let places := (Nat.toDigits 10 n).length
  if n = 0 then true
  else if (places : Int) + exponent > 400 then false
  else if (places : Int) + exponent < 300 then true
  else if 0 ≤ exponent then n * Nat.pow 10 exponent.toNat < overflow
  else n < overflow * Nat.pow 10 (-exponent).toNat

/-- The value of an exponent, with its sign; every digit string is one. -/
def exponent? (s : Text) : Option Int :=
  let (sign, rest) := splitSign s
  (underscored? 10 rest).map fun digits =>
    let n : Int := value 10 digits
    if sign = ['-'] then -n else n

/-- Whether a number with a fraction or an exponent is in range; infinities and the value that is no
number are. -/
def float? (s : Text) : Option Bool :=
  let (_, s) := splitSign s
  if s = "inf".toList ∨ s = "nan".toList then some true
  else
    let isMark (c : Char) : Bool := c == 'e' || c == 'E'
    let mantissa := s.takeWhile (!isMark ·)
    let exponent := (s.dropWhile (!isMark ·)).drop 1
    let hasExponent := mantissa.length < s.length
    let whole := mantissa.takeWhile (· != '.')
    let fraction := (mantissa.dropWhile (· != '.')).drop 1
    let hasFraction := whole.length < mantissa.length
    match decimal? whole, if hasFraction then underscored? 10 fraction else some [],
      if hasExponent then exponent? exponent else some 0 with
    | some whole, some fraction, some exponent =>
      if hasFraction || hasExponent then
        some (isFinite (whole ++ fraction) (exponent - fraction.length))
      else none
    | _, _, _ => none

/-- Skips a number of exactly two digits, in a range. -/
def twoDigits? (low high : Nat) : Text → Option Text
  | a :: b :: rest => do
    let n ← ofDigits? 10 [a, b]
    if low ≤ n ∧ n ≤ high then pure rest else none
  | _ => none

def isLeapYear (year : Nat) : Bool := year % 4 == 0 && (year % 100 != 0 || year % 400 == 0)

def daysOfMonth (year month : Nat) : Nat :=
  if month = 2 then if isLeapYear year then 29 else 28
  else if month = 4 ∨ month = 6 ∨ month = 9 ∨ month = 11 then 30
  else 31

/-- What follows a date. -/
def afterDate? : Text → Option Text
  | y₁ :: y₂ :: y₃ :: y₄ :: '-' :: m₁ :: m₂ :: '-' :: rest => do
    let year ← ofDigits? 10 [y₁, y₂, y₃, y₄]
    let month ← ofDigits? 10 [m₁, m₂]
    let _ ← twoDigits? 1 12 [m₁, m₂]
    twoDigits? 1 (daysOfMonth year month) rest
  | _ => none

/-- What follows a time; the seconds and their fraction may be left out. -/
def afterTime? (s : Text) : Option Text :=
  match twoDigits? 0 23 s with
  | some (':' :: rest) =>
    match twoDigits? 0 59 rest with
    | some (':' :: rest) =>
      match twoDigits? 0 60 rest with
      | some ('.' :: c :: rest) => if c.isDigit then some (rest.dropWhile Char.isDigit) else none
      | after => after
    | after => after
  | _ => none

def isOffset (s : Text) : Bool :=
  match s with
  | [] | ['Z'] | ['z'] => true
  | sign :: rest =>
    if sign = '+' ∨ sign = '-' then
      match twoDigits? 0 23 rest with
      | some (':' :: minutes) => twoDigits? 0 59 minutes == some []
      | _ => false
    else false

/-- A date, a time, or both with or without an offset. -/
def isDateTime (s : Text) : Bool :=
  match afterDate? s with
  | some [] => true
  | some (c :: rest) =>
    if c = 'T' ∨ c = 't' ∨ c = ' ' then (afterTime? rest).any isOffset else false
  | none => afterTime? s == some []

/-- Whether a scalar is in range; all are but some numbers. -/
def scalar? (s : Text) : Option Bool :=
  if s = "true".toList ∨ s = "false".toList ∨ isDateTime s then some true
  else
    match integer? s with
    | some inRange => some inRange
    | none => float? s

end Implementors.Toml.Scalar
