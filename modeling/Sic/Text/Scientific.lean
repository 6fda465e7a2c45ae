import Sic.Text.Number

/-!
# Decimal fractions and powers of ten

Numbers written with a fraction or a power of ten.  The assembler computes with none of them, but it
has to tell which texts write one, and which of those are too large for a 64-bit floating point
number.
-/

set_option autoImplicit false

namespace Sic

/-- The number `0.digits · 10 ^ point`, where the first digit is not zero. -/
structure Scientific where
  digits : Text
  point : Int
deriving DecidableEq, Repr

namespace Scientific

/-- Half a unit above the largest 64-bit floating point number: what is not below it is rounded to
infinity. -/
def float64Bound : Nat := Nat.pow 2 1024 - Nat.pow 2 970

/-- How many digits the bound has. -/
def float64Digits : Nat := 309

/-- The number, cut down to an integer, if it has as many digits as the bound. -/
def leading (s : Scientific) : Nat :=
  let digits := s.digits.take float64Digits
  (Text.natOfDigits? 10 (digits ++ List.replicate (float64Digits - digits.length) 0x30)).getD 0

/-- Whether the number is too large for 64 bits. -/
def overflows (s : Scientific) : Bool :=
  if s.digits.isEmpty then false
  else if s.point = float64Digits then float64Bound ≤ s.leading
  else (float64Digits : Int) < s.point

end Scientific

namespace Text

/-- The bound up to which digits of a power of ten are read. -/
def exponentBound : Nat := 10000

/-- The number that digits of a power of ten write.  Once it has reached the bound, no further
digits are read. -/
def exponentOfDigits (t : Text) : Nat :=
  t.foldl (fun n b => if n < exponentBound then n * 10 + (b.toNat - 0x30) else n) 0

/-- The power of ten behind the digits of a number. -/
def exponent? : Text → Option Int
  | [] => some 0
  | b :: t =>
    match splitSign t with
    | (negative, digits) =>
      if lower b = 0x65 && !digits.isEmpty && digits.all isDigit then
        some (if negative then -(exponentOfDigits digits : Int) else exponentOfDigits digits)
      else none

/-- The digits of a fraction, and what follows them. -/
def splitFraction : Text → Text × Text
  | 0x2E :: t => (t.takeWhile isDigit, t.dropWhile isDigit)
  | t => ([], t)

/-- Reads an optional sign, digits that may hold a point, and an optional power of ten. -/
def scientific? (t : Text) : Option Scientific :=
  let t := (splitSign t).2
  let whole := t.takeWhile isDigit
  let (fraction, rest) := splitFraction (t.dropWhile isDigit)
  let written := whole ++ fraction
  let digits := written.dropWhile (· == 0x30)
  match exponent? rest with
  | some e =>
    if written.isEmpty then none
    else some ⟨digits, whole.length - (written.length - digits.length : Nat) + e⟩
  | none => none

/-- Whether a text writes a 64-bit floating point number. -/
def isFloat64 (t : Text) : Bool :=
  match scientific? t with
  | some s => !s.overflows
  | none => false

end Text

end Sic
