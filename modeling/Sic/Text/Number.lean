import Sic.Text.Basic

/-!
# Numbers in texts

Decimal and hexadecimal numbers as they are written into listings and records, and the readers of
the numbers that operands, records and options hold.

Hexadecimal output is in upper case and padded with zeros to a least width, which counts the sign of
a negative number.  Readers take digits in either case.
-/

set_option autoImplicit false

namespace Sic

namespace Text

/-! ## Writing -/

/-- The decimal digits of a natural number. -/
def decimalNat (n : Nat) : Text := (Nat.toDigits 10 n).map byte

/-- A number in decimal. -/
def decimal (n : Int) : Text :=
  if n < 0 then 0x2D :: decimalNat n.natAbs else decimalNat n.natAbs

/-- The hexadecimal digits of a natural number, in upper case. -/
def hexNat (n : Nat) : Text := (Nat.toDigits 16 n).map fun c => upper (byte c)

/-- A number in hexadecimal, at least `width` characters wide with its sign. -/
def hex (width : Nat) (n : Int) : Text :=
  if n < 0 then 0x2D :: (hexNat n.natAbs).leftpad (width - 1) 0x30
  else (hexNat n.natAbs).leftpad width 0x30

/-- A natural number in lower-case hexadecimal, at least `width` digits wide. -/
def hexLower (width n : Nat) : Text := ((Nat.toDigits 16 n).map byte).leftpad width 0x30

/-! ## Reading -/

/-- The value of a digit; letters count on from ten. -/
def digitValue? (b : UInt8) : Option Nat :=
  if 0x30 ≤ b && b ≤ 0x39 then some (b.toNat - 0x30)
  else if 0x61 ≤ lower b && lower b ≤ 0x7A then some ((lower b).toNat - 0x61 + 10)
  else none

/-- The number a non-empty sequence of digits writes in the given base. -/
def natOfDigits? (base : Nat) (t : Text) : Option Nat :=
  if t.isEmpty then none
  else
    t.foldlM (fun n b =>
      match digitValue? b with
      | some d => if d < base then some (n * base + d) else none
      | none => none) 0

/-- The sign of a number and what follows it; a number without a sign is positive. -/
def splitSign : Text → Bool × Text
  | 0x2B :: t => (false, t)
  | 0x2D :: t => (true, t)
  | t => (false, t)

/-- The number an optional sign and digits write in the given base. -/
def intOfDigits? (base : Nat) (t : Text) : Option Int :=
  match splitSign t with
  | (negative, digits) =>
    (natOfDigits? base digits).map fun n => if negative then -(n : Int) else n

/-- A number of at most 32 bits with an optional sign. -/
def int32OfDigits? (base : Nat) (t : Text) : Option Int :=
  (intOfDigits? base t).filter fun n => -2147483648 ≤ n && n ≤ 2147483647

/-- A hexadecimal number of at most 32 bits without a sign. -/
def word32OfHex? (t : Text) : Option Nat :=
  (natOfDigits? 16 t).filter (· < 4294967296)

/-! ## Numbers that show their base

An option's number may show its base: `0x`, `0o` or `0b` in either case, or a leading zero for octal.
An underscore may stand between two digits, or between the base and the first digit. -/

/-- Why a number could not be read. -/
inductive NumberFault where
  | syntaxError
  | outOfRange
deriving DecidableEq, Repr

/-- The base a number without sign shows, and its digits. -/
def splitBase : Text → Nat × Text
  | 0x30 :: b :: c :: t =>
    if lower b = 0x62 then (2, c :: t)
    else if lower b = 0x6F then (8, c :: t)
    else if lower b = 0x78 then (16, c :: t)
    else (8, b :: c :: t)
  | 0x30 :: t => (8, t)
  | t => (10, t)

/-- Whether each underscore stands behind a digit (or the base) and before another digit.  `after` is
the class of what stood before: a digit, an underscore, or anything else. -/
def underscoresOk (hex : Bool) (after : Option Bool) : Text → Bool
  | [] => after != some false
  | b :: t =>
    if isDigit b || (hex && 0x61 ≤ lower b && lower b ≤ 0x66) then underscoresOk hex (some true) t
    else if b = 0x5F then after == some true && underscoresOk hex (some false) t
    else after != some false && underscoresOk hex none t

/-- Whether the underscores of a number that may show its base are well placed. -/
def numberUnderscoresOk (t : Text) : Bool :=
  match (splitSign t).2 with
  | 0x30 :: b :: t =>
    if lower b = 0x62 || lower b = 0x6F then underscoresOk false (some true) t
    else if lower b = 0x78 then underscoresOk true (some true) t
    else underscoresOk false none (0x30 :: b :: t)
  | t => underscoresOk false none t

/-- The value of digits with underscores among them; out of range as soon as it reaches `bound`. -/
def digitsBelow (base bound : Nat) (n : Nat) : Text → Except NumberFault Nat
  | [] => .ok n
  | b :: t =>
    if b = 0x5F then digitsBelow base bound n t
    else
      match digitValue? b with
      | none => .error .syntaxError
      | some d =>
        if base ≤ d then .error .syntaxError
        else if bound ≤ n * base + d then .error .outOfRange
        else digitsBelow base bound (n * base + d) t

/-- A natural number below 2^64 that may show its base. -/
def nat64? (t : Text) : Except NumberFault Nat :=
  match t with
  | [] => .error .syntaxError
  | _ =>
    match splitBase t with
    | (base, digits) =>
      match digitsBelow base 0x10000000000000000 0 digits with
      | .error e => .error e
      | .ok n =>
        if digits.contains 0x5F && !numberUnderscoresOk t then .error .syntaxError else .ok n

/-- A signed 64-bit number that may show its base. -/
def int64? (t : Text) : Except NumberFault Int :=
  match splitSign t with
  | (negative, digits) =>
    match nat64? digits with
    | .error e => .error e
    | .ok n =>
      if negative then if n ≤ 0x8000000000000000 then .ok (-(n : Int)) else .error .outOfRange
      else if n < 0x8000000000000000 then .ok n else .error .outOfRange

end Text

end Sic
