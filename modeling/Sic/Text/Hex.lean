import Sic.Text.Number

/-!
# Bytes in hexadecimal

Object code is written as pairs of hexadecimal digits, the high half of each byte first.
`Text.toHex` writes upper case; `Text.ofHex` reads either case, and says what is wrong with a text
that is no sequence of pairs: its first byte that is no digit or, if there is none, that one digit
is left over.
-/

set_option autoImplicit false

namespace Sic

/-- What is wrong with a text that does not write bytes in hexadecimal. -/
inductive HexFault where
  | badByte (b : UInt8)
  | oddLength
deriving DecidableEq, Repr

namespace Text

/-- The value of a hexadecimal digit. -/
def hexValue? (b : UInt8) : Option Nat := (digitValue? b).filter (· < 16)

/-- Whether a byte is a hexadecimal digit. -/
def isHexDigit (b : UInt8) : Bool := (hexValue? b).isSome

/-- A non-empty sequence of hexadecimal digits. -/
def isHexNumber (t : Text) : Bool := !t.isEmpty && t.all isHexDigit

/-- The byte a pair of hexadecimal digits writes. -/
def byteOfPair (a b : UInt8) : UInt8 :=
  (((hexValue? a).getD 0) * 16 + (hexValue? b).getD 0).toUInt8

/-- The bytes that pairs of digits write, two digits at a time. -/
def pairs : Text → List UInt8
  | a :: b :: t => byteOfPair a b :: pairs t
  | _ => []

/-- The bytes a text writes in hexadecimal. -/
def ofHex (t : Text) : Except HexFault (List UInt8) :=
  match t.find? (!isHexDigit ·) with
  | some b => .error (.badByte b)
  | none => if t.length % 2 = 0 then .ok (pairs t) else .error .oddLength

/-- Bytes in upper-case hexadecimal. -/
def toHex (bs : List UInt8) : Text := bs.flatMap fun b => hex 2 b.toNat

end Text

end Sic
