import Sic.Text.Number

/-!
# Addresses

An address is a signed 64-bit number.  The addresses that a source program leads to are small and
never negative, but the stages behind it also accept listings and records made by hand, and there an
address moved past the largest one comes out at the smallest: `Address.offset` is addition modulo
2^64 into the signed range.
-/

set_option autoImplicit false

namespace Sic

namespace Address

/-- The number of addresses. -/
def count : Nat := 0x10000000000000000

/-- The address `n` places behind `a`. -/
def offset (a n : Int) : Int := (a + n).bmod count

/-- An address as listings show it. -/
def text (a : Int) : Text := Text.hex 4 a

/-- An address as records and memory dumps show it. -/
def text₆ (a : Int) : Text := Text.hex 6 a

end Address

end Sic
