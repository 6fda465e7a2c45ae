/-!
# Texts

A source program, an opcode table and an object program are sequences of bytes.  Most of them are
UTF-8, but nothing rests on that: a label may hold any byte that is not white space, a character
literal occupies as many bytes of storage as it has bytes in the source, and two names are compared
byte by byte.  So a `Text` is a list of bytes, and characters are a view of it (`Text.glyphs`).

The words the assembler itself knows and writes are ASCII, and are given as string literals.
-/

set_option autoImplicit false

namespace Sic

/-- A text: a sequence of bytes, which need not be valid UTF-8. -/
abbrev Text := List UInt8

namespace Text

/-- The byte of an ASCII character. -/
def byte (c : Char) : UInt8 := c.toNat.toUInt8

/-- The bytes of an ASCII literal. -/
def ofAscii (s : String) : Text := s.toList.map byte

instance : Coe String Text := ⟨ofAscii⟩

/-- The lines of a text: what stands before, between and after its line feeds. -/
def lines (t : Text) : List Text := t.splitOn 0x0A

/-- Each text as a line of its own. -/
def unlines (ts : List Text) : Text := ts.flatMap (· ++ "\n")

/-- The texts one after the other, with `sep` between neighbours. -/
def join (sep : Text) (ts : List Text) : Text := List.intercalate sep ts

/-- A field on the left of a column at least `width` wide. -/
def padRight (width length : Nat) (t : Text) : Text :=
  t ++ List.replicate (width - length) 0x20

/-- An ASCII decimal digit. -/
def isDigit (b : UInt8) : Bool := 0x30 ≤ b && b ≤ 0x39

/-- An ASCII letter in its lower case; any other byte as it is. -/
def lower (b : UInt8) : UInt8 := if 0x41 ≤ b && b ≤ 0x5A then b + 0x20 else b

/-- An ASCII letter in its upper case; any other byte as it is. -/
def upper (b : UInt8) : UInt8 := if 0x61 ≤ b && b ≤ 0x7A then b - 0x20 else b

end Text

end Sic
