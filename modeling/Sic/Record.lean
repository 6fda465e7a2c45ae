import Sic.Address
import Sic.Text.Glyph

/-!
# Records of an object program

An object program is a sequence of records, one a line.  A header record gives the program's name,
its start and its length; text records give code and the address it goes to; an end record gives the
address where execution begins.  A dump record, which is no part of an object program, shows the
code of one statement.

The fields of a record are divided by `^`.  A text record counts its bytes before it lists them, in
as many pieces as it was packed from.
-/

set_option autoImplicit false

namespace Sic

/-- Code, in pieces of hexadecimal digits, and the address it goes to. -/
structure TextRecord where
  start : Int
  codes : List Text
deriving DecidableEq, Repr

/-- How many bytes a text record carries. -/
def TextRecord.length (r : TextRecord) : Nat :=
  r.codes.foldr (fun code n => code.length / 2 + n) 0

/-- A record. -/
inductive Record where
  | header (name : Text) (start length : Int)
  | text (r : TextRecord)
  | entry (address : Int)
  | dump (address : Int) (code : Text)
deriving DecidableEq, Repr

namespace Record

/-- The letter of a kind of record. -/
def letter : Record → UInt8
  | .header .. => 0x48
  | .text _ => 0x54
  | .entry _ => 0x45
  | .dump .. => 0x44

/-- A record as a line of an object program. -/
def line : Record → Text
  | .header name start length =>
    Text.join "^" ["H", Text.column 6 name, Address.text₆ start, Address.text₆ length]
  | .text r => Text.join "^" ("T" :: Address.text₆ r.start :: Text.hex 2 r.length :: r.codes)
  | .entry address => Text.join "^" ["E", Text.hex 0 address]
  | .dump address code => Address.text address ++ "\t" ++ code

/-- Records as the text of an object program. -/
def program (rs : List Record) : Text := Text.unlines (rs.map line)

end Record

end Sic
