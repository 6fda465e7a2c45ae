import Sic.Record
import Sic.Text.Quoted
import Std.Data.TreeMap

/-!
# Memory images

Loading an object program puts the bytes of its text records into memory.  The program must begin
with its header and end with its end record, and every text record must lie within the storage that
the header declares.  Where two records cover an address the later one counts.

A dump of an image shows its memory in rows of sixteen bytes; rows without any byte are left out.
-/

set_option autoImplicit false

namespace Sic

/-- A loaded program. -/
structure Image where
  name : Text
  start : Int
  length : Int
  entry : Int
  memory : Std.TreeMap Int UInt8

/-- Why an object program cannot be loaded. -/
inductive LoadError where
  | tooShort
  | noHeader (letter : UInt8)
  | noEntry (letter : UInt8)
  | notText (letter : UInt8)
  /-- A text record with the storage of the program it does not lie in. -/
  | outside (record : TextRecord) (first last : Int)
  | badCode (code : Text) (start : Int) (fault : HexFault)
deriving DecidableEq, Repr

/-- Why an object program cannot be loaded, in words. -/
def LoadError.message : LoadError → Text
  | .tooShort => "object program needs a header and an end record"
  | .noHeader letter => "first record is " ++ [letter] ++ ", not H"
  | .noEntry letter => "last record is " ++ [letter] ++ ", not E"
  | .notText letter => "unexpected " ++ [letter] ++ " record inside program"
  | .outside record first last =>
    "text record at " ++ Address.text₆ record.start ++ " (" ++ Text.decimalNat record.length ++
      " bytes) outside program " ++ Address.text₆ first ++ "-" ++ Address.text₆ last
  | .badCode code start fault =>
    "bad object code " ++ Text.quoted code ++ " in text record at " ++ Address.text₆ start ++
      ": " ++ fault.message

/-- The bytes of a piece of code in a text record at an address. -/
def TextRecord.codeBytes (start : Int) (code : Text) : Except LoadError (List UInt8) :=
  match Text.ofHex code with
  | .ok bytes => .ok bytes
  | .error fault => .error (.badCode code start fault)

/-- The bytes a text record carries. -/
def TextRecord.bytes (r : TextRecord) : Except LoadError (List UInt8) :=
  (r.codes.mapM (codeBytes r.start)).map List.flatten

namespace Image

/-- Puts bytes into memory from an address on. -/
def store (memory : Std.TreeMap Int UInt8) (address : Int) (bytes : List UInt8) :
    Std.TreeMap Int UInt8 :=
  bytes.zipIdx.foldl (fun memory (b, i) => memory.insert (Address.offset address i) b) memory

/-- Loads a record from inside a program. -/
def loadRecord (start length : Int) (memory : Std.TreeMap Int UInt8) :
    Record → Except LoadError (Std.TreeMap Int UInt8)
  | .text r =>
    let last := Address.offset start length
    if r.start < start || last < Address.offset r.start r.length then
      .error (.outside r start last)
    else r.bytes.map (store memory r.start)
  | record => .error (.notText record.letter)

/-- Loads an object program. -/
def load (records : List Record) : Except LoadError Image :=
  match records with
  | first :: second :: rest =>
    match first with
    | .header name start length =>
      match (second :: rest).getLast? with
      | some (.entry entry) =>
        ((second :: rest).dropLast.foldlM (loadRecord start length) ∅).map fun memory =>
          ⟨name, start, length, entry, memory⟩
      | some record => .error (.noEntry record.letter)
      | none => .error .tooShort
    | record => .error (.noHeader record.letter)
  | _ => .error .tooShort

/-! ## Dumps -/

/-- The address of the row that an address is in. -/
def rowOf (address : Int) : Int := address - address % 16

/-- The addresses of the rows that hold a byte, in order. -/
def rows (image : Image) : List Int := (image.memory.keys.map rowOf).eraseReps

/-- A cell of a row. -/
def cellText : Option UInt8 → Text
  | some b => " " ++ Text.hex 2 b.toNat
  | none => " .."

/-- A row, by its address. -/
def rowText (image : Image) (row : Int) : Text :=
  Address.text₆ row ++ " " ++
    (List.range 16).flatMap fun i : Nat => cellText image.memory[row + (i : Int)]?

/-- The dump of an image. -/
def dump (image : Image) : Text :=
  Text.unlines
    ((image.name ++ " start " ++ Address.text₆ image.start ++ " length " ++
        Address.text₆ image.length ++ " entry " ++ Address.text₆ image.entry) ::
      image.rows.map image.rowText)

end Image

end Sic
