import Sic.Text.Blank
import Sic.Text.Hex
import Std.Data.TreeMap

/-!
# Opcode tables

An opcode table gives the hexadecimal code of every instruction the machine knows.  It is read from
a text with a mnemonic and a code on each line; any other line is passed over, and a mnemonic given
twice has the later code.  A line that is 64 KiB long or longer ends the table.
-/

set_option autoImplicit false

namespace Sic

/-- The instructions of a machine with their codes. -/
structure OpcodeTable where
  codes : Std.TreeMap Text Text

namespace OpcodeTable

/-- The table without instructions. -/
def empty : OpcodeTable := ⟨∅⟩

/-- The code of an instruction. -/
def lookup (t : OpcodeTable) (mnemonic : Text) : Option Text := t.codes[mnemonic]?

/-- Whether a word names an instruction. -/
def contains (t : OpcodeTable) (mnemonic : Text) : Bool := (t.lookup mnemonic).isSome

/-- The number of instructions. -/
def size (t : OpcodeTable) : Nat := t.codes.size

/-- The instructions with their codes, ordered by mnemonic. -/
def toList (t : OpcodeTable) : List (Text × Text) := t.codes.toList

/-- The mnemonics in order. -/
def mnemonics (t : OpcodeTable) : List Text := t.codes.keys

/-- The table as a text that reads back as the same table. -/
def text (t : OpcodeTable) : Text :=
  Text.unlines (t.toList.map fun (mnemonic, code) => mnemonic ++ "\t" ++ code)

/-! ## Reading a table -/

/-- What a line of a table says. -/
inductive Line where
  | blank
  | entry (mnemonic code : Text)
  /-- A line without exactly two fields. -/
  | malformed (line : Text)
  /-- A code that is not hexadecimal. -/
  | badCode (code : Text)
deriving DecidableEq, Repr

/-- Reads a line of a table. -/
def Line.parse (t : Text) : Line :=
  match t.fields with
  | [] => .blank
  | [mnemonic, code] => if Text.isHexNumber code then .entry mnemonic code else .badCode code
  | _ => .malformed t

/-- The length at which a line ends the table. -/
def lineLimit : Nat := 65536

/-- A line without a carriage return at its end. -/
def dropReturn (t : Text) : Text := if t.getLast? = some 0x0D then t.dropLast else t

/-- The lines of a table up to one that is too long.  What follows the last line feed is a line only
if it is not empty. -/
def sourceLines (t : Text) : List Text :=
  let ls := t.lines
  let ls := if ls.getLast? = some [] then ls.dropLast else ls
  (ls.takeWhile (·.length < lineLimit)).map dropReturn

/-- The table's lines as read. -/
def parsedLines (t : Text) : List Line := (sourceLines t).map Line.parse

/-- Adds what a line says. -/
def addLine (t : OpcodeTable) : Line → OpcodeTable
  | .entry mnemonic code => ⟨t.codes.insert mnemonic code⟩
  | _ => t

/-- Reads a table in the place of another, of which nothing stays. -/
def load (t : OpcodeTable) (source : Text) : OpcodeTable :=
  (parsedLines source).foldl addLine { t with codes := ∅ }

/-- Reads a table. -/
def parse (source : Text) : OpcodeTable := empty.load source

/-- The wording of a failure to read the text of a table. -/
def readFailure (message : Text) : Text := "reading opcode table: " ++ message

end OpcodeTable

end Sic
