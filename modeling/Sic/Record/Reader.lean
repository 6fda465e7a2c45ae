import Sic.ErrorList
import Sic.Record
import Sic.Text.Blank
import Sic.Text.Quoted

/-!
# Reading object programs

The text of an object program is read line by line into records.  White space around a line and
blank lines do not matter.  Reading goes on behind a bad line, so that all bad lines are reported.
-/

set_option autoImplicit false

namespace Sic

/-- The kinds of records an object program can hold. -/
inductive RecordKind where
  | header
  | text
  | entry
deriving DecidableEq, Repr

/-- The numbers in records. -/
inductive RecordNumber where
  | startAddress
  | length
  | byteCount
  | entryAddress
deriving DecidableEq, Repr

/-- What is wrong with a line of an object program. -/
inductive RecordFault where
  | fieldCount (kind : RecordKind) (count : Nat)
  | badNumber (number : RecordNumber) (field : Text)
  | badCode (code : Text) (fault : HexFault)
  /-- The bytes that a text record at an address declares, and those it carries. -/
  | byteCount (start : Int) (declared carried : Nat)
  | unknownKind (field : Text)
deriving DecidableEq, Repr

/-- A number of a record, in words. -/
def RecordNumber.text : RecordNumber → Text
  | .startAddress => "start address"
  | .length => "length"
  | .byteCount => "byte count"
  | .entryAddress => "entry address"

/-- What is wrong with a line of an object program, in words. -/
def RecordFault.message : RecordFault → Text
  | .fieldCount .header n => "header record needs 4 fields, has " ++ Text.decimalNat n
  | .fieldCount .text n => "text record needs at least 3 fields, has " ++ Text.decimalNat n
  | .fieldCount .entry n => "end record needs 2 fields, has " ++ Text.decimalNat n
  | .badNumber number field => "bad " ++ number.text ++ " " ++ Text.quoted field
  | .badCode code fault => "bad object code " ++ Text.quoted code ++ ": " ++ fault.message
  | .byteCount start declared carried =>
    "text record at " ++ Address.text₆ start ++ " declares " ++ Text.decimalNat declared ++
      " bytes, carries " ++ Text.decimalNat carried
  | .unknownKind field => "unknown record type " ++ Text.quoted field

namespace Record

/-- Reads a number of a record. -/
def number (number : RecordNumber) (field : Text) : Except RecordFault Nat :=
  match Text.word32OfHex? field with
  | some n => .ok n
  | none => .error (.badNumber number field)

/-- The first piece of code that is not hexadecimal, and why. -/
def badCode? (codes : List Text) : Option (Text × HexFault) :=
  codes.findSome? fun code =>
    match Text.ofHex code with
    | .ok _ => none
    | .error fault => some (code, fault)

/-- Reads the fields of a header record. -/
def headerOfFields (name start length : Text) : Except RecordFault Record := do
  let start ← number .startAddress start
  let length ← number .length length
  return .header (Text.dropSpacesRight name) start length

/-- Reads the fields of a text record. -/
def textOfFields (start count : Text) (codes : List Text) : Except RecordFault Record := do
  let start ← number .startAddress start
  let count ← number .byteCount count
  match badCode? codes with
  | some (code, fault) => throw (.badCode code fault)
  | none =>
    let record : TextRecord := ⟨start, codes⟩
    if record.length = count then return .text record
    else throw (.byteCount start count record.length)

/-- Reads the field of an end record. -/
def entryOfField (address : Text) : Except RecordFault Record := do
  let address ← number .entryAddress address
  return .entry address

/-- Reads the fields of a record. -/
def ofFields (fields : List Text) : Except RecordFault Record :=
  match fields with
  | [0x48] :: rest =>
    match rest with
    | [name, start, length] => headerOfFields name start length
    | _ => .error (.fieldCount .header fields.length)
  | [0x54] :: rest =>
    match rest with
    | start :: count :: codes => textOfFields start count codes
    | _ => .error (.fieldCount .text fields.length)
  | [0x45] :: rest =>
    match rest with
    | [address] => entryOfField address
    | _ => .error (.fieldCount .entry fields.length)
  | field :: _ => .error (.unknownKind field)
  | [] => .error (.unknownKind [])

/-- Reads a line without white space around it. -/
def ofLine (line : Text) : Except RecordFault Record := ofFields (line.splitOn 0x5E)

/-- What the lines of an object program say, with their numbers. -/
def readLines (t : Text) : List (Nat × Except RecordFault Record) :=
  (t.lines.zipIdx 1).filterMap fun (line, n) =>
    let line := line.trim
    if line.isEmpty then none else some (n, ofLine line)

/-- The bad lines of an object program, with their numbers. -/
def badLines (ls : List (Nat × Except RecordFault Record)) : List (Nat × RecordFault) :=
  ls.filterMap fun
    | (n, .error fault) => some (n, fault)
    | (_, .ok _) => none

/-- The records of an object program. -/
def goodLines (ls : List (Nat × Except RecordFault Record)) : List Record :=
  ls.filterMap fun
    | (_, .error _) => none
    | (_, .ok record) => some record

/-- Reads an object program, or says which of its lines are bad. -/
def parse (t : Text) : Except (List (Nat × RecordFault)) (List Record) :=
  let ls := readLines t
  match badLines ls with
  | [] => .ok (goodLines ls)
  | bad => .error bad

/-- The wording of the bad lines of an object program. -/
def badLinesMessage (bad : List (Nat × RecordFault)) : Text :=
  errorList (bad.map fun (n, fault) => "line " ++ Text.decimalNat n ++ ": " ++ fault.message)

end Record

end Sic
