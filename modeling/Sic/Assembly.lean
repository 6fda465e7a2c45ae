import Sic.ErrorList
import Sic.Packing

/-!
# Assembly

Assembling a source program against an opcode table lays it out, encodes it and emits the records of
its object program.
-/

set_option autoImplicit false

namespace Sic

/-- How programs are assembled. -/
structure Options where
  emitter : Emitter
  /-- Whether a symbol defined again is an error. -/
  rejectDuplicates : Bool
  /-- Whether a reference to an undefined symbol is an error. -/
  rejectUndefined : Bool

namespace Packing

/-- The usual capacity of a text record, as a setting. -/
def usualBytes : Int := 30

/-- Packing as settings ask for it. -/
def ofSettings (maxBytes : Int) (breakAtGaps : Bool) : Packing :=
  ⟨Capacity.ofSetting maxBytes, breakAtGaps⟩

/-- Records of the usual capacity that break at gaps. -/
def usual : Packing := ofSettings usualBytes true

end Packing

/-- A program laid out and encoded, with its records and its references to nothing. -/
structure Assembly where
  layout : Layout
  listing : List Listed
  records : List Record
  undefined : List Reference

/-- Why a source program cannot be assembled. -/
inductive AssemblyError where
  | noSource
  | noTable
  | neither
  | layout (e : ProgramError)
  | encoding (e : ProgramError)
deriving DecidableEq, Repr

/-- The wording of a missing source program. -/
def AssemblyError.noSourceText : Text := "no source program loaded"

/-- The wording of a missing opcode table. -/
def AssemblyError.noTableText : Text := "no opcode table loaded"

/-- Why a source program cannot be assembled, in words. -/
def AssemblyError.message : AssemblyError → Text
  | .noSource => errorList [noSourceText]
  | .noTable => errorList [noTableText]
  | .neither => errorList [noSourceText, noTableText]
  | .layout e => "pass 1: " ++ e.message
  | .encoding e => "pass 2: " ++ e.message

namespace Assembly

/-- Encodes a layout and emits its records. -/
def ofLayout (options : Options) (table : OpcodeTable) (layout : Layout) :
    Except ProgramError Assembly :=
  match layout.encode options.rejectUndefined table with
  | .error e => .error e
  | .ok listing =>
    .ok ⟨layout, listing, options.emitter.emit layout.program listing,
      layout.undefinedReferences table⟩

/-- Assembles a source program. -/
def assemble (options : Options) (table : Option OpcodeTable) (source : Text) :
    Except AssemblyError Assembly :=
  match table with
  | none => .error (if source.isBlank then .neither else .noTable)
  | some table =>
    if source.isBlank then .error .noSource
    else
      match Layout.ofSource options.rejectDuplicates table source with
      | .error e => .error (.layout e)
      | .ok layout =>
        match ofLayout options table layout with
        | .error e => .error (.encoding e)
        | .ok assembly => .ok assembly

/-- The program that was assembled. -/
def program (a : Assembly) : Program := a.layout.program

/-- The listing with object code. -/
def outputListing (a : Assembly) : Text := Listed.listing a.listing

/-- The object program. -/
def objectProgram (a : Assembly) : Text := Record.program a.records

end Assembly

end Sic
