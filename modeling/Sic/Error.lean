import Sic.Address
import Sic.Statement
import Sic.Text.Quoted

/-!
# What can be wrong with a program

The causes for which laying out or encoding a program fails, and their wording.  Every one of them
names the line it arises in.
-/

set_option autoImplicit false

namespace Sic

/-- What an operand was to be read as. -/
inductive OperandRole where
  | startAddress
  | wordCount
  | byteCount
  | wordValue
  | byteLiteral
  | address
  /-- A role in the caller's own words. -/
  | named (text : Text)
deriving DecidableEq, Repr

/-- How an operand was to be written. -/
inductive OperandForm where
  | literal
  | decimal
  | hexadecimal
deriving DecidableEq, Repr

/-- What is wrong with an operand. -/
inductive OperandFault where
  | notANumber
  | negativeAddress
  | negativeCount
  | wordTooWide
  | addressTooLarge
  | notALiteral
  | noCharacters
  | digitCount
  | badDigit
  /-- A fault in the caller's own words. -/
  | described (text : Text)
deriving DecidableEq, Repr

/-- An operand that cannot be used. -/
structure BadOperand where
  line : Int
  source : Text
  role : OperandRole
  form : OperandForm
  value : Text
  fault : OperandFault
deriving DecidableEq, Repr

/-- A reference to a symbol that nothing defines, with the line and address of the statement that
makes it. -/
structure Reference where
  symbol : Text
  line : Int
  address : Int
deriving DecidableEq, Repr

/-- Why a program cannot be laid out or encoded. -/
inductive ProgramError where
  | badOperand (e : BadOperand)
  /-- A symbol defined again, with the address it had. -/
  | duplicate (symbol : Text) (line previous : Int)
  | undefined (r : Reference)
deriving DecidableEq, Repr

/-- The role of an operand, in words. -/
def OperandRole.text : OperandRole → Text
  | .startAddress => "START address"
  | .wordCount => "RESW count"
  | .byteCount => "RESB count"
  | .wordValue => "WORD value"
  | .byteLiteral => "BYTE literal"
  | .address => "address"
  | .named t => t

/-- The form of an operand, in words. -/
def OperandForm.text : OperandForm → Text
  | .literal => "literal"
  | .decimal => "decimal"
  | .hexadecimal => "hexadecimal"

/-- The fault of an operand, in words. -/
def OperandFault.text : OperandFault → Text
  | .notANumber => "not a valid number"
  | .negativeAddress => "address must not be negative"
  | .negativeCount => "count must not be negative"
  | .wordTooWide => "does not fit in 24 bits"
  | .addressTooLarge => "address out of range"
  | .notALiteral => "expected C'...' or X'...'"
  | .noCharacters => "empty character literal"
  | .digitCount => "hex literal needs an even, non-zero number of digits"
  | .badDigit => "invalid hex digit"
  | .described t => t

/-- The wording of an operand that cannot be used. -/
def BadOperand.message (e : BadOperand) : Text :=
  "line " ++ Text.decimal e.line ++ ": malformed " ++ e.role.text ++ " operand " ++
    Text.quoted e.value ++ " (expected " ++ e.form.text ++ "): " ++ e.fault.text ++
    " [" ++ e.source ++ "]"

/-- The wording of a program error. -/
def ProgramError.message : ProgramError → Text
  | .badOperand e => e.message
  | .duplicate symbol line previous =>
    "line " ++ Text.decimal line ++ ": duplicate symbol " ++ Text.quoted symbol ++
      " (already defined at " ++ Address.text previous ++ ")"
  | .undefined r =>
    "line " ++ Text.decimal r.line ++ ": undefined symbol " ++ Text.quoted r.symbol

end Sic
