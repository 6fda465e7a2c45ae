import Sic.Error
import Sic.Text.Hex

/-!
# Operands

How the operands of directives are read: the address a program starts at, the counts of reserved
storage, the value of a word, and the literals that give bytes.

A literal is `C'…'`, one byte of storage for every byte between the quotes, or `X'…'`, one byte for
every two hexadecimal digits; the letter may be in either case.
-/

set_option autoImplicit false

namespace Sic

/-- The bytes a literal gives. -/
inductive ByteLiteral where
  /-- The bytes as they stand in the source. -/
  | characters (value : Text)
  /-- The bytes as pairs of hexadecimal digits. -/
  | hexadecimal (digits : Text)
deriving DecidableEq, Repr

namespace ByteLiteral

/-- How many bytes a literal gives. -/
def size : ByteLiteral → Nat
  | .characters value => value.length
  | .hexadecimal digits => digits.length / 2

/-- The bytes of a literal in upper-case hexadecimal. -/
def code : ByteLiteral → Text
  | .characters value => Text.toHex value
  | .hexadecimal digits => digits.map Text.upper

/-- What stands between the quotes of a literal, with the letter before them. -/
def split? : Text → Option (UInt8 × Text)
  | kind :: 0x27 :: rest =>
    if rest.getLast? = some 0x27 then some (Text.upper kind, rest.dropLast) else none
  | _ => none

/-- Reads a literal. -/
def parse (t : Text) : Except OperandFault ByteLiteral :=
  match split? t with
  | some (0x43, value) =>
    if value.isEmpty then .error .noCharacters else .ok (.characters value)
  | some (0x58, digits) =>
    if digits.isEmpty || digits.length % 2 ≠ 0 then .error .digitCount
    else if digits.all Text.isHexDigit then .ok (.hexadecimal digits)
    else .error .badDigit
  | _ => .error .notALiteral

end ByteLiteral

namespace Statement

/-- The error of a statement whose operand cannot be used. -/
def badOperand (s : Statement) (role : OperandRole) (form : OperandForm) (fault : OperandFault) :
    ProgramError :=
  .badOperand ⟨s.line, s.source, role, form, s.operand, fault⟩

/-- The operand as a decimal number of at most 32 bits. -/
def number (s : Statement) (role : OperandRole) : Except ProgramError Int :=
  match Text.int32OfDigits? 10 s.operand with
  | some n => .ok n
  | none => .error (s.badOperand role .decimal .notANumber)

/-- The operand as a count. -/
def count (s : Statement) (role : OperandRole) : Except ProgramError Nat :=
  match s.number role with
  | .error e => .error e
  | .ok n => if n < 0 then .error (s.badOperand role .decimal .negativeCount) else .ok n.toNat

/-- The operand as the address that the program starts at. -/
def startAddress (s : Statement) : Except ProgramError Int :=
  match Text.int32OfDigits? 16 s.operand with
  | none => .error (s.badOperand .startAddress .hexadecimal .notANumber)
  | some a =>
    if a < 0 then .error (s.badOperand .startAddress .hexadecimal .negativeAddress) else .ok a

/-- The operand as a value that a word can hold, with or without a sign. -/
def wordValue (s : Statement) : Except ProgramError Int :=
  match s.number .wordValue with
  | .error e => .error e
  | .ok n =>
    if -8388608 ≤ n ∧ n ≤ 16777215 then .ok n
    else .error (s.badOperand .wordValue .decimal .wordTooWide)

/-- The operand as a literal. -/
def byteLiteral (s : Statement) : Except ProgramError ByteLiteral :=
  match ByteLiteral.parse s.operand with
  | .ok l => .ok l
  | .error fault => .error (s.badOperand .byteLiteral .literal fault)

end Statement

end Sic
