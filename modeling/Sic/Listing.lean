import Sic.Layout

/-!
# Listings

Encoding a layout gives every statement its object code, in hexadecimal.  An instruction's code is
the code of its mnemonic followed by the address that its operand stands for; a directive's code is
its data, if it has any.  The listing ends with the statement that ends the program.

An operand stands for the address of the symbol of that name or, if there is none and it is made of
decimal digits, for the address it writes.  Any other operand refers to nothing.  It stands for
address zero, unless such references are rejected.
-/

set_option autoImplicit false

namespace Sic

/-- A placed statement with its object code. -/
structure Listed extends Placed where
  code : Text
deriving DecidableEq, Repr

/-- What the operand of an instruction stands for. -/
inductive Target where
  | address (a : Int)
  /-- A number that is no address. -/
  | outOfRange
  | undefined
deriving DecidableEq, Repr

/-- The largest address an instruction can hold. -/
def maxOperandAddress : Nat := 0xFFFF

namespace Statement

/-- What the operand stands for as an instruction's operand. -/
def target (symbols : SymbolTable) (s : Statement) : Target :=
  if s.operand = absent then .address 0
  else
    match symbols.lookup s.operand with
    | some a => .address a
    | none =>
      if !s.operand.isEmpty && s.operand.all Text.isDigit then
        match Text.natOfDigits? 10 s.operand with
        | some n => if n ≤ maxOperandAddress then .address n else .outOfRange
        | none => .outOfRange
      else .undefined

/-- The data of a directive. -/
def directiveCode (s : Statement) : Except ProgramError Text :=
  match s.directive? with
  | some .word => s.wordValue.map fun n => Text.hex 6 (n % 16777216)
  | some .bytes => s.byteLiteral.map ByteLiteral.code
  | _ => .ok []

end Statement

/-- Object code with whole bytes: an odd number of digits gets a zero before them. -/
def evenDigits (code : Text) : Text := if code.length % 2 = 0 then code else 0x30 :: code

/-- The code of an instruction for a target address. -/
def instructionCode (code : Text) (target : Int) : Text := evenDigits (code ++ Address.text target)

namespace Placed

/-- The reference a placed statement makes. -/
def reference (p : Placed) : Reference := ⟨p.operand, p.line, p.address⟩

/-- The reference of a placed instruction whose operand refers to nothing. -/
def undefinedReference? (table : OpcodeTable) (symbols : SymbolTable) (p : Placed) :
    Option Reference :=
  if table.contains p.opcode && p.target symbols == .undefined then some p.reference else none

/-- The object code of a placed statement. -/
def code (reject : Bool) (table : OpcodeTable) (symbols : SymbolTable) (p : Placed) :
    Except ProgramError Text :=
  match table.lookup p.opcode with
  | none => p.directiveCode
  | some code =>
    match p.target symbols with
    | .address a => .ok (instructionCode code a)
    | .outOfRange => .error (p.badOperand .address .decimal .addressTooLarge)
    | .undefined =>
      if reject then .error (.undefined p.reference) else .ok (instructionCode code 0)

/-- A placed statement with its object code. -/
def list (reject : Bool) (table : OpcodeTable) (symbols : SymbolTable) (p : Placed) :
    Except ProgramError Listed :=
  (p.code reject table symbols).map fun code => ⟨p, code⟩

end Placed

namespace Layout

/-- Statements up to the one that ends the program. -/
def untilFinish : List Placed → List Placed
  | [] => []
  | p :: rest => if p.isFinish then [p] else p :: untilFinish rest

/-- The placed statements that are encoded. -/
def encoded (l : Layout) : List Placed := untilFinish l.placed

/-- The listing of a layout. -/
def encode (reject : Bool) (table : OpcodeTable) (l : Layout) : Except ProgramError (List Listed) :=
  l.encoded.mapM (Placed.list reject table l.symbols)

/-- The references to nothing in a layout, in order. -/
def undefinedReferences (table : OpcodeTable) (l : Layout) : List Reference :=
  l.encoded.filterMap (Placed.undefinedReference? table l.symbols)

end Layout

/-- A listing as a text, one statement a line. -/
def Listed.listing (lines : List Listed) : Text :=
  Text.unlines (lines.map fun l =>
    Text.join "\t" [Address.text l.address, l.label, l.opcode, l.operand, l.code])

end Sic
