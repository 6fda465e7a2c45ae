import Sic.OpcodeTable
import Sic.Operand
import Sic.SymbolTable

/-!
# Layout

Laying out a program gives every statement an address.  The program begins at its first `START`,
whose operand is the address of the next statement and whose label is the program's name; statements
before it are not part of the program.  From there every statement stands where the one before it
ends, and its label, if it has one, becomes a symbol for its address.

How much storage a statement takes can be said without knowing any address: an instruction takes a
word, and a directive what its operand says.
-/

set_option autoImplicit false

namespace Sic

/-- The bytes of a word, and of an instruction. -/
def wordSize : Nat := 3

/-- A statement with its address and the storage it takes. -/
structure Placed extends Statement where
  address : Int
  size : Int
deriving DecidableEq, Repr

/-- The name of a program, the address it starts at and the storage it takes. -/
structure Program where
  name : Text
  start : Int
  length : Int
deriving DecidableEq, Repr

/-- A program with every statement placed. -/
structure Layout where
  program : Program
  placed : List Placed
  symbols : SymbolTable

namespace Statement

/-- The storage a directive takes. -/
def directiveSize (s : Statement) : Except ProgramError Nat :=
  match s.directive? with
  | some .word => .ok wordSize
  | some .reserveWords => (s.count .wordCount).map (wordSize * ·)
  | some .reserveBytes => s.count .byteCount
  | some .bytes => s.byteLiteral.map ByteLiteral.size
  | _ => .ok 0

/-- The storage a statement takes. -/
def size (table : OpcodeTable) (s : Statement) : Except ProgramError Nat :=
  if table.contains s.opcode then .ok wordSize else s.directiveSize

end Statement

namespace SymbolTable

/-- Enters the label of a statement at its address.  Where labels must be unique, a label that is
already defined is an error. -/
def enter (unique : Bool) (symbols : SymbolTable) (s : Statement) (address : Int) :
    Except ProgramError SymbolTable :=
  if s.isLabelled then
    match unique, symbols.lookup s.label with
    | true, some previous => .error (.duplicate s.label s.line previous)
    | _, _ => .ok (symbols.define s.label address)
  else .ok symbols

end SymbolTable

namespace Layout

/-- The layout of no program. -/
def empty : Layout := ⟨⟨[], 0, 0⟩, [], .empty⟩

/-- Statements placed one behind the other, the symbols defined by then, and the address behind the
last of them. -/
structure Run where
  placed : List Placed
  symbols : SymbolTable
  next : Int

/-- Places statements from an address on. -/
def place (unique : Bool) (table : OpcodeTable) (address : Int) (symbols : SymbolTable) :
    List Statement → Except ProgramError Run
  | [] => .ok ⟨[], symbols, address⟩
  | s :: rest =>
    match s.size table with
    | .error e => .error e
    | .ok size =>
      match symbols.enter unique s address with
      | .error e => .error e
      | .ok symbols =>
        match place unique table (address + size) symbols rest with
        | .error e => .error e
        | .ok run => .ok { run with placed := ⟨s, address, size⟩ :: run.placed }

/-- The statements of a source program from its `START` on. -/
def body (source : Text) : List Statement :=
  (Statement.ofSource source).dropWhile fun s => !s.isStart

/-- Lays out statements that begin with a `START`. -/
def ofStatements (unique : Bool) (table : OpcodeTable) :
    List Statement → Except ProgramError Layout
  | [] => .ok empty
  | s :: rest =>
    match s.startAddress with
    | .error e => .error e
    | .ok start =>
      match place unique table start .empty rest with
      | .error e => .error e
      | .ok run =>
        .ok ⟨⟨s.label, start, run.next - start⟩, ⟨s, start, 0⟩ :: run.placed, run.symbols⟩

/-- Lays out a source program. -/
def ofSource (unique : Bool) (table : OpcodeTable) (source : Text) : Except ProgramError Layout :=
  ofStatements unique table (body source)

/-- The listing of the placed statements. -/
def listing (l : Layout) : Text :=
  Text.unlines (l.placed.map fun p =>
    Text.join "\t" [Address.text p.address, p.label, p.opcode, p.operand])

/-- The length of the program, as listings show it. -/
def lengthText (l : Layout) : Text := Address.text l.program.length

end Layout

end Sic
