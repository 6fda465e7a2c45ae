import Sic.Text.Blank
import Sic.Text.Glyph

/-!
# Statements of a source program

A source program has one statement a line: a label, an opcode and an operand, divided by white
space.  A field that is not given, or given as `-`, is absent; what follows the operand is a remark.
A blank line and a line that begins with a point carry no statement, but they count for the numbers
of the lines behind them.

An opcode that is not in the opcode table may be one of six directives, in either case.
-/

set_option autoImplicit false

namespace Sic

/-- A statement, with the number of its line. -/
structure Statement where
  line : Int
  label : Text
  opcode : Text
  operand : Text
deriving DecidableEq, Repr

/-- The directives: where the program begins and ends, a word and bytes of data, and words and bytes
of storage. -/
inductive Directive where
  | start
  | finish
  | word
  | bytes
  | reserveWords
  | reserveBytes
deriving DecidableEq, Repr

namespace Directive

/-- The directive an opcode names. -/
def ofOpcode? (opcode : Text) : Option Directive :=
  let keyword := Text.upperAscii opcode
  if keyword = "START" then some .start
  else if keyword = "END" then some .finish
  else if keyword = "WORD" then some .word
  else if keyword = "BYTE" then some .bytes
  else if keyword = "RESW" then some .reserveWords
  else if keyword = "RESB" then some .reserveBytes
  else none

end Directive

namespace Statement

/-- What stands in the place of an absent field. -/
def absent : Text := "-"

/-- The statement of a line. -/
def ofLine? (line : Int) (t : Text) : Option Statement :=
  match t.fields with
  | [] => none
  | label :: rest =>
    if label.head? = some 0x2E then none
    else some ⟨line, label, rest.headD absent, rest.tail.headD absent⟩

/-- The statements of a source program. -/
def ofSource (source : Text) : List Statement :=
  (source.lines.zipIdx 1).filterMap fun (t, n) => ofLine? n t

/-- Whether the statement has a label. -/
def isLabelled (s : Statement) : Bool := s.label ≠ absent

/-- The directive in the opcode's place. -/
def directive? (s : Statement) : Option Directive := Directive.ofOpcode? s.opcode

/-- A statement that begins the program. -/
def isStart (s : Statement) : Bool := s.directive? = some .start

/-- A statement that ends the program. -/
def isFinish (s : Statement) : Bool := s.directive? = some .finish

/-- The three fields of a statement, as messages show it. -/
def source (s : Statement) : Text := s.label ++ " " ++ s.opcode ++ " " ++ s.operand

end Statement

end Sic
