import Sic.Assembly

/-!
# Journal

What the assembler has to say while it works: what it passes over in an opcode table, the symbols
that are defined again, the references to nothing, and a summary of each stage.  The events of a
stage are a function of the stage's input; of a stage that fails they are the events before the
failure.
-/

set_option autoImplicit false

namespace Sic

/-- How important an event is, the most important first. -/
inductive Level where
  | panic
  | fatal
  | error
  | warning
  | info
  | debug
  | trace
deriving DecidableEq, Repr

namespace Level

/-- The place of a level. -/
def rank : Level → Nat
  | .panic => 0
  | .fatal => 1
  | .error => 2
  | .warning => 3
  | .info => 4
  | .debug => 5
  | .trace => 6

/-- The name of a level. -/
def name : Level → Text
  | .panic => "panic"
  | .fatal => "fatal"
  | .error => "error"
  | .warning => "warning"
  | .info => "info"
  | .debug => "debug"
  | .trace => "trace"

/-- Whether a journal kept at a level holds events of another. -/
def admits (kept event : Level) : Bool := event.rank ≤ kept.rank

end Level

/-- An event. -/
inductive Event where
  | tableLineSkipped (line : Nat) (text : Text)
  | tableCodeSkipped (line : Nat) (code : Text)
  | tableLoaded (size : Nat)
  | redefined (line : Int) (symbol : Text) (previous address : Int)
  | laidOut (statements symbols : Nat) (length : Int)
  | undefined (r : Reference)
  | encoded (lines references : Nat)
  | assembled (name : Text) (records : Nat) (length : Int)
  | settingsMissing (path : Text)
  | settingsLoaded (path : Text)
deriving DecidableEq, Repr

namespace Event

/-- The level of an event. -/
def level : Event → Level
  | .redefined .. | .undefined _ => .warning
  | _ => .debug

/-- An event, in words. -/
def message : Event → Text
  | .tableLineSkipped line text =>
    "optab: skipping line " ++ Text.decimalNat line ++ ": " ++ Text.quoted text
  | .tableCodeSkipped line code =>
    "optab: skipping line " ++ Text.decimalNat line ++ ": code " ++ Text.quoted code ++
      " is not hex"
  | .tableLoaded size => "optab: loaded " ++ Text.decimalNat size ++ " mnemonics"
  | .redefined line symbol previous address =>
    "line " ++ Text.decimal line ++ ": symbol " ++ Text.quoted symbol ++ " redefined (" ++
      Address.text previous ++ " -> " ++ Address.text address ++ ")"
  | .laidOut statements symbols length =>
    "pass 1: " ++ Text.decimalNat statements ++ " statements, " ++ Text.decimalNat symbols ++
      " symbols, length " ++ Address.text length
  | .undefined _ => "undefined symbol, using address 0"
  | .encoded lines references =>
    "pass 2: " ++ Text.decimalNat lines ++ " listing lines, " ++ Text.decimalNat references ++
      " unresolved"
  | .assembled name records length =>
    "assembled " ++ Text.quoted name ++ ": " ++ Text.decimalNat records ++ " records, length " ++
      Address.text length
  | .settingsMissing path => "config file " ++ path ++ " not found, using defaults"
  | .settingsLoaded path => "loaded configuration from " ++ path

end Event

/-- An event on a line of its own. -/
def Event.line (e : Event) : Text :=
  "level=" ++ e.level.name ++ " msg=" ++ Text.quoted e.message ++ "\n"

/-- A journal: the level it is kept at, and its events. -/
structure Journal where
  level : Level
  events : List Event
deriving DecidableEq, Repr

/-- Adds events to a journal, of which it takes those of its level. -/
def Journal.add (j : Journal) (events : List Event) : Journal :=
  { j with events := j.events ++ events.filter fun e => j.level.admits e.level }

/-- The events of reading an opcode table. -/
def OpcodeTable.parseEvents (t : Text) : List Event :=
  ((parsedLines t).zipIdx 1).filterMap (fun
    | (.malformed line, n) => some (.tableLineSkipped n line)
    | (.badCode code, n) => some (.tableCodeSkipped n code)
    | _ => none) ++
  [.tableLoaded (parse t).size]

namespace Layout

/-- The redefinitions among placed statements, given the symbols that are defined before them. -/
def redefinitions (symbols : SymbolTable) : List Placed → List Event
  | [] => []
  | p :: rest =>
    if p.isLabelled then
      let (previous?, symbols) := symbols.lookupThenDefine p.label p.address
      (match previous? with
        | some previous => [.redefined p.line p.label previous p.address]
        | none => []) ++
      redefinitions symbols rest
    else redefinitions symbols rest

/-- The events of laying out statements that begin with a `START`: the redefinitions up to the first
statement without a size, and a summary if there is none. -/
def events (unique : Bool) (table : OpcodeTable) (statements : List Statement) : List Event :=
  let sound := statements.take 1 ++
    (statements.drop 1).takeWhile fun s => (s.size table) matches .ok _
  (match unique, ofStatements false table sound with
    | false, .ok l => redefinitions .empty (l.placed.drop 1)
    | _, _ => []) ++
  match ofStatements unique table statements with
  | .ok l => [.laidOut l.placed.length l.symbols.size l.program.length]
  | .error _ => []

/-- The events of encoding a layout: the references to nothing up to the first statement without a
code, and a summary if there is none. -/
def encodeEvents (reject : Bool) (table : OpcodeTable) (l : Layout) : List Event :=
  let sound := l.encoded.takeWhile fun p => (p.code reject table l.symbols) matches .ok _
  (sound.filterMap (Placed.undefinedReference? table l.symbols)).map .undefined ++
  match l.encode reject table with
  | .ok lines => [.encoded lines.length (l.undefinedReferences table).length]
  | .error _ => []

end Layout

/-- The events of assembling a source program. -/
def Assembly.events (options : Options) (table : Option OpcodeTable) (source : Text) : List Event :=
  match table with
  | none => []
  | some table =>
    if source.isBlank then []
    else
      Layout.events options.rejectDuplicates table (Layout.body source) ++
      match Layout.ofSource options.rejectDuplicates table source with
      | .error _ => []
      | .ok layout =>
        Layout.encodeEvents options.rejectUndefined table layout ++
        match ofLayout options table layout with
        | .error _ => []
        | .ok a => [.assembled a.program.name a.records.length a.program.length]

end Sic
