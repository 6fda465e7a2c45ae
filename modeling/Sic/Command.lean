import Sic.Command.Help
import Sic.Command.Line
import Sic.Image
import Sic.Record.Reader
import Sic.Report

/-!
# Commands

The program as its user sees it: a command line is taken apart into a command, its flags and its
words, and the command is run on the files of a disk.

What can be wrong is looked for in a fixed order: the command, the flags, the number of words, the
level of the journal, the settings, the flags that have to be given, and then what the command
itself comes upon.  A call for help is answered once the flags are read.
-/

set_option autoImplicit false

namespace Sic

namespace Command

/-- Why a command fails. -/
inductive Failure where
  | unknownCommand (name : Text)
  | flags (e : FlagError)
  | wordCount (wanted found : Nat)
  | unknownLevel (name : Text)
  | settings (e : Settings.LoadFault)
  | missingFlag (f : Flag)
  | badSettings (e : SettingsFault)
  | noSource (e : DiskError)
  | noTable (e : DiskError)
  | assembly (path : Text) (e : AssemblyError)
  | directory (e : Report.DirectoryError)
  | unknownFormat (name : Text)
  | noObject (e : DiskError)
  | badRecords (path : Text) (lines : List (Nat × RecordFault))
  | loading (path : Text) (e : LoadError)
deriving DecidableEq, Repr

/-- Why a command fails, in words. -/
def Failure.message : Failure → Text
  | .unknownCommand name =>
    "unknown command " ++ Text.quoted name ++ " for " ++ Text.quoted programName
  | .flags e => e.message
  | .wordCount wanted found =>
    "accepts " ++ Text.decimalNat wanted ++ " arg(s), received " ++ Text.decimalNat found
  | .unknownLevel name =>
    "parsing log level " ++ Text.quoted name ++ ": not a valid logrus Level: " ++ Text.quoted name
  | .settings e => e.message
  | .missingFlag f => "required flag(s) " ++ Text.quoted f.name ++ " not set"
  | .badSettings e => e.message
  | .noSource e => "reading source: " ++ e.message
  | .noTable e => OpcodeTable.readFailure e.message
  | .assembly path e => "assembling " ++ path ++ ": " ++ e.message
  | .directory e => e.message
  | .unknownFormat name => Report.unknownFormat name
  | .noObject e => "reading object program: " ++ e.message
  | .badRecords path lines => "parsing " ++ path ++ ": " ++ Record.badLinesMessage lines
  | .loading path e => "loading " ++ path ++ ": " ++ e.message

/-- A failure on a line of its own. -/
def Failure.line (e : Failure) : Text := "Error: " ++ e.message ++ "\n"

/-- What a command says. -/
structure Output where
  /-- What is asked for. -/
  out : Text
  /-- What is said besides. -/
  notes : Text
deriving DecidableEq, Repr

/-- A command at work: it may fail, and it keeps a journal. -/
abbrev Action (m : Type → Type) : Type → Type := ExceptT Failure (StateT Journal m)

namespace Action

variable {m : Type → Type} [Monad m]

/-- Adds events to the journal. -/
def record (events : List Event) : Action m Unit := modify (·.add events)

/-- Keeps the journal at a level from now on. -/
def keepAt (level : Level) : Action m Unit := modify ({ · with level := level })

/-- Takes what something gives. -/
def take {α ε : Type} (failure : ε → Failure) (result : Except ε α) : Action m α :=
  match result with
  | .ok a => return a
  | .error e => throw (failure e)

/-- Does something that neither fails nor has anything to note. -/
def quietly {α : Type} (x : m α) : Action m α := ExceptT.lift (StateT.lift x)

/-- Asks something of the disk. -/
def ask {α ε : Type} (failure : ε → Failure) (question : m (Except ε α)) : Action m α := do
  take failure (← quietly question)

end Action

/-! ## The parts of a command line -/

/-- The command of a command line, and the line without it. -/
def find (line : List Text) : Except Failure (Verb × List Text) :=
  match takeWord? line with
  | none => .ok (.root, line)
  | some (name, rest) =>
    match Verb.ofName? name with
    | some v => .ok (v, rest)
    | none => .error (.unknownCommand name)

/-- A name in lower case.  Besides the ASCII letters, U+0130 is the only capital of a letter in the
name of a level. -/
def lowerName (name : Text) : Text :=
  (Text.glyphs name).flatMap fun
    | .char c => if c.toNat = 0x130 then [0x69] else (Text.ofChar c).map Text.lower
    | .stray b => [b]

/-- The level of a name. -/
def levelOfName? (name : Text) : Option Level :=
  let name := lowerName name
  if name = "warn" then some .warning
  else [.panic, .fatal, .error, .warning, .info, .debug, .trace].find? (·.name = name)

/-- The level of the journal where none is asked for. -/
def usualLevel : Level := .warning

/-- The level that a command line asks for. -/
def levelOf (given : Given) : Except Failure Level :=
  match given.value? .logLevel with
  | some (.text name) =>
    match levelOfName? name with
    | some level => .ok level
    | none => .error (.unknownLevel name)
  | _ => .ok usualLevel

/-- Checks the number of words a command is given. -/
def checkWords (v : Verb) (words : List Text) : Except Failure Unit :=
  match v.wordCount? with
  | some n => if words.length = n then .ok () else .error (.wordCount n words.length)
  | none => .ok ()

/-- The settings of a configuration file with those that a command line changes. -/
def mergedSettings (s : Settings) (given : Given) : Settings where
  maxTextBytes := given.number .maxTextBytes s.maxTextBytes
  splitOnGap := s.splitOnGap
  emitter := given.text .emitter s.emitter
  rejectDuplicateSymbols := given.isOn .strict || s.rejectDuplicateSymbols
  rejectUnresolvedSymbols := given.isOn .strict || s.rejectUnresolvedSymbols

/-- The settings a program is assembled with. -/
def assemblySettings (s : Settings) (given : Given) : Except Failure Settings :=
  match (mergedSettings s given).fault? with
  | some fault => .error (.badSettings fault)
  | none => .ok (mergedSettings s given)

/-! ## The commands -/

section

variable {m : Type → Type} [Monad m]

/-- Reads an opcode table. -/
def readTable (disk : Disk m) (path : Text) : Action m OpcodeTable := do
  let content ← Action.ask .noTable (disk.read path)
  Action.record (OpcodeTable.parseEvents content)
  return OpcodeTable.parse content

/-- Reports an assembly, to a directory if one is given. -/
def report (disk : Disk m) (given : Given) (source : Text) (a : Assembly) : Action m Output := do
  let directory := given.text .outDir []
  if directory.isEmpty then
    let name := given.text .format []
    match Report.Format.ofName? name with
    | none => throw (.unknownFormat name)
    | some f => return ⟨Report.render f a, []⟩
  else
    Action.ask .directory (Report.writeDirectory disk directory a)
    return ⟨"Assembly of " ++ source ++ " written to " ++ directory ++ "\n", []⟩

/-- Assembles a program and reports the assembly. -/
def runAsm (disk : Disk m) (settings : Settings) (given : Given) (path : Text) :
    Action m Output := do
  let settings ← Action.take id (assemblySettings settings given)
  let source ← Action.ask .noSource (disk.read path)
  let table ← readTable disk (given.text .optab [])
  Action.record (Assembly.events settings.options (some table) source)
  let a ← Action.take (.assembly path) (Assembly.assemble settings.options (some table) source)
  report disk given path a

/-- Loads an object program and dumps its image. -/
def runLoad (disk : Disk m) (path : Text) : Action m Output := do
  let object ← Action.ask .noObject (disk.read path)
  let records ← Action.take (.badRecords path) (Record.parse object)
  let image ← Action.take (.loading path) (Image.load records)
  return ⟨image.dump, []⟩

/-- Lists an opcode table. -/
def runOptab (disk : Disk m) (path : Text) : Action m Output := do
  return ⟨(← readTable disk path).text, []⟩

/-- The help for the command that words lead to. -/
def helpOn (config : Text) (words : List Text) : Output :=
  match find words with
  | .ok (v, _) => ⟨v.helpText config, []⟩
  | .error _ => ⟨[], unknownTopic config words⟩

/-- Runs a command with what its line gives. -/
def perform (disk : Disk m) (config : Text) (v : Verb) (settings : Settings) (given : Given) :
    Action m Output :=
  let path := given.words.headD []
  match v with
  | .root => return ⟨v.helpText config, []⟩
  | .asm => if given.has .optab then runAsm disk settings given path else throw (.missingFlag .optab)
  | .load => runLoad disk path
  | .optab => runOptab disk path
  | .help => return helpOn config given.words

/-- Loads the settings of a configuration file. -/
def loadSettings (disk : Disk m) (path : Text) : Action m Settings := do
  let (settings, events) ← Action.quietly (Settings.load disk path)
  Action.record events
  Action.take .settings settings

/-- Runs a command line. -/
def action (disk : Disk m) (config : Text) (line : List Text) : Action m Output := do
  let (v, line) ← Action.take id (find line)
  let given ← Action.take .flags (Given.parse v.flags line)
  if given.isOn .help then return ⟨v.helpText config, []⟩
  Action.take id (checkWords v given.words)
  Action.keepAt (← Action.take id (levelOf given))
  let settings ← loadSettings disk (given.text .config config)
  perform disk config v settings given

end

end Command

/-- Runs the program on a command line.  `config` is the path of the configuration file if the line
names none. -/
def runCommand {m : Type → Type} [Monad m] (disk : Disk m) (config : Text) (line : List Text) :
    m (Except Command.Failure Command.Output × Journal) :=
  (Command.action disk config line).run ⟨Command.usualLevel, []⟩

end Sic
