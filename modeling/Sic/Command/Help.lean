import Sic.Command.Flag

/-!
# Help

The commands, their flags, and the texts that explain them.
-/

set_option autoImplicit false

namespace Sic

namespace Command

/-- The name of the program. -/
def programName : Text := "sicasm"

/-- What the program does. -/
inductive Verb where
  /-- The program without a command, which explains itself. -/
  | root
  | asm
  | load
  | optab
  | help
deriving DecidableEq, Repr

namespace Verb

/-- The name of a command. -/
def name : Verb → Text
  | .root => programName
  | .asm => "asm"
  | .load => "load"
  | .optab => "optab"
  | .help => "help"

/-- The command of a name. -/
def ofName? (name : Text) : Option Verb :=
  [asm, load, optab, help].find? (·.name = name)

/-- The flags of a command alone, by name. -/
def ownFlags : Verb → List Flag
  | .root => [.config, .help, .logLevel]
  | .asm => [.emitter, .format, .help, .maxTextBytes, .optab, .outDir, .strict]
  | _ => [.help]

/-- The flags that a command shares with all others. -/
def sharedFlags : Verb → List Flag
  | .root => []
  | _ => [.config, .logLevel]

/-- All flags of a command. -/
def flags (v : Verb) : List Flag := v.ownFlags ++ v.sharedFlags

/-- The words a command asks for, if their number is fixed. -/
def wordCount? : Verb → Option Nat
  | .asm | .load | .optab => some 1
  | _ => none

/-- A command in a few words. -/
def summary : Verb → Text
  | .root => "Two-pass assembler for SIC-style object programs"
  | .asm => "Assemble a source program"
  | .load => "Load an object program and dump its memory image"
  | .optab => "List the mnemonics of an opcode table"
  | .help => "Help about any command"

/-- A command in full. -/
def description : Verb → Text
  | .root =>
    "Sicasm assembles SIC-style source programs against an opcode table and\n" ++
      "produces the intermediate listing, symbol table, program length, output\n" ++
      "listing and Header/Text/End object program."
  | .help =>
    "Help provides help for any command in the application.\nSimply type " ++ programName ++
      " help [path to command] for full details."
  | v => v.summary

/-- A command with its words. -/
def pattern : Verb → Text
  | .root => programName
  | .asm => programName ++ " asm [options] SOURCE"
  | .load => programName ++ " load OBJFILE"
  | .optab => programName ++ " optab FILE"
  | .help => programName ++ " help [command]"

end Verb

/-! ## Flags -/

namespace Flag

/-- What a flag is for. -/
def usage (v : Verb) : Flag → Text
  | .config => "path to a TOML configuration file (SICASM_CONFIG)"
  | .emitter => "object program emitter (object, dump)"
  | .format => "output format (text, json, yaml)"
  | .help => "help for " ++ v.name
  | .logLevel => "logging level (trace, debug, info, warn, error)"
  | .maxTextBytes => "maximum bytes per Text record, 0 for the format maximum of 255"
  | .optab => "opcode table file"
  | .outDir => "write each artifact to a file in this directory"
  | .strict => "reject duplicate and undefined symbols"

/-- The value of a flag that is not given.  The path of the configuration file comes from outside. -/
def fallback (config : Text) : Flag → FlagValue
  | .config => .text config
  | .emitter => .text Settings.objectEmitter
  | .format => .text "text"
  | .logLevel => .text "warn"
  | .maxTextBytes => .number Packing.usualBytes
  | .optab | .outDir => .text []
  | .help | .strict => .switch false

/-- The wording of a kind of values. -/
def kindText : FlagKind → Text
  | .text => " string"
  | .number => " int"
  | .switch => []

/-- A flag with the kind of its value. -/
def pattern (f : Flag) : Text :=
  (match f.letter? with
    | some letter => [0x20, 0x20, 0x2D, letter, 0x2C, 0x20]
    | none => List.replicate 6 0x20) ++
    "--" ++ f.name ++ kindText f.kind

/-- The wording of the value of a flag that is not given, unless there is none. -/
def fallbackText : FlagValue → Text
  | .text t => if t.isEmpty then [] else " (default " ++ Text.quoted t ++ ")"
  | .number n => " (default " ++ Text.decimal n ++ ")"
  | .switch _ => []

/-- Flags, each on its line, with what they are for. -/
def table (config : Text) (v : Verb) (flags : List Flag) : Text :=
  let width := ((flags.map (·.pattern.length)).max?.getD 0) + 3
  Text.unlines (flags.map fun f =>
    Text.padRight width f.pattern.length f.pattern ++ usage v f ++ fallbackText (f.fallback config))

end Flag

/-! ## Commands -/

/-- The names and summaries of commands in the list of commands. -/
def commandList : List (Text × Text) :=
  [(Verb.asm.name, Verb.asm.summary),
    ("completion", "Generate the autocompletion script for the specified shell"),
    (Verb.help.name, Verb.help.summary), (Verb.load.name, Verb.load.summary),
    (Verb.optab.name, Verb.optab.summary)]

/-- A line of the list of commands. -/
def commandLine (name summary : Text) : Text :=
  "  " ++ Text.padRight 12 name.length name ++ summary ++ "\n"

/-- The commands of the program. -/
def commandTable : Text := commandList.flatMap fun (name, summary) => commandLine name summary

/-- How the program is used without a command, with some of its flags. -/
def rootUsage (config : Text) (flags : List Flag) : Text :=
  "Usage:\n  " ++ programName ++ " [flags]\n  " ++ programName ++
    " [command]\n\nAvailable Commands:\n" ++ commandTable ++ "\nFlags:\n" ++
    Flag.table config .root flags ++ "\nUse \"" ++ programName ++
    " [command] --help\" for more information about a command.\n"

/-- How a command is used. -/
def Verb.usage (config : Text) (v : Verb) : Text :=
  match v with
  | .root => rootUsage config v.ownFlags
  | _ =>
    "Usage:\n  " ++ v.pattern ++ " [flags]\n\nFlags:\n" ++ Flag.table config v v.ownFlags ++
      "\nGlobal Flags:\n" ++ Flag.table config v v.sharedFlags

/-- The help for a command. -/
def Verb.helpText (config : Text) (v : Verb) : Text :=
  v.description ++ "\n\n" ++ v.usage config

/-- What is said about words that lead to no command.  The program's usage does not yet list its
own help flag there. -/
def unknownTopic (config : Text) (topic : List Text) : Text :=
  "Unknown help topic [" ++ Text.join " " (topic.map Text.backquoted) ++ "]\n" ++
    rootUsage config [.config, .logLevel]

end Command

end Sic
