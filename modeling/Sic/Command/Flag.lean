import Sic.Settings
import Sic.Text.Number
import Sic.Text.Quoted

/-!
# Flags of the command line

The flags that commands take, the values of flags, and what can be wrong with a flag.
-/

set_option autoImplicit false

namespace Sic

namespace Command

/-- The flags of all commands, by their names. -/
inductive Flag where
  | config
  | emitter
  | format
  | help
  | logLevel
  | maxTextBytes
  | optab
  | outDir
  | strict
deriving DecidableEq, Repr

/-- The kinds of values. -/
inductive FlagKind where
  | text
  | number
  /-- A truth value; it is true if the flag is given without a value. -/
  | switch
deriving DecidableEq, Repr

/-- The value of a flag. -/
inductive FlagValue where
  | text (t : Text)
  | number (n : Int)
  | switch (b : Bool)
deriving DecidableEq, Repr

namespace Flag

/-- The name of a flag. -/
def name : Flag → Text
  | .config => "config"
  | .emitter => "emitter"
  | .format => "format"
  | .help => "help"
  | .logLevel => "log-level"
  | .maxTextBytes => "max-text-bytes"
  | .optab => "optab"
  | .outDir => "out-dir"
  | .strict => "strict"

/-- The letter that is short for a flag. -/
def letter? : Flag → Option UInt8
  | .format => some (Text.byte 'f')
  | .help => some (Text.byte 'h')
  | .optab => some (Text.byte 't')
  | .outDir => some (Text.byte 'o')
  | _ => none

/-- The kind of a flag's value. -/
def kind : Flag → FlagKind
  | .help | .strict => .switch
  | .maxTextBytes => .number
  | _ => .text

/-- How messages name a flag. -/
def title (f : Flag) : Text :=
  match f.letter? with
  | some letter => "-" ++ [letter] ++ ", --" ++ f.name
  | none => "--" ++ f.name

end Flag

/-! ## Faults -/

/-- What is wrong with the flags of a command line. -/
inductive FlagError where
  /-- Two dashes and no name. -/
  | nameless (word : Text)
  | unknown (name : Text)
  /-- A letter that is short for no flag, first of a group. -/
  | unknownLetter (letter : UInt8) (group : Text)
  | valueless (word : Text)
  | letterValueless (letter : UInt8) (group : Text)
  | badValue (flag : Flag) (value : Text) (fault : Text.NumberFault)
deriving DecidableEq, Repr

/-- The wording of the first letter of a group. -/
def letterText (letter : UInt8) (group : Text) : Text :=
  Text.quotedChar (Char.ofNat letter.toNat) ++ " in -" ++ group

/-- The wording of what reads the values of a kind. -/
def FlagKind.readerText : FlagKind → Text
  | .switch => "strconv.ParseBool"
  | _ => "strconv.ParseInt"

/-- The wording of a fault of a value. -/
def valueFaultText : Text.NumberFault → Text
  | .syntaxError => "invalid syntax"
  | .outOfRange => "value out of range"

/-- What is wrong with the flags of a command line, in words. -/
def FlagError.message : FlagError → Text
  | .nameless word => "bad flag syntax: " ++ word
  | .unknown name => "unknown flag: --" ++ name
  | .unknownLetter letter group => "unknown shorthand flag: " ++ letterText letter group
  | .valueless word => "flag needs an argument: " ++ word
  | .letterValueless letter group => "flag needs an argument: " ++ letterText letter group
  | .badValue flag value fault =>
    "invalid argument " ++ Text.quoted value ++ " for " ++ Text.quoted flag.title ++ " flag: " ++
      flag.kind.readerText ++ ": parsing " ++ Text.quoted value ++ ": " ++ valueFaultText fault

/-! ## Values -/

/-- A truth value. -/
def truth? (t : Text) : Option Bool :=
  if ["1", "t", "T", "TRUE", "true", "True"].any fun w => Text.ofAscii w == t then some true
  else if ["0", "f", "F", "FALSE", "false", "False"].any fun w => Text.ofAscii w == t then
    some false
  else none

/-- Reads the value of a flag. -/
def Flag.read (f : Flag) (t : Text) : Except FlagError FlagValue :=
  match f.kind with
  | .text => .ok (.text t)
  | .number =>
    match Text.int64? t with
    | .ok n => .ok (.number n)
    | .error fault => .error (.badValue f t fault)
  | .switch =>
    match truth? t with
    | some b => .ok (.switch b)
    | none => .error (.badValue f t .syntaxError)

/-- What a command line gives: the values of flags, in their order, and the other words. -/
structure Given where
  values : List (Flag × FlagValue)
  words : List Text
deriving DecidableEq, Repr

namespace Given

/-- The value of a flag, which is the last that is given. -/
def value? (g : Given) (f : Flag) : Option FlagValue :=
  ((g.values.filter (·.1 = f)).getLast?).map (·.2)

/-- Whether a flag is given. -/
def has (g : Given) (f : Flag) : Bool := (g.value? f).isSome

/-- A flag's text. -/
def text (g : Given) (f : Flag) (fallback : Text) : Text :=
  match g.value? f with
  | some (.text t) => t
  | _ => fallback

/-- A flag's number. -/
def number (g : Given) (f : Flag) (fallback : Int) : Int :=
  match g.value? f with
  | some (.number n) => n
  | _ => fallback

/-- Whether a switch is on. -/
def isOn (g : Given) (f : Flag) : Bool := g.value? f = some (.switch true)

end Given

end Command

end Sic
