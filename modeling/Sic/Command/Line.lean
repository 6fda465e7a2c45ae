import Sic.Command.Flag

/-!
# Command lines

Reading the words of a command line by the flags of a command.

* `--name value`, `--name=value`, `-x value`, `-xvalue` and `-x=value` give a flag its value;
* a switch takes a value only behind an equals sign;
* letters of switches may stand in a group with another flag's letter at its end;
* the word `--` ends the flags.
-/

set_option autoImplicit false

namespace Sic

namespace Command

/-- What a single word says. -/
inductive Word where
  /-- A word that is no flag. -/
  | plain
  /-- The end of the flags. -/
  | stop
  /-- Flags with their values. -/
  | flags (values : List (Flag × FlagValue))
  /-- Flags with their values, and a flag whose value is the next word; `missing` is the error if
  there is none. -/
  | pending (values : List (Flag × FlagValue)) (flag : Flag) (missing : FlagError)

namespace Word

/-- A word with two dashes, without them. -/
def ofLong (flags : List Flag) (t : Text) : Except FlagError Word :=
  match t with
  | [] => .ok .stop
  | b :: _ =>
    if b == 0x2D || b == 0x3D then .error (.nameless ("--" ++ t))
    else
      let name := t.takeWhile (· != 0x3D)
      match flags.find? (·.name = name) with
      | none => .error (.unknown name)
      | some f =>
        match t.dropWhile (· != 0x3D) with
        | _ :: value => do return .flags [(f, ← f.read value)]
        | [] =>
          if f.kind = .switch then .ok (.flags [(f, .switch true)])
          else .ok (.pending [] f (.valueless ("--" ++ t)))

/-- Puts a flag in front of what follows it in a group. -/
def withFlag (f : Flag) (v : FlagValue) : Word → Word
  | .flags values => .flags ((f, v) :: values)
  | .pending values g missing => .pending ((f, v) :: values) g missing
  | w => w

/-- A group of letters that is no flag at all. -/
def testGroup : Text := "test."

/-- A word with one dash, without it: a group of letters. -/
def ofGroup (flags : List Flag) : Text → Except FlagError Word
  | [] => .ok (.flags [])
  | letter :: t =>
    if testGroup <+: letter :: t then .ok (.flags [])
    else
      match flags.find? (·.letter? = some letter) with
      | none => .error (.unknownLetter letter (letter :: t))
      | some f =>
        match t with
        | 0x3D :: b :: value => do return .flags [(f, ← f.read (b :: value))]
        | _ =>
          if f.kind = .switch then do return (← ofGroup flags t).withFlag f (.switch true)
          else if t.isEmpty then .ok (.pending [] f (.letterValueless letter [letter]))
          else do return .flags [(f, ← f.read t)]

/-- What a word says. -/
def ofText (flags : List Flag) : Text → Except FlagError Word
  | 0x2D :: 0x2D :: t => ofLong flags t
  | 0x2D :: b :: t => ofGroup flags (b :: t)
  | _ => .ok .plain

end Word

namespace Given

/-- Puts values in front of what is given. -/
def withValues (values : List (Flag × FlagValue)) (g : Given) : Given :=
  { g with values := values ++ g.values }

/-- Puts a word in front of what is given. -/
def withWord (word : Text) (g : Given) : Given := { g with words := word :: g.words }

/-- Reads a command line by the flags of a command.  The error is that of the first word that has
one. -/
def parse (flags : List Flag) : List Text → Except FlagError Given
  | [] => .ok ⟨[], []⟩
  | word :: rest => do
    match ← Word.ofText flags word with
    | .plain => return (← parse flags rest).withWord word
    | .stop => return ⟨[], rest⟩
    | .flags values => return (← parse flags rest).withValues values
    | .pending values f missing =>
      match rest with
      | [] => throw missing
      | value :: rest =>
        let value ← f.read value
        return (← parse flags rest).withValues (values ++ [(f, value)])

end Given

/-- Whether a word is a flag that may take the next word as its value, as far as can be told
without knowing the flags. -/
def mayTakeNext (word : Text) : Bool :=
  match word with
  | 0x2D :: b :: t => (b == 0x2D || t.isEmpty) && !word.contains 0x3D
  | _ => false

/-- The first word of a command line that is neither a flag nor the value of one, and the line
without it. -/
def takeWord? : List Text → Option (Text × List Text)
  | [] => none
  | word :: rest =>
    if word = "--" then none
    else if mayTakeNext word then
      match rest with
      | [] => none
      | value :: rest => (takeWord? rest).map fun (first, line) => (first, word :: value :: line)
    else if word.isEmpty || word.head? = some 0x2D then
      (takeWord? rest).map fun (first, line) => (first, word :: line)
    else some (word, rest)

end Command

end Sic
