import Sic.Disk
import Sic.Journal
import Sic.Toml.Document

/-!
# Settings

What a user can set about assembling, and the configuration file it is read from.
-/

set_option autoImplicit false

namespace Sic

/-- What a user can set. -/
structure Settings where
  /-- The capacity of a text record; zero asks for the largest. -/
  maxTextBytes : Int
  splitOnGap : Bool
  /-- The name of an emitter. -/
  emitter : Text
  rejectDuplicateSymbols : Bool
  rejectUnresolvedSymbols : Bool
deriving DecidableEq, Repr

/-- What is wrong with settings. -/
inductive SettingsFault where
  | maxTextBytes (n : Int)
  | emitter (name : Text)
deriving DecidableEq, Repr

/-- What is wrong with settings, in words. -/
def SettingsFault.message : SettingsFault → Text
  | .maxTextBytes n => "max_text_bytes must be between 0 and 255, got " ++ Text.decimal n
  | .emitter name => "unknown emitter " ++ Text.quoted name

namespace Settings

/-- The emitter of object programs. -/
def objectEmitter : Text := "object"

/-- The emitter of dumps. -/
def dumpEmitter : Text := "dump"

/-- The settings where nothing is set. -/
def default : Settings := ⟨Packing.usualBytes, true, objectEmitter, false, false⟩

/-- What is wrong with settings, if anything is. -/
def fault? (s : Settings) : Option SettingsFault :=
  if s.maxTextBytes < 0 || 255 < s.maxTextBytes then some (.maxTextBytes s.maxTextBytes)
  else if s.emitter = objectEmitter || s.emitter = dumpEmitter then none
  else some (.emitter s.emitter)

/-- How settings ask programs to be assembled. -/
def options (s : Settings) : Options where
  emitter :=
    if s.emitter = dumpEmitter then .dump else .object (.ofSettings s.maxTextBytes s.splitOnGap)
  rejectDuplicates := s.rejectDuplicateSymbols
  rejectUndefined := s.rejectUnresolvedSymbols

/-! ## The configuration file -/

/-- A name without regard to case.  Besides the ASCII letters only two characters, U+017F and
U+212A, are an ASCII letter but for case. -/
def foldCase (name : Text) : Text :=
  (Text.glyphs name).flatMap fun
    | .char c =>
      if c = 'ſ' then [0x73] else if c.toNat = 0x212A then [0x6B] else (Text.ofChar c).map Text.lower
    | .stray b => [b]

/-- Takes up what a key of a configuration file is defined as.  Keys of no setting are passed over;
a value of the wrong kind is an error. -/
def assign? (s : Settings) (name : Text) (entry : Toml.Entry) : Option Settings :=
  let name := foldCase name
  if name = "max_text_bytes" then
    match entry with
    | .value (.integer n) => some { s with maxTextBytes := n }
    | _ => none
  else if name = "split_on_gap" then
    match entry with
    | .value (.boolean b) => some { s with splitOnGap := b }
    | _ => none
  else if name = "emitter" then
    match entry with
    | .value (.string t) => some { s with emitter := t }
    | _ => none
  else if name = "reject_duplicate_symbols" then
    match entry with
    | .value (.boolean b) => some { s with rejectDuplicateSymbols := b }
    | _ => none
  else if name = "reject_unresolved_symbols" then
    match entry with
    | .value (.boolean b) => some { s with rejectUnresolvedSymbols := b }
    | _ => none
  else some s

/-- Reads a configuration file's text. -/
def decode? (t : Text) : Option Settings := do
  let document ← Toml.Document.parse? t
  document.root.toList.foldlM (fun s (name, entry) => s.assign? name entry) default

/-- Why settings cannot be loaded. -/
inductive LoadFault where
  | unreadable (path : Text) (e : DiskError)
  | undecodable (path : Text)
  | faulty (path : Text) (fault : SettingsFault)
deriving DecidableEq, Repr

/-- Why settings cannot be loaded, in words. -/
def LoadFault.message : LoadFault → Text
  | .unreadable path e => "reading configuration file " ++ path ++ ": " ++ e.message
  | .undecodable path => "decoding configuration file " ++ path
  | .faulty path fault => "configuration file " ++ path ++ ": " ++ fault.message

/-- The settings that a configuration file's content gives. -/
def ofContent (path content : Text) : Except LoadFault Settings :=
  match decode? content with
  | none => .error (.undecodable path)
  | some s =>
    match s.fault? with
    | some fault => .error (.faulty path fault)
    | none => .ok s

/-- Loads settings from a configuration file, with the events of doing so.  Without a path, or
without a file there, nothing is set. -/
def load {m : Type → Type} [Monad m] (disk : Disk m) (path : Text) :
    m (Except LoadFault Settings × List Event) := do
  if path.isEmpty then return (.ok default, [])
  match ← disk.read path with
  | .error e =>
    if e.fault = .notFound then return (.ok default, [.settingsMissing path])
    else return (.error (.unreadable path e), [])
  | .ok content =>
    match ofContent path content with
    | .error e => return (.error e, [])
    | .ok s => return (.ok s, [.settingsLoaded path])

end Settings

end Sic
