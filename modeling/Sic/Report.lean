import Sic.Disk
import Sic.Disk.Path
import Sic.Report.Json
import Sic.Report.Yaml

/-!
# Reports

An assembly is reported as a text of five sections, as a document in JSON or YAML, or as a file for
each section in a directory.
-/

set_option autoImplicit false

namespace Sic

namespace Report

/-- A section of a report. -/
structure Section where
  title : Text
  file : Text
  body : Text

/-- The sections of a report. -/
def sections (a : Assembly) : List Section :=
  [⟨"Intermediate code", "intermediate.txt", a.layout.listing⟩,
    ⟨"Symbol table", "symtab.txt", a.layout.symbols.listing⟩,
    ⟨"Program length", "length.txt", a.layout.lengthText ++ "\n"⟩,
    ⟨"Output code", "output.txt", a.outputListing⟩,
    ⟨"Object code", "objectcode.txt", a.objectProgram⟩]

/-- A section with its title. -/
def Section.text (s : Section) : Text := s.title ++ ":\n" ++ s.body

/-- The formats of a report. -/
inductive Format where
  | text
  | json
  | yaml
deriving DecidableEq, Repr

namespace Format

/-- The format of a name; without a name it is text. -/
def ofName? (name : Text) : Option Format :=
  if name = "text" || name.isEmpty then some .text
  else if name = "json" then some .json
  else if name = "yaml" then some .yaml
  else none

/-- The wording of a failure to write a report. -/
def writeFailure : Format → Text → Text
  | .yaml, message => "yaml: write error: " ++ message
  | _, message => message

end Format

/-- The wording of a name that is no format's. -/
def unknownFormat (name : Text) : Text := "unknown output format " ++ Text.quoted name

/-- The pieces in which a report is written.  The sections of a text are written one by one, with a
blank line between two. -/
def pieces (f : Format) (a : Assembly) : List Text :=
  match f with
  | .text => ((sections a).map Section.text).intersperse [0x0A]
  | .json => [Json.text (document a)]
  | .yaml => [Yaml.text (document a)]

/-- A report. -/
def render (f : Format) (a : Assembly) : Text := (pieces f a).flatten

/-- Writes a report to something that takes a number of pieces and refuses all others. -/
def writeAtMost (count : Nat) (refusal : Text) (f : Format) (a : Assembly) : Except Text Unit :=
  if (pieces f a).length ≤ count then .ok () else .error (f.writeFailure refusal)

/-- Why a report cannot be written to a directory. -/
inductive DirectoryError where
  | directory (e : DiskError)
  | file (name : Text) (e : DiskError)
deriving DecidableEq, Repr

/-- Why a report cannot be written to a directory, in words. -/
def DirectoryError.message : DirectoryError → Text
  | .directory e => "creating output directory: " ++ e.message
  | .file name e => "writing " ++ name ++ ": " ++ e.message

/-- Writes sections to files of a directory that is there. -/
def writeFiles {m : Type → Type} [Monad m] (disk : Disk m) (directory : Text) :
    List Section → m (Except DirectoryError Unit)
  | [] => return .ok ()
  | s :: rest => do
    match ← disk.write (Path.join directory s.file) s.body with
    | .error e => return .error (.file s.file e)
    | .ok () => writeFiles disk directory rest

/-- Writes a report to files of a directory, making the directory if it is not there. -/
def writeDirectory {m : Type → Type} [Monad m] (disk : Disk m) (directory : Text) (a : Assembly) :
    m (Except DirectoryError Unit) := do
  match ← disk.makeDirectories directory with
  | .error e => return .error (.directory e)
  | .ok () => writeFiles disk directory (sections a)

end Report

end Sic
