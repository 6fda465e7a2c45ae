import Sic.Command

/-!
# The program

The assembler on the files of the computer it runs on.
-/

set_option autoImplicit false

namespace Sic

/-- A text as a name for the system. -/
def systemName (t : Text) : String :=
  match String.fromUTF8? (ByteArray.mk t.toArray) with
  | some s => s
  | none => String.ofList (t.map fun b => Char.ofNat b.toNat)

/-- The fault behind an error of the system. -/
def systemFault : IO.Error → DiskFault
  | .noFileOrDirectory .. => .notFound
  | .alreadyExists .. => .alreadyThere
  | .inappropriateType _ code _ => if code = 21 then .isDirectory else .notDirectory
  | e => .described (Text.ofString (toString e))

/-- Does something with a path; `action` tells what the system refuses if there is a fault. -/
def attempt {α : Type} (action : DiskFault → DiskAction) (path : Text) (x : IO α) :
    IO (Except DiskError α) := do
  try
    return .ok (← x)
  catch e =>
    let fault := systemFault e
    return .error ⟨action fault, path, fault⟩

/-- The files of the computer.  A directory can be opened, but not read; where a directory cannot be
made because something is there, that is no directory. -/
def systemDisk : Disk IO where
  read path :=
    attempt (fun fault => if fault = .isDirectory then .readFile else .openFile) path do
      return (← IO.FS.readBinFile (systemName path)).toList
  makeDirectories path := do
    try
      IO.FS.createDirAll (systemName path)
      return .ok ()
    catch
      | .alreadyExists (some name) _ _ =>
        return .error ⟨.makeDirectory, Text.ofString name, .notDirectory⟩
      | e => return .error ⟨.makeDirectory, path, systemFault e⟩
  write path content :=
    attempt (fun _ => .openFile) path
      (IO.FS.writeBinFile (systemName path) (ByteArray.mk content.toArray))

/-- Writes a text to a stream. -/
def put (stream : IO.FS.Stream) (t : Text) : IO Unit := do
  stream.write (ByteArray.mk t.toArray)
  stream.flush

end Sic

/-- Runs the assembler on a command line. -/
def main (args : List String) : IO UInt32 := do
  let config := (← IO.getEnv "SICASM_CONFIG").getD ""
  let (result, journal) ←
    Sic.runCommand Sic.systemDisk (Sic.Text.ofString config) (args.map Sic.Text.ofString)
  let err ← IO.getStderr
  for event in journal.events do
    Sic.put err event.line
  match result with
  | .ok output =>
    Sic.put err output.notes
    Sic.put (← IO.getStdout) output.out
    return 0
  | .error failure =>
    Sic.put err failure.line
    return 1
