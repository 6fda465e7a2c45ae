import Sic.Text.Basic

/-!
# Disks

What the assembler needs of the files of a computer: reading a file, making a directory with all
directories on the way to it, and writing a file.  The operations are given by a `Disk`, so that a
command can be run on real files as well as on a tree of files held in memory.
-/

set_option autoImplicit false

namespace Sic

/-- Why the system refuses something. -/
inductive DiskFault where
  | notFound
  | notDirectory
  | isDirectory
  | alreadyThere
  | nameTooLong
  | invalid
  /-- A fault in the system's own words. -/
  | described (text : Text)
deriving DecidableEq, Repr

/-- What was asked of the system. -/
inductive DiskAction where
  | openFile
  | readFile
  | makeDirectory
deriving DecidableEq, Repr

/-- What the system refuses to do with a path, and why. -/
structure DiskError where
  action : DiskAction
  path : Text
  fault : DiskFault
deriving DecidableEq, Repr

/-- A fault, in words. -/
def DiskFault.text : DiskFault → Text
  | .notFound => "no such file or directory"
  | .notDirectory => "not a directory"
  | .isDirectory => "is a directory"
  | .alreadyThere => "file exists"
  | .nameTooLong => "file name too long"
  | .invalid => "invalid argument"
  | .described t => t

/-- An action, in words. -/
def DiskAction.text : DiskAction → Text
  | .openFile => "open"
  | .readFile => "read"
  | .makeDirectory => "mkdir"

/-- A refusal, in words. -/
def DiskError.message (e : DiskError) : Text :=
  e.action.text ++ " " ++ e.path ++ ": " ++ e.fault.text

/-- The operations on files. -/
structure Disk (m : Type → Type) where
  read : Text → m (Except DiskError Text)
  makeDirectories : Text → m (Except DiskError Unit)
  write : Text → Text → m (Except DiskError Unit)

end Sic
