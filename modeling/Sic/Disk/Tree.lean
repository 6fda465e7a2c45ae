import Sic.Disk
import Sic.Disk.Path

/-!
# A tree of files in memory

The directories and files below a working directory.  A path leads through directories only; what
lies above the working directory is not part of the tree.
-/

set_option autoImplicit false

namespace Sic

/-- The directories and files of a tree, each by the names on the way to it. -/
structure Tree where
  directories : List (List Text)
  files : List (List Text × Text)

namespace Tree

/-- Adds a directory with those on the way to it. -/
def addDirectory (t : Tree) (names : List Text) : Tree :=
  let way := (List.range names.length).map fun n => names.take (n + 1)
  { t with directories := t.directories ++ way.filter (!t.directories.contains ·) }

/-- Adds a file, or replaces its content. -/
def putFile (t : Tree) (names : List Text) (content : Text) : Tree :=
  { t with files := t.files.filter (·.1 ≠ names) ++ [(names, content)] }

/-- The tree with some directories and files, given by their paths. -/
def ofPaths (directories : List Text) (files : List (Text × Text)) : Tree :=
  let t := directories.foldl (fun t path => t.addDirectory (Path.parts path)) ⟨[], []⟩
  files.foldl (fun t (path, content) =>
    let names := Path.parts path
    (t.addDirectory names.dropLast).putFile names content) t

/-- Where a path leads. -/
inductive Place where
  | directory (names : List Text)
  | file (names : List Text) (content : Text)
  /-- A name that is not in its directory. -/
  | absent (names : List Text)
  /-- A directory above the working directory. -/
  | above
  /-- A name that is not in a directory above the working directory. -/
  | absentAbove
deriving DecidableEq, Repr

/-- The longest name the system allows. -/
def maxName : Nat := 255

/-- The length at which the system refuses a path. -/
def maxPath : Nat := 4096

/-- What lies at some names below the working directory. -/
def lookup (t : Tree) (names : List Text) : Place :=
  match t.files.find? (·.1 = names) with
  | some (_, content) => .file names content
  | none => if names.isEmpty || t.directories.contains names then .directory names else .absent names

/-- Follows one part of a path. -/
def follow (t : Tree) (place : Place) (part : Text) : Except DiskFault Place :=
  match place with
  | .file .. => .error .notDirectory
  | .absent _ => .error .notFound
  | .absentAbove => .error .notFound
  | .above => if part = "." || part = ".." then .ok .above else .ok .absentAbove
  | .directory names =>
    if part = "." then .ok place
    else if part = ".." then .ok (if names.isEmpty then .above else .directory names.dropLast)
    else if maxName < part.length then .error .nameTooLong
    else .ok (t.lookup (names ++ [part]))

/-- Follows a path.  A slash at its end asks for a directory. -/
def resolve (t : Tree) (path : Text) : Except DiskFault Place :=
  if path.isEmpty then .error .notFound
  else if path.contains 0 then .error .invalid
  else if maxPath ≤ path.length then .error .nameTooLong
  else
    let parts := Path.parts path
    let parts := if path.getLast? = some 0x2F then parts ++ [[0x2E]] else parts
    parts.foldlM t.follow (if Path.isAbsolute path then .above else .directory [])

/-- Reads a file. -/
def read (t : Tree) (path : Text) : Except DiskError Text :=
  match t.resolve path with
  | .ok (.file _ content) => .ok content
  | .ok (.directory _) | .ok .above => .error ⟨.readFile, path, .isDirectory⟩
  | .ok (.absent _) | .ok .absentAbove => .error ⟨.openFile, path, .notFound⟩
  | .error fault => .error ⟨.openFile, path, fault⟩

/-- Writes a file. -/
def write (t : Tree) (path content : Text) : Except DiskError Tree :=
  match t.resolve path with
  | .ok (.file names _) | .ok (.absent names) => .ok (t.putFile names content)
  | .ok (.directory _) | .ok .above => .error ⟨.openFile, path, .isDirectory⟩
  | .ok .absentAbove => .error ⟨.openFile, path, .notFound⟩
  | .error fault => .error ⟨.openFile, path, fault⟩

/-- A path without the slashes at its end. -/
def dropSlashes (path : Text) : Text := (path.reverse.dropWhile (· == 0x2F)).reverse

/-- The path of the directory that a path names something in, if it names one. -/
def parent? (path : Text) : Option Text :=
  let up := ((dropSlashes path).reverse.dropWhile (· != 0x2F)).reverse
  if up.length ≤ 1 then none else some up.dropLast

/-- Makes one directory, if it is not there. -/
def makeDirectory (t : Tree) (path : Text) : Except DiskError Tree :=
  match t.resolve (if path = [0x2F] then path else dropSlashes path) with
  | .ok (.absent names) => .ok (t.addDirectory names)
  | .ok (.file ..) => .error ⟨.makeDirectory, path, .alreadyThere⟩
  | .ok .absentAbove => .error ⟨.makeDirectory, path, .notFound⟩
  | .ok (.directory _) | .ok .above => .ok t
  | .error fault => .error ⟨.makeDirectory, path, fault⟩

/-- Makes a directory and those on the way to it, at most `bound` of them. -/
def makeDirectories (t : Tree) : Nat → Text → Except DiskError Tree
  | 0, _ => .ok t
  | bound + 1, path =>
    match t.resolve path with
    | .ok (.directory _) | .ok .above => .ok t
    | .ok (.file ..) => .error ⟨.makeDirectory, path, .notDirectory⟩
    | _ =>
      match parent? path with
      | none => t.makeDirectory path
      | some up =>
        match t.makeDirectories bound up with
        | .error e => .error e
        | .ok t => t.makeDirectory path

/-- A tree as a disk. -/
def disk : Disk (StateM Tree) where
  read path := do return (← get).read path
  makeDirectories path := do
    match (← get).makeDirectories (path.length + 1) path with
    | .error e => return .error e
    | .ok t => set t; return .ok ()
  write path content := do
    match (← get).write path content with
    | .error e => return .error e
    | .ok t => set t; return .ok ()

/-- The files of a tree that another does not have with the same content, by their paths. -/
def changes (before after : Tree) : List (Text × Text) :=
  (after.files.filter (!before.files.contains ·)).map fun (names, content) =>
    (Text.join "/" names, content)

end Tree

end Sic
