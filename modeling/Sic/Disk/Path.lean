import Sic.Text.Basic

/-!
# Paths

Paths are texts whose parts are divided by slashes.  `Path.join` puts two together and cleans the
result: it has no empty part and no `.`, and a `..` only where nothing is left to go up from.
-/

set_option autoImplicit false

namespace Sic

namespace Path

/-- The parts of a path. -/
def parts (path : Text) : List Text := (path.splitOn 0x2F).filter (!·.isEmpty)

/-- Whether a path begins at the root. -/
def isAbsolute (path : Text) : Bool := path.head? = some 0x2F

/-- Takes one more part to cleaned parts, the last of which comes first. -/
def cleanPart (absolute : Bool) (done : List Text) (part : Text) : List Text :=
  if part = "." then done
  else if part = ".." then
    match done with
    | [] => if absolute then [] else [part]
    | last :: rest => if last = ".." then part :: done else rest
  else part :: done

/-- A path in its shortest form. -/
def clean (path : Text) : Text :=
  let absolute := isAbsolute path
  let cleaned := Text.join "/" ((parts path).foldl (cleanPart absolute) []).reverse
  if absolute then 0x2F :: cleaned else if cleaned.isEmpty then "." else cleaned

/-- A name below a directory. -/
def join (directory name : Text) : Text :=
  clean (if directory.isEmpty then name else directory ++ "/" ++ name)

end Path

end Sic
