import Micromag.Text.Basic

/-!
# Paths

A path is text in which slashes separate names. A path that starts with a slash is absolute. Empty
names and names of a single point say nothing; two points go back to the parent, but only where the
path is followed, since a link may lie before them.
-/

namespace Micromag.Path

/-- The parts between slashes, empty ones too. -/
def parts (path : String) : List String := (Text.splitOn '/' path.toList).map String.ofList

/-- Whether a path starts at the root. -/
def isAbsolute (path : String) : Bool := path.toList.head? = some '/'

/-- Whether a path ends in a slash. -/
def endsInSlash (path : String) : Bool := path.toList.getLast? = some '/'

/-- A path followed from another one. -/
def join (base path : String) : String :=
  if isAbsolute path || base.isEmpty then path
  else if endsInSlash base then base ++ path
  else base ++ "/" ++ path

/-- The names of a path; those that say nothing are left out, except one point at the start of a
relative path. -/
def names (path : String) : List String :=
  let all := parts path
  let meaningful := all.filter fun name => name ≠ "" && name ≠ "."
  if all.head? = some "." then "." :: meaningful else meaningful

/-- The last name of a path, if it names something. -/
def fileName? (path : String) : Option String :=
  match (names path).getLast? with
  | some name => if name = "." || name = ".." then none else some name
  | none => none

/-- A name without what follows its last point; a point at the start does not count. -/
def stemOf (name : String) : String :=
  match (Text.splitOn '.' name.toList).reverse with
  | _ :: last :: before =>
    let stem := List.intercalate ['.'] (last :: before).reverse
    if stem.isEmpty then name else String.ofList stem
  | _ => name

/-- The last name of a path without what follows its last point. -/
def stem? (path : String) : Option String := (fileName? path).map stemOf

/-- The start of an absolute path: one slash, or exactly two, which some systems tell apart. -/
def root (path : String) : String :=
  match path.toList with
  | '/' :: '/' :: '/' :: _ => "/"
  | '/' :: '/' :: _ => "//"
  | _ => "/"

/-- An absolute path for a path, from a working directory: names that say nothing go, a slash at the
end stays, and nothing is looked up. An empty path has none. -/
def absolute? (workingDir path : String) : Option String :=
  if path.isEmpty then none
  else
    let meaningful := (names path).filter (· ≠ ".")
    let base := if isAbsolute path then root path else workingDir
    let joined := meaningful.foldl join base
    some (if endsInSlash path then join joined "" else joined)

end Micromag.Path
