import Micromag.Files.System
import Micromag.Shell.Glob

/-!
# Fields

An expanded word is a sequence of characters, some of which are quoted and some of which came from
expansions. It is split into fields at separators that came from expansions and are not quoted. A
field that is a pattern is replaced by the paths that match it, if there are any.
-/

namespace Micromag.Shell

/-- A piece of an expanded word. -/
inductive Atom where
  /-- A character of the script. -/
  | written (mark : Mark)
  /-- An unquoted character of an expansion. -/
  | expanded (c : Char)
  /-- Quotes were here, so the field is kept even if it is empty. -/
  | kept
  /-- The field ends here. -/
  | cut
deriving DecidableEq, Repr

namespace Atom

/-- The pieces of a quoted text. -/
def ofQuoted (text : Text) : List Atom :=
  .kept :: text.map fun c => .written ⟨c, true⟩

/-- The pieces of a text from an expansion. -/
def ofExpansion (quoted : Bool) (text : Text) : List Atom :=
  if quoted then ofQuoted text else text.map .expanded

/-- The character of a piece. -/
def mark? : Atom → Option Mark
  | written mark => some mark
  | expanded c => some ⟨c, false⟩
  | kept | cut => none

/-- The characters of pieces. -/
def marks (atoms : List Atom) : List Mark := atoms.filterMap mark?

/-- The text of pieces. -/
def text (atoms : List Atom) : Text := (marks atoms).map (·.char)

end Atom

/-- A field that is being put together. -/
structure FieldScan where
  /-- The characters so far, the latest first. -/
  marks : List Mark := []
  /-- The field is kept even if it is empty. -/
  isKept : Bool := false
  /-- A blank separator has ended the field before. -/
  afterBlank : Bool := false

namespace FieldScan

/-- Whether there is a field. -/
def isField (scan : FieldScan) : Bool := scan.isKept || !scan.marks.isEmpty

/-- The field, if there is one, in front of others. -/
def close (scan : FieldScan) (others : List (List Mark)) : List (List Mark) :=
  if scan.isField then scan.marks.reverse :: others else others

/-- The fields of pieces. -/
def fields (separators : Text) (scan : FieldScan) : List Atom → List (List Mark)
  | [] => scan.close []
  | .written mark :: rest => fields separators { scan with marks := mark :: scan.marks } rest
  | .kept :: rest => fields separators { scan with isKept := true } rest
  | .cut :: rest => scan.close (fields separators {} rest)
  | .expanded c :: rest =>
    if !separators.contains c then
      fields separators { scan with marks := ⟨c, false⟩ :: scan.marks } rest
    else if " \t\n".toList.contains c then
      if scan.isField then scan.close (fields separators { afterBlank := true } rest)
      else fields separators scan rest
    else if scan.afterBlank && !scan.isField then fields separators {} rest
    else scan.marks.reverse :: fields separators {} rest

end FieldScan

/-- The fields of an expanded word. -/
def fieldsOf (separators : Text) (atoms : List Atom) : List (List Mark) :=
  FieldScan.fields separators {} atoms

namespace Glob

/-- Marks between slashes. -/
def components : List Mark → List (List Mark)
  | [] => [[]]
  | mark :: rest =>
    match components rest with
    | [] => [[mark]]
    | first :: others =>
      if mark.char = '/' then [] :: first :: others else (mark :: first) :: others

/-- The names in a directory that match a pattern, in order. A point at the start is matched by a
point only. -/
def names (files : FileSystem) (directory : String) (pattern : Glob) : List Text :=
  match files.list (if directory.isEmpty then "." else directory) with
  | .error _ => []
  | .ok found =>
    let names := found.map fun entry => Text.ofString entry.1
    let points := if pattern.head? = some (.one '.') then [['.'], ['.', '.']] else []
    let shown := (points ++ names).filter fun name =>
      isMatch pattern name && (name.head? ≠ some '.' || pattern.head? = some (.one '.'))
    shown.mergeSort fun a b => decide (a.map Char.toNat ≤ b.map Char.toNat)

/-- The paths that lead on from a base by components. -/
def pathsFrom (files : FileSystem) (base : Text) : List (List Mark) → List Text
  | [] => [base]
  | component :: rest =>
    let pattern := ofWord component
    let slash : Text := if rest.isEmpty then [] else ['/']
    let next (name : Text) : List Text := pathsFrom files (base ++ name ++ slash) rest
    if isOpen pattern then (names files base.string pattern).flatMap next
    else
      let name := component.map (·.char)
      let path := (base ++ name).string
      if path.isEmpty || rest.isEmpty && name.isEmpty || (files.locate path true).toOption.any
          (·.node.isSome) then next name
      else []

/-- The paths that a field stands for: the field itself if it is no pattern or matches nothing. -/
def paths (files : FileSystem) (field : List Mark) : List Text :=
  if isOpen (ofWord field) then
    match pathsFrom files [] (components field) with
    | [] => [field.map (·.char)]
    | found => found
  else [field.map (·.char)]

end Glob

end Micromag.Shell
