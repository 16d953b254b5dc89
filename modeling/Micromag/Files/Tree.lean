import Micromag.Text.Basic

/-!
# File trees

A file tree is a list of entries in the order in which they were made. An entry has a place, which
is the list of names that lead to it from the root, and a serial number, which it keeps when it is
moved; so the later of two entries is the one with the larger serial number, and a directory can be
remembered by its number. The root directory has no entry.
-/

namespace Micromag

/-- The names that lead to an entry from the root. -/
abbrev Place := List String

/-- What an entry is. -/
inductive Node where
  /-- A directory. -/
  | directory
  /-- A file with its bytes. -/
  | file (content : List UInt8)
  /-- A symbolic link with its target. -/
  | link (target : String)
deriving DecidableEq, Repr

/-- Something in a file tree. -/
structure Entry where
  /-- Where it stands. -/
  place : Place
  /-- Its number in the order of making. -/
  serial : Nat
  /-- What it is. -/
  node : Node
deriving DecidableEq, Repr

/-- A tree of directories, files and links. -/
structure FileTree where
  /-- The entries in order of making. -/
  entries : List Entry := []
  /-- The number of the next entry. -/
  nextSerial : Nat := 1

namespace FileTree

/-- The entry at a place. -/
def entryAt? (tree : FileTree) (place : Place) : Option Entry :=
  tree.entries.find? fun entry => entry.place = place

/-- What stands at a place; the root is a directory. -/
def nodeAt? (tree : FileTree) (place : Place) : Option Node :=
  if place.isEmpty then some .directory else (tree.entryAt? place).map (·.node)

/-- The number of the entry at a place; the root has zero. -/
def serialAt? (tree : FileTree) (place : Place) : Option Nat :=
  if place.isEmpty then some 0 else (tree.entryAt? place).map (·.serial)

/-- The place of the entry with a number. -/
def placeOf? (tree : FileTree) (serial : Nat) : Option Place :=
  if serial = 0 then some []
  else (tree.entries.find? fun entry => entry.serial = serial).map (·.place)

/-- A new entry at a place. -/
def add (tree : FileTree) (place : Place) (node : Node) : FileTree :=
  ⟨tree.entries ++ [⟨place, tree.nextSerial, node⟩], tree.nextSerial + 1⟩

/-- Change what stands at a place. -/
def replace (tree : FileTree) (place : Place) (node : Node) : FileTree :=
  { tree with entries := tree.entries.map fun entry =>
      if entry.place = place then { entry with node } else entry }

/-- Put something at a place, new or in place of what stands there. -/
def put (tree : FileTree) (place : Place) (node : Node) : FileTree :=
  if (tree.entryAt? place).isSome then tree.replace place node else tree.add place node

/-- Remove an entry with everything below it. -/
def remove (tree : FileTree) (place : Place) : FileTree :=
  { tree with entries := tree.entries.filter fun entry => !place.isPrefixOf entry.place }

/-- A tree on the way to one that has fewer entries. What is spared is still there, and so is
everything in which that stands. -/
def sparing (tree fewer : FileTree) (spares : Entry → Bool) : FileTree :=
  { tree with entries := tree.entries.filter fun entry =>
      fewer.entries.contains entry ||
        tree.entries.any fun other => spares other && entry.place.isPrefixOf other.place }

/-- Move an entry with everything below it; what stood at the new place is gone. -/
def move (tree : FileTree) (source target : Place) : FileTree :=
  let cleared := if source = target then tree else tree.remove target
  { cleared with entries := cleared.entries.map fun entry =>
      if source.isPrefixOf entry.place then
        { entry with place := target ++ entry.place.drop source.length }
      else entry }

/-- The entries below a place. -/
def below (tree : FileTree) (place : Place) : List Entry :=
  tree.entries.filter fun entry => place.isPrefixOf entry.place && entry.place ≠ place

/-- The entries directly in a directory, with their names. -/
def children (tree : FileTree) (place : Place) : List (String × Entry) :=
  tree.entries.filterMap fun entry =>
    match entry.place.getLast? with
    | some name => if entry.place.dropLast = place then some (name, entry) else none
    | none => none

/-- The mark behind the name of an entry in a listing. -/
def mark : Node → String
  | .directory => "/"
  | .file _ => ""
  | .link _ => "@"

/-- Everything below a place in order, by paths from there, directories and links marked. -/
def listing (tree : FileTree) (place : Place) : List String :=
  ((tree.below place).map fun entry =>
    String.intercalate "/" (entry.place.drop place.length) ++ mark entry.node).mergeSort
    (fun a b => decide (a ≤ b))

end FileTree

end Micromag

/-!
## Changes between file trees

What has to be done to a tree to make another of it: places to clear and places to fill. The deeper
of two places is cleared first, and a directory is filled after it is made.
-/

namespace Micromag

/-- What has to be done to a tree. -/
structure FileChanges where
  /-- The entries to remove, each after what stands below it. -/
  removed : List Entry
  /-- The entries to make, each after the directory it stands in. -/
  made : List Entry
deriving Repr

namespace FileChanges

/-- Whether a tree holds an entry, whatever its number. -/
def holds (tree : FileTree) (entry : Entry) : Bool :=
  tree.nodeAt? entry.place = some entry.node

/-- Whether an entry has to go: nothing of its kind stands there later. -/
def goes (later : FileTree) (entry : Entry) : Bool :=
  match entry.node, later.nodeAt? entry.place with
  | .directory, some .directory => false
  | .file _, some (.file _) => false
  | _, some node => node ≠ entry.node
  | _, none => true

/-- The changes from a tree to a later one. -/
def between (tree later : FileTree) : FileChanges where
  removed := (tree.entries.filter (goes later)).mergeSort
    fun a b => decide (b.place.length ≤ a.place.length)
  made := (later.entries.filter fun entry => !holds tree entry).mergeSort
    fun a b => decide (a.place.length ≤ b.place.length)

end FileChanges

end Micromag
