import Micromag.Proofs.Files.Additions

/-!
# Files in a directory

A directory in which no link stands is a room for files: a file that is written under a name in it
stands at this name afterwards, and everything else is as it was. A file is found under the path of
the directory with its name, however the working directory changes.
-/

namespace Micromag

/-- Whether text can be the name of an entry, unless it is too long. -/
structure Path.Proper (name : String) : Prop where
  /-- It is one part of a path. -/
  solid : Path.Solid name
  /-- It is no single point. -/
  notHere : name ≠ "."
  /-- It is not two points. -/
  notUp : name ≠ ".."

namespace FileSystem

open FileTree

/-- A directory in which no link stands, and a path that leads there. -/
structure Room (path : String) (place : Place) (files : FileSystem) : Prop where
  /-- The files are sound. -/
  sound : files.Sound
  /-- The path starts at the root and ends in a name. -/
  spelled : ∃ names, Path.Spells path names
  /-- It leads to the directory. -/
  leads : files.locate path false = .ok ⟨place, some .directory⟩
  /-- No link stands in the directory. -/
  noLink : ∀ name target, files.tree.nodeAt? (place ++ [name]) ≠ some (.link target)

variable {files after : FileSystem} {path name : String} {place : Place} {content : List UInt8}
  {last : Bool} {spot : Spot}

/-- What is found under a name in a directory stands there, or a link to it does. -/
theorem stands_of_locate_join {names : List String} {node : Node} {other : Place}
    (spells : Path.Spells path names) (proper : Path.Proper name)
    (leads : files.locate path false = .ok ⟨place, some .directory⟩)
    (located : files.locate (Path.join path name) last = .ok ⟨other, some node⟩) :
    files.tree.nodeAt? (place ++ [name]) ≠ none := by
  intro free
  have noLink (target : String) :
      files.tree.nodeAt? (place ++ [name]) ≠ some (.link target) := by simp [free]
  obtain ⟨-, -, same⟩ := (FileSystem.locate_child spells (spells.join proper.solid) proper.notHere
    proper.notUp leads (.inr noLink)).mp located
  rw [free] at same
  cases (Spot.mk.inj same).2

namespace Room

/-- The path of the directory with a name leads to this name in the directory. -/
theorem locate_child (room : Room path place files) (proper : Path.Proper name) :
    files.locate (Path.join path name) last = .ok spot ↔
      checkPath (Path.join path name) = .ok () ∧ Enters name ∧
        spot = ⟨place ++ [name], files.tree.nodeAt? (place ++ [name])⟩ := by
  obtain ⟨names, spells⟩ := room.spelled
  exact FileSystem.locate_child spells (spells.join proper.solid) proper.notHere proper.notUp
    room.leads (.inr (room.noLink name))

/-- The file that is found under a name. -/
theorem contentOf_iff (room : Room path place files) (proper : Path.Proper name) :
    files.contentOf (Path.join path name) = .ok content ↔
      checkPath (Path.join path name) = .ok () ∧ Enters name ∧
        files.tree.nodeAt? (place ++ [name]) = some (.file content) := by
  rw [contentOf_ok]
  constructor
  · rintro ⟨other, located⟩
    obtain ⟨checked, enters, same⟩ := (room.locate_child proper).mp located
    exact ⟨checked, enters, (Spot.mk.inj same).2.symm⟩
  · rintro ⟨checked, enters, stands⟩
    exact ⟨_, (room.locate_child proper).mpr ⟨checked, enters, by rw [stands]⟩⟩

/-- No file is found under a name where none stands. -/
theorem not_isFile (room : Room path place files) (proper : Path.Proper name)
    (free : ∀ content, files.tree.nodeAt? (place ++ [name]) ≠ some (.file content)) :
    files.isFile (Path.join path name) = false := by
  rw [Bool.eq_false_iff]
  intro file
  obtain ⟨other, content, located⟩ := isFile_iff.mp file
  obtain ⟨-, -, same⟩ := (room.locate_child proper).mp located
  exact free content (Spot.mk.inj same).2.symm

/-- A file is written under a name, and nothing else changes. -/
theorem writeFile (room : Room path place files) (proper : Path.Proper name)
    (wrote : files.writeFile (Path.join path name) content = .ok after) :
    Room path place after ∧
      after = { files with tree := files.tree.put (place ++ [name]) (.file content) } ∧
      after.contentOf (Path.join path name) = .ok content := by
  obtain ⟨sound, same⟩ := room.sound.writeFile wrote
  have stored := room.sound.contentOf_writeFile wrote
  obtain ⟨above, other, node, located, _, _, _, rfl⟩ := room.sound.writeFile_ok wrote
  obtain ⟨-, -, spot⟩ := (room.locate_child proper).mp located
  rw [(Spot.mk.inj spot).1] at sound same stored ⊢
  have nodes (other : Place) :
      (files.tree.put (place ++ [name]) (.file content)).nodeAt? other =
        if other = place ++ [name] then some (.file content) else files.tree.nodeAt? other :=
    nodeAt?_put (List.concat_ne_nil _ _)
  refine ⟨⟨sound, room.spelled, ?_, fun other target => ?_⟩, rfl, stored⟩
  · have leads := same.locate room.leads
    have stays : files.tree.nodeAt? place = some .directory := (node_of_locate room.leads).symm
    dsimp only at leads
    rwa [nodes, if_neg (by simp), stays] at leads
  · dsimp only
    rw [nodes]
    split
    · simp
    · exact room.noLink other target

/-- What stands elsewhere after a file was written. -/
theorem nodeAt?_writeFile (room : Room path place files) (proper : Path.Proper name)
    (wrote : files.writeFile (Path.join path name) content = .ok after) {other : Place}
    (differs : other ≠ place ++ [name]) : after.tree.nodeAt? other = files.tree.nodeAt? other := by
  obtain ⟨-, rfl, -⟩ := room.writeFile proper wrote
  dsimp only
  rw [nodeAt?_put (List.concat_ne_nil _ _), if_neg differs]

/-- The working directory does not matter. -/
theorem enter (room : Room path place files) {number : Nat}
    (sound : FileSystem.Sound { files with workingDir := number }) :
    Room path place { files with workingDir := number } := by
  obtain ⟨names, spells⟩ := room.spelled
  obtain ⟨checked, followed⟩ := (locate_spells spells).mp room.leads
  exact ⟨sound, ⟨names, spells⟩, (locate_spells spells).mpr ⟨checked, followed⟩, room.noLink⟩

end Room

end FileSystem

end Micromag
