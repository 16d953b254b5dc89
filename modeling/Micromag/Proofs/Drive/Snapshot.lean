import Micromag.Proofs.Drive.Artifact
import Micromag.Proofs.Drive.Filling
import Micromag.Proofs.Files.Pattern
import Micromag.Proofs.Manifest

/-!
# The magnetisation from drive to drive

When the directory of a drive is made where nothing was, the engine finds the magnetisation of the
problem in it, and a drive that succeeds takes over the latest magnetisation that the engine left
there, which no file of the drive itself can be. So the next drive gives the engine what the one
before took over.
-/

namespace Micromag

open FileSystem

/-- Whether an engine leaves sound files. -/
def Engine.KeepsSound (engine : Engine) : Prop := ∀ script, FileAction.KeepsSound (engine script)

namespace Drive

variable {files entered after made left : FileSystem} {options : DriveOptions} {intent : Intent}
  {problem : Problem} {staged : Staged} {now : Timestamp} {engine : Engine} {place : Place}
  {path name : String}

/-! ## The names of magnetisations -/

/-- The pattern of the names under which the engine writes magnetisations. -/
def snapshotPattern (name : String) : Pattern := .around (name ++ "-") ".omf"

/-- The pattern of a legal name is read as such. -/
theorem ofText?_snapshotPattern (legal : Problem.isLegalName name = true) :
    Pattern.ofText? (name ++ "-*.omf") = some (snapshotPattern name) := by
  have plain (c : Char) (inside : c ∈ name.toList) : Pattern.isPlain c = true := by
    have all := List.all_eq_true.mp (Bool.and_eq_true_iff.mp legal).2 c inside
    have special : ("?*[\x7b\x7d,\\".toList.all fun c =>
        !(Text.isNameChar c || c = '-' || c = '.')) = true := by decide
    unfold Pattern.isPlain
    rw [Bool.not_eq_true', Bool.eq_false_iff]
    intro member
    have refused := List.all_eq_true.mp special c (List.contains_iff_mem.mp member)
    rw [all] at refused
    cases refused
  have text : name ++ "-*.omf" = name ++ "-" ++ "*" ++ ".omf" := by
    have parts : "-*.omf" = "-" ++ "*" ++ ".omf" := by decide
    rw [parts, String.append_assoc, String.append_assoc, String.append_assoc]
  rw [text]
  refine Pattern.ofText?_around (fun c inside => ?_) fun c inside => ?_
  · rw [String.toList_append, List.mem_append] at inside
    rcases inside with inside | dash
    · exact plain c inside
    · rw [List.mem_singleton.mp dash]
      decide
  · have ending : (".omf".toList.all Pattern.isPlain) = true := by decide
    exact List.all_eq_true.mp ending c inside

/-- Such a name has a dash. -/
theorem dash_of_matches {other : String}
    (fits : (snapshotPattern name).matchesName other = true) : '-' ∈ other.toList := by
  obtain ⟨middle, bytes⟩ := Pattern.matchesName_around.mp fits
  have front : Text.Utf8.ofString (name ++ "-") =
      Text.Utf8.ofString name ++ [UInt8.ofNat '-'.toNat] := by
    unfold Text.Utf8.ofString
    rw [String.toList_append, Text.Utf8.encode_append]
    rfl
  apply Text.Utf8.mem_of_mem_encode (by decide)
  have member : UInt8.ofNat '-'.toNat ∈ Text.Utf8.ofString other := by
    rw [bytes, front]
    simp
  exact member

/-- A name with another ending is not one. -/
theorem not_matches_of_ending {other ending : String} (differs : ending ≠ ".omf")
    (long : (Text.Utf8.ofString ending).length = 4) :
    (snapshotPattern name).matchesName (other ++ ending) = false := by
  rw [Bool.eq_false_iff]
  intro fits
  obtain ⟨middle, bytes⟩ := Pattern.matchesName_around.mp fits
  have split : Text.Utf8.ofString (other ++ ending) =
      Text.Utf8.ofString other ++ Text.Utf8.ofString ending := by
    unfold Text.Utf8.ofString
    rw [String.toList_append, Text.Utf8.encode_append]
  have four : (Text.Utf8.ofString ".omf").length = 4 := by decide
  rw [split] at bytes
  have same := List.append_inj_right' bytes (long.trans four.symm)
  have read := Text.Utf8.decodeLossy_encode ending.toList
  have again := Text.Utf8.decodeLossy_encode ".omf".toList
  unfold Text.Utf8.ofString at same
  rw [same, again] at read
  exact differs (String.toList_inj.mp read).symm

/-- Neither the script nor a field file has such a name. -/
theorem apart_of_matches {other : String}
    (fits : (snapshotPattern problem.name).matchesName other = true) {settings : ScriptSettings}
    {platform : Platform} {script : LoweredScript}
    (lowers : problem.lower intent settings platform = .ok script) :
    other ≠ problem.name ++ ".mif" ∧ other ∉ script.sidecars.map (·.fileName) := by
  refine ⟨?_, fun member => ?_⟩
  · rintro rfl
    rw [not_matches_of_ending (by decide) (by decide)] at fits
    cases fits
  · obtain ⟨sidecar, inside, rfl⟩ := List.mem_map.mp member
    have supplies := (Problem.lower_supplies lowers).2
    obtain ⟨id, identifier, same | same⟩ :=
      (supplies.fits sidecar (supplies.asked ▸ inside)).named
    · rw [same, not_matches_of_ending (by decide) (by decide)] at fits
      cases fits
    · have dash := dash_of_matches fits
      rw [same, String.toList_append, List.mem_append] at dash
      rcases dash with inside | inside
      · exact Text.notMem_of_isIdentifier identifier (by decide) inside
      · exact absurd inside (by decide)

/-! ## The magnetisation that the engine finds -/

/-- Whether a field with the values of another is read from a file: bit for bit, except for loose
values, which are not in the file and come back only if they happen to be what the bytes after the
data stand for. -/
def ReadsBack (m : Field Float) (path : String) (files : FileSystem) : Prop :=
  ∃ found, (Artifact.readField path files).1 = .ok found ∧
    (found.values = m.values ↔ m.values.drop (m.values.length - FieldFile.loose m) =
      FieldFile.readWords FieldFile.double .little (FieldFile.loose m) FieldFile.footer) ∧
    (m.mesh.count .x * m.mesh.count .y * m.mesh.count .z * m.dim < 2 ^ 64 →
      found.values = m.values)

/-- The magnetisation of a lowered problem is usable, and so is its mesh. -/
theorem usable_of_lower {settings : ScriptSettings} {platform : Platform} {script : LoweredScript}
    (lowers : problem.lower intent settings platform = .ok script) :
    problem.m.mesh.validate = .ok () ∧
      Sidecar.Fits ⟨problem.mesh, platform⟩ ⟨"m0.omf", problem.m, false⟩ := by
  obtain ⟨accepted, supplies⟩ := Problem.lower_supplies lowers
  refine ⟨accepted.mesh, supplies.fits _ ?_⟩
  exact List.mem_append_right _ List.mem_cons_self

/-- The engine finds the magnetisation of the problem. -/
theorem Laid.readsBack (laid : Laid problem staged place files)
    (lowers : problem.lower intent options.settings options.platform = .ok staged.script)
    (memory : 8 * problem.m.values.length + 9 < 2 ^ 63) :
    ReadsBack problem.m (Path.join staged.directory "m0.omf") files := by
  obtain ⟨mesh, fits⟩ := usable_of_lower lowers
  have usable : problem.m.Usable := Field.validate_ok_iff.mp fits.usable
  have three : problem.m.dim = 3 := fits.dim
  have dim : FieldFile.writtenDim problem.m false = problem.m.dim := by
    simp [FieldFile.writtenDim]
  have small : (FieldFile.dataBytes .binary8 (FieldFile.writtenCells problem.m false)).length <
      2 ^ 63 := by
    rw [FieldFile.length_dataBytes, FieldFile.flatten_writtenCells usable dim, List.length_take]
    omega
  obtain ⟨back, -, -, same, exact_⟩ := FieldFile.read_write_exact_iff problem.m
    (Path.join staged.directory "m0.omf") false mesh fits.usable
    (fits.oneLine staged.directory) (FieldFile.meshReadsBack _) small
  have restored : (FieldFile.restored problem.m false).values = problem.m.values := by
    simp [FieldFile.restored]
  have whole : FieldFile.recovered problem.m false = FieldFile.restored problem.m false ↔
      (FieldFile.recovered problem.m false).values = problem.m.values := by
    constructor
    · intro equal
      rw [equal, restored]
    · intro equal
      calc FieldFile.recovered problem.m false
        _ = { FieldFile.restored problem.m false with
              values := (FieldFile.recovered problem.m false).values } := rfl
        _ = { FieldFile.restored problem.m false with
              values := (FieldFile.restored problem.m false).values } := by rw [equal, restored]
  refine ⟨FieldFile.recovered problem.m false, ?_, ?_, fun few => ?_⟩
  · rw [Artifact.readField_of_contentOf laid.magnetisation, back]
    rfl
  · rw [← whole, same]
  · rw [exact_ few, restored]

/-! ## The magnetisation that the engine leaves -/

/-- Changing the working directory leaves the tree, and the files sound. -/
theorem leave_files (previous : String) (left : FileSystem) :
    (WorkingDir.leave previous left).tree = left.tree ∧
      (left.Sound → (WorkingDir.leave previous left).Sound) := by
  unfold WorkingDir.leave
  cases changed : left.changeDirectory previous with
  | error cause => exact ⟨rfl, id⟩
  | ok after =>
    obtain ⟨place, serial, leads, numbered, rfl⟩ := changeDirectory_ok.mp changed
    refine ⟨rfl, fun sound => (sound_enter sound.tree ?_ numbered).1⟩
    exact (node_of_locate (directoryOf_ok.mp leads)).symm

/-- What an absolute path leads to does not hang on the working directory. -/
theorem nodeOf_leave (absolute : Path.isAbsolute path = true) (previous : String)
    (left : FileSystem) : (WorkingDir.leave previous left).nodeOf path = left.nodeOf path := by
  have tree := (leave_files previous left).1
  unfold nodeOf locate
  rw [tree, startOf_absolute absolute, startOf_absolute absolute]

/-- Everything is still there when the working directory changes. -/
theorem outlast_leave (previous : String) (left : FileSystem) :
    Artifact.Outlast left (WorkingDir.leave previous left) where
  directory path place absolute leads := by
    unfold directoryOf
    rw [nodeOf_leave absolute]
    exact leads
  stands place there := by
    rw [(leave_files previous left).1]
    exact there
  file path absolute there := by
    unfold isFile serialOf?
    rw [nodeOf_leave absolute, (leave_files previous left).1]
    exact ⟨there, rfl⟩

/-- Everything is still there when a file is written. -/
theorem outlast_writeFile (sound : files.Sound) {content : List UInt8}
    (wrote : files.writeFile path content = .ok after) : Artifact.Outlast files after := by
  obtain ⟨-, ground⟩ := sound.writeFile wrote
  obtain ⟨above, last, node, _, _, _, ends, rfl⟩ := sound.writeFile_ok wrote
  have below : above ++ [last] ≠ [] := List.concat_ne_nil _ _
  refine ⟨fun path place _ leads => ?_, fun place there => ?_, fun path _ there => ?_⟩
  · exact directoryOf_ok.mpr (locate_extends_directory ground.extends_
      (startOf_congr ground.working) (directoryOf_ok.mp leads))
  · dsimp only
    rw [FileTree.nodeAt?_put below]
    split
    · simp
    · exact there
  · obtain ⟨place, old, located⟩ := isFile_iff.mp there
    have stands : files.tree.nodeAt? place = some (.file old) := (node_of_locate located).symm
    obtain ⟨new, still⟩ : ∃ new, (files.tree.put (above ++ [last]) (.file content)).nodeAt? place =
        some (.file new) := by
      rw [FileTree.nodeAt?_put below, stands]
      split
      · exact ⟨content, rfl⟩
      · exact ⟨old, rfl⟩
    have leads := ground.locate located
    dsimp only at leads
    rw [still] at leads
    refine ⟨isFile_iff.mpr ⟨place, new, leads⟩, ?_⟩
    unfold serialOf?
    rw [nodeOf_ok.mpr leads, nodeOf_ok.mpr located]
    exact FileTree.serialAt?_put below (by simp [stands])

/-- A file with other bytes than those that are written was there before. -/
theorem contentOf_of_writeFile (sound : files.Sound) {content bytes : List UInt8}
    {other : String} (wrote : files.writeFile path content = .ok after)
    (found : after.contentOf other = .ok bytes) (differs : bytes ≠ content) :
    files.contentOf other = .ok bytes := by
  obtain ⟨above, last, node, _, _, _, ends, rfl⟩ := sound.writeFile_ok wrote
  obtain ⟨-, ground⟩ := sound.writeFile wrote
  obtain ⟨place, located⟩ := contentOf_ok.mp found
  have back := ground.symm.locate located
  have stands := node_of_locate located
  dsimp only at stands back
  rw [FileTree.nodeAt?_put (List.concat_ne_nil _ _)] at stands
  by_cases same : place = above ++ [last]
  · rw [if_pos same] at stands
    exact absurd (Node.file.inj (Option.some.inj stands)) differs
  · rw [if_neg same] at stands
    rw [← stands] at back
    exact contentOf_ok.mpr ⟨place, back⟩

/-- The snapshot in a directory is the latest magnetisation there. -/
theorem snapshot_ok (legal : Problem.isLegalName name = true)
    (found : (snapshot directory name files).1 = .ok path) :
    ∃ other, path = Path.join directory other ∧
      Artifact.IsLatest files directory (snapshotPattern name) other := by
  have whole : snapshot directory name files = (.ok path, files) :=
    ((looksOnly_snapshot directory name).apply files).trans (congrArg (·, files) found)
  obtain ⟨taken, middle, looked, rest⟩ := Action.bind_ok.mp whole
  cases taken with
  | none => cases (Prod.mk.inj rest).1
  | some other =>
    obtain rfl : other = path := Except.ok.inj (Prod.mk.inj rest).1
    exact Artifact.latest?_ok (ofText?_snapshotPattern legal) looked

/-- Names that are listed in sound files are parts of paths and no points. -/
theorem proper_of_listed (sound : files.Sound) (listed : Artifact.Listed files directory name) :
    Path.Proper name := by
  obtain ⟨found, shown, member⟩ := listed
  obtain ⟨place, leads, children⟩ := Result.bind_ok.mp shown
  obtain rfl := Except.ok.inj children
  obtain ⟨node, stands⟩ :=
    Option.ne_none_iff_exists'.mp (FileTree.mem_children_names.mp member)
  have plain := (sound.tree.parent stands).2
  exact ⟨plain.solid, plain.enters.notHere, plain.enters.notUp⟩

/-- Where a file is found under a name in a directory, the name is listed. -/
theorem listed_of_isFile (sound : files.Sound) {names : List String}
    (spells : Path.Spells directory names) (proper : Path.Proper name)
    (file : files.isFile (Path.join directory name) = true) :
    Artifact.Listed files directory name := by
  obtain ⟨place, content, located⟩ := isFile_iff.mp file
  have checked := (locate_ok_iff.mp located).1
  have front := checkPath_of_join spells.absolute proper.solid checked
  obtain ⟨above, leads⟩ := isDirectory_iff.mp (sound.locate_front proper.solid front located)
  refine ⟨files.tree.children above, ?_, FileTree.mem_children_names.mpr ?_⟩
  · unfold FileSystem.list
    rw [directoryOf_ok.mpr leads]
    rfl
  · exact stands_of_locate_join spells proper leads located

/-- The script of a drive is that of its problem. -/
theorem lower_of_staging (began : staging options intent problem files = (.ok staged, entered)) :
    problem.lower intent options.settings options.platform = .ok staged.script := by
  obtain ⟨opened, made, opens, rest⟩ := Action.bind_ok.mp began
  obtain ⟨path, filled, fills, rest⟩ := Action.bind_ok.mp rest
  obtain ⟨previous, inside, enters, last⟩ := Action.bind_ok.mp rest
  obtain ⟨base, lowers, -⟩ := opening_ok opens
  rw [← Except.ok.inj (Prod.mk.inj last).1]
  exact lowers

/-- Whether a field is what a drive takes over from the files that the engine left: it is read from
the latest magnetisation in the directory of the drive, which the engine wrote. -/
structure Takes (problem : Problem) (staged : Staged) (entered left : FileSystem) (name : String)
    (found : Field Float) : Prop where
  /-- No other magnetisation was made later, and none at the same time has a greater name. -/
  latest : Artifact.IsLatest left staged.directory (snapshotPattern problem.name) name
  /-- It is not the script. -/
  notScript : name ≠ problem.name ++ ".mif"
  /-- It is none of the field files of the drive. -/
  notSidecar : name ∉ staged.script.sidecars.map (·.fileName)
  /-- It was not there when the engine began. -/
  isNew : entered.isFile (Path.join staged.directory name) = false
  /-- The field is read from the bytes that the engine left. -/
  read : ∃ bytes, left.contentOf (Path.join staged.directory name) = .ok bytes ∧
    FieldFile.read bytes = .ok found

/-- What a field is read from is no manifest, and it was there before the manifest was written. -/
theorem read_before_manifest (sound : files.Sound) {manifest : Manifest} {found : Field Float}
    (wrote : writeManifest directory manifest files = (.ok (), after))
    (read : (Artifact.readField path after).1 = .ok found) :
    ∃ bytes, files.contentOf path = .ok bytes ∧ FieldFile.read bytes = .ok found := by
  obtain ⟨bytes, looked, accepted⟩ := (FileAction.looksOnly_look _ _ _).bind_ok.mp
    (((Artifact.looksOnly_readField path).apply after).trans (congrArg (·, after) read))
  have content : after.contentOf path = .ok bytes := Result.mapError_ok.mp looked
  have field : FieldFile.read bytes = .ok found :=
    Result.mapError_ok.mp (Prod.mk.inj accepted).1
  refine ⟨bytes, contentOf_of_writeFile sound (Artifact.writeText_ok.mp wrote) content ?_, field⟩
  intro same
  rw [same] at field
  exact Manifest.read_ne_ok manifest found field

end Drive

namespace Session

variable {session after : Session} {now : Timestamp} {engine : Engine} {options : DriveOptions}
  {intent : Intent} {outcome : DriveOutcome}

/-- A drive that succeeds is a run that succeeds, from which the magnetisation and the table are
taken over. -/
theorem drive_ok : Session.drive now engine options intent session = (.ok outcome, after) ↔
    ∃ files m table,
      Drive.run now engine options intent session.problem session.files = (.ok outcome, files) ∧
        Drive.takenMagnetisation outcome.directory { session with files } = .ok m ∧
        (Artifact.readTable (Drive.tablePath outcome.directory session.problem) true files).1 =
          .ok table ∧
        after = ⟨files, { session.problem with
          m, table := some table, driveNumber := session.problem.driveNumber + 1 }⟩ := by
  rw [drive_apply]
  constructor
  · intro driven
    rcases ran : Drive.run now engine options intent session.problem session.files with
      ⟨result, files⟩
    rw [ran] at driven
    cases result with
    | error fault => cases driven
    | ok outcome =>
      dsimp only at driven
      rw [Drive.hydrate_apply] at driven
      cases taken : Drive.takenMagnetisation outcome.directory { session with files } with
      | error fault =>
        rw [taken] at driven
        cases driven
      | ok m =>
        rw [taken] at driven
        dsimp only at driven
        cases read : (Artifact.readTable
            (Drive.tablePath outcome.directory session.problem) true files).1 with
        | error fault =>
          rw [read] at driven
          cases driven
        | ok table =>
          rw [read] at driven
          cases driven
          exact ⟨files, m, table, rfl, taken, read, rfl⟩
  · rintro ⟨files, m, table, ran, taken, read, rfl⟩
    rw [ran]
    dsimp only
    rw [Drive.hydrate_apply, taken]
    dsimp only
    rw [read]

/-- A drive in a directory that was made where nothing was takes over what the engine wrote. -/
theorem takes_of_drive {staged : Drive.Staged} {entered : FileSystem} {place : Place}
    (began : Drive.staging options intent session.problem session.files = (.ok staged, entered))
    (laid : Drive.Laid session.problem staged place entered) (keeps : engine.KeepsSound)
    (driven : Session.drive now engine options intent session = (.ok outcome, after)) :
    outcome.directory = staged.directory ∧ ∃ name found table,
      Drive.Takes session.problem staged entered (engine staged.path entered).2 name found ∧
        (Artifact.readTable (Drive.tablePath staged.directory session.problem) true
          after.files).1 = .ok table ∧
        after.problem = { session.problem with
          m := { session.problem.m with values := found.values }
          table := some table
          driveNumber := session.problem.driveNumber + 1 } := by
  obtain ⟨files, m, table, ran, taken, read, rfl⟩ := drive_ok.mp driven
  rw [Drive.run_of_staged began] at ran
  obtain ⟨-, directory, -, -, manifest, wrote⟩ := Drive.closing_ok ran
  rw [directory] at taken read
  obtain ⟨path, found, rest⟩ := Result.bind_ok.mp taken
  obtain ⟨field, accepted, assigned⟩ := Result.bind_ok.mp rest
  have lowers := Drive.lower_of_staging began
  obtain ⟨name, rfl, latest⟩ := Drive.snapshot_ok (Problem.isLegalName_of_lower lowers) found
  obtain ⟨notScript, notSidecar⟩ := Drive.apart_of_matches latest.fits lowers
  -- the manifest is written between the run of the engine and the look at its files
  have left : (engine staged.path entered).2.Sound := keeps _ _ laid.room.sound
  have back := (Drive.leave_files staged.previous (engine staged.path entered).2).2 left
  have outlast := (Drive.outlast_leave staged.previous (engine staged.path entered).2).trans
    (Drive.outlast_writeFile back (Artifact.writeText_ok.mp wrote))
  obtain ⟨bytes, content, same⟩ := Drive.read_before_manifest back wrote accepted
  obtain ⟨names, spells⟩ := laid.room.spelled
  have proper := Drive.proper_of_listed
    (back.writeFile (Artifact.writeText_ok.mp wrote)).1 latest.listed
  have absolute : Path.isAbsolute (Path.join staged.directory name) = true :=
    (Path.isAbsolute_join proper.solid).trans spells.absolute
  have own : (engine staged.path entered).2.contentOf (Path.join staged.directory name) =
      .ok bytes := by
    unfold FileSystem.contentOf at content ⊢
    rwa [Drive.nodeOf_leave absolute] at content
  have file : (engine staged.path entered).2.isFile (Path.join staged.directory name) = true :=
    FileSystem.isFile_iff.mpr ((FileSystem.contentOf_ok.mp own).imp fun _ leads => ⟨_, leads⟩)
  refine ⟨directory, name, field, table, ⟨?_, notScript, notSidecar, ?_, bytes, own, same⟩, read, ?_⟩
  · exact latest.before outlast spells.absolute
      (fun _ listed => (Drive.proper_of_listed left listed).solid)
      (Drive.listed_of_isFile left spells proper file) file
  · refine laid.room.not_isFile proper fun content stands => ?_
    exact (laid.files name content stands).elim notScript notSidecar
  · rw [Field.assign_ok (Result.mapError_ok.mp assigned)]

end Session

end Micromag
