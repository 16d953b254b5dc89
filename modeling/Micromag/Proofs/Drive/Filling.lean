import Micromag.Proofs.Drive.Staging

/-!
# What the engine finds

A directory without files is filled with the script and the field files of a drive. Their names can
be the names of entries and lead out of no directory, and none is written over the magnetisation. So
the engine finds these files and no others, and the magnetisation of the problem among them.
-/

namespace Micromag

open FileSystem

/-! ## Names of files -/

/-- A name with a longer ending can be the name of an entry. -/
theorem Path.proper_append {name ending : String} (noSlash : '/' ∉ name.toList)
    (clean : '/' ∉ ending.toList) (long : 3 ≤ ending.length) : Path.Proper (name ++ ending) := by
  have differs (other : String) (short : other.length < 3) : name ++ ending ≠ other := by
    rintro rfl
    rw [String.length_append] at short
    omega
  refine ⟨⟨differs "" (by decide), ?_⟩, differs "." (by decide), differs ".." (by decide)⟩
  rw [String.toList_append, List.mem_append, not_or]
  exact ⟨noSlash, clean⟩

/-- The name of a field file that fits a site can be the name of an entry. -/
theorem Sidecar.Fits.proper {site : Site} {sidecar : Sidecar} (fits : sidecar.Fits site) :
    Path.Proper sidecar.fileName := by
  obtain ⟨name, identifier, same | same⟩ := fits.named
  · rw [same]
    exact Path.proper_append (Text.notMem_of_isIdentifier identifier (by decide)) (by decide)
      (by decide)
  · rw [same]
    exact Path.proper_append (Text.notMem_of_isIdentifier identifier (by decide)) (by decide)
      (by decide)

namespace Problem

/-- The field files of a drive do not take the place of the magnetisation. -/
theorem magnetisation_notMem (intent : Intent) (dynamics : Dynamics) (settings : ScriptSettings) :
    "m0.omf" ∉ (intent.sidecars dynamics settings).map (·.fileName) := by
  have named : ∀ sidecar ∈ intent.sidecars dynamics settings,
      ∃ name, sidecar.fileName = Parameter.fileName name := by
    intro sidecar member
    unfold Intent.sidecars at member
    cases bound : (intent.chosenEvolver dynamics).bind dynamics with
    | error fault =>
      rw [bound] at member
      exact absurd member List.not_mem_nil
    | ok evolver =>
      rw [bound] at member
      obtain ⟨name, _, inside⟩ := List.mem_flatMap.mp member
      unfold Evolver.attributeSidecars at inside
      split at inside
      · exact absurd inside List.not_mem_nil
      · split at inside
        · unfold Parameter.sidecars at inside
          split at inside
          · rw [List.mem_singleton.mp inside]
            exact ⟨_, rfl⟩
          · exact absurd inside List.not_mem_nil
        · exact absurd inside List.not_mem_nil
  intro member
  obtain ⟨sidecar, inside, same⟩ := List.mem_map.mp member
  obtain ⟨name, named⟩ := named sidecar inside
  have magnetisation : "m0.omf" = "m0" ++ ".omf" := by decide
  rw [named, magnetisation] at same
  exact extension_ne (by decide) (by decide) same

end Problem

/-! ## Filling the directory -/

/-- A text is written as a file with the bytes of its lines. -/
theorem Artifact.writeText_ok {files after : FileSystem} {code path text : String} :
    writeText code path text files = (.ok (), after) ↔
      files.writeFile path (Text.Utf8.ofString (Text.canonical text)) = .ok after := by
  unfold writeText
  exact FileAction.change_ok

namespace FileSystem.Room

variable {path name : String} {place : Place} {files after : FileSystem}

/-- A field file is written under its name, and what stands under other names stays. -/
theorem writeField (room : Room path place files) (proper : Path.Proper name)
    {field : Field Float} {format : FieldFormat} {extended : Bool}
    (wrote : Artifact.writeField (Path.join path name) field format extended files =
      (.ok (), after)) :
    Room path place after ∧
      after.contentOf (Path.join path name) = .ok (FieldFile.write field
        ((Path.stem? (Path.join path name)).getD "field") format extended) ∧
      ∀ other, other ≠ name →
        after.tree.nodeAt? (place ++ [other]) = files.tree.nodeAt? (place ++ [other]) := by
  have written := Artifact.writeField_ok.mp wrote
  obtain ⟨kept, -, stored⟩ := room.writeFile proper written
  refine ⟨kept, stored, fun other differs => room.nodeAt?_writeFile proper written ?_⟩
  exact fun same => differs (List.singleton_inj.mp (List.append_cancel_left same))

/-- Field files are written under their names, and what stands under other names stays. -/
theorem writeSidecars {sidecars : List Sidecar} (room : Room path place files)
    (proper : ∀ sidecar ∈ sidecars, Path.Proper sidecar.fileName)
    (wrote : Drive.writeSidecars path sidecars files = (.ok (), after)) :
    Room path place after ∧ ∀ name, name ∉ sidecars.map (·.fileName) →
      after.tree.nodeAt? (place ++ [name]) = files.tree.nodeAt? (place ++ [name]) := by
  induction sidecars generalizing files with
  | nil =>
    obtain ⟨-, rfl⟩ := Prod.mk.inj wrote
    exact ⟨room, fun _ _ => rfl⟩
  | cons sidecar rest ih =>
    obtain ⟨first, others⟩ := List.forall_mem_cons.mp proper
    obtain ⟨_, middle, one, more⟩ := Action.bind_ok.mp wrote
    obtain ⟨kept, -, same⟩ := room.writeField first one
    obtain ⟨last, further⟩ := ih kept others more
    refine ⟨last, fun name absent => ?_⟩
    rw [List.map_cons, List.mem_cons, not_or] at absent
    rw [further name absent.2, same name absent.1]

/-- A field file is found among others that are written, unless a later one has its name. -/
theorem contentOf_writeSidecars {before behind : List Sidecar} {sidecar : Sidecar}
    (room : Room path place files)
    (proper : ∀ other ∈ before ++ sidecar :: behind, Path.Proper other.fileName)
    (last : sidecar.fileName ∉ behind.map (·.fileName))
    (wrote : Drive.writeSidecars path (before ++ sidecar :: behind) files = (.ok (), after)) :
    after.contentOf (Path.join path sidecar.fileName) = .ok (FieldFile.write sidecar.field
      ((Path.stem? (Path.join path sidecar.fileName)).getD "field") .binary8 sidecar.extended) := by
  induction before generalizing files with
  | nil =>
    obtain ⟨first, others⟩ := List.forall_mem_cons.mp proper
    obtain ⟨_, middle, one, more⟩ := Action.bind_ok.mp wrote
    obtain ⟨kept, stored, -⟩ := room.writeField first one
    obtain ⟨final, same⟩ := kept.writeSidecars others more
    obtain ⟨checked, enters, stands⟩ := (kept.contentOf_iff first).mp stored
    exact (final.contentOf_iff first).mpr ⟨checked, enters, (same _ last).trans stands⟩
  | cons head rest ih =>
    obtain ⟨first, others⟩ := List.forall_mem_cons.mp proper
    obtain ⟨_, middle, one, more⟩ := Action.bind_ok.mp wrote
    exact ih (room.writeField first one).1 others more

end FileSystem.Room

namespace Drive

variable {files entered after made left : FileSystem} {options : DriveOptions} {intent : Intent}
  {problem : Problem} {staged : Staged} {place : Place}

/-- What the engine finds in the directory of a drive that was made where nothing was. -/
structure Laid (problem : Problem) (staged : Staged) (place : Place) (entered : FileSystem) : Prop
    where
  /-- No link stands in it. -/
  room : Room staged.directory place entered
  /-- Its files are the script and the field files. -/
  files : ∀ name content, entered.tree.nodeAt? (place ++ [name]) = some (.file content) →
    name = problem.name ++ ".mif" ∨ name ∈ staged.script.sidecars.map (·.fileName)
  /-- One of them is the magnetisation of the problem. -/
  magnetisation : entered.contentOf (Path.join staged.directory "m0.omf") =
    .ok (FieldFile.write problem.m
      ((Path.stem? (Path.join staged.directory "m0.omf")).getD "field") .binary8 false)

/-- A directory without files is filled with the script and the field files. -/
theorem laid_of_fill {opened : Opened} {path previous : String}
    (room : Room opened.directory place made)
    (empty : ∀ name content, made.tree.nodeAt? (place ++ [name]) ≠ some (.file content))
    (lowers : problem.lower intent options.settings options.platform = .ok opened.script)
    (fills : fill opened.directory problem.name opened.script made = (.ok path, after)) :
    Laid problem ⟨opened, path, previous⟩ place after := by
  have legal := Problem.isLegalName_of_lower lowers
  have noSlash : '/' ∉ problem.name.toList := (Problem.solid_of_isLegalName legal).1.noSlash
  have script : Path.Proper (problem.name ++ ".mif") :=
    Path.proper_append noSlash (by decide) (by decide)
  have supplies := (Problem.lower_supplies lowers).2
  have proper : ∀ sidecar ∈ opened.script.sidecars, Path.Proper sidecar.fileName :=
    fun sidecar member => (supplies.fits sidecar (supplies.asked ▸ member)).proper
  obtain ⟨_, middle, texted, rest⟩ := Action.bind_ok.mp fills
  obtain ⟨_, _, sided, last⟩ := Action.bind_ok.mp rest
  obtain ⟨-, rfl⟩ := Prod.mk.inj last
  have wrote := Artifact.writeText_ok.mp texted
  obtain ⟨kept, -, -⟩ := room.writeFile script wrote
  obtain ⟨final, same⟩ := kept.writeSidecars proper sided
  refine ⟨final, fun name content stands => ?_, ?_⟩
  · by_contra other
    rw [not_or] at other
    have apart : place ++ [name] ≠ place ++ [problem.name ++ ".mif"] := fun equal =>
      other.1 (List.singleton_inj.mp (List.append_cancel_left equal))
    rw [same name other.2, room.nodeAt?_writeFile script wrote apart] at stands
    exact empty name content stands
  · have split : opened.script.sidecars = problem.energy.flatMap Term.sidecars ++
        ⟨"m0.omf", problem.m, false⟩ :: intent.sidecars problem.dynamics options.settings :=
      supplies.asked
    rw [split] at proper sided
    have last := Problem.magnetisation_notMem intent problem.dynamics options.settings
    have stored := kept.contentOf_writeSidecars proper last sided
    exact stored

/-- What is in the directory does not hang on the working directory. -/
theorem Laid.enter (laid : Laid problem staged place files) {number : Nat}
    (sound : FileSystem.Sound { files with workingDir := number }) :
    Laid problem staged place { files with workingDir := number } := by
  have room := laid.room.enter sound
  have magnetisation : "m0" ++ ".omf" = "m0.omf" := by decide
  have proper : Path.Proper ("m0" ++ ".omf") :=
    Path.proper_append (by decide) (by decide) (by decide)
  rw [magnetisation] at proper
  exact ⟨room, laid.files,
    (room.contentOf_iff proper).mpr ((laid.room.contentOf_iff proper).mp laid.magnetisation)⟩

/-- The engine runs in the directory of the drive, and finds the script and the field files there if
nothing was at its place before, as when the drive is fresh. Otherwise a directory was there. -/
theorem staging_ok (sound : files.Sound)
    (began : staging options intent problem files = (.ok staged, entered)) :
    ∃ place, entered.workingPlace? = some place ∧ entered.Sound ∧
      (files.tree.nodeAt? place = none → Laid problem staged place entered) ∧
      (files.tree.nodeAt? place ≠ none → files.tree.nodeAt? place = some .directory) ∧
      (Fresh options problem.name files → files.tree.nodeAt? place = none) := by
  obtain ⟨opened, made, opens, rest⟩ := Action.bind_ok.mp began
  obtain ⟨path, filled, fills, rest⟩ := Action.bind_ok.mp rest
  obtain ⟨previous, inside, enters, last⟩ := Action.bind_ok.mp rest
  obtain ⟨same, rfl⟩ := Prod.mk.inj last
  rw [← Except.ok.inj same]
  obtain ⟨base, lowers, -⟩ := opening_ok opens
  obtain ⟨place, leads, grown, origin⟩ := room_of_opening sound opens
  obtain ⟨kept, ground⟩ := keepsGround_fill opened.directory problem.name opened.script made
    grown.sound
  rw [fills] at kept ground
  obtain ⟨other, serial, reached, numbered, rfl⟩ :=
    changeDirectory_ok.mp (WorkingDir.enter_ok.mp enters).2
  have located := directoryOf_ok.mp reached
  have again := ground.locate leads
  obtain rfl : other = place := (Spot.mk.inj (Except.ok.inj (located.symm.trans again))).1
  have stands : filled.tree.nodeAt? other = some .directory := (node_of_locate located).symm
  obtain ⟨entered, working⟩ := sound_enter kept.tree stands numbered
  refine ⟨other, working, entered, fun free => ?_, fun occupied => ?_, fun fresh =>
    place_free sound opens fresh leads⟩
  · obtain ⟨room, empty⟩ := origin free
    exact (laid_of_fill room empty lowers fills).enter entered
  · obtain ⟨node, stood⟩ := Option.ne_none_iff_exists'.mp occupied
    have made : some .directory = some node :=
      (node_of_locate leads).trans (grown.stays _ _ stood)
    rw [stood, made]

end Drive

end Micromag
