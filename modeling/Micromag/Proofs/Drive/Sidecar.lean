import Micromag.Proofs.Drive.Failure
import Micromag.Proofs.Field.File.RoundTrip
import Micromag.Proofs.Files.System
import Micromag.Proofs.Lowering.Sidecars

/-!
# Field files that cannot be read back

A field is accepted for a parameter by its values and by its numbers of cells, which round the
quotients of edges and cell sizes. The reader of its file also asks that the box has an extent and
that the cells divide it, which nobody asked before the file was written. The field files of a
script are therefore read back exactly when the meshes of their fields are usable.
-/

namespace Micromag

/-- A field is read from the bytes of a file. -/
theorem Artifact.readField_of_contentOf {files : FileSystem} {path : String} {bytes : List UInt8}
    (content : files.contentOf path = .ok bytes) :
    (readField path files).1 =
      (FieldFile.read bytes).mapError (FieldFile.ReadFault.fault path) := by
  have found : FileAction.look "IO.OVF" "OVF file access failed" (·.contentOf path) files =
      (.ok bytes, files) := by
    unfold FileAction.look
    dsimp only
    rw [content]
    rfl
  unfold readField
  rw [Action.bind_apply, found]
  rfl

/-- A field is written as a file with its bytes. -/
theorem Artifact.writeField_ok {files after : FileSystem} {path : String} {field : Field Float}
    {format : FieldFormat} {extended : Bool} :
    writeField path field format extended files = (.ok (), after) ↔
      files.writeFile path (FieldFile.write field ((Path.stem? path).getD "field") format
        extended) = .ok after := by
  unfold writeField
  exact FileAction.change_ok

/-- A field that was written is read again from its bytes. -/
theorem Artifact.readField_written {files written : FileSystem} (sound : files.Sound)
    {path : String} {field : Field Float} {format : FieldFormat} {extended : Bool}
    (wrote : writeField path field format extended files = (.ok (), written)) :
    (readField path written).1 =
      (FieldFile.read (FieldFile.write field ((Path.stem? path).getD "field") format
        extended)).mapError (FieldFile.ReadFault.fault path) :=
  readField_of_contentOf (sound.contentOf_writeFile (writeField_ok.mp wrote))

/-- The name of a field file that fits a site is one part of a path, and its stem is one line. -/
theorem Sidecar.Fits.oneLine {site : Site} {sidecar : Sidecar} (fits : sidecar.Fits site)
    (directory : String) :
    '\n' ∉ ((Path.stem? (Path.join directory sidecar.fileName)).getD "field").toList := by
  obtain ⟨name, identifier, ending⟩ := fits.named
  have absent (c : Char) (other : Text.isNameChar c = false) (notIn : c ∉ ".ovfm".toList) :
      c ∉ sidecar.fileName.toList := by
    have front := Text.notMem_of_isIdentifier identifier other
    have parts : ".ovf".toList ⊆ ".ovfm".toList ∧ ".omf".toList ⊆ ".ovfm".toList := by decide
    rcases ending with same | same
    · rw [same, String.toList_append, List.mem_append, not_or]
      exact ⟨front, fun inside => notIn (parts.1 inside)⟩
    · rw [same, String.toList_append, List.mem_append, not_or]
      exact ⟨front, fun inside => notIn (parts.2 inside)⟩
  have long : 4 ≤ sidecar.fileName.length := by
    have lengths : ".ovf".length = 4 ∧ ".omf".length = 4 := by decide
    rcases ending with same | same
    · rw [same, String.length_append]
      omega
    · rw [same, String.length_append]
      omega
  have differs (other : String) (short : other.length < 4) : sidecar.fileName ≠ other := by
    rintro rfl
    omega
  have solid : Path.Solid sidecar.fileName :=
    ⟨differs "" (by decide), absent '/' (by decide) (by decide)⟩
  unfold Path.stem?
  rw [Path.fileName?_join solid (differs "." (by decide)) (differs ".." (by decide))]
  exact Path.notMem_stemOf (absent '\n' (by decide) (by decide)) (by decide)

namespace Problem

variable {problem : Problem} {intent : Intent} {settings : ScriptSettings} {platform : Platform}
  {script : LoweredScript} {sidecar : Sidecar} {files written : FileSystem} {directory : String}

/-- A field file of a script is read back after it was written exactly when the mesh of its field is
usable, which lowering did not ask. What is read has as many cells along each axis as the mesh of
the problem, and it has the values of the field, numbers as vectors along the first axis, exactly
when the loose values happen to be what the bytes after the data stand for; so it does whenever the
number of values on the mesh fits a word. -/
theorem sidecar_read_iff (lowered : problem.lower intent settings platform = .ok script)
    (member : sidecar ∈ script.sidecars) (sound : files.Sound)
    (wrote : Artifact.writeField (Path.join directory sidecar.fileName) sidecar.field .binary8
      sidecar.extended files = (.ok (), written))
    (fits : (FieldFile.dataBytes .binary8
      (FieldFile.writtenCells sidecar.field sidecar.extended)).length < 2 ^ 63) :
    ((∃ found, (Artifact.readField (Path.join directory sidecar.fileName) written).1 = .ok found) ↔
        sidecar.field.mesh.bare.validate = .ok ()) ∧
      ∀ found, (Artifact.readField (Path.join directory sidecar.fileName) written).1 = .ok found →
        found.mesh.counts = problem.mesh.counts ∧
        (found = FieldFile.restored sidecar.field sidecar.extended ↔
          sidecar.field.values.drop
              (sidecar.field.values.length - FieldFile.loose sidecar.field) =
            FieldFile.readWords FieldFile.double .little (FieldFile.loose sidecar.field)
              FieldFile.footer) ∧
        (problem.mesh.count .x * problem.mesh.count .y * problem.mesh.count .z *
            sidecar.field.dim < 2 ^ 64 →
          found = FieldFile.restored sidecar.field sidecar.extended) := by
  have supplies := (lower_supplies lowered).2
  have fitting := supplies.fits sidecar (supplies.asked ▸ member)
  have usable : sidecar.field.Usable := Field.validate_ok_iff.mp fitting.usable
  have back (found : Field Float) :
      (Artifact.readField (Path.join directory sidecar.fileName) written).1 = .ok found ↔
        sidecar.field.mesh.bare.validate = .ok () ∧
          found = FieldFile.recovered sidecar.field sidecar.extended := by
    rw [Artifact.readField_written sound wrote, Result.mapError_ok]
    exact FieldFile.read_write_ok_iff usable (fitting.oneLine directory) fits
  have counts : sidecar.field.mesh.counts = problem.mesh.counts := fitting.counts
  refine ⟨⟨fun ⟨found, read⟩ => ((back found).mp read).1, fun valid =>
    ⟨_, (back _).mpr ⟨valid, rfl⟩⟩⟩, fun found read => ?_⟩
  obtain ⟨_, rfl⟩ := (back found).mp read
  refine ⟨counts, FieldFile.recovered_eq_restored usable, fun small => ?_⟩
  have same (axis : Axis) : sidecar.field.mesh.count axis = problem.mesh.count axis := by
    have along := congrArg (·.along axis) counts
    rwa [Mesh.counts_along, Mesh.counts_along] at along
  rw [← same, ← same, ← same] at small
  have none : FieldFile.loose sidecar.field = 0 := FieldFile.loose_of_fits usable small
  rw [FieldFile.recovered_eq_restored usable, none, Nat.sub_zero, List.drop_length]
  rfl

/-- A problem on one cell with an anisotropy on a box of almost one and a half cells, which are
rounded to one. -/
def undivided : Problem where
  name := "p"
  m := { mesh := { region := ⟨.fill 0, .fill 1⟩, cell := .fill 1 }, dim := 3, values := [0, 0, 1] }
  energy := [⟨"a", .uniaxial (.field anisotropy) none (.vector ⟨0, 0, 1⟩)⟩]
where
  /-- One value on a box that its cells do not divide. -/
  anisotropy : Field Float :=
    { mesh := { region := ⟨.fill 0, ⟨1.4, 1, 1⟩⟩, cell := .fill 1 }, dim := 1, values := [500] }

/-- A script is made, and one of its field files is written and cannot be read back. -/
theorem undivided_not_read :
    ∃ script written, undivided.lower { goal := .minimise } {} .unix = .ok script ∧
      ⟨"a_K1.ovf", undivided.anisotropy, true⟩ ∈ script.sidecars ∧
      Artifact.writeField (Path.join "" "a_K1.ovf") undivided.anisotropy .binary8 true {} =
        (.ok (), written) ∧
      ∀ found, (Artifact.readField (Path.join "" "a_K1.ovf") written).1 ≠ .ok found := by
  have accepted : (undivided.lower { goal := .minimise } {} .unix).toOption.isSome = true := by
    decide +kernel
  obtain ⟨script, kept⟩ := Option.isSome_iff_exists.mp accepted
  have lowered := Result.ok_of_toOption kept
  have name : Parameter.fileName (Term.parameterName "a" "K1") = "a_K1.ovf" := by decide
  have member : ⟨"a_K1.ovf", undivided.anisotropy, true⟩ ∈ script.sidecars := by
    rw [(lower_supplies lowered).2.asked, ← name]
    exact List.mem_append_left _ List.mem_cons_self
  have stored : (Artifact.writeField (Path.join "" "a_K1.ovf") undivided.anisotropy .binary8 true
      {}).1.toBool = true := by
    decide +kernel
  rcases wrote : Artifact.writeField (Path.join "" "a_K1.ovf") undivided.anisotropy .binary8 true
    {} with ⟨result, written⟩
  rw [wrote] at stored
  obtain rfl := Result.ok_of_toBool stored
  have fits : (FieldFile.dataBytes .binary8
      (FieldFile.writtenCells undivided.anisotropy true)).length < 2 ^ 63 := by
    decide
  have unusable : undivided.anisotropy.mesh.bare.validate.toBool = false := by decide +kernel
  refine ⟨script, written, lowered, member, rfl, fun found read => ?_⟩
  have valid := (sidecar_read_iff lowered member .empty wrote fits).1.mp ⟨found, read⟩
  rw [valid] at unusable
  cases unusable

end Problem

end Micromag
