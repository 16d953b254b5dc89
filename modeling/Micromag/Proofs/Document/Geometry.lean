import Micromag.Document.Geometry
import Micromag.Proofs.Json.Records

/-!
# Documents of geometry and parameters are read back
-/

/-!
## Documents of geometry stand for it

A region, a mesh or a field of finite numbers is read from its document however that is stored. What
a mesh leaves out because it is empty is empty again.
-/

namespace Micromag

open Json Record

/-- Three finite numbers. -/
def Triple.Storable (triple : Triple Float) : Prop := ∀ x ∈ triple.toList, x.isFinite = true

/-- Three finite numbers stand for themselves. -/
theorem Triple.Storable.standsFor {triple : Triple Float} (storable : triple.Storable) :
    (ofTriple .number triple).StandsFor (triple? float?) triple :=
  triple_standsFor fun x member => number_standsFor (storable x member)

/-- Finite numbers stand for themselves. -/
theorem numbers_standsFor {values : List Float} (finite : ∀ x ∈ values, x.isFinite = true) :
    (Json.ofList .number values).StandsFor (list? float?) values :=
  list_standsFor fun x member => number_standsFor (finite x member)

/-- A region with finite corners. -/
structure Region.Storable (region : Region Float) : Prop where
  /-- The lower corner is finite. -/
  lower : region.lower.Storable
  /-- The upper corner is finite. -/
  upper : region.upper.Storable

/-- The document of a region stands for it. -/
theorem Region.Storable.standsFor {region : Region Float} (storable : region.Storable) :
    region.toDocument.StandsFor Region.ofDocument? region := by
  have lower := storable.lower.standsFor
  have upper := storable.upper.standsFor
  have whole : region.toDocument = .object (present
      [("p1", some (.ofTriple .number region.lower)),
        ("p2", some (.ofTriple .number region.upper))]) := rfl
  rw [whole]
  refine record_standsFor [.needed "p1", .needed "p2"] ⟨rfl, by decide, by decide⟩
    ⟨lower.sound_some, upper.sound_some⟩ ?_
  rintro stored record found ⟨p1, p2⟩
  simp [Region.ofDocument?, found, needed_of_rel p1 lower, needed_of_rel p2 upper]

/-- A mesh with finite corners and cells. -/
structure Mesh.Storable (mesh : Mesh Float) : Prop where
  /-- The region is finite. -/
  region : mesh.region.Storable
  /-- The cells are finite. -/
  cell : mesh.cell.Storable
  /-- The subregions are finite. -/
  subregions : ∀ entry ∈ mesh.subregions.entries, entry.2.Storable

/-- The subregions of a mesh, if there are any. -/
def Mesh.subregions? (mesh : Mesh Float) : Option (Keyed (Region Float)) :=
  if mesh.subregions.isEmpty then none else some mesh.subregions

/-- The periodic axes of a mesh, if there are any. -/
def Mesh.periodic? (mesh : Mesh Float) : Option String :=
  if mesh.periodic.isEmpty then none else some mesh.periodic

/-- The document of a mesh stands for it. -/
theorem Mesh.Storable.standsFor {mesh : Mesh Float} (storable : mesh.Storable) :
    mesh.toDocument.StandsFor Mesh.ofDocument? mesh := by
  have region := storable.region.standsFor
  have cell := storable.cell.standsFor
  have subregions : ∀ map ∈ mesh.subregions?,
      (ofKeyed Region.toDocument map).StandsFor (keyed? Region.ofDocument?) map := by
    intro map member
    unfold subregions? at member
    split at member
    · cases member
    · cases member
      exact keyed_standsFor fun entry inside => (storable.subregions entry inside).standsFor
  have periodic : ∀ text ∈ mesh.periodic?, (Json.string text).StandsFor string? text :=
    fun text _ => string_standsFor text
  have whole : mesh.toDocument = .object (present
      [("region", some mesh.region.toDocument), ("cell", some (.ofTriple .number mesh.cell)),
        ("subregions", mesh.subregions?.map (ofKeyed Region.toDocument)),
        ("bc", mesh.periodic?.map .string)]) := by
    unfold toDocument subregions? periodic?
    split <;> split <;> rfl
  -- what is left out is empty, which is also what is read in its place
  have subregions_eq : mesh.subregions?.getD .empty = mesh.subregions := by
    unfold subregions?
    split
    · exact Keyed.ext (List.isEmpty_iff.mp ‹_›).symm
    · rfl
  have periodic_eq : mesh.periodic?.getD "" = mesh.periodic := by
    unfold periodic?
    split
    · exact (String.isEmpty_iff.mp ‹_›).symm
    · rfl
  rw [whole]
  refine record_standsFor [.needed "region", .needed "cell", .defaulted "subregions",
    .defaulted "bc"] ⟨rfl, by decide, by decide⟩
    ⟨region.sound_some, cell.sound_some, sound_map subregions, sound_map periodic⟩ ?_
  rintro stored record found ⟨one, two, three, four⟩
  simp [Mesh.ofDocument?, found, needed_of_rel one region, needed_of_rel two cell,
    defaulted_of_rel three subregions, defaulted_of_rel four periodic, subregions_eq, periodic_eq]

/-- A field of finite numbers. -/
structure Field.Storable (field : Field Float) : Prop where
  /-- The mesh is finite. -/
  mesh : field.mesh.Storable
  /-- The values are finite. -/
  values : ∀ x ∈ field.values, x.isFinite = true

/-- The document of a field stands for it. -/
theorem Field.Storable.standsFor {field : Field Float} (storable : field.Storable) :
    field.toDocument.StandsFor Field.ofDocument? field := by
  have mesh := storable.mesh.standsFor
  have dim := count_standsFor field.dim
  have values := numbers_standsFor storable.values
  have whole : field.toDocument = .object (present [("mesh", some field.mesh.toDocument),
      ("dim", some (.ofCount field.dim)), ("values", some (.ofList .number field.values))]) := rfl
  rw [whole]
  refine record_standsFor [.needed "mesh", .needed "dim", .needed "values"]
    ⟨rfl, by decide, by decide⟩ ⟨mesh.sound_some, dim.sound_some, values.sound_some⟩ ?_
  rintro stored record found ⟨one, two, three⟩
  simp [Field.ofDocument?, found, needed_of_rel one mesh, needed_of_rel two dim,
    needed_of_rel three values]

end Micromag

/-!
## Documents of parameters stand for them

A parameter does not say its kind, so that the readers before its own have to refuse it: numbers,
lists and objects are told apart, and a field is no region map because its mesh is no value. A region
map may use any name for a region but the one that stands for everywhere else.
-/

namespace Micromag

open Json

namespace RegionValue

/-- A value with finite numbers. -/
def Storable : RegionValue → Prop
  | scalar x => x.isFinite = true
  | vector v => v.Storable

/-- The document of a value stands for it. -/
theorem Storable.standsFor {value : RegionValue} (storable : value.Storable) :
    value.toDocument.StandsFor RegionValue.ofDocument? value := by
  cases value with
  | scalar x => exact ((number_standsFor storable).map scalar).orElse_left _
  | vector v =>
    exact ((Triple.Storable.standsFor storable).map vector).orElse_right
      (refuses_array (fun _ => rfl) _)

end RegionValue

namespace RegionMap

/-- A map with finite values under names of regions. -/
structure Storable (map : RegionMap) : Prop where
  /-- The values under names are finite. -/
  values : ∀ entry ∈ map.values.entries, entry.2.Storable
  /-- The value elsewhere is finite. -/
  fallback : ∀ value ∈ map.fallback, value.Storable
  /-- No name stands for everywhere else. -/
  named : fallbackKey ∉ map.values.keys

/-- Names of regions set values under them. -/
theorem foldl_insert_of_ne {entries : List (String × RegionValue)} {map : RegionMap}
    (named : fallbackKey ∉ entries.map (·.1)) :
    entries.foldl (fun map entry => map.insert entry.1 entry.2) map =
      { map with
        values := entries.foldl (fun map entry => map.insert entry.1 entry.2) map.values } := by
  induction entries generalizing map with
  | nil => rfl
  | cons entry rest ih =>
    rw [List.map_cons, List.mem_cons, not_or] at named
    have first : map.insert entry.1 entry.2 =
        { map with values := map.values.insert entry.1 entry.2 } := if_neg (Ne.symm named.1)
    rw [List.foldl_cons, first, ih named.2]
    rfl

/-- A map is put together again from its entries. -/
theorem ofEntries_toEntries {map : RegionMap} (named : fallbackKey ∉ map.values.keys) :
    ofEntries map.toEntries = map := by
  obtain ⟨values, fallback⟩ := map
  have whole : values.entries.foldl (fun map entry => map.insert entry.1 entry.2) .empty = values :=
    Keyed.ofList_of_perm (.refl _)
  unfold ofEntries toEntries
  cases fallback with
  | none =>
    show values.entries.foldl _ _ = _
    rw [foldl_insert_of_ne named]
    exact congrArg (RegionMap.mk · none) whole
  | some value =>
    obtain ⟨before, after, split, inserted⟩ : ∃ before after, values.entries = before ++ after ∧
        Keyed.insertEntry fallbackKey value values.entries =
          before ++ (fallbackKey, value) :: after := Keyed.insertEntry_eq named
    have apart : fallbackKey ∉ (before ++ after).map (·.1) := split ▸ named
    rw [List.map_append, List.mem_append, not_or] at apart
    show (Keyed.insertEntry fallbackKey value values.entries).foldl _ _ = _
    rw [inserted, List.foldl_append, foldl_insert_of_ne apart.1, List.foldl_cons, insert, if_pos rfl,
      foldl_insert_of_ne apart.2]
    rw [split, List.foldl_append] at whole
    exact congrArg (RegionMap.mk · (some value)) whole

/-- The entries of a map are its values. -/
theorem Storable.of_mem_toEntries {map : RegionMap} (storable : map.Storable)
    {entry : String × RegionValue} (member : entry ∈ map.toEntries.entries) :
    entry.2.Storable := by
  obtain ⟨values, fallback⟩ := map
  cases fallback with
  | none => exact storable.values entry member
  | some value =>
    have split : (Keyed.insertEntry fallbackKey value values.entries).Perm
        ((fallbackKey, value) :: values.entries) := Keyed.insertEntry_perm storable.named
    rcases List.mem_cons.mp (split.mem_iff.mp member) with rfl | inside
    · exact storable.fallback value rfl
    · exact storable.values entry inside

/-- The document of a map stands for it. -/
theorem Storable.standsFor {map : RegionMap} (storable : map.Storable) :
    map.toDocument.StandsFor RegionMap.ofDocument? map := by
  have entries : map.toDocument.StandsFor (keyed? RegionValue.ofDocument?) map.toEntries :=
    keyed_standsFor fun entry member => (storable.of_mem_toEntries member).standsFor
  have whole := entries.map ofEntries
  rw [ofEntries_toEntries storable.named] at whole
  exact whole

end RegionMap

namespace Parameter

/-- A parameter that is stored without loss. -/
def Storable : Parameter → Prop
  | constant x => x.isFinite = true
  | vector v => v.Storable
  | perRegion map => map.Storable
  | field f => f.Storable

/-- The document of a parameter stands for it. -/
theorem Storable.standsFor {value : Parameter} (storable : value.Storable) :
    value.toDocument.StandsFor Parameter.ofDocument? value := by
  cases value with
  | constant x => exact ((number_standsFor storable).map constant).orElse_left _
  | vector v =>
    have triple := (Triple.Storable.standsFor storable).map vector
    exact (triple.orElse_left _).orElse_right (refuses_array (fun _ => rfl) _)
  | perRegion map =>
    have regions := (RegionMap.Storable.standsFor storable).map perRegion
    exact ((regions.orElse_left _).orElse_right (refuses_object (fun _ => rfl) _)).orElse_right
      (refuses_object (fun _ => rfl) _)
  | field f =>
    -- the mesh of a field is an object, which is no value of a region map
    have mesh : Refuses RegionValue.ofDocument? f.mesh.toDocument :=
      refuses_object (fun _ => rfl) _
    have regions : Refuses RegionMap.ofDocument? f.toDocument :=
      (keyed_refuses List.mem_cons_self mesh).map RegionMap.ofEntries
    have whole := (Field.Storable.standsFor storable).map field
    exact ((whole.orElse_right (regions.map perRegion)).orElse_right
      (refuses_object (fun _ => rfl) _)).orElse_right (refuses_object (fun _ => rfl) _)

end Parameter

end Micromag
