import Mathlib.Data.List.Forall2
import Micromag.Lowering.Parameter
import Micromag.Proofs.Lowering.Mesh

/-!
# Objects of a parameter

A parameter that differs from region to region or from cell to cell is declared under the name that
it is given, and under a second name where numbers are taken from a file of vectors. The word that
stands for the parameter refers to the last of these objects.
-/

namespace Micromag

open Script

variable {known : List String} {site : Site} {arity : Arity} {name : String}

/-- What lowering at a site relies on: names of regions that scripts can use. -/
def Site.Named (site : Site) : Prop :=
  ∀ region ∈ site.mesh.regionNames, Text.isIdentifier region = true

/-- The word of a value refers to nothing. -/
theorem RegionValue.word_resolves {value : RegionValue} {word : Word}
    (lowered : value.word = .ok word) : word.Resolves known := by
  cases value with
  | scalar x => exact numberWord_resolves lowered
  | vector v => exact vectorWord_resolves lowered

namespace Parameter

/-- The names of the objects of a parameter. -/
def objectNames (arity : Arity) (value : Parameter) (name : String) : List String :=
  match value with
  | constant _ | vector _ => []
  | perRegion _ => [name]
  | field _ =>
    match arity with
    | .scalar => [name, normName name]
    | .vector => [name]

/-- A second name is a name. -/
theorem isIdentifier_normName (named : Text.isIdentifier name = true) :
    Text.isIdentifier (normName name) = true :=
  Text.isIdentifier_append named (by decide)

/-- The word of a value of some arity refers to nothing. -/
theorem arityWord_resolves {kind : String} {value : RegionValue} {word : Word}
    (lowered : arityWord arity name kind value = .ok word) : word.Resolves known := by
  unfold arityWord at lowered
  split at lowered
  · exact RegionValue.word_resolves lowered
  · cases lowered

/-- A region that is accepted is one of the mesh. -/
theorem mem_of_checkRegion {region : String} (accepted : checkRegion site name region = .ok ()) :
    region ∈ site.mesh.regionNames := by
  unfold checkRegion at accepted
  split at accepted
  · rename_i member
    exact List.contains_iff_mem.mp member
  · cases accepted

/-- A region of the mesh is accepted. -/
theorem checkRegion_of_mem {region : String} (member : region ∈ site.mesh.regionNames) :
    checkRegion site name region = .ok () :=
  if_pos (List.contains_iff_mem.mpr member)

/-- A region that is accepted has a name that scripts can use. -/
theorem isIdentifier_of_checkRegion (named : site.Named) {region : String}
    (accepted : checkRegion site name region = .ok ()) : Text.isIdentifier region = true :=
  named region (mem_of_checkRegion accepted)

/-- The row of a region refers to nothing. -/
theorem regionRow_resolves (named : site.Named) {kind : String} {entry : String × RegionValue}
    {row : List Word} (lowered : regionRow arity site name kind entry = .ok row) :
    ∀ word ∈ row, word.Resolves known := by
  obtain ⟨_, accepted, lowered⟩ := Result.bind_ok.mp lowered
  obtain ⟨value, written, same⟩ := Result.bind_ok.mp lowered
  rw [← Except.ok.inj same]
  have noColon := Text.noColon_of_isIdentifier (isIdentifier_of_checkRegion named accepted)
  exact List.forall_mem_cons.mpr
    ⟨noColon, List.forall_mem_singleton.mpr (arityWord_resolves written)⟩

/-- The field object of a region map. -/
theorem regionItem_emits (named : site.Named) (atlas : "main_atlas" ∈ known)
    (identifier : Text.isIdentifier name = true) {map : RegionMap} {item : Item}
    (lowered : regionItem arity site name map = .ok item) : Emits known [item] [name] := by
  obtain ⟨rows, inner, lowered⟩ := Result.bind_ok.mp lowered
  obtain ⟨fallback, written, same⟩ := Result.bind_ok.mp lowered
  rw [← Except.ok.inj same]
  have ofClass : Text.isIdentifier arity.regionClass = true := by
    cases arity <;> decide
  have values : (Script.Entry.table "values" rows).Resolves known := by
    refine ⟨by decide, fun row member => ?_⟩
    obtain ⟨entry, _, lowered⟩ := Result.exists_of_mem_mapM inner member
    exact regionRow_resolves named lowered
  have default : (Script.Entry.setting "default_value" fallback).Resolves known :=
    setting_resolves (by decide) (arityWord_resolves written)
  exact .object ofClass identifier (List.forall_mem_cons.mpr
    ⟨Mesh.mainAtlas_resolves atlas, List.forall_mem_cons.mpr
      ⟨default, List.forall_mem_singleton.mpr values⟩⟩)

/-- The object that reads a file. -/
theorem fileItem_emits (atlas : "main_atlas" ∈ known) (identifier : Text.isIdentifier name = true)
    {file : String} (noColon : ':' ∉ file.toList) : Emits known [fileItem name file] [name] :=
  .object (by decide) identifier (List.forall_mem_cons.mpr
    ⟨setting_resolves (by decide) noColon,
      List.forall_mem_singleton.mpr (Mesh.mainAtlas_resolves atlas)⟩)

/-- The object that takes magnitudes refers to the object whose magnitudes it takes. -/
theorem normItem_emits (identifier : Text.isIdentifier name = true) (declared : name ∈ known) :
    Emits known [normItem name] [normName name] :=
  .object (by decide) (isIdentifier_normName identifier)
    (List.forall_mem_singleton.mpr (setting_resolves (by decide) ⟨declared, identifier⟩))

/-- A lowered parameter stands for its value: it declares certain names, and its word refers to
them or to what is known. -/
structure Stands (known : List String) (lowered : LoweredParameter) (names : List String) :
    Prop where
  /-- The names are declared. -/
  emits : Emits known lowered.items names
  /-- The word refers to them. -/
  token : lowered.token.Resolves (known ++ names)

/-- A word without declarations stands for its value. -/
theorem Stands.word {word : Word} (resolves : word.Resolves known) : Stands known ⟨[], word⟩ [] :=
  ⟨.nil, by rwa [List.append_nil]⟩

/-- What is declared for parameters one after the other. -/
theorem Stands.emits_all {lowered : List LoweredParameter} {names : List (List String)}
    (stand : List.Forall₂ (Stands known) lowered names) :
    Emits known (lowered.flatMap (·.items)) names.flatten := by
  induction stand with
  | nil => exact .nil
  | cons first _ ih => exact first.emits.append_right ih

/-- The words of parameters refer to what is known or to what is declared for any of them. -/
theorem Stands.token_all {lowered : List LoweredParameter} {names : List (List String)}
    (stand : List.Forall₂ (Stands known) lowered names) {word : Word}
    (member : word ∈ lowered.map (·.token)) : word.Resolves (known ++ names.flatten) := by
  induction stand with
  | nil => exact absurd member List.not_mem_nil
  | @cons entry first _ others stands _ ih =>
    rcases List.mem_cons.mp member with rfl | member
    · refine stands.token.mono (List.append_subset.mpr ⟨List.subset_append_left _ _, ?_⟩)
      exact List.subset_append_of_subset_right known (List.subset_append_left first _)
    · refine (ih member).mono (List.append_subset.mpr ⟨List.subset_append_left _ _, ?_⟩)
      exact List.subset_append_of_subset_right known (List.subset_append_right first _)

/-- A constant parameter needs no object. -/
theorem constantWord_stands {kind : String} {value : RegionValue} {result : LoweredParameter}
    (lowered : constantWord arity name kind value = .ok result) : Stands known result [] := by
  obtain ⟨word, written, same⟩ := Result.bind_ok.mp lowered
  rw [← Except.ok.inj same]
  exact .word (arityWord_resolves written)

/-- The objects of a parameter that is given cell by cell, whatever the regions are called. -/
theorem field_stands (atlas : "main_atlas" ∈ known) (identifier : Text.isIdentifier name = true)
    {f : Field Float} {result : LoweredParameter}
    (lowered : ((field f).lower arity site name).result = .ok result) :
    Stands known result ((field f).objectNames arity name) := by
  obtain ⟨_, _, lowered⟩ := Lowering.bind_ok.mp lowered
  obtain ⟨_, _, lowered⟩ := Lowering.bind_ok.mp lowered
  have noColon : ':' ∉ (fileName name).toList := by
    have start := Text.noColon_of_isIdentifier identifier
    unfold fileName
    simp [String.toList_append, start]
  have file : Emits known [fileItem name (fileName name)] [name] :=
    fileItem_emits atlas identifier noColon
  cases arity with
  | scalar =>
    rw [← Lowering.pure_ok.mp lowered]
    have norm := normItem_emits identifier
      (List.mem_append_right known (List.mem_singleton_self name))
    exact ⟨file.append norm, ⟨List.mem_append_right known (List.mem_cons_of_mem _
      List.mem_cons_self), isIdentifier_normName identifier⟩⟩
  | vector =>
    rw [← Lowering.pure_ok.mp lowered]
    exact ⟨file, ⟨List.mem_append_right known List.mem_cons_self, identifier⟩⟩

/-- A parameter that is lowered under a name declares its objects, and its word refers to them. -/
theorem lower_stands (named : site.Named) (atlas : "main_atlas" ∈ known)
    (identifier : Text.isIdentifier name = true) {value : Parameter} {result : LoweredParameter}
    (lowered : (value.lower arity site name).result = .ok result) :
    Stands known result (value.objectNames arity name) := by
  cases value with
  | constant x => exact constantWord_stands lowered
  | vector v => exact constantWord_stands lowered
  | perRegion map =>
    obtain ⟨item, inner, same⟩ := Lowering.bind_ok.mp lowered
    rw [← Lowering.pure_ok.mp same]
    exact ⟨regionItem_emits named atlas identifier inner,
      ⟨List.mem_append_right known List.mem_cons_self, identifier⟩⟩
  | field f => exact field_stands atlas identifier lowered

end Parameter

end Micromag
