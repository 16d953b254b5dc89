import Micromag.Proofs.Lowering.Roles
import Micromag.Proofs.Table.Renaming

/-!
# Columns of one run

What the objects of a script report makes up the table of a run. The objects that serve report
nothing under a short name; there is one evolver and one driver; and the energies are the terms,
whose names differ, and the applied field of a sweep, whose name no term bears. Renaming therefore
merges no columns.
-/

namespace Micromag

open Script Table

variable {problem : Problem} {intent : Intent} {settings : ScriptSettings} {platform : Platform}
  {className : String} {instanceName : Option String}

/-- The class of the object of a term belongs to the group after which such terms are named. -/
theorem Interaction.group_of_className {interaction : Interaction}
    (own : interaction.className? platform = some className) :
    energyGroups.lookup className = some interaction.defaultName := by
  cases interaction with
  | exchange constant => cases constant <;> cases own <;> rfl
  | zeeman field wave frequency delay =>
    obtain rfl := Option.some.inj own
    split <;> rfl
  | dmi constant crystal =>
    have own : (Term.dmiClass crystal platform).toOption = some className := own
    cases platform <;> cases crystal <;> cases own <;> rfl
  | uniaxial k1 k2 axis =>
    obtain rfl := Option.some.inj own
    split <;> rfl
  | demag | cubic | magnetoElastic | rkky =>
    cases own
    rfl

namespace Computes

/-- An object that computes and is an energy is that of a term or of a sweep. -/
theorem energy_cases (computes : Computes problem intent platform className instanceName)
    (energy : className ∈ energyGroups.map (·.1)) :
    (∃ term ∈ problem.energy, term.interaction.className? platform = some className ∧
      instanceName = some term.name) ∨
        className = "Oxs_UZeeman" ∧ instanceName = some "hysteresis" := by
  cases computes with
  | term member own => exact .inl ⟨_, member, own, rfl⟩
  | sweep => exact .inr ⟨rfl, rfl⟩
  | evolver =>
    cases kind : (intent.chosenEvolver problem.dynamics).kind <;> rw [kind] at energy <;>
      exact absurd energy (by decide)
  | driver =>
    unfold Intent.driverClass at energy
    split at energy <;> exact absurd energy (by decide)

/-- The class of an evolver is neither that of an energy nor that of a driver. -/
theorem eq_evolver (computes : Computes problem intent platform className instanceName)
    (evolver : className ∈ evolverClasses) :
    className = (intent.chosenEvolver problem.dynamics).kind.className ∧
      instanceName = some "evolver" := by
  cases computes with
  | term member own =>
    have grouped := (mem_groups (Interaction.group_of_className own)).1
    have apart : ∀ className ∈ evolverClasses, className ∉ energyGroups.map (·.1) := by
      decide +kernel
    exact absurd grouped (apart _ evolver)
  | sweep => exact absurd evolver (by decide)
  | evolver => exact ⟨rfl, rfl⟩
  | driver =>
    unfold Intent.driverClass at evolver
    split at evolver <;> exact absurd evolver (by decide)

/-- The class of a driver is neither that of an energy nor that of an evolver. -/
theorem eq_driver (computes : Computes problem intent platform className instanceName)
    (driver : className ∈ driverClasses) :
    className = intent.driverClass ∧ instanceName = none := by
  cases computes with
  | term member own =>
    have grouped := (mem_groups (Interaction.group_of_className own)).1
    have apart : ∀ className ∈ driverClasses, className ∉ energyGroups.map (·.1) := by
      decide +kernel
    exact absurd grouped (apart _ driver)
  | sweep => exact absurd driver (by decide)
  | evolver =>
    cases kind : (intent.chosenEvolver problem.dynamics).kind <;> rw [kind] at driver <;>
      exact absurd driver (by decide)
  | driver => exact ⟨rfl, rfl⟩

end Computes

namespace Problem

/-- The objects that a script without text of the caller declares can be told apart. -/
theorem tellable_of_lower (plain : intent.Plain settings) {script : LoweredScript}
    (lowered : problem.lower intent settings platform = .ok script) :
    Tellable (declaredObjects script.text.toList) := by
  have accepted := (lower_emits plain lowered).1
  have serving : ∀ className ∈ auxiliaryClasses, className ∉ evolverClasses ∧
      className ∉ driverClasses ∧ className ∉ energyGroups.map (·.1) := by
    decide +kernel
  have computing {object : String × String}
      (declared : object ∈ declaredObjects script.text.toList)
      (reporting : object.1 ∉ auxiliaryClasses) :
      ∃ instanceName, Computes problem intent platform object.1 instanceName ∧
        object.2 = instanceName.getD "" :=
    (object_of_lower plain lowered declared).2.resolve_left reporting
  have evolver {object : String × String}
      (declared : object ∈ declaredObjects script.text.toList)
      (evolver : object.1 ∈ evolverClasses) :
      object = ((intent.chosenEvolver problem.dynamics).kind.className, "evolver") := by
    obtain ⟨instanceName, computes, named⟩ :=
      computing declared fun serves => (serving _ serves).1 evolver
    obtain ⟨ofClass, rfl⟩ := computes.eq_evolver evolver
    exact Prod.ext ofClass named
  have driver {object : String × String}
      (declared : object ∈ declaredObjects script.text.toList)
      (driver : object.1 ∈ driverClasses) : object = (intent.driverClass, "") := by
    obtain ⟨instanceName, computes, named⟩ :=
      computing declared fun serves => (serving _ serves).2.1 driver
    obtain ⟨ofClass, rfl⟩ := computes.eq_driver driver
    exact Prod.ext ofClass named
  have energy {object : String × String}
      (declared : object ∈ declaredObjects script.text.toList)
      (energy : object.1 ∈ energyGroups.map (·.1)) :
      (∃ term ∈ problem.energy, term.interaction.className? platform = some object.1 ∧
        object.2 = term.name) ∨ object = ("Oxs_UZeeman", "hysteresis") := by
    obtain ⟨instanceName, computes, named⟩ :=
      computing declared fun serves => (serving _ serves).2.2 energy
    rcases computes.energy_cases energy with ⟨term, member, own, rfl⟩ | ⟨ofClass, rfl⟩
    · exact .inl ⟨term, member, own, named⟩
    · exact .inr (Prod.ext ofClass named)
  have notHysteresis {term : Term} (member : term ∈ problem.energy) :
      term.name ≠ "hysteresis" := by
    intro same
    exact (accepted.usable term member).2 (same ▸ by decide)
  have noColon {object : String × String} (declared : object ∈ declaredObjects script.text.toList) :
      ':' ∉ object.1.toList ∧ ':' ∉ object.2.toList := by
    have named := (object_of_lower plain lowered declared).1
    constructor
    · exact fun colon => absurd (named _ List.mem_cons_self _ colon) (by decide)
    · exact fun colon => absurd (named _ (List.mem_cons_of_mem _ List.mem_cons_self) _ colon)
        (by decide)
  refine ⟨fun object declared => noColon declared, ?_, ?_, ?_, ?_⟩
  · intro object declared other declared' ofClass ofClass'
    rw [evolver declared ofClass, evolver declared' ofClass']
  · intro object declared other declared' ofClass ofClass'
    rw [driver declared ofClass, driver declared' ofClass']
  · intro object declared ofClass
    rcases energy declared ofClass with ⟨term, member, _, named⟩ | same
    · rw [named]
      intro empty
      have identifier := (accepted.usable term member).1
      rw [empty] at identifier
      exact absurd identifier (by decide)
    · rw [same]
      decide
  · intro object declared other declared' ofClass ofClass' same
    rcases energy declared ofClass with ⟨term, member, own, named⟩ | swept
    · rcases energy declared' ofClass' with ⟨term', member', own', named'⟩ | swept'
      · have names : term.name = term'.name := named ▸ named' ▸ same
        have one := List.inj_on_of_nodup_map accepted.distinct member member' names
        rw [← one, own] at own'
        exact Prod.ext (Option.some.inj own') same
      · rw [swept', named] at same
        exact absurd same (notHysteresis member)
    · rcases energy declared' ofClass' with ⟨term', member', own', named'⟩ | swept'
      · rw [swept, named'] at same
        exact absurd same.symm (notHysteresis member')
      · rw [swept, swept']

/-- Different columns of a run, each a quantity of an object that the script declares without text
of the caller, have as many different names after renaming, and each is still found under its new
name. -/
theorem renamed_apart (plain : intent.Plain settings) {script : LoweredScript}
    (lowered : problem.lower intent settings platform = .ok script) {table : Table}
    (distinct : table.columns.Nodup)
    (report : ∀ column ∈ table.columns, Reports (declaredObjects script.text.toList) column) :
    (renameColumns table.columns).Nodup ∧
      (renameColumns table.columns).length = table.columns.length ∧
        ∀ column ∈ table.columns,
          { table with columns := renameColumns table.columns }.index?
            (renameColumn (table.columns.map shortName?) column) = table.index? column := by
  have tellable := tellable_of_lower plain lowered
  refine ⟨nodup_renameColumns tellable distinct report, List.length_map _, ?_⟩
  exact fun column member => idxOf?_map member fun a one b two =>
    renameColumn_inj tellable distinct report one two

/-- A problem on one cell with two applied fields. -/
def twoFields : Problem where
  name := "fields"
  m := { mesh := { region := ⟨.fill 0, .fill 1⟩, cell := .fill 1 }, dim := 3, values := [0, 0, 1] }
  energy := [⟨"near", .zeeman (.vector ⟨0, 0, 1⟩) none none none⟩,
    ⟨"far", .zeeman (.vector ⟨1, 0, 0⟩) none none none⟩]

/-- A table with the energies of both fields and of the sweep, the total and the stage. -/
def fieldTable : Table where
  columns := ["Oxs_FixedZeeman:near:Energy", "Oxs_FixedZeeman:far:Energy",
    "Oxs_UZeeman:hysteresis:Energy", "Oxs_CGEvolve:evolver:Total energy",
    "Oxs_MinDriver::Stage"]
  units := ["J", "J", "J", "J", ""]
  rows := []

/-- A sweep from one applied field to another. -/
def fieldSweep : Intent := { goal := .sweep [⟨[0, 0, 0], [0, 0, 1], 2⟩] }

/-- The objects of the script of a sweep over two applied fields. -/
def fieldObjects : List (String × String) :=
  [("Oxs_BoxAtlas", "main_atlas"), ("Oxs_RectangularMesh", "mesh"), ("Oxs_FixedZeeman", "near"),
    ("Oxs_FixedZeeman", "far"), ("Oxs_FileVectorField", "m0"),
    ("Oxs_VecMagScalarField", "m0_norm"), ("Oxs_UZeeman", "hysteresis"),
    ("Oxs_CGEvolve", "evolver"), ("Oxs_MinDriver", "")]

/-- The energies of two applied fields and of a sweep keep different names. -/
theorem fieldTable_renamed_apart :
    (renameColumns fieldTable.columns).Nodup ∧ (renameColumns fieldTable.columns).length = 5 := by
  have declares : (twoFields.lower fieldSweep {} .unix).toOption.map (fun script =>
      (blocks script.items).map Block.object) = some fieldObjects := by
    decide +kernel
  obtain ⟨script, kept, objects⟩ := Option.map_eq_some_iff.mp declares
  have lowered := Result.ok_of_toOption kept
  have plain : fieldSweep.Plain {} := .of_default rfl rfl
  have report : ∀ column ∈ fieldTable.columns,
      Reports (declaredObjects script.text.toList) column := by
    rw [declaredObjects_of_lower plain lowered, objects]
    have reports (object : String × String) (quantity : String) {column : String}
        (member : object ∈ fieldObjects) (noColon : ':' ∉ quantity.toList)
        (same : columnName object quantity = column) : Reports fieldObjects column :=
      ⟨object, member, quantity, noColon, same.symm⟩
    exact List.forall_mem_cons.mpr
      ⟨reports ("Oxs_FixedZeeman", "near") "Energy" (by decide) (by decide) (by decide),
        List.forall_mem_cons.mpr
      ⟨reports ("Oxs_FixedZeeman", "far") "Energy" (by decide) (by decide) (by decide),
        List.forall_mem_cons.mpr
      ⟨reports ("Oxs_UZeeman", "hysteresis") "Energy" (by decide) (by decide) (by decide),
        List.forall_mem_cons.mpr
      ⟨reports ("Oxs_CGEvolve", "evolver") "Total energy" (by decide) (by decide) (by decide),
        List.forall_mem_singleton.mpr
          (reports ("Oxs_MinDriver", "") "Stage" (by decide) (by decide) (by decide))⟩⟩⟩⟩
  obtain ⟨apart, length, -⟩ := renamed_apart plain lowered (by decide) report
  exact ⟨apart, length⟩

end Problem

end Micromag
