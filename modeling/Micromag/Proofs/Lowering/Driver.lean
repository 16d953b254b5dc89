import Micromag.Lowering.Driver
import Micromag.Proofs.Lowering.Evolver

/-!
# Objects of a drive

A drive declares the field that it sweeps, if it sweeps one, and then its evolver. The driver has no
name; it refers to the evolver, to the mesh and to the magnetisation.
-/

namespace Micromag

open Script

variable {known : List String} {site : Site}

/-- The names of the attributes that fix subregions. -/
def fixedNames (names : List String) : List String := if names.isEmpty then [] else ["fixed_spins"]

/-- Subregions that are fixed are regions of the mesh, listed behind the main atlas. -/
theorem fixedSpins_ok {names : List String} {extras : Evolver.Extras}
    (lowered : fixedSpins site.mesh names = .ok extras) :
    extras = (if names.isEmpty then []
      else [("fixed_spins", .group (.reference "main_atlas" :: names.map .text))]) ∧
        ∀ name ∈ names, name ∈ site.mesh.regionNames := by
  unfold fixedSpins at lowered
  by_cases nothing : names.isEmpty = true
  · rw [if_pos nothing] at lowered ⊢
    rw [List.isEmpty_iff.mp nothing]
    exact ⟨(Except.ok.inj lowered).symm, nofun⟩
  · rw [if_neg nothing] at lowered ⊢
    split at lowered
    · cases lowered
    · rename_i accepted
      refine ⟨(Except.ok.inj lowered).symm, fun name member => ?_⟩
      have fixable : site.mesh.canFix name = true := by
        have kept := List.find?_eq_none.mp accepted name member
        rwa [Bool.not_eq_true', Bool.not_eq_false] at kept
      exact List.contains_iff_mem.mp (Bool.and_eq_true _ _ ▸ fixable).1

/-- They refer to the main atlas only. -/
theorem fixedSpins_resolve (named : site.Named) (atlas : "main_atlas" ∈ known)
    {names : List String} {extras : Evolver.Extras}
    (lowered : fixedSpins site.mesh names = .ok extras) :
    Evolver.Extras.Resolve known extras ∧ extras.map (·.1) = fixedNames names := by
  obtain ⟨rfl, regions⟩ := fixedSpins_ok lowered
  unfold fixedNames
  split
  · exact ⟨nofun, rfl⟩
  · refine ⟨List.forall_mem_singleton.mpr (List.forall_mem_cons.mpr ⟨⟨atlas, by decide⟩, ?_⟩), rfl⟩
    exact texts_resolve fun name member =>
      Text.noColon_of_isIdentifier (named name (regions name member))

/-- The rows of a sweep refer to nothing. -/
theorem SweepLeg.row_resolves {leg : SweepLeg} {row : List Word} (lowered : leg.row = .ok row) :
    ∀ word ∈ row, word.Resolves known := by
  obtain ⟨ends, written, same⟩ := Result.bind_ok.mp lowered
  rw [← Except.ok.inj same]
  refine List.forall_mem_singleton.mpr fun atom member => ?_
  rcases List.mem_append.mp member with member | member
  · exact mapM_number_resolves written atom member
  · rw [List.mem_singleton.mp member]
    exact noColon_toString _

/-- A sweep declares the field that it steps through. -/
theorem sweepItem_emits {legs : List SweepLeg} {item : Item} (lowered : sweepItem legs = .ok item) :
    Emits known [item] ["hysteresis"] := by
  obtain ⟨rows, inner, same⟩ := Result.bind_ok.mp lowered
  rw [← Except.ok.inj same]
  have table : (Script.Entry.table "Hrange" rows).Resolves known := by
    refine ⟨by decide, fun row member => ?_⟩
    obtain ⟨leg, _, lowered⟩ := Result.exists_of_mem_mapM inner member
    exact SweepLeg.row_resolves lowered
  exact .object (by decide) (by decide) (List.forall_mem_singleton.mpr table)

namespace Intent

variable {intent : Intent} {dynamics : Dynamics} {settings : ScriptSettings}

/-- Whether neither an intent nor the settings of its script contain text of the caller. -/
structure Plain (intent : Intent) (settings : ScriptSettings) : Prop where
  /-- A chosen evolver has no text in it. -/
  evolver : ∀ evolver ∈ intent.evolver, evolver.Plain
  /-- No lines are added to the script. -/
  directive : settings.directive = none

/-- A drive for which nothing is chosen and nothing is added has no text of the caller. -/
theorem Plain.of_default (evolver : intent.evolver = none)
    (directive : settings.directive = none) : intent.Plain settings := by
  refine ⟨fun chosen member => ?_, directive⟩
  rw [evolver] at member
  cases member

/-- The evolver of a drive without text of the caller has no text in it. -/
theorem chosenEvolver_plain (plain : intent.Plain settings) :
    (intent.chosenEvolver dynamics).Plain := by
  have bare (kind : EvolverKind) : Evolver.Plain { kind } := ⟨rfl, nofun⟩
  unfold chosenEvolver
  split
  · rename_i chosen
    exact plain.evolver _ chosen
  · unfold Evolver.forDynamics
    split
    · exact bare _
    · split
      · exact bare _
      · exact bare _
  · exact bare _

/-- The names of the objects of a sweep. -/
def appliedNames (intent : Intent) : List String :=
  match intent.goal with
  | .sweep _ => ["hysteresis"]
  | _ => []

/-- The names of the objects in front of the evolver, which depend on what the evolver binds. -/
def helperNames (intent : Intent) (dynamics : Dynamics) (settings : ScriptSettings) :
    List String :=
  match (intent.chosenEvolver dynamics).bind dynamics with
  | .ok evolver => evolver.objectNames (fixedNames settings.fixed)
  | .error _ => []

/-- The objects of a sweep, which is the only goal that has objects of its own. -/
theorem appliedItems_emits {items : List Item} (lowered : intent.appliedItems = .ok items) :
    Emits known items intent.appliedNames := by
  unfold appliedItems at lowered
  unfold appliedNames
  cases goal : intent.goal with
  | sweep legs =>
    rw [goal] at lowered
    obtain ⟨item, inner, same⟩ := Result.bind_ok.mp lowered
    rw [← Except.ok.inj same]
    exact sweepItem_emits inner
  | minimise | evolve =>
    rw [goal] at lowered
    rw [← Except.ok.inj lowered]
    exact .nil

/-- What every driver refers to is declared. -/
theorem driverReferences_resolve
    (declared : ∀ name ∈ ["evolver", "mesh", "m0_norm", "m0"], name ∈ known) :
    ∀ entry ∈ driverReferences, entry.Resolves known := by
  have refers {key name : String} (noColon : ':' ∉ key.toList)
      (one : name ∈ ["evolver", "mesh", "m0_norm", "m0"])
      (identifier : Text.isIdentifier name = true) :
      (Script.Entry.setting key (.reference name)).Resolves known :=
    setting_resolves noColon ⟨declared name one, identifier⟩
  exact List.forall_mem_cons.mpr
    ⟨refers (by decide) (by decide) (by decide), List.forall_mem_cons.mpr
      ⟨refers (by decide) (by decide) (by decide), List.forall_mem_cons.mpr
        ⟨refers (by decide) (by decide) (by decide), List.forall_mem_singleton.mpr
          (refers (by decide) (by decide) (by decide))⟩⟩⟩

/-- When the driver ends its stages refers to nothing. -/
theorem stoppingEntries_resolve {entries : List Script.Entry}
    (lowered : intent.stoppingEntries = .ok entries) : ∀ entry ∈ entries, entry.Resolves known := by
  unfold stoppingEntries at lowered
  split at lowered
  · obtain ⟨stage, first, lowered⟩ := Result.bind_ok.mp lowered
    obtain ⟨rate, second, same⟩ := Result.bind_ok.mp lowered
    rw [← Except.ok.inj same]
    intro entry member
    rcases List.mem_append.mp member with member | member
    · rcases List.mem_cons.mp member with rfl | member
      · exact setting_resolves (by decide) (numberWord_resolves first)
      · rw [List.mem_singleton.mp member]
        exact setting_resolves (by decide) (noColon_toString _)
    · obtain ⟨value, _, lowered⟩ := Result.exists_of_mem_mapM second member
      obtain ⟨word, written, same⟩ := Result.bind_ok.mp lowered
      rw [← Except.ok.inj same]
      exact setting_resolves (by decide) (numberWord_resolves written)
  · obtain ⟨word, written, same⟩ := Result.bind_ok.mp lowered
    rw [← Except.ok.inj same]
    exact List.forall_mem_singleton.mpr
      (setting_resolves (by decide) (numberWord_resolves written))

/-- The driver declares nothing. -/
theorem driverItem_emits (declared : ∀ name ∈ ["evolver", "mesh", "m0_norm", "m0"], name ∈ known)
    {item : Item} (lowered : intent.driverItem = .ok item) : Emits known [item] [] := by
  obtain ⟨entries, inner, same⟩ := Result.bind_ok.mp lowered
  rw [← Except.ok.inj same]
  have ofClass : Text.isIdentifier intent.driverClass = true := by
    unfold driverClass
    split <;> decide
  refine .anonymous ofClass fun entry member => ?_
  rcases List.mem_append.mp member with member | member
  · exact driverReferences_resolve declared entry member
  · exact stoppingEntries_resolve inner entry member

/-- Outputs declare nothing. -/
theorem outputItems_emits (plain : intent.Plain settings) :
    Emits known (intent.outputItems settings) [] := by
  have archive : ∀ item ∈ (if intent.duration?.isSome then [Item.destination "archive"] else []),
      item.Resolves known ∧ item.block? = none := by
    split
    · exact List.forall_mem_singleton.mpr ⟨show ':' ∉ "archive".toList by decide, rfl⟩
    · exact nofun
  have event : Text.isIdentifier (intent.tableEvent settings) = true := by
    unfold tableEvent
    split <;> decide
  have magnetisation : (intent.driverClass ++ "::Magnetization").toList.head? ≠ some ':' ∧
      ∀ c ∈ (intent.driverClass ++ "::Magnetization").toList, isDelimiter c = false := by
    unfold driverClass
    split <;> exact ⟨by decide, solid_of_all (by decide)⟩
  have table : "DataTable".toList.head? ≠ some ':' ∧
      ∀ c ∈ "DataTable".toList, isDelimiter c = false :=
    ⟨by decide, solid_of_all (by decide)⟩
  have outputs : ∀ item ∈ [Item.destination "table", .destination "mags", .blank,
      .schedule "DataTable" "table" (intent.tableEvent settings),
      .schedule (intent.driverClass ++ "::Magnetization") "mags" "Stage"],
      item.Resolves known ∧ item.block? = none :=
    List.forall_mem_cons.mpr ⟨⟨show ':' ∉ "table".toList by decide, rfl⟩,
      List.forall_mem_cons.mpr ⟨⟨show ':' ∉ "mags".toList by decide, rfl⟩,
        List.forall_mem_cons.mpr ⟨⟨trivial, rfl⟩,
          List.forall_mem_cons.mpr ⟨⟨⟨table, by decide, event⟩, rfl⟩,
            List.forall_mem_singleton.mpr
              ⟨⟨magnetisation, by decide, by decide⟩, rfl⟩⟩⟩⟩⟩
  unfold outputItems
  rw [plain.directive]
  refine .of_noBlock fun item member => ?_
  rw [Option.map_none, Option.toList_none, List.append_nil] at member
  rcases List.mem_append.mp member with member | member
  · exact archive item member
  · exact outputs item member

/-- The objects of a drive without text of the caller. -/
theorem items_emits (plain : intent.Plain settings) (named : site.Named)
    (atlas : "main_atlas" ∈ known) (declared : ∀ name ∈ ["mesh", "m0_norm", "m0"], name ∈ known)
    {items : List Item}
    (lowered : (intent.items site dynamics settings).result = .ok items) :
    Emits known items
      (intent.appliedNames ++ intent.helperNames dynamics settings ++ ["evolver"]) := by
  obtain ⟨evolver, bound, lowered⟩ := Lowering.bind_ok.mp lowered
  obtain ⟨extras, fixed, lowered⟩ := Lowering.bind_ok.mp lowered
  obtain ⟨applied, swept, lowered⟩ := Lowering.bind_ok.mp lowered
  obtain ⟨evolving, moved, lowered⟩ := Lowering.bind_ok.mp lowered
  obtain ⟨driver, driven, same⟩ := Lowering.bind_ok.mp lowered
  rw [← Lowering.pure_ok.mp same]
  have binds : (intent.chosenEvolver dynamics).bind dynamics = .ok evolver :=
    Result.mapError_ok.mp bound
  have helpers : intent.helperNames dynamics settings =
      evolver.objectNames (fixedNames settings.fixed) := by
    unfold helperNames
    rw [binds]
  obtain ⟨resolve, names⟩ := fixedSpins_resolve named atlas fixed
  have evolverPlain := (chosenEvolver_plain plain).bind binds
  have field : Emits known applied intent.appliedNames := appliedItems_emits swept
  have moving := Evolver.items_emits evolverPlain named atlas resolve moved
  rw [names, ← helpers] at moving
  have first := field.append_right moving
  rw [← List.append_assoc] at first
  have all : ∀ name ∈ ["evolver", "mesh", "m0_norm", "m0"], name ∈
      known ++ (intent.appliedNames ++ intent.helperNames dynamics settings ++ ["evolver"]) := by
    refine List.forall_mem_cons.mpr ⟨?_, fun name member => ?_⟩
    · exact List.mem_append_right _ (List.mem_append_right _ (List.mem_singleton_self _))
    · exact List.mem_append_left _ (declared name member)
  have whole := (first.append (driverItem_emits all driven)).append_right
    (outputItems_emits plain)
  rw [List.append_nil, List.append_nil] at whole
  exact whole

end Intent

end Micromag
