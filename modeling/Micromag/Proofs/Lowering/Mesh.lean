import Micromag.Lowering.Mesh
import Micromag.Proofs.Field
import Micromag.Proofs.Lowering.Basic
import Micromag.Proofs.Script.Resolution

/-!
# Objects of a mesh

A mesh declares an atlas for each of its regions, then the main atlas and the cells. The main atlas
refers to the other atlases, and the cells refer to the main atlas.
-/

namespace Micromag.Mesh

open Script

variable {mesh : Mesh Float} {known : List String}

/-- The names of the objects of a mesh. -/
def objectNames (mesh : Mesh Float) : List String :=
  (if mesh.subregions.isEmpty then ["main_atlas"]
    else mesh.subregions.keys.map atlasName ++ [atlasName "entire", "main_atlas"]) ++ ["mesh"]

/-- The main atlas is one of the objects of a mesh. -/
theorem mainAtlas_mem_objectNames : "main_atlas" ∈ mesh.objectNames := by
  refine List.mem_append_left _ ?_
  split
  · exact List.mem_cons_self
  · exact List.mem_append_right _ (List.mem_cons_of_mem _ List.mem_cons_self)

/-- The cells are one of the objects of a mesh. -/
theorem mesh_mem_objectNames : "mesh" ∈ mesh.objectNames :=
  List.mem_append_right _ List.mem_cons_self

/-- The atlas of a region has a name that scripts can use. -/
theorem isIdentifier_atlasName {region : String} (named : Text.isIdentifier region = true) :
    Text.isIdentifier (atlasName region) = true :=
  Text.isIdentifier_append named (by decide)

/-- Bounds refer to nothing. -/
theorem ranges_resolves {region : Region Float} {entries : List Script.Entry}
    (lowered : ranges region = .ok entries) : ∀ entry ∈ entries, entry.Resolves known := by
  intro entry member
  obtain ⟨axis, _, lowered⟩ := Result.exists_of_mem_mapM lowered member
  obtain ⟨word, written, same⟩ := Result.bind_ok.mp lowered
  rw [← Except.ok.inj same]
  have noColon : ':' ∉ (rangeKey axis).toList := by
    cases axis <;> decide
  exact setting_resolves noColon (numbers_resolves written)

/-- A box declares itself. -/
theorem box_emits {instanceName name : String} {region : Region Float} {item : Item}
    (lowered : box instanceName name region = .ok item)
    (instanceNamed : Text.isIdentifier instanceName = true)
    (named : Text.isIdentifier name = true) : Emits known [item] [instanceName] := by
  obtain ⟨bounds, written, same⟩ := Result.bind_ok.mp lowered
  rw [← Except.ok.inj same]
  refine .object (by decide) instanceNamed fun entry member => ?_
  rcases List.mem_append.mp member with member | member
  · exact ranges_resolves written entry member
  · rw [List.mem_singleton.mp member]
    exact setting_resolves (by decide) (Text.noColon_of_isIdentifier named)

/-- Boxes declare their atlases in order. -/
theorem boxes_emits {entries : List (String × Region Float)} {boxes : List Item}
    (lowered : (entries.mapM fun entry => box (atlasName entry.1) entry.1 entry.2) = .ok boxes)
    (named : ∀ entry ∈ entries, Text.isIdentifier entry.1 = true) :
    Emits known boxes (entries.map fun entry => atlasName entry.1) := by
  induction entries generalizing boxes with
  | nil =>
    rw [← Except.ok.inj lowered]
    exact .nil
  | cons entry rest ih =>
    rw [List.mapM_cons] at lowered
    obtain ⟨item, first, lowered⟩ := Result.bind_ok.mp lowered
    obtain ⟨items, others, same⟩ := Result.bind_ok.mp lowered
    rw [← Except.ok.inj same]
    have identifier := named entry List.mem_cons_self
    have head : Emits known [item] [atlasName entry.1] :=
      box_emits first (isIdentifier_atlasName identifier) identifier
    exact head.append_right (ih others fun other member =>
      named other (List.mem_cons_of_mem entry member))

/-- The option that refers to the main atlas resolves when the main atlas is known. -/
theorem mainAtlas_resolves (atlas : "main_atlas" ∈ known) : mainAtlas.Resolves known :=
  setting_resolves (by decide) ⟨atlas, by decide⟩

/-- The atlases of a usable mesh. -/
theorem atlasItems_emits (usable : mesh.validate = .ok ()) {items : List Item}
    (lowered : mesh.atlasItems = .ok items) :
    Emits known items (if mesh.subregions.isEmpty then ["main_atlas"]
      else mesh.subregions.keys.map atlasName ++ [atlasName "entire", "main_atlas"]) := by
  unfold atlasItems at lowered
  by_cases whole : mesh.subregions.isEmpty = true
  · rw [if_pos whole] at lowered ⊢
    obtain ⟨item, lowered, same⟩ := Result.bind_ok.mp lowered
    rw [← Except.ok.inj same]
    exact box_emits lowered (by decide) (by decide)
  · rw [if_neg whole] at lowered ⊢
    obtain ⟨boxes, inner, lowered⟩ := Result.bind_ok.mp lowered
    obtain ⟨rest, outer, lowered⟩ := Result.bind_ok.mp lowered
    obtain ⟨bounds, written, same⟩ := Result.bind_ok.mp lowered
    rw [← Except.ok.inj same]
    have named : ∀ entry ∈ mesh.subregions.entries, Text.isIdentifier entry.1 = true :=
      fun entry member => (subregion_named usable (List.mem_map_of_mem member)).1
    have parts : Emits known boxes (mesh.subregions.keys.map atlasName) := by
      unfold Keyed.keys
      rw [List.map_map]
      exact boxes_emits inner named
    have last : Emits known [rest] [atlasName "entire"] :=
      box_emits outer (by decide) (by decide)
    have first := parts.append_right last
    have main : Emits (known ++ (mesh.subregions.keys.map atlasName ++ [atlasName "entire"]))
        [.object "Oxs_MultiAtlas" "main_atlas" (((mesh.subregions.keys ++ ["entire"]).map
          fun name => Script.Entry.setting "atlas" (.reference (atlasName name))) ++ bounds)]
        ["main_atlas"] := by
      refine .object (by decide) (by decide) fun entry member => ?_
      rcases List.mem_append.mp member with member | member
      · obtain ⟨name, inside, rfl⟩ := List.mem_map.mp member
        refine setting_resolves (by decide) ⟨?_, ?_⟩
        · rw [← List.map_singleton, ← List.map_append]
          exact List.mem_append_right known (List.mem_map_of_mem inside)
        · rcases List.mem_append.mp inside with inside | inside
          · exact isIdentifier_atlasName (subregion_named usable inside).1
          · rw [List.mem_singleton.mp inside]
            decide
      · exact ranges_resolves written entry member
    have all := first.append main
    rw [List.append_assoc, List.append_assoc] at all
    exact all

/-- Letters of axes refer to nothing. -/
theorem noColon_periodicAxes : ':' ∉ mesh.periodicAxes.toList := by
  unfold periodicAxes
  rw [String.toList_ofList]
  intro member
  have letter := List.mem_of_mem_filter member
  exact absurd letter (by decide)

/-- The cells refer to the main atlas. -/
theorem cellItem_emits (atlas : "main_atlas" ∈ known) {item : Item}
    (lowered : mesh.cellItem = .ok item) : Emits known [item] ["mesh"] := by
  obtain ⟨size, written, lowered⟩ := Result.bind_ok.mp lowered
  have sizeResolves : (Script.Entry.setting "cellsize" size).Resolves known :=
    setting_resolves (by decide) (vectorWord_resolves written)
  split at lowered
  · rw [← Except.ok.inj lowered]
    exact .object (by decide) (by decide) (List.forall_mem_cons.mpr
      ⟨sizeResolves, List.forall_mem_singleton.mpr (mainAtlas_resolves atlas)⟩)
  · rw [← Except.ok.inj lowered]
    have periodic : (Script.Entry.setting "periodic" (.text mesh.periodicAxes)).Resolves known :=
      setting_resolves (by decide) noColon_periodicAxes
    exact .object (by decide) (by decide) (List.forall_mem_cons.mpr
      ⟨sizeResolves, List.forall_mem_cons.mpr
        ⟨mainAtlas_resolves atlas, List.forall_mem_singleton.mpr periodic⟩⟩)

/-- The objects of a usable mesh. -/
theorem items_emits (usable : mesh.validate = .ok ()) {items : List Item}
    (lowered : mesh.items = .ok items) : Emits known items mesh.objectNames := by
  obtain ⟨atlases, first, lowered⟩ := Result.bind_ok.mp lowered
  obtain ⟨cells, second, same⟩ := Result.bind_ok.mp lowered
  rw [← Except.ok.inj same]
  refine (atlasItems_emits usable first).append (cellItem_emits ?_ second)
  refine List.mem_append_right known ?_
  split
  · exact List.mem_cons_self
  · exact List.mem_append_right _ (List.mem_cons_of_mem _ List.mem_cons_self)

end Micromag.Mesh
