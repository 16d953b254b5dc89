import Micromag.Proofs.Keyed
import Micromag.Proofs.Lowering.Formation

/-!
# Regions that are named are regions that are declared

A mesh declares one box for each of its regions, under the name of the region, and when it is divided
one atlas of these boxes, which lists each of them once and the rest last. Whatever else a script
names as a region was compared with the same names, so that one of the boxes bears it.
-/

namespace Micromag

open Script

variable {className key name : String} {items : List Item} {regions : List String}

/-- Where only a mesh declares atlases, nothing else sets a key of an atlas. -/
theorem valuesOf_of_built (built : ∀ item ∈ items, item.Built regions)
    (atlas : className ∈ atlasClasses) : valuesOf className key items = [] := by
  refine List.map_eq_nil_iff.mpr (List.filter_eq_nil_iff.mpr fun block member held => ?_)
  obtain ⟨item, inside, declared⟩ := List.mem_filterMap.mp member
  have same : block.className = className := of_decide_eq_true held
  exact (built item inside).2 block declared (same ▸ atlas)

namespace Mesh

variable {mesh : Mesh Float}

/-- Bounds set the keys of bounds only. -/
theorem ranges_values {region : Region Float} {entries : List Script.Entry}
    (lowered : ranges region = .ok entries) (other : ∀ axis, rangeKey axis ≠ key) :
    entries.filterMap (Entry.valueOf? key) = [] := by
  refine List.filterMap_eq_nil_iff.mpr fun entry member => ?_
  obtain ⟨axis, _, lowered⟩ := Result.exists_of_mem_mapM lowered member
  obtain ⟨word, _, same⟩ := Result.bind_ok.mp lowered
  rw [← Except.ok.inj same]
  exact if_neg fun equal => other axis (Atom.text.inj (Word.atom.inj equal))

/-- A box bears one name, and is no atlas of several. -/
theorem box_values {instanceName : String} {region : Region Float} {item : Item}
    (lowered : box instanceName name region = .ok item) :
    valuesOf "Oxs_BoxAtlas" "name" [item] = [[name]] ∧
      valuesOf "Oxs_MultiAtlas" "atlas" [item] = [] := by
  obtain ⟨bounds, written, same⟩ := Result.bind_ok.mp lowered
  rw [← Except.ok.inj same]
  have noName : bounds.filterMap (Entry.valueOf? "name") = [] :=
    ranges_values written fun axis => by cases axis <;> decide
  refine ⟨?_, valuesOf_object.trans (if_neg (by decide))⟩
  refine valuesOf_object.trans ((if_pos rfl).trans (congrArg ([·]) ?_))
  rw [List.filterMap_append, noName]
  rfl

/-- Boxes bear their names in order. -/
theorem boxes_values {entries : List (String × Region Float)} {boxes : List Item}
    (lowered : (entries.mapM fun entry => box (atlasName entry.1) entry.1 entry.2) = .ok boxes) :
    valuesOf "Oxs_BoxAtlas" "name" boxes = entries.map (fun entry => [entry.1]) ∧
      valuesOf "Oxs_MultiAtlas" "atlas" boxes = [] := by
  induction entries generalizing boxes with
  | nil =>
    rw [← Except.ok.inj lowered]
    exact ⟨rfl, rfl⟩
  | cons entry rest ih =>
    rw [List.mapM_cons] at lowered
    obtain ⟨item, first, lowered⟩ := Result.bind_ok.mp lowered
    obtain ⟨others, second, same⟩ := Result.bind_ok.mp lowered
    rw [← Except.ok.inj same]
    obtain ⟨named, listed⟩ := box_values first
    obtain ⟨names, lists⟩ := ih second
    have split {className key : String} : valuesOf className key (item :: others) =
        valuesOf className key [item] ++ valuesOf className key others := by
      rw [← valuesOf_append]
      rfl
    rw [List.map_cons]
    exact ⟨by rw [split, named, names]; rfl, by rw [split, listed, lists]; rfl⟩

/-- The references of a divided mesh to its boxes, the rest last. -/
def atlasReferences (mesh : Mesh Float) : List String :=
  mesh.subregions.keys.map (fun name => ":" ++ atlasName name) ++ [":entire_atlas"]

/-- The boxes of a mesh bear the names of its regions, and when it is divided one atlas lists these
boxes. -/
theorem atlasItems_values (lowered : mesh.atlasItems = .ok items) :
    valuesOf "Oxs_BoxAtlas" "name" items = mesh.regionNames.map ([·]) ∧
      valuesOf "Oxs_MultiAtlas" "atlas" items =
        if mesh.subregions.isEmpty then [] else [mesh.atlasReferences] := by
  unfold atlasItems at lowered
  unfold regionNames
  by_cases whole : mesh.subregions.isEmpty = true
  · rw [if_pos whole] at lowered
    rw [if_pos whole, if_pos whole]
    obtain ⟨item, inner, same⟩ := Result.bind_ok.mp lowered
    rw [← Except.ok.inj same]
    exact box_values inner
  · rw [if_neg whole] at lowered
    rw [if_neg whole, if_neg whole]
    obtain ⟨boxes, inner, lowered⟩ := Result.bind_ok.mp lowered
    obtain ⟨rest, outer, lowered⟩ := Result.bind_ok.mp lowered
    obtain ⟨bounds, written, same⟩ := Result.bind_ok.mp lowered
    rw [← Except.ok.inj same]
    obtain ⟨names, lists⟩ := boxes_values inner
    obtain ⟨last, unlisted⟩ := box_values outer
    have split {className key : String} {final : Item} :
        valuesOf className key (boxes ++ [rest, final]) = valuesOf className key boxes ++
          (valuesOf className key [rest] ++ valuesOf className key [final]) := by
      rw [← valuesOf_append, ← valuesOf_append]
      rfl
    have noAtlas : bounds.filterMap (Entry.valueOf? "atlas") = [] :=
      ranges_values written fun axis => by cases axis <;> decide
    have parts : ((mesh.subregions.keys ++ ["entire"]).map fun name =>
        Script.Entry.setting "atlas" (.reference (atlasName name))).filterMap
          (Entry.valueOf? "atlas") = mesh.atlasReferences := by
      rw [List.filterMap_map]
      have each : (Entry.valueOf? "atlas" ∘ fun name =>
          Script.Entry.setting "atlas" (.reference (atlasName name))) =
            some ∘ fun name => ":" ++ atlasName name := rfl
      rw [each, List.filterMap_eq_map, List.map_append]
      rfl
    rw [split, split, names, last, lists, unlisted, valuesOf_object, valuesOf_object,
      if_neg (by decide), if_pos rfl, List.filterMap_append, parts, noAtlas, List.append_nil,
      List.append_nil, List.map_append, Keyed.keys, List.map_map]
    exact ⟨rfl, rfl⟩

/-- So it is for all items of a mesh, since the cells are no atlas. -/
theorem items_values (lowered : mesh.items = .ok items) :
    valuesOf "Oxs_BoxAtlas" "name" items = mesh.regionNames.map ([·]) ∧
      valuesOf "Oxs_MultiAtlas" "atlas" items =
        if mesh.subregions.isEmpty then [] else [mesh.atlasReferences] := by
  obtain ⟨atlases, first, lowered⟩ := Result.bind_ok.mp lowered
  obtain ⟨cells, second, same⟩ := Result.bind_ok.mp lowered
  rw [← Except.ok.inj same]
  have built : ∀ item ∈ [cells], item.Built [] :=
    List.forall_mem_singleton.mpr (cellItem_built second)
  rw [valuesOf_append, valuesOf_append, valuesOf_of_built built (by decide),
    valuesOf_of_built built (by decide), List.append_nil, List.append_nil]
  exact atlasItems_values first

/-- The subregions of a usable mesh and the rest of it have different names. -/
theorem nodup_divisions (usable : mesh.validate = .ok ()) :
    (mesh.subregions.keys ++ ["entire"]).Nodup := by
  have keys : mesh.subregions.keys.Nodup := mesh.subregions.nodup_keys
  refine keys.append (List.nodup_singleton _) fun name inside last => ?_
  rw [List.mem_singleton.mp last] at inside
  exact (subregion_named usable inside).2 (by decide)

/-- The regions of a usable mesh have different names. -/
theorem nodup_regionNames (usable : mesh.validate = .ok ()) : mesh.regionNames.Nodup := by
  unfold regionNames
  split
  · exact List.nodup_singleton _
  · exact nodup_divisions usable

/-- A usable mesh that is divided refers to each of its boxes once. -/
theorem nodup_atlasReferences (usable : mesh.validate = .ok ()) : mesh.atlasReferences.Nodup := by
  have same : mesh.atlasReferences =
      (mesh.subregions.keys ++ ["entire"]).map fun name => ":" ++ atlasName name := by
    rw [List.map_append]
    rfl
  rw [same]
  exact (nodup_divisions usable).map fun _ _ equal =>
    (String.append_left_inj "_atlas").mp ((String.append_right_inj ":").mp equal)

end Mesh

namespace Problem

variable {problem : Problem} {intent : Intent} {settings : ScriptSettings} {platform : Platform}

/-- The boxes of a script without text of the caller are those of its mesh. They bear the names of
the regions of the mesh, one each, and every region that the script names is the name of exactly one
of them. A divided mesh has one atlas of several, which lists each box once and the rest last. -/
theorem regions_declared (plain : intent.Plain settings) {script : LoweredScript}
    (lowered : problem.lower intent settings platform = .ok script) :
    ∃ mesh, problem.mesh.items = .ok mesh ∧ mesh <:+: script.items ∧
      valuesOf "Oxs_BoxAtlas" "name" script.items = valuesOf "Oxs_BoxAtlas" "name" mesh ∧
      valuesOf "Oxs_BoxAtlas" "name" mesh = problem.mesh.regionNames.map ([·]) ∧
      (∀ region ∈ usedRegions script.items,
        (valuesOf "Oxs_BoxAtlas" "name" mesh).count [region] = 1) ∧
      valuesOf "Oxs_MultiAtlas" "atlas" script.items =
        (if problem.mesh.subregions.isEmpty then [] else
          [problem.mesh.subregions.keys.map (fun name => ":" ++ name ++ "_atlas") ++
            [":entire_atlas"]]) ∧
      (problem.mesh.subregions.keys.map (fun name => ":" ++ name ++ "_atlas") ++
        [":entire_atlas"]).Nodup := by
  obtain ⟨usable, mesh, others, divided, items, built⟩ := built_of_lower plain lowered
  obtain ⟨names, lists⟩ := Mesh.items_values divided
  have references : problem.mesh.atlasReferences =
      problem.mesh.subregions.keys.map (fun name => ":" ++ name ++ "_atlas") ++
        [":entire_atlas"] := by
    unfold Mesh.atlasReferences Mesh.atlasName
    simp only [String.append_assoc]
  have only {className key : String} (atlas : className ∈ atlasClasses) :
      valuesOf className key script.items = valuesOf className key mesh := by
    have options : script.items =
        [.options problem.name settings.format] ++ (mesh ++ others) := items
    have nothing : valuesOf className key [.options problem.name settings.format] = [] := rfl
    rw [options, valuesOf_append, valuesOf_append, valuesOf_of_built built atlas, nothing,
      List.nil_append, List.append_nil]
  have inner : mesh <:+: script.items := by
    rw [items]
    exact ⟨[_], others, rfl⟩
  refine ⟨mesh, divided, inner, only (by decide), names, fun region used => ?_,
    (only (by decide)).trans (references ▸ lists),
    references ▸ Mesh.nodup_atlasReferences usable⟩
  have known := usedRegions_of_formed (formed_of_lower plain lowered) region used
  rw [names]
  have single : Function.Injective fun name : String => [name] := List.singleton_injective
  exact List.count_eq_one_of_mem ((Mesh.nodup_regionNames usable).map single)
    (List.mem_map_of_mem known)

/-- A problem of two subregions that are named in all ways. -/
def twoParts : Problem where
  name := "parts"
  m := { mesh := halves, dim := 3, values := [0, 0, 1, 0, 0, 1] }
  energy :=
    [⟨"pairs", .exchange (.perRegion { values := .insert .empty " b : a " (.scalar 1) })⟩,
      ⟨"twist", .dmi (.constant 1) .t⟩,
      ⟨"axis", .uniaxial (.perRegion { values := .insert .empty "entire" (.scalar 1) }) none
        (.vector ⟨0, 0, 1⟩)⟩,
      ⟨"face", .rkky 1 0 "a" "b"⟩]
where
  /-- Two cells, each of them a subregion. -/
  halves : Mesh Float :=
    { region := ⟨.fill 0, ⟨2, 1, 1⟩⟩, cell := .fill 1,
      subregions := .insert (.insert .empty "a" ⟨.fill 0, .fill 1⟩) "b" ⟨⟨1, 0, 0⟩, ⟨2, 1, 1⟩⟩ }

/-- A pair in spaces and out of order, the pairs of a constant, the rest of the mesh, both sides of a
face and a fixed subregion are names of one box each. -/
theorem twoParts_declared :
    ∃ script mesh, twoParts.lower { goal := .minimise } { fixed := ["a"] } .unix = .ok script ∧
      twoParts.mesh.items = .ok mesh ∧
      usedRegions script.items =
        ["a", "b", "a", "a", "a", "b", "b", "b", "entire", "a", "b", "a"] ∧
      (∀ region ∈ usedRegions script.items,
        (valuesOf "Oxs_BoxAtlas" "name" mesh).count [region] = 1) ∧
      valuesOf "Oxs_BoxAtlas" "name" script.items = [["a"], ["b"], ["entire"]] ∧
      valuesOf "Oxs_MultiAtlas" "atlas" script.items =
        [[":a_atlas", ":b_atlas", ":entire_atlas"]] := by
  have checked : (twoParts.lower { goal := .minimise } { fixed := ["a"] } .unix).toOption.map
      (fun script => usedRegions script.items) =
      some ["a", "b", "a", "a", "a", "b", "b", "b", "entire", "a", "b", "a"] := by
    decide +kernel
  obtain ⟨script, kept, used⟩ := Option.map_eq_some_iff.mp checked
  have lowered : twoParts.lower { goal := .minimise } { fixed := ["a"] } .unix = .ok script :=
    Result.ok_of_toOption kept
  have plain : Intent.Plain { goal := .minimise } { fixed := ["a"] } := .of_default rfl rfl
  obtain ⟨mesh, divided, -, boxes, names, once, parts, -⟩ := regions_declared plain lowered
  refine ⟨script, mesh, lowered, divided, used, once, ?_, ?_⟩
  · rw [boxes, names]
    decide
  · rw [parts]
    decide

end Problem

end Micromag
