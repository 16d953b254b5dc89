import Mathlib.Data.List.Nodup
import Mathlib.Data.List.ProdSigma
import Micromag.Proofs.Field
import Micromag.Proofs.Lowering.Pairs

/-!
# Constants among tables of pairs

A constant of antisymmetric exchange is written out as a table with a row for each two subregions.
It is the same to give it to all of them in a region map: the pairs that are listed one after the
other are those of the map, and they come in the order of the rows.
-/

namespace Micromag

open Script

/-- The map that gives one number to any two subregions, or to the region as a whole if it is not
divided, and to all that is left. -/
def RegionMap.everywhere (mesh : Mesh Float) (x : Float) : RegionMap where
  values := .ofList <|
    if mesh.subregions.isEmpty then [("main:main", .scalar x)]
    else ((mesh.subregions.keys ×ˢ mesh.subregions.keys).filter fun pair => pair.1 ≤ pair.2).map
      fun pair => (pair.1 ++ ":" ++ pair.2, .scalar x)
  fallback := some (.scalar x)

namespace PairValue

/-! ## Pairs of names in order -/

variable {names : List String} {site : Site} {name : String} {mesh : Mesh Float} {x : Float}

/-- The pairs of ascending names are all of them with the smaller one first. -/
theorem mem_pairsOf (ascending : names.Pairwise (· < ·)) {pair : String × String} :
    pair ∈ pairsOf names ↔ pair.1 ∈ names ∧ pair.2 ∈ names ∧ pair.1 ≤ pair.2 := by
  induction names with
  | nil => exact ⟨(nomatch ·), (nomatch ·.1)⟩
  | cons first rest ih =>
    obtain ⟨above, others⟩ := List.pairwise_cons.mp ascending
    have head : pair ∈ (first :: rest).map (first, ·) ↔
        pair.1 = first ∧ pair.2 ∈ first :: rest := by
      rw [List.mem_map]
      constructor
      · rintro ⟨second, member, rfl⟩
        exact ⟨rfl, member⟩
      · rintro ⟨rfl, member⟩
        exact ⟨pair.2, member, rfl⟩
    unfold pairsOf
    rw [List.mem_append, head, ih others]
    constructor
    · rintro (⟨same, member⟩ | ⟨one, two, below⟩)
      · refine ⟨same ▸ List.mem_cons_self, member, same ▸ ?_⟩
        rcases List.mem_cons.mp member with equal | member
        · exact equal ▸ String.le_refl _
        · exact Std.le_of_lt (above _ member)
      · exact ⟨List.mem_cons_of_mem _ one, List.mem_cons_of_mem _ two, below⟩
    · rintro ⟨one, two, below⟩
      rcases List.mem_cons.mp one with same | one
      · exact .inl ⟨same, two⟩
      · rcases List.mem_cons.mp two with same | two
        · exact absurd (above _ one) (same ▸ below)
        · exact .inr ⟨one, two, below⟩

/-- The pairs of ascending names ascend, whatever the value between them. -/
theorem ordered_pairsOf (ascending : names.Pairwise (· < ·)) (x : Float) :
    Ordered ((pairsOf names).map fun pair => ⟨pair.1, pair.2, x⟩) := by
  induction names with
  | nil => exact .nil
  | cons first rest ih =>
    obtain ⟨above, others⟩ := List.pairwise_cons.mp ascending
    unfold pairsOf
    rw [List.map_append, Ordered, List.pairwise_append]
    refine ⟨?_, ih others, ?_⟩
    · rw [List.pairwise_map, List.pairwise_map]
      exact ascending.imp fun below => .inr ⟨rfl, below⟩
    · intro one front two back
      obtain ⟨_, inside, rfl⟩ := List.mem_map.mp front
      obtain ⟨_, _, rfl⟩ := List.mem_map.mp inside
      obtain ⟨pair, inside, rfl⟩ := List.mem_map.mp back
      exact .inl (above _ (mem_of_mem_pairsOf inside).1)

/-- No pair of ascending names is listed twice. -/
theorem nodup_pairsOf (ascending : names.Pairwise (· < ·)) : (pairsOf names).Nodup := by
  refine (List.pairwise_map.mp (ordered_pairsOf ascending 0).apart).imp fun apart same => ?_
  exact apart ⟨congrArg Prod.fst same, congrArg Prod.snd same⟩

/-! ## Keys of pairs -/

/-- An identifier has no blanks around it. -/
theorem padded_of_isIdentifier (identifier : Text.isIdentifier name = true) :
    Padded name.toList name := by
  have visible {c : Char} (member : c ∈ name.toList) : Text.isBlank c = false :=
    Text.isBlank_of_isNameChar (Text.isNameChar_of_mem identifier member)
  refine ⟨⟨[], [], by simp, nofun, nofun⟩, fun c first => ?_, fun c last => ?_⟩
  · exact visible (List.mem_of_mem_head? first)
  · exact visible (List.mem_of_mem_getLast? last)

/-- Two identifiers with a colon between them spell these two. -/
theorem spells_key {a b : String} (first : Text.isIdentifier a = true)
    (second : Text.isIdentifier b = true) : Spells (a ++ ":" ++ b) a b := by
  have text : (a ++ ":" ++ b).toList = a.toList ++ ':' :: b.toList := by
    rw [String.toList_append, String.toList_append, List.append_assoc]
    rfl
  exact .both text (Text.noColon_of_isIdentifier first) (padded_of_isIdentifier first)
    (padded_of_isIdentifier second)

/-- The names between which a constant is written out ascend. -/
theorem ascending_coupledNames (mesh : Mesh Float) :
    (Term.coupledNames mesh).Pairwise (· < ·) := by
  unfold Term.coupledNames
  split
  · exact List.pairwise_singleton _ _
  · exact List.pairwise_map.mpr mesh.subregions.ascending

/-- They are names of regions. -/
theorem mem_regionNames_of_coupled (coupled : name ∈ Term.coupledNames mesh) :
    name ∈ mesh.regionNames := by
  unfold Term.coupledNames at coupled
  unfold Mesh.regionNames
  split at coupled
  · rename_i undivided
    rwa [if_pos undivided]
  · rename_i divided
    rw [if_neg divided]
    exact List.mem_append_left _ coupled

/-- The entries of the map that gives a number to any two subregions are those of the pairs between
which a constant is written out. -/
theorem entries_everywhere (usable : mesh.validate = .ok ()) (x : Float) :
    (RegionMap.everywhere mesh x).values.entries.Perm
      ((pairsOf (Term.coupledNames mesh)).map fun pair =>
        (pair.1 ++ ":" ++ pair.2, .scalar x)) := by
  have ascending := ascending_coupledNames mesh
  have named {pair : String × String} (member : pair ∈ pairsOf (Term.coupledNames mesh)) :
      Spells (pair.1 ++ ":" ++ pair.2) pair.1 pair.2 := by
    obtain ⟨first, second⟩ := mem_of_mem_pairsOf member
    exact spells_key
      (Mesh.isIdentifier_of_mem_regionNames usable (mem_regionNames_of_coupled first))
      (Mesh.isIdentifier_of_mem_regionNames usable (mem_regionNames_of_coupled second))
  -- A key tells its pair, so that different pairs have different keys.
  have apart : (((pairsOf (Term.coupledNames mesh)).map fun pair =>
      (pair.1 ++ ":" ++ pair.2, RegionValue.scalar x)).map (·.1)).Nodup := by
    rw [List.map_map]
    refine List.Nodup.map_on (fun one inside other member same => ?_) (nodup_pairsOf ascending)
    have key : one.1 ++ ":" ++ one.2 = other.1 ++ ":" ++ other.2 := same
    have regions := regionsOf_eq_iff.mpr (named inside)
    rw [key, regionsOf_eq_iff.mpr (named member)] at regions
    exact regions.symm
  have settings : (if mesh.subregions.isEmpty then [("main:main", RegionValue.scalar x)]
      else ((mesh.subregions.keys ×ˢ mesh.subregions.keys).filter fun pair =>
        pair.1 ≤ pair.2).map fun pair => (pair.1 ++ ":" ++ pair.2, .scalar x)).Perm
      ((pairsOf (Term.coupledNames mesh)).map fun pair =>
        (pair.1 ++ ":" ++ pair.2, .scalar x)) := by
    unfold Term.coupledNames at ascending ⊢
    split
    · exact .refl _
    · rename_i divided
      rw [if_neg divided] at ascending
      have once : mesh.subregions.keys.Nodup := mesh.subregions.nodup_keys
      refine List.Perm.map _ ((List.perm_ext_iff_of_nodup ((once.product once).filter _)
        (nodup_pairsOf ascending)).mpr fun pair => ?_)
      rw [List.mem_filter, List.mem_product, mem_pairsOf ascending, decide_eq_true_eq, and_assoc]
  refine (Keyed.entries_ofList_perm ?_).trans settings
  exact (settings.map (·.1)).nodup_iff.mpr apart

/-! ## Rows -/

/-- The rows of pairs that all have one value are the names with the word of this value. -/
theorem rows_uniform {pairs : List (String × String)} (some : pairs ≠ []) :
    (pairs.map fun pair => (⟨pair.1, pair.2, x⟩ : PairValue)).mapM row = do
      let value ← numberWord x
      return pairs.map fun pair => [.text pair.1, .text pair.2, value] := by
  cases written : numberWord x with
  | error fault =>
    cases pairs with
    | nil => exact absurd rfl some
    | cons pair rest =>
      have refused : row ⟨pair.1, pair.2, x⟩ = .error fault := by
        unfold row
        rw [written]
        rfl
      rw [List.map_cons, List.mapM_cons, refused]
      rfl
  | ok value =>
    refine Result.mapM_ok.mpr (List.forall₂_map_left_iff.mpr (List.forall₂_map_right_iff.mpr
      (List.forall₂_same.mpr fun pair _ => ?_)))
    unfold row
    rw [written]
    rfl

/-- The table of the map that gives a number to any two subregions. -/
theorem table_everywhere (usable : site.mesh.validate = .ok ()) (name : String) (x : Float) :
    table site (.everywhere site.mesh x) name = do
      let value ← numberWord x
      return (pairsOf (Term.coupledNames site.mesh)).map fun pair =>
        [.text pair.1, .text pair.2, value] := by
  have ascending := ascending_coupledNames site.mesh
  have pairs : ((pairsOf (Term.coupledNames site.mesh)).map fun pair =>
      (pair.1 ++ ":" ++ pair.2, RegionValue.scalar x)).mapM (ofEntry site name) =
      .ok ((pairsOf (Term.coupledNames site.mesh)).map fun pair => ⟨pair.1, pair.2, x⟩) := by
    refine Result.mapM_ok.mpr (List.forall₂_map_left_iff.mpr (List.forall₂_map_right_iff.mpr
      (List.forall₂_same.mpr fun pair member => ofEntry_ok.mpr ?_)))
    obtain ⟨first, second, below⟩ := (mem_pairsOf ascending).mp member
    have firstKnown := mem_regionNames_of_coupled first
    have secondKnown := mem_regionNames_of_coupled second
    exact ⟨below, .inl (spells_key (Mesh.isIdentifier_of_mem_regionNames usable firstKnown)
      (Mesh.isIdentifier_of_mem_regionNames usable secondKnown)), ⟨firstKnown, secondKnown⟩, rfl⟩
  obtain ⟨found, all, same⟩ := Result.mapM_perm (entries_everywhere usable x) pairs
  have collected : collect site name [] _ = .ok _ :=
    (collect_ok .nil).mpr ⟨found, all, same.symm, ordered_pairsOf ascending x⟩
  have some : pairsOf (Term.coupledNames site.mesh) ≠ [] := by
    unfold Term.coupledNames
    split
    · exact List.cons_ne_nil _ _
    · rename_i divided
      cases keys : site.mesh.subregions.keys with
      | nil => exact absurd (List.isEmpty_iff.mpr (List.map_eq_nil_iff.mp keys)) divided
      | cons first rest => exact List.cons_ne_nil _ _
  unfold table
  rw [collected]
  exact rows_uniform some

end PairValue

/-! ## Antisymmetric exchange -/

namespace Term

variable {mesh : Mesh Float}

/-- A class of antisymmetric exchange is missing for all but one crystal class on one platform. -/
theorem dmiClass_ok {crystal : CrystalClass} {platform : Platform} :
    (∃ className, dmiClass crystal platform = .ok className) ↔
      platform = .unix ∨ crystal = .cnv := by
  cases platform <;> cases crystal <;> simp [dmiClass]

/-- A constant of antisymmetric exchange is lowered to the same items, or fails with the same fault,
as the region map that gives it to any two subregions and to all that is left. It is lowered exactly
when it is finite and the platform has the crystal class. -/
theorem dmi_everywhere (usable : mesh.validate = .ok ()) (platform : Platform) (name : String)
    (crystal : CrystalClass) (x : Float) :
    items ⟨mesh, platform⟩ ⟨name, .dmi (.constant x) crystal⟩ =
        items ⟨mesh, platform⟩ ⟨name, .dmi (.perRegion (.everywhere mesh x)) crystal⟩ ∧
      ((∃ lowered, (items ⟨mesh, platform⟩ ⟨name, .dmi (.constant x) crystal⟩).result =
          .ok lowered) ↔ x.isFinite = true ∧ (platform = .unix ∨ crystal = .cnv)) := by
  have rows : dmiRows ⟨mesh, platform⟩ name (.constant x) =
      dmiRows ⟨mesh, platform⟩ name (.perRegion (.everywhere mesh x)) := by
    have usable : (Site.mk mesh platform).mesh.validate = .ok () := usable
    unfold dmiRows
    dsimp only
    rw [PairValue.table_everywhere usable name x]
    cases numberWord x <;> rfl
  constructor
  · show dmiItems _ _ _ _ = dmiItems _ _ _ _
    unfold dmiItems
    rw [rows]
  · rw [← dmiClass_ok, ← PairValue.numberText_ok]
    constructor
    · rintro ⟨lowered, succeeds⟩
      obtain ⟨className, classified, lowering⟩ := Lowering.bind_ok.mp succeeds
      obtain ⟨_, listed, _⟩ := Lowering.bind_ok.mp lowering
      obtain ⟨_, written, _⟩ := Result.bind_ok.mp listed
      obtain ⟨text, found, _⟩ := PairValue.numberWord_ok.mp written
      exact ⟨⟨text, found⟩, className, classified⟩
    · rintro ⟨⟨text, found⟩, className, classified⟩
      have written := PairValue.numberWord_ok.mpr ⟨text, found, rfl⟩
      exact ⟨_, Lowering.bind_ok.mpr ⟨className, classified, Lowering.bind_ok.mpr
        ⟨_, Result.bind_ok.mpr ⟨_, written, rfl⟩, Lowering.bind_ok.mpr ⟨_, written, rfl⟩⟩⟩⟩

/-- A map that gives one number to both halves of a region and to what is between them has the block
of a constant. -/
theorem dmi_everywhere_halves :
    PairValue.halves.mesh.validate = .ok () ∧
      (items PairValue.halves
        ⟨"dmi", .dmi (.perRegion (.everywhere PairValue.halves.mesh 2)) .d2d⟩).result.map render =
        .ok ("Specify Oxs_DMI_D2d:dmi \x7b\n  default_D 2\n  atlas :main_atlas\n  D \x7b\n" ++
          "    left left 2\n    left right 2\n    right right 2\n  \x7d\n\x7d\n\n") := by
  have usable : PairValue.halves.mesh.validate = .ok () := Result.ok_of_toBool (by decide)
  have ⟨same, _⟩ := dmi_everywhere usable .unix "dmi" .d2d 2
  refine ⟨usable, ?_⟩
  show (items ⟨PairValue.halves.mesh, .unix⟩ _).result.map render = _
  rw [← same]
  rfl

end Term

end Micromag
