import Micromag.Proofs.Lowering.Problem
import Micromag.Proofs.Script.Heading

/-!
# Roles of objects

An energy term, the evolver and the driver each have one object that computes. What stands in front
of it serves: atlases and fields, which report nothing, and procedures. The class of the object of a
term follows from the interaction and from the kind of its parameters.
-/

namespace Micromag

open Script

/-- The classes of objects that serve others and report nothing. -/
def auxiliaryClasses : List String :=
  ["Oxs_BoxAtlas", "Oxs_MultiAtlas", "Oxs_RectangularMesh", "Oxs_PeriodicRectangularMesh",
    "Oxs_FileVectorField", "Oxs_VecMagScalarField", "Oxs_AtlasScalarField",
    "Oxs_AtlasVectorField", "Oxs_LinearScalarField"]

/-- Whether an item serves others: an object that reports nothing, or a procedure. -/
def Script.Item.Serves : Item → Prop
  | .block b => b.className ∈ auxiliaryClasses
  | .procedure p => '\n' ∉ p.name.toList ∧ '\n' ∉ p.parameters.toList
  | _ => False

/-- The class of the object that computes an interaction, if the platform has it. -/
def Interaction.className? (platform : Platform) : Interaction → Option String
  | .exchange (.constant _) => some "Oxs_UniformExchange"
  | .exchange (.perRegion _) => some "Oxs_Exchange6Ngbr"
  | .exchange (.field _) => some "Oxs_ExchangePtwise"
  | .exchange (.vector _) => none
  | .zeeman _ wave _ _ =>
    some (if wave.getD .constant = .constant then "Oxs_FixedZeeman" else "Oxs_TransformZeeman")
  | .demag _ => some "Oxs_Demag"
  | .dmi _ crystal => (Term.dmiClass crystal platform).toOption
  | .uniaxial _ k2 _ =>
    some (if k2.isNone then "Oxs_UniaxialAnisotropy" else "Southampton_UniaxialAnisotropy4")
  | .cubic .. => some "Oxs_CubicAnisotropy"
  | .magnetoElastic .. => some "YY_FixedMEL"
  | .rkky .. => some "Oxs_TwoSurfaceExchange"

variable {site : Site} {name : String} {items : List Item}

/-- An object of an auxiliary class serves. -/
theorem serves_object {className : String} {entries : List Script.Entry}
    (auxiliary : className ∈ auxiliaryClasses) : (Item.object className name entries).Serves :=
  auxiliary

/-- What is declared for a parameter serves. -/
theorem Parameter.serves_of_lower {arity : Arity} {value : Parameter} {result : LoweredParameter}
    (lowered : (value.lower arity site name).result = .ok result) :
    ∀ item ∈ result.items, item.Serves := by
  have bare {kind : String} {value : RegionValue}
      (lowered : constantWord arity name kind value = .ok result) : result.items = [] := by
    obtain ⟨word, _, same⟩ := Result.bind_ok.mp lowered
    rw [← Except.ok.inj same]
  cases value with
  | constant x =>
    rw [bare lowered]
    exact nofun
  | vector v =>
    rw [bare lowered]
    exact nofun
  | perRegion map =>
    obtain ⟨item, inner, same⟩ := Lowering.bind_ok.mp lowered
    rw [← Lowering.pure_ok.mp same]
    obtain ⟨rows, _, lowered⟩ := Result.bind_ok.mp inner
    obtain ⟨fallback, _, same⟩ := Result.bind_ok.mp lowered
    rw [← Except.ok.inj same]
    refine List.forall_mem_singleton.mpr (serves_object ?_)
    cases arity <;> decide
  | field f =>
    obtain ⟨_, _, lowered⟩ := Lowering.bind_ok.mp lowered
    obtain ⟨_, _, lowered⟩ := Lowering.bind_ok.mp lowered
    have file : (fileItem name (fileName name)).Serves := serves_object (by decide)
    have norm : (normItem name).Serves := serves_object (by decide)
    cases arity with
    | scalar =>
      rw [← Lowering.pure_ok.mp lowered]
      exact List.forall_mem_cons.mpr ⟨file, List.forall_mem_singleton.mpr norm⟩
    | vector =>
      rw [← Lowering.pure_ok.mp lowered]
      exact List.forall_mem_singleton.mpr file

/-- Whether items end in the object that computes and serve it otherwise. -/
def Serving (items : List Item) (className name : String) : Prop :=
  ∃ front entries, items = front ++ [.object className name entries] ∧
    ∀ item ∈ front, item.Serves

/-- An object alone computes. -/
theorem Serving.alone {className : String} {entries : List Script.Entry} :
    Serving [.object className name entries] className name := ⟨[], entries, rfl, nofun⟩

/-- More may serve in front. -/
theorem Serving.behind {className : String} {front : List Item}
    (serves : ∀ item ∈ front, item.Serves) (serving : Serving items className name) :
    Serving (front ++ items) className name := by
  obtain ⟨others, entries, rfl, rest⟩ := serving
  exact ⟨front ++ others, entries, (List.append_assoc ..).symm,
    List.forall_mem_append.mpr ⟨serves, rest⟩⟩

namespace Term

/-- When something is lowered behind a parameter, what is declared for the parameter serves. -/
theorem serves_of_parameter {arity : Arity} {value : Parameter} {α : Type}
    {next : LoweredParameter → Lowering α} {result : α}
    (lowered : (value.lower arity site name >>= next).result = .ok result) :
    ∃ parameter : LoweredParameter, (∀ item ∈ parameter.items, item.Serves) ∧
      (next parameter).result = .ok result := by
  obtain ⟨parameter, inner, lowered⟩ := Lowering.bind_ok.mp lowered
  exact ⟨parameter, Parameter.serves_of_lower inner, lowered⟩

variable {platform : Platform}

/-- The object of an exchange term. -/
theorem exchangeItems_serving {constant : Parameter}
    (lowered : (exchangeItems site name constant).result = .ok items) :
    ∃ className, (Interaction.exchange constant).className? platform = some className ∧
      Serving items className name := by
  cases constant with
  | constant a =>
    unfold exchangeItems at lowered
    dsimp only at lowered
    by_cases refused : (!decide (0 < a)) = true
    · rw [if_pos refused] at lowered
      cases lowered
    · rw [if_neg refused] at lowered
      obtain ⟨word, _, same⟩ := Lowering.bind_ok.mp lowered
      rw [← Lowering.pure_ok.mp same]
      exact ⟨_, rfl, .alone⟩
  | perRegion map =>
    obtain ⟨rows, _, lowered⟩ := Lowering.bind_ok.mp lowered
    obtain ⟨value, _, lowered⟩ := Lowering.bind_ok.mp lowered
    obtain ⟨fallback, _, same⟩ := Lowering.bind_ok.mp lowered
    rw [← Lowering.pure_ok.mp same]
    exact ⟨_, rfl, .alone⟩
  | field f =>
    obtain ⟨a, serves, same⟩ := serves_of_parameter lowered
    rw [← Lowering.pure_ok.mp same]
    exact ⟨_, rfl, .behind serves .alone⟩
  | vector v => cases lowered

/-- The object of an applied field. -/
theorem zeemanItems_serving (identifier : Text.isIdentifier name = true) {field : Parameter}
    {wave : Option Wave} {frequency delay : Option Float}
    (lowered : (zeemanItems site name field wave frequency delay).result = .ok items) :
    ∃ className, (Interaction.zeeman field wave frequency delay).className? platform =
      some className ∧ Serving items className name := by
  obtain ⟨h, serves, lowered⟩ := serves_of_parameter lowered
  have noFeed : '\n' ∉ name.toList := Text.notMem_of_isIdentifier identifier (by decide)
  have procedure {kind : Wave} {procedure : Procedure}
      (found : waveProcedure? ("TimeFunction_" ++ name) kind = some procedure) :
      (Item.procedure procedure).Serves ∧ kind ≠ .constant := by
    obtain ⟨body, written, rfl⟩ := Option.map_eq_some_iff.mp found
    have parameters : '\n' ∉ "f t0 stage stagetime totaltime".toList := by decide
    refine ⟨⟨?_, parameters⟩, ?_⟩
    · simp [String.toList_append, noFeed]
    · rintro rfl
      cases written
  dsimp only at lowered
  split at lowered
  · rename_i unchanged
    rw [← Lowering.pure_ok.mp lowered]
    have constant : wave.getD .constant = .constant := by
      cases kind : wave.getD .constant with
      | constant => rfl
      | sin | sinc =>
        rw [kind] at unchanged
        cases unchanged
    exact ⟨_, congrArg some (if_pos constant), .behind serves .alone⟩
  · rename_i scaling found
    obtain ⟨own, varies⟩ := procedure found
    cases frequency with
    | none => cases lowered
    | some frequency =>
      obtain ⟨f, _, lowered⟩ := Lowering.bind_ok.mp lowered
      obtain ⟨t0, _, same⟩ := Lowering.bind_ok.mp lowered
      rw [← Lowering.pure_ok.mp same, List.append_cons]
      exact ⟨_, congrArg some (if_neg varies), .behind
        (List.forall_mem_append.mpr ⟨serves, List.forall_mem_singleton.mpr own⟩) .alone⟩

/-- The object of the demagnetising field. -/
theorem demagItems_serving {radius : Option Float}
    (lowered : (demagItems name radius).result = .ok items) :
    Serving items "Oxs_Demag" name := by
  cases radius with
  | none =>
    rw [← Lowering.pure_ok.mp lowered]
    exact .alone
  | some radius =>
    obtain ⟨word, _, same⟩ := Lowering.bind_ok.mp lowered
    rw [← Lowering.pure_ok.mp same]
    exact .alone

/-- The object of antisymmetric exchange. -/
theorem dmiItems_serving {constant : Parameter} {crystal : CrystalClass}
    (lowered : (dmiItems site name constant crystal).result = .ok items) :
    ∃ className, dmiClass crystal site.platform = .ok className ∧
      Serving items className name := by
  obtain ⟨className, classified, lowered⟩ := Lowering.bind_ok.mp lowered
  obtain ⟨⟨fallback, rows⟩, _, lowered⟩ := Lowering.bind_ok.mp lowered
  obtain ⟨word, _, same⟩ := Lowering.bind_ok.mp lowered
  rw [← Lowering.pure_ok.mp same]
  exact ⟨className, classified, .alone⟩

/-- The object of an anisotropy about one axis. -/
theorem uniaxialItems_serving {k1 axis : Parameter} {k2 : Option Parameter}
    (lowered : (uniaxialItems site name k1 k2 axis).result = .ok items) :
    Serving items (if k2.isNone then "Oxs_UniaxialAnisotropy"
      else "Southampton_UniaxialAnisotropy4") name := by
  obtain ⟨first, serves1, lowered⟩ := serves_of_parameter lowered
  obtain ⟨second, serves2, lowered⟩ := serves_of_parameter lowered
  cases k2 with
  | none =>
    rw [← Lowering.pure_ok.mp lowered]
    exact .behind (List.forall_mem_append.mpr ⟨serves1, serves2⟩) .alone
  | some k2 =>
    obtain ⟨third, serves3, same⟩ := serves_of_parameter lowered
    rw [← Lowering.pure_ok.mp same]
    exact .behind (List.forall_mem_append.mpr
      ⟨List.forall_mem_append.mpr ⟨serves1, serves2⟩, serves3⟩) .alone

/-- The object of a cubic anisotropy. -/
theorem cubicItems_serving {k1 axis1 axis2 : Parameter}
    (lowered : (cubicItems site name k1 axis1 axis2).result = .ok items) :
    Serving items "Oxs_CubicAnisotropy" name := by
  obtain ⟨first, serves1, lowered⟩ := serves_of_parameter lowered
  obtain ⟨second, serves2, lowered⟩ := serves_of_parameter lowered
  obtain ⟨third, serves3, same⟩ := serves_of_parameter lowered
  rw [← Lowering.pure_ok.mp same]
  exact .behind (List.forall_mem_append.mpr
    ⟨List.forall_mem_append.mpr ⟨serves1, serves2⟩, serves3⟩) .alone

/-- The object of a coupling to strain. -/
theorem magnetoElasticItems_serving {b1 b2 diagonal offDiagonal : Parameter}
    (lowered : (magnetoElasticItems site name b1 b2 diagonal offDiagonal).result = .ok items) :
    Serving items "YY_FixedMEL" name := by
  obtain ⟨first, serves1, lowered⟩ := serves_of_parameter lowered
  obtain ⟨second, serves2, lowered⟩ := serves_of_parameter lowered
  obtain ⟨third, serves3, lowered⟩ := serves_of_parameter lowered
  obtain ⟨fourth, serves4, same⟩ := serves_of_parameter lowered
  rw [← Lowering.pure_ok.mp same]
  exact .behind (List.forall_mem_append.mpr ⟨List.forall_mem_append.mpr
    ⟨List.forall_mem_append.mpr ⟨serves1, serves2⟩, serves3⟩, serves4⟩) .alone

/-- The object of a coupling of two subregions, behind the field across their face. -/
theorem rkkyItems_serving {α : Type} [Scalar α] {read : Float → α} {sigma sigma2 : Float}
    {first second : String}
    (lowered : (rkkyItems read site name sigma sigma2 first second).result = .ok items) :
    Serving items "Oxs_TwoSurfaceExchange" name := by
  obtain ⟨face, _, lowered⟩ := Lowering.bind_ok.mp lowered
  have lowered : faceItems name sigma sigma2 face = .ok items := lowered
  obtain ⟨direction, _, lowered⟩ := Result.bind_ok.mp lowered
  obtain ⟨s1, _, lowered⟩ := Result.bind_ok.mp lowered
  obtain ⟨s2, _, lowered⟩ := Result.bind_ok.mp lowered
  obtain ⟨surface1, _, lowered⟩ := Result.bind_ok.mp lowered
  obtain ⟨surface2, _, same⟩ := Result.bind_ok.mp lowered
  rw [← Except.ok.inj same]
  exact ⟨[_], _, rfl, List.forall_mem_singleton.mpr (serves_object (by decide))⟩

/-- The items of a term end in its own object, whose class is that of the interaction. -/
theorem items_serving {term : Term} (identifier : Text.isIdentifier term.name = true)
    (lowered : (term.items site).result = .ok items) :
    ∃ className, term.interaction.className? site.platform = some className ∧
      Serving items className term.name := by
  obtain ⟨name, interaction⟩ := term
  cases interaction with
  | exchange constant => exact exchangeItems_serving lowered
  | zeeman field wave frequency delay => exact zeemanItems_serving identifier lowered
  | demag radius => exact ⟨_, rfl, demagItems_serving lowered⟩
  | dmi constant crystal =>
    obtain ⟨className, classified, serving⟩ := dmiItems_serving lowered
    have found : (dmiClass crystal site.platform).toOption = some className := by
      rw [classified]
      rfl
    exact ⟨className, found, serving⟩
  | uniaxial k1 k2 axis => exact ⟨_, rfl, uniaxialItems_serving lowered⟩
  | cubic k1 axis1 axis2 => exact ⟨_, rfl, cubicItems_serving lowered⟩
  | magnetoElastic b1 b2 diagonal offDiagonal =>
    exact ⟨_, rfl, magnetoElasticItems_serving lowered⟩
  | rkky sigma sigma2 first second => exact ⟨_, rfl, rkkyItems_serving lowered⟩

end Term

/-- The items of a mesh serve. -/
theorem Mesh.serves_of_items {mesh : Mesh Float} (lowered : mesh.items = .ok items) :
    ∀ item ∈ items, item.Serves := by
  have boxed {name region : String} {bounds : Region Float} {item : Item}
      (lowered : box name region bounds = .ok item) : item.Serves := by
    obtain ⟨ranges, _, same⟩ := Result.bind_ok.mp lowered
    rw [← Except.ok.inj same]
    exact serves_object (by decide)
  obtain ⟨atlases, first, lowered⟩ := Result.bind_ok.mp lowered
  obtain ⟨cells, second, same⟩ := Result.bind_ok.mp lowered
  rw [← Except.ok.inj same]
  refine List.forall_mem_append.mpr ⟨?_, List.forall_mem_singleton.mpr ?_⟩
  · unfold atlasItems at first
    split at first
    · obtain ⟨item, inner, same⟩ := Result.bind_ok.mp first
      rw [← Except.ok.inj same]
      exact List.forall_mem_singleton.mpr (boxed inner)
    · obtain ⟨boxes, inner, first⟩ := Result.bind_ok.mp first
      obtain ⟨rest, outer, first⟩ := Result.bind_ok.mp first
      obtain ⟨bounds, _, same⟩ := Result.bind_ok.mp first
      rw [← Except.ok.inj same]
      refine List.forall_mem_append.mpr ⟨fun item member => ?_, ?_⟩
      · obtain ⟨entry, _, lowered⟩ := Result.exists_of_mem_mapM inner member
        exact boxed lowered
      · exact List.forall_mem_cons.mpr ⟨boxed outer,
          List.forall_mem_singleton.mpr (serves_object (by decide))⟩
  · obtain ⟨size, _, second⟩ := Result.bind_ok.mp second
    split at second
    · rw [← Except.ok.inj second]
      exact serves_object (by decide)
    · rw [← Except.ok.inj second]
      exact serves_object (by decide)

/-- The items of a magnetisation serve. -/
theorem serves_of_magnetisationItems {m : Field Float}
    (lowered : (magnetisationItems m).result = .ok items) : ∀ item ∈ items, item.Serves := by
  obtain ⟨_, _, same⟩ := Lowering.bind_ok.mp lowered
  rw [← Lowering.pure_ok.mp same]
  have file : (Parameter.fileItem "m0" "m0.omf").Serves := serves_object (by decide)
  have norm : (Parameter.normItem "m0").Serves := serves_object (by decide)
  exact List.forall_mem_cons.mpr ⟨file, List.forall_mem_singleton.mpr norm⟩

namespace Evolver

variable {evolver : Evolver} {dynamics : Dynamics}

/-- What is declared for an attribute serves. -/
theorem serves_of_lowerAttribute {extras : Extras} {result : LoweredParameter}
    (lowered : (evolver.lowerAttribute site extras name).result = .ok (some result)) :
    ∀ item ∈ result.items, item.Serves := by
  unfold lowerAttribute at lowered
  split at lowered
  · obtain rfl := Option.some.inj (Lowering.pure_ok.mp lowered)
    exact nofun
  · split at lowered
    · rename_i value _
      obtain ⟨found, inner, same⟩ := Lowering.bind_ok.mp lowered
      obtain rfl := Option.some.inj (Lowering.pure_ok.mp same)
      cases value with
      | text text =>
        rw [← Lowering.pure_ok.mp inner]
        exact nofun
      | parameter value => exact Parameter.serves_of_lower inner
    · cases Lowering.pure_ok.mp lowered

/-- What is declared for attributes serves. -/
theorem serves_of_lowerAttributes {extras : Extras} {names : List String}
    {entries : List Script.Entry}
    (lowered : (evolver.lowerAttributes site extras names).result = .ok (items, entries)) :
    ∀ item ∈ items, item.Serves := by
  induction names generalizing items entries with
  | nil =>
    obtain ⟨rfl, rfl⟩ := Prod.mk.inj (Lowering.pure_ok.mp lowered)
    exact nofun
  | cons name rest ih =>
    obtain ⟨value, first, lowered⟩ := Lowering.bind_ok.mp lowered
    obtain ⟨⟨laterItems, laterEntries⟩, later, same⟩ := Lowering.bind_ok.mp lowered
    cases value with
    | none =>
      obtain ⟨rfl, rfl⟩ := Prod.mk.inj (Lowering.pure_ok.mp same)
      exact ih later
    | some result =>
      obtain ⟨rfl, rfl⟩ := Prod.mk.inj (Lowering.pure_ok.mp same)
      exact List.forall_mem_append.mpr ⟨serves_of_lowerAttribute first, ih later⟩

/-- A procedure that tabulates serves, since its name and its parameter are fixed. -/
theorem serves_of_profileTable {profile : Float → Float} {step duration : Option Float}
    {procedure : Procedure} (lowered : profileTable profile step duration = .ok procedure) :
    (Item.procedure procedure).Serves := by
  unfold profileTable at lowered
  split at lowered
  · obtain ⟨times, _, lowered⟩ := Result.bind_ok.mp lowered
    unfold lookupProcedure at lowered
    split at lowered
    · cases lowered
    · obtain ⟨values, _, lowered⟩ := Result.bind_ok.mp lowered
      obtain ⟨text, _, same⟩ := Result.bind_ok.mp lowered
      rw [← Except.ok.inj same]
      have name : '\n' ∉ profileProcedure.toList := by decide
      have parameters : '\n' ∉ "total_time".toList := by decide
      exact ⟨name, parameters⟩
  · cases lowered

/-- The procedure of a profile serves. -/
theorem serves_of_profileItems (plain : evolver.Plain) {duration : Option Float}
    {extras : Extras} (lowered : evolver.profileItems duration = .ok (items, extras)) :
    ∀ item ∈ items, item.Serves := by
  unfold profileItems hasProfile currentProcedure at lowered
  rw [plain.procedure] at lowered
  cases changes : evolver.profile with
  | none =>
    rw [changes] at lowered
    obtain ⟨rfl, rfl⟩ := Prod.mk.inj (Except.ok.inj lowered)
    exact nofun
  | some profile =>
    rw [changes] at lowered
    cases current : evolver.kind.profiled? with
    | none =>
      rw [current] at lowered
      cases lowered
    | some current =>
      rw [current] at lowered
      obtain ⟨found, inner, same⟩ := Result.bind_ok.mp lowered
      obtain ⟨table, tabulated, found⟩ := Result.bind_ok.mp inner
      obtain rfl := Except.ok.inj found
      obtain ⟨rfl, rfl⟩ := Prod.mk.inj (Except.ok.inj same)
      exact List.forall_mem_singleton.mpr (serves_of_profileTable tabulated)

/-- The items of an evolver end in its own object. -/
theorem items_serving (plain : evolver.Plain) {extras : Extras} {duration : Option Float}
    (lowered : (evolver.items site extras duration).result = .ok items) :
    Serving items evolver.kind.className "evolver" := by
  obtain ⟨⟨procedures, profile⟩, first, lowered⟩ := Lowering.bind_ok.mp lowered
  obtain ⟨⟨fields, entries⟩, second, same⟩ := Lowering.bind_ok.mp lowered
  rw [← Lowering.pure_ok.mp same]
  have first : evolver.profileItems duration = .ok (procedures, profile) := first
  exact .behind (List.forall_mem_append.mpr
    ⟨serves_of_profileItems plain first, serves_of_lowerAttributes second⟩) .alone

/-- Binding torques keeps the kind of an evolver. -/
theorem kind_of_bind {bound : Evolver} (binds : evolver.bind dynamics = .ok bound) :
    bound.kind = evolver.kind := by
  have precession : (evolver.bindPrecession dynamics).kind = evolver.kind := by
    unfold bindPrecession
    split <;> rfl
  have damping : ((evolver.bindPrecession dynamics).bindDamping dynamics).kind = evolver.kind := by
    rw [← precession]
    unfold bindDamping
    split <;> rfl
  obtain ⟨inPlane, current, same⟩ := Result.bind_ok.mp binds
  have planar : inPlane.kind = evolver.kind := by
    rw [← damping]
    unfold bindInPlane at current
    split at current
    · rw [← Except.ok.inj current]
    · rw [← Except.ok.inj current]
      rfl
    · cases current
  rw [← Except.ok.inj same, ← planar]
  unfold bindPolarised
  split <;> rfl

end Evolver

/-- Every item of a sum is one of a term. -/
theorem Energy.term_of_mem {energy : Energy}
    (lowered : (Energy.items site energy).result = .ok items) {item : Item}
    (member : item ∈ items) :
    ∃ term ∈ energy, ∃ own, (term.items site).result = .ok own ∧ item ∈ own := by
  induction energy generalizing items with
  | nil =>
    rw [← Lowering.pure_ok.mp lowered] at member
    exact absurd member List.not_mem_nil
  | cons term rest ih =>
    obtain ⟨first, inner, lowered⟩ := Lowering.bind_ok.mp lowered
    obtain ⟨others, further, same⟩ := Lowering.bind_ok.mp lowered
    rw [← Lowering.pure_ok.mp same] at member
    rcases List.mem_append.mp member with member | member
    · exact ⟨term, List.mem_cons_self, first, inner, member⟩
    · obtain ⟨term, among, own⟩ := ih further member
      exact ⟨term, List.mem_cons_of_mem _ among, own⟩

/-- Every term of a sum has its items in it. -/
theorem Energy.items_of_mem {energy : Energy}
    (lowered : (Energy.items site energy).result = .ok items) {term : Term}
    (member : term ∈ energy) :
    ∃ own, (term.items site).result = .ok own ∧ own ⊆ items := by
  induction energy generalizing items with
  | nil => exact absurd member List.not_mem_nil
  | cons first rest ih =>
    obtain ⟨own, inner, lowered⟩ := Lowering.bind_ok.mp lowered
    obtain ⟨others, further, same⟩ := Lowering.bind_ok.mp lowered
    rw [← Lowering.pure_ok.mp same]
    rcases List.mem_cons.mp member with rfl | member
    · exact ⟨own, inner, List.subset_append_left _ _⟩
    · obtain ⟨found, lowered, subset⟩ := ih further member
      exact ⟨found, lowered, List.subset_append_of_subset_right _ subset⟩

/-- The objects that compute in the script of a problem: their classes and instances. -/
inductive Computes (problem : Problem) (intent : Intent) (platform : Platform) :
    String → Option String → Prop where
  /-- The object of a term. -/
  | term {term : Term} {className : String} (member : term ∈ problem.energy)
      (own : term.interaction.className? platform = some className) :
      Computes problem intent platform className (some term.name)
  /-- The applied field of a sweep. -/
  | sweep {legs : List SweepLeg} (goal : intent.goal = .sweep legs) :
      Computes problem intent platform "Oxs_UZeeman" (some "hysteresis")
  /-- The evolver. -/
  | evolver : Computes problem intent platform
      (intent.chosenEvolver problem.dynamics).kind.className (some "evolver")
  /-- The driver. -/
  | driver : Computes problem intent platform intent.driverClass none

/-- What an item of the script of a problem is there for. -/
inductive Placed (problem : Problem) (intent : Intent) (settings : ScriptSettings)
    (platform : Platform) : Item → Prop where
  /-- It is the general options. -/
  | options : Placed problem intent settings platform (.options problem.name settings.format)
  /-- It serves. -/
  | serving {item : Item} (serves : item.Serves) : Placed problem intent settings platform item
  /-- It computes. -/
  | computing {block : Block}
      (computes : Computes problem intent platform block.className block.instanceName) :
      Placed problem intent settings platform (.block block)
  /-- It is one of the outputs. -/
  | output {item : Item} (member : item ∈ intent.outputItems settings) :
      Placed problem intent settings platform item

variable {problem : Problem} {intent : Intent} {settings : ScriptSettings} {platform : Platform}

/-- Items that end in an object that computes are placed. -/
theorem Serving.placed {className : String} (serving : Serving items className name)
    (computes : Computes problem intent platform className (some name)) :
    ∀ item ∈ items, Placed problem intent settings platform item := by
  obtain ⟨front, entries, rfl, serves⟩ := serving
  exact List.forall_mem_append.mpr ⟨fun item member => .serving (serves item member),
    List.forall_mem_singleton.mpr (.computing computes)⟩

/-- The items of a drive are placed. -/
theorem Intent.placed_of_items (plain : intent.Plain settings)
    (lowered : (intent.items site problem.dynamics settings).result = .ok items) :
    ∀ item ∈ items, Placed problem intent settings platform item := by
  obtain ⟨evolver, bound, lowered⟩ := Lowering.bind_ok.mp lowered
  obtain ⟨extras, _, lowered⟩ := Lowering.bind_ok.mp lowered
  obtain ⟨applied, swept, lowered⟩ := Lowering.bind_ok.mp lowered
  obtain ⟨evolving, moved, lowered⟩ := Lowering.bind_ok.mp lowered
  obtain ⟨driver, driven, same⟩ := Lowering.bind_ok.mp lowered
  rw [← Lowering.pure_ok.mp same]
  have binds : (intent.chosenEvolver problem.dynamics).bind problem.dynamics = .ok evolver :=
    Result.mapError_ok.mp bound
  have serving := Evolver.items_serving ((chosenEvolver_plain plain).bind binds) moved
  rw [Evolver.kind_of_bind binds] at serving
  have field : ∀ item ∈ applied, Placed problem intent settings platform item := by
    have swept : intent.appliedItems = .ok applied := swept
    unfold appliedItems at swept
    split at swept
    · rename_i goal
      obtain ⟨item, inner, same⟩ := Result.bind_ok.mp swept
      obtain ⟨rows, _, whole⟩ := Result.bind_ok.mp inner
      rw [← Except.ok.inj same, ← Except.ok.inj whole]
      exact List.forall_mem_singleton.mpr (.computing (.sweep goal))
    · rw [← Except.ok.inj swept]
      exact nofun
  have runs : Placed problem intent settings platform driver := by
    obtain ⟨entries, _, same⟩ := Result.bind_ok.mp (show intent.driverItem = .ok driver from driven)
    rw [← Except.ok.inj same]
    exact .computing .driver
  exact List.forall_mem_append.mpr ⟨List.forall_mem_append.mpr ⟨List.forall_mem_append.mpr
    ⟨field, serving.placed .evolver⟩, List.forall_mem_singleton.mpr runs⟩, fun _ => .output⟩

/-- The object that computes is among the items that serve it. -/
theorem Serving.mem {className : String} (serving : Serving items className name) :
    ∃ entries, .object className name entries ∈ items := by
  obtain ⟨front, entries, rfl, -⟩ := serving
  exact ⟨entries, List.mem_append_right _ (List.mem_singleton_self _)⟩

/-- The evolver is among the items of a drive. -/
theorem Intent.evolver_mem_items (plain : intent.Plain settings) {dynamics : Dynamics}
    (lowered : (intent.items site dynamics settings).result = .ok items) :
    ∃ entries, .object (intent.chosenEvolver dynamics).kind.className "evolver" entries ∈
      items := by
  obtain ⟨evolver, bound, lowered⟩ := Lowering.bind_ok.mp lowered
  obtain ⟨extras, _, lowered⟩ := Lowering.bind_ok.mp lowered
  obtain ⟨applied, _, lowered⟩ := Lowering.bind_ok.mp lowered
  obtain ⟨evolving, moved, lowered⟩ := Lowering.bind_ok.mp lowered
  obtain ⟨driver, _, same⟩ := Lowering.bind_ok.mp lowered
  rw [← Lowering.pure_ok.mp same]
  have binds : (intent.chosenEvolver dynamics).bind dynamics = .ok evolver :=
    Result.mapError_ok.mp bound
  obtain ⟨entries, member⟩ :=
    (Evolver.items_serving ((chosenEvolver_plain plain).bind binds) moved).mem
  rw [Evolver.kind_of_bind binds] at member
  exact ⟨entries, List.mem_append_left _ (List.mem_append_left _ (List.mem_append_right _ member))⟩

/-- The outputs of a drive without text of the caller are level and declare nothing. -/
theorem Intent.level_of_outputItems (plain : intent.Plain settings) {item : Item}
    (member : item ∈ intent.outputItems settings) :
    item.Level ∧ item.block? = none ∧ ∀ text, item ≠ .verbatim text := by
  have archive : '\n' ∉ "archive".toList := by decide
  have table : '\n' ∉ "table".toList := by decide
  have fields : '\n' ∉ "mags".toList := by decide
  have event : '\n' ∉ (intent.tableEvent settings).toList := by
    unfold tableEvent
    split <;> decide
  have scalars : (Item.schedule "DataTable" "table" (intent.tableEvent settings)).Level :=
    ⟨⟨by decide, by decide⟩, by decide, by decide, event⟩
  have magnetisation :
      (Item.schedule (intent.driverClass ++ "::Magnetization") "mags" "Stage").Level := by
    unfold driverClass
    split <;> exact ⟨⟨by decide, by decide⟩, by decide, by decide, by decide⟩
  unfold outputItems at member
  rw [plain.directive, Option.map_none, Option.toList_none, List.append_nil] at member
  rcases List.mem_append.mp member with member | member
  · split at member
    · rw [List.mem_singleton.mp member]
      exact ⟨archive, rfl, nofun⟩
    · exact absurd member List.not_mem_nil
  · simp only [List.mem_cons, List.not_mem_nil, or_false] at member
    rcases member with rfl | rfl | rfl | rfl | rfl
    · exact ⟨table, rfl, nofun⟩
    · exact ⟨fields, rfl, nofun⟩
    · exact ⟨trivial, rfl, nofun⟩
    · exact ⟨scalars, rfl, nofun⟩
    · exact ⟨magnetisation, rfl, nofun⟩

namespace Problem

/-- The items of a script without text of the caller are placed. -/
theorem lower_placed (plain : intent.Plain settings) {script : LoweredScript}
    (lowered : problem.lower intent settings platform = .ok script) :
    ∀ item ∈ script.items, Placed problem intent settings platform item := by
  have accepted := (lower_emits plain lowered).1
  obtain ⟨items, inner, rfl⟩ := Result.map_ok.mp lowered
  obtain ⟨_, _, lowered⟩ := Lowering.bind_ok.mp inner
  obtain ⟨_, _, lowered⟩ := Lowering.bind_ok.mp lowered
  obtain ⟨mesh, divided, lowered⟩ := Lowering.bind_ok.mp lowered
  obtain ⟨energy, contributed, lowered⟩ := Lowering.bind_ok.mp lowered
  obtain ⟨magnetisation, given, lowered⟩ := Lowering.bind_ok.mp lowered
  obtain ⟨drive, driven, same⟩ := Lowering.bind_ok.mp lowered
  rw [← Lowering.pure_ok.mp same]
  have cells : ∀ item ∈ mesh, Placed problem intent settings platform item :=
    fun item member => .serving (Mesh.serves_of_items divided item member)
  have start : ∀ item ∈ magnetisation, Placed problem intent settings platform item :=
    fun item member => .serving (serves_of_magnetisationItems given item member)
  have terms : ∀ item ∈ energy, Placed problem intent settings platform item := by
    intro item member
    obtain ⟨term, among, own, lowered, inside⟩ := Energy.term_of_mem contributed member
    obtain ⟨className, classified, serving⟩ :=
      Term.items_serving (accepted.usable term among).1 lowered
    exact serving.placed (.term among classified) item inside
  exact List.forall_mem_cons.mpr ⟨.options, List.forall_mem_append.mpr ⟨List.forall_mem_append.mpr
    ⟨List.forall_mem_append.mpr ⟨cells, terms⟩, start⟩, Intent.placed_of_items plain driven⟩⟩

/-- The items of every term and those of the drive are among the items of a script. -/
theorem parts_of_lower {script : LoweredScript}
    (lowered : problem.lower intent settings platform = .ok script) :
    (∀ term ∈ problem.energy, ∃ own,
      (term.items ⟨problem.mesh, platform⟩).result = .ok own ∧ own ⊆ script.items) ∧
    ∃ drive, (intent.items ⟨problem.mesh, platform⟩ problem.dynamics settings).result =
      .ok drive ∧ drive ⊆ script.items := by
  obtain ⟨items, inner, rfl⟩ := Result.map_ok.mp lowered
  obtain ⟨_, _, lowered⟩ := Lowering.bind_ok.mp inner
  obtain ⟨_, _, lowered⟩ := Lowering.bind_ok.mp lowered
  obtain ⟨mesh, _, lowered⟩ := Lowering.bind_ok.mp lowered
  obtain ⟨energy, contributed, lowered⟩ := Lowering.bind_ok.mp lowered
  obtain ⟨magnetisation, _, lowered⟩ := Lowering.bind_ok.mp lowered
  obtain ⟨drive, driven, same⟩ := Lowering.bind_ok.mp lowered
  rw [← Lowering.pure_ok.mp same]
  refine ⟨fun term member => ?_, drive, driven, ?_⟩
  · obtain ⟨own, lowered, subset⟩ := Energy.items_of_mem contributed member
    refine ⟨own, lowered, fun item inside => List.mem_cons_of_mem _ ?_⟩
    exact List.mem_append_left _ (List.mem_append_left _ (List.mem_append_right _ (subset inside)))
  · exact fun item inside => List.mem_cons_of_mem _ (List.mem_append_right _ inside)

/-- The items of a script without text of the caller are level. -/
theorem level_of_lower (plain : intent.Plain settings) {script : LoweredScript}
    (lowered : problem.lower intent settings platform = .ok script) :
    ∀ item ∈ script.items, item.Level ∧ ∀ text, item ≠ .verbatim text := by
  have resolves := (lower_emits plain lowered).2.resolves
  intro item member
  obtain ⟨earlier, later, split⟩ := List.append_of_mem member
  have block {b : Block} (same : item = .block b) :
      item.Level ∧ ∀ text, item ≠ .verbatim text := by
    have own := resolves.item split
    rw [same] at own ⊢
    exact ⟨⟨own.className, own.instanceName⟩, nofun⟩
  cases lower_placed plain lowered item member with
  | options =>
    have legal := isLegalName_of_lower lowered
    exact ⟨notMem_of_isLegalName legal (show _ = false by decide), nofun⟩
  | serving serves =>
    cases item with
    | block b => exact block rfl
    | procedure p => exact ⟨serves, nofun⟩
    | options | destination | schedule | blank | verbatim => exact absurd serves not_false
  | computing => exact block rfl
  | output member =>
    obtain ⟨level, -, own⟩ := Intent.level_of_outputItems plain member
    exact ⟨level, own⟩

/-- The text of a script without text of the caller declares the objects of its blocks. -/
theorem declaredObjects_of_lower (plain : intent.Plain settings) {script : LoweredScript}
    (lowered : problem.lower intent settings platform = .ok script) :
    declaredObjects script.text.toList = (blocks script.items).map Block.object :=
  declaredObjects_render (fun item member => (level_of_lower plain lowered item member).1)
    fun text member => (level_of_lower plain lowered _ member).2 text rfl

/-- An object that a script without text of the caller declares reports nothing or computes. Its
class and its instance are made of name characters. -/
theorem object_of_lower (plain : intent.Plain settings) {script : LoweredScript}
    (lowered : problem.lower intent settings platform = .ok script) {object : String × String}
    (declared : object ∈ declaredObjects script.text.toList) :
    (∀ part ∈ [object.1, object.2], ∀ c ∈ part.toList, Text.isNameChar c = true) ∧
      (object.1 ∈ auxiliaryClasses ∨ ∃ instanceName,
        Computes problem intent platform object.1 instanceName ∧
          object.2 = instanceName.getD "") := by
  rw [declaredObjects_of_lower plain lowered] at declared
  obtain ⟨block, member, rfl⟩ := List.mem_map.mp declared
  have member := mem_blocks.mp member
  obtain ⟨ofClass, named⟩ := (level_of_lower plain lowered _ member).1
  have instanceNamed : ∀ c ∈ (block.instanceName.getD "").toList, Text.isNameChar c = true := by
    cases given : block.instanceName with
    | none => exact nofun
    | some name => exact fun c inside => Text.isNameChar_of_mem (named name given) inside
  refine ⟨List.forall_mem_cons.mpr ⟨fun c inside => Text.isNameChar_of_mem ofClass inside,
    List.forall_mem_singleton.mpr instanceNamed⟩, ?_⟩
  cases lower_placed plain lowered _ member with
  | serving serves => exact .inl serves
  | computing computes => exact .inr ⟨_, computes, rfl⟩
  | output member => cases (Intent.level_of_outputItems plain member).2.1

end Problem

end Micromag
