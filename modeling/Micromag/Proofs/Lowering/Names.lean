import Mathlib.Data.List.Perm.Basic
import Micromag.Proofs.Lowering.Problem
import Micromag.Proofs.Script.Heading

/-!
# Names of objects

An object that serves another one is named after it, with an underscore and a key of its own behind
the name. The part behind the last underscore tells such a name from the reserved names and one key
from another, so that served objects never share the name of an object that serves them, except
where a term is itself named like the object of another term, of a subregion or of the evolver.
-/

namespace Micromag

open Script Term Parameter

/-- What stands behind the last underscore of a name. -/
def ending (name : String) : List Char := (name.toList.reverse.takeWhile (· ≠ '_')).reverse

/-- Nothing in front of an underscore changes what stands behind the last one. -/
theorem ending_append (owner key : String) : ending (owner ++ "_" ++ key) = ending key := by
  have stops (front back : List Char) : (front ++ '_' :: back).takeWhile (· ≠ '_') =
      front.takeWhile (· ≠ '_') := by
    induction front with
    | nil => rfl
    | cons c rest ih =>
      rw [List.cons_append, List.takeWhile_cons, List.takeWhile_cons, ih]
  have parts : (owner ++ "_" ++ key).toList.reverse =
      key.toList.reverse ++ '_' :: owner.toList.reverse := by
    rw [String.toList_append, String.toList_append, List.reverse_append, List.reverse_append]
    rfl
  unfold ending
  rw [parts, stops]

/-- An object of the magnitudes of another ends alike. -/
theorem ending_normName (name : String) : ending (normName name) = ending "norm" := by
  rw [← ending_append name "norm", String.append_assoc]
  rfl

/-- An atlas of a region ends alike. -/
theorem ending_atlasName (region : String) : ending (Mesh.atlasName region) = ending "atlas" := by
  rw [← ending_append region "atlas", String.append_assoc]
  rfl

variable {owner other key otherKey name : String}

/-- A name is that of an object that serves an owner under a key, or that of its magnitudes. -/
def Serves (owner key name : String) : Prop :=
  name = parameterName owner key ∨ name = normName (parameterName owner key)

/-- Whether the end of a key is not that of a reserved name. -/
def Free (key : String) : Prop := ending key ∉ reservedNames.map ending

/-- The end of a free key is not that of magnitudes. -/
theorem Free.ne_norm (free : Free key) : ending key ≠ ending "norm" := by
  have reserved : ending "norm" ∈ reservedNames.map ending := by decide
  exact fun same => free (same ▸ reserved)

/-- An object that serves under a free key does not bear a reserved name. -/
theorem Serves.notReserved (serves : Serves owner key name) (free : Free key) :
    name ∉ reservedNames := by
  intro reserved
  rcases serves with rfl | rfl
  · have ends := List.mem_map_of_mem (f := ending) reserved
    rw [parameterName, ending_append] at ends
    exact free ends
  · -- the only reserved name of magnitudes is that of the magnetisation
    have only : ∀ name ∈ reservedNames, ending name = ending "norm" → name = normName "m0" := by
      decide
    have same : parameterName owner key = "m0" :=
      (String.append_left_inj "_norm").mp (only _ reserved (ending_normName _))
    have ends : ending key = ending "m0" := by rw [← ending_append owner key, ← same]; rfl
    have magnetisation : ending "m0" ∈ reservedNames.map ending := by decide
    exact free (ends ▸ magnetisation)

/-- An object that serves under a free key does not bear the name of an atlas. -/
theorem Serves.ne_atlasName (serves : Serves owner key name) (free : Free key) (region : String) :
    name ≠ Mesh.atlasName region := by
  intro same
  have ends := congrArg ending same
  rw [ending_atlasName] at ends
  rcases serves with rfl | rfl
  · have reserved : ending "atlas" ∈ reservedNames.map ending := by decide
    rw [parameterName, ending_append] at ends
    exact free (ends ▸ reserved)
  · rw [ending_normName] at ends
    exact absurd ends (by decide)

/-- An object that serves another one has a longer name. -/
theorem Serves.ne_owner (serves : Serves owner key name) : name ≠ owner := by
  have one : "_".length = 1 := by decide
  have longer : owner.length < name.length := by
    rcases serves with rfl | rfl
    · unfold parameterName
      rw [String.length_append, String.length_append]
      omega
    · unfold normName parameterName
      rw [String.length_append, String.length_append, String.length_append]
      omega
  rintro rfl
  exact Nat.lt_irrefl _ longer

/-- A name tells which object serves whom up to the place of the underscores. -/
theorem Serves.unique (serves : Serves owner key name) (again : Serves other otherKey name)
    (free : Free key) (freeAgain : Free otherKey) :
    parameterName owner key = parameterName other otherKey := by
  have norm (owner key : String) (free : Free key) (object : String) :
      parameterName owner key ≠ normName object := by
    intro same
    have ends := congrArg ending same
    rw [parameterName, ending_append, ending_normName] at ends
    exact free.ne_norm ends
  rcases serves with rfl | rfl
  · rcases again with same | same
    · exact same
    · exact absurd same (norm owner key free _)
  · rcases again with same | same
    · exact absurd same.symm (norm other otherKey freeAgain _)
    · exact (String.append_left_inj "_norm").mp same

/-- A name tells the key and the owner of an object if keys that end alike are the same. -/
theorem Serves.owner_eq (serves : Serves owner key name) (again : Serves other otherKey name)
    (free : Free key) (freeAgain : Free otherKey)
    (keys : ending key = ending otherKey → key = otherKey) : key = otherKey ∧ owner = other := by
  have same := serves.unique again free freeAgain
  have ends := congrArg ending same
  rw [parameterName, parameterName, ending_append, ending_append] at ends
  have sameKey := keys ends
  rw [← sameKey] at same
  exact ⟨sameKey, (String.append_left_inj "_").mp ((String.append_left_inj key).mp same)⟩

namespace Parameter

variable {arity : Arity} {value : Parameter}

/-- The objects of a parameter bear its name or that of its magnitudes. -/
theorem mem_objectNames (member : other ∈ value.objectNames arity name) :
    other = name ∨ other = normName name := by
  cases value with
  | constant x => exact absurd member List.not_mem_nil
  | vector v => exact absurd member List.not_mem_nil
  | perRegion map => exact .inl (List.mem_singleton.mp member)
  | field f =>
    cases arity with
    | scalar =>
      rcases List.mem_cons.mp member with same | member
      · exact .inl same
      · exact .inr (List.mem_singleton.mp member)
    | vector => exact .inl (List.mem_singleton.mp member)

/-- A name is not that of its magnitudes. -/
theorem ne_normName : name ≠ normName name := by
  intro same
  have lengths := congrArg String.length same
  unfold normName at lengths
  rw [String.length_append] at lengths
  have longer : "_norm".length = 5 := by decide
  omega

/-- The objects of a parameter differ. -/
theorem nodup_objectNames : (value.objectNames arity name).Nodup := by
  cases value with
  | constant x => exact .nil
  | vector v => exact .nil
  | perRegion map => exact List.nodup_singleton _
  | field f =>
    cases arity with
    | scalar =>
      have differ : name ∉ [normName name] := fun member =>
        ne_normName (List.mem_singleton.mp member)
      exact List.nodup_cons.mpr ⟨differ, List.nodup_singleton _⟩
    | vector => exact List.nodup_singleton _

end Parameter

namespace Term

/-- The keys of the objects that serve terms. -/
def helperKeys : List String :=
  ["A", "H", "K1", "u", "K2", "u1", "u2", "B1", "B2", "e_diag", "e_offdiag", "field"]

/-- The keys of the objects that serve terms are free. -/
theorem free_of_mem_helperKeys (member : key ∈ helperKeys) : Free key := by
  have all : ∀ key ∈ helperKeys, ending key ∉ reservedNames.map ending := by decide
  exact all key member

/-- The keys of the objects that serve terms have different ends. -/
theorem helperKeys_ending : (helperKeys.map ending).Nodup := by decide

/-- The keys of the parameters of an interaction are some of these keys in order. -/
theorem parameterKeys_sublist (interaction : Interaction) :
    (interaction.parameters.map (·.2.1)).Sublist helperKeys := by
  cases interaction with
  | exchange constant =>
    cases constant with
    | field f => exact (by decide : ["A"].Sublist helperKeys)
    | constant | vector | perRegion => exact List.nil_sublist _
  | zeeman => exact (by decide : ["H"].Sublist helperKeys)
  | demag | dmi | rkky => exact List.nil_sublist _
  | uniaxial k1 k2 axis =>
    cases k2 with
    | none => exact (by decide : ["K1", "u"].Sublist helperKeys)
    | some k2 => exact (by decide : ["K1", "u", "K2"].Sublist helperKeys)
  | cubic => exact (by decide : ["K1", "u1", "u2"].Sublist helperKeys)
  | magnetoElastic =>
    exact (by decide : ["B1", "B2", "e_diag", "e_offdiag"].Sublist helperKeys)

/-- Objects that serve under keys of terms tell their key and the term. -/
theorem serves_unique (serves : Serves owner key name) (again : Serves other otherKey name)
    (member : key ∈ helperKeys) (memberAgain : otherKey ∈ helperKeys) :
    key = otherKey ∧ owner = other :=
  serves.owner_eq again (free_of_mem_helperKeys member) (free_of_mem_helperKeys memberAgain)
    fun ends => List.inj_on_of_nodup_map helperKeys_ending member memberAgain ends

/-- The objects of a parameter serve its term under its key. -/
theorem serves_of_mem_objectNames {arity : Arity} {value : Parameter}
    (member : name ∈ value.objectNames arity (parameterName owner key)) : Serves owner key name :=
  mem_objectNames member

/-- The objects of the parameters of a term differ. -/
theorem nodup_parameterNames (term : Term) :
    (term.interaction.parameters.flatMap fun parameter =>
      parameter.2.2.objectNames parameter.1 (parameterName term.name parameter.2.1)).Nodup := by
  have keys := parameterKeys_sublist term.interaction
  have known : ∀ parameter ∈ term.interaction.parameters, parameter.2.1 ∈ helperKeys :=
    fun parameter member => keys.subset (List.mem_map_of_mem (f := (·.2.1)) member)
  have distinct : (term.interaction.parameters.map (·.2.1)).Nodup :=
    keys.nodup (by decide)
  refine List.nodup_flatMap.mpr ⟨fun _ _ => nodup_objectNames, ?_⟩
  refine (List.pairwise_map.mp distinct).imp_of_mem fun first second differ name one two => ?_
  exact differ (serves_unique (serves_of_mem_objectNames one) (serves_of_mem_objectNames two)
    (known _ first) (known _ second)).1

/-- The objects in front of a term serve it under one of the keys. -/
theorem serves_of_mem_helperNames {term : Term} (member : name ∈ term.helperNames) :
    ∃ key ∈ helperKeys, Serves term.name key name := by
  unfold helperNames at member
  rcases List.mem_append.mp member with member | member
  · obtain ⟨parameter, inside, member⟩ := List.mem_flatMap.mp member
    have key := (parameterKeys_sublist term.interaction).subset (List.mem_map_of_mem inside)
    exact ⟨_, key, serves_of_mem_objectNames member⟩
  · cases interaction : term.interaction with
    | rkky =>
      rw [interaction] at member
      exact ⟨"field", by decide, .inl (List.mem_singleton.mp member)⟩
    | exchange | zeeman | demag | dmi | uniaxial | cubic | magnetoElastic =>
      rw [interaction] at member
      exact absurd member List.not_mem_nil

/-- The objects in front of a term do not bear its name. -/
theorem name_notMem_helperNames (term : Term) : term.name ∉ term.helperNames := by
  intro member
  obtain ⟨key, _, serves⟩ := serves_of_mem_helperNames member
  exact serves.ne_owner rfl

/-- The objects in front of a term differ. -/
theorem nodup_helperNames (term : Term) : term.helperNames.Nodup := by
  have parameters := nodup_parameterNames term
  unfold helperNames
  cases interaction : term.interaction with
  | rkky => exact List.nodup_singleton _
  | exchange | zeeman | demag | dmi | uniaxial | cubic | magnetoElastic =>
    rw [interaction] at parameters
    dsimp only
    rw [List.append_nil]
    exact parameters

end Term

/-- The objects in front of terms with different names differ. -/
theorem Energy.nodup_helperNames {energy : Energy} (distinct : (energy.map (·.name)).Nodup) :
    (energy.flatMap Term.helperNames).Nodup := by
  refine List.nodup_flatMap.mpr ⟨fun term _ => Term.nodup_helperNames term, ?_⟩
  refine (List.pairwise_map.mp distinct).imp fun differ name one two => ?_
  obtain ⟨key, member, serves⟩ := Term.serves_of_mem_helperNames one
  obtain ⟨otherKey, memberAgain, again⟩ := Term.serves_of_mem_helperNames two
  exact differ (Term.serves_unique serves again member memberAgain).2

namespace Evolver

variable {evolver : Evolver} {given : List String}

/-- The attributes of evolvers are free keys, and one that ends like a key of terms is that key. -/
theorem attributeNames_free (member : key ∈ attributeNames) :
    Free key ∧ ∀ other ∈ helperKeys, ending other = ending key → other = key := by
  have all : ∀ key ∈ attributeNames, ending key ∉ reservedNames.map ending ∧
      ∀ other ∈ helperKeys, ending other = ending key → other = key := by
    decide +kernel
  exact all key member

/-- The objects of an attribute serve the evolver under the name of the attribute. -/
theorem serves_of_mem_attributeObjects (member : name ∈ evolver.attributeObjects given key) :
    Serves "evolver" key name := by
  have same : "evolver_" ++ key = parameterName "evolver" key := by
    unfold parameterName
    exact congrArg (· ++ key) (by decide)
  unfold attributeObjects at member
  rw [same] at member
  split at member
  · exact absurd member List.not_mem_nil
  · split at member
    · exact mem_objectNames member
    · exact absurd member List.not_mem_nil

/-- Objects that serve an evolver tell their attribute. -/
theorem serves_unique (serves : Serves "evolver" key name)
    (again : Serves "evolver" otherKey name) (member : key ∈ attributeNames)
    (memberAgain : otherKey ∈ attributeNames) : key = otherKey := by
  have same := serves.unique again (attributeNames_free member).1
    (attributeNames_free memberAgain).1
  exact (String.append_right_inj ("evolver" ++ "_")).mp same

/-- The objects in front of an evolver differ. -/
theorem nodup_objectNames : (evolver.objectNames given).Nodup := by
  have attributes : evolver.kind.allowed.Nodup := by
    cases evolver.kind <;> decide
  refine List.nodup_flatMap.mpr ⟨fun name _ => ?_, ?_⟩
  · unfold attributeObjects
    split
    · exact .nil
    · split
      · exact Parameter.nodup_objectNames
      · exact .nil
  · exact attributes.imp_of_mem fun first second differ name one two =>
      differ (serves_unique (serves_of_mem_attributeObjects one)
        (serves_of_mem_attributeObjects two) (mem_attributeNames first)
        (mem_attributeNames second))

/-- The objects in front of an evolver serve it under attributes. -/
theorem serves_of_mem_objectNames (member : name ∈ evolver.objectNames given) :
    ∃ key ∈ attributeNames, Serves "evolver" key name := by
  obtain ⟨key, allowed, member⟩ := List.mem_flatMap.mp member
  exact ⟨key, mem_attributeNames allowed, serves_of_mem_attributeObjects member⟩

end Evolver

/-- The objects in front of the evolver of a drive differ. -/
theorem Intent.nodup_helperNames {intent : Intent} {dynamics : Dynamics}
    {settings : ScriptSettings} : (intent.helperNames dynamics settings).Nodup := by
  unfold helperNames
  split
  · exact Evolver.nodup_objectNames
  · exact .nil

/-- The objects in front of the evolver of a drive serve it under attributes. -/
theorem Intent.serves_of_mem_helperNames {intent : Intent} {dynamics : Dynamics}
    {settings : ScriptSettings} (member : name ∈ intent.helperNames dynamics settings) :
    ∃ key ∈ Evolver.attributeNames, Serves "evolver" key name := by
  unfold helperNames at member
  split at member
  · exact Evolver.serves_of_mem_objectNames member
  · exact absurd member List.not_mem_nil

/-- The atlases of the subregions of a usable mesh differ and bear no reserved name. -/
theorem Mesh.atlasNames_distinct {mesh : Mesh Float} (usable : mesh.validate = .ok ()) :
    (mesh.subregions.keys.map atlasName).Nodup ∧
      ∀ name ∈ mesh.subregions.keys.map atlasName, name ∉ reservedNames := by
  have keys : mesh.subregions.keys.Nodup := mesh.subregions.nodup_keys
  refine ⟨keys.map fun _ _ same => (String.append_left_inj "_atlas").mp same, ?_⟩
  intro name member reserved
  obtain ⟨region, inside, rfl⟩ := List.mem_map.mp member
  have only : ∀ name ∈ reservedNames, ending name = ending "atlas" →
      name ∈ takenNames.map atlasName := by
    decide
  obtain ⟨taken, other, same⟩ := List.mem_map.mp (only _ reserved (ending_atlasName region))
  rw [(String.append_left_inj "_atlas").mp same] at other
  exact (subregion_named usable inside).2 other

namespace Problem

variable {problem : Problem} {intent : Intent} {settings : ScriptSettings} {platform : Platform}

/-- The names that a script makes up from names of the caller: those of the atlases of subregions
and those of the objects in front of the energy terms and of the evolver. -/
def derivedNames (problem : Problem) (intent : Intent) (settings : ScriptSettings) : List String :=
  problem.mesh.subregions.keys.map Mesh.atlasName ++
    (problem.energy.flatMap Term.helperNames ++ intent.helperNames problem.dynamics settings)

/-- The names that a script uses whatever the caller names. -/
def fixedNames (problem : Problem) (intent : Intent) : List String :=
  (if problem.mesh.subregions.isEmpty then ["main_atlas"]
    else [Mesh.atlasName "entire", "main_atlas"]) ++
    ["mesh", "m0", "m0_norm"] ++ intent.appliedNames ++ ["evolver"]

/-- The fixed names differ and are reserved. -/
theorem fixedNames_reserved (problem : Problem) (intent : Intent) :
    (problem.fixedNames intent).Nodup ∧ problem.fixedNames intent ⊆ reservedNames := by
  unfold fixedNames Intent.appliedNames
  split <;> split <;> decide

/-- No object in front of an energy term is in front of the evolver, since the name of the evolver is
reserved. -/
theorem helperNames_disjoint (accepted : problem.Accepted) (intent : Intent)
    (settings : ScriptSettings) :
    (problem.energy.flatMap Term.helperNames).Disjoint
      (intent.helperNames problem.dynamics settings) := by
  intro name first second
  obtain ⟨term, inside, first⟩ := List.mem_flatMap.mp first
  obtain ⟨key, ofTerms, serves⟩ := Term.serves_of_mem_helperNames first
  obtain ⟨other, ofEvolvers, again⟩ := Intent.serves_of_mem_helperNames second
  obtain ⟨free, same⟩ := Evolver.attributeNames_free ofEvolvers
  have owner := (serves.owner_eq again (Term.free_of_mem_helperKeys ofTerms) free
    (same key ofTerms)).2
  have reserved : term.name ∈ reservedNames := by
    rw [owner]
    decide
  exact (accepted.usable term inside).2 reserved

/-- The derived names of an accepted problem differ and are not reserved. -/
theorem derivedNames_distinct (accepted : problem.Accepted) (intent : Intent)
    (settings : ScriptSettings) :
    (problem.derivedNames intent settings).Nodup ∧
      ∀ name ∈ problem.derivedNames intent settings, name ∉ reservedNames := by
  obtain ⟨atlases, notReserved⟩ := Mesh.atlasNames_distinct accepted.mesh
  have serving : ∀ name ∈ problem.energy.flatMap Term.helperNames ++
      intent.helperNames problem.dynamics settings,
      ∃ owner key, Free key ∧ Serves owner key name := by
    intro name member
    rcases List.mem_append.mp member with member | member
    · obtain ⟨term, _, member⟩ := List.mem_flatMap.mp member
      obtain ⟨key, inside, serves⟩ := Term.serves_of_mem_helperNames member
      exact ⟨term.name, key, Term.free_of_mem_helperKeys inside, serves⟩
    · obtain ⟨key, inside, serves⟩ := Intent.serves_of_mem_helperNames member
      exact ⟨"evolver", key, (Evolver.attributeNames_free inside).1, serves⟩
  constructor
  · have helpers := List.nodup_append'.mpr ⟨Energy.nodup_helperNames accepted.distinct,
      Intent.nodup_helperNames, helperNames_disjoint accepted intent settings⟩
    refine List.nodup_append'.mpr ⟨atlases, helpers, fun name first second => ?_⟩
    obtain ⟨region, _, rfl⟩ := List.mem_map.mp first
    obtain ⟨owner, key, free, serves⟩ := serving _ second
    exact serves.ne_atlasName free region rfl
  · intro name member
    rcases List.mem_append.mp member with member | member
    · exact notReserved name member
    · obtain ⟨owner, key, free, serves⟩ := serving name member
      exact serves.notReserved free

/-- The objects of a problem are those with fixed, with derived and with given names. -/
theorem objectNames_perm : (problem.objectNames intent settings).Perm
    (problem.fixedNames intent ++ problem.derivedNames intent settings ++
      problem.energy.map (·.name)) := by
  have terms : (problem.energy.flatMap Term.helperNames ++ problem.energy.map (·.name)).Perm
      (problem.energy.flatMap fun term => term.helperNames ++ [term.name]) := by
    rw [List.map_eq_flatMap]
    exact List.flatMap_append_perm problem.energy Term.helperNames fun term => [term.name]
  have whole : problem.mesh.subregions.isEmpty = true → problem.mesh.subregions.keys = [] := by
    intro empty
    unfold Keyed.keys
    rw [List.isEmpty_iff.mp empty]
    rfl
  refine List.perm_iff_count.mpr fun name => ?_
  have counted := terms.count_eq name
  unfold objectNames derivedNames fixedNames Mesh.objectNames
  split
  · rename_i empty
    rw [whole empty]
    simp only [List.count_append, List.map_nil, List.count_nil, List.count_cons] at counted ⊢
    omega
  · simp only [List.count_append, List.count_nil, List.count_cons] at counted ⊢
    omega

/-- In the script of a problem without text of the caller no two blocks declare the same name,
exactly when no term bears a name that the script makes up. -/
theorem declaredNames_nodup_iff (plain : intent.Plain settings) {script : LoweredScript}
    (lowered : problem.lower intent settings platform = .ok script) :
    (declaredNames script.text.toList).Nodup ↔
      ∀ term ∈ problem.energy, term.name ∉ problem.derivedNames intent settings := by
  obtain ⟨accepted, emits⟩ := lower_emits plain lowered
  obtain ⟨fixed, subset⟩ := fixedNames_reserved problem intent
  obtain ⟨derived, notReserved⟩ := derivedNames_distinct accepted intent settings
  have names : declaredNames script.text.toList = problem.objectNames intent settings := by
    unfold LoweredScript.text
    rw [emits.resolves.declaredNames_render, emits.instances]
  rw [names, objectNames_perm.nodup_iff, List.nodup_append', List.nodup_append']
  constructor
  · rintro ⟨_, _, apart⟩ term member bears
    exact apart (List.mem_append_right _ bears) (List.mem_map_of_mem member)
  · refine fun bare => ⟨⟨fixed, derived, fun name first second => ?_⟩, accepted.distinct, ?_⟩
    · exact notReserved name second (subset first)
    · intro name made given
      obtain ⟨term, member, rfl⟩ := List.mem_map.mp given
      rcases List.mem_append.mp made with made | made
      · exact (accepted.usable term member).2 (subset made)
      · exact bare term member made

/-- A problem on one cell with an anisotropy whose constant is given cell by cell, and another term
that bears the name of the object of this constant. -/
def clashing : Problem where
  name := "clash"
  m := { mesh := cube, dim := 3, values := [0, 0, 8e5] }
  energy := [⟨"a", .uniaxial (.field { mesh := cube, dim := 1, values := [500] }) none
      (.vector ⟨0, 0, 1⟩)⟩, ⟨"a_K1", .demag none⟩]
where
  /-- One cell of a nanometre. -/
  cube : Mesh Float := { region := ⟨.fill 0, .fill 1e-9⟩, cell := .fill 1e-9 }

/-- A problem is accepted and its script declares one name twice. -/
theorem clashing_declares_twice :
    ∃ script, clashing.lower { goal := .minimise } {} .unix = .ok script ∧
      ¬(declaredNames script.text.toList).Nodup := by
  have accepted : (clashing.lower { goal := .minimise } {} .unix).toOption.isSome = true := by
    decide
  obtain ⟨script, kept⟩ := Option.isSome_iff_exists.mp accepted
  have lowered := Result.ok_of_toOption kept
  have plain : Intent.Plain { goal := .minimise } {} := .of_default rfl rfl
  have borne : "a_K1" ∈ clashing.derivedNames { goal := .minimise } {} := by decide
  refine ⟨script, lowered, fun distinct => ?_⟩
  have apart := (declaredNames_nodup_iff plain lowered).mp distinct
  exact apart ⟨"a_K1", .demag none⟩ (List.mem_cons_of_mem _ (List.mem_singleton_self _)) borne

end Problem

end Micromag
