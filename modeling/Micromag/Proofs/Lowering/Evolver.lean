import Mathlib.Data.List.Dedup
import Micromag.Lowering.Evolver
import Micromag.Proofs.Keyed
import Micromag.Proofs.Lowering.Parameter

/-!
# Objects of an evolver

An evolver declares the objects of those attributes that are parameters, and then itself. This is
known of evolvers without text of the caller, whose attributes are parameters only and whose current
follows a profile if it changes in time. Binding the torques of a problem adds parameters, so that
such an evolver stays free of text.
-/

namespace Micromag

open Script

variable {known : List String} {site : Site}

namespace Evolver

/-- Whether an evolver has no text of the caller in it. -/
structure Plain (evolver : Evolver) : Prop where
  /-- No procedure is given. -/
  procedure : evolver.procedure = none
  /-- No attribute is text. -/
  attributes : ∀ name text, evolver.attributes.get? name ≠ some (.text text)

variable {evolver : Evolver} {dynamics : Dynamics}

/-- A parameter is no text. -/
theorem Plain.withParameter (plain : evolver.Plain) {name : String} {value : Parameter} :
    (evolver.withParameter name value).Plain where
  procedure := plain.procedure
  attributes other text found := by
    have inserted : (evolver.attributes.insert name (.parameter value)).get? other =
        some (.text text) := found
    rw [Keyed.get?_insert] at inserted
    split at inserted
    · cases inserted
    · exact plain.attributes other text inserted

/-- The torques of a problem are bound as parameters. -/
theorem Plain.bind (plain : evolver.Plain) {bound : Evolver}
    (binds : evolver.bind dynamics = .ok bound) : bound.Plain := by
  have precession : (evolver.bindPrecession dynamics).Plain := by
    unfold bindPrecession
    split <;> exact plain.withParameter
  have damping : ((evolver.bindPrecession dynamics).bindDamping dynamics).Plain := by
    unfold bindDamping
    split <;> exact precession.withParameter
  obtain ⟨inPlane, current, same⟩ := Result.bind_ok.mp binds
  have planar : inPlane.Plain := by
    unfold bindInPlane at current
    split at current
    · rw [← Except.ok.inj current]
      exact damping
    · rw [← Except.ok.inj current]
      exact damping.withParameter.withParameter
    · cases current
  rw [← Except.ok.inj same]
  unfold bindPolarised
  split
  · exact planar
  · exact planar.withParameter.withParameter.withParameter.withParameter.withParameter

/-- The names of the objects of an attribute, none if a word for it is given. -/
def attributeObjects (evolver : Evolver) (given : List String) (name : String) : List String :=
  if name ∈ given then []
  else
    match evolver.attributes.get? name with
    | some (.parameter value) => value.objectNames (attributeArity name) ("evolver_" ++ name)
    | _ => []

/-- The attributes of all kinds, each once. -/
def attributeNames : List String := (EvolverKind.all.flatMap EvolverKind.allowed).dedup

/-- The attributes of every kind are among those of all kinds. -/
theorem mem_attributeNames {kind : EvolverKind} {name : String} (member : name ∈ kind.allowed) :
    name ∈ attributeNames := by
  have any : kind ∈ EvolverKind.all := by cases kind <;> decide
  exact List.mem_dedup.mpr (List.mem_flatMap.mpr ⟨kind, any, member⟩)

/-- The attributes of every kind have names that scripts can use. -/
theorem named_of_allowed {kind : EvolverKind} {name : String} (member : name ∈ kind.allowed) :
    name.toList.all Text.isNameChar = true := by
  have all : ∀ name ∈ attributeNames, name.toList.all Text.isNameChar = true := by
    decide +kernel
  exact all name (mem_attributeNames member)

/-- Whether extra words refer to nothing unknown. -/
def Extras.Resolve (known : List String) (extras : Extras) : Prop :=
  ∀ entry ∈ extras, entry.2.Resolves known

/-- An attribute stands for its value, in front of which its objects are declared. -/
theorem lowerAttribute_stands (plain : evolver.Plain) (named : site.Named)
    (atlas : "main_atlas" ∈ known) {extras : Extras} (resolve : Extras.Resolve known extras)
    {name : String} (nameNamed : name.toList.all Text.isNameChar = true)
    {lowered : Option LoweredParameter}
    (succeeds : (evolver.lowerAttribute site extras name).result = .ok lowered) :
    match lowered with
    | none => evolver.attributeObjects (extras.map (·.1)) name = []
    | some result =>
      Parameter.Stands known result (evolver.attributeObjects (extras.map (·.1)) name) := by
  unfold lowerAttribute at succeeds
  unfold attributeObjects
  cases extra : extras.lookup name with
  | some word =>
    rw [extra] at succeeds
    obtain rfl := Lowering.pure_ok.mp succeeds
    have given : name ∈ extras.map (·.1) := List.mem_map_of_mem (Keyed.mem_of_lookup extra)
    rw [if_pos given]
    exact .word (resolve _ (Keyed.mem_of_lookup extra))
  | none =>
    rw [extra] at succeeds
    rw [if_neg (Keyed.lookup_eq_none_iff_notMem.mp extra)]
    cases found : evolver.attributes.get? name with
    | none =>
      rw [found] at succeeds
      obtain rfl := Lowering.pure_ok.mp succeeds
      rfl
    | some value =>
      rw [found] at succeeds
      cases value with
      | text text => exact absurd found (plain.attributes name text)
      | parameter value =>
        obtain ⟨result, inner, same⟩ := Lowering.bind_ok.mp succeeds
        obtain rfl := Lowering.pure_ok.mp same
        have identifier : Text.isIdentifier ("evolver_" ++ name) = true :=
          Text.isIdentifier_append (by decide) nameNamed
        exact Parameter.lower_stands named atlas identifier inner

/-- The objects and the entries of named attributes. -/
theorem lowerAttributes_emits (plain : evolver.Plain) (named : site.Named)
    (atlas : "main_atlas" ∈ known) {extras : Extras} (resolve : Extras.Resolve known extras)
    {names : List String} (allNamed : ∀ name ∈ names, name.toList.all Text.isNameChar = true)
    {items : List Item} {entries : List Script.Entry}
    (lowered : (evolver.lowerAttributes site extras names).result = .ok (items, entries)) :
    Emits known items (names.flatMap (evolver.attributeObjects (extras.map (·.1)))) ∧
      ∀ entry ∈ entries, entry.Resolves
        (known ++ names.flatMap (evolver.attributeObjects (extras.map (·.1)))) := by
  induction names generalizing items entries with
  | nil =>
    obtain ⟨rfl, rfl⟩ := Prod.mk.inj (Lowering.pure_ok.mp lowered)
    exact ⟨.nil, nofun⟩
  | cons name rest ih =>
    obtain ⟨value, first, lowered⟩ := Lowering.bind_ok.mp lowered
    obtain ⟨⟨laterItems, laterEntries⟩, later, same⟩ := Lowering.bind_ok.mp lowered
    obtain ⟨emits, resolves⟩ :=
      ih (fun other member => allNamed other (List.mem_cons_of_mem name member)) later
    have nameNamed := allNamed name List.mem_cons_self
    have noColon : ':' ∉ name.toList := by
      intro member
      exact absurd (List.all_eq_true.mp nameNamed ':' member) (by decide)
    have head := lowerAttribute_stands plain named atlas resolve nameNamed first
    rw [List.flatMap_cons]
    cases value with
    | none =>
      obtain ⟨rfl, rfl⟩ := Prod.mk.inj (Lowering.pure_ok.mp same)
      dsimp only at head
      rw [head, List.nil_append]
      exact ⟨emits, resolves⟩
    | some result =>
      obtain ⟨rfl, rfl⟩ := Prod.mk.inj (Lowering.pure_ok.mp same)
      refine ⟨head.emits.append_right emits, List.forall_mem_cons.mpr ⟨?_, ?_⟩⟩
      · refine setting_resolves noColon (head.token.mono ?_)
        rw [← List.append_assoc]
        exact List.subset_append_left _ _
      · refine fun entry member => (resolves entry member).mono ?_
        exact List.append_subset.mpr ⟨List.subset_append_left _ _,
          List.Subset.trans (List.subset_append_right _ _) (List.subset_append_right _ _)⟩

/-- The procedure that tabulates a profile refers to nothing. -/
theorem lookupProcedure_resolves {name : String} {step : Float} {samples : List Float}
    {procedure : Procedure} (noColon : ':' ∉ name.toList)
    (lowered : lookupProcedure name step samples = .ok procedure) : procedure.Resolves := by
  unfold lookupProcedure at lowered
  by_cases nothing : samples.isEmpty = true
  · rw [if_pos nothing] at lowered
    cases lowered
  · rw [if_neg nothing] at lowered
    obtain ⟨values, tabulated, lowered⟩ := Result.bind_ok.mp lowered
    obtain ⟨text, written, same⟩ := Result.bind_ok.mp lowered
    rw [← Except.ok.inj same]
    have noStep : ':' ∉ ("set tstep " ++ text).toList := by
      have digits := noColon_numberText written
      simp [String.toList_append, digits]
    have noValues : ':' ∉ ("set values " ++ values.render).toList := by
      have digits := Word.noColon_render (numbers_resolves tabulated)
      simp [String.toList_append, digits]
    have constant : ∀ line ∈ [assignment "index" "int(round($total_time/$tstep))",
        assignment "last" "[llength $values] - 1",
        "if " ++ braced "$index < 0" ++ " " ++ braced " set index 0 ",
        "if " ++ braced "$index > $last" ++ " " ++ braced " set index $last ",
        "return [lindex $values $index]"], ':' ∉ line.toList := by
      decide
    have parameter : ':' ∉ "total_time".toList := by decide
    exact ⟨noColon, parameter,
      List.forall_mem_cons.mpr ⟨noStep, List.forall_mem_cons.mpr ⟨noValues, constant⟩⟩⟩

/-- The procedure of a profile refers to nothing. -/
theorem profileTable_resolves {profile : Float → Float} {step duration : Option Float}
    {procedure : Procedure} (lowered : profileTable profile step duration = .ok procedure) :
    procedure.Resolves := by
  unfold profileTable at lowered
  split at lowered
  · obtain ⟨times, _, tabulated⟩ := Result.bind_ok.mp lowered
    exact lookupProcedure_resolves (by decide) tabulated
  · cases lowered

/-- The names under which a profile is given. -/
def profileNames (evolver : Evolver) : List String :=
  if evolver.profile.isSome then
    match evolver.kind.profiled? with
    | some current => [current ++ "_profile", current ++ "_profile_args"]
    | none => []
  else []

/-- A profile declares no object, and its words refer to nothing. -/
theorem profileItems_emits (plain : evolver.Plain) {duration : Option Float} {items : List Item}
    {extras : Extras} (lowered : evolver.profileItems duration = .ok (items, extras)) :
    Emits known items [] ∧ Extras.Resolve known extras ∧
      extras.map (·.1) = evolver.profileNames := by
  have nothing : Extras.Resolve known [] := fun _ member => nomatch member
  unfold profileItems hasProfile currentProcedure at lowered
  unfold profileNames
  rw [plain.procedure] at lowered
  cases changes : evolver.profile with
  | none =>
    rw [changes] at lowered
    obtain ⟨rfl, rfl⟩ := Prod.mk.inj (Except.ok.inj lowered)
    exact ⟨.nil, nothing, rfl⟩
  | some profile =>
    rw [changes] at lowered
    cases current : evolver.kind.profiled? with
    | none =>
      rw [current] at lowered
      cases lowered
    | some current =>
      rw [current] at lowered
      obtain ⟨found, inner, same⟩ := Result.bind_ok.mp lowered
      obtain ⟨table, tabulated, found⟩ := Result.bind_ok.mp inner
      obtain rfl := Except.ok.inj found
      obtain ⟨rfl, rfl⟩ := Prod.mk.inj (Except.ok.inj same)
      have noName : ':' ∉ profileProcedure.toList := by decide
      have noArguments : ':' ∉ "total_time".toList := by decide
      exact ⟨.single (profileTable_resolves tabulated) rfl, List.forall_mem_cons.mpr
        ⟨noName, List.forall_mem_singleton.mpr noArguments⟩, rfl⟩

/-- The names of the objects of an evolver under given extra names, without its own. -/
def objectNames (evolver : Evolver) (given : List String) : List String :=
  evolver.kind.allowed.flatMap (evolver.attributeObjects (evolver.profileNames ++ given))

/-- The classes of evolvers have names. -/
theorem isIdentifier_className (kind : EvolverKind) : Text.isIdentifier kind.className = true := by
  cases kind <;> decide

/-- The objects of an evolver. -/
theorem items_emits (plain : evolver.Plain) (named : site.Named) (atlas : "main_atlas" ∈ known)
    {extras : Extras} (resolve : Extras.Resolve known extras) {duration : Option Float}
    {items : List Item} (lowered : (evolver.items site extras duration).result = .ok items) :
    Emits known items (evolver.objectNames (extras.map (·.1)) ++ ["evolver"]) := by
  obtain ⟨⟨procedures, profile⟩, first, lowered⟩ := Lowering.bind_ok.mp lowered
  obtain ⟨⟨fields, entries⟩, second, same⟩ := Lowering.bind_ok.mp lowered
  rw [← Lowering.pure_ok.mp same]
  have first : evolver.profileItems duration = .ok (procedures, profile) := first
  obtain ⟨defined, tabulated, names⟩ := profileItems_emits plain first
  have all : Extras.Resolve known (profile ++ extras) := by
    intro entry member
    rcases List.mem_append.mp member with member | member
    · exact tabulated entry member
    · exact resolve entry member
  obtain ⟨declared, resolves⟩ :=
    lowerAttributes_emits plain named atlas all (fun _ => named_of_allowed) second
  rw [List.map_append, names] at declared resolves
  exact (defined.append_right declared).append
    (.object (isIdentifier_className evolver.kind) (by decide) resolves)

end Evolver

end Micromag
