import Micromag.Proofs.Lowering.Columns
import Micromag.Proofs.Lowering.Gate
import Micromag.Proofs.Lowering.Names

/-!
# The driver and its evolver

A script runs one driver with one evolver. The objects that compute are those of the terms, the
applied field of a sweep, the evolver and the driver, in this order; the names of the last three are
reserved, so that nothing else bears them. Which classes the evolver and the driver have follows
from the goal of the intent, from the evolver of the caller and from the torques of the problem.
-/

namespace Micromag

open Script Table

variable {problem : Problem} {intent : Intent} {settings : ScriptSettings} {platform : Platform}
  {site : Site} {name className : String} {items others : List Item}

/-! ## Objects that compute -/

/-- The objects of items that do not serve others, in order. -/
def computing (items : List Item) : List (String × String) :=
  ((blocks items).map Block.object).filter fun object => !auxiliaryClasses.contains object.1

/-- What computes in two lists of items one after the other. -/
theorem computing_append : computing (items ++ others) = computing items ++ computing others := by
  unfold computing blocks
  rw [List.filterMap_append, List.map_append, List.filter_append]

/-- Items that serve do not compute. -/
theorem computing_of_serves (serves : ∀ item ∈ items, item.Serves) : computing items = [] := by
  refine List.filter_eq_nil_iff.mpr fun object member => ?_
  obtain ⟨block, inside, rfl⟩ := List.mem_map.mp member
  have auxiliary : block.className ∈ auxiliaryClasses := serves _ (mem_blocks.mp inside)
  rw [Bool.not_eq_true, Bool.not_eq_false', List.contains_iff_mem]
  exact auxiliary

/-- Items that declare nothing do not compute. -/
theorem computing_of_noBlock (noBlock : ∀ item ∈ items, item.block? = none) :
    computing items = [] := by
  unfold computing blocks
  rw [List.filterMap_eq_nil_iff.mpr noBlock]
  rfl

/-- One block of a class that does not serve computes. -/
theorem computing_block {block : Block} (reports : block.className ∉ auxiliaryClasses) :
    computing [.block block] = [block.object] := by
  refine List.filter_cons_of_pos ?_
  rw [Bool.not_eq_true', ← Bool.not_eq_true, List.contains_iff_mem]
  exact reports

/-- Of items that end in an object this object computes. -/
theorem Serving.computing (serving : Serving items className name)
    (reports : className ∉ auxiliaryClasses) :
    Micromag.computing items = [(className, name)] := by
  obtain ⟨front, entries, rfl, serves⟩ := serving
  rw [computing_append, computing_of_serves serves]
  exact computing_block reports

/-- An item that serves asks for no output. -/
theorem Script.Item.Serves.noOutput {item : Item} (serves : item.Serves) : item.output? = none := by
  cases item with
  | block b => rfl
  | procedure p => rfl
  | options | destination | schedule | blank | verbatim => exact absurd serves not_false

/-- Items that end in an object ask for no output. -/
theorem Serving.noOutput (serving : Serving items className name) :
    ∀ item ∈ items, item.output? = none := by
  obtain ⟨front, entries, rfl, serves⟩ := serving
  exact List.forall_mem_append.mpr
    ⟨fun item member => (serves item member).noOutput, List.forall_mem_singleton.mpr rfl⟩

/-- Objects of classes that do not serve are found among what computes. -/
theorem filter_computing {chosen : String → Bool}
    (apart : ∀ one ∈ auxiliaryClasses, chosen one = false) :
    ((blocks items).map Block.object).filter (fun object => chosen object.1) =
      (computing items).filter fun object => chosen object.1 := by
  unfold computing
  rw [List.filter_filter]
  refine List.filter_congr fun object _ => ?_
  cases auxiliary : auxiliaryClasses.contains object.1 with
  | false => exact (Bool.and_true _).symm
  | true => rw [apart _ (List.contains_iff_mem.mp auxiliary), Bool.false_and]

/-- Whether an object is that of a term. -/
def Term.Declares (platform : Platform) (term : Term) (object : String × String) : Prop :=
  term.interaction.className? platform = some object.1 ∧ object.2 = term.name

/-- The class of the object of a term is that of an energy. -/
theorem Term.Declares.energy {term : Term} {object : String × String}
    (declares : term.Declares platform object) : object.1 ∈ energyGroups.map (·.1) :=
  (mem_groups (Interaction.group_of_className declares.1)).1

/-- No term has an object of the class of the applied field of a sweep. -/
theorem Term.Declares.ne_sweep {term : Term} {object : String × String}
    (declares : term.Declares platform object) : object.1 ≠ "Oxs_UZeeman" := by
  obtain ⟨name, interaction⟩ := term
  obtain ⟨className, instanceName⟩ := object
  obtain ⟨own, -⟩ := declares
  dsimp only at own ⊢
  cases interaction with
  | exchange constant => cases constant <;> cases own <;> decide
  | zeeman field wave frequency delay =>
    obtain rfl := Option.some.inj own
    split <;> decide
  | dmi constant crystal =>
    have own : (Term.dmiClass crystal platform).toOption = some className := own
    cases platform <;> cases crystal <;> cases own <;> decide
  | uniaxial k1 k2 axis =>
    obtain rfl := Option.some.inj own
    split <;> decide
  | demag | cubic | magnetoElastic | rkky =>
    cases own
    decide

/-- What computes in a sum is the object of a term. -/
theorem Energy.declares_of_computing {energy : Energy}
    (named : ∀ term ∈ energy, Text.isIdentifier term.name = true)
    (lowered : (Energy.items site energy).result = .ok items) {object : String × String}
    (member : object ∈ computing items) : ∃ term ∈ energy, term.Declares site.platform object := by
  obtain ⟨inside, reports⟩ := List.mem_filter.mp member
  obtain ⟨block, declared, rfl⟩ := List.mem_map.mp inside
  obtain ⟨term, among, own, inner, part⟩ := Energy.term_of_mem lowered (mem_blocks.mp declared)
  obtain ⟨className, classified, front, entries, rfl, serves⟩ :=
    Term.items_serving (named term among) inner
  rcases List.mem_append.mp part with served | last
  · have auxiliary : block.className ∈ auxiliaryClasses := serves _ served
    rw [Bool.not_eq_true', ← Bool.not_eq_true, List.contains_iff_mem] at reports
    exact absurd auxiliary reports
  · obtain rfl := Item.block.inj (List.mem_singleton.mp last)
    exact ⟨term, among, classified, rfl⟩

namespace Intent

/-- The object of the applied field of a sweep. -/
def appliedObjects (intent : Intent) : List (String × String) :=
  match intent.goal with
  | .sweep _ => [("Oxs_UZeeman", "hysteresis")]
  | _ => []

/-- The applied field of a sweep is one object, and no other goal has any. -/
theorem appliedItems_cases (swept : intent.appliedItems = .ok items) :
    items = [] ∧ intent.appliedObjects = [] ∨
      ∃ legs rows, intent.goal = .sweep legs ∧ legs.mapM SweepLeg.row = .ok rows ∧
        items = [.object "Oxs_UZeeman" "hysteresis" [.table "Hrange" rows]] ∧
          intent.appliedObjects = [("Oxs_UZeeman", "hysteresis")] := by
  unfold appliedItems at swept
  unfold appliedObjects
  cases goal : intent.goal with
  | sweep legs =>
    rw [goal] at swept
    obtain ⟨item, inner, same⟩ := Result.bind_ok.mp swept
    obtain ⟨rows, written, whole⟩ := Result.bind_ok.mp inner
    rw [← Except.ok.inj same, ← Except.ok.inj whole]
    exact .inr ⟨legs, rows, rfl, written, rfl, rfl⟩
  | minimise | evolve =>
    rw [goal] at swept
    exact .inl ⟨(Except.ok.inj swept).symm, rfl⟩

/-- A drive is the applied field of a sweep, the evolver behind what serves it, the driver, and the
outputs. -/
theorem items_split (plain : intent.Plain settings) {dynamics : Dynamics}
    (lowered : (intent.items site dynamics settings).result = .ok items) :
    ∃ applied evolving entries, intent.appliedItems = .ok applied ∧
      Serving evolving (intent.chosenEvolver dynamics).kind.className "evolver" ∧
      items = applied ++ evolving ++ [.anonymous intent.driverClass entries] ++
        intent.outputItems settings := by
  obtain ⟨evolver, bound, lowered⟩ := Lowering.bind_ok.mp lowered
  obtain ⟨extras, _, lowered⟩ := Lowering.bind_ok.mp lowered
  obtain ⟨applied, swept, lowered⟩ := Lowering.bind_ok.mp lowered
  obtain ⟨evolving, moved, lowered⟩ := Lowering.bind_ok.mp lowered
  obtain ⟨driver, driven, same⟩ := Lowering.bind_ok.mp lowered
  have binds : (intent.chosenEvolver dynamics).bind dynamics = .ok evolver :=
    Result.mapError_ok.mp bound
  have serving := Evolver.items_serving ((chosenEvolver_plain plain).bind binds) moved
  rw [Evolver.kind_of_bind binds] at serving
  obtain ⟨entries, _, runs⟩ := Result.bind_ok.mp (show intent.driverItem = .ok driver from driven)
  rw [← Lowering.pure_ok.mp same, ← Except.ok.inj runs]
  exact ⟨applied, evolving, _, swept, serving, rfl⟩

/-- What computes in a drive: the applied field of a sweep, the evolver and the driver. -/
theorem computing_items (plain : intent.Plain settings) {dynamics : Dynamics}
    (lowered : (intent.items site dynamics settings).result = .ok items) :
    computing items = intent.appliedObjects ++
      [((intent.chosenEvolver dynamics).kind.className, "evolver"), (intent.driverClass, "")] := by
  obtain ⟨applied, evolving, entries, swept, serving, rfl⟩ := items_split plain lowered
  have field : computing applied = intent.appliedObjects := by
    rcases appliedItems_cases swept with ⟨rfl, none⟩ | ⟨legs, rows, _, _, rfl, one⟩
    · exact none.symm
    · rw [one]
      exact computing_block (show "Oxs_UZeeman" ∉ auxiliaryClasses by decide)
  have moves : computing evolving =
      [((intent.chosenEvolver dynamics).kind.className, "evolver")] := by
    refine serving.computing ?_
    cases (intent.chosenEvolver dynamics).kind <;> decide
  have runs : computing [.anonymous intent.driverClass entries] = [(intent.driverClass, "")] := by
    refine computing_block ?_
    show intent.driverClass ∉ auxiliaryClasses
    unfold driverClass
    split <;> decide
  have outputs : computing (intent.outputItems settings) = [] :=
    computing_of_noBlock fun item member => (level_of_outputItems plain member).2.1
  rw [computing_append, computing_append, computing_append, field, moves, runs, outputs,
    List.append_nil, List.append_assoc]
  rfl

/-- The outputs of a drive without text of the caller: the scalars, and the magnetisation as the
driver has it. -/
theorem outputs_items (plain : intent.Plain settings) {dynamics : Dynamics}
    (lowered : (intent.items site dynamics settings).result = .ok items) :
    items.filterMap Item.output? = ["DataTable", intent.driverClass ++ "::Magnetization"] := by
  obtain ⟨applied, evolving, entries, swept, serving, rfl⟩ := items_split plain lowered
  have field : applied.filterMap Item.output? = [] := by
    rcases appliedItems_cases swept with ⟨rfl, _⟩ | ⟨legs, rows, _, _, rfl, _⟩
    · rfl
    · rfl
  have outputs : (intent.outputItems settings).filterMap Item.output? =
      ["DataTable", intent.driverClass ++ "::Magnetization"] := by
    unfold outputItems
    rw [plain.directive, Option.map_none, Option.toList_none, List.append_nil]
    split <;> rfl
  rw [List.filterMap_append, List.filterMap_append, List.filterMap_append, field,
    List.filterMap_eq_nil_iff.mpr serving.noOutput, outputs]
  rfl

end Intent

namespace Problem

/-- A script is the general options, what serves the mesh, the terms, what serves the magnetisation,
and the drive. -/
theorem lower_split {script : LoweredScript}
    (lowered : problem.lower intent settings platform = .ok script) :
    ∃ mesh energy magnetisation drive, (∀ item ∈ mesh ++ magnetisation, item.Serves) ∧
      (Energy.items ⟨problem.mesh, platform⟩ problem.energy).result = .ok energy ∧
      (intent.items ⟨problem.mesh, platform⟩ problem.dynamics settings).result = .ok drive ∧
      script.items = [.options problem.name settings.format] ++ mesh ++ energy ++ magnetisation ++
        drive := by
  obtain ⟨items, inner, rfl⟩ := Result.map_ok.mp lowered
  obtain ⟨_, _, lowered⟩ := Lowering.bind_ok.mp inner
  obtain ⟨_, _, lowered⟩ := Lowering.bind_ok.mp lowered
  obtain ⟨mesh, divided, lowered⟩ := Lowering.bind_ok.mp lowered
  obtain ⟨energy, contributed, lowered⟩ := Lowering.bind_ok.mp lowered
  obtain ⟨magnetisation, given, lowered⟩ := Lowering.bind_ok.mp lowered
  obtain ⟨drive, driven, same⟩ := Lowering.bind_ok.mp lowered
  exact ⟨mesh, energy, magnetisation, drive, List.forall_mem_append.mpr
    ⟨Mesh.serves_of_items divided, serves_of_magnetisationItems given⟩, contributed, driven,
    (Lowering.pure_ok.mp same).symm⟩

/-- What computes in a script without text of the caller: the terms, the applied field of a sweep,
the evolver and the driver. -/
theorem computing_of_lower (plain : intent.Plain settings) {script : LoweredScript}
    (lowered : problem.lower intent settings platform = .ok script) :
    ∃ terms, (∀ object ∈ terms, ∃ term ∈ problem.energy, term.Declares platform object) ∧
      computing script.items = terms ++ intent.appliedObjects ++
        [((intent.chosenEvolver problem.dynamics).kind.className, "evolver"),
          (intent.driverClass, "")] := by
  have accepted := (lower_emits plain lowered).1
  obtain ⟨mesh, energy, magnetisation, drive, serves, contributed, driven, split⟩ :=
    lower_split lowered
  obtain ⟨first, second⟩ := List.forall_mem_append.mp serves
  have named (term : Term) (member : term ∈ problem.energy) := (accepted.usable term member).1
  have options : computing [.options problem.name settings.format] = [] := rfl
  refine ⟨_, fun object => Energy.declares_of_computing named contributed, ?_⟩
  rw [split, computing_append, computing_append, computing_append, computing_append, options,
    computing_of_serves first, computing_of_serves second, Intent.computing_items plain driven,
    List.nil_append, List.nil_append, List.append_nil, List.append_assoc]

/-- The outputs that a script without text of the caller asks for: the scalars, and the
magnetisation as the driver has it. -/
theorem scheduledOutputs_of_lower (plain : intent.Plain settings) {script : LoweredScript}
    (lowered : problem.lower intent settings platform = .ok script) :
    scheduledOutputs script.text.toList =
      ["DataTable", intent.driverClass ++ "::Magnetization"] := by
  have accepted := (lower_emits plain lowered).1
  have level := level_of_lower plain lowered
  have asked := scheduledOutputs_render (fun item member => (level item member).1)
    fun text member => (level _ member).2 text rfl
  obtain ⟨mesh, energy, magnetisation, drive, serves, contributed, driven, split⟩ :=
    lower_split lowered
  obtain ⟨first, second⟩ := List.forall_mem_append.mp serves
  have terms : ∀ item ∈ energy, item.output? = none := by
    intro item member
    obtain ⟨term, among, own, lowered, inside⟩ := Energy.term_of_mem contributed member
    obtain ⟨_, _, serving⟩ := Term.items_serving (accepted.usable term among).1 lowered
    exact serving.noOutput item inside
  have silent {items : List Item} (serves : ∀ item ∈ items, item.Serves) :
      items.filterMap Item.output? = [] :=
    List.filterMap_eq_nil_iff.mpr fun item member => (serves item member).noOutput
  have options : [Item.options problem.name settings.format].filterMap Item.output? = [] := rfl
  refine asked.trans ?_
  rw [split, List.filterMap_append, List.filterMap_append, List.filterMap_append,
    List.filterMap_append, options, silent first, silent second,
    List.filterMap_eq_nil_iff.mpr terms, Intent.outputs_items plain driven]
  rfl

/-- A reserved name is declared as often as the script uses it of its own. -/
theorem count_reserved (plain : intent.Plain settings) {script : LoweredScript}
    (lowered : problem.lower intent settings platform = .ok script)
    (reserved : name ∈ reservedNames) :
    (instances script.items).count name = (problem.fixedNames intent).count name := by
  obtain ⟨accepted, emits⟩ := lower_emits plain lowered
  have derived : name ∉ problem.derivedNames intent settings := fun member =>
    (derivedNames_distinct accepted intent settings).2 name member reserved
  have terms : name ∉ problem.energy.map (·.name) := by
    intro member
    obtain ⟨term, inside, rfl⟩ := List.mem_map.mp member
    exact (accepted.usable term inside).2 reserved
  rw [emits.instances, objectNames_perm.count_eq, List.count_append, List.count_append,
    List.count_eq_zero_of_not_mem derived, List.count_eq_zero_of_not_mem terms, Nat.add_zero]

/-- Objects that bear a name are those that are counted under the name. -/
theorem length_filter_objects (given : name ≠ "") :
    (((blocks items).map Block.object).filter fun object => object.2 == name).length =
      (instances items).count name := by
  unfold instances
  rw [← List.countP_eq_length_filter, List.countP_map, List.count_eq_countP, List.countP_filterMap]
  refine List.countP_congr fun block _ => ?_
  show (block.instanceName.getD "" == name) = true ↔ _
  cases block.instanceName with
  | none => exact ⟨fun same => absurd (beq_iff_eq.mp same).symm given, fun no => nomatch no⟩
  | some other => exact Iff.rfl

/-- The objects under a name are those that compute, when there are no more of them. -/
theorem filter_named (given : name ≠ "") {objects : List (String × String)}
    (found : (computing items).filter (fun object => object.2 == name) = objects)
    (counted : (instances items).count name = objects.length) :
    ((blocks items).map Block.object).filter (fun object => object.2 == name) = objects := by
  have among : (computing items).Sublist ((blocks items).map Block.object) := List.filter_sublist
  have inside := among.filter fun object => object.2 == name
  rw [found] at inside
  refine (inside.eq_of_length ?_).symm
  rw [length_filter_objects given, counted]

/-- Terms are of none of certain classes, if no class of a term is chosen. -/
theorem filter_terms_class (chosen : String → Bool) {terms : List (String × String)}
    (declare : ∀ object ∈ terms, ∃ term ∈ problem.energy, term.Declares platform object)
    (apart : ∀ term : Term, ∀ object, term.Declares platform object → chosen object.1 = false) :
    terms.filter (fun object => chosen object.1) = [] := by
  refine List.filter_eq_nil_iff.mpr fun object member same => ?_
  obtain ⟨term, _, declares⟩ := declare object member
  rw [apart term object declares] at same
  cases same

/-- No term of an accepted problem has a reserved name. -/
theorem filter_terms_reserved (accepted : problem.Accepted) {terms : List (String × String)}
    (declare : ∀ object ∈ terms, ∃ term ∈ problem.energy, term.Declares platform object)
    (reserved : name ∈ reservedNames) : terms.filter (fun object => object.2 == name) = [] := by
  refine List.filter_eq_nil_iff.mpr fun object member same => ?_
  obtain ⟨term, among, declares⟩ := declare object member
  refine (accepted.usable term among).2 ?_
  rwa [← declares.2, beq_iff_eq.mp same]

/-- A script without text of the caller declares one driver. -/
theorem drivers_of_lower (plain : intent.Plain settings) {script : LoweredScript}
    (lowered : problem.lower intent settings platform = .ok script) :
    (declaredObjects script.text.toList).filter (fun object => driverClasses.contains object.1) =
      [(intent.driverClass, "")] := by
  obtain ⟨terms, declare, found⟩ := computing_of_lower plain lowered
  have energies : ∀ className ∈ energyGroups.map (·.1),
      driverClasses.contains className = false := by
    decide +kernel
  have noTerm : terms.filter (fun object => driverClasses.contains object.1) = [] :=
    filter_terms_class driverClasses.contains declare fun _ _ declares => energies _ declares.energy
  have noField : intent.appliedObjects.filter (fun object => driverClasses.contains object.1) =
      [] := by
    unfold Intent.appliedObjects
    split <;> decide
  have noEvolver : driverClasses.contains
      (intent.chosenEvolver problem.dynamics).kind.className = false := by
    cases (intent.chosenEvolver problem.dynamics).kind <;> decide
  have driver : driverClasses.contains intent.driverClass = true := by
    unfold Intent.driverClass
    split <;> decide
  have apart : ∀ one ∈ auxiliaryClasses, driverClasses.contains one = false := by decide
  rw [declaredObjects_of_lower plain lowered, filter_computing apart, found, List.filter_append,
    List.filter_append, noTerm, noField, List.filter_cons, noEvolver, List.filter_cons, driver]
  rfl

/-- A script without text of the caller declares one object under the name of the evolver. -/
theorem evolvers_of_lower (plain : intent.Plain settings) {script : LoweredScript}
    (lowered : problem.lower intent settings platform = .ok script) :
    (declaredObjects script.text.toList).filter (fun object => object.2 == "evolver") =
      [((intent.chosenEvolver problem.dynamics).kind.className, "evolver")] := by
  have accepted := (lower_emits plain lowered).1
  obtain ⟨terms, declare, found⟩ := computing_of_lower plain lowered
  have once : (instances script.items).count "evolver" = 1 := by
    rw [count_reserved plain lowered (by decide)]
    refine List.count_eq_one_of_mem (fixedNames_reserved problem intent).1 ?_
    exact List.mem_append_right _ (List.mem_singleton_self _)
  have noTerm := filter_terms_reserved accepted declare (show "evolver" ∈ reservedNames by decide)
  have noField : intent.appliedObjects.filter (fun object => object.2 == "evolver") = [] := by
    unfold Intent.appliedObjects
    split <;> decide
  rw [declaredObjects_of_lower plain lowered]
  refine filter_named (by decide) ?_ once
  rw [found, List.filter_append, List.filter_append, noTerm, noField]
  rfl

/-- A script without text of the caller declares the applied field of a sweep, and otherwise neither
an object of this class nor one of this name. -/
theorem fields_of_lower (plain : intent.Plain settings) {script : LoweredScript}
    (lowered : problem.lower intent settings platform = .ok script) :
    (declaredObjects script.text.toList).filter (fun object => object.1 == "Oxs_UZeeman") =
        intent.appliedObjects ∧
      (declaredObjects script.text.toList).filter (fun object => object.2 == "hysteresis") =
        intent.appliedObjects := by
  have accepted := (lower_emits plain lowered).1
  obtain ⟨terms, declare, found⟩ := computing_of_lower plain lowered
  have noSweep (term : Term) (object : String × String) (declares : term.Declares platform object) :
      (object.1 == "Oxs_UZeeman") = false := beq_eq_false_iff_ne.mpr declares.ne_sweep
  have noClass : terms.filter (fun object => object.1 == "Oxs_UZeeman") = [] :=
    filter_terms_class (· == "Oxs_UZeeman") declare noSweep
  have noName :=
    filter_terms_reserved accepted declare (show "hysteresis" ∈ reservedNames by decide)
  have counted : (instances script.items).count "hysteresis" = intent.appliedObjects.length := by
    rw [count_reserved plain lowered (by decide)]
    unfold fixedNames Intent.appliedNames Intent.appliedObjects
    cases intent.goal <;> dsimp only <;> split <;> decide
  rw [declaredObjects_of_lower plain lowered]
  constructor
  · have apart : ∀ one ∈ auxiliaryClasses, (one == "Oxs_UZeeman") = false := by decide
    refine (filter_computing apart).trans ?_
    have noEvolver : ((intent.chosenEvolver problem.dynamics).kind.className == "Oxs_UZeeman") =
        false := by
      cases (intent.chosenEvolver problem.dynamics).kind <;> decide
    have noDriver : (intent.driverClass == "Oxs_UZeeman") = false := by
      unfold Intent.driverClass
      split <;> decide
    rw [found, List.filter_append, List.filter_append, noClass, List.filter_cons, noEvolver,
      List.filter_cons, noDriver]
    unfold Intent.appliedObjects
    cases intent.goal <;> rfl
  · refine filter_named (by decide) ?_ counted
    rw [found, List.filter_append, List.filter_append, noName]
    unfold Intent.appliedObjects
    cases intent.goal <;> rfl

end Problem

/-! ## The rule -/

/-- Whether the torque of a current in the plane is among torques. -/
def Dynamics.InPlane (dynamics : Dynamics) : Prop :=
  ∃ term ∈ dynamics, ∃ velocity beta, term.torque = .zhangLi velocity beta

/-- Whether the torque of a polarised current is among torques. -/
def Dynamics.Polarised (dynamics : Dynamics) : Prop :=
  ∃ term ∈ dynamics, ∃ current polariser polarisation asymmetry secondary,
    term.torque = .slonczewski current polariser polarisation asymmetry secondary

/-- A torque of a current in the plane is found exactly when there is one. -/
theorem Dynamics.isSome_zhangLi? {dynamics : Dynamics} :
    dynamics.zhangLi?.isSome = true ↔ dynamics.InPlane := by
  unfold zhangLi? InPlane
  rw [List.isSome_findSome?, List.any_eq_true]
  refine exists_congr fun term => and_congr_right fun _ => ?_
  cases term.torque with
  | zhangLi velocity beta => exact iff_of_true rfl ⟨velocity, beta, rfl⟩
  | precession | damping | slonczewski =>
    refine iff_of_false Bool.false_ne_true ?_
    rintro ⟨_, _, same⟩
    cases same

/-- A torque of a polarised current is found exactly when there is one. -/
theorem Dynamics.isSome_slonczewski? {dynamics : Dynamics} :
    dynamics.slonczewski?.isSome = true ↔ dynamics.Polarised := by
  unfold slonczewski? Polarised
  rw [List.isSome_findSome?, List.any_eq_true]
  refine exists_congr fun term => and_congr_right fun _ => ?_
  cases term.torque with
  | slonczewski current polariser polarisation asymmetry secondary =>
    exact iff_of_true rfl ⟨current, polariser, polarisation, asymmetry, secondary, rfl⟩
  | precession | damping | zhangLi =>
    refine iff_of_false Bool.false_ne_true ?_
    rintro ⟨_, _, _, _, _, same⟩
    cases same

/-- The classes of evolvers that integrate in time. -/
def timeEvolverClasses : List String :=
  ["Oxs_EulerEvolve", "Oxs_RungeKuttaEvolve", "Anv_SpinTEvolve", "Oxs_SpinXferEvolve",
    "UHH_ThetaEvolve"]

namespace Intent

/-- The classes of the driver and of the evolver that go with an intent and with torques. -/
inductive Pairs (intent : Intent) (dynamics : Dynamics) : String → String → Prop where
  /-- A minimum. -/
  | minimise (goal : intent.goal = .minimise) : Pairs intent dynamics "Oxs_MinDriver" "Oxs_CGEvolve"
  /-- Minima along a sweep. -/
  | sweep {legs : List SweepLeg} (goal : intent.goal = .sweep legs) :
      Pairs intent dynamics "Oxs_MinDriver" "Oxs_CGEvolve"
  /-- Dynamics with the evolver of the caller. -/
  | given {time : Float} {stages : Nat} {evolver : Evolver}
      (goal : intent.goal = .evolve time stages)
      (chosen : intent.evolver = some evolver)
      (integrates : evolver.kind.className ∈ timeEvolverClasses) :
      Pairs intent dynamics "Oxs_TimeDriver" evolver.kind.className
  /-- Dynamics with a current in the plane. -/
  | inPlane {time : Float} {stages : Nat} (goal : intent.goal = .evolve time stages)
      (free : intent.evolver = none) (torque : dynamics.InPlane) :
      Pairs intent dynamics "Oxs_TimeDriver" "Anv_SpinTEvolve"
  /-- Dynamics with a polarised current and none in the plane. -/
  | polarised {time : Float} {stages : Nat} (goal : intent.goal = .evolve time stages)
      (free : intent.evolver = none) (other : ¬dynamics.InPlane) (torque : dynamics.Polarised) :
      Pairs intent dynamics "Oxs_TimeDriver" "Oxs_SpinXferEvolve"
  /-- Dynamics without a current. -/
  | neither {time : Float} {stages : Nat} (goal : intent.goal = .evolve time stages)
      (free : intent.evolver = none) (notInPlane : ¬dynamics.InPlane)
      (notPolarised : ¬dynamics.Polarised) :
      Pairs intent dynamics "Oxs_TimeDriver" "Oxs_RungeKuttaEvolve"

/-- The evolver of the caller integrates in time when it is to follow the dynamics. -/
theorem integrates_of_valid {time : Float} {stages : Nat} (goal : intent.goal = .evolve time stages)
    (valid : intent.validate = .ok ()) {evolver : Evolver}
    (chosen : intent.evolver = some evolver) :
    evolver.kind.className ∈ timeEvolverClasses := by
  unfold validate at valid
  rw [goal] at valid
  dsimp only at valid
  split at valid
  · cases valid
  · split at valid
    · cases valid
    · obtain ⟨_, _, valid⟩ := Result.bind_ok.mp valid
      rw [chosen] at valid
      unfold validateIntegrator EvolverKind.integratesTime at valid
      dsimp only at valid
      cases kind : evolver.kind with
      | conjugateGradient =>
        rw [kind] at valid
        cases valid
      | euler | rungeKutta | spinTransfer | slonczewski | theta => decide

/-- The driver of an accepted intent goes with its evolver. -/
theorem pairs_of_valid (valid : intent.validate = .ok ()) (dynamics : Dynamics) :
    intent.Pairs dynamics intent.driverClass (intent.chosenEvolver dynamics).kind.className := by
  cases goal : intent.goal with
  | minimise =>
    have kind := kind_of_minimum (fun _ _ => by rw [goal]; nofun) valid dynamics
    rw [kind, driverClass, goal]
    exact .minimise goal
  | sweep legs =>
    have kind := kind_of_minimum (fun _ _ => by rw [goal]; nofun) valid dynamics
    rw [kind, driverClass, goal]
    exact .sweep goal
  | evolve time stages =>
    have driver : intent.driverClass = "Oxs_TimeDriver" := by
      unfold driverClass
      rw [goal]
    rw [driver]
    unfold chosenEvolver
    cases chosen : intent.evolver with
    | some evolver => exact .given goal chosen (integrates_of_valid goal valid chosen)
    | none =>
      rw [goal]
      dsimp only
      unfold Evolver.forDynamics
      by_cases inPlane : dynamics.InPlane
      · rw [if_pos (Dynamics.isSome_zhangLi?.mpr inPlane)]
        exact .inPlane goal chosen inPlane
      · rw [if_neg fun found => inPlane (Dynamics.isSome_zhangLi?.mp found)]
        by_cases polarised : dynamics.Polarised
        · rw [if_pos (Dynamics.isSome_slonczewski?.mpr polarised)]
          exact .polarised goal chosen inPlane polarised
        · rw [if_neg fun found => polarised (Dynamics.isSome_slonczewski?.mp found)]
          exact .neither goal chosen inPlane polarised

end Intent

/-! ## The text of a sweep -/

/-- The text of the applied field of a sweep, one row for each leg. -/
def sweepText (groups : List String) : String :=
  "Specify Oxs_UZeeman:hysteresis \x7b\n  Hrange \x7b\n" ++
    String.join (groups.map fun group => "    " ++ braced group ++ "\n") ++ "  \x7d\n\x7d\n\n"

/-- Whether text gives a leg: the components of its ends, and the number of steps between its
values. -/
def SweepLeg.Stated (leg : SweepLeg) (group : String) : Prop :=
  ∃ ends, List.Forall₂ (fun x text => numberText x = .ok text) (leg.start ++ leg.stop) ends ∧
    group = String.intercalate " " (ends ++ [toString (leg.count - 1)])

/-- Numbers in words are their texts. -/
theorem atoms_of_numbers {xs : List Float} {atoms : List Atom}
    (written : xs.mapM number = .ok atoms) :
    ∃ texts, List.Forall₂ (fun x text => numberText x = .ok text) xs texts ∧
      atoms = texts.map Atom.text := by
  induction Result.mapM_ok.mp written with
  | nil => exact ⟨[], .nil, rfl⟩
  | @cons x atom xs atoms first rest ih =>
    obtain ⟨text, own, rfl⟩ := Result.map_ok.mp first
    obtain ⟨texts, others, rfl⟩ := ih (Result.mapM_ok.mpr rest)
    exact ⟨text :: texts, .cons own others, rfl⟩

/-- The row of a leg is one group that gives it. -/
theorem SweepLeg.render_row {leg : SweepLeg} {row : List Word} (lowered : leg.row = .ok row) :
    ∃ group, leg.Stated group ∧ isBare group = true ∧ renderLine row = braced group := by
  obtain ⟨atoms, written, same⟩ := Result.bind_ok.mp lowered
  obtain ⟨texts, numbers, rfl⟩ := atoms_of_numbers written
  refine ⟨_, ⟨texts, numbers, rfl⟩, isBare_intercalate fun part member => ?_, ?_⟩
  · rcases List.mem_append.mp member with member | last
    · obtain ⟨x, _, own⟩ := Result.exists_of_mem_mapM (Result.mapM_ok.mpr numbers) member
      exact isBare_numberText own
    · rw [List.mem_singleton.mp last]
      exact isBare_toString _
  · have back : Atom.render ∘ Atom.text = id := rfl
    rw [← Except.ok.inj same]
    show String.intercalate " " [_] = _
    rw [String.intercalate_singleton]
    show braced (String.intercalate " "
      ((texts.map Atom.text ++ [Atom.text _]).map Atom.render)) = _
    rw [List.map_append, List.map_map, back, List.map_id]
    rfl

/-- The applied field of a sweep has one row for each leg. -/
theorem render_sweep {legs : List SweepLeg} {rows : List (List Word)}
    (lowered : legs.mapM SweepLeg.row = .ok rows) :
    ∃ groups, List.Forall₂ SweepLeg.Stated legs groups ∧
      (Item.object "Oxs_UZeeman" "hysteresis" [.table "Hrange" rows]).render =
        sweepText groups := by
  have texts : ∃ groups, List.Forall₂ SweepLeg.Stated legs groups ∧
      (∀ group ∈ groups, isBare group = true) ∧ rows.map renderLine = groups.map braced := by
    induction Result.mapM_ok.mp lowered with
    | nil => exact ⟨[], .nil, nofun, rfl⟩
    | cons first rest ih =>
      obtain ⟨group, stated, bare, text⟩ := SweepLeg.render_row first
      obtain ⟨groups, others, more, lines⟩ := ih (Result.mapM_ok.mpr rest)
      refine ⟨group :: groups, .cons stated others, List.forall_mem_cons.mpr ⟨bare, more⟩, ?_⟩
      rw [List.map_cons, List.map_cons, text, lines]
  obtain ⟨groups, stated, bare, lines⟩ := texts
  refine ⟨groups, stated, ?_⟩
  show "Specify " ++ ("Oxs_UZeeman" ++ ":" ++ "hysteresis") ++ " \x7b\n" ++
    indented [tableText "Hrange" (rows.map renderLine)] ++ "\x7d\n\n" = _
  have deeper : ((fun row => "  " ++ row ++ "\n") ∘ fun group => "  " ++ braced group) =
      fun group => "    " ++ braced group ++ "\n" := by
    funext group
    show "  " ++ ("  " ++ braced group) ++ "\n" = _
    rw [← String.append_assoc]
    rfl
  unfold indented sweepText
  rw [lines, List.flatMap_singleton, linesOf_tableText_braced (by decide) bare, List.map_append,
    List.map_cons, List.map_map, deeper, List.cons_append, String.join_cons, String.join_append]
  refine String.toList_inj.mp ?_
  simp only [String.toList_append, List.append_assoc]
  rfl

namespace Problem

/-- The script of a sweep has the text of its applied field in it. -/
theorem sweep_of_lower (plain : intent.Plain settings) {script : LoweredScript}
    (lowered : problem.lower intent settings platform = .ok script) {legs : List SweepLeg}
    (goal : intent.goal = .sweep legs) :
    ∃ groups before after, List.Forall₂ SweepLeg.Stated legs groups ∧
      script.text = before ++ sweepText groups ++ after := by
  obtain ⟨mesh, energy, magnetisation, drive, -, -, driven, split⟩ := lower_split lowered
  obtain ⟨applied, evolving, entries, swept, -, rfl⟩ := Intent.items_split plain driven
  rcases Intent.appliedItems_cases swept with ⟨-, none⟩ | ⟨legs', rows, goal', written, rfl, -⟩
  · unfold Intent.appliedObjects at none
    rw [goal] at none
    cases none
  · obtain rfl := Goal.sweep.inj (goal.symm.trans goal')
    obtain ⟨groups, stated, text⟩ := render_sweep written
    have member : Item.object "Oxs_UZeeman" "hysteresis" [.table "Hrange" rows] ∈ script.items := by
      rw [split]
      exact List.mem_append_right _ (List.mem_append_left _ (List.mem_append_left _
        List.mem_cons_self))
    obtain ⟨front, back, around⟩ := List.append_of_mem member
    refine ⟨groups, String.join (front.map Item.render), String.join (back.map Item.render),
      stated, ?_⟩
    unfold LoweredScript.text render
    rw [around, List.map_append, String.join_append, List.map_cons, String.join_cons, text,
      String.append_assoc]

/-- The driver of a script without text of the caller always goes with its evolver. The script has
one driver and one object under the name of the evolver, of the classes that the intent and the
torques ask for; the magnetisation is scheduled as this driver has it; and there is an applied field
of a sweep, with one row for each leg, exactly when the intent is a sweep. -/
theorem driver_paired (plain : intent.Plain settings) {script : LoweredScript}
    (lowered : problem.lower intent settings platform = .ok script) :
    ∃ driver evolver, intent.Pairs problem.dynamics driver evolver ∧
      (declaredObjects script.text.toList).filter
          (fun object => driverClasses.contains object.1) = [(driver, "")] ∧
      (declaredObjects script.text.toList).filter (fun object => object.2 == "evolver") =
          [(evolver, "evolver")] ∧
      scheduledOutputs script.text.toList = ["DataTable", driver ++ "::Magnetization"] ∧
      (∀ legs, intent.goal = .sweep legs →
        (declaredObjects script.text.toList).filter (fun object => object.1 == "Oxs_UZeeman") =
            [("Oxs_UZeeman", "hysteresis")] ∧
          (declaredObjects script.text.toList).filter (fun object => object.2 == "hysteresis") =
              [("Oxs_UZeeman", "hysteresis")] ∧
          ∃ groups before after, List.Forall₂ SweepLeg.Stated legs groups ∧
            script.text = before ++ sweepText groups ++ after) ∧
      ((∀ legs, intent.goal ≠ .sweep legs) → ∀ object ∈ declaredObjects script.text.toList,
        object.1 ≠ "Oxs_UZeeman" ∧ object.2 ≠ "hysteresis") := by
  have valid : intent.validate = .ok () := by
    obtain ⟨items, inner, -⟩ := Result.map_ok.mp lowered
    obtain ⟨_, _, rest⟩ := Lowering.bind_ok.mp inner
    obtain ⟨_, accepted, _⟩ := Lowering.bind_ok.mp rest
    exact Result.mapError_ok.mp accepted
  obtain ⟨ofClass, named⟩ := fields_of_lower plain lowered
  refine ⟨_, _, Intent.pairs_of_valid valid problem.dynamics, drivers_of_lower plain lowered,
    evolvers_of_lower plain lowered, scheduledOutputs_of_lower plain lowered, fun legs goal => ?_,
    fun other object member => ?_⟩
  · have field : intent.appliedObjects = [("Oxs_UZeeman", "hysteresis")] := by
      unfold Intent.appliedObjects
      rw [goal]
    rw [ofClass, named, field]
    exact ⟨rfl, rfl, sweep_of_lower plain lowered goal⟩
  · have nothing : intent.appliedObjects = [] := by
      unfold Intent.appliedObjects
      split
      · rename_i legs goal
        exact absurd goal (other legs)
      · rfl
    rw [nothing, List.filter_eq_nil_iff] at ofClass named
    exact ⟨fun same => ofClass object member (beq_iff_eq.mpr same),
      fun same => named object member (beq_iff_eq.mpr same)⟩

/-- A problem with both torques of currents. -/
def driven : Problem :=
  { lone with
    dynamics :=
      [.ofTorque (.slonczewski (.constant 1) (.vector ⟨0, 0, 1⟩) (.constant 0.4) (.constant 2)
        (.constant 0)), .ofTorque (.zhangLi (.constant 1) (.constant 0))] }

/-- A sweep up and down. -/
def upDown : Intent where
  goal := .sweep [⟨[0, 0, 0], [0, 0, 1], 3⟩, ⟨[0, 0, 1], [0, 0, 0], 3⟩]

/-- Of two torques of currents that in the plane chooses the evolver, and a sweep up and down has
two rows in its applied field. -/
theorem driver_paired_driven :
    (∃ script, driven.lower { goal := .evolve 1 1 } {} .unix = .ok script ∧
      (declaredObjects script.text.toList).filter (fun object => object.2 == "evolver") =
        [("Anv_SpinTEvolve", "evolver")]) ∧
    ∃ script, driven.lower upDown {} .unix = .ok script ∧
      ∃ groups before after, groups.length = 2 ∧
        script.text = before ++ sweepText groups ++ after := by
  have accepted : (driven.lower { goal := .evolve 1 1 } {} .unix).toOption.isSome = true := by
    decide
  have swept : (driven.lower upDown {} .unix).toOption.isSome = true := by decide
  obtain ⟨script, kept⟩ := Option.isSome_iff_exists.mp accepted
  obtain ⟨sweep, keptSweep⟩ := Option.isSome_iff_exists.mp swept
  have lowered := Result.ok_of_toOption kept
  have loweredSweep := Result.ok_of_toOption keptSweep
  refine ⟨⟨script, lowered, ?_⟩, sweep, loweredSweep, ?_⟩
  · obtain ⟨driver, evolver, pairs, -, evolvers, -⟩ := driver_paired (.of_default rfl rfl) lowered
    have torque : Dynamics.InPlane driven.dynamics :=
      ⟨_, List.mem_cons_of_mem _ List.mem_cons_self, _, _, rfl⟩
    cases pairs with
    | inPlane => exact evolvers
    | minimise goal => cases goal
    | sweep goal => cases goal
    | given _ chosen => cases chosen
    | polarised _ _ other => exact absurd torque other
    | neither _ _ other => exact absurd torque other
  · obtain ⟨_, _, _, _, _, _, field, -⟩ := driver_paired (.of_default rfl rfl) loweredSweep
    obtain ⟨_, _, groups, before, after, stated, text⟩ := field _ rfl
    exact ⟨groups, before, after, stated.length_eq.symm, text⟩

end Problem

end Micromag
