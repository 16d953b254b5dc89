import Micromag.Drive.Compute
import Micromag.Proofs.Lowering.Columns
import Micromag.Proofs.Lowering.Names

/-!
# Identifiers of derived quantities

A quantity is asked of the object of a term or of the evolver. Its identifier names an object that
the script of the computation declares, the script asks for it unless it is in the table anyway, and
an energy has a short name.
-/

namespace Micromag

open Script Table

variable {problem : Problem} {intent : Intent} {settings : ScriptSettings} {platform : Platform}
  {site : Site} {items : List Item}

/-- The name of the output of a quantity of a target. -/
def Quantity.output (quantity : Quantity) : Target → String
  | .total => quantity.totalOutput
  | .term _ => quantity.termOutput

/-- The name of an output has no colon, is one line and holds no quotation mark. -/
theorem Quantity.notMem_output (quantity : Quantity) (target : Target) :
    ∀ c ∈ [':', '\n', '"'], c ∉ (quantity.output target).toList := by
  cases target with
  | total => cases quantity <;> decide
  | term name =>
    show ∀ c ∈ [':', '\n', '"'], c ∉ quantity.termOutput.toList
    cases quantity <;> decide

/-- The lines that a caller adds stand behind everything else. -/
def ScriptSettings.addition (settings : ScriptSettings) : List Item :=
  (settings.directive.map fun text => Item.verbatim (endLine text)).toList

/-- The items of a drive with added lines are those without and the lines. -/
theorem Intent.items_of_directive {dynamics : Dynamics}
    (lowered : (intent.items site dynamics settings).result = .ok items) :
    ∃ bare, (intent.items site dynamics { settings with directive := none }).result = .ok bare ∧
      items = bare ++ settings.addition := by
  obtain ⟨evolver, bound, lowered⟩ := Lowering.bind_ok.mp lowered
  obtain ⟨extras, fixed, lowered⟩ := Lowering.bind_ok.mp lowered
  obtain ⟨applied, swept, lowered⟩ := Lowering.bind_ok.mp lowered
  obtain ⟨evolving, moved, lowered⟩ := Lowering.bind_ok.mp lowered
  obtain ⟨driver, driven, same⟩ := Lowering.bind_ok.mp lowered
  rw [← Lowering.pure_ok.mp same]
  refine ⟨_, Lowering.bind_ok.mpr ⟨evolver, bound, Lowering.bind_ok.mpr ⟨extras, fixed,
    Lowering.bind_ok.mpr ⟨applied, swept, Lowering.bind_ok.mpr ⟨evolving, moved,
      Lowering.bind_ok.mpr ⟨driver, driven, Lowering.pure_ok.mpr rfl⟩⟩⟩⟩⟩, ?_⟩
  unfold outputItems ScriptSettings.addition
  rw [Option.map_none, Option.toList_none, List.append_nil]
  simp only [List.append_assoc]
  rfl

namespace Problem

/-- The script of a problem with added lines is that without and the lines. -/
theorem lower_of_directive {script : LoweredScript}
    (lowered : problem.lower intent settings platform = .ok script) :
    ∃ bare, problem.lower intent { settings with directive := none } platform = .ok bare ∧
      script.items = bare.items ++ settings.addition := by
  obtain ⟨items, inner, rfl⟩ := Result.map_ok.mp lowered
  obtain ⟨_, valid, lowered⟩ := Lowering.bind_ok.mp inner
  obtain ⟨_, intended, lowered⟩ := Lowering.bind_ok.mp lowered
  obtain ⟨mesh, divided, lowered⟩ := Lowering.bind_ok.mp lowered
  obtain ⟨energy, contributed, lowered⟩ := Lowering.bind_ok.mp lowered
  obtain ⟨magnetisation, given, lowered⟩ := Lowering.bind_ok.mp lowered
  obtain ⟨drive, driven, same⟩ := Lowering.bind_ok.mp lowered
  obtain ⟨bare, plainly, rfl⟩ := Intent.items_of_directive driven
  refine ⟨⟨_, _⟩, Result.map_ok.mpr ⟨_, Lowering.bind_ok.mpr ⟨_, valid,
    Lowering.bind_ok.mpr ⟨_, intended, Lowering.bind_ok.mpr ⟨mesh, divided,
      Lowering.bind_ok.mpr ⟨energy, contributed, Lowering.bind_ok.mpr ⟨magnetisation, given,
        Lowering.bind_ok.mpr ⟨bare, plainly, Lowering.pure_ok.mpr rfl⟩⟩⟩⟩⟩⟩, rfl⟩, ?_⟩
  rw [← Lowering.pure_ok.mp same]
  simp only [List.append_assoc, List.cons_append]

/-- The object that reports the quantities of a target, with the short name of its energy: the
evolver reports the total, and a term is reported by its own object, behind objects that serve. -/
inductive Reporter (problem : Problem) (platform : Platform) :
    Target → String × String → String → Prop where
  /-- The evolver. -/
  | total : Reporter problem platform .total ("Oxs_RungeKuttaEvolve", "evolver") "E"
  /-- The object of a term. -/
  | term {term : Term} {className : String} {front : List Item} {entries : List Script.Entry}
      (member : term ∈ problem.energy)
      (lowered : (term.items ⟨problem.mesh, platform⟩).result =
        .ok (front ++ [.object className term.name entries]))
      (serves : ∀ item ∈ front, item.Serves) (apart : term.name ∉ instances front)
      (own : term.interaction.className? platform = some className) :
      Reporter problem platform (.term term.name) (className, term.name)
        ("E_" ++ term.interaction.defaultName)

/-- The label of the items of a term is that of its own object. -/
theorem labelOf?_of_serving {front : List Item} {className name : String}
    {entries : List Script.Entry} (identifier : Text.isIdentifier name = true)
    (apart : name ∉ instances front) :
    labelOf? (front ++ [.object className name entries]) name =
      some (className ++ ":" ++ name) := by
  have solid : name.toList.any Text.isBlank = false := by
    rw [List.any_eq_false]
    intro c member
    rw [Text.isBlank_of_isNameChar (Text.isNameChar_of_mem identifier member)]
    exact Bool.false_ne_true
  have others : ∀ block ∈ blocks front, block.label? name = none := by
    intro block member
    unfold Block.label?
    refine if_neg fun labelled => apart ?_
    have named := of_decide_eq_true (Bool.and_eq_true _ _ ▸ labelled).1
    exact List.mem_filterMap.mpr ⟨block, member, named⟩
  have own : (Block.mk className (some name) entries).label? name =
      some (className ++ ":" ++ name) := by
    unfold Block.label?
    rw [solid]
    simp
  have parts : blocks (front ++ [.object className name entries]) =
      blocks front ++ [⟨className, some name, entries⟩] := List.filterMap_append
  unfold labelOf?
  rw [parts, List.findSome?_append, List.findSome?_eq_none_iff.mpr others, Option.none_or,
    List.findSome?_singleton, own]

/-- The items of a term of an accepted problem are its own object behind objects that serve and
bear other names. -/
theorem Accepted.items_of_term (accepted : problem.Accepted) {term : Term}
    (member : term ∈ problem.energy)
    (lowered : (term.items ⟨problem.mesh, platform⟩).result = .ok items) :
    ∃ front className entries, items = front ++ [.object className term.name entries] ∧
      (∀ item ∈ front, item.Serves) ∧ term.name ∉ instances front ∧
        term.interaction.className? platform = some className := by
  have identifier := (accepted.usable term member).1
  have named : Site.Named ⟨problem.mesh, platform⟩ := fun _ region =>
    Mesh.isIdentifier_of_mem_regionNames accepted.mesh region
  obtain ⟨className, own, front, entries, rfl, serves⟩ := Term.items_serving identifier lowered
  have emits := Term.items_emits named (List.mem_singleton_self "main_atlas") identifier lowered
  have names : instances front = term.helperNames := by
    have all := emits.instances
    rw [instances_append] at all
    exact List.append_cancel_right all
  refine ⟨front, className, entries, rfl, serves, ?_, own⟩
  rw [names]
  exact term.name_notMem_helperNames

/-- An identifier is that of a quantity of the object that reports the target. -/
theorem reporter_of_outputIdentifier (accepted : problem.Accepted) {target : Target}
    {quantity : Quantity} {identifier : String}
    (asked : problem.outputIdentifier target quantity platform = .ok identifier) :
    ∃ object short, problem.Reporter platform target object short ∧
      identifier = columnName object (quantity.output target) := by
  cases target with
  | total =>
    rw [← Except.ok.inj asked]
    exact ⟨_, _, .total, rfl⟩
  | term name =>
    obtain ⟨label, source, same⟩ := Result.bind_ok.mp asked
    rw [← Except.ok.inj same]
    unfold termSource at source
    cases found : problem.energy.get? name with
    | none =>
      rw [found] at source
      cases source
    | some term =>
      rw [found] at source
      have member : term ∈ problem.energy := List.mem_of_find?_eq_some found
      have named : term.name = name := by simpa using List.find?_some found
      obtain ⟨items, lowered, source⟩ := Result.bind_ok.mp source
      obtain ⟨front, className, entries, rfl, serves, apart, own⟩ :=
        accepted.items_of_term member lowered
      subst named
      rw [labelOf?_of_serving (accepted.usable term member).1 apart] at source
      rw [← Except.ok.inj source]
      exact ⟨_, _, .term member lowered serves apart own, rfl⟩

namespace Reporter

variable {target : Target} {object : String × String} {short : String}

/-- The object that reports a target is declared by the script of a computation. -/
theorem declared (reporter : problem.Reporter platform target object short)
    (plain : Compute.intent.Plain settings) {script : LoweredScript}
    (lowered : problem.lower Compute.intent settings platform = .ok script) :
    object ∈ declaredObjects script.text.toList := by
  obtain ⟨terms, drive, driven, subset⟩ := parts_of_lower lowered
  rw [declaredObjects_of_lower plain lowered]
  cases reporter with
  | total =>
    obtain ⟨entries, member⟩ := Intent.evolver_mem_items plain driven
    exact List.mem_map.mpr ⟨_, mem_blocks.mpr (subset member), rfl⟩
  | term member own serves apart ofClass =>
    obtain ⟨items, again, subset⟩ := terms _ member
    rw [own] at again
    rw [← Except.ok.inj again] at subset
    have inside := subset (List.mem_append_right _ (List.mem_singleton_self _))
    exact List.mem_map.mpr ⟨_, mem_blocks.mpr inside, rfl⟩

/-- The object has an instance. -/
theorem named (reporter : problem.Reporter platform target object short)
    (accepted : problem.Accepted) : object.2 ≠ "" := by
  cases reporter with
  | total => decide
  | @term term _ _ _ member =>
    intro empty
    have empty : term.name = "" := empty
    have identifier := (accepted.usable term member).1
    rw [empty] at identifier
    exact absurd identifier (by decide)

/-- The identifier of an energy has its short name. -/
theorem shortName?_energy (reporter : problem.Reporter platform target object short) :
    shortName? (columnName object (Quantity.energy.output target)) = some short := by
  cases reporter with
  | total => decide
  | @term term className front entries member lowered serves apart own =>
    have grouped := Interaction.group_of_className own
    have all : ∀ className ∈ energyGroups.map (·.1), ':' ∉ className.toList ∧
        evolverClasses.contains className = false ∧ driverClasses.contains className = false := by
      decide +kernel
    obtain ⟨noColon, notEvolver, notDriver⟩ := all className (mem_groups grouped).1
    show (ColumnName.ofText (columnName (className, term.name) "Energy")).short? = _
    rw [ofText_columnName noColon (show ':' ∉ "Energy".toList by decide)]
    unfold ColumnName.short?
    rw [notEvolver, notDriver, grouped]
    rfl

end Reporter

/-- The intent of a computation has no text of the caller. -/
theorem compute_plain : Compute.intent.Plain { settings with directive := none } := by
  refine ⟨fun evolver member => ?_, rfl⟩
  rw [← Option.some.inj member]
  exact ⟨rfl, nofun⟩

/-- The line that asks for an output has it between quotation marks. -/
theorem toList_directive (identifier : String) : (Compute.directive identifier).toList =
    "Schedule \"".toList ++ (identifier.toList ++ '"' :: " archive Step 1".toList) := by
  unfold Compute.directive
  simp only [String.toList_append, List.append_assoc]
  rfl

/-- The line that asks for an output ends. -/
theorem endLine_directive (identifier : String) :
    endLine (Compute.directive identifier) = Compute.directive identifier ++ "\n" := by
  have last : (Compute.directive identifier).toList.getLast? = some '1' :=
    getLast?_toList_append (by decide)
  unfold endLine
  rw [last]
  exact if_neg (by decide)

/-- The line that asks for an output is level if the output is. -/
theorem level_directive {identifier : String} (one : '\n' ∉ identifier.toList) :
    (Item.verbatim (Compute.directive identifier ++ "\n")).Level := by
  have start : '\n' ∉ "Schedule \"".toList := by decide
  have stop : '\n' ∉ '"' :: " archive Step 1".toList := by decide
  refine ⟨(Compute.directive identifier).toList, ?_, String.toList_append⟩
  rw [toList_directive, List.mem_append, List.mem_append]
  exact not_or.mpr ⟨start, not_or.mpr ⟨one, stop⟩⟩

/-- The first line of the line that asks for an output. -/
theorem headline_directive (identifier : String) :
    (Item.verbatim (Compute.directive identifier ++ "\n")).headline =
      (Compute.directive identifier).toList := by
  show (Compute.directive identifier ++ "\n").toList.dropLast = _
  rw [String.toList_append]
  exact List.dropLast_concat

/-- What a computation adds to its script reads as a line that asks for the output, unless the
quantity is an energy. -/
theorem addition_computing {quantity : Quantity} {identifier : String} :
    (Compute.settingsFor settings quantity identifier).addition =
      if quantity = .energy then []
      else [.verbatim (Compute.directive identifier ++ "\n")] := by
  rw [← endLine_directive]
  cases quantity <;> rfl

/-- The outputs of the script of a computation without the added line have no instance. -/
theorem output_notMem {script : LoweredScript} {identifier : String}
    (lowered : problem.lower Compute.intent { settings with directive := none } platform =
      .ok script)
    (named : (ColumnName.ofText identifier).instanceName ≠ "") :
    identifier ∉ scheduledOutputs script.text.toList := by
  have level := level_of_lower compute_plain lowered
  unfold LoweredScript.text
  rw [scheduledOutputs_render (fun item member => (level item member).1)
    fun text member => (level _ member).2 text rfl]
  intro scheduled
  obtain ⟨item, member, asks⟩ := List.mem_filterMap.mp scheduled
  cases lower_placed compute_plain lowered item member with
  | options => cases asks
  | serving serves =>
    cases item with
    | schedule => exact absurd serves not_false
    | options | block | procedure | destination | blank | verbatim => cases asks
  | computing => cases asks
  | output outputs =>
    unfold Intent.outputItems at outputs
    rw [Option.map_none, Option.toList_none, List.append_nil] at outputs
    rcases List.mem_append.mp outputs with outputs | outputs
    · split at outputs
      · rw [List.mem_singleton.mp outputs] at asks
        cases asks
      · exact absurd outputs List.not_mem_nil
    · simp only [List.mem_cons, List.not_mem_nil, or_false] at outputs
      rcases outputs with rfl | rfl | rfl | rfl | rfl
      · cases asks
      · cases asks
      · cases asks
      · rw [← Option.some.inj asks] at named
        exact named (by decide)
      · rw [← Option.some.inj asks] at named
        exact named (by decide)

/-- A character that stands neither in names nor in an output is not in the name of a column. -/
theorem notMem_columnName {object : String × String} {output : String} {c : Char}
    (named : ∀ part ∈ [object.1, object.2], ∀ c ∈ part.toList, Text.isNameChar c = true)
    (separates : Text.isNameChar c = false) (notColon : c ≠ ':') (apart : c ∉ output.toList) :
    c ∉ (columnName object output).toList := by
  have clear (part : String) (among : part ∈ [object.1, object.2]) : c ∉ part.toList := by
    intro member
    rw [named part among c member] at separates
    cases separates
  have first := clear object.1 List.mem_cons_self
  have second := clear object.2 (List.mem_cons_of_mem _ List.mem_cons_self)
  unfold columnName
  simp [String.toList_append, first, second, apart, notColon]

/-- What a selective reader finds in a script with added lines is what it finds in the script
without them and what it finds in them. -/
theorem readings_of_directive {α : Type} {read : List Char → Option α} (selective : Selective read)
    {script bare : LoweredScript} (level : ∀ item ∈ bare.items, item.Level)
    (added : ∀ item ∈ settings.addition, item.Level)
    (items : script.items = bare.items ++ settings.addition) :
    readings read script.text.toList = readings read bare.text.toList ++
      settings.addition.filterMap fun item => read item.headline := by
  unfold LoweredScript.text
  rw [items, selective.readings_render (List.forall_mem_append.mpr ⟨level, added⟩),
    selective.readings_render level, List.filterMap_append]

/-- The identifier that a computation asks for is that of an object that its script declares: the
evolver for the total, and the own object of a term. The script asks for it once if the quantity is
a field, and not at all for an energy, which has a short name in the table. -/
theorem outputIdentifier_declared {target : Target} {quantity : Quantity} {identifier : String}
    (asked : problem.outputIdentifier target quantity platform = .ok identifier)
    {script : LoweredScript} (lowered : problem.lower Compute.intent
      (Compute.settingsFor settings quantity identifier) platform = .ok script) :
    ∃ object short, problem.Reporter platform target object short ∧
      identifier = columnName object (quantity.output target) ∧
      object ∈ declaredObjects script.text.toList ∧
      (scheduledOutputs script.text.toList).count identifier =
        (if quantity = .energy then 0 else 1) ∧
      (quantity = .energy → shortName? identifier = some short) := by
  obtain ⟨bare, plainly, items⟩ := lower_of_directive lowered
  have accepted := (lower_emits compute_plain plainly).1
  obtain ⟨object, short, reporter, same⟩ := reporter_of_outputIdentifier accepted asked
  have declared := reporter.declared compute_plain plainly
  have clear {c : Char} (separates : Text.isNameChar c = false) (notColon : c ≠ ':')
      (apart : c ∉ (quantity.output target).toList) : c ∉ identifier.toList :=
    same ▸ notMem_columnName (object_of_lower compute_plain plainly declared).1 separates notColon
      apart
  have outputs := quantity.notMem_output target
  have one : '\n' ∉ identifier.toList := clear (by decide) (by decide) (outputs _ (by decide))
  have unquoted : '"' ∉ identifier.toList := clear (by decide) (by decide) (outputs _ (by decide))
  have level := fun item member => (level_of_lower compute_plain plainly item member).1
  have added : ∀ item ∈ (Compute.settingsFor settings quantity identifier).addition,
      item.Level := by
    rw [addition_computing]
    split
    · exact nofun
    · exact List.forall_mem_singleton.mpr (level_directive one)
  have instanced : (ColumnName.ofText identifier).instanceName ≠ "" := by
    have ofClass := (tellable_of_lower compute_plain plainly).noColon object declared
    rw [same, ofText_columnName ofClass.1 (outputs _ (by decide))]
    exact reporter.named accepted
  have absent := output_notMem plainly instanced
  refine ⟨object, short, reporter, same, ?_, ?_, ?_⟩
  · unfold declaredObjects at declared ⊢
    rw [readings_of_directive selective_objectOfLine? level added items]
    exact List.mem_append_left _ declared
  · unfold scheduledOutputs at absent ⊢
    rw [readings_of_directive selective_outputOfLine? level added items, List.count_append,
      List.count_eq_zero.mpr absent, addition_computing]
    by_cases energy : quantity = .energy
    · rw [if_pos energy, if_pos energy]
      rfl
    · have asks : outputOfLine? (Item.verbatim (Compute.directive identifier ++ "\n")).headline =
          some identifier := by
        rw [headline_directive, toList_directive, outputOfLine?_quoted unquoted,
          String.ofList_toList]
      rw [if_neg energy, if_neg energy, List.filterMap_cons, asks]
      simp
  · rintro rfl
    rw [same]
    exact reporter.shortName?_energy

/-- The field of one of two applied fields is asked for once, of an object that is declared. -/
theorem near_field_declared :
    ∃ script object, twoFields.lower Compute.intent
        (Compute.settingsFor {} .effectiveField "Oxs_FixedZeeman:near:Field") .unix = .ok script ∧
      "Oxs_FixedZeeman:near:Field" = columnName object "Field" ∧
      object ∈ declaredObjects script.text.toList ∧
      (scheduledOutputs script.text.toList).count "Oxs_FixedZeeman:near:Field" = 1 := by
  have found : (twoFields.outputIdentifier (.term "near") .effectiveField .unix).toOption =
      some "Oxs_FixedZeeman:near:Field" := by
    decide +kernel
  have accepted : (twoFields.lower Compute.intent (Compute.settingsFor {} .effectiveField
      "Oxs_FixedZeeman:near:Field") .unix).toOption.isSome = true := by
    decide +kernel
  obtain ⟨script, kept⟩ := Option.isSome_iff_exists.mp accepted
  have lowered := Result.ok_of_toOption kept
  obtain ⟨object, short, -, same, declared, once, -⟩ :=
    outputIdentifier_declared (Result.ok_of_toOption found) lowered
  exact ⟨script, object, lowered, same, declared, once⟩

end Problem

end Micromag
