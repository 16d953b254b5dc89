import Micromag.Document.Intent
import Micromag.Document.Problem
import Micromag.Proofs.Document.Terms

/-!
# Documents of intents and problems are read back
-/

/-!
## Documents of intents stand for them

An attribute is a parameter or text, and no text is a parameter. An evolver without a profile and an
intent of finite numbers are read from their documents however these are stored. What a manifest
keeps of an intent is its document without the driver, so that the intent is read from it once the
driver is named again.
-/

namespace Micromag

open Json Record

/-- An attribute that is stored without loss. -/
def Attribute.Storable : Attribute → Prop
  | .parameter value => value.Storable
  | .text _ => True

/-- The document of an attribute stands for it. -/
theorem Attribute.Storable.standsFor {setting : Attribute} (storable : setting.Storable) :
    setting.toDocument.StandsFor Attribute.ofDocument? setting := by
  cases setting with
  | parameter value =>
    exact ((Parameter.Storable.standsFor storable).map Attribute.parameter).orElse_left _
  | text value =>
    exact ((string_standsFor value).map Attribute.text).orElse_right (refuses_string rfl)

/-- The document of a procedure stands for it. -/
theorem CurrentProcedure.standsFor (procedure : CurrentProcedure) :
    procedure.toDocument.StandsFor CurrentProcedure.ofDocument? procedure := by
  have script := string_standsFor procedure.script
  have name := string_standsFor procedure.name
  have arguments := string_standsFor procedure.arguments
  show (Json.object (present [("script", some (.string procedure.script)),
    ("name", some (.string procedure.name)),
    ("args", some (.string procedure.arguments))])).StandsFor _ _
  refine record_standsFor [.needed "script", .needed "name", .needed "args"]
    ⟨rfl, by decide, by decide⟩ ⟨script.sound_some, name.sound_some, arguments.sound_some⟩ ?_
  rintro stored record found ⟨one, two, three⟩
  simp [CurrentProcedure.ofDocument?, found, needed_of_rel one script, needed_of_rel two name,
    needed_of_rel three arguments]

/-- The name of a kind of evolvers stands for it. -/
theorem EvolverKind.standsFor (kind : EvolverKind) :
    (Json.string kind.name).StandsFor (word? EvolverKind.ofName?) kind := by
  refine word_standsFor ?_
  cases kind <;> decide

/-- An evolver that is stored without loss. -/
structure Evolver.Storable (evolver : Evolver) : Prop where
  /-- The attributes are stored without loss. -/
  attributes : ∀ entry ∈ evolver.attributes.entries, entry.2.Storable
  /-- A profile has no document. -/
  profile : evolver.profile = none
  /-- The time between two values is finite. -/
  timeStep : ∀ x ∈ evolver.timeStep, x.isFinite = true

/-- The document of an evolver stands for it. -/
theorem Evolver.Storable.standsFor {evolver : Evolver} (storable : evolver.Storable) :
    evolver.toDocument.StandsFor Evolver.ofDocument? evolver := by
  obtain ⟨kind, attributes, profile, timeStep, procedure⟩ := evolver
  obtain rfl : profile = none := storable.profile
  have word := kind.standsFor
  have settings : (ofKeyed Attribute.toDocument attributes).StandsFor
      (keyed? Attribute.ofDocument?) attributes :=
    keyed_standsFor fun entry member => (storable.attributes entry member).standsFor
  have step := optionalNumber_standsFor storable.timeStep
  have custom : ∀ p ∈ procedure, p.toDocument.StandsFor CurrentProcedure.ofDocument? p :=
    fun p _ => p.standsFor
  have whole : toDocument ⟨kind, attributes, none, timeStep, procedure⟩ = .object (present
      [("kind", some (.string kind.name)),
        ("attributes", some (.ofKeyed Attribute.toDocument attributes)),
        ("tstep", timeStep.map .number),
        ("tcl_strings", procedure.map CurrentProcedure.toDocument)]) := by
    cases timeStep <;> cases procedure <;> rfl
  rw [whole]
  refine record_standsFor [.needed "kind", .defaulted "attributes", .defaulted "tstep",
    .defaulted "tcl_strings"] ⟨rfl, by decide, by decide⟩
    ⟨word.sound_some, settings.sound_some, sound_map step, sound_map custom⟩ ?_
  rintro stored record found ⟨one, two, three, four⟩
  simp [Evolver.ofDocument?, found, needed_of_rel one word, defaulted_of_some two settings,
    optional_of_rel three step rfl, optional_of_rel four custom rfl]

/-- A leg between finite fields. -/
structure SweepLeg.Storable (leg : SweepLeg) : Prop where
  /-- The field at the start is finite. -/
  start : ∀ x ∈ leg.start, x.isFinite = true
  /-- The field at the end is finite. -/
  stop : ∀ x ∈ leg.stop, x.isFinite = true

/-- The document of a leg stands for it. -/
theorem SweepLeg.Storable.standsFor {leg : SweepLeg} (storable : leg.Storable) :
    leg.toDocument.StandsFor SweepLeg.ofDocument? leg := by
  have start := numbers_standsFor storable.start
  have stop := numbers_standsFor storable.stop
  have count := count_standsFor leg.count
  show (Json.object (present [("h_start", some (.ofList .number leg.start)),
    ("h_end", some (.ofList .number leg.stop)), ("n", some (.ofCount leg.count))])).StandsFor _ _
  refine record_standsFor [.needed "h_start", .needed "h_end", .needed "n"]
    ⟨rfl, by decide, by decide⟩ ⟨start.sound_some, stop.sound_some, count.sound_some⟩ ?_
  rintro stored record found ⟨one, two, three⟩
  simp [SweepLeg.ofDocument?, found, needed_of_rel one start, needed_of_rel two stop,
    needed_of_rel three count]

/-- A goal of finite numbers. -/
def Goal.Storable : Goal → Prop
  | .minimise => True
  | .evolve time _ => time.isFinite = true
  | .sweep legs => ∀ leg ∈ legs, leg.Storable

namespace Intent

/-- An intent that is stored without loss. -/
structure Storable (intent : Intent) : Prop where
  /-- The goal is finite. -/
  goal : intent.goal.Storable
  /-- The evolver is stored without loss. -/
  evolver : ∀ evolver ∈ intent.evolver, evolver.Storable
  /-- The stopping criterion is finite. -/
  stopping : ∀ x ∈ intent.stopping, x.isFinite = true

/-- The fields of an intent besides its driver stand for it, read as one of that driver. -/
theorem Storable.arguments_standsFor {intent : Intent} (storable : intent.Storable) :
    (Json.object intent.arguments).StandsFor (ofDriver? intent.driverTag) intent := by
  obtain ⟨goal, evolver, stopping⟩ := intent
  have means : ∀ e ∈ evolver, e.toDocument.StandsFor Evolver.ofDocument? e :=
    fun e member => (storable.evolver e member).standsFor
  have stop := optionalNumber_standsFor storable.stopping
  cases goal with
  | minimise =>
    have whole : arguments ⟨.minimise, evolver, stopping⟩ =
        present [("stopping_mxHxm", stopping.map .number),
          ("evolver", evolver.map Evolver.toDocument)] := by
      cases evolver <;> cases stopping <;> rfl
    rw [whole]
    refine record_standsFor [.defaulted "stopping_mxHxm", .defaulted "evolver"]
      ⟨rfl, by decide, by decide⟩ ⟨sound_map stop, sound_map means⟩ ?_
    rintro stored record found ⟨one, two⟩
    simp [ofDriver?, driverTag, found, optional_of_rel one stop rfl, optional_of_rel two means rfl]
  | evolve time stages =>
    have whole : arguments ⟨.evolve time stages, evolver, stopping⟩ =
        present [("t", some (.number time)), ("n", some (.ofCount stages)),
          ("evolver", evolver.map Evolver.toDocument),
          ("stopping_dm_dt", stopping.map .number)] := by
      cases evolver <;> cases stopping <;> rfl
    have duration := number_standsFor (show time.isFinite = true from storable.goal)
    have count := count_standsFor stages
    rw [whole]
    refine record_standsFor [.needed "t", .needed "n", .defaulted "evolver",
      .defaulted "stopping_dm_dt"] ⟨rfl, by decide, by decide⟩
      ⟨duration.sound_some, count.sound_some, sound_map means, sound_map stop⟩ ?_
    rintro stored record found ⟨one, two, three, four⟩
    simp [ofDriver?, driverTag, found, needed_of_rel one duration, needed_of_rel two count,
      optional_of_rel three means rfl, optional_of_rel four stop rfl]
  | sweep legs =>
    have whole : arguments ⟨.sweep legs, evolver, stopping⟩ =
        present [("hsteps", some (.ofList SweepLeg.toDocument legs)),
          ("evolver", evolver.map Evolver.toDocument),
          ("stopping_mxHxm", stopping.map .number)] := by
      cases evolver <;> cases stopping <;> rfl
    have steps : (Json.ofList SweepLeg.toDocument legs).StandsFor (list? SweepLeg.ofDocument?)
        legs := list_standsFor fun leg member => (storable.goal leg member).standsFor
    rw [whole]
    refine record_standsFor [.needed "hsteps", .defaulted "evolver", .defaulted "stopping_mxHxm"]
      ⟨rfl, by decide, by decide⟩ ⟨steps.sound_some, sound_map means, sound_map stop⟩ ?_
    rintro stored record found ⟨one, two, three⟩
    simp [ofDriver?, driverTag, found, needed_of_rel one steps, optional_of_rel two means rfl,
      optional_of_rel three stop rfl]

/-- No field of an intent is named like the driver. -/
theorem driver_notMem (intent : Intent) : "driver" ∉ intent.arguments.map (·.1) := by
  obtain ⟨goal, evolver, stopping⟩ := intent
  cases goal <;> cases evolver <;> cases stopping <;> simp [arguments, optionalEntry]

/-- The document of an intent stands for it. -/
theorem Storable.standsFor {intent : Intent} (storable : intent.Storable) :
    intent.toDocument.StandsFor Intent.ofDocument? intent :=
  kind_standsFor intent.driver_notMem storable.arguments_standsFor

end Intent

end Micromag

/-!
## Documents are read back

Problems and their parts, evolvers and intents are read back from their documents: as these are
written, with the entries of every object in the order of their keys, and however else they are
stored. An intent is read back from what a manifest keeps of it once its driver is named again,
wherever that entry is put.
-/

namespace Micromag

open Json Record

/-- A problem before its first drive that is stored without loss. -/
structure Problem.Storable (problem : Problem) : Prop where
  /-- The magnetisation is finite. -/
  m : problem.m.Storable
  /-- The energy is stored without loss. -/
  energy : problem.energy.Storable
  /-- The dynamics are stored without loss. -/
  dynamics : problem.dynamics.Storable
  /-- No drive succeeded. -/
  fresh : problem.driveNumber = 0
  /-- There is no table. -/
  untold : problem.table = none

/-- The document of a problem stands for it. -/
theorem Problem.Storable.standsFor {problem : Problem} (storable : problem.Storable) :
    problem.toDocument.StandsFor Problem.ofDocument? problem := by
  obtain ⟨name, m, energy, dynamics, driveNumber, table⟩ := problem
  obtain rfl : driveNumber = 0 := storable.fresh
  obtain rfl : table = none := storable.untold
  have label := string_standsFor name
  have field := storable.m.standsFor
  have terms := storable.energy.standsFor
  have torques := storable.dynamics.standsFor
  show (Json.object (present [("name", some (.string name)), ("m", some m.toDocument),
    ("energy", some (Energy.toDocument energy)),
    ("dynamics", some (Dynamics.toDocument dynamics))])).StandsFor _ _
  refine record_standsFor [.needed "name", .needed "m", .defaulted "energy", .defaulted "dynamics"]
    ⟨rfl, by decide, by decide⟩
    ⟨label.sound_some, field.sound_some, terms.sound_some, torques.sound_some⟩ ?_
  rintro stored record found ⟨one, two, three, four⟩
  simp [Problem.ofDocument?, found, needed_of_rel one label, needed_of_rel two field,
    defaulted_of_some three terms, defaulted_of_some four torques]

/-- A value is read back from its document. -/
structure ReadsBack {α : Type} (write : α → Json) (read? : Json → Option α) (value : α) :
    Prop where
  /-- It is read from the document as it is written. -/
  written : read? (write value) = some value
  /-- It is read with the entries of every object in the order of their keys. -/
  sorted : read? (write value).sorted = some value
  /-- It is read however the document is stored. -/
  stored : ∀ stored, Stores stored (write value) → read? stored = some value

/-- A value for which its document stands is read back. -/
theorem Json.StandsFor.readsBack {α : Type} {write : α → Json} {read? : Json → Option α}
    {value : α} (stands : (write value).StandsFor read? value) : ReadsBack write read? value :=
  ⟨stands.read _ stands.sound.stores_self, stands.read _ stands.sound.stores_sorted, stands.read⟩

/-- An intent is read from what a manifest keeps of it with the driver named again. -/
theorem Intent.Storable.exists_manifestArguments {intent : Intent} (storable : intent.Storable) :
    ∃ entries, intent.manifestArguments = .object entries ∧
      ∀ complete, complete.Perm (("driver", .string intent.driverTag) :: entries) →
        Intent.ofDocument? (.object complete) = some intent := by
  refine ⟨_, rfl, fun complete same => storable.standsFor.read _ ?_⟩
  obtain ⟨ordered, order, each⟩ := stores_object_iff.mp
    storable.arguments_standsFor.sound.stores_sorted
  exact stores_object_iff.mpr ⟨_, same.trans (order.cons _), .cons ⟨rfl, .string _⟩ each⟩

/-- Problems, energies, dynamics, evolvers, intents, parameters, region maps, fields, meshes and
attributes without infinite numbers, values under the name for everywhere else, profiles or history
are read back from their documents, and intents from what manifests keep of them. -/
theorem documents_read_back :
    (∀ problem : Problem, problem.Storable →
      ReadsBack Problem.toDocument Problem.ofDocument? problem) ∧
    (∀ energy : Energy, energy.Storable → ReadsBack Energy.toDocument Energy.ofDocument? energy) ∧
    (∀ dynamics : Dynamics, dynamics.Storable →
      ReadsBack Dynamics.toDocument Dynamics.ofDocument? dynamics) ∧
    (∀ evolver : Evolver, evolver.Storable →
      ReadsBack Evolver.toDocument Evolver.ofDocument? evolver) ∧
    (∀ intent : Intent, intent.Storable → ReadsBack Intent.toDocument Intent.ofDocument? intent) ∧
    (∀ value : Parameter, value.Storable →
      ReadsBack Parameter.toDocument Parameter.ofDocument? value) ∧
    (∀ map : RegionMap, map.Storable → ReadsBack RegionMap.toDocument RegionMap.ofDocument? map) ∧
    (∀ field : Field Float, field.Storable →
      ReadsBack Field.toDocument Field.ofDocument? field) ∧
    (∀ mesh : Mesh Float, mesh.Storable → ReadsBack Mesh.toDocument Mesh.ofDocument? mesh) ∧
    (∀ setting : Attribute, setting.Storable →
      ReadsBack Attribute.toDocument Attribute.ofDocument? setting) ∧
    (∀ intent : Intent, intent.Storable →
      ∃ entries, intent.manifestArguments = .object entries ∧
        ∀ complete, complete.Perm (("driver", .string intent.driverTag) :: entries) →
          Intent.ofDocument? (.object complete) = some intent) := by
  refine ⟨?_, ?_, ?_, ?_, ?_, ?_, ?_, ?_, ?_, ?_, ?_⟩
  · exact fun _ storable => storable.standsFor.readsBack
  · exact fun _ storable => storable.standsFor.readsBack
  · exact fun _ storable => storable.standsFor.readsBack
  · exact fun _ storable => storable.standsFor.readsBack
  · exact fun _ storable => storable.standsFor.readsBack
  · exact fun _ storable => storable.standsFor.readsBack
  · exact fun _ storable => storable.standsFor.readsBack
  · exact fun _ storable => storable.standsFor.readsBack
  · exact fun _ storable => storable.standsFor.readsBack
  · exact fun _ storable => storable.standsFor.readsBack
  · exact fun _ storable => storable.exists_manifestArguments

/-- A region map whose regions have the names of a field's own entries. -/
def oddRegions : RegionMap where
  values := ⟨[("dim", .scalar 2), ("mesh", .vector ⟨0, 0, 1⟩)], by decide +kernel⟩
  fallback := some (.scalar 1)

/-- A problem with that map, a field as a parameter and a number as another one. -/
def oddProblem : Problem where
  name := "odd"
  m := { mesh := { region := ⟨.fill 0, .fill 1⟩, cell := .fill 1 }, dim := 3, values := [0, 0, 1] }
  energy := [⟨"exchange", .exchange (.perRegion oddRegions)⟩]
  dynamics := [⟨"damping", .damping (.constant 1)⟩]

/-- A sweep with an evolver of which one attribute is text. -/
def oddSweep : Intent where
  goal := .sweep [⟨[0, 0, 0], [0, 0, 1], 2⟩]
  evolver := some { kind := .conjugateGradient,
                    attributes := ⟨[("method", .text "Polak-Ribiere")], by simp⟩ }

/-- A problem, its parts, an evolver and an intent are read back. -/
theorem oddProblem_read_back :
    ReadsBack Problem.toDocument Problem.ofDocument? oddProblem ∧
    ReadsBack Energy.toDocument Energy.ofDocument? oddProblem.energy ∧
    ReadsBack Dynamics.toDocument Dynamics.ofDocument? oddProblem.dynamics ∧
    (∀ evolver ∈ oddSweep.evolver, ReadsBack Evolver.toDocument Evolver.ofDocument? evolver) ∧
    ReadsBack Intent.toDocument Intent.ofDocument? oddSweep ∧
    ReadsBack Parameter.toDocument Parameter.ofDocument? (.field oddProblem.m) ∧
    ReadsBack RegionMap.toDocument RegionMap.ofDocument? oddRegions ∧
    ReadsBack Field.toDocument Field.ofDocument? oddProblem.m ∧
    ReadsBack Mesh.toDocument Mesh.ofDocument? oddProblem.m.mesh ∧
    ReadsBack Attribute.toDocument Attribute.ofDocument? (.text "Polak-Ribiere") ∧
    ∃ entries, oddSweep.manifestArguments = .object entries ∧
      Intent.ofDocument? (.object (("driver", .string "sweep") :: entries)) = some oddSweep := by
  have finite (value : Float) (bounded : value.isFinite = true) :
      (Triple.fill value).Storable := by
    rintro x member
    simp only [Triple.fill, Triple.toList, List.mem_cons, List.not_mem_nil, or_false, or_self] at member
    exact member ▸ bounded
  have mesh : oddProblem.m.mesh.Storable :=
    ⟨⟨finite 0 rfl, finite 1 rfl⟩, finite 1 rfl, fun entry member => (nomatch member)⟩
  have field : oddProblem.m.Storable := ⟨mesh, by decide +kernel⟩
  have map : oddRegions.Storable := by
    refine ⟨List.forall_mem_cons.mpr ⟨rfl, List.forall_mem_singleton.mpr ?_⟩, ?_, by decide⟩
    · show Triple.Storable _
      unfold Triple.Storable
      decide +kernel
    · rintro _ ⟨⟩
      exact (rfl : (1 : Float).isFinite = true)
  have energy : Energy.Storable oddProblem.energy := List.forall_mem_singleton.mpr map
  have dynamics : Dynamics.Storable oddProblem.dynamics :=
    List.forall_mem_singleton.mpr (rfl : (1 : Float).isFinite = true)
  have evolver : ∀ evolver ∈ oddSweep.evolver, evolver.Storable := by
    rintro _ ⟨⟩
    exact ⟨List.forall_mem_singleton.mpr trivial, rfl, fun x member => (nomatch member)⟩
  have intent : oddSweep.Storable := by
    refine ⟨List.forall_mem_singleton.mpr ⟨?_, ?_⟩, evolver, fun x member => (nomatch member)⟩
    · decide +kernel
    · decide +kernel
  obtain ⟨problems, energies, torques, evolvers, intents, parameters, maps, fields, meshes,
    settings, manifests⟩ := documents_read_back
  refine ⟨problems _ ⟨field, energy, dynamics, rfl, rfl⟩, energies _ energy, torques _ dynamics,
    fun _ member => evolvers _ (evolver _ member), intents _ intent, parameters _ field,
    maps _ map, fields _ field, meshes _ mesh, settings _ trivial, ?_⟩
  obtain ⟨entries, kept, read⟩ := manifests _ intent
  exact ⟨entries, kept, read _ (.refl _)⟩

end Micromag
