import Micromag.Proofs.Lowering.Formation

/-!
# What an evolver lets through

The list of attributes of its kind is a gate: what is written for an evolver depends on the
attributes in the list and on no other, which need not even make sense. The torques of a problem are
bound to attributes that the evolver of a minimum does not accept, so that they do not matter to it.
-/

namespace Micromag

open Script

variable {site : Site} {name : String}

namespace Evolver

variable {evolver other third : Evolver} {dynamics : Dynamics}

/-! ## Attributes that are not let through -/

/-- Whether two evolvers have all in common but attributes outside of a list. -/
structure AgreesOn (evolver other : Evolver) (names : List String) : Prop where
  /-- The kind. -/
  kind : other.kind = evolver.kind
  /-- The attributes in the list. -/
  attributes : ∀ name ∈ names, other.attributes.get? name = evolver.attributes.get? name
  /-- The profile of the current. -/
  profile : other.profile = evolver.profile
  /-- The step of the profile. -/
  timeStep : other.timeStep = evolver.timeStep
  /-- The procedure of the current. -/
  procedure : other.procedure = evolver.procedure

/-- An evolver has all in common with itself. -/
theorem AgreesOn.refl (evolver : Evolver) (names : List String) : evolver.AgreesOn evolver names :=
  ⟨rfl, fun _ _ => rfl, rfl, rfl, rfl⟩

/-- To have all in common is mutual. -/
theorem AgreesOn.symm {names : List String} (agrees : evolver.AgreesOn other names) :
    other.AgreesOn evolver names :=
  ⟨agrees.kind.symm, fun name member => (agrees.attributes name member).symm,
    agrees.profile.symm, agrees.timeStep.symm, agrees.procedure.symm⟩

/-- What is common is handed on. -/
theorem AgreesOn.trans {names : List String} (agrees : evolver.AgreesOn other names)
    (further : other.AgreesOn third names) : evolver.AgreesOn third names :=
  ⟨further.kind.trans agrees.kind,
    fun name member => (further.attributes name member).trans (agrees.attributes name member),
    further.profile.trans agrees.profile, further.timeStep.trans agrees.timeStep,
    further.procedure.trans agrees.procedure⟩

/-- The procedure of a current does not depend on attributes. -/
theorem AgreesOn.profileItems {names : List String} (agrees : evolver.AgreesOn other names)
    (duration : Option Float) : other.profileItems duration = evolver.profileItems duration := by
  unfold Evolver.profileItems hasProfile currentProcedure
  rw [agrees.kind, agrees.profile, agrees.timeStep, agrees.procedure]

/-- Attributes that are in common are lowered alike. -/
theorem AgreesOn.lowerAttributes {names : List String} (agrees : evolver.AgreesOn other names)
    (site : Site) (extras : Extras) :
    other.lowerAttributes site extras names = evolver.lowerAttributes site extras names := by
  obtain ⟨-, attributes, -, -, -⟩ := agrees
  induction names with
  | nil => rfl
  | cons name rest ih =>
    have first : other.lowerAttribute site extras name =
        evolver.lowerAttribute site extras name := by
      unfold lowerAttribute
      rw [attributes name List.mem_cons_self]
    unfold Evolver.lowerAttributes
    rw [first, ih fun name member => attributes name (List.mem_cons_of_mem _ member)]

/-- Evolvers that have the accepted attributes in common are lowered alike, to items, to a fault and
to field files. -/
theorem AgreesOn.items (agrees : evolver.AgreesOn other evolver.kind.allowed) (site : Site)
    (extras : Extras) (duration : Option Float) :
    other.items site extras duration = evolver.items site extras duration := by
  unfold Evolver.items
  rw [agrees.profileItems duration, agrees.kind]
  congr
  funext ⟨procedures, profile⟩
  dsimp only
  rw [agrees.lowerAttributes]

/-! ## Attributes that are let through -/

/-- The words that a current which changes in time gives: the name of its procedure and the
arguments. -/
def currentWords (evolver : Evolver) : Extras :=
  match evolver.kind.profiled?, evolver.procedure, evolver.profile with
  | some current, some given, _ =>
    [(current ++ "_profile", .text given.name), (current ++ "_profile_args", .text given.arguments)]
  | some current, none, some _ =>
    [(current ++ "_profile", .text profileProcedure),
      (current ++ "_profile_args", .text "total_time")]
  | _, _, _ => []

/-- A current gives its words, if the evolver has a current. -/
theorem words_of_profileItems {duration : Option Float} {items : List Item} {words : Extras}
    (lowered : evolver.profileItems duration = .ok (items, words)) :
    words = evolver.currentWords := by
  unfold profileItems at lowered
  unfold currentWords
  cases changes : evolver.hasProfile with
  | false =>
    rw [changes] at lowered
    rw [← (Prod.mk.inj (Except.ok.inj lowered)).2]
    obtain ⟨profile, procedure⟩ := Bool.or_eq_false_iff.mp changes
    rw [Option.isSome_eq_false_iff, Option.isNone_iff_eq_none] at profile procedure
    rw [profile, procedure]
    cases evolver.kind.profiled? <;> rfl
  | true =>
    rw [changes] at lowered
    cases kind : evolver.kind.profiled? with
    | none =>
      rw [kind] at lowered
      cases lowered
    | some current =>
      rw [kind] at lowered
      obtain ⟨found, inner, same⟩ := Result.bind_ok.mp lowered
      unfold currentProcedure at inner
      split at inner
      · rename_i noProcedure noProfile
        rw [← Except.ok.inj inner] at same
        rw [noProcedure, noProfile]
        exact (Prod.mk.inj (Except.ok.inj same)).2.symm
      · rename_i given _ procedure
        rw [← Except.ok.inj inner] at same
        rw [procedure]
        exact (Prod.mk.inj (Except.ok.inj same)).2.symm
      · rename_i factor noProcedure profile
        obtain ⟨table, _, tabulated⟩ := Result.bind_ok.mp inner
        rw [← Except.ok.inj tabulated] at same
        rw [noProcedure, profile]
        exact (Prod.mk.inj (Except.ok.inj same)).2.symm

/-- The words that stand in place of attributes: those of the current and those that are given. -/
def words (evolver : Evolver) (extras : Extras) : Extras := evolver.currentWords ++ extras

/-- Whether there is something to write for an attribute. -/
def sets (evolver : Evolver) (words : Extras) (name : String) : Bool :=
  (words.lookup name).isSome || evolver.attributes.contains name

/-- What is written for an attribute. -/
inductive Writes (evolver : Evolver) (site : Site) (words : Extras) (name : String) :
    Script.Entry → Prop where
  /-- A word in place of the attribute. -/
  | word {word : Word} (found : words.lookup name = some word) :
      Writes evolver site words name (.setting name word)
  /-- The text of the attribute as it is. -/
  | text {text : String} (free : words.lookup name = none)
      (found : evolver.attributes.get? name = some (.text text)) :
      Writes evolver site words name (.setting name (.text text))
  /-- The word of a parameter. -/
  | parameter {value : Parameter} {lowered : LoweredParameter} (free : words.lookup name = none)
      (found : evolver.attributes.get? name = some (.parameter value))
      (lowers :
        (value.lower (attributeArity name) site ("evolver_" ++ name)).result = .ok lowered) :
      Writes evolver site words name (.setting name lowered.token)

/-- What is lowered for an attribute is written, and nothing is lowered for one without value. -/
theorem writes_of_lowerAttribute {words : Extras} {result : Option LoweredParameter}
    (lowered : (evolver.lowerAttribute site words name).result = .ok result) :
    match result with
    | none => evolver.sets words name = false
    | some result => evolver.sets words name = true ∧
      Writes evolver site words name (.setting name result.token) := by
  unfold lowerAttribute at lowered
  unfold sets Keyed.contains
  cases given : words.lookup name with
  | some word =>
    rw [given] at lowered
    obtain rfl := Lowering.pure_ok.mp lowered
    exact ⟨rfl, .word given⟩
  | none =>
    rw [given] at lowered
    cases found : evolver.attributes.get? name with
    | none =>
      rw [found] at lowered
      obtain rfl := Lowering.pure_ok.mp lowered
      rfl
    | some value =>
      rw [found] at lowered
      obtain ⟨parameter, inner, same⟩ := Lowering.bind_ok.mp lowered
      obtain rfl := Lowering.pure_ok.mp same
      refine ⟨rfl, ?_⟩
      cases value with
      | text text =>
        rw [← Lowering.pure_ok.mp inner]
        exact .text given found
      | parameter value => exact .parameter given found inner

/-- One entry is written for every attribute that has something to write, in order. -/
theorem writes_of_lowerAttributes {words : Extras} {names : List String} {items : List Item}
    {entries : List Script.Entry}
    (lowered : (evolver.lowerAttributes site words names).result = .ok (items, entries)) :
    List.Forall₂ (evolver.Writes site words) (names.filter (evolver.sets words)) entries := by
  induction names generalizing items entries with
  | nil =>
    obtain ⟨rfl, rfl⟩ := Prod.mk.inj (Lowering.pure_ok.mp lowered)
    exact .nil
  | cons name rest ih =>
    obtain ⟨value, first, lowered⟩ := Lowering.bind_ok.mp lowered
    obtain ⟨⟨laterItems, laterEntries⟩, later, same⟩ := Lowering.bind_ok.mp lowered
    have head := writes_of_lowerAttribute first
    cases value with
    | none =>
      obtain ⟨rfl, rfl⟩ := Prod.mk.inj (Lowering.pure_ok.mp same)
      rw [List.filter_cons_of_neg (by rw [head]; exact Bool.false_ne_true)]
      exact ih later
    | some result =>
      obtain ⟨rfl, rfl⟩ := Prod.mk.inj (Lowering.pure_ok.mp same)
      rw [List.filter_cons_of_pos head.1]
      exact .cons head.2 (ih later)

/-- The items of an evolver end in a block with one entry for each attribute that the kind accepts
and that has something to write. -/
theorem writes_of_items {extras : Extras} {duration : Option Float} {items : List Item}
    (lowered : (evolver.items site extras duration).result = .ok items) :
    ∃ front entries, items = front ++ [.object evolver.kind.className "evolver" entries] ∧
      List.Forall₂ (evolver.Writes site (evolver.words extras))
        (evolver.kind.allowed.filter (evolver.sets (evolver.words extras))) entries := by
  obtain ⟨⟨procedures, profile⟩, first, lowered⟩ := Lowering.bind_ok.mp lowered
  obtain ⟨⟨fields, entries⟩, second, same⟩ := Lowering.bind_ok.mp lowered
  have current := words_of_profileItems first
  rw [current] at second
  exact ⟨_, entries, (Lowering.pure_ok.mp same).symm, writes_of_lowerAttributes second⟩

/-- Whether all that is written as the caller has it stays in one line. -/
structure OneLine (evolver : Evolver) (words : Extras) : Prop where
  /-- Texts of accepted attributes have no line feed. -/
  attributes : ∀ name ∈ evolver.kind.allowed, ∀ text,
    evolver.attributes.get? name = some (.text text) → '\n' ∉ text.toList
  /-- Words in place of attributes have none. -/
  words : ∀ entry ∈ words, '\n' ∉ entry.2.render.toList

/-- What is written for an accepted attribute is one line. -/
theorem Writes.linesOf {words : Extras} {entry : Script.Entry} (oneLine : evolver.OneLine words)
    (allowed : name ∈ evolver.kind.allowed) (writes : evolver.Writes site words name entry) :
    Text.linesOf entry.render = [entry.render] := by
  have bare := isBare_of_isNameChar (named_of_allowed allowed)
  cases writes with
  | word found => exact linesOf_setting bare (oneLine.words _ (Keyed.mem_of_lookup found))
  | text _ found => exact linesOf_setting bare (oneLine.attributes name allowed _ found)
  | parameter _ _ lowers =>
    have own : isBare ("evolver_" ++ name) = true := by
      rw [isBare_append, bare]
      decide
    exact linesOf_setting bare (Parameter.lower_simple own lowers).notMem

/-- What is written for accepted attributes is one line each. -/
theorem indented_writes {words : Extras} {names : List String} {entries : List Script.Entry}
    (oneLine : evolver.OneLine words) (allowed : names ⊆ evolver.kind.allowed)
    (writes : List.Forall₂ (evolver.Writes site words) names entries) :
    indented (entries.map Script.Entry.render) =
      String.join (entries.map fun entry => "  " ++ entry.render ++ "\n") := by
  have each : (entries.map Script.Entry.render).flatMap Text.linesOf =
      entries.map Script.Entry.render := by
    induction writes with
    | nil => rfl
    | cons first _ ih =>
      obtain ⟨one, others⟩ := List.cons_subset.mp allowed
      rw [List.map_cons, List.flatMap_cons, first.linesOf oneLine one, ih others]
      rfl
  unfold indented
  rw [each, List.map_map]
  rfl

/-! ## Torques -/

/-- The attributes that torques are bound to. -/
def torqueAttributes : List String :=
  ["gamma_G", "do_precess", "alpha", "u", "beta", "J", "mp", "P", "Lambda", "eps_prime"]

/-- A parameter under a name outside of a list changes nothing in the list. -/
theorem agreesOn_withParameter {names : List String} {value : Parameter}
    (outside : name ∉ names) : evolver.AgreesOn (evolver.withParameter name value) names := by
  refine ⟨rfl, fun other member => ?_, rfl, rfl, rfl⟩
  show (evolver.attributes.insert name (.parameter value)).get? other = _
  rw [Keyed.get?_insert, if_neg fun same : other = name => outside (same ▸ member)]

/-- Binding torques changes nothing but the attributes that they are bound to. -/
theorem agreesOn_bind {names : List String} {bound : Evolver}
    (outside : ∀ name ∈ torqueAttributes, name ∉ names)
    (binds : evolver.bind dynamics = .ok bound) : evolver.AgreesOn bound names := by
  have set {evolver : Evolver} (name : String) {value : Parameter}
      (torque : name ∈ torqueAttributes) :
      evolver.AgreesOn (evolver.withParameter name value) names :=
    agreesOn_withParameter (outside name torque)
  have precession : evolver.AgreesOn (evolver.bindPrecession dynamics) names := by
    unfold bindPrecession
    split
    · exact set "gamma_G" (by decide)
    · exact set "do_precess" (by decide)
  have damping :
      evolver.AgreesOn ((evolver.bindPrecession dynamics).bindDamping dynamics) names := by
    refine precession.trans ?_
    unfold bindDamping
    split
    · exact set "alpha" (by decide)
    · exact set "alpha" (by decide)
  obtain ⟨inPlane, current, same⟩ := Result.bind_ok.mp binds
  have planar : evolver.AgreesOn inPlane names := by
    refine damping.trans ?_
    unfold bindInPlane at current
    split at current
    · rw [← Except.ok.inj current]
      exact .refl _ _
    · rw [← Except.ok.inj current]
      exact (set "u" (by decide)).trans (set "beta" (by decide))
    · cases current
  rw [← Except.ok.inj same]
  refine planar.trans ?_
  unfold bindPolarised
  split
  · exact .refl _ _
  · exact ((((set "J" (by decide)).trans (set "mp" (by decide))).trans (set "P" (by decide))).trans
      (set "Lambda" (by decide))).trans (set "eps_prime" (by decide))

end Evolver

/-! ## Torques and minima -/

namespace Intent

variable {intent : Intent}

/-- The evolver that an accepted intent leads to when it asks for minima. -/
theorem kind_of_minimum (minimum : ∀ time stages, intent.goal ≠ .evolve time stages)
    (valid : intent.validate = .ok ()) (dynamics : Dynamics) :
    (intent.chosenEvolver dynamics).kind = .conjugateGradient := by
  have accepted {goal : String} (valid : validateMinimiser goal intent.evolver = .ok ()) :
      ∀ evolver ∈ intent.evolver, evolver.kind = .conjugateGradient := by
    intro evolver chosen
    rw [Option.mem_def.mp chosen] at valid
    unfold validateMinimiser at valid
    dsimp only at valid
    by_cases kind : evolver.kind = .conjugateGradient
    · exact kind
    · rw [if_neg kind] at valid
      cases valid
  have given : ∀ evolver ∈ intent.evolver, evolver.kind = .conjugateGradient := by
    unfold validate at valid
    cases goal : intent.goal with
    | minimise =>
      rw [goal] at valid
      obtain ⟨_, _, valid⟩ := Result.bind_ok.mp valid
      exact accepted valid
    | evolve time stages => exact absurd goal (minimum time stages)
    | sweep legs =>
      rw [goal] at valid
      dsimp only at valid
      split at valid
      · cases valid
      · obtain ⟨_, _, valid⟩ := Result.bind_ok.mp valid
        obtain ⟨_, _, valid⟩ := Result.bind_ok.mp valid
        exact accepted valid
  unfold chosenEvolver
  cases chosen : intent.evolver with
  | some evolver => exact given evolver chosen
  | none =>
    cases goal : intent.goal with
    | minimise | sweep => rfl
    | evolve time stages => exact absurd goal (minimum time stages)

/-- The evolver of an intent that asks for minima does not depend on torques. -/
theorem chosenEvolver_of_minimum (minimum : ∀ time stages, intent.goal ≠ .evolve time stages)
    (dynamics other : Dynamics) : intent.chosenEvolver other = intent.chosenEvolver dynamics := by
  unfold chosenEvolver
  cases intent.evolver with
  | some evolver => rfl
  | none =>
    cases goal : intent.goal with
    | minimise | sweep => rfl
    | evolve time stages => exact absurd goal (minimum time stages)

/-- No torque is bound to an attribute that the evolver of a minimum accepts. -/
theorem torque_notMem_allowed :
    ∀ name ∈ Evolver.torqueAttributes, name ∉ EvolverKind.conjugateGradient.allowed := by
  decide

/-- The items of a drive that asks for minima do not depend on torques, as long as these can be
bound. -/
theorem items_of_minimum (minimum : ∀ time stages, intent.goal ≠ .evolve time stages)
    (valid : intent.validate = .ok ()) {dynamics other : Dynamics} {bound again : Evolver}
    (binds : (intent.chosenEvolver dynamics).bind dynamics = .ok bound)
    (rebinds : (intent.chosenEvolver other).bind other = .ok again) (site : Site)
    (settings : ScriptSettings) :
    intent.items site other settings = intent.items site dynamics settings := by
  have kind := kind_of_minimum minimum valid dynamics
  have first := Evolver.agreesOn_bind torque_notMem_allowed binds
  have second := Evolver.agreesOn_bind torque_notMem_allowed rebinds
  rw [chosenEvolver_of_minimum minimum dynamics other] at second
  have agrees : bound.AgreesOn again bound.kind.allowed := by
    rw [first.kind, kind]
    exact first.symm.trans second
  have evolving : again.items site = bound.items site :=
    funext fun extras => funext fun duration => agrees.items site extras duration
  unfold items
  rw [binds, rebinds]
  simp only [Except.mapError, Lowering.ok_bind, evolving]

end Intent

/-- The script of a drive that asks for minima does not depend on torques, as long as these are
valid and can be bound. -/
theorem Problem.items_of_minimum {intent : Intent}
    (minimum : ∀ time stages, intent.goal ≠ .evolve time stages) {dynamics other : Dynamics}
    (valid : dynamics.validate = .ok ()) (otherValid : other.validate = .ok ())
    {bound again : Evolver} (binds : (intent.chosenEvolver dynamics).bind dynamics = .ok bound)
    (rebinds : (intent.chosenEvolver other).bind other = .ok again) (problem : Problem)
    (settings : ScriptSettings) (platform : Platform) :
    { problem with dynamics := other }.items intent settings platform =
      { problem with dynamics }.items intent settings platform := by
  have validated : { problem with dynamics := other }.validate =
      { problem with dynamics }.validate := by
    unfold validate
    dsimp only
    rw [valid, otherValid]
    rfl
  unfold items
  rw [validated]
  cases accepted : intent.validate with
  | error fault => rfl
  | ok _ =>
    dsimp only
    rw [Intent.items_of_minimum minimum accepted binds rebinds]
    rfl

/-! ## The gate -/

/-- The list of a kind of evolvers is a complete gate. Evolvers of one kind that have the accepted
attributes, the profile with its step and the procedure in common are lowered alike, to items or to
a fault and with the same field files. The block has one entry for each accepted attribute that has
a value or is set by the current, in the order of the list, and it is one line each as far as texts
of the caller are. So drives that ask for minima have the same script with all torques that are
valid and can be bound. -/
theorem gate_complete :
    (∀ evolver other : Evolver, evolver.AgreesOn other evolver.kind.allowed →
      ∀ site extras duration,
        other.items site extras duration = evolver.items site extras duration) ∧
      (∀ (evolver : Evolver) site extras duration items,
        (evolver.items site extras duration).result = .ok items →
        ∃ front entries, items = front ++ [.object evolver.kind.className "evolver" entries] ∧
          List.Forall₂ (evolver.Writes site (evolver.words extras))
            (evolver.kind.allowed.filter (evolver.sets (evolver.words extras))) entries ∧
          (evolver.OneLine (evolver.words extras) → indented (entries.map Script.Entry.render) =
            String.join (entries.map fun entry => "  " ++ entry.render ++ "\n"))) ∧
      (∀ kind : EvolverKind, kind.allowed.Nodup) ∧
      ∀ intent : Intent, (∀ time stages, intent.goal ≠ .evolve time stages) →
        ∀ dynamics other : Dynamics, dynamics.validate = .ok () → other.validate = .ok () →
          ∀ bound again, (intent.chosenEvolver dynamics).bind dynamics = .ok bound →
            (intent.chosenEvolver other).bind other = .ok again →
            ∀ (problem : Problem) settings platform,
              { problem with dynamics := other }.lower intent settings platform =
                { problem with dynamics }.lower intent settings platform := by
  refine ⟨fun evolver other agrees => agrees.items,
    fun evolver site extras duration items lowered => ?_, fun kind => ?_, ?_⟩
  · obtain ⟨front, entries, split, writes⟩ := Evolver.writes_of_items lowered
    exact ⟨front, entries, split, writes, fun oneLine =>
      Evolver.indented_writes oneLine (List.filter_subset_self _) writes⟩
  · cases kind <;> decide
  · intro intent minimum dynamics other valid otherValid bound again binds rebinds problem settings
      platform
    have same := Problem.items_of_minimum minimum valid otherValid binds rebinds problem settings
      platform
    unfold Problem.lower
    rw [same]

/-- A place of one cell. -/
def oneCell : Site := ⟨{ region := ⟨.fill 0, .fill 1⟩, cell := .fill 1 }, .unix⟩

/-- A magnetisation in one cell. -/
def lone : Problem where
  name := "lone"
  m := { mesh := oneCell.mesh, dim := 3, values := [0, 0, 1] }

/-- A current that differs between regions, one of which is not there. -/
def astray : Dynamics :=
  [.ofTorque (.zhangLi (.perRegion { values := .ofList [("nowhere", .scalar 1)] }) (.constant 0))]

/-- An evolver of minima may carry a damping that differs between regions, one of which is not
there, and a problem a current of this kind. -/
theorem gate_complete_astray :
    (({ kind := .conjugateGradient } : Evolver).withParameter "alpha"
        (.perRegion { values := .ofList [("nowhere", .scalar 1)] })).items oneCell [] none =
      ({ kind := .conjugateGradient } : Evolver).items oneCell [] none ∧
    { lone with dynamics := astray }.lower ⟨.minimise, none, none⟩ {} .unix =
      lone.lower ⟨.minimise, none, none⟩ {} .unix := by
  obtain ⟨gate, -, -, minima⟩ := gate_complete
  refine ⟨gate _ _ (Evolver.agreesOn_withParameter (by decide)) _ _ _, ?_⟩
  exact minima ⟨.minimise, none, none⟩ nofun [] astray rfl rfl _ _ rfl rfl lone {} .unix

/-- An evolver without attributes whose current follows a procedure. -/
def pulsed : Evolver where
  kind := .spinTransfer
  procedure := some ⟨"source pulse.tcl", "pulse", "total_time"⟩

/-- An evolver with a line feed in the text of an attribute. -/
def broken : Evolver where
  kind := .rungeKutta
  attributes := .ofList [("method", .text "rk4\nerror_rate 1")]

/-- The lines of a block are not always as many as the accepted attributes with a value. A current
adds two lines, and a line feed in a text one. -/
theorem lines_ne_attributes :
    ((pulsed.items oneCell [] none).result.map render =
        .ok ("source pulse.tcl\n\nSpecify Anv_SpinTEvolve:evolver \x7b\n" ++
          "  u_profile pulse\n  u_profile_args total_time\n\x7d\n\n") ∧
      pulsed.kind.allowed.filter pulsed.attributes.contains = []) ∧
    (broken.items oneCell [] none).result.map render =
        .ok ("Specify Oxs_RungeKuttaEvolve:evolver \x7b\n  method rk4\n" ++
          "  error_rate 1\n\x7d\n\n") ∧
      broken.kind.allowed.filter broken.attributes.contains = ["method"] := by
  exact ⟨⟨rfl, rfl⟩, rfl, rfl⟩

end Micromag
