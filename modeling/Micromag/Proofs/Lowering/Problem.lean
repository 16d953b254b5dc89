import Micromag.Lowering.Problem
import Micromag.Proofs.Lowering.Driver
import Micromag.Proofs.Lowering.Energy
import Micromag.Proofs.Result
import Micromag.Proofs.Script.Text
import Micromag.Term

/-!
# Lowering a whole problem

What the checks of a problem establish, and what lowering it then gives.
-/

/-!
## Names of terms

The names of a sum are accepted exactly when each is an identifier that scripts do not use for their
own objects and none occurs twice.
-/

namespace Micromag

variable {sum : String} {names : List String}

/-- Whether a name may be that of a term. -/
def Usable (name : String) : Prop := Text.isIdentifier name = true ∧ name ∉ reservedNames

/-- Names are accepted after others exactly when they are usable, differ from each other and differ
from the others. -/
theorem validateNamesAfter_ok {seen : List String} :
    validateNamesAfter sum seen names = .ok () ↔
      (∀ name ∈ names, Usable name) ∧ names.Nodup ∧ ∀ name ∈ names, name ∉ seen := by
  induction names generalizing seen with
  | nil => exact ⟨fun _ => ⟨nofun, .nil, nofun⟩, fun _ => rfl⟩
  | cons name rest ih =>
    unfold validateNamesAfter
    by_cases malformed : (!Text.isIdentifier name) = true
    · rw [if_pos malformed]
      refine ⟨(nomatch ·), fun accepted => ?_⟩
      rw [Bool.not_eq_true', (accepted.1 name List.mem_cons_self).1] at malformed
      cases malformed
    rw [if_neg malformed]
    by_cases reserved : reservedNames.contains name = true
    · rw [if_pos reserved]
      refine ⟨(nomatch ·), fun accepted => ?_⟩
      exact absurd (List.contains_iff_mem.mp reserved) (accepted.1 name List.mem_cons_self).2
    rw [if_neg reserved]
    by_cases repeated : seen.contains name = true
    · rw [if_pos repeated]
      refine ⟨(nomatch ·), fun accepted => ?_⟩
      exact absurd (List.contains_iff_mem.mp repeated) (accepted.2.2 name List.mem_cons_self)
    rw [if_neg repeated, ih, List.forall_mem_cons, List.nodup_cons, List.forall_mem_cons]
    rw [Bool.not_eq_true', Bool.not_eq_false] at malformed
    have usable : Usable name :=
      ⟨malformed, fun member => reserved (List.contains_iff_mem.mpr member)⟩
    have unseen : name ∉ seen := fun member => repeated (List.contains_iff_mem.mpr member)
    constructor
    · rintro ⟨others, distinct, fresh⟩
      refine ⟨⟨usable, others⟩, ⟨fun member => fresh name member List.mem_cons_self, distinct⟩,
        unseen, fun other member inside => fresh other member (List.mem_cons_of_mem name inside)⟩
    · rintro ⟨⟨_, others⟩, ⟨first, distinct⟩, _, fresh⟩
      refine ⟨others, distinct, fun other member inside => ?_⟩
      rcases List.mem_cons.mp inside with rfl | inside
      · exact first member
      · exact fresh other member inside

/-- Names are accepted exactly when they are usable and differ from each other. -/
theorem validateNames_ok :
    validateNames sum names = .ok () ↔ (∀ name ∈ names, Usable name) ∧ names.Nodup := by
  unfold validateNames
  rw [validateNamesAfter_ok]
  exact ⟨fun ⟨usable, distinct, _⟩ => ⟨usable, distinct⟩,
    fun ⟨usable, distinct⟩ => ⟨usable, distinct, fun _ _ => List.not_mem_nil⟩⟩

/-- The terms of an accepted energy have usable names that differ from each other. -/
theorem Energy.names_of_validate {α : Type} {mesh : Mesh α} {energy : Energy}
    (accepted : Energy.validate mesh energy = .ok ()) :
    (∀ term ∈ energy, Usable term.name) ∧ (energy.map (·.name)).Nodup := by
  obtain ⟨_, named, _⟩ := Result.bind_ok.mp accepted
  obtain ⟨usable, distinct⟩ := validateNames_ok.mp named
  exact ⟨fun term member => usable term.name (List.mem_map_of_mem member), distinct⟩

end Micromag

/-!
## Objects of a problem

The script of a problem declares the objects of its mesh, of its energy terms, of its magnetisation
and of its drive, in this order. Every part refers to objects of earlier parts or to its own.
-/

namespace Micromag

open Script

variable {known : List String}

/-- The magnetisation and its magnitude. -/
theorem magnetisationItems_emits (atlas : "main_atlas" ∈ known) {m : Field Float}
    {items : List Item} (lowered : (magnetisationItems m).result = .ok items) :
    Emits known items ["m0", "m0_norm"] := by
  obtain ⟨_, _, same⟩ := Lowering.bind_ok.mp lowered
  rw [← Lowering.pure_ok.mp same]
  have file : Emits known [Parameter.fileItem "m0" "m0.omf"] ["m0"] :=
    Parameter.fileItem_emits atlas (by decide) (by decide)
  have norm : Emits (known ++ ["m0"]) [Parameter.normItem "m0"] [Parameter.normName "m0"] :=
    Parameter.normItem_emits (by decide) (List.mem_append_right _ List.mem_cons_self)
  exact file.append norm

namespace Problem

variable {problem : Problem} {intent : Intent} {settings : ScriptSettings} {platform : Platform}

/-- What an accepted problem has: a name without a colon, a usable mesh and usable terms. -/
structure Accepted (problem : Problem) : Prop where
  /-- The name refers to nothing. -/
  name : ':' ∉ problem.name.toList
  /-- The mesh is usable. -/
  mesh : problem.mesh.validate = .ok ()
  /-- The terms have usable names. -/
  usable : ∀ term ∈ problem.energy, Usable term.name
  /-- The names of the terms differ. -/
  distinct : (problem.energy.map (·.name)).Nodup

/-- A character that no legal name may have is not in it. -/
theorem notMem_of_isLegalName {name : String} {c : Char} (legal : isLegalName name = true)
    (other : (Text.isNameChar c || c = '-' || c = '.') = false) : c ∉ name.toList := by
  intro member
  unfold isLegalName at legal
  have all := (Bool.and_eq_true _ _ ▸ legal).2
  rw [List.all_eq_true.mp all c member] at other
  cases other

/-- A problem whose name is not legal has no script. -/
theorem lower_of_illegal (illegal : isLegalName problem.name = false) (intent : Intent)
    (settings : ScriptSettings) (platform : Platform) :
    problem.lower intent settings platform =
      .error (ProblemFault.fault (.illegalName problem.name)) := by
  have refused : problem.validate = .error (.illegalName problem.name) := by
    unfold validate validateName
    rw [illegal]
    rfl
  unfold lower items
  rw [refused]
  rfl

/-- A problem that has a script has a legal name. -/
theorem isLegalName_of_lower {script : LoweredScript}
    (lowers : problem.lower intent settings platform = .ok script) :
    isLegalName problem.name = true := by
  cases legal : isLegalName problem.name with
  | true => rfl
  | false =>
    rw [lower_of_illegal legal] at lowers
    cases lowers

/-- What a problem has that is accepted. -/
theorem accepted_of_validate (valid : problem.validate = .ok ()) : problem.Accepted := by
  obtain ⟨_, legal, valid⟩ := Result.bind_ok.mp valid
  dsimp only at valid
  split at valid
  · cases valid
  obtain ⟨_, mesh, valid⟩ := Result.bind_ok.mp valid
  obtain ⟨_, _, valid⟩ := Result.bind_ok.mp valid
  obtain ⟨_, energy, _⟩ := Result.bind_ok.mp valid
  obtain ⟨usable, distinct⟩ := Energy.names_of_validate (Result.mapError_ok.mp energy)
  refine ⟨?_, Result.mapError_ok.mp mesh, usable, distinct⟩
  unfold validateName at legal
  split at legal
  · rename_i named
    exact notMem_of_isLegalName named (by decide)
  · cases legal

/-- The names of the objects of a problem with its drive. -/
def objectNames (problem : Problem) (intent : Intent) (settings : ScriptSettings) : List String :=
  problem.mesh.objectNames ++
    (problem.energy.flatMap fun term => term.helperNames ++ [term.name]) ++ ["m0", "m0_norm"] ++
      (intent.appliedNames ++ intent.helperNames problem.dynamics settings ++ ["evolver"])

/-- The objects of a problem with its drive, if there is no text of the caller. -/
theorem lower_emits (plain : intent.Plain settings) {script : LoweredScript}
    (lowered : problem.lower intent settings platform = .ok script) :
    problem.Accepted ∧ Emits [] script.items (problem.objectNames intent settings) := by
  obtain ⟨items, inner, rfl⟩ := Result.map_ok.mp lowered
  obtain ⟨_, valid, lowered⟩ := Lowering.bind_ok.mp inner
  obtain ⟨_, _, lowered⟩ := Lowering.bind_ok.mp lowered
  obtain ⟨mesh, divided, lowered⟩ := Lowering.bind_ok.mp lowered
  obtain ⟨energy, contributed, lowered⟩ := Lowering.bind_ok.mp lowered
  obtain ⟨magnetisation, given, lowered⟩ := Lowering.bind_ok.mp lowered
  obtain ⟨drive, driven, same⟩ := Lowering.bind_ok.mp lowered
  rw [← Lowering.pure_ok.mp same]
  have accepted := accepted_of_validate (Result.mapError_ok.mp valid)
  have named : Site.Named ⟨problem.mesh, platform⟩ := fun _ member =>
    Mesh.isIdentifier_of_mem_regionNames accepted.mesh member
  have options : Emits [] [.options problem.name settings.format] [] :=
    .single accepted.name rfl
  have meshEmits : Emits [] mesh problem.mesh.objectNames :=
    Mesh.items_emits accepted.mesh divided
  have first := meshEmits.append (Energy.items_emits named
    (List.mem_append_right [] Mesh.mainAtlas_mem_objectNames)
    (fun term member => (accepted.usable term member).1) contributed)
  have second := first.append (magnetisationItems_emits
    (List.mem_append_right [] (List.mem_append_left _ Mesh.mainAtlas_mem_objectNames)) given)
  have declared : ∀ name ∈ ["mesh", "m0_norm", "m0"], name ∈ [] ++ (problem.mesh.objectNames ++
      (problem.energy.flatMap fun term => term.helperNames ++ [term.name]) ++
      ["m0", "m0_norm"]) := by
    have here : ∀ name ∈ ["m0_norm", "m0"], name ∈ ["m0", "m0_norm"] := by decide
    refine List.forall_mem_cons.mpr ⟨?_, fun name member => ?_⟩
    · exact List.mem_append_right []
        (List.mem_append_left _ (List.mem_append_left _ Mesh.mesh_mem_objectNames))
    · exact List.mem_append_right [] (List.mem_append_right _ (here name member))
  have third := second.append (Intent.items_emits plain named (List.mem_append_right []
    (List.mem_append_left _ (List.mem_append_left _ Mesh.mainAtlas_mem_objectNames)))
    declared driven)
  exact ⟨accepted, options.append_right third⟩

/-- In the script of a problem without text of the caller, every token that refers to an object
stands behind the whole text of the block that declares the object. -/
theorem declared_before_reference (plain : intent.Plain settings) {script : LoweredScript}
    (lowered : problem.lower intent settings platform = .ok script)
    {before name after : List Char}
    (text : script.text.toList = before ++ (':' :: name) ++ after)
    (start : ∀ c ∈ before.getLast?, isDelimiter c = true)
    (solid : ∀ c ∈ name, isDelimiter c = false) (stop : ∀ c ∈ after.head?, isDelimiter c = true) :
    ∃ block, .block block ∈ script.items ∧ block.instanceName = some (String.ofList name) ∧
      block.render.toList <:+: before :=
  (lower_emits plain lowered).2.resolves.declared_before text start solid stop

/-- A problem without energy on one cell. -/
def oneCell : Problem where
  name := "p"
  m := { mesh := { region := ⟨.fill 0, .fill 1⟩, cell := .fill 1 }, dim := 3, values := [0, 0, 1] }

/-- The driver of a problem on one cell refers to its evolver behind the block of the evolver. -/
theorem oneCell_evolver_declared :
    ∃ script before after, oneCell.lower { goal := .minimise } {} .unix = .ok script ∧
      script.text.toList = before ++ (':' :: "evolver".toList) ++ after ∧
      ∃ block, .block block ∈ script.items ∧ block.instanceName = some "evolver" ∧
        block.render.toList <:+: before := by
  have checked : (oneCell.lower { goal := .minimise } {} .unix).toOption.bind (fun script =>
      (script.items.drop 6).head?.map Item.render) =
      some ("Specify Oxs_MinDriver \x7b\n  evolver " ++ ":evolver" ++
        "\n  mesh :mesh\n  Ms :m0_norm\n  m0 :m0\n  stopping_mxHxm 0.1\n\x7d\n\n") := by
    decide +kernel
  obtain ⟨script, kept, checked⟩ := Option.bind_eq_some_iff.mp checked
  obtain ⟨driver, place, rendered⟩ := Option.map_eq_some_iff.mp checked
  have lowered : oneCell.lower { goal := .minimise } {} .unix = .ok script :=
    Result.ok_of_toOption kept
  obtain ⟨earlier, later, split⟩ : ∃ earlier later, script.items = earlier ++ driver :: later := by
    obtain ⟨later, behind⟩ := List.head?_eq_some_iff.mp place
    exact ⟨script.items.take 6, later, by rw [← behind, List.take_append_drop]⟩
  obtain ⟨opening, closing, parts, start, stop⟩ : ∃ opening closing,
      driver.render.toList = opening ++ (':' :: "evolver".toList) ++ closing ∧
        opening.getLast? = some ' ' ∧ closing.head? = some '\n' := by
    have reference : ":evolver".toList = ':' :: "evolver".toList := by decide
    rw [rendered, String.toList_append, String.toList_append, reference]
    exact ⟨_, _, rfl, by decide, by decide⟩
  have text : script.text.toList = ((render earlier).toList ++ opening) ++
      (':' :: "evolver".toList) ++ (closing ++ (render later).toList) := by
    unfold LoweredScript.text
    rw [split, toList_render_append, toList_render_cons, parts]
    simp only [List.append_assoc]
  have plain : Intent.Plain { goal := .minimise } {} := .of_default rfl rfl
  have blank : ∀ c ∈ ((render earlier).toList ++ opening).getLast?, isDelimiter c = true := by
    rw [List.getLast?_append, start, Option.some_or]
    rintro c ⟨rfl⟩
    decide
  have ended : ∀ c ∈ (closing ++ (render later).toList).head?, isDelimiter c = true := by
    rw [List.head?_append, stop, Option.some_or]
    rintro c ⟨rfl⟩
    decide
  have solid : ∀ c ∈ "evolver".toList, isDelimiter c = false := solid_of_all (by decide)
  have declared := declared_before_reference plain lowered text blank solid ended
  rw [String.ofList_toList] at declared
  exact ⟨script, _, _, lowered, text, declared⟩

end Problem

end Micromag
