import Mathlib.Data.List.Flatten
import Micromag.Proofs.Lowering.Names
import Micromag.Proofs.Script.Files

/-!
# Field files of a script

A script reads a field file for the magnetisation and one for every parameter that is given cell by
cell, and these are the files that its lowering asks for. A parameter's file bears the name of the
object that reads it, and such names differ, so that no file takes the place of another.
-/

namespace Micromag

open Script

/-- Whether a field file was accepted for a site: a usable field on as many cells along each axis,
with numbers if they are to be extended to vectors and with vectors otherwise, under a name with one
of two endings. -/
structure Sidecar.Fits (site : Site) (sidecar : Sidecar) : Prop where
  /-- An identifier with an ending is its name. -/
  named : ∃ name, Text.isIdentifier name = true ∧
    (sidecar.fileName = name ++ ".ovf" ∨ sidecar.fileName = name ++ ".omf")
  /-- The field is usable. -/
  usable : sidecar.field.validate = .ok ()
  /-- It has the cells of the mesh. -/
  counts : sidecar.field.mesh.counts = site.mesh.counts
  /-- It has numbers or vectors. -/
  dim : sidecar.field.dim = if sidecar.extended then 1 else 3

/-- Items read the field files that were asked for, and these are the expected ones. -/
structure Supplies (site : Site) (items : List Item) (asked expected : List Sidecar) : Prop where
  /-- The expected files are asked for. -/
  asked : asked = expected
  /-- The items read them, each once and in order. -/
  files : items.flatMap Item.files = expected.map (·.fileName)
  /-- They fit the site. -/
  fits : ∀ sidecar ∈ expected, sidecar.Fits site

namespace Supplies

variable {site : Site} {items others : List Item} {asked expected again further : List Sidecar}

/-- Items that read no file need none. -/
theorem silent (silent : items.flatMap Item.files = []) : Supplies site items [] [] :=
  ⟨rfl, silent, nofun⟩

/-- Items one after the other read the files of both. -/
theorem append (first : Supplies site items asked expected)
    (second : Supplies site others again further) :
    Supplies site (items ++ others) (asked ++ again) (expected ++ further) where
  asked := by rw [first.asked, second.asked]
  files := by rw [List.flatMap_append, first.files, second.files, List.map_append]
  fits := List.forall_mem_append.mpr ⟨first.fits, second.fits⟩

/-- Items that read no file may follow. -/
theorem before (first : Supplies site items asked expected)
    (silent : others.flatMap Item.files = []) :
    Supplies site (items ++ others) asked expected where
  asked := first.asked
  files := by rw [List.flatMap_append, silent, List.append_nil, first.files]
  fits := first.fits

/-- Items that read no file may come first. -/
theorem behind (first : Supplies site items asked expected)
    (silent : others.flatMap Item.files = []) :
    Supplies site (others ++ items) asked expected where
  asked := first.asked
  files := by rw [List.flatMap_append, silent, List.nil_append, first.files]
  fits := first.fits

end Supplies

/-- An object of another class reads no file. -/
theorem Script.Item.files_object {className name : String} {entries : List Script.Entry}
    (other : className ≠ fileClass) : (Item.object className name entries).files = [] :=
  if_neg fun same => other same.1

/-- A driver reads no file. -/
theorem Script.Item.files_anonymous {className : String} {entries : List Script.Entry} :
    (Item.anonymous className entries).files = [] :=
  if_neg fun named => Bool.false_ne_true named.2

namespace Parameter

/-- The field file of a parameter, if it is given cell by cell. -/
def sidecars (arity : Arity) (value : Parameter) (name : String) : List Sidecar :=
  match value with
  | field f => [⟨fileName name, f, arity = .scalar⟩]
  | _ => []

variable {site : Site} {arity : Arity} {value : Parameter} {name : String}

/-- The file of a parameter bears the name of one of its objects. -/
theorem sidecars_sublist : ((value.sidecars arity name).map (·.fileName)).Sublist
    ((value.objectNames arity name).map fileName) := by
  cases value with
  | constant | vector | perRegion => exact List.nil_sublist _
  | field f =>
    cases arity with
    | scalar => exact (List.nil_sublist _).cons_cons _
    | vector => exact List.Sublist.refl _

/-- The object that reads a file names it in one row. -/
theorem files_fileItem {file : String} (one : '\n' ∉ file.toList) :
    (fileItem name file).files = [file] := by
  have row : (Script.Entry.setting "file" (.text file)).render = "file " ++ file := by
    show String.intercalate " " ["file", file] = _
    rw [String.intercalate_cons_cons, String.intercalate_singleton]
    rfl
  have text : ("file " ++ file).toList = "file ".toList ++ file.toList := String.toList_append
  have line : Text.linesOf ("file " ++ file) = ["file " ++ file] := by
    refine Text.linesOf_of_notMem ?_ fun empty => ?_
    · have start : '\n' ∉ "file ".toList := by decide
      rw [text, List.mem_append, not_or]
      exact ⟨start, one⟩
    · rw [empty] at text
      exact absurd text.symm (List.append_ne_nil_of_left_ne_nil (by decide) _)
  have found : fileOfRow? ("file " ++ file).toList = some file := by
    have begins : "file ".toList.isPrefixOf ("file " ++ file).toList = true := by
      rw [text, List.isPrefixOf_iff_prefix]
      exact List.prefix_append _ _
    have rest : ("file " ++ file).toList.drop 5 = file.toList := by
      rw [text]
      rfl
    unfold fileOfRow?
    rw [begins, if_pos rfl, rest, String.ofList_toList]
  have atlas : (Text.linesOf Mesh.mainAtlas.render).filterMap (fun row => fileOfRow? row.toList) =
      [] := by
    decide
  show filesOfRows [_, _] = [file]
  unfold filesOfRows
  rw [List.flatMap_cons, List.flatMap_singleton, List.filterMap_append, row, line, atlas,
    List.filterMap_cons, found, List.filterMap_nil, List.append_nil]

/-- The name of a parameter's file is one line. -/
theorem notMem_fileName (identifier : Text.isIdentifier name = true) :
    '\n' ∉ (fileName name).toList := by
  have start : '\n' ∉ name.toList := Text.notMem_of_isIdentifier identifier (by decide)
  unfold fileName
  simp [String.toList_append, start]

/-- What is asked of a field that is given for a parameter. -/
theorem checkField_ok {f : Field Float} : checkField arity site name f = .ok () ↔
    f.dim = arity.dim ∧ f.validate = .ok () ∧ f.mesh.counts = site.mesh.counts := by
  unfold checkField
  by_cases components : f.dim ≠ arity.dim
  · rw [if_pos components]
    exact ⟨(nomatch ·), fun asked => absurd asked.1 components⟩
  · rw [if_neg components]
    show (f.validate.mapError FieldFault.fault >>= fun _ => _) = _ ↔ _
    rw [Result.bind_ok]
    by_cases cells : f.mesh.counts ≠ site.mesh.counts
    · rw [if_pos cells]
      exact ⟨fun ⟨_, _, refused⟩ => (nomatch refused), fun asked => absurd asked.2.2 cells⟩
    · rw [if_neg cells]
      constructor
      · rintro ⟨_, usable, _⟩
        exact ⟨not_not.mp components, Result.mapError_ok.mp usable, not_not.mp cells⟩
      · rintro ⟨_, usable, _⟩
        exact ⟨(), Result.mapError_ok.mpr usable, rfl⟩

/-- A field that is accepted for a parameter fits the site. -/
theorem fits_of_checkField (identifier : Text.isIdentifier name = true) {f : Field Float}
    (checked : checkField arity site name f = .ok ()) :
    Sidecar.Fits site ⟨fileName name, f, arity = .scalar⟩ := by
  obtain ⟨components, usable, cells⟩ := checkField_ok.mp checked
  refine ⟨⟨name, identifier, .inl rfl⟩, usable, cells, ?_⟩
  rw [components]
  cases arity <;> rfl

/-- A lowered parameter reads its file, if it is given cell by cell. -/
theorem lower_supplies (identifier : Text.isIdentifier name = true) {lowered : LoweredParameter}
    {asked : List Sidecar} (gives : (value.lower arity site name).Gives lowered asked) :
    Supplies site lowered.items asked (value.sidecars arity name) := by
  have constant {kind : String} {x : RegionValue}
      (gives : (liftM (constantWord arity name kind x) : Lowering LoweredParameter).Gives
        lowered asked) : Supplies site lowered.items asked [] := by
    obtain ⟨word, _, same⟩ := Result.bind_ok.mp gives.result
    have nothing : asked = [] := gives.sidecars.symm
    rw [nothing]
    rw [← Except.ok.inj same]
    exact .silent rfl
  cases value with
  | constant x => exact constant gives
  | vector v => exact constant gives
  | perRegion map =>
    obtain ⟨item, written, last⟩ := Lowering.lift_bind_gives.mp gives
    obtain ⟨rfl, rfl⟩ := Lowering.pure_gives.mp last
    obtain ⟨rows, _, written⟩ := Result.bind_ok.mp written
    obtain ⟨fallback, _, same⟩ := Result.bind_ok.mp written
    rw [← Except.ok.inj same]
    have other : arity.regionClass ≠ fileClass := by
      cases arity <;> decide
    exact .silent (by rw [List.flatMap_singleton, Item.files_object other])
  | field f =>
    obtain ⟨_, checked, rest⟩ := Lowering.lift_bind_gives.mp gives
    obtain ⟨_, _, _, ⟨_, rfl⟩, last, rfl⟩ := Lowering.bind_gives.mp rest
    have fits := fits_of_checkField identifier checked
    have file : (fileItem name (fileName name)).files = [fileName name] :=
      files_fileItem (notMem_fileName identifier)
    have norm : (normItem name).files = [] := Item.files_object (by decide)
    cases arity with
    | scalar =>
      obtain ⟨rfl, rfl⟩ := Lowering.pure_gives.mp last
      exact ⟨rfl, by simp [file, norm, sidecars], List.forall_mem_singleton.mpr fits⟩
    | vector =>
      obtain ⟨rfl, rfl⟩ := Lowering.pure_gives.mp last
      exact ⟨rfl, by simp [file, sidecars], List.forall_mem_singleton.mpr fits⟩

end Parameter

namespace Term

/-- The field files of the parameters of a term. -/
def sidecars (term : Term) : List Sidecar :=
  term.interaction.parameters.flatMap fun parameter =>
    parameter.2.2.sidecars parameter.1 (parameterName term.name parameter.2.1)

variable {site : Site} {name : String} {items : List Item} {asked : List Sidecar}

/-- The files of a term bear names of objects in front of it. -/
theorem sidecars_sublist (term : Term) :
    (term.sidecars.map (·.fileName)).Sublist (term.helperNames.map Parameter.fileName) := by
  unfold sidecars helperNames
  rw [List.map_append, List.map_flatMap, List.map_flatMap]
  refine List.Sublist.trans ?_ (List.sublist_append_left _ _)
  exact List.Sublist.flatMap_right _ fun _ _ => Parameter.sidecars_sublist

/-- When something is lowered behind a parameter of a term, the parameter reads its file. -/
theorem parameter_gives (identifier : Text.isIdentifier name = true) {key : String} {arity : Arity}
    {value : Parameter} {α : Type} {next : LoweredParameter → Lowering α} {result : α}
    (keyNamed : key.toList.all Text.isNameChar = true)
    (gives : (value.lower arity site (parameterName name key) >>= next).Gives result asked) :
    ∃ parameter early late,
      Supplies site parameter.items early (value.sidecars arity (parameterName name key)) ∧
        (next parameter).Gives result late ∧ asked = early ++ late := by
  obtain ⟨parameter, early, late, inner, rest, same⟩ := Lowering.bind_gives.mp gives
  have supplies := Parameter.lower_supplies (isIdentifier_parameterName identifier keyNamed) inner
  exact ⟨parameter, early, late, supplies, rest, same⟩

/-- The block of a term reads no file. -/
theorem files_item {className : String} {entries : List Script.Entry}
    (other : className ≠ fileClass) : [item className name entries].flatMap Item.files = [] := by
  rw [List.flatMap_singleton]
  exact Item.files_object other

/-- The field files of an exchange term. -/
theorem exchangeItems_supply (identifier : Text.isIdentifier name = true) {constant : Parameter}
    (gives : (exchangeItems site name constant).Gives items asked) :
    Supplies site items asked (sidecars ⟨name, .exchange constant⟩) := by
  cases constant with
  | constant a =>
    unfold exchangeItems at gives
    dsimp only at gives
    by_cases refused : (!decide (0 < a)) = true
    · rw [if_pos refused] at gives
      cases gives.result
    · rw [if_neg refused] at gives
      obtain ⟨word, _, last⟩ := Lowering.lift_bind_gives.mp gives
      obtain ⟨rfl, rfl⟩ := Lowering.pure_gives.mp last
      exact .silent (files_item (by decide))
  | perRegion map =>
    obtain ⟨rows, _, rest⟩ := Lowering.lift_bind_gives.mp gives
    obtain ⟨value, _, rest⟩ := Lowering.lift_bind_gives.mp rest
    obtain ⟨word, _, last⟩ := Lowering.lift_bind_gives.mp rest
    obtain ⟨rfl, rfl⟩ := Lowering.pure_gives.mp last
    exact .silent (files_item (by decide))
  | field f =>
    obtain ⟨a, early, _, supplies, last, rfl⟩ := parameter_gives identifier (by decide) gives
    obtain ⟨rfl, rfl⟩ := Lowering.pure_gives.mp last
    exact supplies.append (.silent (files_item (by decide)))
  | vector v => cases gives.result

/-- The field files of an applied field. -/
theorem zeemanItems_supply (identifier : Text.isIdentifier name = true) {field : Parameter}
    {wave : Option Wave} {frequency delay : Option Float}
    (gives : (zeemanItems site name field wave frequency delay).Gives items asked) :
    Supplies site items asked (sidecars ⟨name, .zeeman field wave frequency delay⟩) := by
  obtain ⟨h, early, late, supplies, rest, rfl⟩ := parameter_gives identifier (by decide) gives
  have expected : sidecars ⟨name, .zeeman field wave frequency delay⟩ =
      field.sidecars .vector (parameterName name "H") ++ [] := rfl
  rw [expected]
  dsimp only at rest
  split at rest
  · obtain ⟨rfl, rfl⟩ := Lowering.pure_gives.mp rest
    exact supplies.append (.silent (files_item (by decide)))
  · rename_i procedure _
    cases frequency with
    | none => cases rest.result
    | some frequency =>
      obtain ⟨f, _, rest⟩ := Lowering.lift_bind_gives.mp rest
      obtain ⟨t0, _, last⟩ := Lowering.lift_bind_gives.mp rest
      obtain ⟨rfl, rfl⟩ := Lowering.pure_gives.mp last
      refine supplies.append (.silent ?_)
      rw [List.flatMap_cons, files_item (by decide)]
      rfl

/-- The demagnetising field reads no file. -/
theorem demagItems_supply {radius : Option Float}
    (gives : (demagItems name radius).Gives items asked) :
    Supplies site items asked (sidecars ⟨name, .demag radius⟩) := by
  cases radius with
  | none =>
    obtain ⟨rfl, rfl⟩ := Lowering.pure_gives.mp gives
    exact .silent (files_item (by decide))
  | some radius =>
    obtain ⟨word, _, last⟩ := Lowering.lift_bind_gives.mp gives
    obtain ⟨rfl, rfl⟩ := Lowering.pure_gives.mp last
    exact .silent (files_item (by decide))

/-- Antisymmetric exchange reads no file. -/
theorem dmiItems_supply {constant : Parameter} {crystal : CrystalClass}
    (gives : (dmiItems site name constant crystal).Gives items asked) :
    Supplies site items asked (sidecars ⟨name, .dmi constant crystal⟩) := by
  obtain ⟨className, classified, rest⟩ := Lowering.lift_bind_gives.mp gives
  obtain ⟨⟨fallback, rows⟩, _, rest⟩ := Lowering.lift_bind_gives.mp rest
  obtain ⟨word, _, last⟩ := Lowering.lift_bind_gives.mp rest
  obtain ⟨rfl, rfl⟩ := Lowering.pure_gives.mp last
  have other : className ≠ fileClass := by
    cases platform : site.platform <;> cases crystal <;> rw [platform] at classified <;>
      cases classified <;> decide
  exact .silent (files_item other)

/-- The field files of an anisotropy about one axis. -/
theorem uniaxialItems_supply (identifier : Text.isIdentifier name = true) {k1 axis : Parameter}
    {k2 : Option Parameter} (gives : (uniaxialItems site name k1 k2 axis).Gives items asked) :
    Supplies site items asked (sidecars ⟨name, .uniaxial k1 k2 axis⟩) := by
  obtain ⟨first, _, _, one, rest, rfl⟩ := parameter_gives identifier (by decide) gives
  obtain ⟨second, _, _, two, later, rfl⟩ := parameter_gives identifier (by decide) rest
  cases k2 with
  | none =>
    obtain ⟨rfl, rfl⟩ := Lowering.pure_gives.mp later
    have expected : sidecars ⟨name, .uniaxial k1 none axis⟩ =
        k1.sidecars .scalar (parameterName name "K1") ++
          (axis.sidecars .vector (parameterName name "u") ++ []) := rfl
    simp only [expected, List.append_nil]
    exact (one.append two).before (files_item (by decide))
  | some k2 =>
    obtain ⟨third, _, _, three, last, rfl⟩ := parameter_gives identifier (by decide) later
    obtain ⟨rfl, rfl⟩ := Lowering.pure_gives.mp last
    have expected : sidecars ⟨name, .uniaxial k1 (some k2) axis⟩ =
        k1.sidecars .scalar (parameterName name "K1") ++
          (axis.sidecars .vector (parameterName name "u") ++
            (k2.sidecars .scalar (parameterName name "K2") ++ [])) := rfl
    simp only [expected, List.append_nil, ← List.append_assoc]
    exact ((one.append two).append three).before (files_item (by decide))

/-- The field files of a cubic anisotropy. -/
theorem cubicItems_supply (identifier : Text.isIdentifier name = true)
    {k1 axis1 axis2 : Parameter} (gives : (cubicItems site name k1 axis1 axis2).Gives items asked) :
    Supplies site items asked (sidecars ⟨name, .cubic k1 axis1 axis2⟩) := by
  obtain ⟨first, _, _, one, rest, rfl⟩ := parameter_gives identifier (by decide) gives
  obtain ⟨second, _, _, two, later, rfl⟩ := parameter_gives identifier (by decide) rest
  obtain ⟨third, _, _, three, last, rfl⟩ := parameter_gives identifier (by decide) later
  obtain ⟨rfl, rfl⟩ := Lowering.pure_gives.mp last
  simp only [sidecars, Interaction.parameters, List.flatMap_cons, List.flatMap_nil,
    List.append_nil, ← List.append_assoc]
  exact ((one.append two).append three).before (files_item (by decide))

/-- The field files of a coupling to strain. -/
theorem magnetoElasticItems_supply (identifier : Text.isIdentifier name = true)
    {b1 b2 diagonal offDiagonal : Parameter}
    (gives : (magnetoElasticItems site name b1 b2 diagonal offDiagonal).Gives items asked) :
    Supplies site items asked (sidecars ⟨name, .magnetoElastic b1 b2 diagonal offDiagonal⟩) := by
  obtain ⟨first, _, _, one, rest, rfl⟩ := parameter_gives identifier (by decide) gives
  obtain ⟨second, _, _, two, later, rfl⟩ := parameter_gives identifier (by decide) rest
  obtain ⟨third, _, _, three, latest, rfl⟩ := parameter_gives identifier (by decide) later
  obtain ⟨fourth, _, _, four, last, rfl⟩ := parameter_gives identifier (by decide) latest
  obtain ⟨rfl, rfl⟩ := Lowering.pure_gives.mp last
  simp only [sidecars, Interaction.parameters, List.flatMap_cons, List.flatMap_nil,
    List.append_nil, ← List.append_assoc]
  exact (((one.append two).append three).append four).before (files_item (by decide))

/-- A coupling of two subregions reads no file. -/
theorem rkkyItems_supply {α : Type} [Scalar α] {read : Float → α} {sigma sigma2 : Float}
    {first second : String}
    (gives : (rkkyItems read site name sigma sigma2 first second).Gives items asked) :
    Supplies site items asked (sidecars ⟨name, .rkky sigma sigma2 first second⟩) := by
  obtain ⟨face, _, last⟩ := Lowering.lift_bind_gives.mp gives
  have nothing : asked = [] := last.sidecars.symm
  obtain ⟨direction, _, lowered⟩ := Result.bind_ok.mp last.result
  obtain ⟨s1, _, lowered⟩ := Result.bind_ok.mp lowered
  obtain ⟨s2, _, lowered⟩ := Result.bind_ok.mp lowered
  obtain ⟨surface1, _, lowered⟩ := Result.bind_ok.mp lowered
  obtain ⟨surface2, _, same⟩ := Result.bind_ok.mp lowered
  rw [← Except.ok.inj same, nothing]
  refine .silent ?_
  rw [List.flatMap_cons, files_item (by decide)]
  exact congrArg (· ++ []) (Item.files_object (by decide))

/-- The field files of a term. -/
theorem items_supply {term : Term} (identifier : Text.isIdentifier term.name = true)
    (gives : (term.items site).Gives items asked) : Supplies site items asked term.sidecars := by
  obtain ⟨name, interaction⟩ := term
  cases interaction with
  | exchange constant => exact exchangeItems_supply identifier gives
  | zeeman field wave frequency delay => exact zeemanItems_supply identifier gives
  | demag radius => exact demagItems_supply gives
  | dmi constant crystal => exact dmiItems_supply gives
  | uniaxial k1 k2 axis => exact uniaxialItems_supply identifier gives
  | cubic k1 axis1 axis2 => exact cubicItems_supply identifier gives
  | magnetoElastic b1 b2 diagonal offDiagonal => exact magnetoElasticItems_supply identifier gives
  | rkky sigma sigma2 first second => exact rkkyItems_supply gives

end Term

/-- The field files of terms with names that scripts can use, term by term. -/
theorem Energy.items_supply {site : Site} {energy : Energy}
    (identifiers : ∀ term ∈ energy, Text.isIdentifier term.name = true) {items : List Item}
    {asked : List Sidecar} (gives : (Energy.items site energy).Gives items asked) :
    Supplies site items asked (energy.flatMap Term.sidecars) := by
  induction energy generalizing items asked with
  | nil =>
    obtain ⟨rfl, rfl⟩ := Lowering.pure_gives.mp gives
    exact .silent rfl
  | cons term rest ih =>
    obtain ⟨first, early, _, inner, further, rfl⟩ := Lowering.bind_gives.mp gives
    obtain ⟨others, late, _, tail, last, rfl⟩ := Lowering.bind_gives.mp further
    obtain ⟨rfl, rfl⟩ := Lowering.pure_gives.mp last
    have head := Term.items_supply (identifiers term List.mem_cons_self) inner
    have tail := ih (fun other member => identifiers other (List.mem_cons_of_mem term member)) tail
    rw [List.append_nil]
    exact head.append tail

namespace Evolver

/-- The names of the words that a current which changes in time gives. -/
def currentNames (evolver : Evolver) : List String :=
  if evolver.hasProfile then
    (evolver.kind.profiled?.map fun current =>
      [current ++ "_profile", current ++ "_profile_args"]).getD []
  else []

/-- The field file of an attribute, unless a word for it is given. -/
def attributeSidecars (evolver : Evolver) (given : List String) (name : String) : List Sidecar :=
  if name ∈ given then []
  else
    match evolver.attributes.get? name with
    | some (.parameter value) => value.sidecars (attributeArity name) ("evolver_" ++ name)
    | _ => []

/-- The field files of an evolver under given names, without its own. -/
def sidecars (evolver : Evolver) (given : List String) : List Sidecar :=
  evolver.kind.allowed.flatMap (evolver.attributeSidecars (evolver.currentNames ++ given))

variable {evolver : Evolver} {site : Site} {extras : Extras} {asked : List Sidecar}

/-- Without a procedure of the caller the names of a current are those of its profile. -/
theorem currentNames_eq (plain : evolver.Plain) : evolver.currentNames = evolver.profileNames := by
  unfold currentNames hasProfile profileNames
  rw [plain.procedure, Option.isSome_none, Bool.or_false]
  split
  · cases evolver.kind.profiled? <;> rfl
  · rfl

/-- The files of an evolver bear names of objects in front of it. -/
theorem sidecars_sublist (plain : evolver.Plain) (given : List String) :
    ((evolver.sidecars given).map (·.fileName)).Sublist
      ((evolver.objectNames given).map Parameter.fileName) := by
  unfold sidecars objectNames
  rw [currentNames_eq plain, List.map_flatMap, List.map_flatMap]
  refine List.Sublist.flatMap_right _ fun name _ => ?_
  unfold attributeSidecars attributeObjects
  split
  · exact List.nil_sublist _
  · cases evolver.attributes.get? name with
    | none => exact List.nil_sublist _
    | some value =>
      cases value with
      | text text => exact List.nil_sublist _
      | parameter value => exact Parameter.sidecars_sublist

/-- An attribute reads its file. -/
theorem lowerAttribute_supplies {name : String} (nameNamed : name.toList.all Text.isNameChar = true)
    {lowered : Option LoweredParameter}
    (gives : (evolver.lowerAttribute site extras name).Gives lowered asked) :
    Supplies site (lowered.toList.flatMap (·.items)) asked
      (evolver.attributeSidecars (extras.map (·.1)) name) := by
  unfold lowerAttribute at gives
  unfold attributeSidecars
  cases extra : extras.lookup name with
  | some word =>
    rw [extra] at gives
    obtain ⟨rfl, rfl⟩ := Lowering.pure_gives.mp gives
    rw [if_pos (List.mem_map_of_mem (Keyed.mem_of_lookup extra))]
    exact .silent rfl
  | none =>
    rw [extra] at gives
    rw [if_neg (Keyed.lookup_eq_none_iff_notMem.mp extra)]
    cases found : evolver.attributes.get? name with
    | none =>
      rw [found] at gives
      obtain ⟨rfl, rfl⟩ := Lowering.pure_gives.mp gives
      exact .silent rfl
    | some value =>
      rw [found] at gives
      obtain ⟨result, early, late, inner, last, rfl⟩ := Lowering.bind_gives.mp gives
      obtain ⟨rfl, rfl⟩ := Lowering.pure_gives.mp last
      rw [List.append_nil, Option.toList_some, List.flatMap_singleton]
      cases value with
      | text text =>
        obtain ⟨rfl, rfl⟩ := Lowering.pure_gives.mp inner
        exact .silent rfl
      | parameter value =>
        have identifier : Text.isIdentifier ("evolver_" ++ name) = true :=
          Text.isIdentifier_append (by decide) nameNamed
        exact Parameter.lower_supplies identifier inner

/-- Named attributes read their files. -/
theorem lowerAttributes_supply {names : List String}
    (allNamed : ∀ name ∈ names, name.toList.all Text.isNameChar = true) {items : List Item}
    {entries : List Script.Entry}
    (gives : (evolver.lowerAttributes site extras names).Gives (items, entries) asked) :
    Supplies site items asked (names.flatMap (evolver.attributeSidecars (extras.map (·.1)))) := by
  induction names generalizing items entries asked with
  | nil =>
    obtain ⟨same, rfl⟩ := Lowering.pure_gives.mp gives
    rw [← (Prod.mk.inj same).1]
    exact .silent rfl
  | cons name rest ih =>
    obtain ⟨value, early, _, first, further, rfl⟩ := Lowering.bind_gives.mp gives
    obtain ⟨⟨laterItems, laterEntries⟩, late, _, later, last, rfl⟩ :=
      Lowering.bind_gives.mp further
    obtain ⟨same, rfl⟩ := Lowering.pure_gives.mp last
    have head := lowerAttribute_supplies (allNamed name List.mem_cons_self) first
    have tail := ih (fun other member => allNamed other (List.mem_cons_of_mem name member)) later
    have both := head.append tail
    rw [List.append_nil, List.flatMap_cons]
    cases value with
    | none =>
      rw [← (Prod.mk.inj same).1]
      exact both
    | some result =>
      rw [← (Prod.mk.inj same).1]
      rw [Option.toList_some, List.flatMap_singleton] at both
      exact both

/-- A current gives its names, and its procedure reads no file. -/
theorem profileItems_supply {duration : Option Float} {items : List Item}
    (lowered : evolver.profileItems duration = .ok (items, extras)) :
    items.flatMap Item.files = [] ∧ extras.map (·.1) = evolver.currentNames := by
  unfold profileItems at lowered
  unfold currentNames
  cases changes : evolver.hasProfile with
  | false =>
    rw [changes] at lowered
    obtain ⟨rfl, rfl⟩ := Prod.mk.inj (Except.ok.inj lowered)
    exact ⟨rfl, rfl⟩
  | true =>
    rw [changes] at lowered
    cases kind : evolver.kind.profiled? with
    | none =>
      rw [kind] at lowered
      cases lowered
    | some current =>
      rw [kind] at lowered
      obtain ⟨found, inner, same⟩ := Result.bind_ok.mp lowered
      unfold currentProcedure at inner
      split at inner
      · rename_i noProcedure noProfile
        unfold hasProfile at changes
        rw [noProcedure, noProfile] at changes
        cases changes
      · rw [← Except.ok.inj inner] at same
        obtain ⟨rfl, rfl⟩ := Prod.mk.inj (Except.ok.inj same)
        exact ⟨rfl, rfl⟩
      · obtain ⟨table, _, tabulated⟩ := Result.bind_ok.mp inner
        rw [← Except.ok.inj tabulated] at same
        obtain ⟨rfl, rfl⟩ := Prod.mk.inj (Except.ok.inj same)
        exact ⟨rfl, rfl⟩

/-- The field files of an evolver. -/
theorem items_supply {duration : Option Float} {items : List Item}
    (gives : (evolver.items site extras duration).Gives items asked) :
    Supplies site items asked (evolver.sidecars (extras.map (·.1))) := by
  obtain ⟨⟨procedures, profile⟩, first, rest⟩ := Lowering.lift_bind_gives.mp gives
  obtain ⟨⟨fields, entries⟩, early, late, second, last, rfl⟩ := Lowering.bind_gives.mp rest
  obtain ⟨rfl, rfl⟩ := Lowering.pure_gives.mp last
  obtain ⟨silent, names⟩ := profileItems_supply first
  have attributes := lowerAttributes_supply (fun _ => named_of_allowed) second
  rw [List.map_append, names] at attributes
  have other : evolver.kind.className ≠ fileClass := by
    cases evolver.kind <;> decide
  rw [List.append_nil]
  refine (attributes.behind silent).before ?_
  rw [List.flatMap_singleton, Item.files_object other]

end Evolver

namespace Intent

variable {intent : Intent} {dynamics : Dynamics} {settings : ScriptSettings} {site : Site}

/-- The field files of a drive: those of the evolver with the dynamics bound to it. -/
def sidecars (intent : Intent) (dynamics : Dynamics) (settings : ScriptSettings) : List Sidecar :=
  match (intent.chosenEvolver dynamics).bind dynamics with
  | .ok evolver => evolver.sidecars (fixedNames settings.fixed)
  | .error _ => []

/-- The files of a drive bear names of objects in front of its evolver. -/
theorem sidecars_sublist (plain : intent.Plain settings) :
    ((intent.sidecars dynamics settings).map (·.fileName)).Sublist
      ((intent.helperNames dynamics settings).map Parameter.fileName) := by
  unfold sidecars helperNames
  cases binds : (intent.chosenEvolver dynamics).bind dynamics with
  | ok evolver => exact Evolver.sidecars_sublist ((chosenEvolver_plain plain).bind binds) _
  | error _ => exact List.nil_sublist _

/-- The field of a sweep reads no file. -/
theorem files_appliedItems {items : List Item} (lowered : intent.appliedItems = .ok items) :
    items.flatMap Item.files = [] := by
  unfold appliedItems at lowered
  split at lowered
  · obtain ⟨item, inner, same⟩ := Result.bind_ok.mp lowered
    obtain ⟨rows, _, written⟩ := Result.bind_ok.mp inner
    rw [← Except.ok.inj same, ← Except.ok.inj written]
    rw [List.flatMap_singleton]
    exact Item.files_object (by decide)
  · rw [← Except.ok.inj lowered]
    rfl

/-- Outputs read no file. -/
theorem files_outputItems : (intent.outputItems settings).flatMap Item.files = [] := by
  unfold outputItems
  split <;> cases settings.directive <;> rfl

/-- The field files of a drive. -/
theorem items_supply (named : site.Named) {items : List Item} {asked : List Sidecar}
    (gives : (intent.items site dynamics settings).Gives items asked) :
    Supplies site items asked (intent.sidecars dynamics settings) := by
  obtain ⟨evolver, bound, rest⟩ := Lowering.lift_bind_gives.mp gives
  obtain ⟨extras, fixed, rest⟩ := Lowering.lift_bind_gives.mp rest
  obtain ⟨applied, swept, rest⟩ := Lowering.lift_bind_gives.mp rest
  obtain ⟨evolving, early, late, moved, driving, rfl⟩ := Lowering.bind_gives.mp rest
  obtain ⟨driver, driven, last⟩ := Lowering.lift_bind_gives.mp driving
  obtain ⟨rfl, rfl⟩ := Lowering.pure_gives.mp last
  obtain ⟨entries, _, same⟩ := Result.bind_ok.mp driven
  have expected : intent.sidecars dynamics settings =
      evolver.sidecars (fixedNames settings.fixed) := by
    unfold sidecars
    rw [Result.mapError_ok.mp bound]
  have atlas : "main_atlas" ∈ ["main_atlas"] := List.mem_singleton_self _
  have names : extras.map (·.1) = fixedNames settings.fixed :=
    (fixedSpins_resolve named atlas fixed).2
  have moving := Evolver.items_supply moved
  rw [names, ← expected] at moving
  rw [List.append_nil]
  refine ((moving.behind (files_appliedItems swept)).before ?_).before files_outputItems
  rw [List.flatMap_singleton, ← Except.ok.inj same, Item.files_anonymous]

end Intent

namespace Mesh

variable {mesh : Mesh Float}

/-- A box reads no file. -/
theorem files_box {instanceName name : String} {region : Region Float} {item : Item}
    (lowered : box instanceName name region = .ok item) : item.files = [] := by
  obtain ⟨bounds, _, same⟩ := Result.bind_ok.mp lowered
  rw [← Except.ok.inj same]
  exact Item.files_object (by decide)

/-- The objects of a mesh read no file. -/
theorem files_items {items : List Item} (lowered : mesh.items = .ok items) :
    items.flatMap Item.files = [] := by
  obtain ⟨atlases, first, lowered⟩ := Result.bind_ok.mp lowered
  obtain ⟨cells, second, same⟩ := Result.bind_ok.mp lowered
  have cellFiles : cells.files = [] := by
    obtain ⟨size, _, second⟩ := Result.bind_ok.mp second
    split at second
    · rw [← Except.ok.inj second]
      exact Item.files_object (by decide)
    · rw [← Except.ok.inj second]
      exact Item.files_object (by decide)
  have atlasFiles : ∀ item ∈ atlases, item.files = [] := by
    unfold atlasItems at first
    split at first
    · obtain ⟨item, lowered, same⟩ := Result.bind_ok.mp first
      rw [← Except.ok.inj same]
      exact List.forall_mem_singleton.mpr (files_box lowered)
    · obtain ⟨boxes, inner, lowered⟩ := Result.bind_ok.mp first
      obtain ⟨rest, outer, lowered⟩ := Result.bind_ok.mp lowered
      obtain ⟨bounds, _, same⟩ := Result.bind_ok.mp lowered
      rw [← Except.ok.inj same]
      refine List.forall_mem_append.mpr ⟨fun item member => ?_, List.forall_mem_cons.mpr
        ⟨files_box outer, List.forall_mem_singleton.mpr (Item.files_object (by decide))⟩⟩
      obtain ⟨entry, _, lowered⟩ := Result.exists_of_mem_mapM inner member
      exact files_box lowered
  rw [← Except.ok.inj same]
  exact List.flatMap_eq_nil_iff.mpr
    (List.forall_mem_append.mpr ⟨atlasFiles, List.forall_mem_singleton.mpr cellFiles⟩)

end Mesh

/-- The magnetisation is given by a file. -/
theorem magnetisationItems_supply {site : Site} {m : Field Float} {items : List Item}
    {asked : List Sidecar} (fits : Sidecar.Fits site ⟨"m0.omf", m, false⟩)
    (gives : (magnetisationItems m).Gives items asked) :
    Supplies site items asked [⟨"m0.omf", m, false⟩] := by
  obtain ⟨_, _, _, ⟨_, rfl⟩, last, rfl⟩ := Lowering.bind_gives.mp gives
  obtain ⟨rfl, rfl⟩ := Lowering.pure_gives.mp last
  have file : (Parameter.fileItem "m0" "m0.omf").files = ["m0.omf"] :=
    Parameter.files_fileItem (by decide)
  have norm : (Parameter.normItem "m0").files = [] := Item.files_object (by decide)
  refine ⟨rfl, ?_, List.forall_mem_singleton.mpr fits⟩
  rw [List.flatMap_cons, List.flatMap_singleton, file, norm]
  rfl

namespace Problem

variable {problem : Problem} {intent : Intent} {settings : ScriptSettings} {platform : Platform}

/-- The field files of a problem with its drive: those of its terms, that of its magnetisation and
those of its evolver. -/
def sidecars (problem : Problem) (intent : Intent) (settings : ScriptSettings) : List Sidecar :=
  problem.energy.flatMap Term.sidecars ++
    ⟨"m0.omf", problem.m, false⟩ :: intent.sidecars problem.dynamics settings

/-- The magnetisation of an accepted problem fits its mesh. -/
theorem fits_magnetisation (platform : Platform) (valid : problem.validate = .ok ()) :
    Sidecar.Fits ⟨problem.mesh, platform⟩ ⟨"m0.omf", problem.m, false⟩ := by
  obtain ⟨_, _, valid⟩ := Result.bind_ok.mp valid
  dsimp only at valid
  by_cases components : problem.m.dim ≠ 3
  · rw [if_pos components] at valid
    cases valid
  · rw [if_neg components] at valid
    obtain ⟨_, _, valid⟩ := Result.bind_ok.mp valid
    obtain ⟨_, usable, _⟩ := Result.bind_ok.mp valid
    have named : ∃ name, Text.isIdentifier name = true ∧
        ("m0.omf" = name ++ ".ovf" ∨ "m0.omf" = name ++ ".omf") :=
      ⟨"m0", by decide, .inr (by decide)⟩
    exact ⟨named, Result.mapError_ok.mp usable, rfl, not_not.mp components⟩

/-- A script reads the field files that its lowering asks for, and they fit the mesh. -/
theorem lower_supplies {script : LoweredScript}
    (lowered : problem.lower intent settings platform = .ok script) :
    problem.Accepted ∧ Supplies ⟨problem.mesh, platform⟩ script.items script.sidecars
      (problem.sidecars intent settings) := by
  obtain ⟨items, inner, rfl⟩ := Result.map_ok.mp lowered
  have gives : (problem.items intent settings platform).Gives items _ := ⟨inner, rfl⟩
  obtain ⟨_, valid, rest⟩ := Lowering.lift_bind_gives.mp gives
  obtain ⟨_, _, rest⟩ := Lowering.lift_bind_gives.mp rest
  obtain ⟨mesh, divided, rest⟩ := Lowering.lift_bind_gives.mp rest
  obtain ⟨energy, early, _, contributed, rest, first⟩ := Lowering.bind_gives.mp rest
  obtain ⟨magnetisation, middle, _, given, driving, second⟩ := Lowering.bind_gives.mp rest
  obtain ⟨drive, late, _, driven, last, third⟩ := Lowering.bind_gives.mp driving
  obtain ⟨rfl, empty⟩ := Lowering.pure_gives.mp last
  have accepted := accepted_of_validate (Result.mapError_ok.mp valid)
  have named : Site.Named ⟨problem.mesh, platform⟩ := fun _ member =>
    Mesh.isIdentifier_of_mem_regionNames accepted.mesh member
  have terms := Energy.items_supply (fun term member => (accepted.usable term member).1)
    contributed
  have initial := magnetisationItems_supply
    (fits_magnetisation platform (Result.mapError_ok.mp valid)) given
  have evolving := Intent.items_supply named driven
  refine ⟨accepted, ?_⟩
  have all := ((terms.append initial).append evolving).behind (Mesh.files_items divided)
  have options : [Item.options problem.name settings.format].flatMap Item.files = [] := rfl
  have whole := all.behind options
  show Supplies _ _ (problem.items intent settings platform).sidecars _
  rw [first, second, third, empty]
  simpa [sidecars] using whole

/-- The names of files with different extensions of one length differ. -/
theorem extension_ne {first second extension other : String}
    (lengths : extension.toList.length = other.toList.length) (differ : extension ≠ other) :
    first ++ extension ≠ second ++ other := by
  intro same
  have texts : first.toList ++ extension.toList = second.toList ++ other.toList := by
    rw [← String.toList_append, ← String.toList_append, same]
  exact differ (String.toList_inj.mp (List.append_inj_right' texts lengths))

/-- The names of the field files of a problem differ. -/
theorem sidecars_distinct (accepted : problem.Accepted) (plain : intent.Plain settings) :
    ((problem.sidecars intent settings).map (·.fileName)).Nodup := by
  have terms : ((problem.energy.flatMap Term.sidecars).map (·.fileName)).Sublist
      ((problem.energy.flatMap Term.helperNames).map Parameter.fileName) := by
    rw [List.map_flatMap, List.map_flatMap]
    exact List.Sublist.flatMap_right _ fun term _ => term.sidecars_sublist
  have evolving : ((intent.sidecars problem.dynamics settings).map (·.fileName)).Sublist _ :=
    Intent.sidecars_sublist plain
  have derived : (problem.energy.flatMap Term.helperNames ++
      intent.helperNames problem.dynamics settings).Nodup :=
    (List.nodup_append'.mp (derivedNames_distinct accepted intent settings).1).2.1
  have names : ((problem.energy.flatMap Term.helperNames ++
      intent.helperNames problem.dynamics settings).map Parameter.fileName).Nodup :=
    derived.map fun _ _ same => (String.append_left_inj ".ovf").mp same
  have sublist : ((problem.energy.flatMap Term.sidecars ++
      intent.sidecars problem.dynamics settings).map (·.fileName)).Sublist
      ((problem.energy.flatMap Term.helperNames ++
        intent.helperNames problem.dynamics settings).map Parameter.fileName) := by
    rw [List.map_append, List.map_append]
    exact terms.append evolving
  have apart : "m0.omf" ∉ (problem.energy.flatMap Term.sidecars ++
      intent.sidecars problem.dynamics settings).map (·.fileName) := by
    intro member
    obtain ⟨name, _, same⟩ := List.mem_map.mp (sublist.subset member)
    have magnetisation : "m0.omf" = "m0" ++ ".omf" := by decide
    rw [magnetisation] at same
    exact extension_ne (by decide) (by decide) same
  have order : ((problem.sidecars intent settings).map (·.fileName)).Perm
      ("m0.omf" :: (problem.energy.flatMap Term.sidecars ++
        intent.sidecars problem.dynamics settings).map (·.fileName)) := by
    unfold sidecars
    rw [List.map_append, List.map_append, List.map_cons]
    exact List.perm_middle
  rw [order.nodup_iff, List.nodup_cons]
  exact ⟨apart, names.sublist sublist⟩

/-- The script of a problem without text of the caller reads exactly the field files that are
written beside it, each once: their names differ, and none is that of the script. -/
theorem files_agree (plain : intent.Plain settings) {script : LoweredScript}
    (lowered : problem.lower intent settings platform = .ok script) :
    (script.sidecars.map (·.fileName)).Nodup ∧
      problem.name ++ ".mif" ∉ script.sidecars.map (·.fileName) ∧
      filesRead script.text.toList = script.sidecars.map (·.fileName) := by
  obtain ⟨accepted, supplies⟩ := lower_supplies lowered
  have resolves := (lower_emits plain lowered).2.resolves
  rw [supplies.asked]
  refine ⟨sidecars_distinct accepted plain, fun member => ?_, ?_⟩
  · obtain ⟨sidecar, inside, script⟩ := List.mem_map.mp member
    obtain ⟨name, _, same | same⟩ := (supplies.fits sidecar inside).named
    · exact extension_ne (by decide) (by decide) (same.symm.trans script)
    · exact extension_ne (by decide) (by decide) (same.symm.trans script)
  · unfold LoweredScript.text
    rw [resolves.filesRead_render, supplies.files]

/-- The script of a problem with an anisotropy that is given cell by cell reads the files of the
anisotropy and of the magnetisation. -/
theorem clashing_files :
    ∃ script, clashing.lower { goal := .minimise } {} .unix = .ok script ∧
      filesRead script.text.toList = ["a_K1.ovf", "m0.omf"] := by
  have accepted : (clashing.lower { goal := .minimise } {} .unix).toOption.isSome = true := by
    decide
  obtain ⟨script, kept⟩ := Option.isSome_iff_exists.mp accepted
  have lowered := Result.ok_of_toOption kept
  have plain : Intent.Plain { goal := .minimise } {} := .of_default rfl rfl
  have expected : (clashing.sidecars { goal := .minimise } {}).map (·.fileName) =
      ["a_K1.ovf", "m0.omf"] := by
    decide
  have asked := (lower_supplies lowered).2.asked
  obtain ⟨_, _, files⟩ := files_agree plain lowered
  refine ⟨script, lowered, ?_⟩
  rw [files, asked, expected]

end Problem

end Micromag
