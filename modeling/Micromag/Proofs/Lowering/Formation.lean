import Micromag.Proofs.Lowering.Driver
import Micromag.Proofs.Lowering.Energy
import Micromag.Proofs.Lowering.Problem
import Micromag.Proofs.Script.Formation

/-!
# What is lowered is well-formed

Every name that reaches a script was checked somewhere: the name of the problem, those of terms and
subregions, the keys of region maps and of pairs, the subregions that are fixed. Numbers have no
braces. So what is lowered writes no brace of its own, and the regions that it names are regions of
the mesh. Only the mesh declares atlases.
-/

namespace Micromag

open Script

variable {site : Site} {name : String} {regions : List String} {items : List Item}

/-- The classes of atlases, which only a mesh declares. -/
def atlasClasses : List String := ["Oxs_BoxAtlas", "Oxs_MultiAtlas"]

/-- Whether an item is well-formed and no atlas. -/
def Script.Item.Built (regions : List String) (item : Item) : Prop :=
  item.Formed regions ∧ ∀ block ∈ item.block?, block.className ∉ atlasClasses

/-- An object with well-formed options that is no atlas. -/
theorem built_object {className : String} {entries : List Script.Entry}
    (other : className ∉ atlasClasses) (formed : ∀ entry ∈ entries, entry.Formed regions) :
    (Item.object className name entries).Built regions :=
  ⟨formed, fun _ same => Option.some.inj same ▸ other⟩

/-- A well-formed item that declares nothing is no atlas. -/
theorem built_of_noBlock {item : Item} (formed : item.Formed regions) (noBlock : item.block? = none) :
    item.Built regions :=
  ⟨formed, fun block member => by
    rw [noBlock] at member
    cases member⟩

/-! ## Numbers -/

/-- The text of a number is bare. -/
theorem isBare_numberText {x : Float} {text : String} (written : numberText x = .ok text) :
    isBare text = true :=
  isBare_of_all (fun _ member => List.contains_iff_mem.mpr (mem_numberChars written member))
    (by decide)

/-- A number is bare text. -/
theorem number_text {x : Float} {atom : Atom} (written : number x = .ok atom) :
    ∃ text, atom = .text text ∧ isBare text = true := by
  obtain ⟨text, inner, rfl⟩ := Result.map_ok.mp written
  exact ⟨text, rfl, isBare_numberText inner⟩

/-- A number is a simple word. -/
theorem numberWord_simple {x : Float} {word : Word} (written : numberWord x = .ok word) :
    word.Simple := by
  obtain ⟨atom, inner, rfl⟩ := Result.map_ok.mp written
  obtain ⟨text, rfl, bare⟩ := number_text inner
  exact bare

/-- Numbers are bare texts. -/
theorem mapM_number_text {xs : List Float} {atoms : List Atom}
    (written : xs.mapM number = .ok atoms) :
    ∀ atom ∈ atoms, ∃ text, atom = .text text ∧ isBare text = true := fun _ member =>
  let ⟨_, _, inner⟩ := Result.exists_of_mem_mapM written member
  number_text inner

/-- Numbers between braces are a simple word. -/
theorem numbers_simple {xs : List Float} {word : Word} (written : numbers xs = .ok word) :
    word.Simple := by
  obtain ⟨atoms, inner, rfl⟩ := Result.map_ok.mp written
  exact mapM_number_text inner

/-- Bare text is a simple word. -/
theorem simple_text {text : String} (bare : isBare text = true) : (Word.text text).Simple := bare

/-- A reference to an object with a bare name is a simple word. -/
theorem simple_reference (bare : isBare name = true) : (Word.reference name).Simple := by
  show isBare (":" ++ name) = true
  rw [isBare_append, bare]
  decide

/-- The digits of a natural number are bare. -/
theorem isBare_toString (n : Nat) : isBare (toString n) = true := by
  have digits : (toString n).toList = Nat.toDigits 10 n := String.toList_ofList
  have each : ∀ c ∈ (toString n).toList, c.isDigit = true := fun c member =>
    Nat.isDigit_of_mem_toDigits (by decide) (by decide) (digits ▸ member)
  exact isBare_of_all each (by decide)

/-- A number with its key. -/
theorem formed_number {key : String} {x : Float} {word : Word} (bare : isBare key = true)
    (written : numberWord x = .ok word) : (Script.Entry.setting key word).Formed regions :=
  formed_setting bare (numberWord_simple written)

/-- The option that refers to the main atlas. -/
theorem formed_mainAtlas : Mesh.mainAtlas.Formed regions :=
  formed_setting (by decide) (simple_reference (by decide))

/-! ## Parameters -/

/-- The word of a value is simple. -/
theorem RegionValue.word_simple {value : RegionValue} {word : Word}
    (lowered : value.word = .ok word) : word.Simple := by
  cases value with
  | scalar x => exact numberWord_simple lowered
  | vector v => exact numbers_simple lowered

namespace Parameter

variable {arity : Arity}

/-- The word of a value of some arity is simple. -/
theorem arityWord_simple {kind : String} {value : RegionValue} {word : Word}
    (lowered : arityWord arity name kind value = .ok word) : word.Simple := by
  unfold arityWord at lowered
  split at lowered
  · exact RegionValue.word_simple lowered
  · cases lowered

/-- What a lowered parameter is: well-formed objects, and a simple word. -/
structure Made (regions : List String) (lowered : LoweredParameter) : Prop where
  /-- The objects are well-formed. -/
  items : ∀ item ∈ lowered.items, item.Built regions
  /-- The word is simple. -/
  token : lowered.token.Simple

/-- A simple word without objects. -/
theorem Made.word {word : Word} (simple : word.Simple) : Made regions ⟨[], word⟩ := ⟨nofun, simple⟩

/-- The field object of a region map. -/
theorem regionItem_built (named : site.Named) {map : RegionMap} {item : Item}
    (lowered : regionItem arity site name map = .ok item) : item.Built site.mesh.regionNames := by
  obtain ⟨rows, inner, lowered⟩ := Result.bind_ok.mp lowered
  obtain ⟨fallback, written, same⟩ := Result.bind_ok.mp lowered
  rw [← Except.ok.inj same]
  have row (row : List Word) (member : row ∈ rows) : ∃ region word,
      region ∈ site.mesh.regionNames ∧ word.Simple ∧ row = [.text region, word] := by
    obtain ⟨entry, _, lowered⟩ := Result.exists_of_mem_mapM inner member
    obtain ⟨_, accepted, lowered⟩ := Result.bind_ok.mp lowered
    obtain ⟨word, written, same⟩ := Result.bind_ok.mp lowered
    exact ⟨entry.1, word, mem_of_checkRegion accepted, arityWord_simple written,
      (Except.ok.inj same).symm⟩
  have values : (Script.Entry.table "values" rows).Formed site.mesh.regionNames := by
    refine formed_table (by decide) (fun line member => ?_) fun line member => ?_
    · obtain ⟨region, word, known, simple, rfl⟩ := row line member
      exact List.forall_mem_cons.mpr ⟨simple_text (isBare_of_isIdentifier (named region known)),
        List.forall_mem_singleton.mpr simple⟩
    · obtain ⟨region, word, known, -, rfl⟩ := row line member
      exact List.forall_mem_singleton.mpr known
  have other : arity.regionClass ∉ atlasClasses := by
    cases arity <;> decide
  exact built_object other (List.forall_mem_cons.mpr ⟨formed_mainAtlas, List.forall_mem_cons.mpr
    ⟨formed_setting (by decide) (arityWord_simple written), List.forall_mem_singleton.mpr values⟩⟩)

/-- The object that reads a file. -/
theorem fileItem_built {file : String} (bare : isBare file = true) :
    (fileItem name file).Built regions :=
  built_object (by decide) (List.forall_mem_cons.mpr
    ⟨formed_setting (by decide) (simple_text bare),
      List.forall_mem_singleton.mpr formed_mainAtlas⟩)

/-- The object that takes magnitudes. -/
theorem normItem_built (bare : isBare name = true) : (normItem name).Built regions :=
  built_object (by decide) (List.forall_mem_singleton.mpr
    (formed_setting (by decide) (simple_reference bare)))

/-- The word of a parameter under a bare name is simple. -/
theorem lower_simple {arity : Arity} {value : Parameter} {result : LoweredParameter}
    (bare : isBare name = true) (lowered : (value.lower arity site name).result = .ok result) :
    result.token.Simple := by
  have constant {kind : String} {value : RegionValue}
      (lowered : constantWord arity name kind value = .ok result) : result.token.Simple := by
    obtain ⟨word, written, same⟩ := Result.bind_ok.mp lowered
    rw [← Except.ok.inj same]
    exact arityWord_simple written
  cases value with
  | constant x => exact constant lowered
  | vector v => exact constant lowered
  | perRegion map =>
    obtain ⟨item, inner, same⟩ := Lowering.bind_ok.mp lowered
    rw [← Lowering.pure_ok.mp same]
    exact simple_reference bare
  | field f =>
    obtain ⟨_, _, lowered⟩ := Lowering.bind_ok.mp lowered
    obtain ⟨_, _, lowered⟩ := Lowering.bind_ok.mp lowered
    cases arity with
    | scalar =>
      rw [← Lowering.pure_ok.mp lowered]
      refine simple_reference ?_
      unfold normName
      rw [isBare_append, bare]
      decide
    | vector =>
      rw [← Lowering.pure_ok.mp lowered]
      exact simple_reference bare

/-- A parameter that is lowered under a bare name. -/
theorem lower_made (named : site.Named) (bare : isBare name = true) {value : Parameter}
    {result : LoweredParameter} (lowered : (value.lower arity site name).result = .ok result) :
    Made site.mesh.regionNames result := by
  refine ⟨?_, lower_simple bare lowered⟩
  have constant {kind : String} {value : RegionValue}
      (lowered : constantWord arity name kind value = .ok result) :
      ∀ item ∈ result.items, item.Built site.mesh.regionNames := by
    obtain ⟨word, _, same⟩ := Result.bind_ok.mp lowered
    rw [← Except.ok.inj same]
    exact nofun
  cases value with
  | constant x => exact constant lowered
  | vector v => exact constant lowered
  | perRegion map =>
    obtain ⟨item, inner, same⟩ := Lowering.bind_ok.mp lowered
    rw [← Lowering.pure_ok.mp same]
    exact List.forall_mem_singleton.mpr (regionItem_built named inner)
  | field f =>
    obtain ⟨_, _, lowered⟩ := Lowering.bind_ok.mp lowered
    obtain ⟨_, _, lowered⟩ := Lowering.bind_ok.mp lowered
    have file : isBare (fileName name) = true := by
      unfold fileName
      rw [isBare_append, bare]
      decide
    cases arity with
    | scalar =>
      rw [← Lowering.pure_ok.mp lowered]
      exact List.forall_mem_cons.mpr ⟨fileItem_built file,
        List.forall_mem_singleton.mpr (normItem_built bare)⟩
    | vector =>
      rw [← Lowering.pure_ok.mp lowered]
      exact List.forall_mem_singleton.mpr (fileItem_built file)

end Parameter

/-! ## Energy terms -/

/-- A table of pairs of regions of the mesh. -/
theorem formed_pairs (named : site.Named) {key : String} {rows : List (List Word)}
    (bare : isBare key = true)
    (pairs : ∀ row ∈ rows, ∃ (pair : PairValue) (value : Word), pair.Known site ∧
      numberWord pair.value = .ok value ∧ row = [.text pair.first, .text pair.second, value])
    (keyed : key = "A" ∨ key = "D") :
    (Script.Entry.table key rows).Formed site.mesh.regionNames := by
  refine formed_table bare (fun row member => ?_) fun row member => ?_
  · obtain ⟨pair, value, known, written, rfl⟩ := pairs row member
    exact List.forall_mem_cons.mpr ⟨simple_text (isBare_of_isIdentifier (named _ known.1)),
      List.forall_mem_cons.mpr ⟨simple_text (isBare_of_isIdentifier (named _ known.2)),
        List.forall_mem_singleton.mpr (numberWord_simple written)⟩⟩
  · obtain ⟨pair, value, known, -, rfl⟩ := pairs row member
    have regions : rowRegions key [.text pair.first, .text pair.second, value] =
        [pair.first, pair.second] := by
      rcases keyed with rfl | rfl <;> rfl
    rw [regions]
    exact List.forall_mem_cons.mpr ⟨known.1, List.forall_mem_singleton.mpr known.2⟩

namespace Term

/-- When something is lowered behind a parameter of a term, the parameter is made. -/
theorem made_of_parameter (named : site.Named) (identifier : Text.isIdentifier name = true)
    {key : String} {arity : Arity} {value : Parameter} {α : Type}
    {next : LoweredParameter → Lowering α} {result : α} (bare : isBare key = true)
    (lowered : (value.lower arity site (parameterName name key) >>= next).result = .ok result) :
    ∃ parameter, Parameter.Made site.mesh.regionNames parameter ∧
      (next parameter).result = .ok result := by
  obtain ⟨parameter, inner, lowered⟩ := Lowering.bind_ok.mp lowered
  have own : isBare (parameterName name key) = true := by
    unfold parameterName
    rw [isBare_append, isBare_append, isBare_of_isIdentifier identifier, bare]
    decide
  exact ⟨parameter, Parameter.lower_made named own inner, lowered⟩

/-- An object behind objects. -/
theorem built_concat {className : String} {entries : List Script.Entry} {front : List Item}
    (built : ∀ item ∈ front, item.Built regions) (other : className ∉ atlasClasses)
    (formed : ∀ entry ∈ entries, entry.Formed regions) :
    ∀ one ∈ front ++ [item className name entries], one.Built regions :=
  List.forall_mem_append.mpr
    ⟨built, List.forall_mem_singleton.mpr (built_object other formed)⟩

/-- An object alone. -/
theorem built_alone {className : String} {entries : List Script.Entry}
    (other : className ∉ atlasClasses) (formed : ∀ entry ∈ entries, entry.Formed regions) :
    ∀ one ∈ [item className name entries], one.Built regions :=
  List.forall_mem_singleton.mpr (built_object other formed)

/-- The objects of an exchange term. -/
theorem exchangeItems_built (named : site.Named) (identifier : Text.isIdentifier name = true)
    {constant : Parameter} (lowered : (exchangeItems site name constant).result = .ok items) :
    ∀ item ∈ items, item.Built site.mesh.regionNames := by
  cases constant with
  | constant a =>
    unfold exchangeItems at lowered
    dsimp only at lowered
    by_cases refused : (!decide (0 < a)) = true
    · rw [if_pos refused] at lowered
      cases lowered
    · rw [if_neg refused] at lowered
      obtain ⟨word, written, same⟩ := Lowering.bind_ok.mp lowered
      rw [← Lowering.pure_ok.mp same]
      exact built_alone (by decide)
        (List.forall_mem_singleton.mpr (formed_number (by decide) written))
  | perRegion map =>
    obtain ⟨rows, inner, lowered⟩ := Lowering.bind_ok.mp lowered
    obtain ⟨value, _, lowered⟩ := Lowering.bind_ok.mp lowered
    obtain ⟨fallback, written, same⟩ := Lowering.bind_ok.mp lowered
    rw [← Lowering.pure_ok.mp same]
    have table : (Script.Entry.table "A" rows).Formed site.mesh.regionNames :=
      formed_pairs named (by decide) (fun _ => PairValue.row_of_table inner) (.inl rfl)
    exact built_alone (by decide) (List.forall_mem_cons.mpr ⟨formed_number (by decide) written,
      List.forall_mem_cons.mpr ⟨formed_mainAtlas, List.forall_mem_singleton.mpr table⟩⟩)
  | field f =>
    obtain ⟨a, made, same⟩ := made_of_parameter named identifier (by decide) lowered
    rw [← Lowering.pure_ok.mp same]
    exact built_concat made.items (by decide)
      (List.forall_mem_singleton.mpr (formed_setting (by decide) made.token))
  | vector v => cases lowered

/-- The procedure of a wave. -/
theorem waveProcedure?_formed {procedureName : String} {wave : Wave} {procedure : Procedure}
    (bare : isBare procedureName = true)
    (found : waveProcedure? procedureName wave = some procedure) :
    (Item.procedure procedure).Formed regions := by
  have balanced : ∀ body ∈ waveBody? wave, Balanced ((assignment "PI" "4*atan(1.0)" :: body ++
      ["return [list $wave $wave $wave $dwave $dwave $dwave]"]).flatMap fun line =>
        line.toList) := by
    cases wave with
    | constant => exact nofun
    | sin | sinc =>
      rintro _ ⟨rfl⟩
      exact balanced_iff.mpr (by decide +kernel)
  have emitted : procedure.Emitted := .inl ⟨_, _, found⟩
  obtain ⟨body, written, rfl⟩ := Option.map_eq_some_iff.mp found
  have parameters : isBare "f t0 stage stagetime totaltime" = true := by decide
  exact ⟨emitted, bare, parameters, balanced body written⟩

/-- The objects of an applied field. -/
theorem zeemanItems_built (named : site.Named) (identifier : Text.isIdentifier name = true)
    {field : Parameter} {wave : Option Wave} {frequency delay : Option Float}
    (lowered : (zeemanItems site name field wave frequency delay).result = .ok items) :
    ∀ item ∈ items, item.Built site.mesh.regionNames := by
  obtain ⟨h, made, lowered⟩ := made_of_parameter named identifier (by decide) lowered
  have bare : isBare ("TimeFunction_" ++ name) = true := by
    rw [isBare_append, isBare_of_isIdentifier identifier]
    decide
  dsimp only at lowered
  split at lowered
  · rw [← Lowering.pure_ok.mp lowered]
    exact built_concat made.items (by decide)
      (List.forall_mem_singleton.mpr (formed_setting (by decide) made.token))
  · rename_i procedure found
    cases frequency with
    | none => cases lowered
    | some frequency =>
      obtain ⟨f, first, lowered⟩ := Lowering.bind_ok.mp lowered
      obtain ⟨t0, second, same⟩ := Lowering.bind_ok.mp lowered
      rw [← Lowering.pure_ok.mp same, List.append_cons]
      have defined : (Item.procedure procedure).Built site.mesh.regionNames :=
        built_of_noBlock (waveProcedure?_formed bare found) rfl
      have names : (Word.group [.text "stage", .text "stage_time", .text "total_time"]).Simple :=
        List.forall_mem_cons.mpr ⟨⟨_, rfl, by decide⟩, List.forall_mem_cons.mpr
          ⟨⟨_, rfl, by decide⟩, List.forall_mem_singleton.mpr ⟨_, rfl, by decide⟩⟩⟩
      have script : (Word.group [.text ("TimeFunction_" ++ name), f, t0]).Simple :=
        List.forall_mem_cons.mpr ⟨⟨_, rfl, bare⟩, List.forall_mem_cons.mpr
          ⟨number_text first, List.forall_mem_singleton.mpr (number_text second)⟩⟩
      refine built_concat
        (List.forall_mem_append.mpr ⟨made.items, List.forall_mem_singleton.mpr defined⟩)
        (by decide) (List.forall_mem_cons.mpr
          ⟨formed_setting (by decide) (simple_text (by decide)), List.forall_mem_cons.mpr
            ⟨formed_setting (by decide) names, List.forall_mem_cons.mpr
              ⟨formed_setting (by decide) script, List.forall_mem_singleton.mpr
                (formed_setting (by decide) made.token)⟩⟩⟩)

/-- The demagnetising field. -/
theorem demagItems_built {radius : Option Float}
    (lowered : (demagItems name radius).result = .ok items) :
    ∀ item ∈ items, item.Built regions := by
  cases radius with
  | none =>
    rw [← Lowering.pure_ok.mp lowered]
    exact built_alone (by decide) nofun
  | some radius =>
    obtain ⟨word, written, same⟩ := Lowering.bind_ok.mp lowered
    rw [← Lowering.pure_ok.mp same]
    exact built_alone (by decide)
      (List.forall_mem_singleton.mpr (formed_number (by decide) written))

/-- Antisymmetric exchange. -/
theorem dmiItems_built (named : site.Named) {constant : Parameter} {crystal : CrystalClass}
    (lowered : (dmiItems site name constant crystal).result = .ok items) :
    ∀ item ∈ items, item.Built site.mesh.regionNames := by
  obtain ⟨className, classified, lowered⟩ := Lowering.bind_ok.mp lowered
  obtain ⟨⟨fallback, rows⟩, inner, lowered⟩ := Lowering.bind_ok.mp lowered
  obtain ⟨word, written, same⟩ := Lowering.bind_ok.mp lowered
  rw [← Lowering.pure_ok.mp same]
  have other : className ∉ atlasClasses := by
    have classes : dmiClass crystal site.platform = .ok className := classified
    cases platform : site.platform <;> cases crystal <;> rw [platform] at classes <;>
      cases classes <;> decide
  have table : (Script.Entry.table "D" rows).Formed site.mesh.regionNames :=
    formed_pairs named (by decide) (fun _ => row_of_dmiRows inner) (.inr rfl)
  exact built_alone other (List.forall_mem_cons.mpr ⟨formed_number (by decide) written,
    List.forall_mem_cons.mpr ⟨formed_mainAtlas, List.forall_mem_singleton.mpr table⟩⟩)

/-- The objects of an anisotropy about one axis. -/
theorem uniaxialItems_built (named : site.Named) (identifier : Text.isIdentifier name = true)
    {k1 axis : Parameter} {k2 : Option Parameter}
    (lowered : (uniaxialItems site name k1 k2 axis).result = .ok items) :
    ∀ item ∈ items, item.Built site.mesh.regionNames := by
  obtain ⟨first, made1, lowered⟩ := made_of_parameter named identifier (by decide) lowered
  obtain ⟨second, made2, lowered⟩ := made_of_parameter named identifier (by decide) lowered
  have both := List.forall_mem_append.mpr ⟨made1.items, made2.items⟩
  cases k2 with
  | none =>
    rw [← Lowering.pure_ok.mp lowered]
    exact built_concat both (by decide) (List.forall_mem_cons.mpr
      ⟨formed_setting (by decide) made1.token, List.forall_mem_singleton.mpr
        (formed_setting (by decide) made2.token)⟩)
  | some k2 =>
    obtain ⟨third, made3, same⟩ := made_of_parameter named identifier (by decide) lowered
    rw [← Lowering.pure_ok.mp same]
    exact built_concat (List.forall_mem_append.mpr ⟨both, made3.items⟩) (by decide)
      (List.forall_mem_cons.mpr ⟨formed_setting (by decide) made1.token, List.forall_mem_cons.mpr
        ⟨formed_setting (by decide) made3.token, List.forall_mem_singleton.mpr
          (formed_setting (by decide) made2.token)⟩⟩)

/-- The objects of a cubic anisotropy. -/
theorem cubicItems_built (named : site.Named) (identifier : Text.isIdentifier name = true)
    {k1 axis1 axis2 : Parameter}
    (lowered : (cubicItems site name k1 axis1 axis2).result = .ok items) :
    ∀ item ∈ items, item.Built site.mesh.regionNames := by
  obtain ⟨first, made1, lowered⟩ := made_of_parameter named identifier (by decide) lowered
  obtain ⟨second, made2, lowered⟩ := made_of_parameter named identifier (by decide) lowered
  obtain ⟨third, made3, same⟩ := made_of_parameter named identifier (by decide) lowered
  rw [← Lowering.pure_ok.mp same]
  exact built_concat (List.forall_mem_append.mpr
    ⟨List.forall_mem_append.mpr ⟨made1.items, made2.items⟩, made3.items⟩) (by decide)
    (List.forall_mem_cons.mpr ⟨formed_setting (by decide) made1.token, List.forall_mem_cons.mpr
      ⟨formed_setting (by decide) made2.token, List.forall_mem_singleton.mpr
        (formed_setting (by decide) made3.token)⟩⟩)

/-- The objects of a coupling to strain. -/
theorem magnetoElasticItems_built (named : site.Named) (identifier : Text.isIdentifier name = true)
    {b1 b2 diagonal offDiagonal : Parameter}
    (lowered : (magnetoElasticItems site name b1 b2 diagonal offDiagonal).result = .ok items) :
    ∀ item ∈ items, item.Built site.mesh.regionNames := by
  obtain ⟨first, made1, lowered⟩ := made_of_parameter named identifier (by decide) lowered
  obtain ⟨second, made2, lowered⟩ := made_of_parameter named identifier (by decide) lowered
  obtain ⟨third, made3, lowered⟩ := made_of_parameter named identifier (by decide) lowered
  obtain ⟨fourth, made4, same⟩ := made_of_parameter named identifier (by decide) lowered
  rw [← Lowering.pure_ok.mp same]
  exact built_concat (List.forall_mem_append.mpr ⟨List.forall_mem_append.mpr
    ⟨List.forall_mem_append.mpr ⟨made1.items, made2.items⟩, made3.items⟩, made4.items⟩)
    (by decide) (List.forall_mem_cons.mpr ⟨formed_setting (by decide) made1.token,
      List.forall_mem_cons.mpr ⟨formed_setting (by decide) made2.token, List.forall_mem_cons.mpr
        ⟨formed_setting (by decide) made3.token, List.forall_mem_singleton.mpr
          (formed_setting (by decide) made4.token)⟩⟩⟩)

/-- A side of a coupled face. -/
theorem surface_formed (named : site.Named) {key fieldName region side : String}
    (keyed : key = "surface1" ∨ key = "surface2") (field : isBare fieldName = true)
    (known : region ∈ site.mesh.regionNames) (sided : isBare side = true) {value : Float}
    {entry : Script.Entry} (lowered : surface key fieldName region value side = .ok entry) :
    entry.Formed site.mesh.regionNames := by
  obtain ⟨word, written, same⟩ := Result.bind_ok.mp lowered
  rw [← Except.ok.inj same]
  have bare : isBare key = true := by
    rcases keyed with rfl | rfl <;> decide
  have pair {label : String} {word : Word} (plain : isBare label = true) (simple : word.Simple) :
      ∀ part ∈ [.text label, word], part.Simple :=
    List.forall_mem_cons.mpr ⟨simple_text plain, List.forall_mem_singleton.mpr simple⟩
  have regionBare := isBare_of_isIdentifier (named region known)
  refine formed_table bare (List.forall_mem_cons.mpr
    ⟨pair (by decide) (simple_reference (by decide)), List.forall_mem_cons.mpr
      ⟨pair (by decide) (simple_text regionBare), List.forall_mem_cons.mpr
        ⟨pair (by decide) (simple_reference field), List.forall_mem_cons.mpr
          ⟨pair (by decide) (numberWord_simple written), List.forall_mem_singleton.mpr
            (pair (by decide) (simple_text sided))⟩⟩⟩⟩) ?_
  -- of the rows of a side only the second names a region
  have silent {label : String} {word : Word} (other : label ≠ "region") :
      ∀ name ∈ rowRegions key [.text label, word], name ∈ site.mesh.regionNames := by
    rw [rowRegions_side keyed, if_neg other]
    exact nofun
  refine List.forall_mem_cons.mpr ⟨silent (by decide), List.forall_mem_cons.mpr ⟨?_,
    List.forall_mem_cons.mpr ⟨silent (by decide), List.forall_mem_cons.mpr ⟨silent (by decide),
      List.forall_mem_singleton.mpr (silent (by decide))⟩⟩⟩⟩
  rw [rowRegions_side keyed, if_pos rfl]
  exact List.forall_mem_singleton.mpr known

/-- The objects of a coupling of two subregions. -/
theorem rkkyItems_built (named : site.Named) (identifier : Text.isIdentifier name = true)
    {α : Type} [Scalar α] {read : Float → α} {sigma sigma2 : Float} {first second : String}
    (lowered : (rkkyItems read site name sigma sigma2 first second).result = .ok items) :
    ∀ item ∈ items, item.Built site.mesh.regionNames := by
  obtain ⟨face, shared, lowered⟩ := Lowering.bind_ok.mp lowered
  have sides := mem_of_sharedFace shared
  have lowered : faceItems name sigma sigma2 face = .ok items := lowered
  obtain ⟨direction, vector, lowered⟩ := Result.bind_ok.mp lowered
  obtain ⟨s1, written1, lowered⟩ := Result.bind_ok.mp lowered
  obtain ⟨s2, written2, lowered⟩ := Result.bind_ok.mp lowered
  obtain ⟨surface1, made1, lowered⟩ := Result.bind_ok.mp lowered
  obtain ⟨surface2, made2, same⟩ := Result.bind_ok.mp lowered
  rw [← Except.ok.inj same]
  have fieldBare : isBare (parameterName name "field") = true := by
    unfold parameterName
    rw [isBare_append, isBare_append, isBare_of_isIdentifier identifier]
    decide
  refine List.forall_mem_cons.mpr ⟨built_object (by decide) (List.forall_mem_cons.mpr
    ⟨formed_setting (by decide) (numbers_simple vector), List.forall_mem_singleton.mpr
      (formed_setting (by decide) (simple_text (by decide)))⟩), ?_⟩
  exact built_alone (by decide) (List.forall_mem_cons.mpr ⟨formed_number (by decide) written1,
    List.forall_mem_cons.mpr ⟨formed_number (by decide) written2, List.forall_mem_cons.mpr
      ⟨surface_formed named (.inl rfl) fieldBare sides.1 (by decide) made1,
        List.forall_mem_singleton.mpr
          (surface_formed named (.inr rfl) fieldBare sides.2 (by decide) made2)⟩⟩⟩)

/-- The objects of a term. -/
theorem items_built (named : site.Named) {term : Term}
    (identifier : Text.isIdentifier term.name = true)
    (lowered : (term.items site).result = .ok items) :
    ∀ item ∈ items, item.Built site.mesh.regionNames := by
  obtain ⟨name, interaction⟩ := term
  cases interaction with
  | exchange constant => exact exchangeItems_built named identifier lowered
  | zeeman field wave frequency delay => exact zeemanItems_built named identifier lowered
  | demag radius => exact demagItems_built lowered
  | dmi constant crystal => exact dmiItems_built named lowered
  | uniaxial k1 k2 axis => exact uniaxialItems_built named identifier lowered
  | cubic k1 axis1 axis2 => exact cubicItems_built named identifier lowered
  | magnetoElastic b1 b2 diagonal offDiagonal =>
    exact magnetoElasticItems_built named identifier lowered
  | rkky sigma sigma2 first second => exact rkkyItems_built named identifier lowered

end Term

/-- The objects of terms with names that scripts can use. -/
theorem Energy.items_built (named : site.Named) {energy : Energy}
    (identifiers : ∀ term ∈ energy, Text.isIdentifier term.name = true)
    (lowered : (Energy.items site energy).result = .ok items) :
    ∀ item ∈ items, item.Built site.mesh.regionNames := by
  induction energy generalizing items with
  | nil =>
    rw [← Lowering.pure_ok.mp lowered]
    exact nofun
  | cons term rest ih =>
    obtain ⟨first, inner, lowered⟩ := Lowering.bind_ok.mp lowered
    obtain ⟨others, further, same⟩ := Lowering.bind_ok.mp lowered
    rw [← Lowering.pure_ok.mp same]
    obtain ⟨own, identifiers⟩ := List.forall_mem_cons.mp identifiers
    exact List.forall_mem_append.mpr ⟨Term.items_built named own inner, ih identifiers further⟩

/-! ## The evolver -/

namespace Evolver

variable {evolver : Evolver} {dynamics : Dynamics}

/-- Whether extra words with their names are well-formed options. -/
def Extras.Formed (regions : List String) (extras : Extras) : Prop :=
  ∀ entry ∈ extras, (Script.Entry.setting entry.1 entry.2).Formed regions

/-- An attribute is a well-formed option behind well-formed objects. -/
theorem lowerAttribute_made (plain : evolver.Plain) (named : site.Named) {extras : Extras}
    (formed : extras.Formed site.mesh.regionNames)
    (nameNamed : name.toList.all Text.isNameChar = true) {result : LoweredParameter}
    (lowered : (evolver.lowerAttribute site extras name).result = .ok (some result)) :
    (∀ item ∈ result.items, item.Built site.mesh.regionNames) ∧
      (Script.Entry.setting name result.token).Formed site.mesh.regionNames := by
  have bare := isBare_of_isNameChar nameNamed
  unfold lowerAttribute at lowered
  cases extra : extras.lookup name with
  | some word =>
    rw [extra] at lowered
    obtain rfl := Option.some.inj (Lowering.pure_ok.mp lowered)
    exact ⟨nofun, formed _ (Keyed.mem_of_lookup extra)⟩
  | none =>
    rw [extra] at lowered
    cases found : evolver.attributes.get? name with
    | none =>
      rw [found] at lowered
      cases Lowering.pure_ok.mp lowered
    | some value =>
      rw [found] at lowered
      cases value with
      | text text => exact absurd found (plain.attributes name text)
      | parameter value =>
        obtain ⟨parameter, inner, same⟩ := Lowering.bind_ok.mp lowered
        obtain rfl := Option.some.inj (Lowering.pure_ok.mp same)
        have own : isBare ("evolver_" ++ name) = true := by
          rw [isBare_append, bare]
          decide
        have made := Parameter.lower_made named own inner
        exact ⟨made.items, formed_setting bare made.token⟩

/-- The objects and the options of named attributes. -/
theorem lowerAttributes_built (plain : evolver.Plain) (named : site.Named) {extras : Extras}
    (formed : extras.Formed site.mesh.regionNames) {names : List String}
    (allNamed : ∀ name ∈ names, name.toList.all Text.isNameChar = true)
    {entries : List Script.Entry}
    (lowered : (evolver.lowerAttributes site extras names).result = .ok (items, entries)) :
    (∀ item ∈ items, item.Built site.mesh.regionNames) ∧
      ∀ entry ∈ entries, entry.Formed site.mesh.regionNames := by
  induction names generalizing items entries with
  | nil =>
    obtain ⟨rfl, rfl⟩ := Prod.mk.inj (Lowering.pure_ok.mp lowered)
    exact ⟨nofun, nofun⟩
  | cons name rest ih =>
    obtain ⟨value, first, lowered⟩ := Lowering.bind_ok.mp lowered
    obtain ⟨⟨laterItems, laterEntries⟩, later, same⟩ := Lowering.bind_ok.mp lowered
    obtain ⟨nameNamed, others⟩ := List.forall_mem_cons.mp allNamed
    obtain ⟨built, options⟩ := ih others later
    cases value with
    | none =>
      obtain ⟨rfl, rfl⟩ := Prod.mk.inj (Lowering.pure_ok.mp same)
      exact ⟨built, options⟩
    | some result =>
      obtain ⟨rfl, rfl⟩ := Prod.mk.inj (Lowering.pure_ok.mp same)
      obtain ⟨head, option⟩ := lowerAttribute_made plain named formed nameNamed first
      exact ⟨List.forall_mem_append.mpr ⟨head, built⟩, List.forall_mem_cons.mpr ⟨option, options⟩⟩

/-- The procedure that tabulates a profile. -/
theorem lookupProcedure_formed {step : Float} {samples : List Float} {procedure : Procedure}
    (bare : isBare name = true) (lowered : lookupProcedure name step samples = .ok procedure) :
    (Item.procedure procedure).Formed regions := by
  have emitted : procedure.Emitted := .inr ⟨_, _, _, lowered⟩
  unfold lookupProcedure at lowered
  by_cases nothing : samples.isEmpty = true
  · rw [if_pos nothing] at lowered
    cases lowered
  · rw [if_neg nothing] at lowered
    obtain ⟨values, tabulated, lowered⟩ := Result.bind_ok.mp lowered
    obtain ⟨text, written, same⟩ := Result.bind_ok.mp lowered
    obtain rfl := Except.ok.inj same
    have stepLine : Balanced ("set tstep " ++ text).toList := by
      refine balanced_of_isBare ?_
      rw [isBare_append, isBare_numberText written]
      decide
    have valuesLine : Balanced ("set values " ++ values.render).toList := by
      rw [String.toList_append]
      exact (balanced_of_isBare (by decide)).append (numbers_simple tabulated).balanced
    have others : Balanced ([assignment "index" "int(round($total_time/$tstep))",
        assignment "last" "[llength $values] - 1",
        "if " ++ braced "$index < 0" ++ " " ++ braced " set index 0 ",
        "if " ++ braced "$index > $last" ++ " " ++ braced " set index $last ",
        "return [lindex $values $index]"].flatMap fun line => line.toList) :=
      balanced_iff.mpr (by decide +kernel)
    have parameter : isBare "total_time" = true := by decide
    exact ⟨emitted, bare, parameter, stepLine.append (valuesLine.append others)⟩

/-- A profile is a well-formed procedure, named by well-formed options. -/
theorem profileItems_built (plain : evolver.Plain) {duration : Option Float} {extras : Extras}
    (lowered : evolver.profileItems duration = .ok (items, extras)) :
    (∀ item ∈ items, item.Built regions) ∧ extras.Formed regions := by
  unfold profileItems hasProfile currentProcedure at lowered
  rw [plain.procedure] at lowered
  cases changes : evolver.profile with
  | none =>
    rw [changes] at lowered
    obtain ⟨rfl, rfl⟩ := Prod.mk.inj (Except.ok.inj lowered)
    exact ⟨nofun, nofun⟩
  | some profile =>
    rw [changes] at lowered
    cases profiled : evolver.kind.profiled? with
    | none =>
      rw [profiled] at lowered
      cases lowered
    | some current =>
      rw [profiled] at lowered
      obtain ⟨found, inner, same⟩ := Result.bind_ok.mp lowered
      obtain ⟨table, tabulated, found⟩ := Result.bind_ok.mp inner
      obtain rfl := Except.ok.inj found
      obtain ⟨rfl, rfl⟩ := Prod.mk.inj (Except.ok.inj same)
      have procedure : (Item.procedure table).Formed regions := by
        unfold profileTable at tabulated
        split at tabulated
        · obtain ⟨times, _, tabulated⟩ := Result.bind_ok.mp tabulated
          exact lookupProcedure_formed (by decide) tabulated
        · cases tabulated
      have currentBare : isBare current = true := by
        have all : ∀ kind ∈ EvolverKind.all, ∀ name ∈ kind.profiled?, isBare name = true := by
          decide
        exact all _ (by cases evolver.kind <;> decide) _ profiled
      have option {suffix text : String} (suffixBare : isBare suffix = true)
          (bare : isBare text = true) :
          (Script.Entry.setting (current ++ suffix) (.text text)).Formed regions := by
        refine formed_setting ?_ (simple_text bare)
        rw [isBare_append, currentBare, suffixBare]
        rfl
      exact ⟨List.forall_mem_singleton.mpr (built_of_noBlock procedure rfl),
        List.forall_mem_cons.mpr ⟨option (by decide) (by decide),
          List.forall_mem_singleton.mpr (option (by decide) (by decide))⟩⟩

/-- The objects of an evolver. -/
theorem items_built (plain : evolver.Plain) (named : site.Named) {extras : Extras}
    (formed : extras.Formed site.mesh.regionNames) {duration : Option Float}
    (lowered : (evolver.items site extras duration).result = .ok items) :
    ∀ item ∈ items, item.Built site.mesh.regionNames := by
  obtain ⟨⟨procedures, profile⟩, first, lowered⟩ := Lowering.bind_ok.mp lowered
  obtain ⟨⟨fields, entries⟩, second, same⟩ := Lowering.bind_ok.mp lowered
  rw [← Lowering.pure_ok.mp same]
  have first : evolver.profileItems duration = .ok (procedures, profile) := first
  obtain ⟨defined, tabulated⟩ := profileItems_built plain first
  have all : Extras.Formed site.mesh.regionNames (profile ++ extras) :=
    List.forall_mem_append.mpr ⟨tabulated, formed⟩
  obtain ⟨declared, options⟩ :=
    lowerAttributes_built plain named all (fun _ => named_of_allowed) second
  have other : evolver.kind.className ∉ atlasClasses := by
    cases evolver.kind <;> decide
  exact List.forall_mem_append.mpr ⟨List.forall_mem_append.mpr ⟨defined, declared⟩,
    List.forall_mem_singleton.mpr (built_object other options)⟩

end Evolver

/-! ## The drive -/

/-- The subregions that are fixed are regions of the mesh. -/
theorem fixedSpins_formed (named : site.Named) {names : List String} {extras : Evolver.Extras}
    (lowered : fixedSpins site.mesh names = .ok extras) :
    extras.Formed site.mesh.regionNames := by
  obtain ⟨rfl, known⟩ := fixedSpins_ok lowered
  split
  · exact nofun
  · exact List.forall_mem_singleton.mpr (formed_fixed (by decide) fun name member =>
      ⟨isBare_of_isIdentifier (named name (known name member)), known name member⟩)

/-- The rows of a sweep. -/
theorem SweepLeg.row_simple {leg : SweepLeg} {row : List Word} (lowered : leg.row = .ok row) :
    ∀ word ∈ row, word.Simple := by
  obtain ⟨ends, written, same⟩ := Result.bind_ok.mp lowered
  rw [← Except.ok.inj same]
  exact List.forall_mem_singleton.mpr (List.forall_mem_append.mpr ⟨mapM_number_text written,
    List.forall_mem_singleton.mpr ⟨_, rfl, isBare_toString _⟩⟩)

namespace Intent

variable {intent : Intent} {dynamics : Dynamics} {settings : ScriptSettings}

/-- The object of a sweep. -/
theorem appliedItems_built (lowered : intent.appliedItems = .ok items) :
    ∀ item ∈ items, item.Built regions := by
  unfold appliedItems at lowered
  cases goal : intent.goal with
  | sweep legs =>
    rw [goal] at lowered
    obtain ⟨item, inner, same⟩ := Result.bind_ok.mp lowered
    obtain ⟨rows, written, object⟩ := Result.bind_ok.mp inner
    rw [← Except.ok.inj same, ← Except.ok.inj object]
    have row (row : List Word) (member : row ∈ rows) : ∀ word ∈ row, word.Simple :=
      let ⟨_, _, lowered⟩ := Result.exists_of_mem_mapM written member
      SweepLeg.row_simple lowered
    have table : (Script.Entry.table "Hrange" rows).Formed regions :=
      formed_table (by decide) row fun _ _ _ nothing => absurd nothing List.not_mem_nil
    exact List.forall_mem_singleton.mpr
      (built_object (by decide) (List.forall_mem_singleton.mpr table))
  | minimise | evolve =>
    rw [goal] at lowered
    rw [← Except.ok.inj lowered]
    exact nofun

/-- When the driver ends its stages. -/
theorem stoppingEntries_formed {entries : List Script.Entry}
    (lowered : intent.stoppingEntries = .ok entries) : ∀ entry ∈ entries, entry.Formed regions := by
  unfold stoppingEntries at lowered
  split at lowered
  · obtain ⟨stage, first, lowered⟩ := Result.bind_ok.mp lowered
    obtain ⟨rate, second, same⟩ := Result.bind_ok.mp lowered
    rw [← Except.ok.inj same]
    refine List.forall_mem_append.mpr ⟨List.forall_mem_cons.mpr ⟨formed_number (by decide) first,
      List.forall_mem_singleton.mpr
        (formed_setting (by decide) (simple_text (isBare_toString _)))⟩, fun entry member => ?_⟩
    obtain ⟨value, _, lowered⟩ := Result.exists_of_mem_mapM second member
    obtain ⟨word, written, same⟩ := Result.bind_ok.mp lowered
    rw [← Except.ok.inj same]
    exact formed_number (by decide) written
  · obtain ⟨word, written, same⟩ := Result.bind_ok.mp lowered
    rw [← Except.ok.inj same]
    exact List.forall_mem_singleton.mpr (formed_number (by decide) written)

/-- The driver. -/
theorem driverItem_built {item : Item} (lowered : intent.driverItem = .ok item) :
    item.Built regions := by
  obtain ⟨entries, inner, same⟩ := Result.bind_ok.mp lowered
  rw [← Except.ok.inj same]
  have references : ∀ entry ∈ driverReferences, entry.Formed regions :=
    List.forall_mem_cons.mpr ⟨formed_setting (by decide) (simple_reference (by decide)),
      List.forall_mem_cons.mpr ⟨formed_setting (by decide) (simple_reference (by decide)),
        List.forall_mem_cons.mpr ⟨formed_setting (by decide) (simple_reference (by decide)),
          List.forall_mem_singleton.mpr
            (formed_setting (by decide) (simple_reference (by decide)))⟩⟩⟩
  have other : intent.driverClass ∉ atlasClasses := by
    unfold driverClass
    split <;> decide
  exact ⟨List.forall_mem_append.mpr ⟨references, stoppingEntries_formed inner⟩,
    fun _ same => Option.some.inj same ▸ other⟩

/-- The outputs. -/
theorem outputItems_built (plain : intent.Plain settings) :
    ∀ item ∈ intent.outputItems settings, item.Built regions := by
  have destination {name : String} (bare : isBare name = true) :
      (Item.destination name).Built regions := built_of_noBlock bare rfl
  have schedule {output target event : String}
      (bare : isBare output = true ∧ isBare target = true ∧ isBare event = true) :
      (Item.schedule output target event).Built regions := built_of_noBlock bare rfl
  have event : isBare (intent.tableEvent settings) = true := by
    unfold tableEvent
    split <;> decide
  have magnetisation : isBare (intent.driverClass ++ "::Magnetization") = true := by
    unfold driverClass
    split <;> decide
  have archive : ∀ item ∈ (if intent.duration?.isSome then [Item.destination "archive"] else []),
      item.Built regions := by
    split
    · exact List.forall_mem_singleton.mpr (destination (by decide))
    · exact nofun
  unfold outputItems
  rw [plain.directive, Option.map_none, Option.toList_none, List.append_nil]
  exact List.forall_mem_append.mpr ⟨archive, List.forall_mem_cons.mpr
    ⟨destination (by decide), List.forall_mem_cons.mpr ⟨destination (by decide),
      List.forall_mem_cons.mpr ⟨built_of_noBlock trivial rfl, List.forall_mem_cons.mpr
        ⟨schedule ⟨by decide, by decide, event⟩, List.forall_mem_singleton.mpr
          (schedule ⟨magnetisation, by decide, by decide⟩)⟩⟩⟩⟩⟩

/-- The items of a drive without text of the caller. -/
theorem items_built (plain : intent.Plain settings) (named : site.Named)
    (lowered : (intent.items site dynamics settings).result = .ok items) :
    ∀ item ∈ items, item.Built site.mesh.regionNames := by
  obtain ⟨evolver, bound, lowered⟩ := Lowering.bind_ok.mp lowered
  obtain ⟨extras, fixed, lowered⟩ := Lowering.bind_ok.mp lowered
  obtain ⟨applied, swept, lowered⟩ := Lowering.bind_ok.mp lowered
  obtain ⟨evolving, moved, lowered⟩ := Lowering.bind_ok.mp lowered
  obtain ⟨driver, driven, same⟩ := Lowering.bind_ok.mp lowered
  rw [← Lowering.pure_ok.mp same]
  have evolverPlain := (chosenEvolver_plain plain).bind (Result.mapError_ok.mp bound)
  have moving := Evolver.items_built evolverPlain named (fixedSpins_formed named fixed) moved
  exact List.forall_mem_append.mpr ⟨List.forall_mem_append.mpr ⟨List.forall_mem_append.mpr
    ⟨appliedItems_built swept, moving⟩, List.forall_mem_singleton.mpr (driverItem_built driven)⟩,
    outputItems_built plain⟩

end Intent

/-! ## The mesh -/

namespace Mesh

variable {mesh : Mesh Float}

/-- The bounds of a box. -/
theorem ranges_formed {region : Region Float} {entries : List Script.Entry}
    (lowered : ranges region = .ok entries) : ∀ entry ∈ entries, entry.Formed regions := by
  intro entry member
  obtain ⟨axis, _, lowered⟩ := Result.exists_of_mem_mapM lowered member
  obtain ⟨word, written, same⟩ := Result.bind_ok.mp lowered
  rw [← Except.ok.inj same]
  have bare : isBare (rangeKey axis) = true := by
    cases axis <;> decide
  exact formed_setting bare (numbers_simple written)

/-- A box. -/
theorem box_formed {instanceName : String} {region : Region Float} {item : Item}
    (identifier : Text.isIdentifier name = true)
    (lowered : box instanceName name region = .ok item) : item.Formed regions := by
  obtain ⟨bounds, written, same⟩ := Result.bind_ok.mp lowered
  rw [← Except.ok.inj same]
  exact List.forall_mem_append.mpr ⟨ranges_formed written, List.forall_mem_singleton.mpr
    (formed_setting (by decide) (simple_text (isBare_of_isIdentifier identifier)))⟩

/-- The atlases of a usable mesh. -/
theorem atlasItems_formed (usable : mesh.validate = .ok ()) (lowered : mesh.atlasItems = .ok items) :
    ∀ item ∈ items, item.Formed regions := by
  unfold atlasItems at lowered
  split at lowered
  · obtain ⟨item, inner, same⟩ := Result.bind_ok.mp lowered
    rw [← Except.ok.inj same]
    exact List.forall_mem_singleton.mpr (box_formed (by decide) inner)
  · obtain ⟨boxes, inner, lowered⟩ := Result.bind_ok.mp lowered
    obtain ⟨rest, outer, lowered⟩ := Result.bind_ok.mp lowered
    obtain ⟨bounds, written, same⟩ := Result.bind_ok.mp lowered
    rw [← Except.ok.inj same]
    have parts : ∀ item ∈ boxes, item.Formed regions := by
      intro item member
      obtain ⟨entry, inside, lowered⟩ := Result.exists_of_mem_mapM inner member
      exact box_formed (subregion_named usable (List.mem_map_of_mem inside)).1 lowered
    have atlases : ∀ entry ∈ (mesh.subregions.keys ++ ["entire"]).map fun name =>
        Script.Entry.setting "atlas" (.reference (atlasName name)), entry.Formed regions := by
      intro entry member
      obtain ⟨name, inside, rfl⟩ := List.mem_map.mp member
      have identifier : Text.isIdentifier name = true := by
        rcases List.mem_append.mp inside with inside | inside
        · exact (subregion_named usable inside).1
        · rw [List.mem_singleton.mp inside]
          decide
      exact formed_setting (by decide)
        (simple_reference (isBare_of_isIdentifier (isIdentifier_atlasName identifier)))
    exact List.forall_mem_append.mpr ⟨parts, List.forall_mem_cons.mpr
      ⟨box_formed (by decide) outer, List.forall_mem_singleton.mpr
        (List.forall_mem_append.mpr ⟨atlases, ranges_formed written⟩)⟩⟩

/-- The cells. -/
theorem cellItem_built {item : Item} (lowered : mesh.cellItem = .ok item) : item.Built regions := by
  obtain ⟨size, written, lowered⟩ := Result.bind_ok.mp lowered
  have sized : (Script.Entry.setting "cellsize" size).Formed regions :=
    formed_setting (by decide) (numbers_simple written)
  split at lowered
  · rw [← Except.ok.inj lowered]
    exact built_object (by decide)
      (List.forall_mem_cons.mpr ⟨sized, List.forall_mem_singleton.mpr formed_mainAtlas⟩)
  · rw [← Except.ok.inj lowered]
    have letters : isBare mesh.periodicAxes = true := by
      have each : ∀ c ∈ mesh.periodicAxes.toList, (Axis.all.map Axis.letter).contains c = true := by
        intro c member
        unfold periodicAxes at member
        rw [String.toList_ofList] at member
        exact List.contains_iff_mem.mpr (List.mem_of_mem_filter member)
      exact isBare_of_all each (by decide)
    exact built_object (by decide) (List.forall_mem_cons.mpr ⟨sized, List.forall_mem_cons.mpr
      ⟨formed_mainAtlas, List.forall_mem_singleton.mpr
        (formed_setting (by decide) (simple_text letters))⟩⟩)

/-- The items of a usable mesh. -/
theorem items_formed (usable : mesh.validate = .ok ()) (lowered : mesh.items = .ok items) :
    ∀ item ∈ items, item.Formed regions := by
  obtain ⟨atlases, first, lowered⟩ := Result.bind_ok.mp lowered
  obtain ⟨cells, second, same⟩ := Result.bind_ok.mp lowered
  rw [← Except.ok.inj same]
  exact List.forall_mem_append.mpr ⟨atlasItems_formed usable first,
    List.forall_mem_singleton.mpr (cellItem_built second).1⟩

end Mesh

/-! ## The problem -/

/-- The magnetisation and its magnitude. -/
theorem magnetisationItems_built {m : Field Float}
    (lowered : (magnetisationItems m).result = .ok items) : ∀ item ∈ items, item.Built regions := by
  obtain ⟨_, _, same⟩ := Lowering.bind_ok.mp lowered
  rw [← Lowering.pure_ok.mp same]
  exact List.forall_mem_cons.mpr ⟨Parameter.fileItem_built (by decide),
    List.forall_mem_singleton.mpr (Parameter.normItem_built (by decide))⟩

namespace Problem

variable {problem : Problem} {intent : Intent} {settings : ScriptSettings} {platform : Platform}

/-- The script of a problem without text of the caller begins with its options and its mesh, which is
usable, and what follows is well-formed and no atlas. -/
theorem built_of_lower (plain : intent.Plain settings) {script : LoweredScript}
    (lowered : problem.lower intent settings platform = .ok script) :
    problem.mesh.validate = .ok () ∧ ∃ mesh others,
      problem.mesh.items = .ok mesh ∧
        script.items = .options problem.name settings.format :: (mesh ++ others) ∧
        (∀ item ∈ others, item.Built problem.mesh.regionNames) := by
  obtain ⟨items, inner, rfl⟩ := Result.map_ok.mp lowered
  obtain ⟨_, valid, lowered⟩ := Lowering.bind_ok.mp inner
  obtain ⟨_, _, lowered⟩ := Lowering.bind_ok.mp lowered
  obtain ⟨mesh, divided, lowered⟩ := Lowering.bind_ok.mp lowered
  obtain ⟨energy, contributed, lowered⟩ := Lowering.bind_ok.mp lowered
  obtain ⟨magnetisation, given, lowered⟩ := Lowering.bind_ok.mp lowered
  obtain ⟨drive, driven, same⟩ := Lowering.bind_ok.mp lowered
  rw [← Lowering.pure_ok.mp same]
  have accepted := accepted_of_validate (Result.mapError_ok.mp valid)
  have named : Site.Named ⟨problem.mesh, platform⟩ := fun _ member =>
    Mesh.isIdentifier_of_mem_regionNames accepted.mesh member
  refine ⟨accepted.mesh, mesh, energy ++ (magnetisation ++ drive), divided, ?_, ?_⟩
  · simp only [List.append_assoc]
  · exact List.forall_mem_append.mpr
      ⟨Energy.items_built named (fun term member => (accepted.usable term member).1) contributed,
        List.forall_mem_append.mpr
          ⟨magnetisationItems_built given, Intent.items_built plain named driven⟩⟩

/-- The items of a script without text of the caller are well-formed. -/
theorem formed_of_lower (plain : intent.Plain settings) {script : LoweredScript}
    (lowered : problem.lower intent settings platform = .ok script) :
    ∀ item ∈ script.items, item.Formed problem.mesh.regionNames := by
  obtain ⟨usable, mesh, others, divided, items, built⟩ := built_of_lower plain lowered
  have named : isBare problem.name = true := by
    have legal := isLegalName_of_lower lowered
    unfold isLegalName at legal
    exact isBare_of_all (List.all_eq_true.mp (Bool.and_eq_true _ _ ▸ legal).2) (by decide)
  rw [items]
  exact List.forall_mem_cons.mpr ⟨named, List.forall_mem_append.mpr
    ⟨Mesh.items_formed usable divided, fun item member => (built item member).1⟩⟩

end Problem

end Micromag
