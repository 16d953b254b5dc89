import Micromag.Lowering.Energy
import Micromag.Proofs.Keyed
import Micromag.Proofs.Lowering.Parameter

/-!
# Objects of energy terms

A term declares the objects of its parameters under names that begin with its own, and then itself.
Its block refers to these objects, to the main atlas, and to nothing else.
-/

namespace Micromag

open Script

variable {known : List String} {site : Site} {name : String}

namespace PairValue

/-- Whether both regions of a pair have names that scripts can use. -/
def Named (pair : PairValue) : Prop :=
  Text.isIdentifier pair.first = true ∧ Text.isIdentifier pair.second = true

/-- Whether both regions of a pair are regions of the mesh. -/
def Known (site : Site) (pair : PairValue) : Prop :=
  pair.first ∈ site.mesh.regionNames ∧ pair.second ∈ site.mesh.regionNames

/-- A pair of regions of the mesh is named. -/
theorem Known.named {pair : PairValue} (known : pair.Known site) (named : site.Named) :
    pair.Named :=
  ⟨named _ known.1, named _ known.2⟩

/-- The pair of an entry is one of regions of the mesh. -/
theorem ofEntry_known {entry : String × RegionValue} {pair : PairValue}
    (lowered : ofEntry site name entry = .ok pair) : pair.Known site := by
  unfold ofEntry at lowered
  generalize regionsOf entry.1 = regions at lowered
  obtain ⟨first, second⟩ := regions
  obtain ⟨_, firstAccepted, lowered⟩ := Result.bind_ok.mp lowered
  obtain ⟨_, secondAccepted, lowered⟩ := Result.bind_ok.mp lowered
  have firstKnown := Parameter.mem_of_checkRegion firstAccepted
  have secondKnown := Parameter.mem_of_checkRegion secondAccepted
  cases value : entry.2 with
  | vector v =>
    rw [value] at lowered
    cases lowered
  | scalar x =>
    rw [value] at lowered
    dsimp only at lowered
    by_cases ordered : first ≤ second
    · rw [if_pos ordered] at lowered
      rw [← Except.ok.inj lowered]
      exact ⟨firstKnown, secondKnown⟩
    · rw [if_neg ordered] at lowered
      rw [← Except.ok.inj lowered]
      exact ⟨secondKnown, firstKnown⟩

/-- Putting a pair among others adds no other pair. -/
theorem mem_of_insert? {pair other : PairValue} {pairs after : List PairValue}
    (inserted : pair.insert? pairs = some after) (member : other ∈ after) :
    other = pair ∨ other ∈ pairs := by
  induction pairs generalizing after with
  | nil =>
    rw [← Option.some.inj inserted] at member
    exact .inl (List.mem_singleton.mp member)
  | cons head rest ih =>
    unfold insert? at inserted
    split at inserted
    · cases inserted
    · split at inserted
      · rw [← Option.some.inj inserted] at member
        exact List.mem_cons.mp member
      · obtain ⟨tail, inner, rfl⟩ := Option.map_eq_some_iff.mp inserted
        rcases List.mem_cons.mp member with rfl | member
        · exact .inr List.mem_cons_self
        · rcases ih inner member with same | inside
          · exact .inl same
          · exact .inr (List.mem_cons_of_mem head inside)

/-- The pairs of the entries of a map are pairs of regions of the mesh. -/
theorem collect_known {entries : List (String × RegionValue)} {pairs after : List PairValue}
    (before : ∀ pair ∈ pairs, pair.Known site)
    (lowered : collect site name pairs entries = .ok after) : ∀ pair ∈ after, pair.Known site := by
  induction entries generalizing pairs with
  | nil =>
    rw [← Except.ok.inj lowered]
    exact before
  | cons entry rest ih =>
    obtain ⟨pair, first, lowered⟩ := Result.bind_ok.mp lowered
    split at lowered
    · cases lowered
    · rename_i more inserted
      refine ih (fun other member => ?_) lowered
      rcases mem_of_insert? inserted member with rfl | member
      · exact ofEntry_known first
      · exact before other member

/-- A row of a map of pairs is one of two regions of the mesh and a number. -/
theorem row_of_table {map : RegionMap} {rows : List (List Word)} {row : List Word}
    (lowered : table site map name = .ok rows) (member : row ∈ rows) :
    ∃ (pair : PairValue) (value : Word), pair.Known site ∧ numberWord pair.value = .ok value ∧
      row = [.text pair.first, .text pair.second, value] := by
  obtain ⟨pairs, collected, lowered⟩ := Result.bind_ok.mp lowered
  obtain ⟨pair, inside, lowered⟩ := Result.exists_of_mem_mapM lowered member
  obtain ⟨value, written, same⟩ := Result.bind_ok.mp lowered
  have none : ∀ pair ∈ ([] : List PairValue), pair.Known site := fun _ nothing => nomatch nothing
  exact ⟨pair, value, collect_known none collected pair inside, written, (Except.ok.inj same).symm⟩

/-- The names of two regions refer to nothing. -/
theorem names_resolve {first second : String} {word : Word}
    (firstNamed : Text.isIdentifier first = true) (secondNamed : Text.isIdentifier second = true)
    (resolves : word.Resolves known) :
    ∀ part ∈ [.text first, .text second, word], part.Resolves known := by
  exact List.forall_mem_cons.mpr ⟨Text.noColon_of_isIdentifier firstNamed,
    List.forall_mem_cons.mpr ⟨Text.noColon_of_isIdentifier secondNamed,
      List.forall_mem_singleton.mpr resolves⟩⟩

/-- The rows of a map of pairs refer to nothing. -/
theorem table_resolves (named : site.Named) {map : RegionMap} {rows : List (List Word)}
    (lowered : table site map name = .ok rows) :
    ∀ row ∈ rows, ∀ word ∈ row, word.Resolves known := by
  intro row member
  obtain ⟨pair, value, known, written, rfl⟩ := row_of_table lowered member
  have both := known.named named
  exact names_resolve both.1 both.2 (numberWord_resolves written)

/-- The names of pairs are names of the list. -/
theorem mem_of_mem_pairsOf {names : List String} {pair : String × String}
    (member : pair ∈ pairsOf names) : pair.1 ∈ names ∧ pair.2 ∈ names := by
  induction names with
  | nil => exact absurd member List.not_mem_nil
  | cons first rest ih =>
    rcases List.mem_append.mp member with member | member
    · obtain ⟨second, inside, rfl⟩ := List.mem_map.mp member
      exact ⟨List.mem_cons_self, inside⟩
    · have both := ih member
      exact ⟨List.mem_cons_of_mem first both.1, List.mem_cons_of_mem first both.2⟩

end PairValue

/-- The only face that two boxes share is found across an axis. -/
theorem SharedFace.exists_of_only? {α β : Type} [Scalar β] {read : α → β} {tolerance : β}
    {a b : String × Region α} {face : SharedFace α} (found : only? read tolerance a b = some face) :
    ∃ axis, across? read tolerance a b axis = some face := by
  unfold only? at found
  split at found
  · rename_i single
    have member : face ∈ all read tolerance a b := by
      rw [single, Option.some.inj found]
      exact List.mem_singleton_self face
    obtain ⟨axis, _, across⟩ := List.mem_filterMap.mp member
    exact ⟨axis, across⟩
  · cases found

/-- The parameters of an interaction that may have objects of their own: what the place accepts, the
name in front of which the name of the term stands, and the value. -/
def Interaction.parameters : Interaction → List (Arity × String × Parameter)
  | .exchange constant =>
    match constant with
    | .field f => [(.scalar, "A", .field f)]
    | _ => []
  | .zeeman field _ _ _ => [(.vector, "H", field)]
  | .demag _ | .dmi .. | .rkky .. => []
  | .uniaxial k1 k2 axis =>
    [(.scalar, "K1", k1), (.vector, "u", axis)] ++ (k2.map fun k2 => (.scalar, "K2", k2)).toList
  | .cubic k1 axis1 axis2 => [(.scalar, "K1", k1), (.vector, "u1", axis1), (.vector, "u2", axis2)]
  | .magnetoElastic b1 b2 diagonal offDiagonal =>
    [(.scalar, "B1", b1), (.scalar, "B2", b2), (.vector, "e_diag", diagonal),
      (.vector, "e_offdiag", offDiagonal)]

namespace Term

/-- The names of the objects in front of the block of a term. -/
def helperNames (term : Term) : List String :=
  (term.interaction.parameters.flatMap fun parameter =>
    parameter.2.2.objectNames parameter.1 (parameterName term.name parameter.2.1)) ++
  match term.interaction with
  | .rkky .. => [parameterName term.name "field"]
  | _ => []

/-- The object of a parameter has a name that scripts can use. -/
theorem isIdentifier_parameterName {key : String} (identifier : Text.isIdentifier name = true)
    (named : key.toList.all Text.isNameChar = true) :
    Text.isIdentifier (parameterName name key) = true :=
  Text.isIdentifier_append (Text.isIdentifier_append identifier (by decide)) named

/-- When something is lowered behind a parameter of a term, the parameter stands for its value. -/
theorem parameter_ok (named : site.Named) (atlas : "main_atlas" ∈ known)
    (identifier : Text.isIdentifier name = true) {key : String} {arity : Arity}
    {value : Parameter} {α : Type} {next : LoweredParameter → Lowering α} {result : α}
    (keyNamed : key.toList.all Text.isNameChar = true)
    (lowered : (value.lower arity site (parameterName name key) >>= next).result = .ok result) :
    ∃ parameter,
      Parameter.Stands known parameter (value.objectNames arity (parameterName name key)) ∧
        (next parameter).result = .ok result := by
  obtain ⟨parameter, inner, lowered⟩ := Lowering.bind_ok.mp lowered
  have stands := Parameter.lower_stands named atlas
    (isIdentifier_parameterName identifier keyNamed) inner
  exact ⟨parameter, stands, lowered⟩

/-- A block behind the objects of the parameters whose words its keys have. -/
theorem parameterBlock_emits (className : String) (ofClass : Text.isIdentifier className = true)
    (identifier : Text.isIdentifier name = true) {lowered : List LoweredParameter}
    {names : List (List String)} (stand : List.Forall₂ (Parameter.Stands known) lowered names)
    (keys : List String) (noColon : ∀ key ∈ keys, ':' ∉ key.toList)
    (words : List Word) (tokens : words ⊆ lowered.map (·.token)) :
    Emits known (lowered.flatMap (·.items) ++
      [item className name ((keys.zip words).map fun setting => .setting setting.1 setting.2)])
      (names.flatten ++ [name]) := by
  refine (Parameter.Stands.emits_all stand).append (.object ofClass identifier ?_)
  intro entry member
  obtain ⟨setting, inside, rfl⟩ := List.mem_map.mp member
  have both := List.of_mem_zip inside
  exact setting_resolves (noColon _ both.1)
    (Parameter.Stands.token_all stand (tokens both.2))

/-- A number with its key resolves. -/
theorem number_setting {key : String} {x : Float} {word : Word} (noColon : ':' ∉ key.toList)
    (written : numberWord x = .ok word) : (Script.Entry.setting key word).Resolves known :=
  setting_resolves noColon (numberWord_resolves written)

variable {items : List Item}

/-- The objects of an exchange term. -/
theorem exchangeItems_emits (named : site.Named) (atlas : "main_atlas" ∈ known)
    (identifier : Text.isIdentifier name = true) {constant : Parameter}
    (lowered : (exchangeItems site name constant).result = .ok items) :
    Emits known items (helperNames ⟨name, .exchange constant⟩ ++ [name]) := by
  cases constant with
  | constant a =>
    unfold exchangeItems at lowered
    dsimp only at lowered
    by_cases refused : (!decide (0 < a)) = true
    · rw [if_pos refused] at lowered
      cases lowered
    · rw [if_neg refused] at lowered
      obtain ⟨word, written, same⟩ := Lowering.bind_ok.mp lowered
      rw [← Lowering.pure_ok.mp same]
      exact .object (by decide) identifier
        (List.forall_mem_singleton.mpr (number_setting (by decide) written))
  | perRegion map =>
    obtain ⟨rows, inner, lowered⟩ := Lowering.bind_ok.mp lowered
    obtain ⟨value, _, lowered⟩ := Lowering.bind_ok.mp lowered
    obtain ⟨fallback, written, same⟩ := Lowering.bind_ok.mp lowered
    rw [← Lowering.pure_ok.mp same]
    have table : (Script.Entry.table "A" rows).Resolves known :=
      ⟨by decide, PairValue.table_resolves named inner⟩
    exact .object (by decide) identifier (List.forall_mem_cons.mpr
      ⟨number_setting (by decide) written, List.forall_mem_cons.mpr
        ⟨Mesh.mainAtlas_resolves atlas, List.forall_mem_singleton.mpr table⟩⟩)
  | field f =>
    obtain ⟨a, stands, same⟩ := parameter_ok named atlas identifier (by decide) lowered
    rw [← Lowering.pure_ok.mp same]
    have block : Emits (known ++ _) [item "Oxs_ExchangePtwise" name [.setting "A" a.token]]
        [name] :=
      .object (by decide) identifier (List.forall_mem_singleton.mpr
        (setting_resolves (by decide) stands.token))
    exact stands.emits.append block
  | vector v => cases lowered

/-- The procedure of a wave refers to nothing. -/
theorem waveProcedure?_resolves {procedureName : String} {wave : Wave} {procedure : Procedure}
    (noColon : ':' ∉ procedureName.toList)
    (found : waveProcedure? procedureName wave = some procedure) : procedure.Resolves := by
  obtain ⟨body, written, rfl⟩ := Option.map_eq_some_iff.mp found
  have first : ':' ∉ (assignment "PI" "4*atan(1.0)").toList := by decide
  have last : ':' ∉ "return [list $wave $wave $wave $dwave $dwave $dwave]".toList := by
    decide
  have lines : ∀ line ∈ body, ':' ∉ line.toList := by
    cases wave with
    | constant => cases written
    | sin =>
      rw [← Option.some.inj written]
      decide
    | sinc =>
      rw [← Option.some.inj written]
      decide
  have parameters : ':' ∉ "f t0 stage stagetime totaltime".toList := by decide
  refine ⟨noColon, parameters, fun line member => ?_⟩
  rcases List.mem_append.mp member with member | member
  · rcases List.mem_cons.mp member with rfl | member
    · exact first
    · exact lines line member
  · rw [List.mem_singleton.mp member]
    exact last

/-- An applied field that a procedure scales in time. -/
theorem transformed_emits (identifier : Text.isIdentifier name = true) {wave : Wave}
    {procedure : Procedure} (found : waveProcedure? ("TimeFunction_" ++ name) wave = some procedure)
    {frequency delay : Float} {f t0 : Atom} (first : number frequency = .ok f)
    (second : number delay = .ok t0) {field : Word} (resolves : field.Resolves known) :
    Emits known [.procedure procedure, item "Oxs_TransformZeeman" name
      [.setting "type" (.text "diagonal"),
        .setting "script_args" (.group [.text "stage", .text "stage_time", .text "total_time"]),
        .setting "script" (.group [.text ("TimeFunction_" ++ name), f, t0]),
        .setting "field" field]] [name] := by
  have noColon : ':' ∉ ("TimeFunction_" ++ name).toList := by
    have start := Text.noColon_of_isIdentifier identifier
    simp [String.toList_append, start]
  have kind : (Script.Entry.setting "type" (.text "diagonal")).Resolves known :=
    setting_resolves (by decide) (show ':' ∉ "diagonal".toList by decide)
  have plain : ∀ value ∈ ["stage", "stage_time", "total_time"], ':' ∉ value.toList := by decide
  have arguments : (Script.Entry.setting "script_args"
      (.group [.text "stage", .text "stage_time", .text "total_time"])).Resolves known :=
    setting_resolves (by decide) (texts_resolve plain)
  have script : (Script.Entry.setting "script"
      (.group [.text ("TimeFunction_" ++ name), f, t0])).Resolves known :=
    setting_resolves (by decide) (List.forall_mem_cons.mpr ⟨noColon, List.forall_mem_cons.mpr
      ⟨number_resolves first, List.forall_mem_singleton.mpr (number_resolves second)⟩⟩)
  have defined : Emits known [.procedure procedure] [] :=
    .single (waveProcedure?_resolves noColon found) rfl
  exact defined.append_right (.object (by decide) identifier (List.forall_mem_cons.mpr
    ⟨kind, List.forall_mem_cons.mpr ⟨arguments, List.forall_mem_cons.mpr
      ⟨script, List.forall_mem_singleton.mpr (setting_resolves (by decide) resolves)⟩⟩⟩))

/-- The objects of an applied field. -/
theorem zeemanItems_emits (named : site.Named) (atlas : "main_atlas" ∈ known)
    (identifier : Text.isIdentifier name = true) {field : Parameter} {wave : Option Wave}
    {frequency delay : Option Float}
    (lowered : (zeemanItems site name field wave frequency delay).result = .ok items) :
    Emits known items (helperNames ⟨name, .zeeman field wave frequency delay⟩ ++ [name]) := by
  obtain ⟨h, stands, lowered⟩ := parameter_ok named atlas identifier (by decide) lowered
  have names : helperNames ⟨name, .zeeman field wave frequency delay⟩ =
      field.objectNames .vector (parameterName name "H") := by
    unfold helperNames Interaction.parameters
    rw [List.flatMap_singleton, List.append_nil]
  rw [names]
  dsimp only at lowered
  split at lowered
  · rw [← Lowering.pure_ok.mp lowered]
    exact stands.emits.append (.object (by decide) identifier
      (List.forall_mem_singleton.mpr (setting_resolves (by decide) stands.token)))
  · rename_i procedure found
    cases frequency with
    | none => cases lowered
    | some frequency =>
      obtain ⟨f, first, lowered⟩ := Lowering.bind_ok.mp lowered
      obtain ⟨t0, second, same⟩ := Lowering.bind_ok.mp lowered
      rw [← Lowering.pure_ok.mp same]
      exact stands.emits.append (transformed_emits identifier found first second stands.token)

/-- The demagnetising field. -/
theorem demagItems_emits (identifier : Text.isIdentifier name = true) {radius : Option Float}
    (lowered : (demagItems name radius).result = .ok items) :
    Emits known items (helperNames ⟨name, .demag radius⟩ ++ [name]) := by
  cases radius with
  | none =>
    rw [← Lowering.pure_ok.mp lowered]
    exact .object (by decide) identifier fun _ nothing => nomatch nothing
  | some radius =>
    obtain ⟨word, written, same⟩ := Lowering.bind_ok.mp lowered
    rw [← Lowering.pure_ok.mp same]
    exact .object (by decide) identifier
      (List.forall_mem_singleton.mpr (number_setting (by decide) written))

/-- A row of antisymmetric exchange is one of two regions of the mesh and a number. -/
theorem row_of_dmiRows {constant : Parameter} {fallback : Float} {rows : List (List Word)}
    {row : List Word} (lowered : dmiRows site name constant = .ok (fallback, rows))
    (member : row ∈ rows) :
    ∃ (pair : PairValue) (value : Word), pair.Known site ∧ numberWord pair.value = .ok value ∧
      row = [.text pair.first, .text pair.second, value] := by
  cases constant with
  | constant d =>
    obtain ⟨value, written, same⟩ := Result.bind_ok.mp lowered
    have coupled : coupledNames site.mesh ⊆ site.mesh.regionNames := by
      unfold coupledNames Mesh.regionNames
      split
      · exact List.Subset.refl _
      · exact List.subset_append_left _ _
    rw [← (Prod.mk.inj (Except.ok.inj same)).2] at member
    obtain ⟨pair, inside, rfl⟩ := List.mem_map.mp member
    have both := PairValue.mem_of_mem_pairsOf inside
    exact ⟨⟨pair.1, pair.2, d⟩, value, ⟨coupled both.1, coupled both.2⟩, written, rfl⟩
  | perRegion map =>
    obtain ⟨_, _, lowered⟩ := Result.bind_ok.mp lowered
    obtain ⟨found, inner, same⟩ := Result.bind_ok.mp lowered
    rw [← (Prod.mk.inj (Except.ok.inj same)).2] at member
    exact PairValue.row_of_table inner member
  | vector v => cases lowered
  | field f => cases lowered

/-- The rows of antisymmetric exchange refer to nothing. -/
theorem dmiRows_resolves (named : site.Named) {constant : Parameter} {fallback : Float}
    {rows : List (List Word)} (lowered : dmiRows site name constant = .ok (fallback, rows)) :
    ∀ row ∈ rows, ∀ word ∈ row, word.Resolves known := by
  intro row member
  obtain ⟨pair, value, known, written, rfl⟩ := row_of_dmiRows lowered member
  have both := known.named named
  exact PairValue.names_resolve both.1 both.2 (numberWord_resolves written)

/-- Antisymmetric exchange. -/
theorem dmiItems_emits (named : site.Named) (atlas : "main_atlas" ∈ known)
    (identifier : Text.isIdentifier name = true) {constant : Parameter} {crystal : CrystalClass}
    (lowered : (dmiItems site name constant crystal).result = .ok items) :
    Emits known items (helperNames ⟨name, .dmi constant crystal⟩ ++ [name]) := by
  obtain ⟨className, classified, lowered⟩ := Lowering.bind_ok.mp lowered
  obtain ⟨⟨fallback, rows⟩, inner, lowered⟩ := Lowering.bind_ok.mp lowered
  obtain ⟨word, written, same⟩ := Lowering.bind_ok.mp lowered
  rw [← Lowering.pure_ok.mp same]
  have ofClass : Text.isIdentifier className = true := by
    have classes : dmiClass crystal site.platform = .ok className := classified
    cases platform : site.platform <;> cases crystal <;> rw [platform] at classes <;>
      cases classes <;> decide
  have table : (Script.Entry.table "D" rows).Resolves known :=
    ⟨by decide, dmiRows_resolves named inner⟩
  exact .object ofClass identifier (List.forall_mem_cons.mpr
    ⟨number_setting (by decide) written, List.forall_mem_cons.mpr
      ⟨Mesh.mainAtlas_resolves atlas, List.forall_mem_singleton.mpr table⟩⟩)

/-- The objects of an anisotropy about one axis. -/
theorem uniaxialItems_emits (named : site.Named) (atlas : "main_atlas" ∈ known)
    (identifier : Text.isIdentifier name = true) {k1 axis : Parameter} {k2 : Option Parameter}
    (lowered : (uniaxialItems site name k1 k2 axis).result = .ok items) :
    Emits known items (helperNames ⟨name, .uniaxial k1 k2 axis⟩ ++ [name]) := by
  obtain ⟨first, stands1, lowered⟩ := parameter_ok named atlas identifier (by decide) lowered
  obtain ⟨second, stands2, lowered⟩ := parameter_ok named atlas identifier (by decide) lowered
  cases k2 with
  | none =>
    rw [← Lowering.pure_ok.mp lowered]
    have block := parameterBlock_emits "Oxs_UniaxialAnisotropy" (by decide) identifier
      (.cons stands1 (.cons stands2 .nil))
      ["K1", "axis"] (by decide) [first.token, second.token] (by simp)
    simpa [helperNames, Interaction.parameters] using block
  | some k2 =>
    obtain ⟨third, stands3, same⟩ := parameter_ok named atlas identifier (by decide) lowered
    rw [← Lowering.pure_ok.mp same]
    have block := parameterBlock_emits "Southampton_UniaxialAnisotropy4" (by decide) identifier
      (.cons stands1 (.cons stands2 (.cons stands3 .nil)))
      ["K1", "K2", "axis"] (by decide) [first.token, third.token, second.token] (by simp)
    simpa [helperNames, Interaction.parameters] using block

/-- The objects of a cubic anisotropy. -/
theorem cubicItems_emits (named : site.Named) (atlas : "main_atlas" ∈ known)
    (identifier : Text.isIdentifier name = true) {k1 axis1 axis2 : Parameter}
    (lowered : (cubicItems site name k1 axis1 axis2).result = .ok items) :
    Emits known items (helperNames ⟨name, .cubic k1 axis1 axis2⟩ ++ [name]) := by
  obtain ⟨first, stands1, lowered⟩ := parameter_ok named atlas identifier (by decide) lowered
  obtain ⟨second, stands2, lowered⟩ := parameter_ok named atlas identifier (by decide) lowered
  obtain ⟨third, stands3, same⟩ := parameter_ok named atlas identifier (by decide) lowered
  rw [← Lowering.pure_ok.mp same]
  have block := parameterBlock_emits "Oxs_CubicAnisotropy" (by decide) identifier
    (.cons stands1 (.cons stands2 (.cons stands3 .nil)))
    ["K1", "axis1", "axis2"] (by decide) [first.token, second.token, third.token] (by simp)
  simpa [helperNames, Interaction.parameters] using block

/-- The objects of a coupling to strain. -/
theorem magnetoElasticItems_emits (named : site.Named) (atlas : "main_atlas" ∈ known)
    (identifier : Text.isIdentifier name = true) {b1 b2 diagonal offDiagonal : Parameter}
    (lowered : (magnetoElasticItems site name b1 b2 diagonal offDiagonal).result = .ok items) :
    Emits known items
      (helperNames ⟨name, .magnetoElastic b1 b2 diagonal offDiagonal⟩ ++ [name]) := by
  obtain ⟨first, stands1, lowered⟩ := parameter_ok named atlas identifier (by decide) lowered
  obtain ⟨second, stands2, lowered⟩ := parameter_ok named atlas identifier (by decide) lowered
  obtain ⟨third, stands3, lowered⟩ := parameter_ok named atlas identifier (by decide) lowered
  obtain ⟨fourth, stands4, same⟩ := parameter_ok named atlas identifier (by decide) lowered
  rw [← Lowering.pure_ok.mp same]
  have block := parameterBlock_emits "YY_FixedMEL" (by decide) identifier
    (.cons stands1 (.cons stands2 (.cons stands3 (.cons stands4 .nil))))
    ["B1", "B2", "e_diag_field", "e_offdiag_field"] (by decide)
    [first.token, second.token, third.token, fourth.token] (by simp)
  simpa [helperNames, Interaction.parameters] using block

/-- A side of a coupled face refers to the main atlas and the field that grows across the face. -/
theorem surface_resolves (atlas : "main_atlas" ∈ known) {key fieldName region side : String}
    (noColon : ':' ∉ key.toList) (field : fieldName ∈ known)
    (fieldNamed : Text.isIdentifier fieldName = true)
    (regionNamed : Text.isIdentifier region = true)
    (sideNoColon : ':' ∉ side.toList) {value : Float} {entry : Script.Entry}
    (lowered : surface key fieldName region value side = .ok entry) : entry.Resolves known := by
  obtain ⟨word, written, same⟩ := Result.bind_ok.mp lowered
  rw [← Except.ok.inj same]
  have pair {label : String} {word : Word} (plain : ':' ∉ label.toList)
      (resolves : word.Resolves known) : ∀ part ∈ [.text label, word], part.Resolves known :=
    List.forall_mem_cons.mpr ⟨plain, List.forall_mem_singleton.mpr resolves⟩
  have regionNoColon := Text.noColon_of_isIdentifier regionNamed
  refine ⟨noColon, List.forall_mem_cons.mpr ⟨pair (by decide) ⟨atlas, by decide⟩,
    List.forall_mem_cons.mpr ⟨pair (by decide) regionNoColon, List.forall_mem_cons.mpr
      ⟨pair (by decide) ⟨field, fieldNamed⟩, List.forall_mem_cons.mpr
        ⟨pair (by decide) (numberWord_resolves written), List.forall_mem_singleton.mpr
          (pair (by decide) sideNoColon)⟩⟩⟩⟩⟩

/-- The objects of a coupling across a face between regions with names that scripts can use. -/
theorem faceItems_emits (atlas : "main_atlas" ∈ known) (identifier : Text.isIdentifier name = true)
    {sigma sigma2 : Float} {face : SharedFace Float}
    (firstNamed : Text.isIdentifier face.first.1 = true)
    (secondNamed : Text.isIdentifier face.second.1 = true)
    (lowered : faceItems name sigma sigma2 face = .ok items) :
    Emits known items [parameterName name "field", name] := by
  obtain ⟨direction, vector, lowered⟩ := Result.bind_ok.mp lowered
  obtain ⟨s1, first, lowered⟩ := Result.bind_ok.mp lowered
  obtain ⟨s2, second, lowered⟩ := Result.bind_ok.mp lowered
  obtain ⟨surface1, third, lowered⟩ := Result.bind_ok.mp lowered
  obtain ⟨surface2, fourth, same⟩ := Result.bind_ok.mp lowered
  rw [← Except.ok.inj same]
  have fieldNamed : Text.isIdentifier (parameterName name "field") = true :=
    isIdentifier_parameterName identifier (by decide)
  have field : Emits known [item "Oxs_LinearScalarField" (parameterName name "field")
      [.setting "vector" direction, .setting "norm" (.text "1")]]
      [parameterName name "field"] :=
    .object (by decide) fieldNamed (List.forall_mem_cons.mpr
      ⟨setting_resolves (by decide) (vectorWord_resolves vector), List.forall_mem_singleton.mpr
        (setting_resolves (by decide) (show ':' ∉ "1".toList by decide))⟩)
  have atlas : "main_atlas" ∈ known ++ [parameterName name "field"] :=
    List.mem_append_left _ atlas
  have declared : parameterName name "field" ∈ known ++ [parameterName name "field"] :=
    List.mem_append_right _ (List.mem_singleton_self _)
  exact field.append (.object (by decide) identifier (List.forall_mem_cons.mpr
    ⟨number_setting (by decide) first, List.forall_mem_cons.mpr
      ⟨number_setting (by decide) second, List.forall_mem_cons.mpr
        ⟨surface_resolves atlas (by decide) declared fieldNamed firstNamed (by decide) third,
          List.forall_mem_singleton.mpr (surface_resolves atlas (by decide) declared fieldNamed
            secondNamed (by decide) fourth)⟩⟩⟩))

/-- A subregion that is found is a region of the mesh. -/
theorem mem_of_subregion {subregionName : String} {region : Region Float}
    (found : subregion site name subregionName = .ok region) :
    subregionName ∈ site.mesh.regionNames := by
  unfold subregion at found
  cases entry : site.mesh.subregions.get? subregionName with
  | none =>
    rw [entry] at found
    cases found
  | some other =>
    have member := Keyed.mem_keys_of_get? entry
    unfold Mesh.regionNames
    split
    · rename_i empty
      have nothing : site.mesh.subregions.keys = [] := by
        unfold Keyed.keys
        rw [List.isEmpty_iff.mp empty]
        rfl
      rw [nothing] at member
      exact absurd member List.not_mem_nil
    · exact List.mem_append_left _ member

variable {α : Type} [Scalar α] {read : Float → α}

/-- A shared face lies between the two boxes. -/
theorem mem_of_only? {tolerance : α} {a b : String × Region Float} {face : SharedFace Float}
    (found : SharedFace.only? read tolerance a b = some face) :
    face.first ∈ [a, b] ∧ face.second ∈ [a, b] := by
  obtain ⟨axis, across⟩ := SharedFace.exists_of_only? found
  have first : a ∈ [a, b] := List.mem_cons_self
  have second : b ∈ [a, b] := List.mem_cons_of_mem a (List.mem_singleton_self b)
  unfold SharedFace.across? at across
  split at across
  · cases across
  · split at across
    · rw [← Option.some.inj across]
      exact ⟨first, second⟩
    · split at across
      · rw [← Option.some.inj across]
        exact ⟨second, first⟩
      · cases across

/-- The boxes on both sides of a shared face are regions of the mesh. -/
theorem mem_of_sharedFace {first second : String} {face : SharedFace Float}
    (shared : sharedFace read site name first second = .ok face) :
    face.first.1 ∈ site.mesh.regionNames ∧ face.second.1 ∈ site.mesh.regionNames := by
  obtain ⟨a, foundA, shared⟩ := Result.bind_ok.mp shared
  obtain ⟨b, foundB, shared⟩ := Result.bind_ok.mp shared
  cases only : SharedFace.only? read (site.mesh.map read).tolerance (first, a) (second, b) with
  | none =>
    rw [only] at shared
    cases shared
  | some other =>
    rw [only] at shared
    obtain rfl := Except.ok.inj shared
    have sides := mem_of_only? only
    have known : ∀ box ∈ [(first, a), (second, b)], box.1 ∈ site.mesh.regionNames :=
      List.forall_mem_cons.mpr
        ⟨mem_of_subregion foundA, List.forall_mem_singleton.mpr (mem_of_subregion foundB)⟩
    exact ⟨known _ sides.1, known _ sides.2⟩

/-- The objects of a coupling of two subregions. -/
theorem rkkyItems_emits (named : site.Named) (atlas : "main_atlas" ∈ known)
    (identifier : Text.isIdentifier name = true) {sigma sigma2 : Float} {first second : String}
    (lowered : (rkkyItems read site name sigma sigma2 first second).result = .ok items) :
    Emits known items (helperNames ⟨name, .rkky sigma sigma2 first second⟩ ++ [name]) := by
  obtain ⟨face, shared, lowered⟩ := Lowering.bind_ok.mp lowered
  have sides := mem_of_sharedFace shared
  exact faceItems_emits atlas identifier (named _ sides.1) (named _ sides.2) lowered

/-- The objects of a term. -/
theorem items_emits (named : site.Named) (atlas : "main_atlas" ∈ known) {term : Term}
    (identifier : Text.isIdentifier term.name = true)
    (lowered : (term.items site).result = .ok items) :
    Emits known items (term.helperNames ++ [term.name]) := by
  obtain ⟨name, interaction⟩ := term
  cases interaction with
  | exchange constant => exact exchangeItems_emits named atlas identifier lowered
  | zeeman field wave frequency delay => exact zeemanItems_emits named atlas identifier lowered
  | demag radius => exact demagItems_emits identifier lowered
  | dmi constant crystal => exact dmiItems_emits named atlas identifier lowered
  | uniaxial k1 k2 axis => exact uniaxialItems_emits named atlas identifier lowered
  | cubic k1 axis1 axis2 => exact cubicItems_emits named atlas identifier lowered
  | magnetoElastic b1 b2 diagonal offDiagonal =>
    exact magnetoElasticItems_emits named atlas identifier lowered
  | rkky sigma sigma2 first second => exact rkkyItems_emits named atlas identifier lowered

end Term

/-- The objects of terms with names that scripts can use, term by term. -/
theorem Energy.items_emits (named : site.Named) (atlas : "main_atlas" ∈ known) {energy : Energy}
    (identifiers : ∀ term ∈ energy, Text.isIdentifier term.name = true) {items : List Item}
    (lowered : (Energy.items site energy).result = .ok items) :
    Emits known items (energy.flatMap fun term => term.helperNames ++ [term.name]) := by
  induction energy generalizing items with
  | nil =>
    rw [← Lowering.pure_ok.mp lowered]
    exact .nil
  | cons term rest ih =>
    obtain ⟨first, inner, lowered⟩ := Lowering.bind_ok.mp lowered
    obtain ⟨others, further, same⟩ := Lowering.bind_ok.mp lowered
    rw [← Lowering.pure_ok.mp same]
    have head := Term.items_emits named atlas (identifiers term List.mem_cons_self) inner
    exact head.append_right (ih (fun other member =>
      identifiers other (List.mem_cons_of_mem term member)) further)

end Micromag
