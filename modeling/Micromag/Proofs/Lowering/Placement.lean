import Micromag.Proofs.Keyed
import Micromag.Proofs.Lowering.Formation
import Micromag.Proofs.Lowering.Pairs

/-!
# Numbers in their regions

A region map is made by setting one region after the other. In a script each region that was set has
one row with the number that was set last, and the others have the number elsewhere. One name means
everywhere else: a subregion may bear it, but then its number has no row and all regions that were
not set have it too.
-/

namespace Micromag

open Script

namespace RegionMap

variable {map : RegionMap} {key other : String} {value : RegionValue}

/-! ## Settings -/

/-- The value under a key; under the fallback key, the value elsewhere. -/
def value? (map : RegionMap) (key : String) : Option RegionValue :=
  if key = fallbackKey then map.fallback else map.values.get? key

/-- Setting a key changes the value under this key only. -/
theorem value?_insert :
    (map.insert key value).value? other = if other = key then some value else map.value? other := by
  unfold insert value?
  by_cases elsewhere : key = fallbackKey
  · rw [if_pos elsewhere]
    by_cases same : other = key
    · rw [if_pos (same.trans elsewhere), if_pos same]
    · rw [if_neg same, if_neg (elsewhere ▸ same), if_neg (elsewhere ▸ same)]
  · rw [if_neg elsewhere]
    by_cases same : other = key
    · rw [if_pos same, if_neg (same ▸ elsewhere), Keyed.get?_insert, if_pos same]
    · rw [if_neg same, Keyed.get?_insert, if_neg same]

/-- Setting a key leaves the fallback key without a value of its own. -/
theorem get?_fallbackKey_insert (apart : map.values.get? fallbackKey = none) :
    (map.insert key value).values.get? fallbackKey = none := by
  unfold insert
  by_cases elsewhere : key = fallbackKey
  · rw [if_pos elsewhere]
    exact apart
  · rw [if_neg elsewhere, Keyed.get?_insert, if_neg (Ne.symm elsewhere)]
    exact apart

/-- The map after numbers were set, one after the other. -/
def ofSettings (settings : List (String × Float)) : RegionMap :=
  settings.foldl (fun map setting => map.insert setting.1 (.scalar setting.2)) {}

/-- The number that was set last under a key. -/
def last? (settings : List (String × Float)) (key : String) : Option Float :=
  settings.reverse.lookup key

variable {settings : List (String × Float)}

/-- Settings change the values under their keys to the last of them. -/
theorem value?_foldl_insert :
    (settings.foldl (fun map setting => map.insert setting.1 (.scalar setting.2)) map).value? key =
      ((last? settings key).map RegionValue.scalar).or (map.value? key) := by
  unfold last?
  induction settings generalizing map with
  | nil => rfl
  | cons setting others ih =>
    obtain ⟨k, x⟩ := setting
    rw [List.foldl_cons, ih, value?_insert, List.reverse_cons, List.lookup_append,
      Keyed.lookup_cons_eq]
    cases others.reverse.lookup key with
    | some last => rfl
    | none =>
      by_cases same : key = k
      · rw [if_pos same, if_pos same]
        rfl
      · rw [if_neg same, if_neg same]
        rfl

/-- The values of a map of settings are the numbers that were set last. -/
theorem value?_ofSettings :
    (ofSettings settings).value? key = (last? settings key).map RegionValue.scalar := by
  have nothing : (RegionMap.mk .empty none).value? key = none := ite_self none
  unfold ofSettings
  rw [value?_foldl_insert, nothing, Option.or_none]

/-- The fallback key has no value of its own in a map of settings. -/
theorem get?_fallbackKey_ofSettings :
    (ofSettings settings).values.get? fallbackKey = none := by
  have kept (map : RegionMap) (apart : map.values.get? fallbackKey = none) :
      (settings.foldl (fun map setting => map.insert setting.1 (.scalar setting.2))
        map).values.get? fallbackKey = none := by
    induction settings generalizing map with
    | nil => exact apart
    | cons setting others ih => exact ih _ (get?_fallbackKey_insert apart)
  exact kept {} rfl

/-- The value elsewhere in a map of settings is the number that was set last under the fallback
key. -/
theorem fallback_ofSettings :
    (ofSettings settings).fallback = (last? settings fallbackKey).map RegionValue.scalar := by
  rw [← value?_ofSettings]
  exact (if_pos rfl).symm

/-- The other values in a map of settings are the numbers that were set last. -/
theorem get?_ofSettings (other : key ≠ fallbackKey) :
    (ofSettings settings).values.get? key = (last? settings key).map RegionValue.scalar := by
  rw [← value?_ofSettings]
  exact (if_neg other).symm

/-- Every entry of a map of settings is the number that was set last under its key. -/
theorem scalar_of_mem_ofSettings {entry : String × RegionValue}
    (member : entry ∈ (ofSettings settings).values.entries) :
    ∃ x, last? settings entry.1 = some x ∧ entry.2 = .scalar x := by
  have value := Keyed.get?_of_mem member
  have other : entry.1 ≠ fallbackKey := fun same => by
    rw [same, get?_fallbackKey_ofSettings] at value
    cases value
  rw [get?_ofSettings other] at value
  obtain ⟨x, found, same⟩ := Option.map_eq_some_iff.mp value
  exact ⟨x, found, same.symm⟩

/-- A key that was set has a number that was set last, and no other key has. -/
theorem last?_eq_none_iff : last? settings key = none ↔ key ∉ settings.map (·.1) := by
  unfold last?
  rw [Keyed.lookup_eq_none_iff_notMem, List.map_reverse, List.mem_reverse]

/-- The number that was set last under a key is that of a setting of the key. -/
theorem mem_of_last? {x : Float} (last : last? settings key = some x) : (key, x) ∈ settings :=
  List.mem_reverse.mp (Keyed.mem_of_lookup last)

/-! ## Rows -/

/-- Zero is written as one digit. -/
theorem numberText_zero : numberText 0 = .ok "0" := by rfl

/-- What rows state of a region: a number in one row, or nothing. -/
def States (rows : List (String × String)) (region : String) (stated : Option Float) : Prop :=
  List.Forall₂ (fun row x => row.1 = region ∧ numberText x = .ok row.2)
    (rows.filter (·.1 = region)) stated.toList

/-- Rows that state nothing of a region do not state a number of it. -/
theorem States.eq_none {rows : List (String × String)} {region : String} {stated : Option Float}
    (states : States rows region stated) (nothing : States rows region none) : stated = none := by
  have empty := List.forall₂_nil_right_iff.mp nothing
  unfold States at states
  rw [empty] at states
  exact Option.toList_eq_nil_iff.mp (List.forall₂_nil_left_iff.mp states)

/-- The text that is found for a region is that of the number stated, if one is. -/
theorem States.lookup {rows : List (String × String)} {region : String} {stated : Option Float}
    (states : States rows region stated) (apart : (rows.map (·.1)).Nodup) {fallback : String}
    {elsewhere : Float} (written : numberText elsewhere = .ok fallback) :
    numberText (stated.getD elsewhere) = .ok ((rows.lookup region).getD fallback) := by
  unfold States at states
  rw [Keyed.filter_eq_lookup apart] at states
  cases found : rows.lookup region with
  | none =>
    rw [found] at states
    cases stated with
    | none => exact written
    | some x => cases states
  | some text =>
    rw [found] at states
    cases stated with
    | none => cases states
    | some x =>
      obtain ⟨⟨-, same⟩, -⟩ := List.forall₂_cons.mp states
      exact same

/-- The number elsewhere and the rows that belong to settings. -/
structure Represents (settings : List (String × Float)) (fallback : String)
    (rows : List (String × String)) : Prop where
  /-- The number elsewhere is the last one set there, or zero. -/
  fallback : numberText ((last? settings fallbackKey).getD 0) = .ok fallback
  /-- No region has two rows. -/
  apart : (rows.map (·.1)).Nodup
  /-- Every other region has a row with the last number set for it if one was set. -/
  regions : ∀ region, region ≠ fallbackKey → States rows region (last? settings region)
  /-- The fallback key has no row. -/
  elsewhere : States rows fallbackKey none

variable {fallback : String} {rows : List (String × String)}

/-- A region has the last number set for it, or else the last one set elsewhere, or else zero. -/
theorem Represents.reaches (represents : Represents settings fallback rows) (region : String) :
    numberText ((last? settings region).getD ((last? settings fallbackKey).getD 0)) =
      .ok ((rows.lookup region).getD fallback) := by
  by_cases elsewhere : region = fallbackKey
  · subst elsewhere
    have own := represents.elsewhere.lookup represents.apart represents.fallback
    cases last : last? settings fallbackKey <;> rwa [last] at own
  · exact (represents.regions region elsewhere).lookup represents.apart represents.fallback

/-- The number elsewhere is zero, and every region that was set has its row, exactly when the name of
none of them is the fallback key. -/
theorem Represents.apart_iff (represents : Represents settings fallback rows) :
    (fallback = "0" ∧ ∀ region, States rows region (last? settings region)) ↔
      fallbackKey ∉ settings.map (·.1) := by
  rw [← last?_eq_none_iff]
  constructor
  · rintro ⟨-, each⟩
    exact (each fallbackKey).eq_none represents.elsewhere
  · intro unset
    have zero := represents.fallback
    rw [unset, Option.getD_none] at zero
    refine ⟨Except.ok.inj (zero.symm.trans numberText_zero), fun region => ?_⟩
    by_cases elsewhere : region = fallbackKey
    · rw [elsewhere, unset]
      exact represents.elsewhere
    · exact represents.regions region elsewhere

end RegionMap

namespace Parameter

open RegionMap

variable {mesh : Mesh Float} {platform : Platform} {name fallback : String}
  {settings : List (String × Float)} {rows : List (String × String)}

/-! ## Lowering -/

/-- The declaration of a number for each region. -/
def placement (name fallback : String) (rows : List (String × String)) : Item :=
  .object Arity.scalar.regionClass name
    [Mesh.mainAtlas, .setting "default_value" (.text fallback),
      .table "values" (rows.map fun row => [.text row.1, .text row.2])]

/-- Its text. -/
def placementText (name fallback : String) (rows : List (String × String)) : String :=
  "Specify Oxs_AtlasScalarField:" ++ name ++ " \x7b\n  atlas :main_atlas\n  default_value " ++
    fallback ++ "\n  values \x7b\n" ++
    String.join (rows.map fun row => "    " ++ row.1 ++ " " ++ row.2 ++ "\n") ++ "  \x7d\n\x7d\n\n"

/-- The text of a row. -/
theorem renderLine_row {region text : String} :
    renderLine [.text region, .text text] = region ++ " " ++ text := by
  show String.intercalate " " [region, text] = _
  rw [String.intercalate_cons_cons, String.intercalate_singleton]

/-- A row is a line of its own when its region is an identifier. -/
theorem isLine_row {region text : String} (identifier : Text.isIdentifier region = true) {x : Float}
    (written : numberText x = .ok text) : IsLine (renderLine [.text region, .text text]) := by
  have toList : (renderLine [.text region, .text text]).toList =
      region.toList ++ ' ' :: text.toList := by
    rw [renderLine_row]
    simp only [String.toList_append, List.append_assoc]
    rfl
  have absent {c : Char} (other : (Text.isNameChar c || c == ' ' || numberChars.contains c) = false) :
      c ∉ (renderLine [.text region, .text text]).toList := by
    rw [Bool.or_eq_false_iff, Bool.or_eq_false_iff] at other
    rw [toList, List.mem_append, List.mem_cons]
    rintro (inside | rfl | inside)
    · exact absurd (Text.isNameChar_of_mem identifier inside) (by rw [other.1.1]; decide)
    · exact absurd other.1.2 (by decide)
    · have known := List.contains_iff_mem.mpr (mem_numberChars written inside)
      exact absurd known (by rw [other.2]; decide)
  refine ⟨fun empty => ?_, absent (by decide), fun last => ?_⟩
  · rw [empty] at toList
    exact absurd (congrArg List.length toList) (by simp)
  · exact absent (by decide) (List.mem_of_getLast? last)

/-- The text of a declaration whose rows are lines. -/
theorem render_placement (bare : isBare fallback = true)
    (each : ∀ row ∈ rows, IsLine (renderLine [.text row.1, .text row.2])) :
    (placement name fallback rows).render = placementText name fallback rows := by
  have one : '\n' ∉ (Word.text fallback).render.toList := notMem_of_isBare bare
  have atlas : Text.linesOf Mesh.mainAtlas.render = ["atlas :main_atlas"] := by decide
  have default : Text.linesOf (Script.Entry.setting "default_value" (.text fallback)).render =
      ["default_value " ++ fallback] :=
    (linesOf_setting (by decide) one).trans (congrArg ([·]) renderLine_row)
  have values : Text.linesOf (Script.Entry.table "values"
      (rows.map fun row => [.text row.1, .text row.2])).render =
      ("values \x7b" :: rows.map fun row => "  " ++ (row.1 ++ " " ++ row.2)) ++ ["\x7d"] := by
    show Text.linesOf (tableText "values" (List.map _ (List.map _ rows))) = _
    rw [List.map_map]
    refine (linesOf_tableText (by decide) (List.forall_mem_map.mpr each)).trans ?_
    rw [List.map_map]
    refine congrArg (fun rows => "values \x7b" :: rows ++ ["\x7d"])
      (List.map_congr_left fun row _ => ?_)
    exact congrArg ("  " ++ ·) renderLine_row
  have deeper : ((fun row : String => "  " ++ row ++ "\n") ∘
      fun row : String × String => "  " ++ (row.1 ++ " " ++ row.2)) =
      fun row => "    " ++ row.1 ++ " " ++ row.2 ++ "\n" := by
    funext row
    refine String.toList_inj.mp ?_
    simp only [Function.comp, String.toList_append, List.append_assoc]
    rfl
  show "Specify " ++ ("Oxs_AtlasScalarField" ++ ":" ++ name) ++ " \x7b\n" ++
    indented [_, _, _] ++ "\x7d\n\n" = _
  unfold indented placementText
  rw [List.flatMap_cons, List.flatMap_cons, List.flatMap_singleton, atlas, default, values]
  refine String.toList_inj.mp ?_
  simp only [List.map_append, List.map_cons, List.map_nil, List.map_map, deeper, String.join_append,
    String.join_cons, String.toList_append, List.append_assoc]
  rfl

/-- Whether a row belongs to an entry of a region map: its region, and the text of its number. -/
def RowOf (entry : String × RegionValue) (row : String × String) : Prop :=
  row.1 = entry.1 ∧ ∃ x, entry.2 = .scalar x ∧ numberText x = .ok row.2

/-- Every entry with a finite number has a row. -/
theorem exists_rows {entries : List (String × RegionValue)}
    (finite : ∀ entry ∈ entries, ∃ x, entry.2 = .scalar x ∧ x.isFinite = true) :
    ∃ rows, List.Forall₂ RowOf entries rows := by
  induction entries with
  | nil => exact ⟨[], .nil⟩
  | cons entry others ih =>
    obtain ⟨⟨x, scalar, bounded⟩, more⟩ := List.forall_mem_cons.mp finite
    obtain ⟨text, written⟩ := PairValue.numberText_ok.mpr bounded
    obtain ⟨rows, each⟩ := ih more
    exact ⟨(entry.1, text) :: rows, .cons ⟨rfl, x, scalar, written⟩ each⟩

/-- The rows of the entries of a map name their regions. -/
theorem map_fst_rows {entries : List (String × RegionValue)} (each : List.Forall₂ RowOf entries rows) :
    rows.map (·.1) = entries.map (·.1) := by
  induction each with
  | nil => rfl
  | cons first _ ih => rw [List.map_cons, List.map_cons, first.1, ih]

/-- Every row belongs to an entry. -/
theorem exists_of_mem_rows {entries : List (String × RegionValue)}
    (each : List.Forall₂ RowOf entries rows) {row : String × String} (member : row ∈ rows) :
    ∃ entry ∈ entries, RowOf entry row := by
  induction each with
  | nil => exact absurd member List.not_mem_nil
  | cons first _ ih =>
    rcases List.mem_cons.mp member with rfl | member
    · exact ⟨_, List.mem_cons_self, first⟩
    · obtain ⟨entry, inside, related⟩ := ih member
      exact ⟨entry, List.mem_cons_of_mem _ inside, related⟩

/-- The rows of the entries of a map state what is under the names of their regions. -/
theorem states_of_rows {map : RegionMap} (each : List.Forall₂ RowOf map.values.entries rows)
    {region : String} {stated : Option Float}
    (value : map.values.get? region = stated.map RegionValue.scalar) :
    States rows region stated := by
  have own : List.Forall₂ RowOf (map.values.entries.filter (·.1 = region))
      (rows.filter (·.1 = region)) := by
    refine List.rel_filter (fun entry row related => ?_) each
    show decide (entry.1 = region) = true ↔ decide (row.1 = region) = true
    rw [related.1]
  have entries : map.values.entries.filter (·.1 = region) =
      ((map.values.get? region).map (Prod.mk region)).toList :=
    Keyed.filter_eq_lookup map.values.nodup_keys
  unfold States
  rw [entries, value] at own
  cases stated with
  | none =>
    rw [List.forall₂_nil_left_iff.mp own]
    exact .nil
  | some x =>
    obtain ⟨row, rest, ⟨named, y, scalar, written⟩, tail, rows⟩ := List.forall₂_cons_left_iff.mp own
    rw [rows, List.forall₂_nil_left_iff.mp tail]
    obtain rfl := RegionValue.scalar.inj scalar
    exact .cons ⟨named, written⟩ .nil

/-- The rows of a map of settings belong to the settings. -/
theorem represents_ofSettings
    (each : List.Forall₂ RowOf (ofSettings settings).values.entries rows)
    (written : numberText ((last? settings fallbackKey).getD 0) = .ok fallback) :
    Represents settings fallback rows where
  fallback := written
  apart := by
    rw [map_fst_rows each]
    exact Keyed.nodup_keys _
  regions _ other := states_of_rows each (get?_ofSettings other)
  elsewhere := states_of_rows each get?_fallbackKey_ofSettings

/-- A map of finite numbers in regions of the mesh is declared with their rows. -/
theorem regionItem_of_rows {map : RegionMap}
    (each : List.Forall₂ RowOf map.values.entries rows)
    (known : ∀ entry ∈ map.values.entries, entry.1 ∈ mesh.regionNames) {elsewhere : Float}
    (absent : map.fallback.getD Arity.scalar.zero = .scalar elsewhere)
    (written : numberText elsewhere = .ok fallback) :
    regionItem .scalar ⟨mesh, platform⟩ name map = .ok (placement name fallback rows) := by
  have word {value : Float} {text : String} (written : numberText value = .ok text) (kind : String) :
      arityWord .scalar name kind (.scalar value) = .ok (.text text) :=
    PairValue.numberWord_ok.mpr ⟨text, written, rfl⟩
  refine Result.bind_ok.mpr ⟨rows.map fun row => [.text row.1, .text row.2], ?_,
    Result.bind_ok.mpr ⟨.text fallback, ?_, rfl⟩⟩
  · refine Result.mapM_ok.mpr (List.forall₂_map_right_iff.mpr ?_)
    refine ((List.forall₂_and_left _ _).mpr ⟨known, each⟩).imp ?_
    rintro ⟨region, value⟩ ⟨named, text⟩ ⟨inside, same, x, scalar, found⟩
    cases same
    cases scalar
    exact Result.bind_ok.mpr ⟨(), checkRegion_of_mem inside,
      Result.bind_ok.mpr ⟨_, word found _, rfl⟩⟩
  · rw [absent]
    exact word written _

/-- Finite numbers that are set one after the other in regions of a usable mesh are lowered to one
object, which states the last number of each region in a row of its own: a region has the last number
set for it, or else the number elsewhere. The number elsewhere is zero and every region that was set
has its row exactly when none of them has the name that means everywhere else. -/
theorem lowerScalar_placed (usable : mesh.validate = .ok ())
    (settings : List (String × Float)) (known : ∀ setting ∈ settings, setting.1 ∈ mesh.regionNames)
    (finite : ∀ setting ∈ settings, setting.2.isFinite = true) (platform : Platform)
    (name : String) :
    ∃ items fallback rows,
      (lowerScalar ⟨mesh, platform⟩ (.perRegion (.ofSettings settings)) name).Gives
          ⟨items, .reference name⟩ [] ∧
        render items = placementText name fallback rows ∧
        Represents settings fallback rows ∧
        (∀ region,
          numberText ((last? settings region).getD ((last? settings fallbackKey).getD 0)) =
            .ok ((rows.lookup region).getD fallback)) ∧
        ((fallback = "0" ∧ ∀ region, States rows region (last? settings region)) ↔
          fallbackKey ∉ settings.map (·.1)) := by
  have bounded : ∀ entry ∈ (ofSettings settings).values.entries,
      ∃ x, entry.2 = .scalar x ∧ x.isFinite = true := by
    intro entry member
    obtain ⟨x, found, scalar⟩ := scalar_of_mem_ofSettings member
    exact ⟨x, scalar, finite (entry.1, x) (mem_of_last? found)⟩
  have inside : ∀ entry ∈ (ofSettings settings).values.entries, entry.1 ∈ mesh.regionNames := by
    intro entry member
    obtain ⟨x, found, -⟩ := scalar_of_mem_ofSettings member
    exact known (entry.1, x) (mem_of_last? found)
  -- finite numbers have texts, and those of the map become its rows
  obtain ⟨rows, each⟩ := exists_rows bounded
  obtain ⟨fallback, written⟩ : ∃ text,
      numberText ((last? settings fallbackKey).getD 0) = .ok text := by
    cases last : last? settings fallbackKey with
    | none =>
      rw [Option.getD_none]
      exact ⟨"0", numberText_zero⟩
    | some x => exact PairValue.numberText_ok.mpr (finite (fallbackKey, x) (mem_of_last? last))
  have absent : (ofSettings settings).fallback.getD Arity.scalar.zero =
      .scalar ((last? settings fallbackKey).getD 0) := by
    rw [fallback_ofSettings]
    cases last? settings fallbackKey <;> rfl
  have represents := represents_ofSettings each written
  refine ⟨[placement name fallback rows], fallback, rows, ?_, ?_, represents, represents.reaches,
    represents.apart_iff⟩
  · exact Lowering.lift_bind_gives.mpr
      ⟨_, regionItem_of_rows each inside absent written, Lowering.pure_gives.mpr ⟨rfl, rfl⟩⟩
  · have lines : ∀ row ∈ rows, IsLine (renderLine [.text row.1, .text row.2]) := by
      intro row member
      obtain ⟨entry, own, named, x, -, text⟩ := exists_of_mem_rows each member
      have identifier := Mesh.isIdentifier_of_mem_regionNames usable (inside entry own)
      exact isLine_row (named ▸ identifier) text
    show String.join [(placement name fallback rows).render] = _
    rw [render_placement (isBare_numberText written) lines]
    exact String.empty_append

/-- Two parts of a region, one of which has the name that means everywhere else. -/
def ambiguous : Mesh Float where
  region := ⟨.fill 0, ⟨3, 1, 1⟩⟩
  cell := .fill 1
  subregions := .ofList [("default", ⟨.fill 0, .fill 1⟩), ("left", ⟨⟨1, 0, 0⟩, ⟨2, 1, 1⟩⟩)]

/-- A number for the part of that name has no row, and the rest of the region has it too; the other
part has the last of its numbers. -/
theorem lowerScalar_placed_ambiguous :
    ambiguous.validate = .ok () ∧
      ∃ items, (lowerScalar ⟨ambiguous, .unix⟩
          (.perRegion (.ofSettings [("left", 1), ("default", 5), ("left", 3)])) "Ms").Gives
          ⟨items, .reference "Ms"⟩ [] ∧
        render items = placementText "Ms" "5" [("left", "3")] := by
  have usable : ambiguous.validate = .ok () := Result.ok_of_toBool (by decide)
  have ⟨items, _, _, gives, _⟩ := lowerScalar_placed usable
    [("left", 1), ("default", 5), ("left", 3)] (by decide) (by decide) .unix "Ms"
  have computed : (lowerScalar ⟨ambiguous, .unix⟩
      (.perRegion (.ofSettings [("left", 1), ("default", 5), ("left", 3)])) "Ms").result =
      .ok ⟨[placement "Ms" "5" [("left", "3")]], .reference "Ms"⟩ := by rfl
  obtain ⟨rfl, -⟩ := LoweredParameter.mk.inj (Except.ok.inj (gives.result.symm.trans computed))
  exact ⟨usable, _, gives, rfl⟩

end Parameter

end Micromag
