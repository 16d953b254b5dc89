import Mathlib.Data.Finset.Card
import Mathlib.Data.List.Perm.Basic
import Micromag.Proofs.Keyed
import Micromag.Proofs.Script.Heading
import Micromag.Table.Basic

/-!
# Short names stay apart

What an evolver or a driver reports has a short name of its own, so that no other object of a run
shares it. Energies share short names; a shared one gets the instance behind an underscore. No short
name with an underscore begins another short name of an energy, so that a name with an instance is
neither a short name nor one with another instance.
-/

namespace Micromag.Table

variable {before after : List Char} {className instanceName quantity short : String}

/-- A text is split at a colon behind which there is none. -/
theorem splitLastColon?_append (noColon : ':' ∉ after) :
    splitLastColon? (before ++ ':' :: after) = some (before, after) := by
  have reversed : (before ++ ':' :: after).reverse = after.reverse ++ ':' :: before.reverse := by
    simp
  have clear : ':' ∉ after.reverse := fun member => noColon (List.mem_reverse.mp member)
  unfold splitLastColon?
  rw [reversed, Script.splitFirstColon?_append clear]
  simp

/-- The name of a column: a quantity of an object. -/
def columnName (object : String × String) (quantity : String) : String :=
  object.1 ++ ":" ++ object.2 ++ ":" ++ quantity

/-- The name of a column is taken apart. -/
theorem ofText_columnName (ofClass : ':' ∉ className.toList) (noColon : ':' ∉ quantity.toList) :
    ColumnName.ofText (columnName (className, instanceName) quantity) =
      ⟨className, instanceName, quantity⟩ := by
  have text : (columnName (className, instanceName) quantity).toList =
      className.toList ++ ':' :: (instanceName.toList ++ ':' :: quantity.toList) := by
    unfold columnName
    simp only [String.toList_append, List.append_assoc]
    rfl
  unfold ColumnName.ofText
  rw [text, Script.splitFirstColon?_append ofClass]
  dsimp only
  rw [splitLastColon?_append noColon]
  simp only [String.ofList_toList]

/-- The short names of what evolvers and drivers report. -/
def soleShorts : List String := evolverQuantities.map (·.2) ++ driverQuantities.map (·.2)

/-- The groups of energies. -/
def groups : List String := energyGroups.map (·.2)

/-- What energies report under short names. -/
def knownQuantities : List String := "Energy" :: fieldQuantities ++ energyQuantities.map (·.1)

/-- The short names of what energies report. -/
def energyShorts : List String :=
  groups.map ("E_" ++ ·) ++ fieldQuantities ++ energyQuantities.map (·.2)

/-- What has a short name for an energy is known. -/
theorem mem_knownQuantities {group : String} (known : energyQuantity? group quantity = some short) :
    quantity ∈ knownQuantities := by
  unfold energyQuantity? at known
  split at known
  · rename_i same
    rw [same]
    exact List.mem_cons_self
  · split at known
    · rename_i field
      have among := List.contains_iff_mem.mp (Bool.and_eq_true _ _ ▸ field).2
      exact List.mem_append_left _ (List.mem_cons_of_mem _ among)
    · exact List.mem_append_right _ (List.mem_map_of_mem (Keyed.mem_of_lookup known))

/-- A group tells what it reports by its short name. -/
theorem energyQuantity?_inj {group other : String} (member : group ∈ groups)
    (known : energyQuantity? group quantity = some short)
    (again : energyQuantity? group other = some short) : quantity = other := by
  have all : ∀ group ∈ groups, ∀ quantity ∈ knownQuantities, ∀ other ∈ knownQuantities,
      energyQuantity? group quantity = energyQuantity? group other →
        quantity = other ∨ energyQuantity? group quantity = none := by
    decide +kernel
  rcases all group member quantity (mem_knownQuantities known) other (mem_knownQuantities again)
    (known.trans again.symm) with same | nothing
  · exact same
  · rw [known] at nothing
    cases nothing

/-- The short name of what a group reports is one of those of energies. -/
theorem mem_energyShorts {group : String} (member : group ∈ groups)
    (known : energyQuantity? group quantity = some short) : short ∈ energyShorts := by
  have all : ∀ group ∈ groups, ∀ quantity ∈ knownQuantities,
      ∀ short ∈ energyQuantity? group quantity, short ∈ energyShorts := by
    decide +kernel
  exact all group member quantity (mem_knownQuantities known) short known

/-- A short name with an underscore that begins another one is that one, if the first is of an
energy. -/
theorem eq_of_start {other : String} (energy : short ∈ energyShorts)
    (known : other ∈ energyShorts ++ soleShorts)
    (start : (short ++ "_").toList <+: (other ++ "_").toList) : short = other := by
  have all : ∀ short ∈ energyShorts, ∀ other ∈ energyShorts ++ soleShorts,
      (short ++ "_").toList.isPrefixOf (other ++ "_").toList = true → short = other := by
    decide +kernel
  exact all short energy other known (List.isPrefixOf_iff_prefix.mpr start)

/-- Where a short name comes from: what an evolver, a driver or an energy reports. -/
inductive Source (className quantity short : String) : Prop where
  /-- An evolver reports it. -/
  | evolver (ofClass : className ∈ evolverClasses)
      (found : evolverQuantities.lookup quantity = some short)
  /-- A driver reports it. -/
  | driver (ofClass : className ∈ driverClasses)
      (found : driverQuantities.lookup quantity = some short)
  /-- An energy reports it. -/
  | energy {group : String} (grouped : energyGroups.lookup className = some group)
      (found : energyQuantity? group quantity = some short)

/-- A short name comes from somewhere. -/
theorem ColumnName.source {name : ColumnName} (known : name.short? = some short) :
    Source name.className name.quantity short := by
  unfold short? at known
  split at known
  · rename_i evolver
    exact .evolver (List.contains_iff_mem.mp evolver) known
  · split at known
    · rename_i driver
      exact .driver (List.contains_iff_mem.mp driver) known
    · obtain ⟨group, grouped, found⟩ := Option.bind_eq_some_iff.mp known
      exact .energy grouped found

/-- A table of quantities with different short names tells a quantity by its short name. -/
theorem lookup_inj {entries : List (String × String)} {other : String}
    (distinct : (entries.map (·.2)).Nodup) (known : entries.lookup quantity = some short)
    (again : entries.lookup other = some short) : quantity = other :=
  congrArg Prod.fst (List.inj_on_of_nodup_map distinct (Keyed.mem_of_lookup known)
    (Keyed.mem_of_lookup again) rfl)

/-- A short name of an evolver or of a driver is none of an energy. -/
theorem notMem_energyShorts (sole : short ∈ soleShorts) : short ∉ energyShorts := by
  have all : ∀ short ∈ soleShorts, short ∉ energyShorts := by decide +kernel
  exact all short sole

/-- A value occurs twice among those of different elements exactly when two of them have it. -/
theorem one_lt_count_map {α β : Type} [DecidableEq α] [BEq β] [LawfulBEq β] {xs : List α}
    {f : α → β} {b : β} (distinct : xs.Nodup) :
    1 < (xs.map f).count b ↔ ∃ x ∈ xs, ∃ y ∈ xs, f x = b ∧ f y = b ∧ x ≠ y := by
  have counted : (xs.map f).count b = (xs.filter fun x => f x == b).toFinset.card := by
    rw [List.toFinset_card_of_nodup (distinct.filter _), List.count, List.countP_map,
      List.countP_eq_length_filter]
    rfl
  rw [counted, Finset.one_lt_card]
  simp only [List.mem_toFinset, List.mem_filter, beq_iff_eq]
  constructor
  · rintro ⟨x, ⟨first, same⟩, y, ⟨second, again⟩, differ⟩
    exact ⟨x, first, y, second, same, again, differ⟩
  · rintro ⟨x, first, y, second, same, again, differ⟩
    exact ⟨x, ⟨first, same⟩, y, ⟨second, again⟩, differ⟩

/-- Whether the objects of a run can be told apart: there is one evolver and one driver, and the
objects of energies have different names. -/
structure Tellable (objects : List (String × String)) : Prop where
  /-- Classes and instances have no colon. -/
  noColon : ∀ object ∈ objects, ':' ∉ object.1.toList ∧ ':' ∉ object.2.toList
  /-- There is one evolver. -/
  evolver : ∀ object ∈ objects, ∀ other ∈ objects, object.1 ∈ evolverClasses →
    other.1 ∈ evolverClasses → object = other
  /-- There is one driver. -/
  driver : ∀ object ∈ objects, ∀ other ∈ objects, object.1 ∈ driverClasses →
    other.1 ∈ driverClasses → object = other
  /-- An energy has a name. -/
  named : ∀ object ∈ objects, object.1 ∈ energyGroups.map (·.1) → object.2 ≠ ""
  /-- The names of energies differ. -/
  energy : ∀ object ∈ objects, ∀ other ∈ objects, object.1 ∈ energyGroups.map (·.1) →
    other.1 ∈ energyGroups.map (·.1) → object.2 = other.2 → object = other

/-- Whether a column reports a quantity of one of some objects. -/
def Reports (objects : List (String × String)) (column : String) : Prop :=
  ∃ object ∈ objects, ∃ quantity, ':' ∉ quantity.toList ∧ column = columnName object quantity

variable {objects : List (String × String)} {columns : List String} {column other : String}

/-- The class of an energy has a group. -/
theorem mem_groups {group : String} (grouped : energyGroups.lookup className = some group) :
    className ∈ energyGroups.map (·.1) ∧ group ∈ groups :=
  ⟨List.mem_map_of_mem (Keyed.mem_of_lookup grouped),
    List.mem_map_of_mem (Keyed.mem_of_lookup grouped)⟩

/-- The short name of something in a table is one of the short names of the table. -/
theorem mem_of_lookup {entries : List (String × String)}
    (found : entries.lookup quantity = some short) : short ∈ entries.map (·.2) :=
  List.mem_map_of_mem (Keyed.mem_of_lookup found)

/-- A short name is that of an energy or that of an evolver or a driver. -/
theorem Source.mem_shorts (source : Source className quantity short) :
    short ∈ energyShorts ++ soleShorts := by
  cases source with
  | evolver _ found =>
    exact List.mem_append_right _ (List.mem_append_left _ (mem_of_lookup found))
  | driver _ found =>
    exact List.mem_append_right _ (List.mem_append_right _ (mem_of_lookup found))
  | energy grouped found =>
    exact List.mem_append_left _ (mem_energyShorts (mem_groups grouped).2 found)

/-- The short name of an energy comes from an energy. -/
theorem Source.of_energy (source : Source className quantity short)
    (energy : short ∈ energyShorts) : ∃ group, energyGroups.lookup className = some group ∧
      energyQuantity? group quantity = some short := by
  cases source with
  | evolver _ found =>
    exact absurd energy (notMem_energyShorts (List.mem_append_left _ (mem_of_lookup found)))
  | driver _ found =>
    exact absurd energy (notMem_energyShorts (List.mem_append_right _ (mem_of_lookup found)))
  | energy grouped found => exact ⟨_, grouped, found⟩

namespace Reports

/-- A column with a short name reports a quantity of an object under it. -/
theorem source (tellable : Tellable objects) (reports : Reports objects column)
    (known : shortName? column = some short) :
    ∃ object ∈ objects, ∃ quantity, column = columnName object quantity ∧
      (ColumnName.ofText column).instanceName = object.2 ∧ Source object.1 quantity short := by
  obtain ⟨object, member, quantity, noColon, rfl⟩ := reports
  have parts : ColumnName.ofText (columnName object quantity) = ⟨object.1, object.2, quantity⟩ :=
    ofText_columnName (tellable.noColon object member).1 noColon
  have source := ColumnName.source known
  rw [parts] at source
  exact ⟨object, member, quantity, rfl, by rw [parts], source⟩

/-- The quantities of the evolver and of the driver have different short names. -/
theorem eq_of_sole (tellable : Tellable objects) (reports : Reports objects column)
    (others : Reports objects other) (known : shortName? column = some short)
    (again : shortName? other = some short) (sole : short ∉ energyShorts) : column = other := by
  have distinct : soleShorts.Nodup := by decide +kernel
  obtain ⟨evolvers, drivers, apart⟩ := List.nodup_append'.mp distinct
  obtain ⟨object, member, quantity, rfl, -, source⟩ := reports.source tellable known
  obtain ⟨object', member', quantity', rfl, -, source'⟩ := others.source tellable again
  cases source with
  | evolver ofClass found =>
    cases source' with
    | evolver ofClass' found' =>
      rw [tellable.evolver object member object' member' ofClass ofClass',
        lookup_inj evolvers found found']
    | driver _ found' => exact absurd (mem_of_lookup found') (apart (mem_of_lookup found))
    | energy grouped found' =>
      exact absurd (mem_energyShorts (mem_groups grouped).2 found') sole
  | driver ofClass found =>
    cases source' with
    | evolver _ found' => exact absurd (mem_of_lookup found) (apart (mem_of_lookup found'))
    | driver ofClass' found' =>
      rw [tellable.driver object member object' member' ofClass ofClass',
        lookup_inj drivers found found']
    | energy grouped found' =>
      exact absurd (mem_energyShorts (mem_groups grouped).2 found') sole
  | energy grouped found => exact absurd (mem_energyShorts (mem_groups grouped).2 found) sole

/-- Energies with one short name and one instance are one column. -/
theorem eq_of_energy (tellable : Tellable objects) (reports : Reports objects column)
    (others : Reports objects other) (known : shortName? column = some short)
    (again : shortName? other = some short) (energy : short ∈ energyShorts)
    (same : (ColumnName.ofText column).instanceName = (ColumnName.ofText other).instanceName) :
    column = other := by
  obtain ⟨object, member, quantity, rfl, named, source⟩ := reports.source tellable known
  obtain ⟨object', member', quantity', rfl, named', source'⟩ := others.source tellable again
  obtain ⟨group, grouped, found⟩ := source.of_energy energy
  obtain ⟨group', grouped', found'⟩ := source'.of_energy energy
  rw [named, named'] at same
  have one := tellable.energy object member object' member' (mem_groups grouped).1
    (mem_groups grouped').1 same
  rw [← one, grouped] at grouped'
  rw [← Option.some.inj grouped'] at found'
  rw [one, energyQuantity?_inj (mem_groups grouped).2 found found']

/-- A column with the short name of an energy has an instance. -/
theorem instanceName_ne (tellable : Tellable objects) (reports : Reports objects column)
    (known : shortName? column = some short) (energy : short ∈ energyShorts) :
    (ColumnName.ofText column).instanceName ≠ "" := by
  obtain ⟨object, member, quantity, rfl, named, source⟩ := reports.source tellable known
  obtain ⟨group, grouped, _⟩ := source.of_energy energy
  rw [named]
  exact tellable.named object member (mem_groups grouped).1

end Reports

/-- What the new name of a column of a run is: the old one, a short name that no other column has,
or the short name of an energy with the instance. -/
theorem renameColumn_cases (tellable : Tellable objects) (distinct : columns.Nodup)
    (report : ∀ column ∈ columns, Reports objects column) (member : column ∈ columns) :
    (shortName? column = none ∧ renameColumn (columns.map shortName?) column = column) ∨
      (∃ short, shortName? column = some short ∧
        renameColumn (columns.map shortName?) column = short ∧
          ∀ other ∈ columns, shortName? other = some short → other = column) ∨
        ∃ short ∈ energyShorts, shortName? column = some short ∧
          renameColumn (columns.map shortName?) column =
            short ++ "_" ++ (ColumnName.ofText column).instanceName := by
  unfold renameColumn
  cases known : shortName? column with
  | none => exact .inl ⟨rfl, rfl⟩
  | some short =>
    refine .inr ?_
    dsimp only
    by_cases shared : 1 < (columns.map shortName?).count (some short)
    · obtain ⟨x, first, y, second, knownX, knownY, differ⟩ := (one_lt_count_map distinct).mp shared
      have energy : short ∈ energyShorts := by
        by_contra sole
        exact differ ((report x first).eq_of_sole tellable (report y second) knownX knownY sole)
      have named := (report column member).instanceName_ne tellable known energy
      refine .inr ⟨short, energy, rfl, if_pos ?_⟩
      simpa [shared] using named
    · refine .inl ⟨short, rfl, if_neg ?_, fun other among again => ?_⟩
      · simp [shared]
      · by_contra differ
        exact shared ((one_lt_count_map distinct).mpr
          ⟨other, among, column, member, again, known, differ⟩)

/-- A text begins every text that goes on behind it. -/
theorem toList_starts (front back : String) : front.toList <+: (front ++ back).toList := by
  rw [String.toList_append]
  exact List.prefix_append _ _

/-- A short name with an instance is no short name. -/
theorem tagged_ne_short (energy : short ∈ energyShorts) {sole : String}
    (known : sole ∈ energyShorts ++ soleShorts) : short ++ "_" ++ instanceName ≠ sole := by
  intro same
  have start : (short ++ "_").toList <+: (sole ++ "_").toList := by
    rw [← same]
    exact (toList_starts _ instanceName).trans (toList_starts _ _)
  have longer := congrArg String.length same
  rw [← eq_of_start energy known start, String.length_append, String.length_append] at longer
  have one : "_".length = 1 := rfl
  omega

/-- A short name with an instance tells both. -/
theorem tagged_inj {sole instance' : String} (energy : short ∈ energyShorts)
    (energy' : sole ∈ energyShorts)
    (same : short ++ "_" ++ instanceName = sole ++ "_" ++ instance') :
    short = sole ∧ instanceName = instance' := by
  have first : (short ++ "_").toList <+: (short ++ "_" ++ instanceName).toList :=
    toList_starts _ _
  have second : (sole ++ "_").toList <+: (short ++ "_" ++ instanceName).toList := by
    rw [same]
    exact toList_starts _ _
  have equal : short = sole := by
    rcases List.prefix_or_prefix_of_prefix first second with start | start
    · exact eq_of_start energy (List.mem_append_left _ energy') start
    · exact (eq_of_start energy' (List.mem_append_left _ energy) start).symm
  rw [equal] at same
  exact ⟨equal, (String.append_right_inj _).mp same⟩

/-- A short name has no colon. -/
theorem noColon_of_short (known : short ∈ energyShorts ++ soleShorts) : ':' ∉ short.toList := by
  have all : ∀ short ∈ energyShorts ++ soleShorts, ':' ∉ short.toList := by decide +kernel
  exact all short known

namespace Reports

/-- The name of a column has a colon. -/
theorem colon_mem (reports : Reports objects column) : ':' ∈ column.toList := by
  obtain ⟨object, _, quantity, _, rfl⟩ := reports
  unfold columnName
  simp [String.toList_append]

/-- A short name with the instance of a column has no colon. -/
theorem noColon_tagged (tellable : Tellable objects) (reports : Reports objects column)
    (known : shortName? column = some short) :
    ':' ∉ (short ++ "_" ++ (ColumnName.ofText column).instanceName).toList := by
  obtain ⟨object, member, quantity, rfl, named, source⟩ := reports.source tellable known
  have clear := noColon_of_short source.mem_shorts
  rw [named]
  simp [String.toList_append, clear, (tellable.noColon object member).2]

end Reports

/-- Different columns of a run have different new names. -/
theorem renameColumn_inj (tellable : Tellable objects) (distinct : columns.Nodup)
    (report : ∀ column ∈ columns, Reports objects column) (member : column ∈ columns)
    (among : other ∈ columns) (same : renameColumn (columns.map shortName?) column =
      renameColumn (columns.map shortName?) other) : column = other := by
  have reports := report column member
  have others := report other among
  have shorts {column short : String} (member : column ∈ columns)
      (known : shortName? column = some short) : short ∈ energyShorts ++ soleShorts := by
    obtain ⟨_, _, _, _, _, source⟩ := (report column member).source tellable known
    exact source.mem_shorts
  rcases renameColumn_cases tellable distinct report member with
    ⟨-, kept⟩ | ⟨short, known, kept, only⟩ | ⟨short, energy, known, kept⟩
  · rcases renameColumn_cases tellable distinct report among with
      ⟨-, kept'⟩ | ⟨short', known', kept', -⟩ | ⟨short', energy', known', kept'⟩
    · rwa [kept, kept'] at same
    · rw [kept, kept'] at same
      exact absurd (same ▸ reports.colon_mem) (noColon_of_short (shorts among known'))
    · rw [kept, kept'] at same
      exact absurd (same ▸ reports.colon_mem) (others.noColon_tagged tellable known')
  · rcases renameColumn_cases tellable distinct report among with
      ⟨-, kept'⟩ | ⟨short', known', kept', -⟩ | ⟨short', energy', known', kept'⟩
    · rw [kept, kept'] at same
      exact absurd (same ▸ others.colon_mem) (noColon_of_short (shorts member known))
    · rw [kept, kept'] at same
      exact (only other among (same ▸ known')).symm
    · rw [kept, kept'] at same
      exact absurd same.symm (tagged_ne_short energy' (shorts member known))
  · rcases renameColumn_cases tellable distinct report among with
      ⟨-, kept'⟩ | ⟨short', known', kept', -⟩ | ⟨short', energy', known', kept'⟩
    · rw [kept, kept'] at same
      exact absurd (same ▸ others.colon_mem) (reports.noColon_tagged tellable known)
    · rw [kept, kept'] at same
      exact absurd same (tagged_ne_short energy (shorts among known'))
    · rw [kept, kept'] at same
      obtain ⟨rfl, named⟩ := tagged_inj energy energy' same
      exact reports.eq_of_energy tellable others known known' energy named

/-- The new names of the columns of a run differ. -/
theorem nodup_renameColumns (tellable : Tellable objects) (distinct : columns.Nodup)
    (report : ∀ column ∈ columns, Reports objects column) : (renameColumns columns).Nodup :=
  distinct.map_on fun _ member _ among => renameColumn_inj tellable distinct report member among

/-- An element is found among the images where it is found among the elements, if the images
differ. -/
theorem idxOf?_map {α β : Type} [DecidableEq α] [DecidableEq β] {xs : List α} {f : α → β}
    {x : α} (member : x ∈ xs) (inj : ∀ a ∈ xs, ∀ b ∈ xs, f a = f b → a = b) :
    (xs.map f).idxOf? (f x) = xs.idxOf? x := by
  induction xs with
  | nil => exact absurd member List.not_mem_nil
  | cons first rest ih =>
    rw [List.map_cons, List.idxOf?_cons, List.idxOf?_cons]
    by_cases same : first = x
    · rw [same, beq_self_eq_true, beq_self_eq_true]
      rfl
    · have differ : f first ≠ f x := fun equal =>
        same (inj first List.mem_cons_self x member equal)
      have later := ih ((List.mem_cons.mp member).resolve_left fun equal => same equal.symm)
        fun a one b two => inj a (List.mem_cons_of_mem _ one) b (List.mem_cons_of_mem _ two)
      rw [beq_eq_false_iff_ne.mpr same, beq_eq_false_iff_ne.mpr differ, later]

end Micromag.Table
