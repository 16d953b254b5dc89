import Micromag.Proofs.Files.Ancestors

/-!
# Names in a directory

A path with one more name leads to the entry with this name in the directory that the path leads to,
unless a link is followed. A path through which others lead is that of a directory. The names that
are listed for a directory are those of its entries, each once.
-/

namespace Micromag

namespace FileTree

variable {tree : FileTree} {place other : Place} {serial : Nat}

/-- What can be passed through after something was removed. -/
theorem guide?_remove (below : place ≠ []) :
    (tree.remove place).guide? other = if place <+: other then none else tree.guide? other := by
  unfold guide?
  rw [nodeAt?_remove below]
  by_cases inside : place <+: other
  · rw [if_pos inside, if_pos inside]
  · rw [if_neg inside, if_neg inside]

/-- The number of what stays stays that of its place. -/
theorem Sound.placeOf?_remove (sound : tree.Sound) (found : tree.placeOf? serial = some other)
    (outside : ¬place <+: other) : (tree.remove place).placeOf? serial = some other := by
  unfold placeOf? at found ⊢
  by_cases root : serial = 0
  · rwa [if_pos root] at found ⊢
  · rw [if_neg root] at found ⊢
    obtain ⟨entry, inside, rfl⟩ := Option.map_eq_some_iff.mp found
    have member := List.mem_of_find?_eq_some inside
    have number : entry.serial = serial := by simpa using List.find?_some inside
    have kept : entry ∈ (tree.remove place).entries := by
      refine List.mem_filter.mpr ⟨member, ?_⟩
      rw [Bool.not_eq_true', Bool.eq_false_iff]
      exact fun starts => outside (List.isPrefixOf_iff_prefix.mp starts)
    cases again : (tree.remove place).entries.find? fun entry => decide (entry.serial = serial) with
    | none => exact absurd (List.find?_eq_none.mp again entry kept) (by simpa using number)
    | some first =>
      have old := (List.mem_filter.mp (List.mem_of_find?_eq_some again)).1
      have same : first.serial = serial := by simpa using List.find?_some again
      rw [List.inj_on_of_nodup_map sound.serials old member (same.trans number.symm)]
      rfl

/-- The name of an entry of a directory. -/
def childName? (place other : Place) : Option String :=
  match other.getLast? with
  | some name => if other.dropLast = place then some name else none
  | none => none

/-- The entry of a directory with a name. -/
theorem childName?_eq_some {name : String} :
    childName? place other = some name ↔ other = place ++ [name] := by
  unfold childName?
  constructor
  · intro named
    split at named
    · rename_i last ends
      split at named
      · rename_i front
        obtain ⟨before, rfl⟩ := List.getLast?_eq_some_iff.mp ends
        rw [List.dropLast_concat] at front
        rw [front, Option.some.inj named]
      · cases named
    · cases named
  · rintro rfl
    rw [List.getLast?_concat]
    dsimp only
    rw [List.dropLast_concat, if_pos rfl]

/-- The names of the entries of a directory are found at their places. -/
theorem children_names :
    (tree.children place).map (·.1) =
      (tree.entries.map (·.place)).filterMap (childName? place) := by
  unfold children
  rw [List.map_filterMap, List.filterMap_map]
  congr 1
  funext entry
  unfold childName?
  rw [Function.comp_apply]
  cases entry.place.getLast? with
  | none => rfl
  | some name =>
    dsimp only
    split <;> rfl

/-- A name is listed when something stands under it. -/
theorem mem_children_names {name : String} :
    name ∈ (tree.children place).map (·.1) ↔ tree.nodeAt? (place ++ [name]) ≠ none := by
  rw [children_names, List.mem_filterMap]
  constructor
  · rintro ⟨other, member, named⟩ free
    obtain ⟨entry, inside, rfl⟩ := List.mem_map.mp member
    exact notMem_of_free free entry inside (childName?_eq_some.mp named)
  · intro stands
    rw [nodeAt?_of_ne (List.concat_ne_nil _ _)] at stands
    obtain ⟨node, found⟩ := Option.ne_none_iff_exists'.mp stands
    obtain ⟨entry, found, _⟩ := Option.map_eq_some_iff.mp found
    obtain ⟨member, same⟩ := mem_of_entryAt? found
    exact ⟨_, List.mem_map.mpr ⟨entry, member, same⟩, childName?_eq_some.mpr rfl⟩

/-- No name is listed twice. -/
theorem Sound.nodup_children_names (sound : tree.Sound) :
    ((tree.children place).map (·.1)).Nodup := by
  rw [children_names]
  refine List.Nodup.filterMap (fun first second name one other => ?_) sound.places
  rw [childName?_eq_some.mp one, childName?_eq_some.mp other]

/-- Names on the way to something can be spelled. -/
theorem Sound.plain_of_mem (sound : tree.Sound) {node : Node}
    (stands : tree.nodeAt? place = some node) : ∀ name ∈ place, Path.Plain name := by
  induction place using List.reverseRecOn generalizing node with
  | nil => exact fun _ member => absurd member List.not_mem_nil
  | append_singleton front last ih =>
    obtain ⟨above, plain⟩ := sound.parent stands
    exact List.forall_mem_append.mpr ⟨ih above, List.forall_mem_singleton.mpr plain⟩

end FileTree

namespace FileSystem

variable {tree : FileTree} {system : FileSystem} {last : Bool} {links : Nat} {place : Place}
  {path name : String} {names rest all : List String} {spot : Spot}

/-- One name leads into a directory, where no link is followed. -/
theorem walk_name (enters : Enters name)
    (noLink : last = true ∨ ∀ target, tree.nodeAt? (place ++ [name]) ≠ some (.link target)) :
    walk tree last links place [name] =
      .ok ⟨place ++ [name], tree.nodeAt? (place ++ [name])⟩ := by
  obtain ⟨resume, same⟩ := walk_eq_follow tree last links
  rw [same, follow_cons enters]
  cases stands : tree.nodeAt? (place ++ [name]) with
  | none => rfl
  | some node =>
    cases node with
    | directory =>
      dsimp only
      rw [follow, stands]
    | file content => rfl
    | link target =>
      rcases noLink with rfl | noLink
      · rfl
      · exact absurd stands (noLink target)

/-- A name that leads anywhere is not too long. -/
theorem enters_of_walk (notHere : name ≠ ".") (notUp : name ≠ "..")
    (leads : walk tree last links place (name :: rest) = .ok spot) : Enters name := by
  refine ⟨notHere, notUp, Nat.not_lt.mp fun long => ?_⟩
  obtain ⟨resume, same⟩ := walk_eq_follow tree last links
  rw [same, follow, if_neg notHere, if_neg notUp, if_pos long] at leads
  cases leads

/-- Where steps lead on, those before lead to a directory. -/
theorem Leads.front (leads : Leads tree last links place all spot) (sound : tree.Sound)
    (starts : tree.nodeAt? place = some .directory) (split : all = names ++ rest)
    (more : rest ≠ []) :
    ∃ goal, Leads tree false links place names ⟨goal, some .directory⟩ := by
  have here {links : Nat} {place : Place} (stands : tree.nodeAt? place = some .directory) :
      ∃ goal, Leads tree false links place [] ⟨goal, some .directory⟩ := by
    refine ⟨place, ?_⟩
    rw [← stands]
    exact .arrive
  induction leads generalizing names with
  | arrive => exact absurd (List.append_eq_nil_iff.mp split.symm).2 more
  | stay further ih =>
    cases names with
    | nil => exact here starts
    | cons first others =>
      obtain ⟨rfl, remain⟩ := List.cons.inj split
      obtain ⟨goal, leads⟩ := ih starts remain
      exact ⟨goal, .stay leads⟩
  | back further ih =>
    cases names with
    | nil => exact here starts
    | cons first others =>
      obtain ⟨rfl, remain⟩ := List.cons.inj split
      obtain ⟨goal, leads⟩ := ih (sound.dropLast starts) remain
      exact ⟨goal, .back leads⟩
  | reach =>
    cases names with
    | nil => exact here starts
    | cons first others =>
      have none := (List.cons.inj split).2
      exact absurd (List.append_eq_nil_iff.mp none.symm).2 more
  | enter enters stands further ih =>
    cases names with
    | nil => exact here starts
    | cons first others =>
      obtain ⟨rfl, remain⟩ := List.cons.inj split
      obtain ⟨goal, leads⟩ := ih stands remain
      exact ⟨goal, .enter enters stands leads⟩
  | mean =>
    cases names with
    | nil => exact here starts
    | cons first others =>
      have none := (List.cons.inj split).2
      exact absurd (List.append_eq_nil_iff.mp none.symm).2 more
  | @through _ place _ target _ _ enters stands passes further ih =>
    cases names with
    | nil => exact here starts
    | cons first others =>
      obtain ⟨rfl, rfl⟩ := List.cons.inj split
      have begins : tree.nodeAt? (if Path.isAbsolute target then [] else place) =
          some .directory := by
        split_ifs
        · rfl
        · exact starts
      obtain ⟨goal, leads⟩ := ih begins (List.append_assoc _ others rest).symm
      refine ⟨goal, .through enters stands ?_ leads⟩
      rw [Bool.and_false]
      exact Bool.false_ne_true

/-- A path with one more name leads to the entry with this name in the directory to which the path
leads, where no link is followed. -/
theorem locate_child {longer : String} (spells : Path.Spells path all)
    (further : Path.Spells longer (all ++ [name])) (notHere : name ≠ ".") (notUp : name ≠ "..")
    (leads : system.locate path false = .ok ⟨place, some .directory⟩)
    (noLink : last = true ∨
      ∀ target, system.tree.nodeAt? (place ++ [name]) ≠ some (.link target)) :
    system.locate longer last = .ok spot ↔ checkPath longer = .ok () ∧ Enters name ∧
      spot = ⟨place ++ [name], system.tree.nodeAt? (place ++ [name])⟩ := by
  obtain ⟨_, followed⟩ := (locate_spells spells).mp leads
  obtain ⟨left, prolonged⟩ := (walk_ok_iff.mp followed).append rfl
  rw [locate_spells further, prolonged last [name] (List.cons_ne_nil _ _)]
  refine and_congr_right fun _ => ⟨fun followed => ?_, fun ⟨enters, same⟩ => ?_⟩
  · have enters := enters_of_walk notHere notUp followed
    rw [walk_name enters noLink] at followed
    exact ⟨enters, (Except.ok.inj followed).symm⟩
  · rw [walk_name enters noLink, same]

/-- A path through which another leads is that of a directory. -/
theorem Sound.locate_front (sound : system.Sound) (solid : Path.Solid name)
    (checked : checkPath path = .ok ())
    (located : system.locate (Path.join path name) last = .ok spot) :
    system.isDirectory path = true := by
  obtain ⟨_, start, starts, leads⟩ := locate_ok_iff.mp located
  have same : system.startOf path = .ok start := by
    unfold startOf at starts ⊢
    rwa [Path.isAbsolute_join solid] at starts
  rw [steps_join solid] at leads
  obtain ⟨goal, front⟩ := leads.front sound.tree (sound.start starts) rfl (List.cons_ne_nil _ _)
  refine isDirectory_iff.mpr ⟨goal, locate_ok_iff.mpr ⟨checked, start, same, ?_⟩⟩
  have parts : steps path =
      Path.said path ++ if Path.endsInSlash path then ["."] else [] := rfl
  rw [parts]
  split
  · obtain ⟨left, prolonged⟩ := front.append rfl
    have stands : system.tree.nodeAt? goal = some .directory := front.node_eq.symm
    refine walk_ok_iff.mp ?_
    rw [prolonged false ["."] (List.cons_ne_nil _ _), walk_ok_iff, ← stands]
    exact .stay .arrive
  · rwa [List.append_nil]

/-- Nothing is in what is no directory. -/
theorem Sound.not_exists_child (sound : system.Sound) (solid : Path.Solid name)
    (checked : checkPath path = .ok ()) (missing : system.isDirectory path = false) :
    system.exists? (Path.join path name) = false := by
  rw [Bool.eq_false_iff]
  intro there
  obtain ⟨place, node, located⟩ := exists?_iff.mp there
  have stands := sound.locate_front solid checked located
  rw [missing] at stands
  cases stands

end FileSystem

end Micromag
