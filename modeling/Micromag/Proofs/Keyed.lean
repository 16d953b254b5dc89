import Mathlib.Data.List.Perm.Basic
import Micromag.Keyed

/-!
# Looking up keys

A key that is set has its new value, and no other key is affected. After a list of settings a key
has the value of the last setting of it. Settings of different keys are the entries of their map, so
that a map can be put together again from its entries in any order.
-/

namespace Micromag.Keyed

variable {α : Type} {map : Keyed α} {key other : String} {value : α}

/-- The first entry of a key counts. -/
theorem lookup_cons_eq {entries : List (String × α)} :
    ((key, value) :: entries).lookup other =
      if other = key then some value else entries.lookup other := by
  rw [List.lookup_cons]
  by_cases same : other = key
  · rw [if_pos same, beq_iff_eq.mpr same]
  · rw [if_neg same, beq_eq_false_iff_ne.mpr same]

/-- A value that is found is that of an entry. -/
theorem mem_of_lookup {entries : List (String × α)} (found : entries.lookup key = some value) :
    (key, value) ∈ entries := by
  obtain ⟨before, after, split, _⟩ := List.lookup_eq_some_iff.mp found
  rw [split]
  exact List.mem_append_right before List.mem_cons_self

/-- No value is found exactly when no entry has the key. -/
theorem lookup_eq_none_iff_notMem {entries : List (String × α)} :
    entries.lookup key = none ↔ key ∉ entries.map (·.1) := by
  rw [List.lookup_eq_none_iff]
  constructor
  · intro absent member
    obtain ⟨entry, inside, same⟩ := List.mem_map.mp member
    exact absurd same.symm (bne_iff_ne.mp (absent entry inside))
  · exact fun absent entry inside =>
      bne_iff_ne.mpr fun same => absent (same ▸ List.mem_map_of_mem inside)

/-- A key with a value is among the keys. -/
theorem mem_keys_of_get? (found : map.get? key = some value) : key ∈ map.keys :=
  List.mem_map_of_mem (mem_of_lookup found)

/-- Setting a key changes the value at this key only. -/
theorem get?_insert :
    (map.insert key value).get? other = if other = key then some value else map.get? other := by
  show (insertEntry key value map.entries).lookup other =
    if other = key then some value else map.entries.lookup other
  induction map.entries with
  | nil => exact lookup_cons_eq
  | cons entry rest ih =>
    obtain ⟨k, v⟩ := entry
    unfold insertEntry
    by_cases before : key < k
    · rw [if_pos before]
      exact lookup_cons_eq
    · rw [if_neg before]
      by_cases here : key = k
      · subst here
        rw [if_pos rfl, lookup_cons_eq, lookup_cons_eq]
        by_cases same : other = key
        · rw [if_pos same, if_pos same]
        · rw [if_neg same, if_neg same, if_neg same]
      · rw [if_neg here, lookup_cons_eq, ih, lookup_cons_eq]
        by_cases first : other = k
        · rw [if_pos first, if_neg (first ▸ Ne.symm here), if_pos first]
        · rw [if_neg first, if_neg first]

/-- After a list of settings the last setting of a key counts. -/
theorem get?_foldl_insert (settings : List (String × α)) :
    (settings.foldl (fun map setting => map.insert setting.1 setting.2) map).get? key =
      (settings.reverse.lookup key).or (map.get? key) := by
  induction settings generalizing map with
  | nil => rfl
  | cons setting others ih =>
    obtain ⟨k, v⟩ := setting
    rw [List.foldl_cons, ih, get?_insert, List.reverse_cons, List.lookup_append, Option.or_assoc,
      lookup_cons_eq]
    by_cases same : key = k
    · rw [if_pos same, if_pos same]
      rfl
    · rw [if_neg same, if_neg same]
      rfl

/-- The keys of a map differ. -/
theorem nodup_keys (map : Keyed α) : (map.entries.map (·.1)).Nodup := by
  refine List.pairwise_map.mpr (map.ascending.imp fun below same => ?_)
  rw [same] at below
  exact String.lt_irrefl _ below

/-- Where the keys differ, the entries of a key are the value that is found, if there is one. -/
theorem filter_eq_lookup {entries : List (String × α)} (apart : (entries.map (·.1)).Nodup) :
    entries.filter (·.1 = key) = ((entries.lookup key).map (Prod.mk key)).toList := by
  induction entries with
  | nil => rfl
  | cons entry rest ih =>
    obtain ⟨k, v⟩ := entry
    rw [List.map_cons, List.nodup_cons] at apart
    rw [List.filter_cons, lookup_cons_eq]
    by_cases same : key = k
    · subst same
      have nowhere : rest.lookup key = none := lookup_eq_none_iff_notMem.mpr apart.1
      rw [if_pos rfl, if_pos (decide_eq_true rfl), ih apart.2, nowhere]
      rfl
    · rw [if_neg same, if_neg (by simpa using Ne.symm same), ih apart.2]

/-- An entry of a map is the value under its key. -/
theorem get?_of_mem {entry : String × α} (member : entry ∈ map.entries) :
    map.get? entry.1 = some entry.2 := by
  have own : entry ∈ map.entries.filter (·.1 = entry.1) :=
    List.mem_filter.mpr ⟨member, decide_eq_true rfl⟩
  rw [filter_eq_lookup map.nodup_keys, Option.mem_toList, Option.map_eq_some_iff] at own
  obtain ⟨value, found, same⟩ := own
  rw [← same]
  exact found

/-- A new key comes between others, which stay as they are. -/
theorem insertEntry_eq {entries : List (String × α)} (new : key ∉ entries.map (·.1)) :
    ∃ before after, entries = before ++ after ∧
      insertEntry key value entries = before ++ (key, value) :: after := by
  induction entries with
  | nil => exact ⟨[], [], rfl, rfl⟩
  | cons entry rest ih =>
    obtain ⟨k, v⟩ := entry
    rw [List.map_cons, List.mem_cons, not_or] at new
    unfold insertEntry
    by_cases first : key < k
    · rw [if_pos first]
      exact ⟨[], _, rfl, rfl⟩
    · obtain ⟨before, after, split, inserted⟩ := ih new.2
      rw [if_neg first, if_neg new.1, inserted, split]
      exact ⟨(k, v) :: before, after, rfl, rfl⟩

/-- A new key comes to the others. -/
theorem insertEntry_perm {entries : List (String × α)} (new : key ∉ entries.map (·.1)) :
    (insertEntry key value entries).Perm ((key, value) :: entries) := by
  obtain ⟨before, after, rfl, inserted⟩ := insertEntry_eq new
  rw [inserted]
  exact List.perm_middle

/-- Settings of different new keys come to the entries of a map. -/
theorem entries_foldl_insert_perm {settings : List (String × α)}
    (apart : ((map.entries ++ settings).map (·.1)).Nodup) :
    (settings.foldl (fun map setting => map.insert setting.1 setting.2) map).entries.Perm
      (map.entries ++ settings) := by
  induction settings generalizing map with
  | nil =>
    rw [List.append_nil]
    exact .refl _
  | cons setting others ih =>
    have moved : (map.entries ++ setting :: others).Perm (setting :: map.entries ++ others) :=
      List.perm_middle
    have new := (moved.map (·.1)).nodup_iff.mp apart
    rw [List.cons_append, List.map_cons, List.nodup_cons, List.map_append, List.mem_append,
      not_or] at new
    have inserted : (map.insert setting.1 setting.2).entries.Perm (setting :: map.entries) :=
      insertEntry_perm new.1.1
    have whole := (inserted.append_right others).trans moved.symm
    exact (ih ((whole.map (·.1)).nodup_iff.mpr apart)).trans whole

/-- Settings of different keys are the entries of their map. -/
theorem entries_ofList_perm {settings : List (String × α)}
    (apart : (settings.map (·.1)).Nodup) : (ofList settings).entries.Perm settings :=
  entries_foldl_insert_perm apart

/-- The entries of a map are settings of it. -/
theorem mem_of_mem_ofList {settings : List (String × α)} {entry : String × α}
    (member : entry ∈ (ofList settings).entries) : entry ∈ settings := by
  have found : (ofList settings).get? entry.1 = some entry.2 := get?_of_mem member
  have last : (settings.reverse.lookup entry.1).or (empty.get? entry.1) = some entry.2 :=
    (get?_foldl_insert settings).symm.trans found
  rcases Option.or_eq_some_iff.mp last with there | ⟨-, nothing⟩
  · exact List.mem_reverse.mp (mem_of_lookup there)
  · cases nothing

/-- A map is the map of its entries in any order. -/
theorem ofList_of_perm {settings : List (String × α)} (same : settings.Perm map.entries) :
    ofList settings = map := by
  have apart := (same.map (·.1)).nodup_iff.mpr map.nodup_keys
  refine Keyed.ext (((entries_ofList_perm apart).trans same).eq_of_pairwise ?_
    (ofList settings).ascending map.ascending)
  exact fun a b _ _ below above => absurd (String.lt_trans below above) (String.lt_irrefl _)

end Micromag.Keyed
