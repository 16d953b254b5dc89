import Mathlib.Data.List.Forall2
import Mathlib.Data.Option.Basic
import Micromag.Json.Record
import Micromag.Proofs.Keyed

/-!
# Documents that are stored

A store keeps the entries of an object in an order of its own and has no place for numbers that are
not finite. A document in which the keys of every object differ and every number is finite is stored
without loss, and it stands for a value when the value is read from it however it is stored. Lists,
maps and numbers stand for what they are made of; what other readers refuse does not stand in the
way of a later one.
-/

namespace Micromag.Json

variable {α β : Type} {document stored : Json}

/-- A document is stored: what is not finite is absent, and the entries of objects may stand in any
order. -/
inductive Stores : Json → Json → Prop where
  /-- The absent value. -/
  | null : Stores .null .null
  /-- A truth value. -/
  | bool (value : Bool) : Stores (.bool value) (.bool value)
  /-- A whole number. -/
  | whole (n : Int) : Stores (.whole n) (.whole n)
  /-- A finite number. -/
  | number {x : Float} (finite : x.isFinite = true) : Stores (.number x) (.number x)
  /-- Any other number is absent. -/
  | absent {x : Float} (infinite : x.isFinite = false) : Stores .null (.number x)
  /-- Text. -/
  | string (text : String) : Stores (.string text) (.string text)
  /-- A list, item by item. -/
  | array {kept items : List Json} (each : List.Forall₂ Stores kept items) :
      Stores (.array kept) (.array items)
  /-- An object, entry by entry and then in any order. -/
  | object {kept ordered entries : List (String × Json)} (order : kept.Perm ordered)
      (keys : ordered.map (·.1) = entries.map (·.1))
      (each : List.Forall₂ Stores (ordered.map (·.2)) (entries.map (·.2))) :
      Stores (.object kept) (.object entries)

/-- A document that can be stored without loss. -/
inductive Sound : Json → Prop where
  /-- The absent value. -/
  | null : Sound .null
  /-- A truth value. -/
  | bool (value : Bool) : Sound (.bool value)
  /-- A whole number. -/
  | whole (n : Int) : Sound (.whole n)
  /-- A finite number. -/
  | number {x : Float} (finite : x.isFinite = true) : Sound (.number x)
  /-- Text. -/
  | string (text : String) : Sound (.string text)
  /-- A list of such documents. -/
  | array {items : List Json} (each : ∀ item ∈ items, Sound item) : Sound (.array items)
  /-- Such documents under different keys. -/
  | object {entries : List (String × Json)} (apart : (entries.map (·.1)).Nodup)
      (each : ∀ entry ∈ entries, Sound entry.2) : Sound (.object entries)

/-- Entries that are stored under the same keys. -/
def StoresEntry (entry original : String × Json) : Prop :=
  entry.1 = original.1 ∧ Stores entry.2 original.2

/-- An object is stored when its entries are and stand in any order. -/
theorem stores_object_iff {kept entries : List (String × Json)} :
    Stores (.object kept) (.object entries) ↔
      ∃ ordered, kept.Perm ordered ∧ List.Forall₂ StoresEntry ordered entries := by
  constructor
  · rintro ⟨⟩
    rename_i ordered order keys each
    have same : List.Forall₂ (· = ·) (ordered.map (·.1)) (entries.map (·.1)) :=
      List.forall₂_eq_eq_eq ▸ keys
    exact ⟨ordered, order, List.Forall₂.mp (fun _ _ => .intro)
      (List.forall₂_map_left_iff.mp (List.forall₂_map_right_iff.mp same))
      (List.forall₂_map_left_iff.mp (List.forall₂_map_right_iff.mp each))⟩
  · rintro ⟨ordered, order, each⟩
    have same : List.Forall₂ (· = ·) (ordered.map (·.1)) (entries.map (·.1)) :=
      List.forall₂_map_left_iff.mpr (List.forall₂_map_right_iff.mpr
        (each.imp fun _ _ both => both.1))
    exact .object order (List.forall₂_eq_eq_eq ▸ same) (List.forall₂_map_left_iff.mpr
      (List.forall₂_map_right_iff.mpr (each.imp fun _ _ both => both.2)))

/-- A document is stored as it is. -/
theorem Sound.stores_self (sound : Sound document) : Stores document document := by
  induction sound with
  | null => exact .null
  | bool value => exact .bool value
  | whole n => exact .whole n
  | number finite => exact .number finite
  | string text => exact .string text
  | array _ ih => exact .array (List.forall₂_same.mpr ih)
  | object _ _ ih =>
    exact stores_object_iff.mpr ⟨_, .refl _, List.forall₂_same.mpr fun entry member =>
      ⟨rfl, ih entry member⟩⟩

/-- The items of a list are sorted one by one. -/
theorem sortedItems_eq_map (items : List Json) : sortedItems items = items.map sorted := by
  induction items with
  | nil => rfl
  | cons item rest ih => rw [sortedItems, ih, List.map_cons]

/-- The entries of an object are sorted one by one. -/
theorem sortedEntries_eq_map (entries : List (String × Json)) :
    sortedEntries entries = entries.map fun entry => (entry.1, sorted entry.2) := by
  induction entries with
  | nil => rfl
  | cons entry rest ih => rw [sortedEntries, ih, List.map_cons]

/-- A document is stored with the entries of objects in the order of their keys. -/
theorem Sound.stores_sorted (sound : Sound document) : Stores document.sorted document := by
  induction sound with
  | null => exact .null
  | bool value => exact .bool value
  | whole n => exact .whole n
  | number finite => exact .number finite
  | string text => exact .string text
  | array _ ih =>
    rw [sorted, sortedItems_eq_map]
    exact .array (List.forall₂_map_left_iff.mpr (List.forall₂_same.mpr ih))
  | @object entries apart _ ih =>
    have keys : ((sortedEntries entries).map (·.1)).Nodup := by
      rw [sortedEntries_eq_map, List.map_map]
      exact apart
    rw [sorted]
    refine stores_object_iff.mpr ⟨_, Keyed.entries_ofList_perm keys, ?_⟩
    rw [sortedEntries_eq_map]
    exact List.forall₂_map_left_iff.mpr (List.forall₂_same.mpr fun entry member =>
      ⟨rfl, ih entry member⟩)

/-- A document stands for a value: nothing is lost when it is stored, and the value is read however
it is stored. -/
structure StandsFor (document : Json) (read? : Json → Option α) (value : α) : Prop where
  /-- Nothing is lost. -/
  sound : Sound document
  /-- The value is read. -/
  read : ∀ stored, Stores stored document → read? stored = some value

/-- Nothing is lost of a field that stands for a value. -/
theorem StandsFor.sound_some {read? : Json → Option α} {value : α}
    (stands : document.StandsFor read? value) : ∀ written ∈ some document, Sound written := by
  rintro _ ⟨⟩
  exact stands.sound

/-- Nothing is lost of a field that stands for a value if it is there. -/
theorem sound_map {write : α → Json} {read? : Json → Option α} {value : Option α}
    (stands : ∀ x ∈ value, (write x).StandsFor read? x) :
    ∀ written ∈ value.map write, Sound written := by
  intro written member
  obtain ⟨x, found, rfl⟩ := Option.map_eq_some_iff.mp member
  exact (stands x found).sound

/-- A reader refuses a document however it is stored. -/
def Refuses (read? : Json → Option α) (document : Json) : Prop :=
  ∀ stored, Stores stored document → read? stored = none

/-- What follows for the members of a list follows item by item. -/
theorem forall₂_imp_of_mem {R S : α → β → Prop} {items : List α} {values : List β}
    (imp : ∀ item, ∀ value ∈ values, R item value → S item value)
    (all : List.Forall₂ R items values) : List.Forall₂ S items values := by
  obtain ⟨length, each⟩ := List.forall₂_iff_zip.mp all
  exact List.forall₂_iff_zip.mpr ⟨length, fun inside =>
    imp _ _ (List.of_mem_zip inside).2 (each inside)⟩

/-- Every member of a list has its item. -/
theorem exists_mem_of_forall₂ {R : α → β → Prop} {items : List α} {values : List β}
    (all : List.Forall₂ R items values) {value : β} (member : value ∈ values) :
    ∃ item ∈ items, R item value := by
  induction all with
  | nil => exact absurd member List.not_mem_nil
  | cons first _ ih =>
    rcases List.mem_cons.mp member with rfl | inside
    · exact ⟨_, List.mem_cons_self, first⟩
    · obtain ⟨item, there, related⟩ := ih inside
      exact ⟨item, List.mem_cons_of_mem _ there, related⟩

/-- A reader that fails on an item fails on the list. -/
theorem mapM_eq_none_of_mem {read? : α → Option β} {items : List α} {item : α}
    (member : item ∈ items) (fails : read? item = none) : items.mapM read? = none := by
  induction items with
  | nil => exact absurd member List.not_mem_nil
  | cons first rest ih =>
    rw [List.mapM_cons]
    rcases List.mem_cons.mp member with rfl | inside
    · rw [fails]
      rfl
    · rw [ih inside]
      cases read? first with
      | none => rfl
      | some value => rfl

/-- A reader that succeeds on each item succeeds on the list of them. -/
theorem mapM_of_forall₂ {read? : α → Option β} {items : List α} {values : List β}
    (each : List.Forall₂ (fun item value => read? item = some value) items values) :
    items.mapM read? = some values := by
  induction each with
  | nil => rfl
  | cons first _ ih =>
    rw [List.mapM_cons, first, ih]
    rfl

/-- What is read of a document can be changed. -/
theorem StandsFor.map {read? : Json → Option α} {value : α}
    (stands : document.StandsFor read? value) (f : α → β) :
    document.StandsFor (fun json => (read? json).map f) (f value) :=
  ⟨stands.sound, fun stored stores => congrArg (Option.map f) (stands.read stored stores)⟩

/-- The first of two readers is enough. -/
theorem StandsFor.orElse_left {first : Json → Option α} {value : α}
    (stands : document.StandsFor first value) (second : Json → Option α) :
    document.StandsFor (fun json => first json <|> second json) value := by
  refine ⟨stands.sound, fun stored stores => ?_⟩
  show (first stored <|> second stored) = some value
  rw [stands.read stored stores]
  rfl

/-- The second of two readers is enough if the first one refuses. -/
theorem StandsFor.orElse_right {first second : Json → Option α} {value : α}
    (stands : document.StandsFor second value) (refuses : Refuses first document) :
    document.StandsFor (fun json => first json <|> second json) value := by
  refine ⟨stands.sound, fun stored stores => ?_⟩
  show (first stored <|> second stored) = some value
  rw [refuses stored stores, stands.read stored stores]
  rfl

/-- What is refused cannot be changed. -/
theorem Refuses.map {read? : Json → Option α} (refuses : Refuses read? document) (f : α → β) :
    Refuses (fun json => (read? json).map f) document :=
  fun stored stores => congrArg (Option.map f) (refuses stored stores)

/-- What is stored of an object is an object. -/
theorem Stores.exists_object {entries : List (String × Json)}
    (stores : Stores stored (.object entries)) : ∃ kept, stored = .object kept := by
  cases stores with
  | @object kept => exact ⟨kept, rfl⟩

/-- What is stored of a list is a list. -/
theorem Stores.exists_array {items : List Json} (stores : Stores stored (.array items)) :
    ∃ kept, stored = .array kept := by
  cases stores with
  | @array kept => exact ⟨kept, rfl⟩

/-- A reader that reads no object refuses one. -/
theorem refuses_object {read? : Json → Option α} (none : ∀ kept, read? (.object kept) = none)
    (entries : List (String × Json)) : Refuses read? (.object entries) := by
  intro stored stores
  obtain ⟨kept, rfl⟩ := stores.exists_object
  exact none kept

/-- A reader that reads no list refuses one. -/
theorem refuses_array {read? : Json → Option α} (none : ∀ kept, read? (.array kept) = none)
    (items : List Json) : Refuses read? (.array items) := by
  intro stored stores
  obtain ⟨kept, rfl⟩ := stores.exists_array
  exact none kept

/-- A reader that does not read a text refuses it. -/
theorem refuses_string {read? : Json → Option α} {text : String}
    (none : read? (.string text) = none) : Refuses read? (.string text) := by
  intro stored stores
  cases stores with
  | string _ => exact none

/-- A finite number stands for itself. -/
theorem number_standsFor {x : Float} (finite : x.isFinite = true) :
    (number x).StandsFor float? x := by
  refine ⟨.number finite, fun stored stores => ?_⟩
  cases stores with
  | number _ => rfl
  | absent infinite => exact absurd finite (by simp [infinite])

/-- A count stands for itself. -/
theorem count_standsFor (n : Nat) : (ofCount n).StandsFor count? n := by
  refine ⟨.whole n, fun stored stores => ?_⟩
  cases stores with
  | whole _ =>
    show (if 0 ≤ (n : Int) then some (n : Int).toNat else none) = some n
    rw [if_pos (Int.natCast_nonneg n), Int.toNat_natCast]

/-- Text stands for itself. -/
theorem string_standsFor (text : String) : (string text).StandsFor string? text := by
  refine ⟨.string text, fun stored stores => ?_⟩
  cases stores with
  | string _ => rfl

/-- A word stands for what it names. -/
theorem word_standsFor {ofName? : String → Option α} {name : String} {value : α}
    (named : ofName? name = some value) : (string name).StandsFor (word? ofName?) value := by
  refine ⟨.string name, fun stored stores => ?_⟩
  cases stores with
  | string _ => exact named

/-- A list stands for the values for which its items stand. -/
theorem list_standsFor {write : α → Json} {read? : Json → Option α} {items : List α}
    (each : ∀ item ∈ items, (write item).StandsFor read? item) :
    (ofList write items).StandsFor (list? read?) items := by
  constructor
  · refine .array fun item member => ?_
    obtain ⟨value, inside, rfl⟩ := List.mem_map.mp member
    exact (each value inside).sound
  · intro stored stores
    cases stores with
    | @array kept _ parts =>
      refine mapM_of_forall₂ (forall₂_imp_of_mem ?_ (List.forall₂_map_right_iff.mp parts))
      exact fun part value inside => (each value inside).read part

/-- A triple stands for the values for which its items stand. -/
theorem triple_standsFor {write : α → Json} {read? : Json → Option α} {triple : Triple α}
    (each : ∀ item ∈ triple.toList, (write item).StandsFor read? item) :
    (ofTriple write triple).StandsFor (triple? read?) triple := by
  have list : (ofList write triple.toList).StandsFor (list? read?) triple.toList :=
    list_standsFor each
  refine ⟨list.sound, fun stored stores => ?_⟩
  unfold triple?
  rw [list.read stored stores]
  rfl

/-- A map stands for the values for which its entries stand. -/
theorem keyed_standsFor {write : α → Json} {read? : Json → Option α} {map : Keyed α}
    (each : ∀ entry ∈ map.entries, (write entry.2).StandsFor read? entry.2) :
    (ofKeyed write map).StandsFor (keyed? read?) map := by
  constructor
  · refine .object ?_ fun entry member => ?_
    · rw [List.map_map]
      exact map.nodup_keys
    · obtain ⟨setting, inside, rfl⟩ := List.mem_map.mp member
      exact (each setting inside).sound
  · intro stored stores
    obtain ⟨kept, rfl⟩ := stores.exists_object
    obtain ⟨ordered, order, parts⟩ := stores_object_iff.mp stores
    -- each entry is read, and all of them are the entries of the map in another order
    have reads : List.Forall₂ (fun entry setting => (read? entry.2).map (entry.1, ·) =
        some setting) ordered map.entries := by
      refine forall₂_imp_of_mem ?_ (List.forall₂_map_right_iff.mp parts)
      rintro entry setting member ⟨same, part⟩
      rw [(each setting member).read _ part, same]
      rfl
    obtain ⟨settings, found, same⟩ := List.perm_comp_forall₂ order reads
    exact Option.bind_eq_some_iff.mpr
      ⟨settings, mapM_of_forall₂ found, congrArg some (Keyed.ofList_of_perm same)⟩

/-- A map is refused when one of its values is. -/
theorem keyed_refuses {entries : List (String × Json)} {entry : String × Json}
    {read? : Json → Option α} (member : entry ∈ entries) (refuses : Refuses read? entry.2) :
    Refuses (keyed? read?) (.object entries) := by
  intro stored stores
  obtain ⟨kept, rfl⟩ := stores.exists_object
  obtain ⟨ordered, order, parts⟩ := stores_object_iff.mp stores
  obtain ⟨part, inside, -, refused⟩ := exists_mem_of_forall₂ parts member
  have fails : (read? part.2).map (part.1, ·) = none :=
    congrArg (Option.map _) (refuses _ refused)
  unfold keyed?
  dsimp only
  rw [mapM_eq_none_of_mem (order.mem_iff.mpr inside) fails]
  rfl

end Micromag.Json
