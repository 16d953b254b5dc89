import Mathlib.Data.List.Pairwise
import Micromag.Proofs.Json.Stored

/-!
# Records that are stored

A record is written with some of its declared fields, each under its first name. However it is
stored, exactly the fields that were written are found in it. A record that says its kind is told
from the entry that says it, wherever that entry stands.
-/

namespace Micromag.Json

variable {α : Type} {stored : Json} {fields : List (String × Option Json)}

/-- The entries of the fields that are there. -/
def present (fields : List (String × Option Json)) : List (String × Json) :=
  fields.filterMap fun field => field.2.map (field.1, ·)

/-- The first field comes before the others if it is there. -/
theorem present_cons (name : String) (value : Option Json) :
    present ((name, value) :: fields) = (value.map (name, ·)).toList ++ present fields := by
  cases value with
  | none => rfl
  | some document => rfl

/-- The keys of the fields that are there are names of fields. -/
theorem keys_present_sublist (fields : List (String × Option Json)) :
    ((present fields).map (·.1)).Sublist (fields.map (·.1)) := by
  induction fields with
  | nil => exact .slnil
  | cons field rest ih =>
    obtain ⟨name, value⟩ := field
    cases value with
    | none => exact ih.cons name
    | some document => exact ih.cons_cons name

/-- Fields without loss make an object without loss. -/
theorem sound_present (apart : (fields.map (·.1)).Nodup)
    (each : ∀ field ∈ fields, ∀ document ∈ field.2, Sound document) :
    Sound (.object (present fields)) := by
  refine .object ((keys_present_sublist fields).nodup apart) fun entry member => ?_
  obtain ⟨field, inside, there⟩ := List.mem_filterMap.mp member
  obtain ⟨document, found, rfl⟩ := Option.map_eq_some_iff.mp there
  exact each field inside document found

/-- If of all names only that of one field is chosen, no entry is chosen but that of the field. -/
theorem filter_present {chosen : String → Bool} {name : String} {value : Option Json}
    (apart : (fields.map (·.1)).Nodup) (member : (name, value) ∈ fields)
    (only : ∀ other ∈ fields.map (·.1), chosen other = true ↔ other = name) :
    (present fields).filter (fun entry => chosen entry.1) = (value.map (name, ·)).toList := by
  induction fields with
  | nil => exact absurd member List.not_mem_nil
  | cons field rest ih =>
    obtain ⟨first, found⟩ := field
    obtain ⟨new, others⟩ := List.nodup_cons.mp apart
    obtain ⟨head, further⟩ := List.forall_mem_cons.mp only
    rw [present_cons, List.filter_append]
    rcases List.mem_cons.mp member with same | inside
    · obtain ⟨rfl, rfl⟩ := Prod.mk.inj same
      have none : (present rest).filter (fun entry => chosen entry.1) = [] := by
        refine List.filter_eq_nil_iff.mpr fun entry there picked => ?_
        have key := (keys_present_sublist rest).subset (List.mem_map_of_mem there)
        exact new ((further _ key).mp picked ▸ key)
      rw [none, List.append_nil]
      cases value with
      | none => rfl
      | some document => exact List.filter_cons_of_pos (head.mpr rfl)
    · have other : ¬chosen first = true := fun picked =>
        new (head.mp picked ▸ List.mem_map_of_mem inside)
      rw [ih others inside further]
      cases found with
      | none => rfl
      | some document =>
        have passed : [(first, document)].filter (fun entry => chosen entry.1) = [] :=
          List.filter_cons_of_neg other
        exact congrArg (· ++ _) passed

/-- Chosen entries of an object are stored like the object. -/
theorem filter_stores {kept entries : List (String × Json)} (chosen : String → Bool)
    (stores : Stores (.object kept) (.object entries)) :
    Stores (.object (kept.filter fun entry => chosen entry.1))
      (.object (entries.filter fun entry => chosen entry.1)) := by
  obtain ⟨ordered, order, each⟩ := stores_object_iff.mp stores
  refine stores_object_iff.mpr ⟨_, order.filter _, ?_⟩
  refine List.rel_filter ?_ each
  rintro entry original ⟨same, _⟩
  show chosen entry.1 = true ↔ chosen original.1 = true
  rw [same]

/-- Declared fields have names, all of them different, and the first ones are these. -/
structure Declares (declared : List FieldName) (names : List String) : Prop where
  /-- The first names are these. -/
  mains : declared.map FieldName.main = names
  /-- Every field has a name. -/
  named : ∀ field ∈ declared, field.names ≠ []
  /-- No name is that of two fields. -/
  apart : declared.Pairwise fun one two => ∀ name ∈ one.names, name ∉ two.names

/-- What is stored of an object with at most one entry. -/
theorem stores_toList {kept : List (String × Json)} {name : String} {value : Option Json}
    (stores : Stores (.object kept) (.object (value.map (name, ·)).toList)) :
    ∃ found, kept = (found.map (name, ·)).toList ∧ Option.Rel Stores found value := by
  obtain ⟨ordered, order, each⟩ := stores_object_iff.mp stores
  cases value with
  | none =>
    cases each
    exact ⟨none, order.eq_nil, .none⟩
  | some document =>
    obtain ⟨entry, _, ⟨same, part⟩, rest, rfl⟩ := List.forall₂_cons_right_iff.mp each
    cases rest
    refine ⟨some entry.2, order.eq_singleton.trans ?_, .some part⟩
    exact congrArg (fun key => [(key, entry.2)]) same

variable {declared : List FieldName}

/-- A field is written under its first name. -/
theorem main_mem {field : FieldName} (named : field.names ≠ []) : field.main ∈ field.names := by
  obtain ⟨name, others, same⟩ := List.exists_cons_of_ne_nil named
  rw [FieldName.main, same]
  exact List.mem_cons_self

/-- The first names of declared fields differ. -/
theorem Declares.nodup {names : List String} (declares : Declares declared names) :
    names.Nodup := by
  obtain ⟨rfl, named, apart⟩ := declares
  refine List.pairwise_map.mpr (apart.imp_of_mem fun inside other disjoint same => ?_)
  exact disjoint _ (main_mem (named _ inside)) (same ▸ main_mem (named _ other))

/-- Of the first names only its own is a name of a field. -/
theorem Declares.contains_iff {names : List String} (declares : Declares declared names)
    {field : FieldName} (inside : field ∈ declared) {other : String} (member : other ∈ names) :
    field.names.contains other = true ↔ other = field.main := by
  obtain ⟨rfl, named, apart⟩ := declares
  obtain ⟨another, declaredToo, rfl⟩ := List.mem_map.mp member
  have first := main_mem (named another declaredToo)
  rw [List.contains_iff_mem]
  constructor
  · intro shared
    by_contra different
    have : Std.Symm fun one two : FieldName => ∀ name ∈ one.names, name ∉ two.names :=
      ⟨fun _ _ disjoint name right left => disjoint name left right⟩
    exact apart.forall declaredToo inside (fun same => different (same ▸ rfl)) _ first shared
  · intro same
    rw [same]
    exact main_mem (named field inside)

/-- A declared field is found in a stored record if it was written, and only then. -/
theorem find?_of_stores {kept : List (String × Json)}
    (declares : Declares declared (fields.map (·.1)))
    (stores : Stores (.object kept) (.object (present fields))) {field : FieldName}
    (inside : field ∈ declared) {value : Option Json} (member : (field.main, value) ∈ fields) :
    ∃ found, field.find? kept = some found ∧ Option.Rel Stores found value := by
  have only := filter_present declares.nodup member fun _ => declares.contains_iff inside
  obtain ⟨found, same, part⟩ := stores_toList (only ▸ filter_stores field.names.contains stores)
  refine ⟨found, ?_, part⟩
  unfold FieldName.find?
  rw [same]
  cases found with
  | none => rfl
  | some document => rfl

/-- If every declared field can be looked for, the record has what is found. -/
theorem named?_of_finds {entries : List (String × Json)}
    (apart : (declared.map FieldName.main).Nodup)
    (each : ∀ field ∈ declared, ∃ found, field.find? entries = some found) :
    ∃ record, named? entries declared = some record ∧
      (∀ field ∈ declared, field.find? entries = some (record.lookup field.main)) ∧
        ∀ name ∉ declared.map FieldName.main, record.lookup name = none := by
  induction declared with
  | nil => exact ⟨[], rfl, fun field member => (nomatch member), fun _ _ => rfl⟩
  | cons field rest ih =>
    obtain ⟨new, others⟩ := List.nodup_cons.mp apart
    obtain ⟨⟨found, head⟩, further⟩ := List.forall_mem_cons.mp each
    obtain ⟨record, tail, finds, nothing⟩ := ih others further
    have whole : named? entries (field :: rest) =
        some ((found.map (field.main, ·)).toList ++ record) := by
      rw [named?, head, tail]
      cases found with
      | none => rfl
      | some document => rfl
    have front (name : String) : ((found.map (field.main, ·)).toList ++ record).lookup name =
        if name = field.main then found.or (record.lookup name) else record.lookup name := by
      cases found with
      | none =>
        rw [Option.none_or, ite_self]
        rfl
      | some document => exact Keyed.lookup_cons_eq
    refine ⟨_, whole, List.forall_mem_cons.mpr ⟨?_, fun other inside => ?_⟩, fun name absent => ?_⟩
    · rw [front, if_pos rfl, nothing _ new, Option.or_none, head]
    · have different : other.main ≠ field.main := fun same =>
        new (same ▸ List.mem_map_of_mem inside)
      rw [front, if_neg different, finds other inside]
    · rw [List.map_cons, List.mem_cons, not_or] at absent
      rw [front, if_neg absent.1, nothing name absent.2]

/-- A stored record is read, and exactly the fields that were written are found in it. -/
theorem record?_of_stores (declares : Declares declared (fields.map (·.1)))
    (stores : Stores stored (.object (present fields))) :
    ∃ record : Record, stored.record? declared = some record ∧
      ∀ field ∈ fields, Option.Rel Stores (record.find? field.1) field.2 := by
  obtain ⟨kept, rfl⟩ := stores.exists_object
  have places : ∀ field ∈ declared, ∃ value, (field.main, value) ∈ fields := by
    intro field inside
    have name : field.main ∈ fields.map (·.1) := declares.mains ▸ List.mem_map_of_mem inside
    obtain ⟨⟨key, value⟩, member, rfl⟩ := List.mem_map.mp name
    exact ⟨value, member⟩
  obtain ⟨record, read, finds, _⟩ := named?_of_finds (declares.mains ▸ declares.nodup)
    fun field inside => by
      obtain ⟨value, member⟩ := places field inside
      obtain ⟨found, same, _⟩ := find?_of_stores declares stores inside member
      exact ⟨found, same⟩
  refine ⟨⟨record⟩, ?_, ?_⟩
  · show (named? kept declared).map Record.mk = some ⟨record⟩
    rw [read]
    rfl
  · rintro ⟨name, value⟩ member
    have declaredName : name ∈ declared.map FieldName.main :=
      declares.mains ▸ List.mem_map_of_mem member
    obtain ⟨field, inside, rfl⟩ := List.mem_map.mp declaredName
    obtain ⟨found, same, part⟩ := find?_of_stores declares stores inside member
    show Option.Rel Stores (record.lookup field.main) value
    rw [Option.some.inj ((finds field inside).symm.trans same)]
    exact part

/-- A record stands for a value if its fields are stored without loss and the value is read from
every record with these fields. -/
theorem record_standsFor (declared : List FieldName) {read? : Json → Option α} {value : α}
    (declares : Declares declared (fields.map (·.1)))
    (sound : fields.Forall fun field => ∀ document ∈ field.2, Sound document)
    (read : ∀ (stored : Json) (record : Record), stored.record? declared = some record →
      (fields.Forall fun field => Option.Rel Stores (record.find? field.1) field.2) →
        read? stored = some value) :
    (object (present fields)).StandsFor read? value := by
  refine ⟨sound_present declares.nodup (List.forall_iff_forall_mem.mp sound), ?_⟩
  intro stored stores
  obtain ⟨record, found, finds⟩ := record?_of_stores declares stores
  exact read stored record found (List.forall_iff_forall_mem.mpr finds)

/-- The kind of a stored record is found, and what is left is the record without it. -/
theorem kind?_of_stores {key kind : String} {entries : List (String × Json)}
    (new : key ∉ entries.map (·.1))
    (stores : Stores stored (.object ((key, .string kind) :: entries))) :
    ∃ rest, stored.kind? key = some (kind, rest) ∧ Stores rest (.object entries) := by
  obtain ⟨kept, rfl⟩ := stores.exists_object
  have others : ∀ entry ∈ entries, entry.1 ≠ key := fun entry member same =>
    new (same ▸ List.mem_map_of_mem member)
  have said : ((key, Json.string kind) :: entries).filter (fun entry => entry.1 = key) =
      ((some (Json.string kind)).map (key, ·)).toList := by
    rw [List.filter_cons_of_pos (by simp), List.filter_eq_nil_iff.mpr]
    · rfl
    · simpa using others
  have left : ((key, Json.string kind) :: entries).filter (fun entry => entry.1 ≠ key) =
      entries := by
    rw [List.filter_cons_of_neg (by simp), List.filter_eq_self.mpr]
    simpa using others
  have kindStored := filter_stores (fun name => name = key) stores
  have restStored := filter_stores (fun name => name ≠ key) stores
  rw [left] at restStored
  rw [said] at kindStored
  obtain ⟨found, same, part⟩ := stores_toList kindStored
  refine ⟨_, ?_, restStored⟩
  cases part with
  | some part =>
    cases part
    unfold kind?
    dsimp only
    rw [same]
    rfl

/-- A record that says its kind stands for a value if it does without its kind, read as one of that
kind. -/
theorem kind_standsFor {key kind : String} {entries : List (String × Json)}
    {read? : String → Json → Option α} {value : α} (new : key ∉ entries.map (·.1))
    (stands : (object entries).StandsFor (read? kind) value) :
    (object ((key, .string kind) :: entries)).StandsFor
      (fun json => (json.kind? key).bind fun found => read? found.1 found.2) value := by
  constructor
  · cases stands.sound with
    | object apart each =>
      exact .object (List.nodup_cons.mpr ⟨new, apart⟩)
        (List.forall_mem_cons.mpr ⟨.string kind, each⟩)
  · intro stored stores
    obtain ⟨rest, said, left⟩ := kind?_of_stores new stores
    rw [said]
    exact stands.read rest left

end Micromag.Json

namespace Micromag.Record

open Json

variable {α : Type} {record : Record} {name : String} {document : Json}
  {read? : Json → Option α} {write : α → Json}

/-- A field that was written is read. -/
theorem needed_of_rel {value : α} (found : Option.Rel Stores (record.find? name) (some document))
    (stands : document.StandsFor read? value) : record.needed name read? = some value := by
  unfold needed
  generalize record.find? name = part at found
  cases found with
  | some stored => exact stands.read _ stored

/-- A field with a default that was written is read. -/
theorem defaulted_of_some {value : α}
    (found : Option.Rel Stores (record.find? name) (some document))
    (stands : document.StandsFor read? value) (default : α) :
    record.defaulted name read? default = some value := by
  unfold defaulted
  generalize record.find? name = part at found
  cases found with
  | some stored => exact stands.read _ stored

/-- A field with a default is read as what was written or as the default. -/
theorem defaulted_of_rel {value : Option α}
    (found : Option.Rel Stores (record.find? name) (value.map write))
    (stands : ∀ x ∈ value, (write x).StandsFor read? x) (default : α) :
    record.defaulted name read? default = some (value.getD default) := by
  unfold defaulted
  generalize record.find? name = part at found
  cases value with
  | none =>
    cases found
    rfl
  | some x =>
    cases found with
    | some stored => exact (stands x rfl).read _ stored

/-- A field that may be missing is read as what was written. -/
theorem optional_of_rel {value : Option α}
    (found : Option.Rel Stores (record.find? name) (value.map write))
    (stands : ∀ x ∈ value, (write x).StandsFor read? x) (absent : read? .null = none) :
    record.optional name read? = some value := by
  unfold optional
  generalize record.find? name = part at found
  cases value with
  | none =>
    cases found
    rfl
  | some x =>
    cases found with
    | @some part _ stored =>
      have read := (stands x rfl).read part stored
      cases part with
      | null => exact nomatch absent.symm.trans read
      | _ =>
        show (read? _).map some = some (some x)
        rw [read]
        rfl

end Micromag.Record
