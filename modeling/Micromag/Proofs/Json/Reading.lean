import Micromag.Proofs.Json.Parts
import Micromag.Proofs.Json.Stored

/-!
# Documents are read from their text

A document in which whole numbers fit a word and other numbers are finite is read from its text on
several lines, whatever follows, if its brackets are nested no deeper than the reader goes, and
otherwise nothing is read.
-/

namespace Micromag.Json

variable {rest : List Char} {json : Json} {depth : Nat} {items : List Json}
  {entries : List (String × Json)}

/-- A document of which the numbers have a text. -/
inductive Legible : Json → Prop where
  /-- The absent value. -/
  | null : Legible .null
  /-- A truth value. -/
  | bool (value : Bool) : Legible (.bool value)
  /-- A whole number that fits a word with or without a sign. -/
  | whole {n : Int} (low : -2 ^ 63 ≤ n) (high : n < 2 ^ 64) : Legible (.whole n)
  /-- A finite number. -/
  | number {x : Float} (finite : x.isFinite = true) : Legible (.number x)
  /-- Text. -/
  | string (text : String) : Legible (.string text)
  /-- A list of such documents. -/
  | array {items : List Json} (each : ∀ item ∈ items, Legible item) : Legible (.array items)
  /-- Such documents under keys. -/
  | object {entries : List (String × Json)} (each : ∀ entry ∈ entries, Legible entry.2) :
      Legible (.object entries)

/-- A document as a store holds it. -/
structure Held (json : Json) : Prop where
  /-- Its numbers have a text. -/
  legible : json.Legible
  /-- The keys of every object are in order, and none occurs twice. -/
  ordered : json.sorted = json

/-- A document of which the numbers have a text is held with its keys in order. -/
theorem Legible.held_sorted (legible : json.Legible) : json.sorted.Held := by
  induction legible with
  | null => exact ⟨.null, rfl⟩
  | bool value => exact ⟨.bool value, rfl⟩
  | whole low high => exact ⟨.whole low high, rfl⟩
  | number finite => exact ⟨.number finite, rfl⟩
  | string text => exact ⟨.string text, rfl⟩
  | @array items _ ih =>
    have each : ∀ item ∈ items.map sorted, Held item := List.forall_mem_map.mpr ih
    rw [sorted, sortedItems_eq_map]
    refine ⟨.array fun item member => (each item member).legible, ?_⟩
    rw [sorted, sortedItems_eq_map, List.map_congr_left fun item member => (each item member).ordered,
      List.map_id']
  | @object entries _ ih =>
    have each : ∀ entry ∈ (Keyed.ofList (sortedEntries entries)).entries, Held entry.2 := by
      intro entry member
      have inside := Keyed.mem_of_mem_ofList member
      rw [sortedEntries_eq_map] at inside
      obtain ⟨original, there, rfl⟩ := List.mem_map.mp inside
      exact ih original there
    rw [sorted]
    generalize Keyed.ofList (sortedEntries entries) = map at each ⊢
    have same : sortedEntries map.entries = map.entries := by
      have kept : ∀ entry ∈ map.entries, (entry.1, sorted entry.2) = id entry := fun entry member =>
        congrArg (entry.1, ·) (each entry member).ordered
      rw [sortedEntries_eq_map, List.map_congr_left kept, List.map_id]
    refine ⟨.object fun entry member => (each entry member).legible, ?_⟩
    rw [sorted, same, Keyed.ofList_of_perm (.refl _)]

/-! ## Nested brackets -/

mutual

/-- How deep the brackets of a document are nested. -/
def nesting : Json → Nat
  | array items => nestingItems items + 1
  | object entries => nestingEntries entries + 1
  | null | bool _ | whole _ | number _ | string _ => 0

/-- How deep the brackets of the items of a list are nested. -/
def nestingItems : List Json → Nat
  | [] => 0
  | item :: rest => max (nesting item) (nestingItems rest)

/-- How deep the brackets of the entries of an object are nested. -/
def nestingEntries : List (String × Json) → Nat
  | [] => 0
  | (_, item) :: rest => max (nesting item) (nestingEntries rest)

end

/-- The brackets of a list are one deeper than those of its items. -/
theorem nesting_array_le :
    (array items).nesting ≤ depth + 1 ↔ ∀ item ∈ items, item.nesting ≤ depth := by
  have each : nestingItems items ≤ depth ↔ ∀ item ∈ items, item.nesting ≤ depth := by
    induction items with
    | nil => simp [nestingItems]
    | cons item others ih => rw [nestingItems, Nat.max_le, ih, List.forall_mem_cons]
  rw [nesting, Nat.add_le_add_iff_right, each]

/-- The brackets of an object are one deeper than those of its entries. -/
theorem nesting_object_le :
    (object entries).nesting ≤ depth + 1 ↔ ∀ entry ∈ entries, entry.2.nesting ≤ depth := by
  have each : nestingEntries entries ≤ depth ↔ ∀ entry ∈ entries, entry.2.nesting ≤ depth := by
    induction entries with
    | nil => simp [nestingEntries]
    | cons entry others ih => rw [nestingEntries, Nat.max_le, ih, List.forall_mem_cons]
  rw [nesting, Nat.add_le_add_iff_right, each]

/-! ## Text on several lines -/

/-- The items after the first are parts. -/
theorem prettyItems_eq (depth : Nat) (items : List Json) :
    prettyItems depth items = partsText (prettyChars (depth + 1)) ']' depth items := by
  induction items with
  | nil => rw [prettyItems, partsText]
  | cons item others ih => rw [prettyItems, partsText, ih]

/-- An entry of an object. -/
def entryChars (depth : Nat) (entry : String × Json) : List Char :=
  quote entry.1 ++ ':' :: ' ' :: prettyChars depth entry.2

/-- The entries after the first are parts. -/
theorem prettyEntries_eq (depth : Nat) (entries : List (String × Json)) :
    prettyEntries depth entries = partsText (entryChars (depth + 1)) '\x7d' depth entries := by
  induction entries with
  | nil => rw [prettyEntries, partsText]
  | cons entry others ih =>
    rw [prettyEntries, partsText, ih]
    simp [entryChars]

/-- The text of a document begins neither with space nor with a bracket that closes a list. -/
theorem Legible.starts (legible : Legible json) (indent : Nat) : ∃ first more,
    prettyChars indent json = first :: more ∧ isSpace first = false ∧ first ≠ ']' := by
  have number {text : List Char} {json : Json} (spells : Spells text json) :
      ∃ first more, text = first :: more ∧ isSpace first = false ∧ first ≠ ']' := by
    obtain ⟨first, more, same, starts⟩ := spells.starts
    refine ⟨first, more, same, ?_⟩
    rcases starts with rfl | digit
    · decide
    · have all : ∀ value < 10, isSpace (digitChar value) = false ∧ digitChar value ≠ ']' := by
        decide
      obtain ⟨value, small, rfl⟩ := exists_of_isDigit digit
      exact all value small
  cases legible with
  | null => exact ⟨'n', _, rfl, by decide, by decide⟩
  | bool value =>
    cases value with
    | true => exact ⟨'t', _, rfl, by decide, by decide⟩
    | false => exact ⟨'f', _, rfl, by decide, by decide⟩
  | whole low high => exact number (spells_whole low high)
  | number finite => exact number (spells_number finite)
  | string text => exact ⟨'"', _, rfl, by decide, by decide⟩
  | @array items _ =>
    cases items with
    | nil => exact ⟨'[', _, rfl, by decide, by decide⟩
    | cons item others => exact ⟨'[', _, rfl, by decide, by decide⟩
  | @object entries _ =>
    cases entries with
    | nil => exact ⟨'\x7b', _, rfl, by decide, by decide⟩
    | cons entry others => exact ⟨'\x7b', _, rfl, by decide, by decide⟩

/-! ## Reading -/

/-- What begins with a minus or a digit is read as a number. -/
theorem readValue?_of_spells {text : List Char} (spells : Spells text json) (ends : Ends rest) :
    readValue? depth (text ++ rest) = some (json, rest) := by
  obtain ⟨first, more, same, starts⟩ := spells.starts
  have read := spells.read rest ends
  have other (c : Char) (special : c ≠ '-' ∧ isDigit c = false) (behind : List Char)
      (begins : first :: (more ++ rest) = c :: behind) : False := by
    obtain ⟨rfl, -⟩ := List.cons.inj begins
    rcases starts with minus | digit
    · exact special.1 minus
    · rw [special.2] at digit
      cases digit
  rw [same, List.cons_append] at read ⊢
  rw [readValue?, read]
  all_goals exact other _ (by decide)

/-- An entry is read as its key and its document. -/
theorem readMember?_entryChars {entry : String × Json} (legible : entry.2.Legible) (indent : Nat)
    (value : List Char → Option (Json × List Char)) (rest : List Char) :
    readMember? value (entryChars indent entry ++ rest) =
      (value (prettyChars indent entry.2 ++ rest)).map fun found => ((entry.1, found.1), found.2) := by
  obtain ⟨first, more, begins, visible, -⟩ := legible.starts indent
  obtain ⟨behind, same, read⟩ :=
    readText?_quote entry.1 (':' :: ' ' :: (prettyChars indent entry.2 ++ rest))
  have text : entryChars indent entry ++ rest = '"' :: behind := by
    rw [← same, entryChars, List.append_assoc]
    rfl
  have blank : skipSpace (' ' :: (prettyChars indent entry.2 ++ rest)) =
      prettyChars indent entry.2 ++ rest := by
    rw [begins]
    exact skipSpace_cons visible
  have colon : skipSpace (':' :: ' ' :: (prettyChars indent entry.2 ++ rest)) =
      ':' :: ' ' :: (prettyChars indent entry.2 ++ rest) := skipSpace_cons (by decide)
  rw [text]
  simp only [readMember?, read, Option.bind_eq_bind, Option.bind_some, colon, blank]
  cases value (prettyChars indent entry.2 ++ rest) <;> rfl

/-- A list is read if its items are and are nested no deeper. -/
theorem readValue?_array {indent : Nat}
    (reads : ∀ item ∈ items, Reads (readValue? depth) (prettyChars (indent + 1)) ']'
      (fun item => decide (item.nesting ≤ depth)) item) (rest : List Char) :
    readValue? (depth + 1) (prettyChars indent (array items) ++ rest) =
      if (array items).nesting ≤ depth + 1 then some (array items, rest) else none := by
  cases items with
  | nil =>
    show readValue? (depth + 1) ('[' :: ']' :: rest) = _
    rw [readValue?, readBracketed?_close (by decide),
      if_pos (nesting_array_le.mpr (List.forall_mem_nil _))]
    rfl
  | cons item others =>
    have parts := readBracketed?_partsText (by decide) (by decide) reads indent rest
    simp only [List.all_eq_true, decide_eq_true_eq] at parts
    simp only [prettyChars, prettyItems_eq, List.cons_append, List.append_assoc, readValue?, parts,
      nesting_array_le]
    split <;> rfl

/-- An object is read if its documents are and are nested no deeper. -/
theorem readValue?_object {indent : Nat}
    (reads : ∀ entry ∈ entries, Reads (readMember? (readValue? depth)) (entryChars (indent + 1)) '\x7d'
      (fun entry => decide (entry.2.nesting ≤ depth)) entry) (rest : List Char) :
    readValue? (depth + 1) (prettyChars indent (object entries) ++ rest) =
      if (object entries).nesting ≤ depth + 1 then some (object entries, rest) else none := by
  cases entries with
  | nil =>
    show readValue? (depth + 1) ('\x7b' :: '\x7d' :: rest) = _
    rw [readValue?, readBracketed?_close (by decide),
      if_pos (nesting_object_le.mpr (List.forall_mem_nil _))]
    rfl
  | cons entry others =>
    obtain ⟨key, item⟩ := entry
    have parts := readBracketed?_partsText (by decide) (by decide) reads indent rest
    simp only [List.all_eq_true, decide_eq_true_eq, entryChars, List.cons_append,
      List.append_assoc] at parts
    simp only [prettyChars, prettyEntries_eq, List.cons_append, List.append_assoc, readValue?, parts,
      nesting_object_le]
    split <;> rfl

/-- A document without brackets is read from its text. -/
theorem readValue?_of_flat (legible : json.Legible) (flat : json.nesting = 0) (depth indent : Nat)
    (ends : Ends rest) :
    readValue? depth (prettyChars indent json ++ rest) =
      if json.nesting ≤ depth then some (json, rest) else none := by
  rw [if_pos (flat ▸ Nat.zero_le depth)]
  cases legible with
  | null =>
    show readValue? depth ('n' :: 'u' :: 'l' :: 'l' :: rest) = _
    rw [readValue?]
    rfl
  | bool value =>
    cases value with
    | true =>
      show readValue? depth ('t' :: 'r' :: 'u' :: 'e' :: rest) = _
      rw [readValue?]
      rfl
    | false =>
      show readValue? depth ('f' :: 'a' :: 'l' :: 's' :: 'e' :: rest) = _
      rw [readValue?]
      rfl
  | whole low high => exact readValue?_of_spells (spells_whole low high) ends
  | number finite => exact readValue?_of_spells (spells_number finite) ends
  | string text =>
    obtain ⟨behind, same, read⟩ := readText?_quote text rest
    show readValue? depth (quote text ++ rest) = _
    rw [same, readValue?, read]
    rfl
  | array _ => exact absurd flat (Nat.succ_ne_zero _)
  | object _ => exact absurd flat (Nat.succ_ne_zero _)

/-- A document is read from its text if its brackets are nested no deeper than the reader goes. -/
theorem readValue?_prettyChars (legible : json.Legible) (depth indent : Nat) (ends : Ends rest) :
    readValue? depth (prettyChars indent json ++ rest) =
      if json.nesting ≤ depth then some (json, rest) else none := by
  induction legible generalizing depth indent rest with
  | null => exact readValue?_of_flat .null rfl depth indent ends
  | bool value => exact readValue?_of_flat (.bool value) rfl depth indent ends
  | whole low high => exact readValue?_of_flat (.whole low high) rfl depth indent ends
  | number finite => exact readValue?_of_flat (.number finite) rfl depth indent ends
  | string text => exact readValue?_of_flat (.string text) rfl depth indent ends
  | @array items each ih =>
    cases depth with
    | zero =>
      obtain ⟨behind, same⟩ : ∃ behind, prettyChars indent (array items) = '[' :: behind := by
        cases items <;> exact ⟨_, rfl⟩
      rw [same, List.cons_append, readValue?, if_neg (by rw [nesting]; omega)]
    | succ depth =>
      refine readValue?_array (fun item member => ⟨(each item member).starts _, fun rest ends => ?_⟩) _
      rw [ih item member depth (indent + 1) ends]
      simp only [decide_eq_true_eq]
  | @object entries each ih =>
    cases depth with
    | zero =>
      obtain ⟨behind, same⟩ : ∃ behind, prettyChars indent (object entries) = '\x7b' :: behind := by
        cases entries <;> exact ⟨_, rfl⟩
      rw [same, List.cons_append, readValue?, if_neg (by rw [nesting]; omega)]
    | succ depth =>
      refine readValue?_object (fun entry member =>
        ⟨⟨'"', _, rfl, by decide, by decide⟩, fun rest ends => ?_⟩) _
      rw [readMember?_entryChars (each entry member), ih entry member depth (indent + 1) ends]
      simp only [decide_eq_true_eq]
      split <;> rfl

/-- The document behind which nothing or only a line break follows is read from its whole text if its
brackets are nested no deeper than the reader goes. -/
theorem read?_pretty (legible : json.Legible) {last : List Char} (blank : last = [] ∨ last = ['\n']) :
    read? (String.ofList (json.prettyChars 0 ++ last)) =
      if json.nesting ≤ maxDepth then some json else none := by
  obtain ⟨first, more, same, visible, -⟩ := legible.starts 0
  have ends : Ends last := by
    rcases blank with rfl | rfl
    · nofun
    · exact ends_newLine 0 []
  have begins : skipSpace (json.prettyChars 0 ++ last) = json.prettyChars 0 ++ last := by
    rw [same]
    exact skipSpace_cons visible
  have nothing : (skipSpace last).isEmpty = true := by
    rcases blank with rfl | rfl <;> decide
  unfold read?
  rw [String.toList_ofList, begins, readValue?_prettyChars legible maxDepth 0 ends]
  split
  · exact if_pos nothing
  · rfl

end Micromag.Json
