import Micromag.Proofs.Decimal.Layout
import Micromag.Proofs.Result
import Micromag.Proofs.Script.Tokens
import Micromag.Script.Number

/-!
# References that resolve

A script resolves when every item refers only to objects that earlier items declare. What is known
grows from item to item by the names that are declared, so that two lists of items resolve one after
the other when the second resolves with the names of the first. Other text holds no colon that could
be taken for a reference.
-/

namespace Micromag.Script

/-- Whether an atom is text without a colon or refers to a known object. -/
def Atom.Resolves (known : List String) : Atom → Prop
  | .text value => ':' ∉ value.toList
  | .reference name => name ∈ known ∧ Text.isIdentifier name = true

/-- Whether a word refers to known objects only. -/
def Word.Resolves (known : List String) : Word → Prop
  | .atom value => value.Resolves known
  | .group values => ∀ value ∈ values, value.Resolves known

/-- Whether an entry refers to known objects only. -/
def Entry.Resolves (known : List String) : Entry → Prop
  | .line words => ∀ word ∈ words, word.Resolves known
  | .table key rows => ':' ∉ key.toList ∧ ∀ row ∈ rows, ∀ word ∈ row, word.Resolves known

/-- Whether a block has a usable label and refers to known objects only. -/
structure Block.Resolves (known : List String) (block : Block) : Prop where
  /-- The class has a name. -/
  className : Text.isIdentifier block.className = true
  /-- The instance has a name if others may refer to it. -/
  instanceName : ∀ name ∈ block.instanceName, Text.isIdentifier name = true
  /-- The options refer to known objects. -/
  entries : ∀ entry ∈ block.entries, entry.Resolves known

/-- Whether a procedure refers to nothing. -/
structure Procedure.Resolves (procedure : Procedure) : Prop where
  /-- The name refers to nothing. -/
  name : ':' ∉ procedure.name.toList
  /-- The parameters refer to nothing. -/
  parameters : ':' ∉ procedure.parameters.toList
  /-- The lines refer to nothing. -/
  body : ∀ line ∈ procedure.body, ':' ∉ line.toList

/-- Whether an item refers to known objects only. Of the caller's text nothing is known. -/
def Item.Resolves (known : List String) : Item → Prop
  | .options basename _ => ':' ∉ basename.toList
  | .block b => b.Resolves known
  | .procedure p => p.Resolves
  | .destination name => ':' ∉ name.toList
  | .schedule output target event =>
    (output.toList.head? ≠ some ':' ∧ ∀ c ∈ output.toList, isDelimiter c = false) ∧
      Text.isIdentifier target = true ∧ Text.isIdentifier event = true
  | .blank => True
  | .verbatim _ => False

/-- Whether the items of a script refer only to what is known or declared before them. -/
def Resolves (known : List String) : List Item → Prop
  | [] => True
  | item :: rest => item.Resolves known ∧ Resolves (known ++ instances [item]) rest

variable {known more names others : List String} {items after : List Item}

/-- The names of items one after the other. -/
theorem instances_append : instances (items ++ after) = instances items ++ instances after := by
  unfold instances blocks
  rw [List.filterMap_append, List.filterMap_append]

/-- A reference that resolves still resolves when more is known. -/
theorem Atom.Resolves.mono (subset : known ⊆ more) {atom : Atom} (resolves : atom.Resolves known) :
    atom.Resolves more := by
  cases atom with
  | text value => exact resolves
  | reference name => exact ⟨subset resolves.1, resolves.2⟩

/-- A word that resolves still resolves when more is known. -/
theorem Word.Resolves.mono (subset : known ⊆ more) {word : Word} (resolves : word.Resolves known) :
    word.Resolves more := by
  cases word with
  | atom value => exact Atom.Resolves.mono subset resolves
  | group values => exact fun value member => (resolves value member).mono subset

/-- An entry that resolves still resolves when more is known. -/
theorem Entry.Resolves.mono (subset : known ⊆ more) {entry : Entry}
    (resolves : entry.Resolves known) : entry.Resolves more := by
  cases entry with
  | line words => exact fun word member => (resolves word member).mono subset
  | table key rows =>
    exact ⟨resolves.1, fun row member word inside =>
      (resolves.2 row member word inside).mono subset⟩

/-- An item that resolves still resolves when more is known. -/
theorem Item.Resolves.mono (subset : known ⊆ more) {item : Item}
    (resolves : item.Resolves known) : item.Resolves more := by
  cases item with
  | block b =>
    exact ⟨resolves.className, resolves.instanceName, fun entry member =>
      (resolves.entries entry member).mono subset⟩
  | options | procedure | destination | schedule | blank | verbatim => exact resolves

/-- Items that resolve still resolve when more is known. -/
theorem Resolves.mono (subset : known ⊆ more) (resolves : Resolves known items) :
    Resolves more items := by
  induction items generalizing known more with
  | nil => exact trivial
  | cons item rest ih =>
    refine ⟨resolves.1.mono subset, ih ?_ resolves.2⟩
    exact List.append_subset.mpr ⟨List.Subset.trans subset (List.subset_append_left _ _),
      List.subset_append_right _ _⟩

/-- Items resolve one after the other when the later ones resolve with the names of the earlier. -/
theorem resolves_append : Resolves known (items ++ after) ↔
    Resolves known items ∧ Resolves (known ++ instances items) after := by
  induction items generalizing known with
  | nil =>
    have same : known ++ instances [] = known := List.append_nil known
    rw [List.nil_append, same]
    exact ⟨fun resolves => ⟨trivial, resolves⟩, And.right⟩
  | cons item rest ih =>
    have names : known ++ instances [item] ++ instances rest =
        known ++ instances (item :: rest) := by
      rw [List.append_assoc, ← instances_append]
      rfl
    rw [List.cons_append]
    show item.Resolves known ∧ Resolves (known ++ instances [item]) (rest ++ after) ↔ _
    rw [ih, names, ← and_assoc]
    rfl

/-- What lowering a value gives: items that resolve and declare certain names. -/
structure Emits (known : List String) (items : List Item) (names : List String) : Prop where
  /-- The names are declared in order. -/
  instances : Script.instances items = names
  /-- Everything that is referred to is known or declared before. -/
  resolves : Resolves known items

namespace Emits

/-- No items declare no names. -/
theorem nil : Emits known [] [] := ⟨rfl, trivial⟩

/-- Items that know the names of earlier items can follow them. -/
theorem append (first : Emits known items names) (second : Emits (known ++ names) after others) :
    Emits known (items ++ after) (names ++ others) where
  instances := by rw [instances_append, first.instances, second.instances]
  resolves := by
    rw [resolves_append, first.instances]
    exact ⟨first.resolves, second.resolves⟩

/-- More may be known than is needed. -/
theorem mono (subset : known ⊆ more) (emits : Emits known items names) : Emits more items names :=
  ⟨emits.instances, emits.resolves.mono subset⟩

/-- Items that know nothing of earlier items can follow them. -/
theorem append_right (first : Emits known items names) (second : Emits known after others) :
    Emits known (items ++ after) (names ++ others) :=
  first.append (second.mono (List.subset_append_left known names))

/-- An object is declared by its block. -/
theorem object {className name : String} {entries : List Entry}
    (ofClass : Text.isIdentifier className = true) (named : Text.isIdentifier name = true)
    (resolves : ∀ entry ∈ entries, entry.Resolves known) :
    Emits known [.object className name entries] [name] where
  instances := rfl
  resolves := ⟨⟨ofClass, fun _ same => Option.some.inj same ▸ named, resolves⟩, trivial⟩

/-- An object without a name declares nothing. -/
theorem anonymous {className : String} {entries : List Entry}
    (ofClass : Text.isIdentifier className = true)
    (resolves : ∀ entry ∈ entries, entry.Resolves known) :
    Emits known [.anonymous className entries] [] where
  instances := rfl
  resolves := ⟨⟨ofClass, nofun, resolves⟩, trivial⟩

/-- An item that is no block declares nothing. -/
theorem single {item : Item} (resolves : item.Resolves known) (noBlock : item.block? = none) :
    Emits known [item] [] where
  instances := by
    unfold Script.instances blocks
    rw [List.filterMap_cons_none noBlock]
    rfl
  resolves := ⟨resolves, trivial⟩

/-- Items that are no blocks declare nothing. -/
theorem of_noBlock (each : ∀ item ∈ items, item.Resolves known ∧ item.block? = none) :
    Emits known items [] := by
  induction items with
  | nil => exact .nil
  | cons item rest ih =>
    have first := each item List.mem_cons_self
    have others := ih fun other member => each other (List.mem_cons_of_mem item member)
    exact (single first.1 first.2).append_right others

end Emits

end Micromag.Script

/-!
## Numbers refer to nothing

The text of a number has no colon, so that words made of numbers resolve whatever is known.
-/

namespace Micromag.Script

variable {known : List String}

/-- The text of a number consists of the characters of numbers. -/
theorem mem_numberChars {x : Float} {text : String} (written : numberText x = .ok text) {c : Char}
    (member : c ∈ text.toList) : c ∈ numberChars := by
  unfold numberText at written
  split at written
  · cases written
  · split at written
    · obtain rfl := Except.ok.inj written
      obtain rfl : c = '0' := List.mem_singleton.mp member
      decide
    · rw [← Except.ok.inj written] at member
      unfold Layout.text at member
      rw [String.toList_ofList] at member
      exact Layout.chars_mem member

/-- The text of a number has no colon. -/
theorem noColon_numberText {x : Float} {text : String} (written : numberText x = .ok text) :
    ':' ∉ text.toList :=
  fun member => absurd (mem_numberChars written member) (by decide)

/-- A number as a part of a word resolves. -/
theorem number_resolves {x : Float} {atom : Atom} (written : number x = .ok atom) :
    atom.Resolves known := by
  obtain ⟨text, inner, rfl⟩ := Result.map_ok.mp written
  exact noColon_numberText inner

/-- A number as a word resolves. -/
theorem numberWord_resolves {x : Float} {word : Word} (written : numberWord x = .ok word) :
    word.Resolves known := by
  obtain ⟨atom, inner, rfl⟩ := Result.map_ok.mp written
  exact number_resolves inner

/-- Numbers as parts of a word resolve. -/
theorem mapM_number_resolves {xs : List Float} {atoms : List Atom}
    (written : xs.mapM number = .ok atoms) : ∀ atom ∈ atoms, atom.Resolves known := by
  intro atom member
  obtain ⟨x, _, written⟩ := Result.exists_of_mem_mapM written member
  exact number_resolves written

/-- Numbers between braces resolve. -/
theorem numbers_resolves {xs : List Float} {word : Word} (written : numbers xs = .ok word) :
    word.Resolves known := by
  obtain ⟨atoms, inner, rfl⟩ := Result.map_ok.mp written
  exact mapM_number_resolves inner

/-- A part of a word that refers to nothing has no colon. -/
theorem Atom.noColon_render {atom : Atom} (resolves : atom.Resolves []) :
    ':' ∉ atom.render.toList := by
  cases atom with
  | text value => exact resolves
  | reference name => exact absurd resolves.1 List.not_mem_nil

/-- Parts without colons have none when they are joined by blanks. -/
theorem noColon_intercalate {parts : List String} (noColon : ∀ part ∈ parts, ':' ∉ part.toList) :
    ':' ∉ (String.intercalate " " parts).toList := by
  induction parts with
  | nil => decide
  | cons first others ih =>
    have head := noColon first List.mem_cons_self
    have tail := ih fun part member => noColon part (List.mem_cons_of_mem first member)
    cases others with
    | nil =>
      rw [String.intercalate_singleton]
      exact head
    | cons second rest =>
      rw [String.intercalate_cons_cons]
      generalize String.intercalate " " (second :: rest) = joined at tail ⊢
      simp [String.toList_append, head, tail]

/-- A word that refers to nothing has no colon. -/
theorem Word.noColon_render {word : Word} (resolves : word.Resolves []) :
    ':' ∉ word.render.toList := by
  cases word with
  | atom value => exact Atom.noColon_render resolves
  | group values =>
    have parts : ':' ∉ (String.intercalate " " (values.map Atom.render)).toList := by
      refine noColon_intercalate fun part member => ?_
      obtain ⟨value, inside, rfl⟩ := List.mem_map.mp member
      exact Atom.noColon_render (resolves value inside)
    show ':' ∉ ("\x7b" ++ String.intercalate " " (values.map Atom.render) ++ "\x7d").toList
    generalize String.intercalate " " (values.map Atom.render) = joined at parts ⊢
    simp [String.toList_append, parts]

/-- A vector as a word resolves. -/
theorem vectorWord_resolves {v : Triple Float} {word : Word} (written : vectorWord v = .ok word) :
    word.Resolves known :=
  numbers_resolves written

/-- The digits of a natural number have no colon. -/
theorem noColon_toString (n : Nat) : ':' ∉ (toString n).toList := by
  have digits : (toString n).toList = Nat.toDigits 10 n := String.toList_ofList
  rw [digits]
  intro member
  have digit := Nat.isDigit_of_mem_toDigits (by decide) (by decide) member
  exact absurd digit (by decide)

/-- Words without colons refer to nothing. -/
theorem texts_resolve {values : List String} (noColon : ∀ value ∈ values, ':' ∉ value.toList) :
    ∀ part ∈ values.map Atom.text, part.Resolves known := by
  intro part member
  obtain ⟨value, inside, rfl⟩ := List.mem_map.mp member
  exact noColon value inside

/-- A key with a word that resolves resolves. -/
theorem setting_resolves {key : String} {word : Word} (noColon : ':' ∉ key.toList)
    (resolves : word.Resolves known) : (Entry.setting key word).Resolves known := by
  intro part member
  rcases List.mem_cons.mp member with rfl | member
  · exact noColon
  · rw [List.mem_singleton.mp member]
    exact resolves

end Micromag.Script
