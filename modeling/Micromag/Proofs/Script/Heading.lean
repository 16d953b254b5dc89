import Mathlib.Data.List.Basic
import Micromag.Proofs.Script.Headline
import Micromag.Table.Basic

/-!
# Declarations in the text of a script

A line that begins with the word for a declaration declares an object if its label has a colon.
Every other line of a script is indented, begins otherwise or has no colon. The names declared in
the text of a script are therefore those of its blocks.
-/

namespace Micromag.Script

/-- The instance name in a line that begins a declaration, if the label has one. -/
def instanceOfLine? (line : List Char) : Option String :=
  if "Specify ".toList.isPrefixOf line then
    (Table.splitFirstColon? ((line.drop 8).takeWhile (· ≠ ' '))).map fun parts =>
      String.ofList parts.2
  else none

/-- The instance names that a text declares, in order. -/
def declaredNames (text : List Char) : List String :=
  (text.splitOnP (· = '\n')).filterMap instanceOfLine?

variable {line before after : List Char}

/-- The names that a text declares are what a reader finds in its lines. -/
theorem declaredNames_eq {text : List Char} : declaredNames text = readings instanceOfLine? text :=
  rfl

/-- A line that begins otherwise declares nothing. -/
theorem selective_instanceOfLine? : Selective instanceOfLine? := by
  intro line inert
  unfold instanceOfLine?
  rw [inert.1]
  rfl

/-- A text without a colon is not split. -/
theorem splitFirstColon?_of_noColon (noColon : ':' ∉ line) :
    Table.splitFirstColon? line = none := by
  have others : ∀ c ∈ line, decide (c ≠ ':') = true := fun c member =>
    decide_eq_true fun same => noColon (same ▸ member)
  have rest : (line ++ []).dropWhile (· ≠ ':') = [].dropWhile (· ≠ ':') :=
    List.dropWhile_append_of_pos others
  rw [List.append_nil, List.dropWhile_nil] at rest
  unfold Table.splitFirstColon?
  rw [rest]

/-- A text is split at a colon in front of which there is none. -/
theorem splitFirstColon?_append (noColon : ':' ∉ before) :
    Table.splitFirstColon? (before ++ ':' :: after) = some (before, after) := by
  have others : ∀ c ∈ before, decide (c ≠ ':') = true := fun c member =>
    decide_eq_true fun same => noColon (same ▸ member)
  unfold Table.splitFirstColon?
  rw [List.dropWhile_append_of_pos others, List.takeWhile_append_of_pos others,
    List.dropWhile_cons_of_neg (by decide), List.takeWhile_cons_of_neg (by decide),
    List.append_nil]

/-- Without a colon there is no instance name. -/
theorem instanceOfLine?_of_noColon (noColon : ':' ∉ line) : instanceOfLine? line = none := by
  unfold instanceOfLine?
  split
  · have label : ':' ∉ (line.drop 8).takeWhile (· ≠ ' ') := fun member =>
      noColon (List.mem_of_mem_drop (List.takeWhile_subset _ member))
    rw [splitFirstColon?_of_noColon label]
    rfl
  · rfl

/-- A text without a colon declares no name. -/
theorem declaredNames_of_noColon {text : List Char} (noColon : ':' ∉ text) :
    declaredNames text = [] := by
  unfold declaredNames
  rw [List.filterMap_eq_nil_iff]
  exact fun line member => instanceOfLine?_of_noColon fun inside =>
    noColon (Text.subset_of_mem_splitOnP member inside)

/-- The first line of a declaration begins with its word. -/
theorem specify_isPrefixOf {rest : List Char} :
    "Specify ".toList.isPrefixOf ("Specify ".toList ++ rest) = true :=
  List.isPrefixOf_iff_prefix.mpr (List.prefix_append _ _)

/-- The word behind the beginning of a declaration is its label. -/
theorem takeWhile_label {className : String} {instanceName : Option String}
    (ofClass : Text.isIdentifier className = true)
    (named : ∀ name ∈ instanceName, Text.isIdentifier name = true) {rest : List Char} :
    (("Specify ".toList ++ ((label className instanceName).toList ++ ' ' :: rest)).drop 8).takeWhile
      (· ≠ ' ') = (label className instanceName).toList := by
  have solid : ∀ c ∈ (label className instanceName).toList, decide (c ≠ ' ') = true := by
    intro c member
    refine decide_eq_true fun same => ?_
    exact notMem_label ofClass named (show Text.isNameChar ' ' = false by decide) (by decide)
      (same ▸ member)
  have dropped : ("Specify ".toList ++ ((label className instanceName).toList ++
      ' ' :: rest)).drop 8 = (label className instanceName).toList ++ ' ' :: rest := rfl
  rw [dropped, List.takeWhile_append_of_pos solid, List.takeWhile_cons_of_neg (by decide),
    List.append_nil]

/-- The label of an object with an instance. -/
theorem toList_label {className name : String} :
    (label className (some name)).toList = className.toList ++ ':' :: name.toList := by
  show (className ++ ":" ++ name).toList = _
  rw [String.toList_append, String.toList_append, List.append_assoc]
  rfl

/-- The first line of a declaration declares the name of its label. -/
theorem instanceOfLine?_label {className : String} {instanceName : Option String}
    (ofClass : Text.isIdentifier className = true)
    (named : ∀ name ∈ instanceName, Text.isIdentifier name = true) {rest : List Char} :
    instanceOfLine? ("Specify ".toList ++ ((label className instanceName).toList ++ ' ' :: rest)) =
      instanceName := by
  have noColon : ':' ∉ className.toList := Text.noColon_of_isIdentifier ofClass
  unfold instanceOfLine?
  rw [if_pos specify_isPrefixOf, takeWhile_label ofClass named]
  cases instanceName with
  | none =>
    have unsplit : Table.splitFirstColon? className.toList = none :=
      splitFirstColon?_of_noColon noColon
    show (Table.splitFirstColon? className.toList).map _ = none
    rw [unsplit]
    rfl
  | some name =>
    rw [toList_label, splitFirstColon?_append noColon, Option.map_some, String.ofList_toList]

/-- The names that the text of a block declares: that of its label. -/
theorem declaredNames_blockText {className : String} {instanceName : Option String}
    {entries : List String} (ofClass : Text.isIdentifier className = true)
    (named : ∀ name ∈ instanceName, Text.isIdentifier name = true) :
    declaredNames (blockText className instanceName entries).toList = instanceName.toList := by
  rw [declaredNames_eq, (headed_blockText ofClass named).readings selective_instanceOfLine?]
  unfold blockLine
  rw [instanceOfLine?_label ofClass named]

/-- The text of a procedure declares nothing. -/
theorem Procedure.declaredNames_render {procedure : Procedure} (resolves : procedure.Resolves) :
    declaredNames procedure.render.toList = [] := by
  have noColon : ':' ∉ procedure.head.toList := by
    unfold head braced
    simp [String.toList_append, resolves.name, resolves.parameters]
  have first : readings instanceOfLine? procedure.head.toList = [] :=
    declaredNames_of_noColon noColon
  rw [declaredNames_eq, toList_render, readings_append_cons, first,
    selective_instanceOfLine?.readings_eq_nil (silent_body procedure.body)]
  rfl

/-- The text of an output declares nothing. -/
theorem declaredNames_schedule {output target event : String}
    (solid : ∀ c ∈ output.toList, isDelimiter c = false)
    (targetNamed : Text.isIdentifier target = true) (eventNamed : Text.isIdentifier event = true) :
    declaredNames (Item.schedule output target event).render.toList = [] := by
  have noFeed : Text.isNameChar '\n' = false := by decide
  have outputOne : '\n' ∉ output.toList := fun member => absurd (solid _ member) (by decide)
  have headed := headed_schedule outputOne (Text.notMem_of_isIdentifier targetNamed noFeed)
    (Text.notMem_of_isIdentifier eventNamed noFeed)
  have nothing : instanceOfLine? (outputLine output target event).toList = none := by
    unfold instanceOfLine? outputLine
    simp only [String.toList_append, List.append_assoc]
    rfl
  rw [declaredNames_eq, headed.readings selective_instanceOfLine?, nothing]
  rfl

/-- The text of an item declares what the item declares. -/
theorem Item.declaredNames_render {known : List String} {item : Item}
    (resolves : item.Resolves known) : declaredNames item.render.toList = instances [item] := by
  cases item with
  | options basename format => exact declaredNames_of_noColon (noColon_optionsText resolves)
  | block b =>
    refine (declaredNames_blockText resolves.className resolves.instanceName).trans ?_
    show b.instanceName.toList = [b].filterMap Block.instanceName
    cases named : b.instanceName with
    | none => rw [List.filterMap_cons_none named]; rfl
    | some name => rw [List.filterMap_cons_some named]; rfl
  | procedure p => exact Procedure.declaredNames_render resolves
  | destination name => exact declaredNames_of_noColon (noColon_destination resolves)
  | schedule output target event =>
    exact declaredNames_schedule resolves.1.2 resolves.2.1 resolves.2.2
  | blank => decide
  | verbatim text => exact absurd resolves not_false

/-- The text of a script that resolves declares what its items declare. -/
theorem Resolves.declaredNames_render {known : List String} {items : List Item}
    (resolves : Resolves known items) :
    declaredNames (render items).toList = instances items := by
  induction items generalizing known with
  | nil => decide
  | cons item rest ih =>
    have ended := Item.getLast?_render resolves.1
    obtain ⟨front, text⟩ := List.getLast?_eq_some_iff.mp ended
    have nothing : declaredNames [] = [] := by decide
    have first := Item.declaredNames_render resolves.1
    rw [text, declaredNames_eq, readings_append_cons] at first
    rw [← declaredNames_eq, ← declaredNames_eq, nothing, List.append_nil] at first
    have names : instances ([item] ++ rest) = instances [item] ++ instances rest :=
      instances_append
    rw [List.singleton_append] at names
    rw [toList_render_cons, text, List.append_assoc]
    rw [declaredNames_eq]
    refine readings_append_cons.trans ?_
    rw [← declaredNames_eq, first, names]
    exact congrArg _ (ih resolves.2)

end Micromag.Script

/-!
## Objects and outputs in the text of a script

The first line of a declaration tells the class of the object and its instance, and the line of an
output tells what is to be written. The text of a script therefore declares the objects of its
blocks and asks for the outputs of its items.
-/

namespace Micromag.Script

/-- The class and the instance of the object that a line declares. Without a colon in the label the
instance is empty. -/
def objectOfLine? (line : List Char) : Option (String × String) :=
  if "Specify ".toList.isPrefixOf line then
    let word := (line.drop 8).takeWhile (· ≠ ' ')
    match Table.splitFirstColon? word with
    | some (className, instanceName) =>
      some (String.ofList className, String.ofList instanceName)
    | none => some (String.ofList word, "")
  else none

/-- The objects that a text declares, in order. -/
def declaredObjects (text : List Char) : List (String × String) := readings objectOfLine? text

/-- The output that a line asks for: one word, or what stands between quotation marks. -/
def outputOfLine? (line : List Char) : Option String :=
  if "Schedule ".toList.isPrefixOf line then
    match line.drop 9 with
    | '"' :: quoted => some (String.ofList (quoted.takeWhile (· ≠ '"')))
    | words => some (String.ofList (words.takeWhile (· ≠ ' ')))
  else none

/-- The outputs that a text asks for, in order. -/
def scheduledOutputs (text : List Char) : List String := readings outputOfLine? text

/-- The object that a block declares. -/
def Block.object (block : Block) : String × String :=
  (block.className, block.instanceName.getD "")

/-- A line that begins otherwise declares nothing. -/
theorem selective_objectOfLine? : Selective objectOfLine? := by
  intro line inert
  unfold objectOfLine?
  rw [inert.1]
  rfl

/-- A line that begins otherwise asks for nothing. -/
theorem selective_outputOfLine? : Selective outputOfLine? := by
  intro line inert
  unfold outputOfLine?
  rw [inert.2]
  rfl

/-- A text that begins with a label declares the object of the label. -/
theorem objectOfLine?_label {className : String} {instanceName : Option String}
    (ofClass : Text.isIdentifier className = true)
    (named : ∀ name ∈ instanceName, Text.isIdentifier name = true) {rest : List Char} :
    objectOfLine? ("Specify ".toList ++ ((label className instanceName).toList ++ ' ' :: rest)) =
      some (className, instanceName.getD "") := by
  have noColon : ':' ∉ className.toList := Text.noColon_of_isIdentifier ofClass
  unfold objectOfLine?
  rw [if_pos specify_isPrefixOf, takeWhile_label ofClass named]
  cases instanceName with
  | none =>
    have unsplit : Table.splitFirstColon? (label className none).toList = none :=
      splitFirstColon?_of_noColon noColon
    dsimp only
    rw [unsplit]
    show some (String.ofList className.toList, "") = _
    rw [String.ofList_toList]
    rfl
  | some name =>
    dsimp only
    rw [toList_label, splitFirstColon?_append noColon]
    dsimp only
    rw [String.ofList_toList, String.ofList_toList]
    rfl

/-- The first line of a block declares the object of the block. -/
theorem objectOfLine?_blockLine {className : String} {instanceName : Option String}
    {entries : List String} (ofClass : Text.isIdentifier className = true)
    (named : ∀ name ∈ instanceName, Text.isIdentifier name = true) :
    objectOfLine? (blockLine className instanceName entries) =
      some (className, instanceName.getD "") :=
  objectOfLine?_label ofClass named

/-- A line of an output declares nothing. -/
theorem objectOfLine?_schedule {rest : List Char} :
    objectOfLine? ("Schedule ".toList ++ rest) = none := rfl

/-- A line of a declaration asks for nothing. -/
theorem outputOfLine?_specify {rest : List Char} :
    outputOfLine? ("Specify ".toList ++ rest) = none := rfl

/-- The line of an output that is one word asks for it. -/
theorem outputOfLine?_outputLine {output target event : String} (one : ' ' ∉ output.toList)
    (bare : output.toList.head? ≠ some '"') :
    outputOfLine? (outputLine output target event).toList = some output := by
  have solid : ∀ c ∈ output.toList, decide (c ≠ ' ') = true := fun c member =>
    decide_eq_true fun same => one (same ▸ member)
  have text : (outputLine output target event).toList = "Schedule ".toList ++
      (output.toList ++ ' ' :: (target ++ " " ++ event ++ " 1").toList) := by
    unfold outputLine
    simp only [String.toList_append, List.append_assoc]
    rfl
  generalize (target ++ " " ++ event ++ " 1").toList = rest at text
  have word : (output.toList ++ ' ' :: rest).takeWhile (· ≠ ' ') = output.toList := by
    rw [List.takeWhile_append_of_pos solid, List.takeWhile_cons_of_neg (by decide),
      List.append_nil]
  have first : (output.toList ++ ' ' :: rest).head? ≠ some '"' := by
    cases start : output.toList with
    | nil => simp
    | cons c others =>
      rw [start] at bare
      exact bare
  rw [text]
  show (match output.toList ++ ' ' :: rest with
    | '"' :: quoted => some (String.ofList (quoted.takeWhile (· ≠ '"')))
    | words => some (String.ofList (words.takeWhile (· ≠ ' ')))) = _
  split
  · rename_i quoted same
    rw [same] at first
    exact absurd rfl first
  · rw [word, String.ofList_toList]

/-- The line of an output between quotation marks asks for it. -/
theorem outputOfLine?_quoted {output rest : List Char} (bare : '"' ∉ output) :
    outputOfLine? ("Schedule \"".toList ++ (output ++ '"' :: rest)) =
      some (String.ofList output) := by
  have solid : ∀ c ∈ output, decide (c ≠ '"') = true := fun c member =>
    decide_eq_true fun same => bare (same ▸ member)
  show some (String.ofList ((output ++ '"' :: rest).takeWhile (· ≠ '"'))) = _
  rw [List.takeWhile_append_of_pos solid, List.takeWhile_cons_of_neg (by decide), List.append_nil]

/-- The output that an item asks for, if it is one. -/
def Item.output? : Item → Option String
  | .schedule output _ _ => some output
  | _ => none

variable {items : List Item}

/-- A level item of the program's own making declares the object of its block. -/
theorem Item.Level.objectOfLine? {item : Item} (level : item.Level)
    (own : ∀ text, item ≠ .verbatim text) :
    Script.objectOfLine? item.headline = item.block?.map Block.object := by
  cases item with
  | block b => exact objectOfLine?_blockLine level.1 level.2
  | schedule output target event =>
    show Script.objectOfLine? (outputLine output target event).toList = none
    unfold outputLine
    simp only [String.toList_append, List.append_assoc]
    exact objectOfLine?_schedule
  | procedure p =>
    show Script.objectOfLine? p.head.toList = none
    unfold Procedure.head
    simp only [String.toList_append, List.append_assoc]
    rfl
  | destination name =>
    show Script.objectOfLine? ("Destination " ++ name ++ " mmArchive").toList = none
    simp only [String.toList_append, List.append_assoc]
    rfl
  | options | blank => rfl
  | verbatim text => exact absurd rfl (own text)

/-- The objects that the text of level items declares are those of their blocks. -/
theorem declaredObjects_render (level : ∀ item ∈ items, item.Level)
    (own : ∀ text, .verbatim text ∉ items) :
    declaredObjects (render items).toList = (blocks items).map Block.object := by
  unfold declaredObjects blocks
  rw [selective_objectOfLine?.readings_render level, List.map_filterMap]
  exact List.filterMap_congr fun item member =>
    (level item member).objectOfLine? fun text same => own text (same ▸ member)

/-- A level item of the program's own making asks for its output. -/
theorem Item.Level.outputOfLine? {item : Item} (level : item.Level)
    (own : ∀ text, item ≠ .verbatim text) :
    Script.outputOfLine? item.headline = item.output? := by
  cases item with
  | block b => exact outputOfLine?_specify
  | schedule output target event => exact outputOfLine?_outputLine level.1.1 level.1.2
  | procedure p =>
    show Script.outputOfLine? p.head.toList = none
    unfold Procedure.head
    simp only [String.toList_append, List.append_assoc]
    rfl
  | destination name =>
    show Script.outputOfLine? ("Destination " ++ name ++ " mmArchive").toList = none
    simp only [String.toList_append, List.append_assoc]
    rfl
  | options | blank => rfl
  | verbatim text => exact absurd rfl (own text)

/-- The outputs that the text of level items asks for are those of the items. -/
theorem scheduledOutputs_render (level : ∀ item ∈ items, item.Level)
    (own : ∀ text, .verbatim text ∉ items) :
    scheduledOutputs (render items).toList = items.filterMap Item.output? := by
  unfold scheduledOutputs
  rw [selective_outputOfLine?.readings_render level]
  exact List.filterMap_congr fun item member =>
    (level item member).outputOfLine? fun text same => own text (same ▸ member)

end Micromag.Script
