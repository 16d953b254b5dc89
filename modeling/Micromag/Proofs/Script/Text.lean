import Micromag.Proofs.Script.Resolution

/-!
# References in the text of a script

The text of an item refers to what the item refers to, and every item ends its last line. A token of
the text of a script is therefore a token of the text of one item, and what it refers to is declared
by a block that stands in front of it with all of its text.
-/

namespace Micromag.Script

variable {known : List String}

/-- The text of an atom refers to what the atom refers to. -/
theorem Atom.refersTo_render {atom : Atom} (resolves : atom.Resolves known) :
    RefersTo known atom.render.toList := by
  cases atom with
  | text value => exact .of_noColon resolves
  | reference name =>
    unfold Atom.render
    rw [String.toList_append]
    exact .of_reference resolves.2 resolves.1

/-- Text between braces refers to what it refers to without them. -/
theorem refersTo_braced {text : String} (refers : RefersTo known text.toList) :
    RefersTo known (braced text).toList := by
  have inner := RefersTo.append (show ['\x7d'].all isDelimiter = true by decide) refers
  have whole := RefersTo.prepend (show ['\x7b'].all isDelimiter = true by decide) inner
  unfold braced
  rw [String.toList_append, String.toList_append, List.append_assoc]
  exact whole

/-- The text of a word refers to what the word refers to. -/
theorem Word.refersTo_render {word : Word} (resolves : word.Resolves known) :
    RefersTo known word.render.toList := by
  cases word with
  | atom value => exact Atom.refersTo_render resolves
  | group values =>
    refine refersTo_braced (.intercalate fun part member => ?_)
    obtain ⟨value, inside, rfl⟩ := List.mem_map.mp member
    exact Atom.refersTo_render (resolves value inside)

/-- The text of a line refers to what the texts of its words refer to. -/
theorem refersTo_renderLine {words : List Word}
    (refers : ∀ word ∈ words, RefersTo known word.render.toList) :
    RefersTo known (renderLine words).toList := by
  refine .intercalate fun part member => ?_
  obtain ⟨word, inside, rfl⟩ := List.mem_map.mp member
  exact refers word inside

/-- Indented rows refer to what they refer to without their indentation. -/
theorem refersTo_indented {entries : List String}
    (refers : ∀ entry ∈ entries, RefersTo known entry.toList) :
    RefersTo known (indented entries).toList := by
  have rows : ∀ row ∈ entries.flatMap Text.linesOf, RefersTo known row.toList := by
    intro row member token found rest reference
    obtain ⟨entry, inside, member⟩ := List.mem_flatMap.mp member
    obtain ⟨line, split, rfl⟩ := List.mem_map.mp member
    rw [String.toList_ofList] at found
    exact refers entry inside token (tokens_subset_of_mem_lines split found) rest reference
  unfold indented
  generalize entries.flatMap Text.linesOf = lines at rows ⊢
  induction lines with
  | nil => exact .of_noColon (by decide)
  | cons row others ih =>
    have first := rows row List.mem_cons_self
    have rest := ih fun other member => rows other (List.mem_cons_of_mem row member)
    rw [List.map_cons, String.join_cons, String.toList_append, String.toList_append,
      String.toList_append, List.append_assoc, List.append_assoc]
    exact .prepend (show "  ".toList.all isDelimiter = true by decide)
      (.append_cons (show isDelimiter '\n' = true by decide) first rest)

/-- A key with rows refers to what the texts of the words in the rows refer to. -/
theorem refersTo_tableText {key : String} {rows : List (List Word)} (noColon : ':' ∉ key.toList)
    (refers : ∀ row ∈ rows, ∀ word ∈ row, RefersTo known word.render.toList) :
    RefersTo known (tableText key (rows.map renderLine)).toList := by
  have inner : RefersTo known (indented (rows.map renderLine)).toList := by
    refine refersTo_indented fun row member => ?_
    obtain ⟨words, inside, rfl⟩ := List.mem_map.mp member
    exact refersTo_renderLine (refers words inside)
  have ended := RefersTo.append (show "\x7d".toList.all isDelimiter = true by decide) inner
  show RefersTo known (key ++ " \x7b\n" ++ indented (rows.map renderLine) ++ "\x7d").toList
  rw [String.toList_append, String.toList_append, String.toList_append, List.append_assoc,
    List.append_assoc]
  exact .append_cons (show isDelimiter ' ' = true by decide) (.of_noColon noColon)
    (.prepend (show "\x7b\n".toList.all isDelimiter = true by decide) ended)

/-- The text of an entry refers to what the entry refers to. -/
theorem Entry.refersTo_render {entry : Entry} (resolves : entry.Resolves known) :
    RefersTo known entry.render.toList := by
  cases entry with
  | line words =>
    exact refersTo_renderLine fun word member => Word.refersTo_render (resolves word member)
  | table key rows =>
    exact refersTo_tableText resolves.1 fun row member word inside =>
      Word.refersTo_render (resolves.2 row member word inside)

/-- The label of a block: its class and its instance name. -/
def label (className : String) (instanceName : Option String) : String :=
  match instanceName with
  | some name => className ++ ":" ++ name
  | none => className

/-- A label is one token that begins with the class. -/
theorem refersTo_label {className : String} {instanceName : Option String}
    (ofClass : Text.isIdentifier className = true)
    (named : ∀ name ∈ instanceName, Text.isIdentifier name = true) :
    RefersTo known (label className instanceName).toList := by
  have noColon : ':' ∉ className.toList := Text.noColon_of_isIdentifier ofClass
  cases instanceName with
  | none => exact .of_noColon noColon
  | some name =>
    have solid : ∀ c ∈ (className ++ ":" ++ name).toList, isDelimiter c = false := by
      intro c member
      rw [String.toList_append, String.toList_append] at member
      rcases List.mem_append.mp member with member | member
      · rcases List.mem_append.mp member with member | member
        · exact isDelimiter_of_isNameChar (Text.isNameChar_of_mem ofClass member)
        · rw [List.mem_singleton.mp member]
          decide
      · exact isDelimiter_of_isNameChar (Text.isNameChar_of_mem (named name rfl) member)
    refine .of_solid solid ?_
    show (className ++ ":" ++ name).toList.head? ≠ some ':'
    rw [String.toList_append, String.toList_append, List.append_assoc, List.head?_append]
    cases start : className.toList with
    | nil => exact absurd start (Text.toList_ne_nil ofClass)
    | cons first others =>
      rw [List.head?_cons, Option.some_or]
      rintro ⟨rfl⟩
      exact noColon (start ▸ List.mem_cons_self)

/-- The text of a block refers to what its options refer to. -/
theorem refersTo_blockText {className : String} {instanceName : Option String}
    {entries : List String} (ofClass : Text.isIdentifier className = true)
    (named : ∀ name ∈ instanceName, Text.isIdentifier name = true)
    (refers : ∀ entry ∈ entries, RefersTo known entry.toList) :
    RefersTo known (blockText className instanceName entries).toList := by
  have head : RefersTo known (label className instanceName).toList := refersTo_label ofClass named
  have specify : RefersTo known "Specify".toList := .of_noColon (by decide)
  show RefersTo known (if entries.isEmpty then
    "Specify " ++ label className instanceName ++ " \x7b\x7d\n\n"
    else "Specify " ++ label className instanceName ++ " \x7b\n" ++ indented entries ++
      "\x7d\n\n").toList
  have start : RefersTo known ("Specify " ++ label className instanceName).toList := by
    rw [String.toList_append]
    exact .append_cons (show isDelimiter ' ' = true by decide) specify head
  generalize "Specify " ++ label className instanceName = front at start ⊢
  split
  · rw [String.toList_append]
    exact .append (show " \x7b\x7d\n\n".toList.all isDelimiter = true by decide) start
  · rw [String.toList_append, String.toList_append, String.toList_append, List.append_assoc,
      List.append_assoc]
    have rows := RefersTo.append (show "\x7d\n\n".toList.all isDelimiter = true by decide)
      (refersTo_indented refers)
    exact .append_cons (show isDelimiter ' ' = true by decide) start
      (.prepend (show "\x7b\n".toList.all isDelimiter = true by decide) rows)

/-- The text of a procedure refers to nothing. -/
theorem Procedure.refersTo_render {procedure : Procedure} (resolves : procedure.Resolves) :
    RefersTo known procedure.render.toList := by
  have head : RefersTo known ("proc " ++ procedure.name).toList := by
    refine .of_noColon ?_
    simp [String.toList_append, resolves.name]
  have parameters : RefersTo known (braced (" " ++ procedure.parameters ++ " ")).toList := by
    refine refersTo_braced (.of_noColon ?_)
    simp [String.toList_append, resolves.parameters]
  have body : RefersTo known (indented procedure.body).toList :=
    refersTo_indented fun line member => .of_noColon (resolves.body line member)
  unfold Procedure.render
  generalize "proc " ++ procedure.name = front at head ⊢
  generalize braced (" " ++ procedure.parameters ++ " ") = middle at parameters ⊢
  rw [String.toList_append, String.toList_append, String.toList_append, String.toList_append,
    String.toList_append, List.append_assoc, List.append_assoc, List.append_assoc,
    List.append_assoc]
  have ended := RefersTo.append (show "\x7d\n\n".toList.all isDelimiter = true by decide) body
  have opened := RefersTo.prepend (show "\x7b\n".toList.all isDelimiter = true by decide) ended
  exact .append_cons (show isDelimiter ' ' = true by decide) head
    (.append_cons (show isDelimiter ' ' = true by decide) parameters opened)

/-- The general options refer to nothing. -/
theorem noColon_optionsText {basename : String} {format : FieldFormat}
    (noColon : ':' ∉ basename.toList) : ':' ∉ (Item.optionsText basename format).toList := by
  have engine : ':' ∉ (braced format.engineOption).toList := by
    cases format <;> decide
  unfold Item.optionsText
  generalize braced format.engineOption = option at engine ⊢
  simp [String.toList_append, noColon, engine]

/-- A destination refers to nothing. -/
theorem noColon_destination {name : String} (noColon : ':' ∉ name.toList) :
    ':' ∉ (Item.destination name).render.toList := by
  unfold Item.render
  simp [String.toList_append, noColon]

/-- The text of an item refers to what the item refers to. -/
theorem Item.refersTo_render {item : Item} (resolves : item.Resolves known) :
    RefersTo known item.render.toList := by
  cases item with
  | options basename format => exact .of_noColon (noColon_optionsText resolves)
  | block b =>
    refine refersTo_blockText resolves.className resolves.instanceName fun entry member => ?_
    obtain ⟨entry, inside, rfl⟩ := List.mem_map.mp member
    exact Entry.refersTo_render (resolves.entries entry inside)
  | procedure p => exact Procedure.refersTo_render resolves
  | destination name => exact .of_noColon (noColon_destination resolves)
  | schedule output target event =>
    obtain ⟨⟨first, solid⟩, targetNamed, eventNamed⟩ := resolves
    have written : RefersTo known output.toList := .of_solid solid first
    have noTarget := Text.noColon_of_isIdentifier targetNamed
    have noEvent := Text.noColon_of_isIdentifier eventNamed
    have start : RefersTo known "Schedule".toList := .of_noColon (by decide)
    have tail : RefersTo known (target ++ " " ++ event ++ " 1\n").toList := by
      refine .of_noColon ?_
      simp [String.toList_append, noTarget, noEvent]
    have parts : (Item.schedule output target event).render =
        "Schedule" ++ " " ++ (output ++ " " ++ (target ++ " " ++ event ++ " 1\n")) := by
      unfold Item.render
      simp only [String.append_assoc]
      rfl
    rw [parts, String.toList_append, String.toList_append, String.toList_append,
      String.toList_append, List.append_assoc, List.append_assoc]
    exact .append_cons (show isDelimiter ' ' = true by decide) start
      (.append_cons (show isDelimiter ' ' = true by decide) written tail)
  | blank => exact .of_noColon (by decide)
  | verbatim text => exact absurd resolves not_false

/-- A text ends as its last part ends. -/
theorem getLast?_toList_append {front last : String} {c : Char}
    (ends : last.toList.getLast? = some c) : (front ++ last).toList.getLast? = some c := by
  rw [String.toList_append, List.getLast?_append, ends]
  rfl

/-- The text of an item ends in a line feed if the caller's text does. -/
theorem Item.getLast?_render_of_verbatim {item : Item}
    (ended : ∀ text, item = .verbatim text → text.toList.getLast? = some '\n') :
    item.render.toList.getLast? = some '\n' := by
  cases item with
  | options basename format => exact getLast?_toList_append (by decide)
  | block b =>
    show (if (b.entries.map Entry.render).isEmpty then
      "Specify " ++ label b.className b.instanceName ++ " \x7b\x7d\n\n"
      else "Specify " ++ label b.className b.instanceName ++ " \x7b\n" ++
        indented (b.entries.map Entry.render) ++ "\x7d\n\n").toList.getLast? = _
    split
    · exact getLast?_toList_append (by decide)
    · exact getLast?_toList_append (by decide)
  | procedure p => exact getLast?_toList_append (by decide)
  | destination name => exact getLast?_toList_append (by decide)
  | schedule output target event => exact getLast?_toList_append (by decide)
  | blank => decide
  | verbatim text => exact ended text rfl

/-- The text of an item that resolves ends in a line feed. -/
theorem Item.getLast?_render {item : Item} (resolves : item.Resolves known) :
    item.render.toList.getLast? = some '\n' := by
  refine getLast?_render_of_verbatim fun text same => ?_
  rw [same] at resolves
  exact absurd resolves not_false

/-- The text of items is the text of the first and the text of the others. -/
theorem toList_render_cons {item : Item} {rest : List Item} :
    (render (item :: rest)).toList = item.render.toList ++ (render rest).toList := by
  unfold render
  rw [List.map_cons, String.join_cons, String.toList_append]

/-- The text of items one after the other. -/
theorem toList_render_append {items after : List Item} :
    (render (items ++ after)).toList = (render items).toList ++ (render after).toList := by
  unfold render
  rw [List.map_append, String.join_append, String.toList_append]

/-- A token of the text of a script is a token of the text of one of its items. -/
theorem item_of_token {items : List Item} {before token after : List Char}
    (ended : ∀ item ∈ items, item.render.toList.getLast? = some '\n')
    (solid : ∀ c ∈ token, isDelimiter c = false) (some : token ≠ [])
    (text : (render items).toList = before ++ (token ++ after)) :
    ∃ earlier item later start stop, items = earlier ++ item :: later ∧
      before = (render earlier).toList ++ start ∧
      item.render.toList = start ++ token ++ stop ∧ stop.head? = after.head? := by
  induction items generalizing before with
  | nil =>
    have empty : [] = before ++ (token ++ after) := text
    exact absurd (List.append_eq_nil_iff.mp (List.append_eq_nil_iff.mp empty.symm).2).1 some
  | cons item rest ih =>
    rw [toList_render_cons] at text
    have further (behind : List Char) (place : before = item.render.toList ++ behind)
        (tail : (render rest).toList = behind ++ (token ++ after)) :
        ∃ earlier found later start stop, item :: rest = earlier ++ found :: later ∧
          before = (render earlier).toList ++ start ∧
          found.render.toList = start ++ token ++ stop ∧ stop.head? = after.head? := by
      obtain ⟨earlier, found, later, start, stop, items, behind, inside, boundary⟩ :=
        ih (fun other member => ended other (List.mem_cons_of_mem item member)) tail
      refine ⟨item :: earlier, found, later, start, stop, by rw [items]; rfl, ?_, inside, boundary⟩
      rw [place, behind, toList_render_cons, List.append_assoc]
    rcases List.append_eq_append_iff.mp text with ⟨behind, place, tail⟩ | ⟨inner, place, tail⟩
    · exact further behind place tail
    · by_cases nothing : inner = []
      · rw [nothing, List.append_nil] at place
        rw [nothing, List.nil_append] at tail
        exact further [] (by rw [place, List.append_nil]) tail.symm
      · -- the token begins in this item, whose line feed it cannot reach
        have feed : '\n' ∈ inner := by
          have last := ended item List.mem_cons_self
          rw [place, List.getLast?_append] at last
          cases ends : inner.getLast? with
          | none => exact absurd (List.getLast?_eq_none_iff.mp ends) nothing
          | some c =>
            rw [ends, Option.some_or] at last
            exact List.mem_of_getLast? (ends.trans last)
        have notFeed : '\n' ∉ token := by
          intro member
          have other := solid _ member
          rw [show isDelimiter '\n' = true by decide] at other
          cases other
        rcases List.append_eq_append_iff.mp tail with ⟨stop, split, tail⟩ | ⟨c, split, _⟩
        · refine ⟨[], item, rest, before, stop, rfl, rfl, ?_, ?_⟩
          · rw [place, split, List.append_assoc]
          · cases stop with
            | nil =>
              rw [List.append_nil] at split
              exact absurd (split ▸ feed) notFeed
            | cons first others => rw [tail]; rfl
        · rw [split] at notFeed
          exact absurd (List.mem_append_left c feed) notFeed

/-- The items of a script that resolves, one by one. -/
theorem Resolves.item {items later : List Item} {earlier : List Item} {item : Item}
    (resolves : Resolves known items) (split : items = earlier ++ item :: later) :
    item.Resolves (known ++ instances earlier) := by
  rw [split, resolves_append] at resolves
  exact resolves.2.1

/-- The blocks of items are those items that are blocks. -/
theorem mem_blocks {items : List Item} {block : Block} :
    block ∈ blocks items ↔ .block block ∈ items := by
  unfold blocks
  rw [List.mem_filterMap]
  constructor
  · rintro ⟨item, member, same⟩
    cases item with
    | block b => exact Option.some.inj same ▸ member
    | options | procedure | destination | schedule | blank | verbatim => cases same
  · exact fun member => ⟨_, member, rfl⟩

/-- A name that items declare is that of a block among them. -/
theorem exists_block_of_mem_instances {items : List Item} {name : String}
    (declared : name ∈ instances items) :
    ∃ block, .block block ∈ items ∧ block.instanceName = some name := by
  obtain ⟨block, member, named⟩ := List.mem_filterMap.mp declared
  exact ⟨block, mem_blocks.mp member, named⟩

/-- The text of an item is a part of the text of the items. -/
theorem infix_of_mem {items : List Item} {item : Item} (member : item ∈ items) :
    item.render.toList <:+: (render items).toList := by
  induction items with
  | nil => exact absurd member List.not_mem_nil
  | cons first rest ih =>
    rw [toList_render_cons]
    rcases List.mem_cons.mp member with rfl | member
    · exact (List.prefix_append _ _).isInfix
    · exact (ih member).trans (List.suffix_append _ _).isInfix

/-- In the text of items that resolve, a token that refers to an object refers to what is known, or it
stands behind the whole text of a block that declares the object. -/
theorem Resolves.known_or_declared_before {items : List Item} (resolves : Resolves known items)
    {before name after : List Char}
    (text : (render items).toList = before ++ (':' :: name) ++ after)
    (start : ∀ c ∈ before.getLast?, isDelimiter c = true)
    (solid : ∀ c ∈ name, isDelimiter c = false) (stop : ∀ c ∈ after.head?, isDelimiter c = true) :
    String.ofList name ∈ known ∨
      ∃ block, .block block ∈ items ∧ block.instanceName = some (String.ofList name) ∧
        block.render.toList <:+: before := by
  have ended : ∀ item ∈ items, item.render.toList.getLast? = some '\n' := by
    intro item member
    obtain ⟨earlier, later, split⟩ := List.append_of_mem member
    exact Item.getLast?_render (resolves.item split)
  have whole : ∀ c ∈ ':' :: name, isDelimiter c = false :=
    List.forall_mem_cons.mpr ⟨by decide, solid⟩
  rw [List.append_assoc] at text
  obtain ⟨earlier, item, later, front, back, split, place, inside, boundary⟩ :=
    item_of_token ended whole (List.cons_ne_nil _ _) text
  have started : ∀ c ∈ front.getLast?, isDelimiter c = true := by
    intro c last
    refine start c ?_
    rw [place, List.getLast?_append, Option.mem_def.mp last]
    rfl
  have member : ':' :: name ∈ tokens item.render.toList := by
    rw [inside]
    exact mem_tokens whole (List.cons_ne_nil _ _) started (boundary ▸ stop)
  have declared : String.ofList name ∈ known ++ instances earlier :=
    Item.refersTo_render (resolves.item split) _ member name rfl
  refine (List.mem_append.mp declared).imp_right fun declared => ?_
  obtain ⟨block, member, named⟩ := exists_block_of_mem_instances declared
  refine ⟨block, split ▸ List.mem_append_left _ member, named, ?_⟩
  rw [place]
  exact (infix_of_mem member).trans (List.prefix_append _ _).isInfix

/-- In the text of a script that resolves, a token that refers to an object stands behind the whole
text of a block that declares the object. -/
theorem Resolves.declared_before {items : List Item} (resolves : Resolves [] items)
    {before name after : List Char}
    (text : (render items).toList = before ++ (':' :: name) ++ after)
    (start : ∀ c ∈ before.getLast?, isDelimiter c = true)
    (solid : ∀ c ∈ name, isDelimiter c = false) (stop : ∀ c ∈ after.head?, isDelimiter c = true) :
    ∃ block, .block block ∈ items ∧ block.instanceName = some (String.ofList name) ∧
      block.render.toList <:+: before :=
  (resolves.known_or_declared_before text start solid stop).resolve_left List.not_mem_nil

end Micromag.Script
