import Micromag.Proofs.Result
import Micromag.Proofs.Script.Nesting
import Micromag.Proofs.Table.Rendering

/-!
# Every text of a table is read

Lines are read up to the blanks around them, so that it does not matter how they end. A field is
complete at the first blank at which no brace is open; since braces balance in it, no blank and no
brace inside ends it early. A row is read word by word, and what holds no row is passed over.
-/

namespace Micromag.Table

open Text

/-- The lines that a text consists of are read up to the blanks around them. -/
theorem Consists.trim_lines {text : List Char} {lines : List (List Char)}
    (consists : Consists text lines) : (Text.lines text).map trim = lines.map trim := by
  induction consists with
  | nil => rfl
  | last one filled => rw [lines_of_notMem one filled]
  | lineFeed one _ ih => rw [lines_append_cons one, List.map_cons, List.map_cons, trim_dropReturn, ih]
  | @both line rest lines one _ ih =>
    have whole : '\n' ∉ line ++ ['\r'] := by
      simp [one]
    have returned : dropReturn (line ++ ['\r']) = line := by
      unfold dropReturn
      rw [List.getLast?_concat, if_pos rfl, List.dropLast_concat]
    rw [List.append_cons line '\r', lines_append_cons whole, returned, List.map_cons,
      List.map_cons, ih]

variable {line core : List Char}

/-- What a line holds between visible characters is what is left of it. -/
theorem Holds.trim_eq (holds : Holds line core) (first : ∀ c ∈ core.head?, isBlank c = false)
    (last : ∀ c ∈ core.getLast?, isBlank c = false) : trim line = core := by
  obtain ⟨front, back, frontBlank, backBlank, rfl⟩ := holds
  rw [trim_append_blanks backBlank, trim_blanks_append frontBlank, trim_of_ends first last]

/-- A text begins and ends with visible characters. -/
structure Firm (text : List Char) : Prop where
  /-- There is something in it. -/
  filled : text ≠ []
  /-- The first character is visible. -/
  first : ∀ c ∈ text.head?, isBlank c = false
  /-- The last character is visible. -/
  last : ∀ c ∈ text.getLast?, isBlank c = false

/-- A text of visible characters is firm. -/
theorem Firm.of_visible {text : List Char} (filled : text ≠ [])
    (visible : ∀ c ∈ text, isBlank c = false) : Firm text :=
  ⟨filled, fun c member => visible c (List.mem_of_mem_head? member),
    fun c member => visible c (List.mem_of_mem_getLast? member)⟩

/-- A text that begins like a firm one and ends like a firm one is firm. -/
theorem Firm.append {text middle rest : List Char} (firm : Firm text) (others : Firm rest) :
    Firm (text ++ middle ++ rest) := by
  refine ⟨?_, ?_, ?_⟩
  · simp [firm.filled]
  · rw [List.append_assoc, List.head?_append_of_ne_nil _ firm.filled]
    exact firm.first
  · rw [List.getLast?_append_of_ne_nil _ others.filled]
    exact others.last

/-- Values that are written firmly are so one after the other. -/
theorem Spaced.firm {α : Type} {writes : α → List Char → Prop} {values : List α}
    {text : List Char} (spaced : Spaced writes values text)
    (each : ∀ value text, writes value text → Firm text) : Firm text := by
  induction spaced with
  | last written => exact each _ _ written
  | cons written _ _ _ ih => exact (each _ _ written).append ih

/-- A field is firm. -/
theorem WritesField.firm {name : String} {text : List Char} (writes : WritesField name text) :
    Firm text := by
  cases writes with
  | braced balanced =>
    refine ⟨List.cons_ne_nil _ _, ?_, ?_⟩
    · rintro c ⟨rfl⟩
      decide
    · rw [← List.cons_append, List.getLast?_concat]
      rintro c ⟨rfl⟩
      decide
  | bare filled plain =>
    refine .of_visible (fun empty => filled (String.toList_eq_nil_iff.mp empty)) ?_
    exact fun c member => (plain c member).1

/-- A number is firm. -/
theorem WritesNumber.firm {x : Float} {word : List Char} (writes : WritesNumber x word) :
    Firm word := .of_visible writes.filled writes.visible

/-- Between fields. -/
def HeaderScan.between (fields : List (List Char)) : HeaderScan := { fields := fields }

/-- In or behind a field that is not ended, with no brace open. -/
def HeaderScan.behind (fields : List (List Char)) (current : List Char) : HeaderScan :=
  { fields := fields, current := current, inField := true }

/-- In a field with a brace open, and perhaps more of them. -/
def HeaderScan.within (fields : List (List Char)) (current : List Char) (more : Nat) :
    HeaderScan := ⟨fields, current, more + 1, true⟩

variable {fields : List (List Char)} {gap : List Char}

/-- In a field with a brace open every character belongs to the field, and braces are counted. -/
theorem step_within {depth next : Nat} {c : Char} (steps : Script.stepDepth? depth c = some next)
    (current : List Char) :
    HeaderScan.step (.within fields current depth) c = .within fields (c :: current) next := by
  by_cases opens : c = '\x7b'
  · subst opens
    obtain rfl : depth + 1 = next := Option.some.inj steps
    rfl
  · by_cases closes : c = '\x7d'
    · subst closes
      cases depth with
      | zero => cases steps
      | succ depth =>
        obtain rfl : depth = next := Option.some.inj steps
        rfl
    · rw [Script.stepDepth?_of_notBrace (by simp [Script.isBrace, opens, closes])] at steps
      obtain rfl : depth = next := Option.some.inj steps
      unfold HeaderScan.step HeaderScan.within
      rw [if_neg opens, if_neg (by simp [closes]), if_neg (by simp)]
      rfl

/-- So a text goes to the field when its braces can be counted. -/
theorem foldl_within {text : List Char} {depth last : Nat}
    (counted : Script.depthAfter? depth text = some last) (current : List Char) :
    text.foldl HeaderScan.step (.within fields current depth) =
      .within fields (text.reverse ++ current) last := by
  induction text generalizing depth current with
  | nil =>
    rw [Option.some.inj counted]
    rfl
  | cons c rest ih =>
    rw [Script.depthAfter?_cons] at counted
    obtain ⟨next, steps, counted⟩ := Option.bind_eq_some_iff.mp counted
    rw [List.foldl_cons, step_within steps, ih counted]
    simp

/-- Balanced braces leave the depth. -/
theorem Balanced.depthAfter? {text : List Char} (balanced : Balanced text) (depth : Nat) :
    Script.depthAfter? depth text = some depth := by
  induction balanced generalizing depth with
  | nil => rfl
  | cons notOpening notClosing _ ih =>
    rw [Script.depthAfter?_cons,
      Script.stepDepth?_of_notBrace (by simp [Script.isBrace, notOpening, notClosing])]
    exact ih depth
  | @group inner rest _ _ inside behind =>
    show Script.depthAfter? (depth + 1) (inner ++ '\x7d' :: rest) = some depth
    rw [Script.depthAfter?_append, inside]
    exact behind depth

/-- A text with balanced braces goes to the field if a brace is open, and as many are open behind
it. -/
theorem Balanced.foldl_step {text : List Char} (balanced : Balanced text) (current : List Char)
    (more : Nat) : text.foldl HeaderScan.step (.within fields current more) =
      .within fields (text.reverse ++ current) more :=
  foldl_within (balanced.depthAfter? more) current

/-- Visible characters that are no braces go to the field in which they stand. -/
theorem foldl_plain {text : List Char}
    (plain : ∀ c ∈ text, isBlank c = false ∧ c ≠ '\x7b' ∧ c ≠ '\x7d') (current : List Char) :
    text.foldl HeaderScan.step (.behind fields current) =
      .behind fields (text.reverse ++ current) := by
  induction text generalizing current with
  | nil => rfl
  | cons c rest ih =>
    obtain ⟨⟨visible, notOpening, notClosing⟩, others⟩ := List.forall_mem_cons.mp plain
    have pushed : HeaderScan.step (.behind fields current) c = .behind fields (c :: current) := by
      unfold HeaderScan.step HeaderScan.behind
      rw [if_neg notOpening, if_neg (by simp), if_neg (by simp [visible])]
      rfl
    rw [List.foldl_cons, pushed, ih others]
    simp

/-- A field is read up to its end. -/
theorem WritesField.foldl_step {name : String} {text : List Char}
    (writes : WritesField name text) :
    text.foldl HeaderScan.step (.between fields) = .behind fields name.toList.reverse := by
  cases writes with
  | braced balanced =>
    have opened : HeaderScan.step (.between fields) '\x7b' = .within fields [] 0 := rfl
    have closed : HeaderScan.step (.within fields name.toList.reverse 0) '\x7d' =
        .behind fields name.toList.reverse := rfl
    rw [List.foldl_cons, opened, List.foldl_append, balanced.foldl_step, List.append_nil,
      List.foldl_cons, closed]
    rfl
  | bare filled plain =>
    obtain ⟨c, rest, start⟩ : ∃ c rest, name.toList = c :: rest :=
      List.exists_cons_of_ne_nil fun empty => filled (String.toList_eq_nil_iff.mp empty)
    rw [start] at plain ⊢
    obtain ⟨⟨visible, notOpening, _⟩, others⟩ := List.forall_mem_cons.mp plain
    have begun : HeaderScan.step (.between fields) c = .behind fields [c] := by
      unfold HeaderScan.step HeaderScan.between
      rw [if_neg notOpening, if_neg (by simp), if_neg (by simp [visible])]
      rfl
    rw [List.foldl_cons, begun, foldl_plain others, List.reverse_cons]

/-- Blanks between fields change nothing. -/
theorem foldl_blanks (blanks : Blanks gap) :
    gap.foldl HeaderScan.step (.between fields) = .between fields := by
  induction gap with
  | nil => rfl
  | cons c rest ih =>
    obtain ⟨first, others⟩ := List.forall_mem_cons.mp blanks
    have kept : HeaderScan.step (.between fields) c = .between fields := by
      have notOpening : c ≠ '\x7b' := by
        rintro rfl
        exact absurd first (by decide)
      unfold HeaderScan.step HeaderScan.between
      rw [if_neg notOpening, if_neg (by simp), if_pos (by simp [first])]
      rfl
    rw [List.foldl_cons, kept, ih others]

/-- Blanks end a field. -/
theorem foldl_gap {current : List Char} (blanks : Blanks gap) (some : gap ≠ []) :
    gap.foldl HeaderScan.step (.behind fields current) = .between (current.reverse :: fields) := by
  cases gap with
  | nil => exact absurd rfl some
  | cons c rest =>
    obtain ⟨first, others⟩ := List.forall_mem_cons.mp blanks
    have ended : HeaderScan.step (.behind fields current) c =
        .between (current.reverse :: fields) := by
      have notOpening : c ≠ '\x7b' := by
        rintro rfl
        exact absurd first (by decide)
      unfold HeaderScan.step HeaderScan.behind HeaderScan.finish
      rw [if_neg notOpening, if_neg (by simp), if_pos (by simp [first]), if_pos rfl]
      rfl
    rw [List.foldl_cons, ended, foldl_blanks others]

/-- Names that are written one after the other are the fields. -/
theorem Spaced.foldl_step {names : List String} {text : List Char}
    (spaced : Spaced WritesField names text) :
    (text.foldl HeaderScan.step (.between fields)).finish.fields =
      (names.map String.toList).reverse ++ fields := by
  induction spaced generalizing fields with
  | last written =>
    rw [written.foldl_step]
    unfold HeaderScan.behind HeaderScan.finish
    rw [if_pos rfl, List.reverse_reverse]
    rfl
  | cons written blanks some _ ih =>
    rw [List.append_assoc, List.foldl_append, List.foldl_append, written.foldl_step,
      foldl_gap blanks some, ih]
    simp

/-- The fields of a header are the names that are written in it. -/
theorem splitHeader_eq {lead text : List Char} {names : List String} (blanks : Blanks lead)
    (spaced : Spaced WritesField names text) :
    (splitHeader (lead ++ text)).map String.ofList = names := by
  unfold splitHeader
  show ((((lead ++ text).foldl HeaderScan.step (.between [])).finish).fields.reverse).map
    String.ofList = names
  rw [List.foldl_append, foldl_blanks blanks, spaced.foldl_step, List.append_nil,
    List.reverse_reverse, List.map_map]
  simp [Function.comp_def]

variable {keyword : String}

/-- A start is found in front of anything. -/
theorem after?_append (start rest : List Char) : after? start (start ++ rest) = some rest := by
  unfold after?
  rw [if_pos (List.isPrefixOf_iff_prefix.mpr (List.prefix_append start rest)), List.drop_left]

/-- A start that is found is in front of what is left. -/
theorem eq_append_of_after? {start text rest : List Char} (found : after? start text = some rest) :
    text = start ++ rest := by
  unfold after? at found
  split at found
  · rename_i begins
    obtain ⟨behind, rfl⟩ := List.isPrefixOf_iff_prefix.mp begins
    rw [List.drop_left] at found
    rw [Option.some.inj found]
  · cases found

/-- What stands behind the keyword of a header is read as the fields, without a colon. -/
theorem after?_colon {colon lead text : List Char} (blanks : Blanks lead)
    (either : colon = [':'] ∨ colon = [] ∧ lead ≠ []) :
    (after? [':'] (colon ++ lead ++ text)).getD (colon ++ lead ++ text) = lead ++ text := by
  rcases either with rfl | ⟨rfl, some⟩
  · rw [List.append_assoc, after?_append]
    rfl
  · obtain ⟨c, others, rfl⟩ := List.exists_cons_of_ne_nil some
    have other : c ≠ ':' := by
      rintro rfl
      exact absurd (blanks ':' List.mem_cons_self) (by decide)
    have unfound : after? [':'] ([] ++ c :: others ++ text) = none := by
      unfold after?
      rw [if_neg]
      simpa [List.isPrefixOf] using other.symm
    rw [unfound]
    rfl

/-- The names in a header line are found. -/
theorem header?_of_writes {names : List String} (writes : WritesHeader keyword names line)
    (firm : Firm keyword.toList) : header? keyword line = some names := by
  obtain ⟨gap, colon, lead, fields, gapBlank, leadBlank, spaced, either, holds⟩ := writes
  obtain ⟨c, others, start⟩ := List.exists_cons_of_ne_nil firm.filled
  have visible : isBlank c = false := firm.first c (by rw [start]; rfl)
  -- the hash is in front and a field at the end, and both are visible
  have whole : Firm (['#'] ++ (gap ++ keyword.toList ++ colon ++ lead) ++ fields) :=
    (Firm.of_visible (List.cons_ne_nil _ _) (List.forall_mem_singleton.mpr (by decide))).append
      (spaced.firm fun _ _ => WritesField.firm)
  rw [List.singleton_append] at whole
  have trimmed := holds.trim_eq whole.first whole.last
  have started : trimStart (gap ++ keyword.toList ++ colon ++ lead ++ fields) =
      keyword.toList ++ (colon ++ lead ++ fields) := by
    have front : trimStart (gap ++ (keyword.toList ++ (colon ++ lead ++ fields))) =
        trimStart (keyword.toList ++ (colon ++ lead ++ fields)) :=
      List.dropWhile_append_of_pos gapBlank
    rw [start] at front ⊢
    simp only [List.append_assoc] at front ⊢
    rw [front]
    exact trimStart_cons visible
  unfold header?
  rw [trimmed, show after? ['#'] ('#' :: (gap ++ keyword.toList ++ colon ++ lead ++ fields)) =
    some (gap ++ keyword.toList ++ colon ++ lead ++ fields) from after?_append ['#'] _]
  show ((after? keyword.toList (trimStart (gap ++ keyword.toList ++ colon ++ lead ++ fields))).bind
    fun rest => some ((splitHeader ((after? [':'] rest).getD rest)).map String.ofList)) = some names
  rw [started, after?_append, Option.bind_some, after?_colon leadBlank either,
    splitHeader_eq leadBlank spaced]

/-- A line in which names are found announces them. -/
theorem announces_of_header? {names : List String} (found : header? keyword line = some names) :
    Announces keyword line := by
  obtain ⟨rest, hash, found⟩ := Option.bind_eq_some_iff.mp found
  obtain ⟨behind, named, _⟩ := Option.bind_eq_some_iff.mp found
  obtain ⟨front, frontBlank, split⟩ := exists_blanks_trimStart line
  obtain ⟨back, _, ended⟩ := exists_trimEnd_blanks (trimStart line)
  obtain ⟨gap, gapBlank, started⟩ := exists_blanks_trimStart rest
  have trimmed : trimEnd (trimStart line) = ['#'] ++ rest := eq_append_of_after? hash
  refine ⟨front, gap, behind ++ back, frontBlank, gapBlank, ?_⟩
  rw [← split, ← ended, trimmed, ← started, eq_append_of_after? named]
  simp

/-- The names in a header line are found in every line that is the same up to blanks around it. -/
theorem header?_congr {other : List Char} (same : trim line = trim other) :
    header? keyword line = header? keyword other := by
  unfold header?
  rw [same]

/-- The columns are found behind lines that do not announce them. -/
theorem findColumns?_append {preamble rest : List (List Char)} {columns : List String}
    (silent : ∀ line ∈ preamble, header? "Columns" line = none)
    (found : header? "Columns" line = some columns) (number : Nat) :
    findColumns? number (preamble ++ line :: rest) =
      some (columns, number + preamble.length + 1, rest) := by
  induction preamble generalizing number with
  | nil =>
    rw [List.nil_append, findColumns?, found]
    rfl
  | cons first others ih =>
    obtain ⟨nothing, further⟩ := List.forall_mem_cons.mp silent
    rw [List.cons_append, findColumns?, nothing]
    dsimp only
    have passed : number + 1 + others.length + 1 = number + (others.length + 1) + 1 := by omega
    rw [ih further, passed, List.length_cons]

/-- No number begins with a hash. -/
theorem readFloat?_hash (rest : List Char) : readFloat? ('#' :: rest) = none := by
  have lower : Char.toLower '#' = '#' := by decide
  have noDigit : isDigit '#' = false := by decide
  have noDecimal : readDecimal? ('#' :: rest) = none := by
    unfold readDecimal?
    rw [List.takeWhile_cons_of_neg (by simp [noDigit]), List.dropWhile_cons_of_neg (by simp [noDigit])]
    rfl
  have word : ('#' :: rest).map Char.toLower = '#' :: rest.map Char.toLower := by
    rw [List.map_cons, lower]
  unfold readFloat?
  rw [show splitSign ('#' :: rest) = (false, '#' :: rest) from rfl]
  dsimp only
  rw [word, noDecimal, if_neg (by simp), if_neg (by simp)]
  rfl

/-- The words of numbers that are written one after the other are read as the numbers. -/
theorem Spaced.mapM_words {row : List Float} {text : List Char} {ε : Type}
    {read : List Char → Except ε Float} (spaced : Spaced WritesNumber row text)
    (reads : ∀ word x, readFloat? word = some x → read word = .ok x) :
    (words text).mapM read = .ok row := by
  induction spaced with
  | last written =>
    rw [words_of_visible written.filled written.visible, List.mapM_cons,
      reads _ _ written.read]
    rfl
  | @cons x word gap rest row written blanks some _ ih =>
    obtain ⟨c, others, rfl⟩ := List.exists_cons_of_ne_nil some
    obtain ⟨blank, further⟩ := List.forall_mem_cons.mp blanks
    have behind : words (others ++ rest) = words rest := by
      rw [← words_trim (others ++ rest), trim_blanks_append further, words_trim]
    rw [List.append_assoc, List.cons_append,
      words_visible_append written.filled written.visible blank, behind, List.mapM_cons,
      reads _ _ written.read, ih]
    rfl

/-- A line of numbers is read as a row of as many. -/
theorem readRow_of_writes {row : List Float} {text : List Char}
    (spaced : Spaced WritesNumber row text) (number : Nat) :
    readRow row.length number text = .ok row := by
  refine Result.bind_ok.mpr ⟨row, ?_, if_pos rfl⟩
  exact spaced.mapM_words fun word x value => by rw [value]

/-- A line of numbers is not skipped. -/
theorem isSkipped_of_writes {row : List Float} {text : List Char}
    (spaced : Spaced WritesNumber row text) : isSkipped text = false := by
  have begins : ∃ x word rest, WritesNumber x word ∧ text = word ++ rest := by
    cases spaced with
    | last written => exact ⟨_, text, [], written, (List.append_nil _).symm⟩
    | cons written => exact ⟨_, _, _, written, List.append_assoc _ _ _⟩
  obtain ⟨x, word, rest, written, rfl⟩ := begins
  obtain ⟨c, others, rfl⟩ := List.exists_cons_of_ne_nil written.filled
  have other : c ≠ '#' := by
    rintro rfl
    exact nomatch (readFloat?_hash others).symm.trans written.read
  simp [isSkipped, other]

/-- Rows are read from lines that are the same up to blanks around them. -/
theorem readRows_of_writes {rows : List (List Float)} {lines read : List (List Char)} {width : Nat}
    (writes : WritesRows rows lines) (wide : ∀ row ∈ rows, row.length = width)
    (same : read.map trim = lines.map trim) (number : Nat) :
    readRows width number read = .ok rows := by
  induction writes generalizing read number with
  | nil =>
    rw [List.map_eq_nil_iff.mp same]
    rfl
  | row written holds _ ih =>
    obtain ⟨first, others, rfl, trimmed, further⟩ := List.map_eq_cons_iff.mp same
    obtain ⟨rfl, later⟩ := List.forall_mem_cons.mp wide
    have firm := written.firm fun _ _ => WritesNumber.firm
    rw [holds.trim_eq firm.first firm.last] at trimmed
    unfold readRows
    dsimp only
    rw [trimmed, isSkipped_of_writes written, if_neg Bool.false_ne_true,
      readRow_of_writes written, ih later further]
    rfl
  | @blank line rows lines blanks _ ih =>
    obtain ⟨first, others, rfl, trimmed, further⟩ := List.map_eq_cons_iff.mp same
    have nothing : trim ([] ++ line) = trim [] := trim_append_blanks blanks
    rw [List.nil_append] at nothing
    unfold readRows
    dsimp only
    rw [trimmed, nothing, show isSkipped (trim []) = true from rfl, if_pos rfl, ih wide further]
  | @comment front text rows lines blanks _ ih =>
    obtain ⟨first, others, rfl, trimmed, further⟩ := List.map_eq_cons_iff.mp same
    have hash : trim (front ++ '#' :: text) = '#' :: trimEnd text := by
      rw [trim_blanks_append blanks, trim, trimStart_cons (by decide),
        trimEnd_cons_visible (by decide)]
    unfold readRows
    dsimp only
    rw [trimmed, hash, show isSkipped ('#' :: trimEnd text) = true from rfl, if_pos rfl,
      ih wide further]

/-- A text that stands for a table with as many units as columns, and as many values in every row,
is read as that table. -/
theorem parse_of_renders {table : Table} {text : String} (renders : Renders table text)
    (described : table.units.length = table.columns.length)
    (wide : ∀ row ∈ table.rows, row.length = table.columns.length) :
    parse text false = .ok table := by
  obtain ⟨preamble, columns, units, body, consists, silent, named, measured, filled⟩ := renders
  have trimmed := consists.trim_lines
  rw [List.map_append, List.map_cons, List.map_cons] at trimmed
  obtain ⟨front, rest, split, front_eq, rest_eq⟩ := List.map_eq_append_iff.mp trimmed
  obtain ⟨first, rest, rfl, first_eq, rest_eq⟩ := List.map_eq_cons_iff.mp rest_eq
  obtain ⟨second, rows, rfl, second_eq, rows_eq⟩ := List.map_eq_cons_iff.mp rest_eq
  have columnsFound : header? "Columns" first = some table.columns :=
    (header?_congr first_eq).trans (header?_of_writes named ⟨by decide, by decide, by decide⟩)
  have unitsFound : header? "Units" second = some table.units :=
    (header?_congr second_eq).trans (header?_of_writes measured ⟨by decide, by decide, by decide⟩)
  have unnamed : ∀ line ∈ front, header? "Columns" line = none := by
    intro line member
    have inside : trim line ∈ preamble.map trim := front_eq ▸ List.mem_map_of_mem member
    obtain ⟨other, written, same⟩ := List.mem_map.mp inside
    rw [← header?_congr same, Option.eq_none_iff_forall_ne_some]
    exact fun names found => silent other written (announces_of_header? found)
  have read := readRows_of_writes filled wide rows_eq
  have raw : parseRaw text = .ok table := by
    unfold parseRaw
    dsimp only
    rw [split, findColumns?_append unnamed columnsFound 0]
    dsimp only
    rw [unitsFound]
    dsimp only
    rw [if_neg (not_not.mpr described), read]
    rfl
  unfold parse
  rw [raw]
  rfl

/-- A table with a name in which braces stand, an empty name, and an empty unit. -/
def nestedTable : Table where
  columns := ["a \x7bb\x7d", "", "plain"]
  units := ["\x7b\x7d", "J/m", ""]
  rows := [[nearestFloat ⟨1, 0⟩, -nearestFloat ⟨25, 2⟩, nearestFloat ⟨30, -1⟩]]

/-- The line with the columns of the table. -/
def nestedColumns : List Char := "# Columns:\t\x7ba \x7bb\x7d\x7d \x7b\x7d plain".toList

/-- The line with the units of the table. -/
def nestedUnits : List Char := "\t#Units \x7b\x7b\x7d\x7d J/m \x7b\x7d ".toList

/-- A text of the table: line ends of both kinds, a last line that does not end, and a blank line
and a comment around the row. -/
def nestedText : String :=
  String.ofList ("some text".toList ++ '\r' :: '\n' :: (nestedColumns ++ '\r' :: '\n' ::
    (nestedUnits ++ '\n' :: ([] ++ '\n' :: ("  1 -2.5e3\t3.0".toList ++ '\r' :: '\n' ::
      ([' '] ++ '#' :: " end".toList))))))

/-- A text with nested braces and empty names is read as its table. -/
theorem nestedTable_parsed : parse nestedText false = .ok nestedTable := by
  have consists : Consists nestedText.toList (["some text".toList] ++ nestedColumns ::
      nestedUnits :: [[], "  1 -2.5e3\t3.0".toList, [' '] ++ '#' :: " end".toList]) := by
    have same : nestedText.toList = _ := String.toList_ofList
    rw [same]
    refine .both (by decide) (.both (by decide) (.lineFeed (by decide) (.lineFeed (by decide) ?_)))
    exact .both (by decide) (.last (by decide) (by decide))
  have silent : ∀ line ∈ ["some text".toList], ¬Announces "Columns" line := by
    refine List.forall_mem_singleton.mpr ?_
    rintro ⟨front, gap, rest, -, -, same⟩
    have hash : '#' ∈ "some text".toList := by
      rw [same]
      simp
    exact absurd hash (by decide)
  have space : Blanks [' '] := by decide
  have named : WritesHeader "Columns" nestedTable.columns nestedColumns := by
    have group : Balanced "a \x7bb\x7d".toList := .cons (by decide) (by decide)
      (.cons (by decide) (by decide) (.group (.cons (by decide) (by decide) .nil) .nil))
    exact ⟨[' '], [':'], ['\t'], _, space, by decide, .cons (.braced group) space (by decide)
      (.cons (.braced .nil) space (by decide) (.last (.bare (by decide) (by decide)))),
        .inl rfl, [], [], by decide, by decide, rfl⟩
  have measured : WritesHeader "Units" nestedTable.units nestedUnits :=
    ⟨[], [], [' '], _, by decide, space, .cons (.braced (.group .nil .nil)) space (by decide)
      (.cons (.bare (by decide) (by decide)) space (by decide) (.last (.braced .nil))),
        .inr ⟨rfl, by decide⟩, ['\t'], [' '], by decide, space, rfl⟩
  have filled : WritesRows nestedTable.rows
      [[], "  1 -2.5e3\t3.0".toList, [' '] ++ '#' :: " end".toList] := by
    have one : WritesNumber (nearestFloat ⟨1, 0⟩) "1".toList := ⟨by decide, by decide, rfl⟩
    have two : WritesNumber (-nearestFloat ⟨25, 2⟩) "-2.5e3".toList := ⟨by decide, by decide, rfl⟩
    have three : WritesNumber (nearestFloat ⟨30, -1⟩) "3.0".toList := ⟨by decide, by decide, rfl⟩
    have tab : Blanks ['\t'] := by decide
    exact .blank (by decide) (.row (.cons one space (by decide) (.cons two tab (by decide)
      (.last three))) ⟨[' ', ' '], [], by decide, by decide, rfl⟩ (.comment space .nil))
  have wide : ∀ row ∈ nestedTable.rows, row.length = nestedTable.columns.length :=
    List.forall_mem_singleton.mpr rfl
  exact parse_of_renders ⟨_, _, _, _, consists, silent, named, measured, filled⟩ rfl wide

end Micromag.Table
