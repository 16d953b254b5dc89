import Mathlib.Data.List.DropRight
import Micromag.Text.Basic

/-!
# Blanks, identifiers and lines
-/

/-!
## Trimming

Trimming at one end stops at the first visible character, so that visible characters shield what
lies behind them. Trimming twice trims no more than trimming once.
-/

namespace Micromag.Text

variable {c : Char} {text before after : List Char}

/-- A visible character at the start stays. -/
theorem trimStart_cons (visible : isBlank c = false) : trimStart (c :: text) = c :: text :=
  List.dropWhile_cons_of_neg (by simp [visible])

/-- A visible character ends the blanks at the start. -/
theorem trimStart_append_cons (visible : isBlank c = false) :
    trimStart (before ++ c :: after) = trimStart before ++ c :: after := by
  induction before with
  | nil => exact trimStart_cons visible
  | cons first others ih =>
    unfold trimStart at ih ⊢
    rw [List.cons_append]
    cases blank : isBlank first with
    | true => rw [List.dropWhile_cons_of_pos blank, List.dropWhile_cons_of_pos blank, ih]
    | false =>
      rw [List.dropWhile_cons_of_neg (by simp [blank]),
        List.dropWhile_cons_of_neg (by simp [blank])]
      rfl

/-- A visible character ends the blanks at the end. -/
theorem trimEnd_append_cons (visible : isBlank c = false) :
    trimEnd (before ++ c :: after) = before ++ c :: trimEnd after := by
  have mirrored : trimStart (after.reverse ++ c :: before.reverse) =
      trimStart after.reverse ++ c :: before.reverse := trimStart_append_cons visible
  show (trimStart (before ++ c :: after).reverse).reverse = before ++ c :: trimEnd after
  rw [List.reverse_append, List.reverse_cons, List.append_assoc, List.singleton_append, mirrored,
    List.reverse_append, List.reverse_cons, List.reverse_reverse, List.append_assoc]
  rfl

/-- A visible character in front of the end stays. -/
theorem trimEnd_cons_visible (visible : isBlank c = false) :
    trimEnd (c :: text) = c :: trimEnd text :=
  show trimEnd ([] ++ c :: text) = [] ++ c :: trimEnd text from trimEnd_append_cons visible

/-- A blank at the start goes only when nothing else is left. -/
theorem trimEnd_cons_blank (blank : isBlank c = true) :
    trimEnd (c :: text) = if trimEnd text = [] then [] else c :: trimEnd text := by
  unfold trimEnd
  rw [List.reverse_cons, List.dropWhile_append]
  by_cases nothing : text.reverse.dropWhile isBlank = []
  · rw [nothing, if_pos List.isEmpty_nil, List.dropWhile_cons_of_pos blank]
    rfl
  · rw [if_neg (by simpa using nothing), if_neg (by simpa using nothing), List.reverse_append]
    rfl

/-- Trimming at the end twice is trimming once. -/
theorem trimEnd_trimEnd : trimEnd (trimEnd text) = trimEnd text := by
  induction text with
  | nil => rfl
  | cons c others ih =>
    cases blank : isBlank c with
    | false => rw [trimEnd_cons_visible blank, trimEnd_cons_visible blank, ih]
    | true =>
      rw [trimEnd_cons_blank blank]
      by_cases nothing : trimEnd others = []
      · rw [if_pos nothing]
        rfl
      · rw [if_neg nothing, trimEnd_cons_blank blank, ih, if_neg nothing]

/-- The two ends can be trimmed in either order. -/
theorem trimStart_trimEnd : trimStart (trimEnd text) = trim text := by
  unfold trim
  induction text with
  | nil => rfl
  | cons c others ih =>
    cases blank : isBlank c with
    | false =>
      rw [trimEnd_cons_visible blank, trimStart_cons blank, trimStart_cons blank,
        trimEnd_cons_visible blank]
    | true =>
      have start : trimStart (c :: others) = trimStart others := List.dropWhile_cons_of_pos blank
      rw [start, ← ih, trimEnd_cons_blank blank]
      by_cases nothing : trimEnd others = []
      · rw [if_pos nothing, nothing]
      · rw [if_neg nothing]
        exact List.dropWhile_cons_of_pos blank

/-- Trimming at the end before trimming at both ends changes nothing. -/
theorem trim_trimEnd (text : List Char) : trim (trimEnd text) = trim text := by
  rw [← trimStart_trimEnd, trimEnd_trimEnd, trimStart_trimEnd]

/-- Trimming at the start before trimming at both ends changes nothing. -/
theorem trim_trimStart (text : List Char) : trim (trimStart text) = trim text := by
  unfold trim trimStart
  rw [List.dropWhile_idempotent]

/-- Text without blanks is trimmed already. -/
theorem trim_of_visible (visible : ∀ c ∈ text, isBlank c = false) : trim text = text := by
  cases text with
  | nil => rfl
  | cons first others =>
    have start : trimStart (first :: others) = first :: others :=
      trimStart_cons (visible first List.mem_cons_self)
    unfold trim
    rw [start]
    have last := List.getLast_mem (List.cons_ne_nil first others)
    have split := List.dropLast_concat_getLast (List.cons_ne_nil first others)
    rw [← split, trimEnd_append_cons (visible _ last)]
    rfl

/-- A blank in front is trimmed. -/
theorem trim_cons_blank (blank : isBlank c = true) : trim (c :: text) = trim text := by
  unfold trim
  rw [show trimStart (c :: text) = trimStart text from List.dropWhile_cons_of_pos blank]

/-- Trimming adds no characters. -/
theorem mem_of_mem_trim (member : c ∈ trim text) : c ∈ text := by
  unfold trim trimEnd at member
  rw [List.mem_reverse] at member
  have inside := List.mem_reverse.mp ((List.dropWhile_suffix isBlank).subset member)
  exact (List.dropWhile_suffix isBlank).subset inside

/-- Blanks behind a text are trimmed. -/
theorem trim_append_blanks (blanks : ∀ c ∈ after, isBlank c = true) :
    trim (text ++ after) = trim text := by
  have front : trimEnd (text ++ after) = trimEnd text := by
    unfold trimEnd
    rw [List.reverse_append, List.dropWhile_append_of_pos fun c member =>
      blanks c (List.mem_reverse.mp member)]
  rw [← trim_trimEnd (text ++ after), front, trim_trimEnd]

/-- Blanks in front of a text are trimmed. -/
theorem trim_blanks_append (blanks : ∀ c ∈ before, isBlank c = true) :
    trim (before ++ text) = trim text := by
  unfold trim trimStart
  rw [List.dropWhile_append_of_pos blanks]

/-- What is trimmed at the start is blank. -/
theorem exists_blanks_trimStart (text : List Char) :
    ∃ front, (∀ c ∈ front, isBlank c = true) ∧ front ++ trimStart text = text :=
  ⟨text.takeWhile isBlank, fun _ member => List.mem_takeWhile_imp member,
    List.takeWhile_append_dropWhile⟩

/-- What is trimmed at the end is blank. -/
theorem exists_trimEnd_blanks (text : List Char) :
    ∃ back, (∀ c ∈ back, isBlank c = true) ∧ trimEnd text ++ back = text := by
  refine ⟨(text.reverse.takeWhile isBlank).reverse, ?_, ?_⟩
  · exact fun c member => List.mem_takeWhile_imp (List.mem_reverse.mp member)
  · unfold trimEnd
    rw [← List.reverse_append, List.takeWhile_append_dropWhile, List.reverse_reverse]

/-- A text that neither begins nor ends with a blank is trimmed already. -/
theorem trim_of_ends (first : ∀ c ∈ text.head?, isBlank c = false)
    (last : ∀ c ∈ text.getLast?, isBlank c = false) : trim text = text := by
  have start : trimStart text = text := by
    cases text with
    | nil => rfl
    | cons c others => exact trimStart_cons (first c rfl)
  have stop : trimEnd text = text := by
    unfold trimEnd
    cases reversed : text.reverse with
    | nil =>
      rw [List.reverse_eq_nil_iff.mp reversed]
      rfl
    | cons c others =>
      have ends : text.getLast? = some c := by
        rw [List.getLast?_eq_head?_reverse, reversed]
        rfl
      rw [List.dropWhile_cons_of_neg (by simp [last c ends]), ← reversed, List.reverse_reverse]
  unfold trim
  rw [start, stop]

end Micromag.Text

/-!
## Names made of names

A name followed by further name characters is a name. Name characters are visible and separate
nothing, so that a name stays one word wherever it is written.
-/

namespace Micromag.Text

/-- A code point of a name character lies in one of four ranges. -/
theorem isNameChar_iff {c : Char} : isNameChar c = true ↔
    97 ≤ c.toNat ∧ c.toNat ≤ 122 ∨ 65 ≤ c.toNat ∧ c.toNat ≤ 90 ∨
      48 ≤ c.toNat ∧ c.toNat ≤ 57 ∨ c.toNat = 95 := by
  have order {a b : Char} : a ≤ b ↔ a.toNat ≤ b.toNat := Iff.rfl
  have underscore : c = '_' ↔ c.toNat = 95 :=
    ⟨fun same => by rw [same]; rfl, fun code => by rw [← Char.ofNat_toNat c, code]⟩
  unfold isNameChar
  simp only [Bool.or_eq_true, Bool.and_eq_true, decide_eq_true_eq, order, underscore]
  have letters : 'a'.toNat = 97 ∧ 'z'.toNat = 122 ∧ 'A'.toNat = 65 ∧ 'Z'.toNat = 90 ∧
      '0'.toNat = 48 ∧ '9'.toNat = 57 := by decide
  omega

/-- Name characters are visible. -/
theorem isBlank_of_isNameChar {c : Char} (named : isNameChar c = true) : isBlank c = false := by
  have code := isNameChar_iff.mp named
  cases blank : isBlank c with
  | false => rfl
  | true =>
    obtain ⟨range, member, inside⟩ := List.any_eq_true.mp blank
    simp only [Bool.and_eq_true, decide_eq_true_eq] at inside
    simp only [blankRanges, List.mem_cons, List.not_mem_nil, or_false] at member
    rcases member with rfl | rfl | rfl | rfl | rfl | rfl | rfl | rfl | rfl | rfl <;>
      simp only at inside <;> omega

variable {name : String}

/-- All characters of an identifier are name characters. -/
theorem isNameChar_of_mem {c : Char} (identifier : isIdentifier name = true)
    (member : c ∈ name.toList) : isNameChar c = true := by
  unfold isIdentifier at identifier
  exact List.all_eq_true.mp (Bool.and_eq_true _ _ ▸ identifier).2 c member

/-- An identifier has a first character. -/
theorem toList_ne_nil (identifier : isIdentifier name = true) : name.toList ≠ [] := by
  intro empty
  have same : name = "" := String.toList_eq_nil_iff.mp empty
  rw [same] at identifier
  exact absurd identifier (by decide)

/-- An identifier with further name characters is an identifier. -/
theorem isIdentifier_append {suffix : String} (identifier : isIdentifier name = true)
    (named : suffix.toList.all isNameChar = true) : isIdentifier (name ++ suffix) = true := by
  have start := toList_ne_nil identifier
  unfold isIdentifier
  rw [Bool.and_eq_true, String.toList_append, List.all_append, named, Bool.and_true]
  refine ⟨?_, List.all_eq_true.mpr fun c member => isNameChar_of_mem identifier member⟩
  cases empty : (name ++ suffix).isEmpty with
  | false => rfl
  | true =>
    have nothing := String.toList_eq_nil_iff.mpr (String.isEmpty_iff.mp empty)
    rw [String.toList_append] at nothing
    exact absurd (List.append_eq_nil_iff.mp nothing).1 start

/-- A character that belongs to no name is not in an identifier. -/
theorem notMem_of_isIdentifier {c : Char} (identifier : isIdentifier name = true)
    (other : isNameChar c = false) : c ∉ name.toList := by
  intro member
  rw [isNameChar_of_mem identifier member] at other
  cases other

/-- An identifier has no colon in it. -/
theorem noColon_of_isIdentifier (identifier : isIdentifier name = true) : ':' ∉ name.toList :=
  notMem_of_isIdentifier identifier (by decide)

end Micromag.Text

/-!
## Pieces of text

The pieces of a text between separators are those of the library's splitting by a predicate, so that
its laws hold for them.
-/

namespace Micromag.Text

/-- Splitting at a character is splitting where the character is found. -/
theorem splitOn_eq (separator : Char) (text : List Char) :
    splitOn separator text = text.splitOnP (· = separator) := by
  induction text with
  | nil => rfl
  | cons c rest ih =>
    rw [splitOn, List.splitOnP_cons_eq_if_modifyHead, ih]
    by_cases separates : c = separator
    · rw [if_pos separates, if_pos (decide_eq_true separates)]
    · rw [if_neg separates, if_neg (by simpa using separates)]
      cases pieces : rest.splitOnP (· = separator) with
      | nil => exact absurd pieces (List.splitOnP_ne_nil _ rest)
      | cons first others => rfl

/-- A separator ends a piece and begins the next. -/
theorem splitOn_append_cons (separator : Char) (before after : List Char) :
    splitOn separator (before ++ separator :: after) =
      splitOn separator before ++ splitOn separator after := by
  rw [splitOn_eq, splitOn_eq, splitOn_eq]
  exact List.splitOnP_append_cons before after (decide_eq_true rfl)

/-- Text without the separator is one piece. -/
theorem splitOn_of_notMem {separator : Char} {text : List Char} (whole : separator ∉ text) :
    splitOn separator text = [text] := by
  rw [splitOn_eq]
  refine List.splitOnP_eq_singleton fun c member => ?_
  exact decide_eq_false fun same => whole (same ▸ member)

/-- Every character of a piece is in the text. -/
theorem subset_of_mem_splitOnP {p : Char → Bool} {text piece : List Char}
    (member : piece ∈ text.splitOnP p) : piece ⊆ text := by
  induction text generalizing piece with
  | nil =>
    rw [List.splitOnP_nil, List.mem_singleton] at member
    exact fun c inside => absurd (member ▸ inside) List.not_mem_nil
  | cons c rest ih =>
    rw [List.splitOnP_cons_eq_if_modifyHead] at member
    split at member
    · rcases List.mem_cons.mp member with rfl | member
      · exact List.nil_subset _
      · exact List.Subset.trans (ih member) (List.subset_cons_self c rest)
    · cases pieces : rest.splitOnP p with
      | nil => exact absurd pieces (List.splitOnP_ne_nil p rest)
      | cons first others =>
        rw [pieces, List.modifyHead_cons] at member
        rcases List.mem_cons.mp member with rfl | member
        · exact List.cons_subset_cons c (ih (pieces ▸ List.mem_cons_self))
        · exact List.Subset.trans (ih (pieces ▸ List.mem_cons_of_mem first member))
            (List.subset_cons_self c rest)

/-- The pieces of a text hold no separator. -/
theorem notMem_of_mem_splitOn {separator : Char} {text piece : List Char}
    (member : piece ∈ splitOn separator text) : separator ∉ piece := by
  rw [splitOn_eq] at member
  induction text generalizing piece with
  | nil =>
    rw [List.splitOnP_nil, List.mem_singleton] at member
    rw [member]
    exact List.not_mem_nil
  | cons c rest ih =>
    rw [List.splitOnP_cons_eq_if_modifyHead] at member
    by_cases separates : c = separator
    · rw [if_pos (decide_eq_true separates)] at member
      rcases List.mem_cons.mp member with rfl | member
      · exact List.not_mem_nil
      · exact ih member
    · rw [if_neg (by simpa using separates)] at member
      cases pieces : rest.splitOnP (· = separator) with
      | nil => exact absurd pieces (List.splitOnP_ne_nil _ rest)
      | cons first others =>
        rw [pieces, List.modifyHead_cons] at member
        rw [pieces] at ih
        rcases List.mem_cons.mp member with rfl | member
        · rw [List.mem_cons, not_or]
          exact ⟨Ne.symm separates, ih List.mem_cons_self⟩
        · exact ih (List.mem_cons_of_mem first member)

variable {line rest : List Char}

/-- Text without a line feed is one line. -/
theorem lines_of_notMem (one : '\n' ∉ line) (filled : line ≠ []) : lines line = [line] := by
  unfold lines
  rw [splitOn_of_notMem one]
  show (if line.isEmpty = true then [] else [line]) = [line]
  rw [if_neg (by simpa using filled)]

/-- A line feed ends a line. -/
theorem lines_append_cons (one : '\n' ∉ line) :
    lines (line ++ '\n' :: rest) = dropReturn line :: lines rest := by
  have pieces := splitOn_append_cons '\n' line rest
  rw [splitOn_of_notMem one, List.singleton_append] at pieces
  have filled : splitOn '\n' rest ≠ [] := by
    rw [splitOn_eq]
    exact List.splitOnP_ne_nil _ rest
  unfold lines
  rw [pieces]
  obtain ⟨first, others, same⟩ := List.exists_cons_of_ne_nil filled
  rw [same]
  dsimp only
  rw [List.getLast?_cons_cons, List.dropLast_cons_cons, List.map_cons, List.cons_append]

/-- The lines of a text are those that were ended and those behind them. -/
theorem lines_join {rows : List String}
    (whole : ∀ row ∈ rows, '\n' ∉ row.toList ∧ row.toList.getLast? ≠ some '\r') :
    lines ((String.join (rows.map fun row => row ++ "\n")).toList ++ rest) =
      rows.map String.toList ++ lines rest := by
  induction rows with
  | nil => rfl
  | cons row others ih =>
    obtain ⟨⟨one, noReturn⟩, more⟩ := List.forall_mem_cons.mp whole
    have split : (String.join ((row :: others).map fun row => row ++ "\n")).toList ++ rest =
        row.toList ++ '\n' ::
          ((String.join (others.map fun row => row ++ "\n")).toList ++ rest) := by
      rw [List.map_cons, String.join_cons, String.toList_append, String.toList_append,
        List.append_assoc, List.append_assoc]
      rfl
    have kept : dropReturn row.toList = row.toList := if_neg noReturn
    rw [split, lines_append_cons one, kept, ih more]
    rfl

/-- A carriage return at the end of a line is trimmed. -/
theorem trim_dropReturn : trim (dropReturn line) = trim line := by
  unfold dropReturn
  split
  · rename_i ends
    obtain ⟨front, rfl⟩ := List.getLast?_eq_some_iff.mp ends
    rw [List.dropLast_concat, trim_append_blanks]
    exact List.forall_mem_singleton.mpr (by decide)
  · rfl

/-- Text without a line feed is one line. -/
theorem linesOf_of_notMem {text : String} (one : '\n' ∉ text.toList) (filled : text ≠ "") :
    linesOf text = [text] := by
  have some : text.toList ≠ [] := fun empty => filled (String.toList_eq_nil_iff.mp empty)
  unfold linesOf
  rw [lines_of_notMem one some, List.map_singleton, String.ofList_toList]

end Micromag.Text
