import Micromag.Proofs.Script.Tokens
import Micromag.Proofs.Text.Basic
import Micromag.Script.Basic

/-!
# Braces in scripts

A reader of a script counts braces: a command ends at the first line feed outside of all of them. In
balanced text every brace that closes was opened in it and every brace that opens is closed in it,
so that the depth behind it is the depth before it. Between braces such text never comes out of them
and its line feeds end no command.
-/

namespace Micromag.Script

/-- Whether a character is a brace. -/
def isBrace (c : Char) : Bool := c = '\x7b' || c = '\x7d'

/-- The depth behind a character. -/
def nextDepth (depth : Nat) (c : Char) : Nat :=
  if c = '\x7b' then depth + 1 else if c = '\x7d' then depth - 1 else depth

/-- The depth behind a character, unless it closes a brace that was not opened. -/
def stepDepth? (depth : Nat) (c : Char) : Option Nat :=
  if c = '\x7d' ∧ depth = 0 then none else some (nextDepth depth c)

/-- The depth behind a text, unless a brace in it closes one that was not opened. -/
def depthAfter? (depth : Nat) (text : List Char) : Option Nat := text.foldlM stepDepth? depth

/-- The pieces of a text between the line feeds outside of all braces, from some depth on. -/
def piecesFrom (depth : Nat) : List Char → List (List Char)
  | [] => [[]]
  | c :: rest =>
    if c = '\n' ∧ depth = 0 then [] :: piecesFrom depth rest
    else (piecesFrom (nextDepth depth c) rest).modifyHead (c :: ·)

/-- The pieces of a text between the line feeds outside of all braces. -/
def pieces (text : List Char) : List (List Char) := piecesFrom 0 text

variable {depth last : Nat} {c : Char} {text before after rest : List Char}

/-! ## Depths -/

/-- The depth behind two texts. -/
theorem depthAfter?_append :
    depthAfter? depth (before ++ after) =
      (depthAfter? depth before).bind fun middle => depthAfter? middle after :=
  List.foldlM_append

/-- The depth behind a character and a text. -/
theorem depthAfter?_cons :
    depthAfter? depth (c :: text) =
      (stepDepth? depth c).bind fun middle => depthAfter? middle text :=
  List.foldlM_cons

/-- Other characters than braces leave the depth. -/
theorem nextDepth_of_notBrace (other : isBrace c = false) : nextDepth depth c = depth := by
  obtain ⟨noOpening, noClosing⟩ := Bool.or_eq_false_iff.mp other
  unfold nextDepth
  rw [if_neg (of_decide_eq_false noOpening), if_neg (of_decide_eq_false noClosing)]

/-- Other characters than braces close nothing. -/
theorem stepDepth?_of_notBrace (other : isBrace c = false) : stepDepth? depth c = some depth := by
  have noClosing := of_decide_eq_false (Bool.or_eq_false_iff.mp other).2
  unfold stepDepth?
  rw [if_neg fun closes => noClosing closes.1, nextDepth_of_notBrace other]

/-- Only braces count. -/
theorem depthAfter?_filter : depthAfter? depth (text.filter isBrace) = depthAfter? depth text := by
  induction text generalizing depth with
  | nil => rfl
  | cons c rest ih =>
    cases kind : isBrace c with
    | true =>
      rw [List.filter_cons_of_pos kind, depthAfter?_cons, depthAfter?_cons]
      exact congrArg _ (funext fun _ => ih)
    | false =>
      rw [List.filter_cons_of_neg (Bool.not_eq_true _ ▸ kind), ih, depthAfter?_cons,
        stepDepth?_of_notBrace kind]
      rfl

/-- A character that is counted at some depth is counted at any greater depth. -/
theorem stepDepth?_add {next : Nat} (deeper : Nat) (steps : stepDepth? depth c = some next) :
    stepDepth? (depth + deeper) c = some (next + deeper) := by
  unfold stepDepth? at steps ⊢
  split at steps
  · cases steps
  · rename_i fits
    have inside : ¬(c = '\x7d' ∧ depth + deeper = 0) := fun closes => fits ⟨closes.1, by omega⟩
    rw [if_neg inside, ← Option.some.inj steps]
    unfold nextDepth
    split
    · exact congrArg some (by omega)
    · split
      · rename_i closes
        have deep : depth ≠ 0 := fun outside => fits ⟨closes, outside⟩
        exact congrArg some (by omega)
      · rfl

/-- So is a text. -/
theorem depthAfter?_add (deeper : Nat) (counted : depthAfter? depth text = some last) :
    depthAfter? (depth + deeper) text = some (last + deeper) := by
  induction text generalizing depth with
  | nil => exact congrArg (some <| · + deeper) (Option.some.inj counted)
  | cons c rest ih =>
    rw [depthAfter?_cons] at counted ⊢
    obtain ⟨next, steps, counted⟩ := Option.bind_eq_some_iff.mp counted
    rw [stepDepth?_add deeper steps]
    exact ih counted

/-- Between braces every character is counted. -/
theorem nextDepth_succ {next : Nat} (steps : stepDepth? depth c = some next) :
    nextDepth (depth + 1) c = next + 1 := by
  have deeper := stepDepth?_add 1 steps
  unfold stepDepth? at deeper
  rw [if_neg (by omega)] at deeper
  exact Option.some.inj deeper

/-! ## Balanced text -/

/-- Whether a text closes the braces that it opens, and no others. -/
def Balanced (text : List Char) : Prop := ∀ depth, depthAfter? depth text = some depth

/-- Balanced text is text that ends outside of all braces when it begins there. -/
theorem balanced_iff : Balanced text ↔ depthAfter? 0 text = some 0 := by
  refine ⟨fun balanced => balanced 0, fun outside depth => ?_⟩
  have shifted := depthAfter?_add depth outside
  rwa [Nat.zero_add] at shifted

/-- Texts with the same braces are balanced alike. -/
theorem balanced_of_filter (same : before.filter isBrace = after.filter isBrace)
    (balanced : Balanced after) : Balanced before := fun depth => by
  rw [← depthAfter?_filter, same, depthAfter?_filter, balanced]

/-- Text without braces is balanced. -/
theorem balanced_of_unbraced (unbraced : ∀ c ∈ text, isBrace c = false) : Balanced text := by
  have bare : text.filter isBrace = [].filter isBrace :=
    List.filter_eq_nil_iff.mpr fun c member => Bool.not_eq_true _ ▸ unbraced c member
  exact balanced_of_filter bare fun _ => rfl

/-- Balanced texts one after the other are balanced. -/
theorem Balanced.append (first : Balanced before) (second : Balanced after) :
    Balanced (before ++ after) := fun depth => by
  rw [depthAfter?_append, first, Option.bind_some, second]

/-- A text of balanced texts is balanced. -/
theorem balanced_flatMap {α : Type} {elements : List α} {write : α → List Char}
    (each : ∀ element ∈ elements, Balanced (write element)) : Balanced (elements.flatMap write) := by
  induction elements with
  | nil => exact fun _ => rfl
  | cons first others ih =>
    rw [List.flatMap_cons]
    exact (each first List.mem_cons_self).append
      (ih fun other member => each other (List.mem_cons_of_mem first member))

/-- Balanced text between braces is balanced. -/
theorem Balanced.braced (balanced : Balanced text) : Balanced ('\x7b' :: text ++ ['\x7d']) := by
  intro depth
  rw [List.cons_append, depthAfter?_cons]
  show depthAfter? (depth + 1) (text ++ ['\x7d']) = _
  rw [depthAfter?_append, balanced]
  rfl

/-- Text of balanced parts between blanks is balanced. -/
theorem balanced_intercalate {parts : List String}
    (each : ∀ part ∈ parts, Balanced part.toList) :
    Balanced (String.intercalate " " parts).toList := by
  induction parts with
  | nil => exact fun _ => rfl
  | cons first others ih =>
    have head := each first List.mem_cons_self
    have tail := ih fun part member => each part (List.mem_cons_of_mem first member)
    cases others with
    | nil =>
      rw [String.intercalate_singleton]
      exact head
    | cons second rest =>
      rw [String.intercalate_cons_cons, String.toList_append, String.toList_append]
      have blank : Balanced " ".toList := balanced_of_unbraced (by decide)
      exact (head.append blank).append tail

/-! ## Rows -/

/-- The braces of a text are those of the pieces between its line feeds. -/
theorem filter_splitOn (text : List Char) :
    ((Text.splitOn '\n' text).flatMap fun piece => piece.filter isBrace) = text.filter isBrace := by
  induction text with
  | nil => rfl
  | cons c rest ih =>
    rw [Text.splitOn_eq] at ih ⊢
    rw [List.splitOnP_cons_eq_if_modifyHead]
    split
    · rename_i feed
      obtain rfl := of_decide_eq_true feed
      rw [List.flatMap_cons, ih]
      rfl
    · cases split : rest.splitOnP (· = '\n') with
      | nil => exact absurd split (List.splitOnP_ne_nil _ rest)
      | cons first others =>
        rw [split] at ih
        rw [List.modifyHead_cons, List.flatMap_cons]
        rw [List.flatMap_cons] at ih
        rw [List.filter_cons, List.filter_cons, ← ih]
        split <;> rfl

/-- A carriage return is no brace. -/
theorem filter_dropReturn (line : List Char) :
    (Text.dropReturn line).filter isBrace = line.filter isBrace := by
  unfold Text.dropReturn
  split
  · rename_i ended
    obtain ⟨front, rfl⟩ := List.getLast?_eq_some_iff.mp ended
    rw [List.dropLast_concat, List.filter_append]
    exact (List.append_nil _).symm
  · rfl

/-- The braces of a text are those of its lines. -/
theorem filter_lines (text : List Char) :
    ((Text.lines text).flatMap fun line => line.filter isBrace) = text.filter isBrace := by
  rw [← filter_splitOn]
  unfold Text.lines
  have nonempty := Text.splitOn_eq '\n' text ▸ List.splitOnP_ne_nil (· = '\n') text
  generalize Text.splitOn '\n' text = split at nonempty ⊢
  obtain ⟨front, last, rfl⟩ := List.eq_nil_or_concat split |>.resolve_left nonempty
  dsimp only
  rw [List.concat_eq_append, List.dropLast_concat, List.getLast?_concat, Option.getD_some,
    List.flatMap_append, List.flatMap_append, List.flatMap_map]
  congr 1
  · exact List.flatMap_congr fun line _ => filter_dropReturn line
  · cases last with
    | nil => rfl
    | cons c rest => rfl

/-- The braces of indented rows are those of the rows. -/
theorem filter_indented (entries : List String) :
    (indented entries).toList.filter isBrace =
      (entries.flatMap fun entry => entry.toList).filter isBrace := by
  have rows (lines : List String) :
      (String.join (lines.map fun row => "  " ++ row ++ "\n")).toList.filter isBrace =
        lines.flatMap fun row => row.toList.filter isBrace := by
    induction lines with
    | nil => rfl
    | cons row others ih =>
      rw [List.map_cons, String.join_cons, String.toList_append, List.filter_append, ih,
        List.flatMap_cons, String.toList_append, String.toList_append, List.filter_append,
        List.filter_append]
      exact congrArg (· ++ _) (List.append_nil _)
  have lines (entry : String) :
      ((Text.linesOf entry).flatMap fun row => row.toList.filter isBrace) =
        entry.toList.filter isBrace := by
    unfold Text.linesOf
    rw [List.flatMap_map]
    simp only [String.toList_ofList]
    exact filter_lines entry.toList
  unfold indented
  rw [rows, List.flatMap_assoc, List.filter_flatMap]
  exact List.flatMap_congr fun entry _ => lines entry

/-- Indented rows are balanced when the rows together are. -/
theorem balanced_indented {entries : List String}
    (balanced : Balanced (entries.flatMap fun entry => entry.toList)) :
    Balanced (indented entries).toList :=
  balanced_of_filter (filter_indented entries) balanced

/-! ## Pieces -/

/-- Nothing in front of a piece leaves it. -/
theorem modifyHead_nil_append (lines : List (List Char)) : lines.modifyHead ([] ++ ·) = lines := by
  cases lines <;> rfl

/-- Text between braces belongs to the piece in which they open. -/
theorem piecesFrom_inside (counted : depthAfter? depth text = some last) :
    piecesFrom (depth + 1) (text ++ rest) =
      (piecesFrom (last + 1) rest).modifyHead (text ++ ·) := by
  induction text generalizing depth with
  | nil =>
    obtain rfl := Option.some.inj counted
    exact (modifyHead_nil_append _).symm
  | cons c others ih =>
    rw [depthAfter?_cons] at counted
    obtain ⟨next, steps, counted⟩ := Option.bind_eq_some_iff.mp counted
    rw [List.cons_append, piecesFrom, if_neg (by omega), nextDepth_succ steps, ih counted,
      List.modifyHead_modifyHead]
    rfl

/-- Whether a text is balanced and stays in one piece. -/
structure Whole (text : List Char) : Prop where
  /-- It is balanced. -/
  balanced : Balanced text
  /-- Outside of all braces it belongs to the piece in which it begins. -/
  single : ∀ rest, piecesFrom 0 (text ++ rest) = (piecesFrom 0 rest).modifyHead (text ++ ·)

namespace Whole

/-- No text. -/
theorem nil : Whole [] := ⟨fun _ => rfl, fun _ => (modifyHead_nil_append _).symm⟩

/-- Text without braces and line feeds. -/
theorem of_level (unbraced : ∀ c ∈ text, isBrace c = false) (one : '\n' ∉ text) : Whole text := by
  refine ⟨balanced_of_unbraced unbraced, fun rest => ?_⟩
  induction text with
  | nil => exact nil.single rest
  | cons c others ih =>
    obtain ⟨first, further⟩ := List.forall_mem_cons.mp unbraced
    have noFeed : ¬(c = '\n' ∧ 0 = 0) := fun feed => one (feed.1 ▸ List.mem_cons_self)
    rw [List.cons_append, piecesFrom, if_neg noFeed, nextDepth_of_notBrace first,
      ih further fun member => one (List.mem_cons_of_mem c member), List.modifyHead_modifyHead]
    rfl

/-- One after the other. -/
theorem append (first : Whole before) (second : Whole after) : Whole (before ++ after) := by
  refine ⟨first.balanced.append second.balanced, fun rest => ?_⟩
  rw [List.append_assoc, first.single, second.single, List.modifyHead_modifyHead]
  congr 1
  funext piece
  exact (List.append_assoc ..).symm

/-- Balanced text between braces. -/
theorem braced (balanced : Balanced text) : Whole ('\x7b' :: text ++ ['\x7d']) := by
  refine ⟨balanced.braced, fun rest => ?_⟩
  rw [List.cons_append, List.cons_append, List.append_assoc, piecesFrom, if_neg (by decide)]
  show (piecesFrom (0 + 1) (text ++ '\x7d' :: rest)).modifyHead _ = _
  rw [piecesFrom_inside (balanced 0), piecesFrom, if_neg (by decide), List.modifyHead_modifyHead,
    List.modifyHead_modifyHead]
  show (piecesFrom 0 rest).modifyHead _ = _
  congr 1
  funext piece
  simp

/-- A line feed behind it ends its piece. -/
theorem ended (whole : Whole text) : piecesFrom 0 (text ++ '\n' :: rest) =
    text :: piecesFrom 0 rest := by
  rw [whole.single, piecesFrom, if_pos ⟨rfl, rfl⟩, List.modifyHead_cons, List.append_nil]

end Whole

/-- The text of lines, each with a line feed behind it. -/
def ended (lines : List (List Char)) : List Char := lines.flatMap (· ++ ['\n'])

/-- Lines that are whole are the pieces of their text, and no text is left over. -/
theorem pieces_ended {lines : List (List Char)} (whole : ∀ line ∈ lines, Whole line) :
    pieces (ended lines) = lines ++ [[]] := by
  unfold pieces ended
  induction lines with
  | nil => rfl
  | cons line others ih =>
    obtain ⟨first, further⟩ := List.forall_mem_cons.mp whole
    rw [List.flatMap_cons, List.append_assoc, List.singleton_append, first.ended, ih further]
    rfl

/-- Their text is balanced. -/
theorem balanced_ended {lines : List (List Char)} (whole : ∀ line ∈ lines, Whole line) :
    Balanced (ended lines) :=
  balanced_flatMap fun line member =>
    (whole line member).balanced.append (balanced_of_unbraced (by decide))

end Micromag.Script
