import Micromag.Proofs.Text.Basic
import Micromag.Script.Basic

/-!
# Tokens of script text

Blanks and braces separate the tokens of a text. A token that starts with a colon refers to an
object. Text that is put together with separators between its parts refers to what its parts refer
to, so that the references of a script can be found part by part.
-/

namespace Micromag.Script

/-- Whether a character separates tokens. -/
def isDelimiter (c : Char) : Bool := Text.isBlank c || c = '\x7b' || c = '\x7d'

/-- Name characters separate nothing. -/
theorem isDelimiter_of_isNameChar {c : Char} (named : Text.isNameChar c = true) :
    isDelimiter c = false := by
  have opening : c ≠ '\x7b' := by
    rintro rfl
    exact absurd named (by decide)
  have closing : c ≠ '\x7d' := by
    rintro rfl
    exact absurd named (by decide)
  unfold isDelimiter
  rw [Text.isBlank_of_isNameChar named]
  simp [opening, closing]

/-- Characters that separate nothing can be tried out. -/
theorem solid_of_all {text : List Char} (tried : (text.all fun c => !isDelimiter c) = true) :
    ∀ c ∈ text, isDelimiter c = false :=
  fun c member => by simpa using List.all_eq_true.mp tried c member

/-- The tokens of a text. -/
def tokens (text : List Char) : List (List Char) := (text.splitOnP isDelimiter).filter (· ≠ [])

variable {before after : List Char}

/-- A separator ends a token and begins none. -/
theorem tokens_append_cons {c : Char} (delimiter : isDelimiter c = true) :
    tokens (before ++ c :: after) = tokens before ++ tokens after := by
  unfold tokens
  rw [List.splitOnP_append_cons before after delimiter, List.filter_append]

/-- Text without separators is one token. -/
theorem tokens_of_solid {text : List Char} (solid : ∀ c ∈ text, isDelimiter c = false) :
    tokens text = if text = [] then [] else [text] := by
  unfold tokens
  rw [List.splitOnP_eq_singleton solid]
  by_cases empty : text = []
  · rw [if_pos empty, empty]
    rfl
  · rw [if_neg empty, List.filter_cons_of_pos (by simpa using empty), List.filter_nil]

/-- Every character of a token is in the text. -/
theorem subset_of_mem_tokens {text token : List Char} (member : token ∈ tokens text) :
    token ⊆ text :=
  Text.subset_of_mem_splitOnP (List.mem_filter.mp member).1

/-- A run of other characters between separators is a token. -/
theorem mem_tokens {token : List Char} (solid : ∀ c ∈ token, isDelimiter c = false)
    (some : token ≠ []) (start : ∀ c ∈ before.getLast?, isDelimiter c = true)
    (stop : ∀ c ∈ after.head?, isDelimiter c = true) :
    token ∈ tokens (before ++ token ++ after) := by
  have ended : tokens (token ++ after) = token :: tokens after.tail := by
    have single := tokens_of_solid solid
    rw [if_neg some] at single
    cases after with
    | nil => rw [List.append_nil, single]; rfl
    | cons c rest => rw [tokens_append_cons (stop c rfl), single]; rfl
  rw [List.append_assoc]
  cases last : before.getLast? with
  | none =>
    rw [List.getLast?_eq_none_iff.mp last, List.nil_append, ended]
    exact List.mem_cons_self
  | some c =>
    obtain ⟨front, rfl⟩ := List.getLast?_eq_some_iff.mp last
    rw [List.append_assoc, List.singleton_append, tokens_append_cons (start c last), ended]
    exact List.mem_append_right _ List.mem_cons_self

/-- Whether a text refers to certain objects only. -/
def RefersTo (names : List String) (text : List Char) : Prop :=
  ∀ token ∈ tokens text, ∀ rest, token = ':' :: rest → String.ofList rest ∈ names

/-- The names that a text refers to. -/
def references (text : List Char) : List String :=
  (tokens text).filterMap fun token =>
    match token with
    | ':' :: name => some (String.ofList name)
    | _ => none

/-- A text refers to the names of its tokens behind colons. -/
theorem mem_references {text : List Char} {name : String} :
    name ∈ references text ↔ ':' :: name.toList ∈ tokens text := by
  unfold references
  rw [List.mem_filterMap]
  constructor
  · rintro ⟨token, member, found⟩
    split at found
    · rw [← Option.some.inj found, String.toList_ofList]
      exact member
    · cases found
  · exact fun member => ⟨_, member, congrArg some String.ofList_toList⟩

/-- A text refers to certain objects only when its names are theirs. -/
theorem refersTo_iff {names : List String} {text : List Char} :
    RefersTo names text ↔ references text ⊆ names := by
  constructor
  · intro refers name member
    have known := refers _ (mem_references.mp member) _ rfl
    rwa [String.ofList_toList] at known
  · rintro subset token member rest rfl
    refine subset (mem_references.mpr ?_)
    rwa [String.toList_ofList]

namespace RefersTo

variable {names : List String}

/-- Text without a colon refers to nothing. -/
theorem of_noColon {text : List Char} (noColon : ':' ∉ text) : RefersTo names text := by
  intro token member rest reference
  have inside : ':' ∈ token := reference ▸ List.mem_cons_self
  exact absurd (subset_of_mem_tokens member inside) noColon

/-- A colon with a name refers to the name. -/
theorem of_reference {name : String} (identifier : Text.isIdentifier name = true)
    (known : name ∈ names) : RefersTo names (':' :: name.toList) := by
  have solid : ∀ c ∈ ':' :: name.toList, isDelimiter c = false := by
    intro c member
    rcases List.mem_cons.mp member with rfl | member
    · decide
    · exact isDelimiter_of_isNameChar (Text.isNameChar_of_mem identifier member)
  intro token member rest reference
  rw [tokens_of_solid solid, if_neg (List.cons_ne_nil _ _), List.mem_singleton] at member
  rw [member] at reference
  rw [← (List.cons.inj reference).2, String.ofList_toList]
  exact known

/-- One token that does not begin with a colon refers to nothing. -/
theorem of_solid {text : List Char} (solid : ∀ c ∈ text, isDelimiter c = false)
    (start : text.head? ≠ some ':') : RefersTo names text := by
  intro token member rest reference
  rw [tokens_of_solid solid] at member
  split at member
  · exact absurd member List.not_mem_nil
  · rw [List.mem_singleton.mp member] at reference
    rw [reference] at start
    exact absurd rfl start

/-- Parts with a separator between them refer to what the parts refer to. -/
theorem append_cons {c : Char} (delimiter : isDelimiter c = true) (first : RefersTo names before)
    (second : RefersTo names after) : RefersTo names (before ++ c :: after) := by
  intro token member
  rw [tokens_append_cons delimiter] at member
  rcases List.mem_append.mp member with member | member
  · exact first token member
  · exact second token member

/-- Separators in front of a text change nothing. -/
theorem prepend {separator : List Char} (delimiters : separator.all isDelimiter = true)
    (text : RefersTo names after) : RefersTo names (separator ++ after) := by
  induction separator with
  | nil => exact text
  | cons c rest ih =>
    rw [List.all_cons, Bool.and_eq_true] at delimiters
    have nothing : RefersTo names [] := of_noColon List.not_mem_nil
    have joined := append_cons delimiters.1 nothing (ih delimiters.2)
    exact joined

/-- Separators behind a text change nothing. -/
theorem append {separator : List Char} (delimiters : separator.all isDelimiter = true)
    (text : RefersTo names before) : RefersTo names (before ++ separator) := by
  cases separator with
  | nil => rwa [List.append_nil]
  | cons c rest =>
    rw [List.all_cons, Bool.and_eq_true] at delimiters
    have nothing : RefersTo names [] := of_noColon List.not_mem_nil
    have others := prepend delimiters.2 nothing
    rw [List.append_nil] at others
    exact append_cons delimiters.1 text others

/-- Parts with blanks between them refer to what the parts refer to. -/
theorem intercalate {parts : List String}
    (each : ∀ part ∈ parts, RefersTo names part.toList) :
    RefersTo names (String.intercalate " " parts).toList := by
  induction parts with
  | nil => exact of_noColon (by decide)
  | cons first others ih =>
    have head := each first List.mem_cons_self
    have tail := ih fun part member => each part (List.mem_cons_of_mem first member)
    cases others with
    | nil =>
      rw [String.intercalate_singleton]
      exact head
    | cons second rest =>
      rw [String.intercalate_cons_cons, String.toList_append, String.toList_append,
        List.append_assoc]
      exact append_cons (c := ' ') (by decide) head tail

end RefersTo

/-- The pieces of a text make up the text, with separators between them. -/
theorem splitOn_spec (separator : Char) (text : List Char) :
    ∃ first others, Text.splitOn separator text = first :: others ∧
      text = first ++ others.flatMap (separator :: ·) := by
  induction text with
  | nil => exact ⟨[], [], rfl, rfl⟩
  | cons c rest ih =>
    obtain ⟨first, others, split, whole⟩ := ih
    unfold Text.splitOn
    by_cases separates : c = separator
    · rw [if_pos separates, split]
      refine ⟨[], first :: others, rfl, ?_⟩
      rw [separates, List.flatMap_cons, List.nil_append, List.cons_append, ← whole]
    · rw [if_neg separates, split]
      refine ⟨c :: first, others, rfl, ?_⟩
      rw [List.cons_append, ← whole]

/-- The tokens of a text are those of its pieces. -/
theorem tokens_splitOn {separator : Char} (delimiter : isDelimiter separator = true)
    (text : List Char) : (Text.splitOn separator text).flatMap tokens = tokens text := by
  obtain ⟨first, others, split, whole⟩ := splitOn_spec separator text
  rw [split, whole]
  clear split whole
  induction others generalizing first with
  | nil => rw [List.flatMap_singleton, List.flatMap_nil, List.append_nil]
  | cons second rest ih =>
    rw [List.flatMap_cons, ih second, List.flatMap_cons, List.cons_append,
      tokens_append_cons delimiter]

/-- A carriage return at the end of a line is no part of a token. -/
theorem tokens_dropReturn (line : List Char) : tokens (Text.dropReturn line) = tokens line := by
  unfold Text.dropReturn
  by_cases returned : line.getLast? = some '\r'
  · obtain ⟨front, rfl⟩ := List.getLast?_eq_some_iff.mp returned
    rw [if_pos returned, List.dropLast_concat, tokens_append_cons (by decide)]
    exact (List.append_nil _).symm
  · rw [if_neg returned]

/-- A line of a text is a piece of it, perhaps without a carriage return. -/
theorem exists_piece_of_mem_lines {text line : List Char} (member : line ∈ Text.lines text) :
    ∃ piece ∈ Text.splitOn '\n' text, line = piece ∨ line = Text.dropReturn piece := by
  unfold Text.lines at member
  rcases List.mem_append.mp member with member | member
  · obtain ⟨piece, before, rfl⟩ := List.mem_map.mp member
    exact ⟨piece, List.dropLast_subset _ before, .inr rfl⟩
  · cases last : (Text.splitOn '\n' text).getLast? with
    | none =>
      rw [last] at member
      exact absurd member List.not_mem_nil
    | some piece =>
      simp only [last, Option.getD_some] at member
      split at member
      · exact absurd member List.not_mem_nil
      · exact ⟨piece, List.mem_of_getLast? last, .inl (List.mem_singleton.mp member)⟩

/-- The tokens of a line are tokens of the text. -/
theorem tokens_subset_of_mem_lines {text line : List Char} (member : line ∈ Text.lines text) :
    tokens line ⊆ tokens text := by
  obtain ⟨piece, inside, same⟩ := exists_piece_of_mem_lines member
  have kept : tokens line = tokens piece := by
    rcases same with rfl | rfl
    · rfl
    · exact tokens_dropReturn piece
  have pieces : (Text.splitOn '\n' text).flatMap tokens = tokens text :=
    tokens_splitOn (by decide) text
  intro token found
  rw [← pieces]
  exact List.mem_flatMap.mpr ⟨piece, inside, kept ▸ found⟩

end Micromag.Script
