import Micromag.Proofs.Text.Basic

/-!
# Words

Blanks separate the words of a text, so that the words on both sides of a blank are found one after
the other and blanks at the ends do not matter. A line feed is a blank: the words of a text are the
words of its lines. The beginning of a text has no more words than the text.
-/

namespace Micromag.Text

variable {c : Char} {word text rest : List Char}

/-- A word that was begun is one of the words. -/
theorem length_wordsFrom_pos (begun : word ≠ []) : 0 < (wordsFrom word text).length := by
  induction text generalizing word with
  | nil =>
    unfold wordsFrom
    rw [if_neg (by simpa using begun)]
    simp
  | cons c others ih =>
    unfold wordsFrom
    by_cases blank : isBlank c = true
    · rw [if_pos blank, if_neg (by simpa using begun)]
      simp
    · rw [if_neg blank]
      exact ih (List.cons_ne_nil c word)

/-- A blank ends the word that was begun, and the words behind it follow. -/
theorem wordsFrom_append_blank (blank : isBlank c = true) :
    wordsFrom word (text ++ c :: rest) = wordsFrom word text ++ words rest := by
  induction text generalizing word with
  | nil =>
    change wordsFrom word (c :: rest) = (if word.isEmpty then [] else [word.reverse]) ++ words rest
    rw [wordsFrom, if_pos blank]
    by_cases begun : word.isEmpty = true
    · rw [if_pos begun, if_pos begun]
      rfl
    · rw [if_neg begun, if_neg begun]
      rfl
  | cons first others ih =>
    rw [List.cons_append, wordsFrom, wordsFrom]
    by_cases separates : isBlank first = true
    · rw [if_pos separates, if_pos separates]
      by_cases begun : word.isEmpty = true
      · rw [if_pos begun, if_pos begun]
        exact ih
      · rw [if_neg begun, if_neg begun, ih]
        rfl
    · rw [if_neg separates, if_neg separates]
      exact ih

/-- The words on both sides of a blank are found one after the other. -/
theorem words_append_blank (blank : isBlank c = true) :
    words (text ++ c :: rest) = words text ++ words rest :=
  wordsFrom_append_blank blank

/-- A blank in front of a text does not matter. -/
theorem words_cons_blank (blank : isBlank c = true) : words (c :: text) = words text := by
  have split : words ([] ++ c :: text) = words [] ++ words text := words_append_blank blank
  exact split

/-- Visible characters go to the word under construction. -/
theorem wordsFrom_append_visible (visible : ∀ c ∈ text, isBlank c = false) :
    wordsFrom word (text ++ rest) = wordsFrom (text.reverse ++ word) rest := by
  induction text generalizing word with
  | nil => rfl
  | cons c others ih =>
    obtain ⟨first, further⟩ := List.forall_mem_cons.mp visible
    have kept : ¬isBlank c = true := by simp [first]
    rw [List.cons_append, wordsFrom, if_neg kept, ih further]
    simp

/-- Visible text is one word. -/
theorem words_of_visible (filled : text ≠ []) (visible : ∀ c ∈ text, isBlank c = false) :
    words text = [text] := by
  have whole : wordsFrom [] (text ++ []) = wordsFrom (text.reverse ++ []) [] :=
    wordsFrom_append_visible visible
  rw [List.append_nil, List.append_nil] at whole
  have some : ¬text.reverse.isEmpty = true := by simpa using filled
  unfold words
  rw [whole, wordsFrom, if_neg some, List.reverse_reverse]

/-- Visible text in front of a blank is the first word. -/
theorem words_visible_append (filled : text ≠ []) (visible : ∀ c ∈ text, isBlank c = false)
    (blank : isBlank c = true) : words (text ++ c :: rest) = text :: words rest := by
  rw [words_append_blank blank, words_of_visible filled visible]
  rfl

/-- The beginning of a text has no more words than the text. -/
theorem length_words_append (text rest : List Char) :
    (words text).length ≤ (words (text ++ rest)).length := by
  have general (word : List Char) :
      (wordsFrom word text).length ≤ (wordsFrom word (text ++ rest)).length := by
    induction text generalizing word with
    | nil =>
      rw [List.nil_append, wordsFrom]
      by_cases begun : word.isEmpty = true
      · rw [if_pos begun]
        exact Nat.zero_le _
      · rw [if_neg begun]
        exact length_wordsFrom_pos (by simpa using begun)
    | cons c others ih =>
      rw [List.cons_append, wordsFrom, wordsFrom]
      by_cases blank : isBlank c = true
      · rw [if_pos blank, if_pos blank]
        by_cases begun : word.isEmpty = true
        · rw [if_pos begun, if_pos begun]
          exact ih []
        · rw [if_neg begun, if_neg begun, List.length_cons, List.length_cons]
          have := ih []
          omega
      · rw [if_neg blank, if_neg blank]
        exact ih (c :: word)
  exact general []

/-- Blanks behind a text do not matter. -/
theorem words_append_blanks (blanks : ∀ c ∈ rest, isBlank c = true) :
    words (text ++ rest) = words text := by
  induction rest generalizing text with
  | nil => rw [List.append_nil]
  | cons c others ih =>
    obtain ⟨first, further⟩ := List.forall_mem_cons.mp blanks
    have nothing : words ([] ++ others) = [] := ih further
    rw [List.nil_append] at nothing
    rw [words_append_blank first, nothing, List.append_nil]

/-- A text and the same text without the blanks at its ends have the same words. -/
theorem words_trim (text : List Char) : words (trim text) = words text := by
  have front (text : List Char) : words (trimStart text) = words text := by
    unfold trimStart
    induction text with
    | nil => rfl
    | cons c others ih =>
      by_cases blank : isBlank c = true
      · rw [List.dropWhile_cons_of_pos blank, ih, words_cons_blank blank]
      · rw [List.dropWhile_cons_of_neg blank]
  have behind (text : List Char) : words (trimEnd text) = words text := by
    obtain ⟨back, blanks, split⟩ := exists_trimEnd_blanks text
    conv_rhs => rw [← split]
    rw [words_append_blanks blanks]
  unfold trim
  rw [behind, front]

/-- The words of a text are the words of its lines. -/
theorem words_eq_flatMap_splitOn : words text = (splitOn '\n' text).flatMap words := by
  have lineFeed : isBlank '\n' = true := by decide
  -- a word that was begun before the text ends in its first line
  have general : ∀ word first others, splitOn '\n' text = first :: others →
      wordsFrom word text = wordsFrom word first ++ others.flatMap words := by
    induction text with
    | nil =>
      intro word first others pieces
      obtain ⟨rfl, rfl⟩ := List.cons.inj pieces
      exact (List.append_nil _).symm
    | cons c rest ih =>
      intro word first others pieces
      obtain ⟨next, more, split⟩ : ∃ next more, splitOn '\n' rest = next :: more := by
        rw [splitOn_eq]
        exact List.exists_cons_of_ne_nil (List.splitOnP_ne_nil _ rest)
      rw [splitOn, split] at pieces
      by_cases ends : c = '\n'
      · rw [if_pos ends] at pieces
        obtain ⟨rfl, rfl⟩ := List.cons.inj pieces
        have further := ih [] next more split
        rw [ends]
        change wordsFrom word ([] ++ '\n' :: rest) = _
        rw [wordsFrom_append_blank lineFeed, List.flatMap_cons, words, further]
        rfl
      · rw [if_neg ends] at pieces
        obtain ⟨rfl, rfl⟩ := List.cons.inj pieces
        rw [wordsFrom, wordsFrom]
        by_cases blank : isBlank c = true
        · rw [if_pos blank, if_pos blank, ih [] next more split]
          by_cases begun : word.isEmpty = true
          · rw [if_pos begun, if_pos begun]
          · rw [if_neg begun, if_neg begun]
            rfl
        · rw [if_neg blank, if_neg blank]
          exact ih (c :: word) next more split
  obtain ⟨first, others, pieces⟩ : ∃ first others, splitOn '\n' text = first :: others := by
    rw [splitOn_eq]
    exact List.exists_cons_of_ne_nil (List.splitOnP_ne_nil _ text)
  rw [pieces]
  exact general [] first others pieces

end Micromag.Text
