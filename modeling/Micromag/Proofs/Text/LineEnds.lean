import Micromag.Proofs.Text.Basic

/-!
# Line ends

A line ends in a line feed, in a carriage return, or in both of them together. Text may mix these
ends, and a carriage return takes a line feed behind it for a part of itself. In canonical form
every line ends in a line feed: the form is made of the lines and of nothing else, so that texts with
the same lines have the same form.
-/

namespace Micromag.Text

variable {c : Char} {text rest line : List Char} {lines more : List (List Char)}

/-! ## The lines of a text -/

/-- What ends a line. -/
inductive LineEnd where
  /-- A line feed. -/
  | feed
  /-- A carriage return. -/
  | carriage
  /-- A carriage return and a line feed. -/
  | both
deriving DecidableEq, Repr

/-- The characters of a line end. -/
def LineEnd.chars : LineEnd → List Char
  | feed => ['\n']
  | carriage => ['\r']
  | both => ['\r', '\n']

/-- Whether no line ends inside a text. -/
structure Unbroken (text : List Char) : Prop where
  /-- It has no line feed. -/
  noFeed : '\n' ∉ text
  /-- It has no carriage return. -/
  noReturn : '\r' ∉ text

/-- Whether a text consists of some lines. Each of them is ended, but the last one need not be if it
is not empty. -/
inductive Consists : List Char → List (List Char) → Prop
  /-- Without text there are no lines. -/
  | empty : Consists [] []
  /-- The last line is not ended. -/
  | last {line : List Char} (one : Unbroken line) (filled : line ≠ []) : Consists line [line]
  /-- A line is ended. A carriage return before a line feed is only a part of the end. -/
  | ended {line rest : List Char} {lines : List (List Char)} (one : Unbroken line)
      (ending : LineEnd) (whole : ending = .carriage → rest.head? ≠ some '\n')
      (others : Consists rest lines) :
      Consists (line ++ (ending.chars ++ rest)) (line :: lines)

/-- Lines with a character in front of the first one. -/
def intoFirst (c : Char) : List (List Char) → List (List Char)
  | [] => [[c]]
  | first :: others => (c :: first) :: others

/-- The lines of a text, whatever ends they have. -/
def universalLines : List Char → List (List Char)
  | [] => []
  | '\r' :: '\n' :: rest => [] :: universalLines rest
  | '\r' :: rest => [] :: universalLines rest
  | '\n' :: rest => [] :: universalLines rest
  | c :: rest => intoFirst c (universalLines rest)

/-- Nothing is a line without ends. -/
theorem unbroken_nil : Unbroken [] := ⟨List.not_mem_nil, List.not_mem_nil⟩

/-- A line without ends has no end as its first character and none behind it. -/
theorem unbroken_cons : Unbroken (c :: line) ↔ (c ≠ '\n' ∧ c ≠ '\r') ∧ Unbroken line := by
  constructor
  · intro one
    have feed := List.ne_and_not_mem_of_not_mem_cons one.noFeed
    have carriage := List.ne_and_not_mem_of_not_mem_cons one.noReturn
    exact ⟨⟨feed.1.symm, carriage.1.symm⟩, feed.2, carriage.2⟩
  · rintro ⟨⟨feed, carriage⟩, one⟩
    exact ⟨List.not_mem_cons_of_ne_of_not_mem feed.symm one.noFeed,
      List.not_mem_cons_of_ne_of_not_mem carriage.symm one.noReturn⟩

/-- A character that ends no line is in front of the first line. -/
theorem Consists.cons (visible : c ≠ '\n' ∧ c ≠ '\r') (consists : Consists rest lines) :
    Consists (c :: rest) (intoFirst c lines) := by
  cases consists with
  | empty => exact .last (unbroken_cons.mpr ⟨visible, unbroken_nil⟩) (List.cons_ne_nil c [])
  | last one filled => exact .last (unbroken_cons.mpr ⟨visible, one⟩) (List.cons_ne_nil c _)
  | ended one ending whole others =>
    exact .ended (unbroken_cons.mpr ⟨visible, one⟩) ending whole others

/-- Every text consists of its lines. -/
theorem consists_universalLines (text : List Char) : Consists text (universalLines text) := by
  fun_induction universalLines text with
  | case1 => exact .empty
  | case2 rest ih => exact .ended unbroken_nil .both nofun ih
  | case3 rest apart ih =>
    -- a line feed in front of the rest would have been taken for a part of the end
    refine .ended unbroken_nil .carriage (fun _ starts => ?_) ih
    obtain ⟨others, same⟩ := List.head?_eq_some_iff.mp starts
    exact apart others same
  | case4 rest ih => exact .ended unbroken_nil .feed nofun ih
  | case5 c rest both carriage feed ih => exact ih.cons ⟨feed, carriage⟩

/-- A character that ends no line goes to the first line. -/
theorem universalLines_cons (visible : c ≠ '\n' ∧ c ≠ '\r') :
    universalLines (c :: rest) = intoFirst c (universalLines rest) := by
  rw [universalLines]
  · exact fun _ same => absurd same visible.2
  · exact visible.2
  · exact visible.1

/-- A text without ends is one line. -/
theorem universalLines_of_unbroken (one : Unbroken line) (filled : line ≠ []) :
    universalLines line = [line] := by
  induction line with
  | nil => exact absurd rfl filled
  | cons c others ih =>
    obtain ⟨visible, inner⟩ := unbroken_cons.mp one
    rw [universalLines_cons visible]
    cases others with
    | nil => rfl
    | cons d further =>
      rw [ih inner (List.cons_ne_nil d further)]
      rfl

/-- A line with its end is the first of the lines. -/
theorem universalLines_ended (one : Unbroken line) (ending : LineEnd)
    (whole : ending = .carriage → rest.head? ≠ some '\n') :
    universalLines (line ++ (ending.chars ++ rest)) = line :: universalLines rest := by
  induction line with
  | nil =>
    cases ending with
    | feed => rfl
    | both => rfl
    | carriage =>
      show universalLines ('\r' :: rest) = _
      rw [universalLines]
      exact fun others same => whole rfl (same ▸ rfl)
  | cons c others ih =>
    obtain ⟨visible, inner⟩ := unbroken_cons.mp one
    rw [List.cons_append, universalLines_cons visible, ih inner]
    rfl

/-- A text consists of no other lines than its own. -/
theorem consists_iff : Consists text lines ↔ lines = universalLines text := by
  constructor
  · intro consists
    induction consists with
    | empty => rfl
    | last one filled => exact (universalLines_of_unbroken one filled).symm
    | ended one ending whole others ih => rw [universalLines_ended one ending whole, ih]
  · rintro rfl
    exact consists_universalLines text

/-- No line ends inside a line of a text. -/
theorem Consists.unbroken (consists : Consists text lines) : ∀ row ∈ lines, Unbroken row := by
  induction consists with
  | empty => exact fun _ member => absurd member List.not_mem_nil
  | last one filled => exact List.forall_mem_singleton.mpr one
  | ended one ending whole others ih => exact List.forall_mem_cons.mpr ⟨one, ih⟩

/-! ## The canonical form -/

/-- Lines with a line feed behind each of them. -/
def fed (lines : List (List Char)) : List Char := lines.flatMap (· ++ ['\n'])

/-- Lines with line feeds behind them are a text that consists of these lines. -/
theorem consists_fed (one : ∀ row ∈ lines, Unbroken row) : Consists (fed lines) lines := by
  induction lines with
  | nil => exact .empty
  | cons row others ih =>
    obtain ⟨first, further⟩ := List.forall_mem_cons.mp one
    have split : fed (row :: others) = row ++ (LineEnd.feed.chars ++ fed others) :=
      List.append_assoc row ['\n'] (fed others)
    rw [split]
    exact .ended first .feed nofun (ih further)

/-- A part without carriage returns stays. -/
theorem unifyLineEnds_append (plain : '\r' ∉ line) :
    unifyLineEnds (line ++ rest) = line ++ unifyLineEnds rest := by
  induction line with
  | nil => rfl
  | cons c others ih =>
    obtain ⟨other, inner⟩ := List.ne_and_not_mem_of_not_mem_cons plain
    rw [List.cons_append, List.cons_append, ← ih inner, unifyLineEnds]
    · exact fun _ same => absurd same other.symm
    · exact fun same => absurd same other.symm

/-- Text without carriage returns has one kind of line ends. -/
theorem unifyLineEnds_eq (plain : '\r' ∉ text) : unifyLineEnds text = text := by
  have whole : unifyLineEnds (text ++ []) = text ++ unifyLineEnds [] := unifyLineEnds_append plain
  rwa [List.append_nil, unifyLineEnds, List.append_nil] at whole

/-- Every end becomes a line feed. -/
theorem unifyLineEnds_ending (ending : LineEnd)
    (whole : ending = .carriage → rest.head? ≠ some '\n') :
    unifyLineEnds (ending.chars ++ rest) = '\n' :: unifyLineEnds rest := by
  cases ending with
  | both => rfl
  | feed =>
    show unifyLineEnds (['\n'] ++ rest) = ['\n'] ++ _
    exact unifyLineEnds_append (by decide)
  | carriage =>
    show unifyLineEnds ('\r' :: rest) = _
    rw [unifyLineEnds]
    exact fun others same => whole rfl (same ▸ rfl)

/-- Text that is not ended gets a line feed. -/
theorem endLine_of_ne (filled : text ≠ []) (unended : text.getLast? ≠ some '\n') :
    endLine text = text ++ ['\n'] := by
  unfold endLine
  rw [if_neg]
  rw [Bool.or_eq_true, List.isEmpty_iff, decide_eq_true_iff]
  exact not_or.mpr ⟨filled, unended⟩

/-- Text that is ended stays. -/
theorem endLine_of_eq (ended : text.getLast? = some '\n') : endLine text = text := by
  unfold endLine
  rw [if_pos]
  rw [Bool.or_eq_true, decide_eq_true_iff]
  exact .inr ended

/-- What stands up to a line feed is ended, and what stands behind it is ended for itself. -/
theorem endLine_append_cons (line rest : List Char) :
    endLine (line ++ '\n' :: rest) = line ++ '\n' :: endLine rest := by
  cases rest with
  | nil => exact endLine_of_eq (List.getLast?_concat)
  | cons c others =>
    have same : (line ++ '\n' :: c :: others).getLast? = (c :: others).getLast? := by
      rw [List.getLast?_append_cons, List.getLast?_cons_cons]
    by_cases ended : (c :: others).getLast? = some '\n'
    · rw [endLine_of_eq ended, endLine_of_eq (same.trans ended)]
    · rw [endLine_of_ne (List.cons_ne_nil c others) ended, endLine_of_ne (by simp) (same ▸ ended),
        List.append_assoc]
      rfl

/-- A line without ends does not end in one. -/
theorem Unbroken.last_ne (one : Unbroken line) : line.getLast? ≠ some '\n' :=
  fun last => one.noFeed (List.mem_of_getLast? last)

/-- The canonical form of a text is made of its lines. -/
theorem Consists.canonicalLines (consists : Consists text lines) :
    canonicalLines text = fed lines := by
  unfold Text.canonicalLines
  induction consists with
  | empty => rfl
  | last one filled =>
    rw [unifyLineEnds_eq one.noReturn, endLine_of_ne filled one.last_ne]
    exact (List.append_nil _).symm
  | ended one ending whole others ih =>
    rw [unifyLineEnds_append one.noReturn, unifyLineEnds_ending ending whole,
      endLine_append_cons, ih]
    exact (List.append_assoc _ ['\n'] _).symm

/-- The canonical form of a text has the lines of the text. -/
theorem consists_canonicalLines : Consists (canonicalLines text) lines ↔ Consists text lines := by
  have own := consists_universalLines text
  have form : Consists (canonicalLines text) (universalLines text) :=
    own.canonicalLines ▸ consists_fed own.unbroken
  rw [consists_iff, consists_iff, consists_iff.mp form]

/-- Lines with line feeds behind them are found again when only line feeds end a line. -/
theorem lines_fed (one : ∀ row ∈ lines, Unbroken row) : Text.lines (fed lines) = lines := by
  induction lines with
  | nil => rfl
  | cons row others ih =>
    obtain ⟨first, further⟩ := List.forall_mem_cons.mp one
    have split : fed (row :: others) = row ++ '\n' :: fed others :=
      List.append_assoc row ['\n'] (fed others)
    have kept : dropReturn row = row :=
      if_neg fun last => first.noReturn (List.mem_of_getLast? last)
    rw [split, lines_append_cons first.noFeed, kept, ih further]

/-- Text in canonical form: it has no carriage return, and it is empty or ends in a line feed. -/
structure CanonicalEnds (text : List Char) : Prop where
  /-- It has no carriage return. -/
  noReturn : '\r' ∉ text
  /-- It is empty or ended. -/
  ended : text = [] ∨ text.getLast? = some '\n'

/-- Lines with line feeds behind them are canonical. -/
theorem canonical_fed (one : ∀ row ∈ lines, Unbroken row) : CanonicalEnds (fed lines) where
  noReturn inside := by
    obtain ⟨row, member, within⟩ := List.mem_flatMap.mp inside
    rcases List.mem_append.mp within with own | feed
    · exact (one row member).noReturn own
    · exact absurd (List.mem_singleton.mp feed) (by decide)
  ended := by
    rcases List.eq_nil_or_concat lines with rfl | ⟨front, row, rfl⟩
    · exact .inl rfl
    · refine .inr ?_
      unfold fed
      rw [List.concat_eq_append, List.flatMap_append, List.flatMap_singleton, ← List.append_assoc,
        List.getLast?_concat]

/-! ## Two replacements -/

/-- Text in which a part is replaced by another wherever it is found, from the start on. What was
put in is not searched again. The part is given by its first character and the others. -/
def replaceAll (first : Char) (others new : List Char) : List Char → List Char
  | [] => []
  | c :: rest =>
    if (first :: others).isPrefixOf (c :: rest) then
      new ++ replaceAll first others new (rest.drop others.length)
    else c :: replaceAll first others new rest
termination_by text => text.length
decreasing_by all_goals simp only [List.length_drop, List.length_cons]; omega

/-- A part that is found is replaced. -/
theorem replaceAll_found (first : Char) (others new rest : List Char) :
    replaceAll first others new (first :: (others ++ rest)) =
      new ++ replaceAll first others new rest := by
  have found : (first :: others).isPrefixOf (first :: (others ++ rest)) = true :=
    List.isPrefixOf_iff_prefix.mpr (List.prefix_append (first :: others) rest)
  rw [replaceAll, if_pos found, List.drop_left]

/-- A character with which the part does not begin stays. -/
theorem replaceAll_stays {first : Char} {others : List Char} (new : List Char)
    (apart : ¬first :: others <+: c :: rest) :
    replaceAll first others new (c :: rest) = c :: replaceAll first others new rest := by
  rw [replaceAll, if_neg fun found => apart (List.isPrefixOf_iff_prefix.mp found)]

/-- Text with line feeds for carriage returns with a line feed behind them, and then for the other
carriage returns. -/
def replaceEnds (text : List Char) : List Char :=
  replaceAll '\r' [] ['\n'] (replaceAll '\r' ['\n'] ['\n'] text)

/-- The ends are unified by one replacement after the other. -/
theorem replaceEnds_eq (text : List Char) : replaceEnds text = unifyLineEnds text := by
  have begins {c first : Char} {others : List Char} (other : c ≠ first) (rest : List Char) :
      ¬first :: others <+: c :: rest :=
    fun found => other (List.cons_prefix_cons.mp found).1.symm
  unfold replaceEnds
  fun_induction unifyLineEnds text with
  | case1 => rw [replaceAll, replaceAll]
  | case2 rest ih =>
    have pair := replaceAll_found '\r' ['\n'] ['\n'] rest
    rw [List.singleton_append, List.singleton_append] at pair
    rw [pair, replaceAll_stays _ (begins (by decide) _), ih]
  | case3 rest apart ih =>
    -- the first replacement leaves a carriage return that stands alone to the second
    have alone : ¬['\r', '\n'] <+: '\r' :: rest := by
      intro found
      obtain ⟨others, same⟩ := (List.cons_prefix_cons.mp found).2
      exact apart others same.symm
    have found := replaceAll_found '\r' [] ['\n'] (replaceAll '\r' ['\n'] ['\n'] rest)
    rw [List.nil_append, List.singleton_append] at found
    rw [replaceAll_stays _ alone, found, ih]
  | case4 c rest both carriage ih =>
    rw [replaceAll_stays _ (begins carriage _), replaceAll_stays _ (begins carriage _), ih]

/-! ## Texts made of pieces -/

/-- What is behind an ended line ends the text. -/
theorem getLast?_ended (line : List Char) (ending : LineEnd) (filled : rest ≠ []) :
    (line ++ (ending.chars ++ rest)).getLast? = rest.getLast? := by
  obtain ⟨c, others, rfl⟩ := List.exists_cons_of_ne_nil filled
  rw [← List.append_assoc, List.getLast?_append_cons]

/-- The end of a line ends the text when nothing is behind it. -/
theorem getLast?_ending (line : List Char) (ending : LineEnd) :
    (line ++ (ending.chars ++ [])).getLast? =
      some (if ending = .carriage then '\r' else '\n') := by
  cases ending with
  | feed => exact List.getLast?_concat
  | carriage => exact List.getLast?_concat
  | both => exact (List.getLast?_append_cons line '\r' ['\n']).trans rfl

/-- The lines of two texts are found one after the other if the first is ended by a line feed. -/
theorem Consists.append (consists : Consists text lines) (ended : text.getLast? = some '\n')
    (others : Consists rest more) : Consists (text ++ rest) (lines ++ more) := by
  induction consists with
  | empty => cases ended
  | last one filled => exact absurd ended one.last_ne
  | @ended line tail lines one ending whole inner ih =>
    rw [List.append_assoc, List.append_assoc]
    cases tail with
    | nil =>
      -- the last end is no carriage return, which would take a line feed of the other text
      obtain rfl := consists_iff.mp inner
      rw [getLast?_ending] at ended
      exact .ended one ending (fun alone => by simp [alone] at ended) others
    | cons c tail =>
      rw [getLast?_ended line ending (List.cons_ne_nil c tail)] at ended
      exact .ended one ending whole (ih ended)

/-- A line feed behind a text that is not ended by one ends its last line. -/
theorem Consists.feed (consists : Consists text lines) (filled : text ≠ [])
    (unended : text.getLast? ≠ some '\n') : Consists (text ++ ['\n']) lines := by
  induction consists with
  | empty => exact absurd rfl filled
  | last one filled => exact .ended one .feed nofun .empty
  | @ended line tail lines one ending whole inner ih =>
    cases tail with
    | nil =>
      -- a carriage return at the end takes the line feed, and the two are one end
      rw [getLast?_ending] at unended
      obtain rfl : ending = .carriage := by simpa using unended
      rw [List.append_assoc]
      exact .ended one .both nofun inner
    | cons c tail =>
      rw [getLast?_ended line ending (List.cons_ne_nil c tail)] at unended
      rw [List.append_assoc, List.append_assoc]
      exact .ended one ending whole (ih (List.cons_ne_nil c tail) unended)

/-- Only the empty text has no lines. -/
theorem consists_nil : Consists text [] ↔ text = [] := by
  constructor
  · intro consists
    cases consists with
    | empty => rfl
  · rintro rfl
    exact .empty

/-! ## Texts with the same lines -/

/-- Whether two texts have the same lines, whatever ends these have. -/
def SameLines (text other : String) : Prop :=
  universalLines text.toList = universalLines other.toList

/-- The canonical form of a text is made of its lines. -/
theorem toList_canonical (text : String) :
    (canonical text).toList = fed (universalLines text.toList) := by
  unfold canonical
  rw [String.toList_ofList, (consists_universalLines _).canonicalLines]

/-- The canonical form of a text has its lines. -/
theorem sameLines_canonical (text : String) : SameLines (canonical text) text := by
  have own := consists_universalLines text.toList
  unfold SameLines
  rw [toList_canonical, ← consists_iff.mp (consists_fed own.unbroken)]

/-- Texts have the same canonical form when they have the same lines. -/
theorem canonical_eq_iff {text other : String} :
    canonical text = canonical other ↔ SameLines text other := by
  constructor
  · intro same
    calc universalLines text.toList
        = universalLines (canonical text).toList := (sameLines_canonical text).symm
      _ = universalLines (canonical other).toList := by rw [same]
      _ = universalLines other.toList := sameLines_canonical other
  · intro same
    rw [← String.toList_inj, toList_canonical, toList_canonical, same]

end Micromag.Text
