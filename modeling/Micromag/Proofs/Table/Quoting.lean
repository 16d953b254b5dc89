import Micromag.Proofs.Table.Parsing

/-!
# Quoted names

A name between braces is a field of a header, whatever is in it; a name without blanks and braces
needs none around it. The braces around a name are told from those in it by counting: while the name
is read as many braces are open as it has left open, and one more. So the brace behind the name ends
the field exactly when the name closes all braces that it opens.
-/

/-!
## Counting braces

A reader that counts braces comes to the end of a text when no beginning of the text closes more of
them than are open.
-/

namespace Micromag.Script

variable {depth last : Nat} {text : List Char}

/-- The beginnings of a text are nothing and its first character with a beginning of the rest. -/
theorem forall_prefix_cons {p : List Char → Prop} {c : Char} :
    (∀ front, front <+: c :: text → p front) ↔ p [] ∧ ∀ front, front <+: text → p (c :: front) := by
  simp only [List.prefix_cons_iff]
  constructor
  · exact fun all => ⟨all [] (.inl rfl), fun front begins => all _ (.inr ⟨front, rfl, begins⟩)⟩
  · rintro ⟨empty, others⟩ _ (rfl | ⟨front, rfl, begins⟩)
    · exact empty
    · exact others front begins

/-- There is a depth behind a text when no beginning of it closes more braces than are open, and it
is the depth before, with those that the text opens and without those that it closes. -/
theorem depthAfter?_eq_some_iff : depthAfter? depth text = some last ↔
    (∀ front, front <+: text → front.count '\x7d' ≤ depth + front.count '\x7b') ∧
      last + text.count '\x7d' = depth + text.count '\x7b' := by
  induction text generalizing depth with
  | nil =>
    show some depth = some last ↔ _
    simp [eq_comm]
  | cons c rest ih =>
    rw [depthAfter?_cons, forall_prefix_cons]
    by_cases opens : c = '\x7b'
    · have steps : stepDepth? depth c = some (depth + 1) := by
        rw [opens]
        rfl
      rw [steps, Option.bind_some, ih, opens]
      simp only [List.count_cons_self, List.count_cons_of_ne (show '\x7b' ≠ '\x7d' by decide)]
      simp [Nat.add_assoc, Nat.add_comm 1]
    · by_cases closes : c = '\x7d'
      · rw [closes]
        simp only [List.count_cons_self, List.count_cons_of_ne (show '\x7d' ≠ '\x7b' by decide)]
        cases depth with
        | zero =>
          have steps : stepDepth? 0 '\x7d' = none := rfl
          rw [steps]
          refine ⟨(nomatch ·), fun ⟨⟨_, others⟩, _⟩ => ?_⟩
          have first := others [] List.nil_prefix
          simp at first
        | succ depth =>
          have steps : stepDepth? (depth + 1) '\x7d' = some depth := rfl
          rw [steps, Option.bind_some, ih]
          simp [Nat.add_right_comm _ 1, ← Nat.add_assoc]
      · have steps : stepDepth? depth c = some depth :=
          stepDepth?_of_notBrace (by simp [isBrace, opens, closes])
        rw [steps, Option.bind_some, ih]
        simp [List.count_cons_of_ne opens, List.count_cons_of_ne closes]

end Micromag.Script

/-! ## Names in a header -/

namespace Micromag.Table

open Text

/-- No beginning of a text closes more braces than it opens. -/
def Orderly (text : List Char) : Prop :=
  ∀ front, front <+: text → front.count '\x7d' ≤ front.count '\x7b'

/-- As many braces close in a text as open. -/
def Closed (text : List Char) : Prop := text.count '\x7d' = text.count '\x7b'

instance (text : List Char) : Decidable (Closed text) :=
  inferInstanceAs (Decidable (text.count '\x7d' = text.count '\x7b'))

/-- A name is quoted by braces, or stands as it is if there is something in it and neither a blank
nor a brace. -/
inductive Quotes (name : String) : List Char → Prop where
  /-- Between braces. -/
  | braced : Quotes name ('\x7b' :: (name.toList ++ ['\x7d']))
  /-- As it is. -/
  | bare (filled : name ≠ "")
      (plain : ∀ c ∈ name.toList, isBlank c = false ∧ c ≠ '\x7b' ∧ c ≠ '\x7d') :
      Quotes name name.toList

/-- Quoted names with blanks between them, and perhaps around them. -/
inductive Lists : List String → List Char → Prop where
  /-- There are no names. -/
  | none {text : List Char} (blanks : Blanks text) : Lists [] text
  /-- There are names. -/
  | some {names : List String} {front text back : List Char} (before : Blanks front)
      (spaced : Spaced Quotes names text) (behind : Blanks back) :
      Lists names (front ++ text ++ back)

variable {name : String} {text rest : List Char}

/-- The braces of an orderly text can be counted; none is left open when as many close as open. -/
theorem Orderly.exists_depth (orderly : Orderly text) :
    ∃ last, Script.depthAfter? 0 text = some last ∧ (last = 0 ↔ Closed text) := by
  have most := orderly text List.prefix_rfl
  unfold Closed
  refine ⟨text.count '\x7b' - text.count '\x7d',
    Script.depthAfter?_eq_some_iff.mpr ⟨fun front begins => ?_, by omega⟩, by omega⟩
  rw [Nat.zero_add]
  exact orderly front begins

/-- A text is orderly when its braces can be counted. -/
theorem orderly_of_depthAfter? {last : Nat} (counted : Script.depthAfter? 0 text = some last) :
    Orderly text := fun front begins => by
  have bound := (Script.depthAfter?_eq_some_iff.mp counted).1 front begins
  rwa [Nat.zero_add] at bound

/-- Texts are counted one after the other. -/
theorem exists_depth_append {depth middle : Nat}
    (first : Script.depthAfter? depth text = some middle)
    (second : ∃ last, Script.depthAfter? 0 rest = some last) :
    ∃ last, Script.depthAfter? depth (text ++ rest) = some last := by
  obtain ⟨last, counted⟩ := second
  have deeper := Script.depthAfter?_add middle counted
  rw [Nat.zero_add] at deeper
  exact ⟨last + middle, by rw [Script.depthAfter?_append, first, Option.bind_some, deeper]⟩

/-- Text without braces leaves the depth. -/
theorem depthAfter?_unbraced (none : ∀ c ∈ text, c ≠ '\x7b' ∧ c ≠ '\x7d') :
    Script.depthAfter? 0 text = some 0 :=
  Script.balanced_of_unbraced (fun c member => by simp [Script.isBrace, none c member]) 0

/-- Blanks leave the depth. -/
theorem Blanks.depthAfter? (blanks : Blanks text) : Script.depthAfter? 0 text = some 0 := by
  refine depthAfter?_unbraced fun c member => ⟨?_, ?_⟩ <;>
  · rintro rfl
    exact absurd (blanks _ member) (by decide)

/-- The braces of an orderly name that is quoted can be counted. -/
theorem Quotes.exists_depth (quotes : Quotes name text) (orderly : Orderly name.toList) :
    ∃ last, Script.depthAfter? 0 text = some last := by
  cases quotes with
  | braced =>
    obtain ⟨last, counted, -⟩ := orderly.exists_depth
    have inside : Script.depthAfter? 1 name.toList = some (last + 1) := by
      have deeper := Script.depthAfter?_add 1 counted
      rwa [Nat.zero_add] at deeper
    refine ⟨last, ?_⟩
    show (Script.depthAfter? 1 (name.toList ++ ['\x7d'])) = some last
    rw [Script.depthAfter?_append, inside]
    rfl
  | bare _ plain =>
    exact ⟨0, depthAfter?_unbraced fun c member => (plain c member).2⟩

/-- So can those of orderly names that are quoted one after the other. -/
theorem Spaced.exists_depth {names : List String} (spaced : Spaced Quotes names text)
    (orderly : ∀ name ∈ names, Orderly name.toList) :
    ∃ last, Script.depthAfter? 0 text = some last := by
  induction spaced with
  | last quotes => exact quotes.exists_depth (orderly _ List.mem_cons_self)
  | cons quotes blanks _ _ ih =>
    obtain ⟨own, others⟩ := List.forall_mem_cons.mp orderly
    obtain ⟨_, first⟩ := quotes.exists_depth own
    obtain ⟨_, second⟩ := exists_depth_append first ⟨_, Blanks.depthAfter? blanks⟩
    exact exists_depth_append second (ih others)

/-! ## Reading names -/

variable {fields : List (List Char)}

/-- A quoted name that closes its braces is read up to its end. -/
theorem Quotes.foldl_closed (quotes : Quotes name text) (orderly : Orderly name.toList)
    (closed : Closed name.toList) :
    text.foldl HeaderScan.step (.between fields) = .behind fields name.toList.reverse := by
  cases quotes with
  | braced =>
    obtain ⟨last, counted, zero⟩ := orderly.exists_depth
    obtain rfl := zero.mpr closed
    have opened : HeaderScan.step (.between fields) '\x7b' = .within fields [] 0 := rfl
    rw [List.foldl_cons, opened, List.foldl_append, foldl_within counted, List.append_nil]
    rfl
  | bare filled plain => exact (WritesField.bare filled plain).foldl_step

/-- A quoted name that leaves braces open takes the brace behind it and what else follows. -/
theorem Quotes.fields_unclosed (quotes : Quotes name text) (orderly : Orderly name.toList)
    (unclosed : ¬Closed name.toList)
    (others : ∃ last, Script.depthAfter? 0 rest = some last) :
    ((text ++ rest).foldl HeaderScan.step (.between fields)).finish.fields =
      (name.toList ++ '\x7d' :: rest) :: fields := by
  cases quotes with
  | braced =>
    obtain ⟨left, counted, zero⟩ := orderly.exists_depth
    obtain ⟨depth, rfl⟩ := Nat.exists_eq_succ_of_ne_zero fun none => unclosed (zero.mp none)
    have opened : HeaderScan.step (.between fields) '\x7b' = .within fields [] 0 := rfl
    have behind : Script.depthAfter? (depth + 1) ['\x7d'] = some depth := rfl
    obtain ⟨last, deeper⟩ := exists_depth_append behind others
    rw [List.cons_append, List.foldl_cons, opened, List.append_assoc, List.foldl_append,
      foldl_within counted, foldl_within deeper]
    unfold HeaderScan.within HeaderScan.finish
    rw [if_pos rfl]
    simp
  | bare _ plain =>
    refine absurd ?_ unclosed
    unfold Closed
    rw [List.count_eq_zero.mpr fun member => (plain _ member).2.1 rfl,
      List.count_eq_zero.mpr fun member => (plain _ member).2.2 rfl]

/-- That is not the names that begin with this one. -/
theorem fields_ne (names : List String) :
    (name.toList ++ '\x7d' :: rest) :: fields ≠
      ((name :: names).map String.toList).reverse ++ fields := by
  intro same
  have single : [name.toList ++ '\x7d' :: rest] = ((name :: names).map String.toList).reverse :=
    List.append_cancel_right same
  have first := (List.cons.inj (List.reverse_eq_iff.mpr single)).1
  have longer := congrArg List.length first
  rw [List.length_append, List.length_cons] at longer
  omega

/-- Blanks behind the last field leave it as it is. -/
theorem fields_behind (blanks : Blanks rest) (current : List Char) :
    (rest.foldl HeaderScan.step (.behind fields current)).finish.fields =
      current.reverse :: fields := by
  rcases eq_or_ne rest [] with rfl | some
  · rfl
  · rw [foldl_gap blanks some]
    rfl

/-- Orderly names that are quoted one after the other are the fields when all of them close their
braces. -/
theorem Spaced.fields_iff {names : List String} (spaced : Spaced Quotes names text)
    (orderly : ∀ name ∈ names, Orderly name.toList) (blanks : Blanks rest)
    (fields : List (List Char)) :
    ((text ++ rest).foldl HeaderScan.step (.between fields)).finish.fields =
        (names.map String.toList).reverse ++ fields ↔
      ∀ name ∈ names, Closed name.toList := by
  induction spaced generalizing fields with
  | @last name text quotes =>
    obtain ⟨own, -⟩ := List.forall_mem_cons.mp orderly
    by_cases closed : Closed name.toList
    · refine iff_of_true ?_ (List.forall_mem_singleton.mpr closed)
      rw [List.foldl_append, quotes.foldl_closed own closed, fields_behind blanks,
        List.reverse_reverse]
      rfl
    · rw [quotes.fields_unclosed own closed ⟨_, Blanks.depthAfter? blanks⟩]
      exact iff_of_false (fields_ne []) fun all => closed (all name List.mem_cons_self)
  | @cons name text gap others names quotes gapBlank some further ih =>
    obtain ⟨own, orderly⟩ := List.forall_mem_cons.mp orderly
    rw [List.append_assoc, List.append_assoc]
    by_cases closed : Closed name.toList
    · rw [List.foldl_append, quotes.foldl_closed own closed, List.foldl_append,
        foldl_gap gapBlank some, List.reverse_reverse, List.forall_mem_cons, and_iff_right closed,
        List.map_cons, List.reverse_cons, List.append_assoc]
      exact ih orderly _
    · -- all that follows goes to the field of this name, so that there are too few fields
      obtain ⟨_, counted⟩ := further.exists_depth orderly
      have behind := exists_depth_append (Blanks.depthAfter? gapBlank)
        (exists_depth_append counted ⟨_, Blanks.depthAfter? blanks⟩)
      rw [quotes.fields_unclosed own closed behind]
      exact iff_of_false (fields_ne names) fun all => closed (all name List.mem_cons_self)

/-- Fields are names when their characters are those of the names, the latest first. -/
theorem map_ofList_reverse_iff {names : List String} :
    fields.reverse.map String.ofList = names ↔ fields = (names.map String.toList).reverse := by
  constructor
  · rintro rfl
    simp
  · rintro rfl
    simp

/-- Names of which no beginning closes more braces than it opens are read back from a header in
which they are quoted, with any blanks between and around them, exactly when each of them closes all
braces that it opens. -/
theorem headerFields_quoted_iff {names : List String} {text : String}
    (listed : Lists names text.toList) (orderly : ∀ name ∈ names, Orderly name.toList) :
    headerFields text = names ↔ ∀ name ∈ names, Closed name.toList := by
  unfold headerFields splitHeader
  show ((text.toList.foldl HeaderScan.step (.between [])).finish.fields.reverse).map String.ofList =
    names ↔ _
  generalize text.toList = line at listed
  cases listed with
  | none blanks =>
    rw [foldl_blanks blanks]
    exact iff_of_true rfl (nofun)
  | @some names front text back before spaced behind =>
    have read := spaced.fields_iff orderly behind []
    rw [List.append_nil] at read
    rw [List.append_assoc, List.foldl_append, foldl_blanks before, map_ofList_reverse_iff, read]

/-- A name with a blank, one as it is, one with nothing in it, and one with braces. -/
def mixedNames : List String := ["Max mxHxm", "::mx", "", "a\x7b\x7bb\x7d c\x7d"]

/-- A header with these names. -/
def mixedHeader : String :=
  String.ofList ([' '] ++ ("\x7bMax mxHxm\x7d".toList ++ ['\t'] ++ ("::mx".toList ++ [' '] ++
    ("\x7b\x7d".toList ++ ['\u3000', ' '] ++ "\x7ba\x7b\x7bb\x7d c\x7d\x7d".toList))) ++ [' '])

/-- The names in the header are read back. -/
theorem headerFields_quoted_mixed :
    Lists mixedNames mixedHeader.toList ∧ (∀ name ∈ mixedNames, Orderly name.toList) ∧
      headerFields mixedHeader = mixedNames := by
  have listed : Lists mixedNames mixedHeader.toList := by
    unfold mixedHeader
    rw [String.toList_ofList]
    refine .some (by decide) (.cons .braced (by decide) (by decide) (.cons (.bare (by decide)
      (by decide)) (by decide) (by decide) (.cons .braced (by decide) (by decide)
        (.last .braced)))) (by decide)
  have counted : ∀ name ∈ mixedNames, Script.depthAfter? 0 name.toList = some 0 := by decide
  have orderly : ∀ name ∈ mixedNames, Orderly name.toList := fun name member =>
    orderly_of_depthAfter? (counted name member)
  exact ⟨listed, orderly, (headerFields_quoted_iff listed orderly).mpr (by decide)⟩

end Micromag.Table
