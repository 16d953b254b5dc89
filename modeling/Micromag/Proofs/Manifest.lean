import Micromag.Manifest
import Micromag.Proofs.Decimal.Reading
import Micromag.Proofs.Field.File.Cut
import Micromag.Proofs.Json.Parts
import Micromag.Proofs.Text.LineEnds

/-!
# Manifests are no field files

A document that is written on several lines begins every line, behind blanks, with a quote, a
bracket, a number or a word, and so does a manifest. The reader of field files looks for a comment
first, and a comment begins with a hash. So it finds no field in a manifest.
-/

namespace Micromag

open Text

namespace Json

variable {text more : List Char} {depth : Nat}

/-! ## The lines of a document -/

/-- Text that begins, behind blanks, with a character that is neither blank nor a hash. -/
def Begins (text : List Char) : Prop :=
  ∃ blanks c rest, text = List.replicate blanks ' ' ++ c :: rest ∧ isBlank c = false ∧ c ≠ '#'

/-- Text without carriage returns in which every line but the first begins so. -/
structure Tame (text : List Char) : Prop where
  /-- No carriage return is in the text. -/
  noReturn : '\r' ∉ text
  /-- The lines begin so. -/
  lines : ∀ front rest, text = front ++ '\n' :: rest → Begins rest

/-- Text that begins so may go on. -/
theorem Begins.append (begins : Begins text) (more : List Char) : Begins (text ++ more) := by
  obtain ⟨blanks, c, rest, rfl, visible, other⟩ := begins
  exact ⟨blanks, c, rest ++ more, by simp, visible, other⟩

/-- Text may be indented. -/
theorem Begins.indent (begins : Begins text) (count : Nat) :
    Begins (List.replicate count ' ' ++ text) := by
  obtain ⟨blanks, c, rest, rfl, visible, other⟩ := begins
  refine ⟨count + blanks, c, rest, ?_, visible, other⟩
  rw [← List.append_assoc, List.replicate_append_replicate]

namespace Tame

/-- Text on one line. -/
theorem of_line (noReturn : '\r' ∉ text) (oneLine : '\n' ∉ text) : Tame text :=
  ⟨noReturn, fun front rest same => absurd (same ▸ by simp) oneLine⟩

/-- Text after text. -/
theorem append (first : Tame text) (second : Tame more) : Tame (text ++ more) := by
  refine ⟨?_, fun front rest same => ?_⟩
  · rw [List.mem_append, not_or]
    exact ⟨first.noReturn, second.noReturn⟩
  · rcases List.append_eq_append_iff.mp same with ⟨between, rfl, tail⟩ | ⟨between, front, tail⟩
    · exact second.lines between rest tail
    · cases between with
      | nil => exact second.lines [] rest tail.symm
      | cons c others =>
        obtain ⟨rfl, rfl⟩ := List.cons.inj tail
        exact (first.lines _ others front).append more

/-- A character in front of text on its line. -/
theorem cons {c : Char} (same : c ≠ '\n') (plain : c ≠ '\r') (tame : Tame text) :
    Tame (c :: text) := by
  have line : Tame [c] := of_line (by simpa using plain.symm) (by simpa using same.symm)
  exact line.append tame

/-- A new line. -/
theorem newLine (tame : Tame text) (begins : Begins text) : Tame (newLine depth ++ text) := by
  have blank : '\n' ∉ List.replicate (2 * depth) ' ' ∧ '\r' ∉ List.replicate (2 * depth) ' ' :=
    ⟨fun member => absurd (List.eq_of_mem_replicate member) (by decide),
      fun member => absurd (List.eq_of_mem_replicate member) (by decide)⟩
  have rest : Tame (List.replicate (2 * depth) ' ' ++ text) :=
    (of_line blank.2 blank.1).append tame
  refine ⟨?_, fun front rest' same => ?_⟩
  · rw [Json.newLine, List.cons_append, List.mem_cons, not_or]
    exact ⟨by decide, rest.noReturn⟩
  · cases front with
    | nil =>
      obtain ⟨-, rfl⟩ := List.cons.inj same
      exact begins.indent _
    | cons c others =>
      obtain ⟨-, tail⟩ := List.cons.inj same
      exact rest.lines others rest' tail

end Tame

/-- A visible character begins text. -/
theorem begins_cons {c : Char} (visible : isBlank c = false) (other : c ≠ '#') :
    Begins (c :: text) := ⟨0, c, text, rfl, visible, other⟩

/-- Text with the characters of numbers. -/
theorem tame_number (filled : text ≠ []) (number : ∀ c ∈ text, c ∈ Micromag.numberChars) :
    Tame text ∧ Begins text := by
  have absent (c : Char) (other : c ∉ Micromag.numberChars) : c ∉ text :=
    fun member => other (number c member)
  refine ⟨.of_line (absent _ (by decide)) (absent _ (by decide)), ?_⟩
  cases text with
  | nil => exact absurd rfl filled
  | cons c rest =>
    have inside := number c List.mem_cons_self
    refine begins_cons (isBlank_numberChars inside) ?_
    rintro rfl
    exact absurd inside (by decide)

/-- No line ends inside quotes. -/
theorem noEnd_escape (c : Char) : '\n' ∉ escape c ∧ '\r' ∉ escape c := by
  have digit : ∀ n < 16, hexDigit n ≠ '\n' ∧ hexDigit n ≠ '\r' := by decide
  rcases escape_cases c with ⟨letter, same, -, stands⟩ | ⟨same, control⟩ | ⟨same, -, -, visible⟩
  · have letters : letter ≠ '\n' ∧ letter ≠ '\r' := by
      constructor <;> rintro rfl <;> cases stands
    rw [same]
    simp [letters.1.symm, letters.2.symm]
  · obtain ⟨high, highReturn⟩ := digit (c.toNat / 16) (by omega)
    obtain ⟨low, lowReturn⟩ := digit (c.toNat % 16) (by omega)
    rw [same]
    simp [high.symm, highReturn.symm, low.symm, lowReturn.symm]
  · have other : c ≠ '\n' ∧ c ≠ '\r' := by
      constructor <;> rintro rfl <;> exact absurd visible (by decide)
    rw [same]
    simp [other.1.symm, other.2.symm]

/-- Text in quotes. -/
theorem tame_quote (text : String) : Tame (quote text) ∧ Begins (quote text) := by
  have inside (c : Char) (absent : ∀ d, c ∉ escape d) (other : c ≠ '"') : c ∉ quote text := by
    unfold quote
    rw [List.mem_cons, List.mem_append, List.mem_flatMap, List.mem_singleton, not_or, not_or]
    exact ⟨other, fun ⟨d, _, member⟩ => absent d member, other⟩
  exact ⟨.of_line (inside _ (fun d => (noEnd_escape d).2) (by decide))
    (inside _ (fun d => (noEnd_escape d).1) (by decide)), begins_cons (by decide) (by decide)⟩

/-- A key and a document behind it. -/
theorem tame_entry (depth : Nat) {key : String} (tame : Tame text) :
    Tame (newLine (depth + 1) ++ quote key ++ ':' :: ' ' :: text) := by
  obtain ⟨quoted, begins⟩ := tame_quote key
  exact (quoted.newLine begins).append
    ((tame.cons (by decide) (by decide)).cons (by decide) (by decide))

mutual

/-- The lines of a document. -/
theorem tame_prettyChars (depth : Nat) (json : Json) :
    Tame (prettyChars depth json) ∧ Begins (prettyChars depth json) := by
  have plain {text : List Char} (line : (text.all fun c => c ≠ '\r' && c ≠ '\n') = true) :
      Tame text := by
    refine .of_line (fun member => ?_) fun member => ?_
    · exact absurd (List.all_eq_true.mp line _ member) (by decide)
    · exact absurd (List.all_eq_true.mp line _ member) (by decide)
  cases json with
  | null =>
    rw [prettyChars]
    exact ⟨plain (by decide), begins_cons (by decide) (by decide)⟩
  | bool value =>
    cases value <;> rw [prettyChars] <;>
      exact ⟨plain (by decide), begins_cons (by decide) (by decide)⟩
  | whole n => exact tame_number (integerDigits_ne_nil n) fun _ => integerDigits_mem
  | number x =>
    rw [prettyChars, Json.numberChars]
    split
    · exact tame_number (numberLayout.chars_ne_nil x) fun _ => Layout.chars_mem
    · exact ⟨plain (by decide), begins_cons (by decide) (by decide)⟩
  | string text => exact tame_quote text
  | array items =>
    cases items with
    | nil =>
      rw [prettyChars]
      exact ⟨plain (by decide), begins_cons (by decide) (by decide)⟩
    | cons item rest =>
      obtain ⟨tame, begins⟩ := tame_prettyChars (depth + 1) item
      rw [prettyChars]
      exact ⟨((tame.newLine begins).append (tame_prettyItems depth rest)).cons (by decide)
        (by decide), begins_cons (by decide) (by decide)⟩
  | object entries =>
    cases entries with
    | nil =>
      rw [prettyChars]
      exact ⟨plain (by decide), begins_cons (by decide) (by decide)⟩
    | cons entry rest =>
      obtain ⟨key, item⟩ := entry
      rw [prettyChars]
      exact ⟨((tame_entry depth (tame_prettyChars (depth + 1) item).1).append
        (tame_prettyEntries depth rest)).cons (by decide) (by decide),
        begins_cons (by decide) (by decide)⟩

/-- The lines of the items after the first. -/
theorem tame_prettyItems (depth : Nat) (items : List Json) : Tame (prettyItems depth items) := by
  cases items with
  | nil =>
    rw [prettyItems]
    exact (Tame.of_line (by decide) (by decide)).newLine (begins_cons (by decide) (by decide))
  | cons item rest =>
    obtain ⟨tame, begins⟩ := tame_prettyChars (depth + 1) item
    rw [prettyItems]
    exact ((tame.newLine begins).append (tame_prettyItems depth rest)).cons (by decide) (by decide)

/-- The lines of the entries after the first. -/
theorem tame_prettyEntries (depth : Nat) (entries : List (String × Json)) :
    Tame (prettyEntries depth entries) := by
  cases entries with
  | nil =>
    rw [prettyEntries]
    exact (Tame.of_line (by decide) (by decide)).newLine (begins_cons (by decide) (by decide))
  | cons entry rest =>
    obtain ⟨key, item⟩ := entry
    rw [prettyEntries]
    exact ((tame_entry depth (tame_prettyChars (depth + 1) item).1).append
      (tame_prettyEntries depth rest)).cons (by decide) (by decide)

end

end Json

/-! ## Reading it as a field file -/

namespace FieldFile

/-- A line that begins with something else than a hash is no comment. -/
theorem comment?_of_begins {line : List Char} (begins : Json.Begins line) :
    comment? (Utf8.encode line) = none := by
  obtain ⟨blanks, c, rest, rfl, visible, other⟩ := begins
  have indented : trim (List.replicate blanks ' ' ++ c :: rest) = trim (c :: rest) := by
    induction blanks with
    | zero => rfl
    | succ blanks ih =>
      rw [List.replicate_succ, List.cons_append, trim_cons_blank (by decide), ih]
  have trimmed : trim (c :: rest) = c :: trimEnd rest := by
    unfold trim
    rw [trimStart_cons visible, trimEnd_cons_visible visible]
  unfold comment?
  rw [Utf8.decodeLossy_encode, indented, trimmed]
  split
  · rename_i content same
    exact absurd (List.cons.inj same).1 other
  · rfl

/-- The first line of text begins as the text does. -/
theorem begins_line {line rest : List Char} (begins : Json.Begins (line ++ '\n' :: rest)) :
    Json.Begins line := by
  obtain ⟨blanks, c, tail, same, visible, other⟩ := begins
  rcases List.append_eq_append_iff.mp same with ⟨between, indent, ends⟩ | ⟨between, line, starts⟩
  · exfalso
    cases between with
    | nil =>
      obtain ⟨rfl, -⟩ := List.cons.inj ends
      exact absurd visible (by decide)
    | cons d others =>
      obtain ⟨rfl, -⟩ := List.cons.inj ends
      have member : '\n' ∈ List.replicate blanks ' ' := by simp [indent]
      exact absurd (List.eq_of_mem_replicate member) (by decide)
  · cases between with
    | nil =>
      obtain ⟨rfl, -⟩ := List.cons.inj starts
      exact absurd visible (by decide)
    | cons d others =>
      obtain ⟨rfl, -⟩ := List.cons.inj starts
      exact ⟨blanks, c, others, line, visible, other⟩

/-- No header is read of text in which every line begins with something else than a hash. -/
theorem readHeader_of_begins {text : List Char}
    (lines : ∀ front rest, text = front ++ '\n' :: rest → rest = [] ∨ Json.Begins rest)
    (begins : text = [] ∨ Json.Begins text) :
    readHeader (linesWithRest (Utf8.encode text)) = .error (.missing "Begin: Data") := by
  by_cases more : '\n' ∈ text
  · obtain ⟨line, rest, rfl, oneLine⟩ := List.eq_append_cons_of_mem more
    have first := begins_line (begins.resolve_left (by simp))
    have bytes : Utf8.encode (line ++ '\n' :: rest) = Utf8.encode line ++ 10 :: Utf8.encode rest :=
      Utf8.encode_append line ('\n' :: rest)
    rw [bytes, linesWithRest_append (Utf8.lineFeed_notMem_encode oneLine), readHeader,
      comment?_of_begins first]
    refine readHeader_of_begins (fun front tail same => ?_) (lines line rest rfl)
    exact lines (line ++ '\n' :: front) tail (by rw [same]; simp)
  · by_cases filled : Utf8.encode text = []
    · rw [filled]
      rfl
    · have begins := begins.resolve_left fun empty => filled (by rw [empty]; rfl)
      rw [linesWithRest_of_notMem (Utf8.lineFeed_notMem_encode more) filled, readHeader,
        comment?_of_begins begins]
      rfl
termination_by text.length

end FieldFile

/-- Text without carriage returns is only ended when its lines are made canonical, and that once. -/
theorem Text.canonicalLines_tame {text : List Char} (tame : Json.Tame text) :
    canonicalLines (canonicalLines text) = endLine text := by
  have own := consists_universalLines text
  calc canonicalLines (canonicalLines text)
      = canonicalLines text :=
        (consists_canonicalLines.mpr own).canonicalLines.trans own.canonicalLines.symm
    _ = endLine text := by
        unfold canonicalLines
        rw [unifyLineEnds_eq tame.noReturn]

/-- The entries of an object end with its brace. -/
theorem Json.getLast?_prettyEntries (depth : Nat) (entries : List (String × Json)) :
    (prettyEntries depth entries).getLast? = some '\x7d' := by
  induction entries with
  | nil => simp [prettyEntries]
  | cons entry others ih => simp [prettyEntries, List.getLast?_cons, List.getLast?_append, ih]

/-- The file of a manifest holds the text of its document and a line end. -/
theorem Manifest.canonical_text (manifest : Manifest) :
    (Text.canonical manifest.text).toList = manifest.toDocument.prettyChars 0 ++ ['\n'] := by
  have tame := (Json.tame_prettyChars 0 manifest.toDocument).1
  have brace : (manifest.toDocument.prettyChars 0).getLast? = some '\x7d' := by
    simp [toDocument, Json.prettyChars, List.getLast?_cons, List.getLast?_append,
      Json.getLast?_prettyEntries]
  have ended : Text.endLine (manifest.toDocument.prettyChars 0) =
      manifest.toDocument.prettyChars 0 ++ ['\n'] := by
    have filled : manifest.toDocument.prettyChars 0 ≠ [] := fun empty => by simp [empty] at brace
    exact Text.endLine_of_ne filled (by simp [brace])
  rw [← ended, ← Text.canonicalLines_tame tame]
  simp [Manifest.text, Text.canonical, Json.pretty]

/-- No field is read of a manifest. -/
theorem Manifest.read_ne_ok (manifest : Manifest) (found : Field Float) :
    FieldFile.read (Utf8.ofString (Text.canonical manifest.text)) ≠ .ok found := by
  obtain ⟨tame, begins⟩ := Json.tame_prettyChars 0 manifest.toDocument
  have header : FieldFile.readHeader (FieldFile.linesWithRest
      (Utf8.ofString (Text.canonical manifest.text))) = .error (.missing "Begin: Data") := by
    unfold Utf8.ofString
    rw [manifest.canonical_text]
    refine FieldFile.readHeader_of_begins (fun front rest split => ?_) (.inr (begins.append _))
    rcases List.append_eq_append_iff.mp split with ⟨between, -, tail⟩ | ⟨between, inside, tail⟩
    · left
      cases between with
      | nil => exact (List.cons.inj tail).2.symm
      | cons c others => simp at tail
    · cases between with
      | nil => exact .inl (List.cons.inj tail).2
      | cons c others =>
        obtain ⟨rfl, rfl⟩ := List.cons.inj tail
        exact .inr ((tame.lines _ others inside).append _)
  unfold FieldFile.read
  rw [header]
  exact nofun

end Micromag
