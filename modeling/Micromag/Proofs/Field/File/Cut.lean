import Mathlib.Data.List.Infix
import Micromag.Proofs.Field.File.Written
import Micromag.Proofs.Result

/-!
# Headers that were cut off

A file that ends inside its header is refused: no line before the one that begins the data is taken
for it, wherever it is cut off, and that line does not name a known form of data until it is
complete. What is not refused has the whole header and the beginning of the data.
-/

namespace Micromag.FieldFile

open Text

variable {order : ByteOrder} {entries : Keyed String}

/-! ## Lines that were cut off -/

/-- The beginning of two parts in a row ends inside the first or inside the second. -/
theorem prefix_append {α : Type} {part first second : List α} (cut : part <+: first ++ second) :
    part <+: first ∨ ∃ rest, part = first ++ rest ∧ rest <+: second := by
  obtain ⟨missing, whole⟩ := cut
  rcases List.append_eq_append_iff.mp whole with ⟨more, same, -⟩ | ⟨rest, same, tail⟩
  · exact .inl ⟨more, same.symm⟩
  · exact .inr ⟨rest, same, missing, tail.symm⟩

/-- A last line without an end is a line. -/
theorem linesWithRest_of_notMem {line : List UInt8} (oneLine : 10 ∉ line) (filled : line ≠ []) :
    linesWithRest line = [(line, [])] := by
  induction line with
  | nil => exact absurd rfl filled
  | cons byte others ih =>
    obtain ⟨other, further⟩ : byte ≠ 10 ∧ 10 ∉ others := by
      rw [List.mem_cons, not_or] at oneLine
      exact ⟨Ne.symm oneLine.1, oneLine.2⟩
    rw [linesWithRest, if_neg other]
    cases others with
    | nil => rfl
    | cons second more => rw [ih further (List.cons_ne_nil second more)]

/-- Bytes of a line that do not begin data. -/
def Silent (bytes : List UInt8) : Prop :=
  ∀ entry, (comment? bytes).bind keyValue? = some entry → dataBlock? entry.1 entry.2 = none

instance (bytes : List UInt8) : Decidable (Silent bytes) :=
  match found : (comment? bytes).bind keyValue? with
  | none => .isTrue fun entry same => by rw [found] at same; cases same
  | some entry =>
    if silent : dataBlock? entry.1 entry.2 = none then
      .isTrue fun other same => by
        rw [found] at same
        rw [← Option.some.inj same]
        exact silent
    else .isFalse fun all => silent (all entry found)

/-- A line that does not begin data, wherever it is cut off. -/
def Quiet (line : String) : Prop := ∀ part, part <+: Utf8.ofString line → Silent part

/-- Entries that end with a silent line have no data behind them. -/
theorem readEntries_silent {part : List UInt8} (oneLine : 10 ∉ part) (silent : Silent part) :
    readEntries order entries (linesWithRest part) = .error (.missing "Begin: Data") := by
  by_cases filled : part = []
  · rw [filled]
    rfl
  · rw [linesWithRest_of_notMem oneLine filled, readEntries]
    cases found : (comment? part).bind keyValue? with
    | none => rfl
    | some entry =>
      have none := silent entry found
      obtain ⟨key, value⟩ := entry
      simp only [none]
      rfl

/-- A last line without an end may begin data, but nothing is behind it. -/
theorem readEntries_unended {part : List UInt8} (oneLine : 10 ∉ part)
    {entry : String × List Char} (found : (comment? part).bind keyValue? = some entry)
    {block : String} (begun : dataBlock? entry.1 entry.2 = some block) :
    readEntries order entries (linesWithRest part) = .ok ⟨order, entries, block, []⟩ := by
  have filled : part ≠ [] := by
    rintro rfl
    have nothing : (comment? []).bind keyValue? = none := by decide
    rw [nothing] at found
    cases found
  obtain ⟨key, value⟩ := entry
  rw [linesWithRest_of_notMem oneLine filled, readEntries, found]
  simp only [begun]

/-- Quiet lines that are cut off somewhere have no data behind them. -/
theorem readEntries_cut {lines : List String} (plain : ∀ line ∈ lines, Plain line)
    (quiet : ∀ line ∈ lines, Quiet line) {part : List UInt8}
    (cut : part <+: lines.flatMap lineBytes) :
    readEntries order entries (linesWithRest part) = .error (.missing "Begin: Data") := by
  induction lines generalizing part entries with
  | nil =>
    rw [List.prefix_nil.mp cut]
    rfl
  | cons line others ih =>
    obtain ⟨first, further⟩ := List.forall_mem_cons.mp plain
    obtain ⟨still, others_still⟩ := List.forall_mem_cons.mp quiet
    rw [List.flatMap_cons, lineBytes, List.append_assoc] at cut
    rcases prefix_append cut with inside | ⟨rest, rfl, behind⟩
    · have oneLine := Utf8.lineFeed_notMem_encode first.oneLine
      exact readEntries_silent (fun member => oneLine (inside.subset member)) (still part inside)
    · rcases List.prefix_cons_iff.mp behind with rfl | ⟨more, rfl, tail⟩
      · have oneLine := Utf8.lineFeed_notMem_encode first.oneLine
        rw [List.append_nil]
        exact readEntries_silent oneLine (still _ (List.prefix_refl _))
      · have line : Utf8.ofString line ++ 10 :: more = lineBytes line ++ more := by
          rw [lineBytes, List.append_assoc, List.singleton_append]
        rw [line, readEntries_cons first]
        exact ih further others_still tail

/-! ## The lines of a header -/

/-- Lines that are known by themselves can be tried out. -/
theorem quiet_of_tried {lines : List String} (tried : (lines.all fun line =>
      (Utf8.ofString line).inits.all fun part => decide (Silent part)) = true) :
    ∀ line ∈ lines, Quiet line := by
  intro line member part cut
  have parts := List.all_eq_true.mp tried line member
  exact of_decide_eq_true (List.all_eq_true.mp parts part ((List.mem_inits part _).mpr cut))

/-- The letters with which keys other than that of the data begin. -/
def keyLetters : List Char := ['S', 'T', 'm', 'x', 'y', 'z', 'v', 'E']

/-- Whether a text begins with a hash and such a letter. -/
def startsQuietly : List Char → Bool
  | '#' :: ' ' :: c :: _ => keyLetters.contains c
  | _ => false

/-- A line whose key begins with another letter than that of the data does not begin data. -/
theorem quiet_of_start {line : String} {c : Char} {tail : List Char} (known : c ∈ keyLetters)
    (text : line.toList = '#' :: ' ' :: c :: tail) : Quiet line := by
  have letters : keyLetters.all (fun c => decide (c.toNat < 128 ∧ isBlank c = false ∧ c ≠ ':' ∧
      c.toLower ≠ 'b')) = true := by decide
  obtain ⟨ascii, visible, noColon, other⟩ :=
    of_decide_eq_true (List.all_eq_true.mp letters c known)
  have byte := Utf8.encodeChar_of_ascii ascii
  have short : ∀ part ∈ [[], [35], [35, 32]], Silent part := by decide
  intro part cut
  have bytes : Utf8.ofString line = 35 :: 32 :: UInt8.ofNat c.toNat :: Utf8.encode tail := by
    unfold Utf8.ofString
    rw [text]
    change _ :: _ :: (String.utf8EncodeChar c ++ _) = _
    rw [byte]
    rfl
  rw [bytes] at cut
  rcases List.prefix_cons_iff.mp cut with rfl | ⟨second, rfl, cutSecond⟩
  · exact short [] (by decide)
  rcases List.prefix_cons_iff.mp cutSecond with rfl | ⟨third, rfl, cutThird⟩
  · exact short [35] (by decide)
  rcases List.prefix_cons_iff.mp cutThird with rfl | ⟨more, rfl, -⟩
  · exact short [35, 32] (by decide)
  -- the letter is there, so that the key is another one whatever follows
  intro entry found
  have decoded : Utf8.decodeLossy (35 :: 32 :: UInt8.ofNat c.toNat :: more) =
      '#' :: ' ' :: c :: Utf8.decodeLossy more := by
    have start : 35 :: 32 :: UInt8.ofNat c.toNat :: more = Utf8.encode ['#', ' ', c] ++ more := by
      change _ = _ :: _ :: (String.utf8EncodeChar c ++ [] ++ more)
      rw [byte]
      rfl
    unfold Utf8.decodeLossy Utf8.decodeParts
    rw [start, Utf8.decodeFrom_encode]
    rfl
  have hash : isBlank '#' = false := by decide
  have blank : isBlank ' ' = true := by decide
  have content : comment? (35 :: 32 :: UInt8.ofNat c.toNat :: more) =
      some (c :: trimEnd (Utf8.decodeLossy more)) := by
    unfold comment?
    rw [decoded, trim, trimStart_cons hash, trimEnd_cons_visible hash]
    change some (trim (trimEnd (' ' :: c :: Utf8.decodeLossy more))) = _
    rw [trim_trimEnd, trim_cons_blank blank, trim, trimStart_cons visible,
      trimEnd_cons_visible visible]
  rw [content, Option.bind_some] at found
  unfold keyValue? at found
  have first : ∀ text : List Char, (c :: text).takeWhile (fun d => decide (d ≠ ':')) =
      c :: text.takeWhile fun d => decide (d ≠ ':') := by
    intro text
    exact List.takeWhile_cons_of_pos (by simpa using noColon)
  split at found
  · cases found
  · rw [first, trim, trimStart_cons visible, trimEnd_cons_visible visible] at found
    rw [← Option.some.inj found]
    unfold dataBlock?
    have key (rest : List Char) : String.ofList (lowerCase (c :: rest)) ≠ "begin" := by
      intro same
      have letters := congrArg String.toList same
      rw [String.toList_ofList] at letters
      exact other (List.cons.inj letters).1
    simp [key]

/-- A text with more behind it still begins with its letter. -/
theorem quiet_append {start : String} (rest : String) (starts : startsQuietly start.toList = true) :
    Quiet (start ++ rest) := by
  obtain ⟨c, tail, known, text⟩ : ∃ c tail, c ∈ keyLetters ∧ start.toList = '#' :: ' ' :: c :: tail := by
    unfold startsQuietly at starts
    split at starts
    · rename_i c tail text
      exact ⟨c, tail, List.contains_iff_mem.mp starts, text⟩
    · cases starts
  have whole : (start ++ rest).toList = '#' :: ' ' :: c :: (tail ++ rest.toList) := by
    rw [String.toList_append, text]
    rfl
  exact quiet_of_start known whole

variable {field : Field Float} {title : String} {format : FieldFormat} {extended : Bool}

/-- The lines of numbers for the axes do not begin data. -/
theorem quiet_axisLine {axis : Axis} {name rest : String} :
    Quiet ("# " ++ axisKey axis name ++ rest) := by
  apply quiet_append
  cases axis <;> simp [axisKey, startsQuietly, keyLetters, Axis.letter]

/-- The lines between the version and the line that begins the data do not begin data. -/
theorem quiet_settingLines : ∀ line ∈ settingLines field title extended, Quiet line := by
  have together {first second : List String} (front : ∀ line ∈ first, Quiet line)
      (back : ∀ line ∈ second, Quiet line) : ∀ line ∈ first ++ second, Quiet line :=
    List.forall_mem_append.mpr ⟨front, back⟩
  have axes (name : String) (value : Axis → Float) :
      ∀ line ∈ axisEntries name value, Quiet line := by
    intro line member
    obtain ⟨axis, -, rfl⟩ := List.mem_map.mp member
    rw [String.append_assoc]
    exact quiet_axisLine
  have nodes : ∀ line ∈ Axis.all.map fun axis =>
      "# " ++ axisKey axis "nodes" ++ s!": {field.mesh.count axis}", Quiet line := by
    intro line member
    obtain ⟨axis, -, rfl⟩ := List.mem_map.mp member
    exact quiet_axisLine
  have components (dim : Nat) : ∀ line ∈ componentEntries title dim, Quiet line := by
    have labels (rest : String) : Quiet ("# valuelabels: " ++ rest) := quiet_append rest (by decide)
    unfold componentEntries
    split
    · have line : s!"# valuelabels: {title}_x {title}_y {title}_z" =
          "# valuelabels: " ++ (title ++ ("_x " ++ (title ++ ("_y " ++ (title ++ "_z"))))) := by
        simp only [← String.append_assoc]
        rfl
      rw [line]
      exact List.forall_mem_cons.mpr ⟨labels _, quiet_of_tried (by decide)⟩
    · exact List.forall_mem_cons.mpr ⟨labels _, quiet_of_tried (by decide)⟩
  have hash : ∀ line ∈ ["#"], Quiet line := quiet_of_tried (by decide)
  have before : ∀ line ∈ ["#", "# Segment count: 1", "#", "# Begin: Segment", "# Begin: Header",
      "#"], Quiet line := quiet_of_tried (by decide)
  have named : Quiet ("# Title: " ++ title) := quiet_append title (by decide)
  have after : ∀ line ∈ ["# meshtype: rectangular", "# meshunit: m", "#"], Quiet line :=
    quiet_of_tried (by decide)
  have dims (dim : Nat) : Quiet s!"# valuedim: {dim}" :=
    have known : Quiet ("# valuedim: " ++ toString dim) := quiet_append (toString dim) (by decide)
    known
  have last : ∀ line ∈ ["#", "# End: Header", "#"], Quiet line := quiet_of_tried (by decide)
  have start := together before (List.forall_mem_cons.mpr ⟨named, after⟩)
  have lower := axes "min" field.mesh.region.lower.along
  have upper := axes "max" field.mesh.region.upper.along
  have values := together (together (together hash (List.forall_mem_singleton.mpr
    (dims (writtenDim field extended)))) (components (writtenDim field extended))) hash
  have base := axes "base" fun axis =>
    field.mesh.region.lower.along axis + 0.5 * field.mesh.cell.along axis
  have cells := axes "stepsize" field.mesh.cell.along
  exact together (together (together (together (together (together (together start lower) upper)
    values) (together base hash)) (together nodes hash)) cells) last

/-- Data in a form that is refused are not read. -/
theorem readField_ne_ok {header : Header} {found : Field Float}
    (refused : ∀ expected values, readValues header expected ≠ .ok values) :
    readField header ≠ .ok found := by
  intro read
  obtain ⟨_, _, read⟩ := Result.bind_ok.mp read
  obtain ⟨_, _, read⟩ := Result.bind_ok.mp read
  obtain ⟨_, _, read⟩ := Result.bind_ok.mp read
  obtain ⟨_, _, read⟩ := Result.bind_ok.mp read
  obtain ⟨_, _, read⟩ := Result.bind_ok.mp read
  obtain ⟨_, _, read⟩ := Result.bind_ok.mp read
  obtain ⟨values, some, _⟩ := Result.bind_ok.mp read
  exact refused _ values some

/-- The line that begins the data names no known form of data until it is complete. -/
theorem beginLine_cut {part : List UInt8} (cut : part <+: Utf8.ofString (beginLine format)) :
    part = Utf8.ofString (beginLine format) ∨ Silent part ∨
      ∃ entry block, (comment? part).bind keyValue? = some entry ∧
        dataBlock? entry.1 entry.2 = some block ∧ block ∉ ["text", "binary 4", "binary 8"] := by
  have tried : ((Utf8.ofString (beginLine format)).inits.all fun part =>
      decide (part = Utf8.ofString (beginLine format)) || decide (Silent part) ||
        ((comment? part).bind keyValue?).any fun entry =>
          (dataBlock? entry.1 entry.2).any fun block =>
            decide (block ∉ ["text", "binary 4", "binary 8"])) = true := by
    cases format <;> decide
  have this := List.all_eq_true.mp tried part ((List.mem_inits part _).mpr cut)
  rw [Bool.or_eq_true, Bool.or_eq_true, decide_eq_true_eq, decide_eq_true_eq, or_assoc] at this
  rcases this with whole | silent | other
  · exact .inl whole
  · exact .inr (.inl silent)
  · obtain ⟨entry, found, other⟩ := (Option.any_eq_true _ _).mp other
    obtain ⟨block, begun, unknown⟩ := (Option.any_eq_true _ _).mp other
    exact .inr (.inr ⟨entry, block, found, begun, of_decide_eq_true unknown⟩)

/-- The beginning of a file is refused or has the whole header and the beginning of the data. -/
theorem read_cut (oneLine : '\n' ∉ title.toList) {part : List UInt8}
    (cut : part <+: write field title format extended) :
    (∀ found, read part ≠ .ok found) ∨
      ∃ data, data <+: body field format extended ∧
        (data = [] ∨ part = Utf8.ofString (header field title format extended) ++ data) ∧
        readHeader (linesWithRest part) =
          .ok ⟨.little, headerEntries field title extended, blockName format, data⟩ := by
  have refused {fault : ReadFault} (fails : readHeader (linesWithRest part) = .error fault) :
      ∀ found, read part ≠ .ok found := by
    intro found read
    unfold FieldFile.read at read
    rw [fails] at read
    cases read
  have version : (lineBytes "# OOMMF OVF 2.0").inits.all (fun part =>
      !(readHeader (linesWithRest part)).toBool) = true := by decide
  have noEnd : 10 ∉ Utf8.ofString (beginLine format) := by cases format <;> decide
  have begins : ( entry? (beginLine format)).map (fun entry => dataBlock? entry.1 entry.2) =
      some (some (blockName format)) := by
    cases format <;> decide
  obtain ⟨begun, complete, named⟩ := Option.map_eq_some_iff.mp begins
  have text : Utf8.ofString (header field title format extended) =
      lineBytes "# OOMMF OVF 2.0" ++ ((settingLines field title extended).flatMap lineBytes ++
        lineBytes (beginLine format)) := by
    unfold header
    rw [ofString_joinLines, headerLines_eq, List.flatMap_cons, List.flatMap_append,
      List.flatMap_singleton]
  have unended : readHeader (linesWithRest (lineBytes "# OOMMF OVF 2.0" ++
      ((settingLines field title extended).flatMap lineBytes ++
        Utf8.ofString (beginLine format)))) =
      .ok ⟨.little, headerEntries field title extended, blockName format, []⟩ := by
    rw [readHeader_version, readEntries_settingLines oneLine]
    exact readEntries_unended noEnd complete named
  unfold write at cut
  rw [text, List.append_assoc, List.append_assoc] at cut
  rcases prefix_append cut with inside | ⟨afterVersion, rfl, cutSettings⟩
  · left
    have fails := List.all_eq_true.mp version part ((List.mem_inits part _).mpr inside)
    cases found : readHeader (linesWithRest part) with
    | error fault => exact refused found
    | ok header =>
      rw [found] at fails
      cases fails
  rcases prefix_append cutSettings with inside | ⟨afterSettings, rfl, cutBegin⟩
  · left
    have fails : readHeader (linesWithRest (lineBytes "# OOMMF OVF 2.0" ++ afterVersion)) =
        .error (.missing "Begin: Data") := by
      rw [readHeader_version]
      exact readEntries_cut (sets_settingLines field extended oneLine).plain quiet_settingLines
        inside
    exact refused fails
  rw [lineBytes, List.append_assoc] at cutBegin
  rcases prefix_append cutBegin with inside | ⟨afterBegin, rfl, cutData⟩
  · have oneLast : 10 ∉ afterSettings := fun member => noEnd (inside.subset member)
    rcases beginLine_cut inside with rfl | silent | ⟨entry, block, found, other, unknown⟩
    · exact .inr ⟨[], List.nil_prefix, .inl rfl, unended⟩
    · left
      have fails : readHeader (linesWithRest (lineBytes "# OOMMF OVF 2.0" ++
          ((settingLines field title extended).flatMap lineBytes ++ afterSettings))) =
          .error (.missing "Begin: Data") := by
        rw [readHeader_version, readEntries_settingLines oneLine]
        exact readEntries_silent oneLast silent
      exact refused fails
    · left
      intro field read
      obtain ⟨_, header, read⟩ := Result.bind_ok.mp read
      rw [readHeader_version, readEntries_settingLines oneLine,
        readEntries_unended oneLast found other] at header
      rw [← Except.ok.inj header] at read
      refine readField_ne_ok (fun expected values some => ?_) read
      simp only [List.mem_cons, List.not_mem_nil, or_false, not_or] at unknown
      unfold readValues at some
      split at some
      · rename_i same
        exact unknown.1 same
      · rename_i same
        exact unknown.2.1 same
      · rename_i same
        exact unknown.2.2 same
      · cases some
  · right
    rcases List.prefix_cons_iff.mp cutData with rfl | ⟨data, rfl, cutBody⟩
    · rw [List.append_nil]
      exact ⟨[], List.nil_prefix, .inl rfl, unended⟩
    · have whole : lineBytes "# OOMMF OVF 2.0" ++
          ((settingLines field title extended).flatMap lineBytes ++
            (Utf8.ofString (beginLine format) ++ 10 :: data)) =
          Utf8.ofString (header field title format extended) ++ data := by
        rw [text, lineBytes.eq_1 (beginLine format)]
        simp only [List.append_assoc, List.singleton_append]
      rw [whole]
      exact ⟨data, cutBody, .inr rfl, readHeader_header oneLine format⟩

end Micromag.FieldFile
