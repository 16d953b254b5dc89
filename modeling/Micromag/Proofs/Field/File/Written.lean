import Micromag.Proofs.Field.File.Header

/-!
# The header that is written

Each line of a written header sets one key or none. The values of the keys that are read again are
the numbers of the box and of the cells and the number of components.
-/

namespace Micromag.FieldFile

open Text

/-- Lines in front of the data and the settings that reading them makes, in order. -/
structure Sets (lines : List String) (settings : List (String × String)) : Prop where
  /-- All the lines stand in front of the data. -/
  plain : ∀ line ∈ lines, Plain line
  /-- Their entries are the settings. -/
  entries : (lines.filterMap entry?).map (fun entry => (entry.1, String.ofList entry.2)) = settings

namespace Sets

variable {lines others : List String} {settings further : List (String × String)}

/-- Settings of lines are made one after the other. -/
theorem append (first : Sets lines settings) (second : Sets others further) :
    Sets (lines ++ others) (settings ++ further) where
  plain line member := by
    rcases List.mem_append.mp member with member | member
    · exact first.plain line member
    · exact second.plain line member
  entries := by
    rw [List.filterMap_append, List.map_append, first.entries, second.entries]

/-- A line with a key other than the one that begins the data sets this key. -/
theorem single {line key : String} {value : List Char} (oneLine : '\n' ∉ line.toList)
    (found : entry? line = some (key, value)) (other : key ≠ "begin") :
    Sets [line] [(key, String.ofList value)] where
  plain only member := by
    rw [List.mem_singleton.mp member]
    refine ⟨oneLine, fun entry same => ?_⟩
    rw [found] at same
    obtain rfl := Option.some.inj same
    unfold dataBlock?
    simp [other]
  entries := by
    rw [List.filterMap_cons_some found]
    rfl

/-- Lines that are known by themselves can be tried out. -/
theorem fixed (tried : (lines.all fun line => !line.toList.contains '\n' &&
      (( entry? line).all fun entry => (dataBlock? entry.1 entry.2).isNone)) = true)
    (same : (lines.filterMap entry?).map (fun entry => (entry.1, String.ofList entry.2)) =
      settings) : Sets lines settings where
  plain line member := by
    have fine := List.all_eq_true.mp tried line member
    rw [Bool.and_eq_true] at fine
    refine ⟨by simpa using fine.1, fun entry found => ?_⟩
    have notData := fine.2
    rw [found] at notData
    exact Option.isNone_iff_eq_none.mp notData
  entries := same

end Sets

/-- The settings of a number for each axis. -/
def axisSettings (name : String) (text : Axis → List Char) : List (String × String) :=
  Axis.all.map fun axis => (axisKey axis name, String.ofList (text axis))

/-- The names of numbers for each axis. -/
def axisNames : List String := ["min", "max", "base", "nodes", "stepsize"]

/-- A number for an axis sets the key of this axis. -/
theorem sets_axisLine {name : String} (axis : Axis) {text : List Char} (known : name ∈ axisNames)
    (number : ∀ c ∈ text, c ∈ numberChars) :
    Sets ["# " ++ axisKey axis name ++ ": " ++ String.ofList text]
      [(axisKey axis name, String.ofList text)] := by
  have keys : ∀ axis : Axis, ∀ name ∈ axisNames,
      ':' ∉ (axisKey axis name).toList ∧ '\n' ∉ (axisKey axis name).toList ∧
        String.ofList (lowerCase (trim (axisKey axis name).toList)) = axisKey axis name ∧
        axisKey axis name ≠ "begin" := by
    intro axis
    cases axis <;> decide
  obtain ⟨noColon, noEnd, lower, other⟩ := keys axis name known
  have visible : trim (' ' :: text) = text := by
    rw [trim_cons_blank (by decide), trim_of_visible]
    exact fun c member => isBlank_numberChars (number c member)
  have line : ("# " ++ axisKey axis name ++ ": " ++ String.ofList text).toList =
      '#' :: ' ' :: ((axisKey axis name).toList ++ ':' :: (' ' :: text)) := by
    simp only [String.toList_append, String.toList_ofList]
    rw [show "# ".toList = ['#', ' '] from rfl, show ": ".toList = [':', ' '] from rfl]
    simp only [List.cons_append, List.nil_append, List.append_assoc]
  have oneLine : '\n' ∉ ("# " ++ axisKey axis name ++ ": " ++ String.ofList text).toList := by
    have notNumber : '\n' ∉ numberChars := by decide
    rw [line]
    simp only [List.mem_cons, List.mem_append, not_or]
    exact ⟨by decide, by decide, noEnd, by decide, by decide, fun member =>
      notNumber (number _ member)⟩
  have found := entry?_of_toList line noColon
  rw [lower, visible] at found
  exact .single oneLine found other

/-- Numbers for the axes set the keys of the axes. -/
theorem sets_axisLines {name : String} {text : Axis → List Char} (known : name ∈ axisNames)
    (number : ∀ axis, ∀ c ∈ text axis, c ∈ numberChars) :
    Sets (Axis.all.map fun axis => "# " ++ axisKey axis name ++ ": " ++ String.ofList (text axis))
      (axisSettings name text) :=
  ((sets_axisLine .x known (number .x)).append (sets_axisLine .y known (number .y))).append
    (sets_axisLine .z known (number .z))

/-- Numbers along the axes set the keys of the axes. -/
theorem sets_axisEntries {name : String} (value : Axis → Float) (known : name ∈ axisNames) :
    Sets (axisEntries name value)
      (axisSettings name fun axis => Layout.scientific.chars (value axis)) :=
  sets_axisLines known fun _ _ member => Layout.chars_mem member

/-- A decimal digit is a character of number text. -/
theorem mem_numberChars_of_isDigit {c : Char} (digit : c.isDigit = true) : c ∈ numberChars := by
  have code : 48 ≤ c.toNat ∧ c.toNat ≤ 57 := by
    simpa [Char.isDigit, UInt32.le_iff_toNat_le] using digit
  have all : ∀ n < 10, Char.ofNat (48 + n) ∈ numberChars := by decide
  have member := all (c.toNat - 48) (by omega)
  rwa [show 48 + (c.toNat - 48) = c.toNat by omega, Char.ofNat_toNat] at member

/-- The counts of cells set the keys of the axes. -/
theorem sets_nodes (count : Axis → Nat) :
    Sets (Axis.all.map fun axis => "# " ++ axisKey axis "nodes" ++ s!": {count axis}")
      (axisSettings "nodes" fun axis => Nat.toDigits 10 (count axis)) := by
  have text : (fun axis => "# " ++ axisKey axis "nodes" ++ s!": {count axis}") =
      fun axis => "# " ++ axisKey axis "nodes" ++ ": " ++
        String.ofList (Nat.toDigits 10 (count axis)) := by
    funext axis
    exact String.append_assoc.symm
  rw [text]
  refine sets_axisLines (by decide) fun axis c member => ?_
  exact mem_numberChars_of_isDigit (Nat.isDigit_of_mem_toDigits (by decide) (by decide) member)

/-- A line with a key and any text sets this key. -/
theorem sets_text {line : String} {key value : List Char}
    (text : line.toList = '#' :: ' ' :: (key ++ ':' :: (' ' :: value))) (named : ':' ∉ key)
    (oneLine : '\n' ∉ key ++ value) (other : String.ofList (lowerCase (trim key)) ≠ "begin") :
    Sets [line] [(String.ofList (lowerCase (trim key)), String.ofList (trim value))] := by
  have found := entry?_of_toList text named
  rw [trim_cons_blank (by decide)] at found
  refine .single ?_ found other
  rw [List.mem_append, not_or] at oneLine
  rw [text]
  simp [oneLine.1, oneLine.2]

variable {title : String}

/-- The settings of the lines in front of the bounds. -/
def titleSettings (title : String) : List (String × String) :=
  [("segment count", "1"), ("begin", "Segment"), ("begin", "Header"),
    ("title", String.ofList (trim title.toList)), ("meshtype", "rectangular"), ("meshunit", "m")]

/-- The lines in front of the bounds make their settings. -/
theorem sets_title (oneLine : '\n' ∉ title.toList) :
    Sets ["#", "# Segment count: 1", "#", "# Begin: Segment", "# Begin: Header", "#",
      s!"# Title: {title}", "# meshtype: rectangular", "# meshunit: m", "#"]
      (titleSettings title) := by
  have text : (s!"# Title: {title}").toList =
      '#' :: ' ' :: ("Title".toList ++ ':' :: (' ' :: title.toList)) := by
    show ("# Title: " ++ title).toList = _
    rw [String.toList_append]
    rfl
  have before : Sets ["#", "# Segment count: 1", "#", "# Begin: Segment", "# Begin: Header", "#"]
      [("segment count", "1"), ("begin", "Segment"), ("begin", "Header")] :=
    .fixed (by decide) (by decide)
  have after : Sets ["# meshtype: rectangular", "# meshunit: m", "#"]
      [("meshtype", "rectangular"), ("meshunit", "m")] :=
    .fixed (by decide) (by decide)
  have named : Sets [s!"# Title: {title}"] [("title", String.ofList (trim title.toList))] :=
    sets_text text (by decide) (by simp [oneLine]) (by decide)
  exact (before.append named).append after

/-- The labels of components. -/
def labels (title : String) (dim : Nat) : String :=
  if dim = 3 then title ++ "_x " ++ title ++ "_y " ++ title ++ "_z" else title

/-- The settings of the lines that describe components. -/
def componentSettings (title : String) (dim : Nat) : List (String × String) :=
  [("valuedim", toString dim), ("valuelabels", String.ofList (trim (labels title dim).toList)),
    ("valueunits", if dim = 3 then "A/m A/m A/m" else "1")]

/-- The lines that describe components make their settings. -/
theorem sets_components (dim : Nat) (oneLine : '\n' ∉ title.toList) :
    Sets (["#", s!"# valuedim: {dim}"] ++ componentEntries title dim ++ ["#"])
      (componentSettings title dim) := by
  have empty : Sets ["#"] [] := .fixed (by decide) (by decide)
  have digits : ∀ c ∈ Nat.toDigits 10 dim, c ∈ numberChars := fun c member =>
    mem_numberChars_of_isDigit (Nat.isDigit_of_mem_toDigits (by decide) (by decide) member)
  have count : Sets [s!"# valuedim: {dim}"] [("valuedim", toString dim)] := by
    have text : (s!"# valuedim: {dim}").toList =
        '#' :: ' ' :: ("valuedim".toList ++ ':' :: (' ' :: Nat.toDigits 10 dim)) := by
      have number : (toString dim).toList = Nat.toDigits 10 dim := String.toList_ofList
      show ("# valuedim: " ++ toString dim).toList = _
      rw [String.toList_append, number]
      rfl
    have noEnd : '\n' ∉ Nat.toDigits 10 dim := fun member =>
      absurd (digits _ member) (by decide)
    have sets := sets_text text (by decide) (by simp [noEnd]) (by decide)
    rw [trim_of_visible fun c member => isBlank_numberChars (digits c member)] at sets
    exact sets
  have label : Sets ["# valuelabels: " ++ labels title dim]
      [("valuelabels", String.ofList (trim (labels title dim).toList))] := by
    have text : ("# valuelabels: " ++ labels title dim).toList =
        '#' :: ' ' :: ("valuelabels".toList ++ ':' :: (' ' :: (labels title dim).toList)) := by
      rw [String.toList_append]
      rfl
    have noEnd : '\n' ∉ (labels title dim).toList := by
      unfold labels
      split
      · simp [String.toList_append, oneLine]
      · exact oneLine
    exact sets_text text (by decide) (by simp [noEnd]) (by decide)
  unfold componentEntries componentSettings
  split
  · rename_i vector
    have units : Sets ["# valueunits: A/m A/m A/m"] [("valueunits", "A/m A/m A/m")] :=
      .fixed (by decide) (by decide)
    have line : s!"# valuelabels: {title}_x {title}_y {title}_z" =
        "# valuelabels: " ++ labels title dim := by
      unfold labels
      rw [if_pos vector]
      simp only [String.append_assoc]
      rfl
    rw [line]
    exact (((empty.append count).append (label.append units)).append empty)
  · rename_i scalar
    have units : Sets ["# valueunits: 1"] [("valueunits", "1")] :=
      .fixed (by decide) (by decide)
    have line : s!"# valuelabels: {title}" = "# valuelabels: " ++ labels title dim := by
      unfold labels
      rw [if_neg scalar]
      rfl
    rw [line]
    exact (((empty.append count).append (label.append units)).append empty)

variable {field : Field Float} {extended : Bool}

/-- The settings of a written header. -/
def headerSettings (field : Field Float) (title : String) (extended : Bool) :
    List (String × String) :=
  let mesh := field.mesh
  let number := Layout.scientific.chars
  titleSettings title ++ axisSettings "min" (fun axis => number (mesh.region.lower.along axis)) ++
    axisSettings "max" (fun axis => number (mesh.region.upper.along axis)) ++
    componentSettings title (writtenDim field extended) ++
    axisSettings "base" (fun axis =>
      number (mesh.region.lower.along axis + 0.5 * mesh.cell.along axis)) ++
    axisSettings "nodes" (fun axis => Nat.toDigits 10 (mesh.count axis)) ++
    axisSettings "stepsize" (fun axis => number (mesh.cell.along axis)) ++ [("end", "Header")]

/-- The lines between the version and the line that begins the data. -/
def settingLines (field : Field Float) (title : String) (extended : Bool) : List String :=
  let mesh := field.mesh
  ["#", "# Segment count: 1", "#", "# Begin: Segment", "# Begin: Header", "#",
      s!"# Title: {title}", "# meshtype: rectangular", "# meshunit: m", "#"] ++
    axisEntries "min" mesh.region.lower.along ++ axisEntries "max" mesh.region.upper.along ++
    (["#", s!"# valuedim: {writtenDim field extended}"] ++
      componentEntries title (writtenDim field extended) ++ ["#"]) ++
    (axisEntries "base" (fun axis =>
      mesh.region.lower.along axis + 0.5 * mesh.cell.along axis) ++ ["#"]) ++
    ((Axis.all.map fun axis => "# " ++ axisKey axis "nodes" ++ s!": {mesh.count axis}") ++ ["#"]) ++
    axisEntries "stepsize" mesh.cell.along ++ ["#", "# End: Header", "#"]

/-- The lines between the version and the data make their settings. -/
theorem sets_settingLines (field : Field Float) (extended : Bool) (oneLine : '\n' ∉ title.toList) :
    Sets (settingLines field title extended) (headerSettings field title extended) := by
  have empty : Sets ["#"] [] := .fixed (by decide) (by decide)
  have last : Sets ["#", "# End: Header", "#"] [("end", "Header")] :=
    .fixed (by decide) (by decide)
  have lower := sets_axisEntries field.mesh.region.lower.along (show "min" ∈ axisNames by decide)
  have upper := sets_axisEntries field.mesh.region.upper.along (show "max" ∈ axisNames by decide)
  have components := sets_components (writtenDim field extended) oneLine
  have base := sets_axisEntries (fun axis =>
    field.mesh.region.lower.along axis + 0.5 * field.mesh.cell.along axis)
    (show "base" ∈ axisNames by decide)
  have nodes := sets_nodes field.mesh.count
  have cells := sets_axisEntries field.mesh.cell.along (show "stepsize" ∈ axisNames by decide)
  exact (((((((sets_title oneLine).append lower).append upper).append components).append
    (base.append empty)).append (nodes.append empty)).append cells).append last

/-- The line that begins the data. -/
def beginLine (format : FieldFormat) : String := "# Begin: Data " ++ format.dataLabel

/-- A header is the version, the lines with its settings, and the line that begins the data. -/
theorem headerLines_eq (field : Field Float) (format : FieldFormat) (extended : Bool) :
    headerLines field title format extended =
      "# OOMMF OVF 2.0" :: (settingLines field title extended ++ [beginLine format]) := by
  unfold headerLines settingLines
  simp only [List.append_assoc, List.cons_append, List.nil_append]
  rfl

/-- The entries of a written header. -/
def headerEntries (field : Field Float) (title : String) (extended : Bool) : Keyed String :=
  (headerSettings field title extended).foldl (fun map setting => map.insert setting.1 setting.2)
    .empty

/-- The form of the data that the last line of a header begins. -/
def blockName : FieldFormat → String
  | .text => "text"
  | .binary4 => "binary 4"
  | .binary8 => "binary 8"

/-- The first line names the version. -/
theorem readHeader_version {rest : List UInt8} :
    readHeader (linesWithRest (lineBytes "# OOMMF OVF 2.0" ++ rest)) =
      readEntries .little .empty (linesWithRest rest) := by
  have version : (comment? (Utf8.ofString "# OOMMF OVF 2.0")).map versionOrder? =
      some (some .little) := by decide
  have noEnd : 10 ∉ Utf8.ofString "# OOMMF OVF 2.0" := by decide
  rw [lineBytes, List.append_assoc, List.singleton_append, linesWithRest_append noEnd, readHeader]
  obtain ⟨content, comment, order⟩ := Option.map_eq_some_iff.mp version
  simp only [comment, order]

/-- The lines with the settings are read as the entries of the header. -/
theorem readEntries_settingLines (oneLine : '\n' ∉ title.toList) {rest : List UInt8} :
    readEntries .little .empty
        (linesWithRest ((settingLines field title extended).flatMap lineBytes ++ rest)) =
      readEntries .little (headerEntries field title extended) (linesWithRest rest) := by
  have sets := sets_settingLines field extended oneLine
  rw [readEntries_lines sets.plain, sets.entries]
  rfl

/-- The line that begins the data ends the entries, and what is behind it is the data. -/
theorem readEntries_beginLine {order : ByteOrder} {entries : Keyed String} (format : FieldFormat)
    {data : List UInt8} :
    readEntries order entries (linesWithRest (lineBytes (beginLine format) ++ data)) =
      .ok ⟨order, entries, blockName format, data⟩ := by
  have begins : ( entry? (beginLine format)).map (fun entry => dataBlock? entry.1 entry.2) =
      some (some (blockName format)) := by
    cases format <;> decide
  have noEnd : 10 ∉ Utf8.ofString (beginLine format) := by
    cases format <;> decide
  rw [lineBytes, List.append_assoc, List.singleton_append, linesWithRest_append noEnd, readEntries]
  obtain ⟨⟨key, value⟩, entry, block⟩ := Option.map_eq_some_iff.mp begins
  unfold entry? at entry
  simp only [entry, block]

/-- What is read between the version and the line that begins the data is the settings, whatever
the data are. -/
theorem readHeader_header (oneLine : '\n' ∉ title.toList) (format : FieldFormat)
    {data : List UInt8} :
    readHeader (linesWithRest (Utf8.ofString (header field title format extended) ++ data)) =
      .ok ⟨.little, headerEntries field title extended, blockName format, data⟩ := by
  unfold header
  rw [ofString_joinLines, headerLines_eq, List.flatMap_cons, List.flatMap_append,
    List.flatMap_singleton, List.append_assoc, List.append_assoc, readHeader_version,
    readEntries_settingLines oneLine, readEntries_beginLine]

/-- The header that is written is read back, with the data behind it. -/
theorem readHeader_write (oneLine : '\n' ∉ title.toList) (format : FieldFormat) :
    readHeader (linesWithRest (write field title format extended)) =
      .ok ⟨.little, headerEntries field title extended, blockName format,
        body field format extended⟩ :=
  readHeader_header oneLine format

/-- The numbers of the bounds are in the header. -/
theorem get?_lower (axis : Axis) :
    (headerEntries field title extended).get? (axisKey axis "min") =
      some (String.ofList (Layout.scientific.chars (field.mesh.region.lower.along axis))) := by
  unfold headerEntries
  rw [Keyed.get?_foldl_insert]
  cases axis <;> rfl

/-- The numbers of the bounds are in the header. -/
theorem get?_upper (axis : Axis) :
    (headerEntries field title extended).get? (axisKey axis "max") =
      some (String.ofList (Layout.scientific.chars (field.mesh.region.upper.along axis))) := by
  unfold headerEntries
  rw [Keyed.get?_foldl_insert]
  cases axis <;> rfl

/-- The sizes of the cells are in the header. -/
theorem get?_stepsize (axis : Axis) :
    (headerEntries field title extended).get? (axisKey axis "stepsize") =
      some (String.ofList (Layout.scientific.chars (field.mesh.cell.along axis))) := by
  unfold headerEntries
  rw [Keyed.get?_foldl_insert]
  cases axis <;> rfl

/-- The number of components is in the header. -/
theorem get?_valuedim : (headerEntries field title extended).get? "valuedim" =
    some (toString (writtenDim field extended)) := by
  unfold headerEntries
  rw [Keyed.get?_foldl_insert]
  rfl

/-- No factor is in the header. -/
theorem get?_valuemultiplier :
    (headerEntries field title extended).get? "valuemultiplier" = none := by
  unfold headerEntries
  rw [Keyed.get?_foldl_insert]
  rfl

end Micromag.FieldFile
