import Micromag.Proofs.Double.Whole
import Micromag.Proofs.Field.File.Safety

/-!
# What the reader accepts

Whatever bytes are read as a field, the first comment names the version and with it the order of
bytes, the comments behind it are the header up to the first that begins the data, and the field is a
usable one on the box of the header. Its values are the first numbers of the data in order, as many
as are expected, times the factor of the header if it has one.
-/

namespace Micromag.FieldFile

open Text

variable {header : Header} {order : ByteOrder}

/-! ## The header -/

/-- The comments of a file in order, each with the bytes after its line. -/
def comments (lines : List (List UInt8 × List UInt8)) : List (List Char × List UInt8) :=
  lines.filterMap fun line => (comment? line.1).map fun content => (content, line.2)

/-- The form of the data that a comment begins. -/
def begins? (comment : List Char × List UInt8) : Option String :=
  (keyValue? comment.1).bind fun entry => dataBlock? entry.1 entry.2

/-- The entry of a comment. -/
def setting? (comment : List Char × List UInt8) : Option (String × String) :=
  (keyValue? comment.1).map fun entry => (entry.1, String.ofList entry.2)

/-- Whether comments begin with a header: one that names the version, those with the entries, and the
first that begins the data, behind which the data stand. -/
def Heads (found : List (List Char × List UInt8)) (header : Header) : Prop :=
  ∃ version before begin rest, found = version :: (before ++ begin :: rest) ∧
    versionOrder? version.1 = some header.order ∧
    (∀ comment ∈ before, begins? comment = none) ∧ begins? begin = some header.block ∧
    header.entries = .ofList (before.filterMap setting?) ∧ header.data = begin.2

/-- A line without a hash is no comment. -/
theorem comments_cons_of_none {line : List UInt8 × List UInt8}
    {lines : List (List UInt8 × List UInt8)} (plain : comment? line.1 = none) :
    comments (line :: lines) = comments lines :=
  List.filterMap_cons_none (by rw [plain]; rfl)

/-- A line with a hash is a comment in front of the others. -/
theorem comments_cons_of_some {line : List UInt8 × List UInt8}
    {lines : List (List UInt8 × List UInt8)} {content : List Char}
    (hash : comment? line.1 = some content) :
    comments (line :: lines) = (content, line.2) :: comments lines :=
  List.filterMap_cons_some (by rw [hash]; rfl)

/-- Whether comments begin with more entries of a header and the comment that begins its data. -/
def Enters (order : ByteOrder) (entries : Keyed String) (found : List (List Char × List UInt8))
    (header : Header) : Prop :=
  ∃ before begin rest, found = before ++ begin :: rest ∧ header.order = order ∧
    (∀ comment ∈ before, begins? comment = none) ∧ begins? begin = some header.block ∧
    header.entries = (before.filterMap setting?).foldl
      (fun map setting => map.insert setting.1 setting.2) entries ∧ header.data = begin.2

/-- One more comment in front sets its entry. -/
theorem Enters.cons {entries next : Keyed String} {found : List (List Char × List UInt8)}
    {comment : List Char × List UInt8} (enters : Enters order next found header)
    (silent : begins? comment = none)
    (sets : next = (setting? comment).elim entries fun setting =>
      entries.insert setting.1 setting.2) : Enters order entries (comment :: found) header := by
  obtain ⟨before, begin, rest, rfl, same, plain, data, settings, bytes⟩ := enters
  refine ⟨comment :: before, begin, rest, rfl, same, List.forall_mem_cons.mpr ⟨silent, plain⟩,
    data, ?_, bytes⟩
  rw [settings, sets]
  cases own : setting? comment with
  | none => rw [List.filterMap_cons_none own]; rfl
  | some setting => rw [List.filterMap_cons_some own]; rfl

/-- The entries that are read are those of the comments in front of the data. -/
theorem enters_of_readEntries {entries : Keyed String} {lines : List (List UInt8 × List UInt8)}
    (read : readEntries order entries lines = .ok header) :
    Enters order entries (comments lines) header := by
  induction lines generalizing entries with
  | nil => cases read
  | cons line more ih =>
    obtain ⟨line, after⟩ := line
    unfold readEntries at read
    cases hash : comment? line with
    | none =>
      rw [hash] at read
      rw [comments_cons_of_none hash]
      exact ih read
    | some content =>
      have first : comments ((line, after) :: more) = (content, after) :: comments more :=
        comments_cons_of_some hash
      have begins : begins? (content, after) =
          (keyValue? content).bind fun entry => dataBlock? entry.1 entry.2 := rfl
      have sets : setting? (content, after) =
          (keyValue? content).map fun entry => (entry.1, String.ofList entry.2) := rfl
      rw [hash, Option.bind_some] at read
      rw [first]
      cases parts : keyValue? content with
      | none =>
        rw [parts] at read begins sets
        exact (ih read).cons begins (by rw [sets]; rfl)
      | some entry =>
        obtain ⟨key, value⟩ := entry
        rw [parts] at read begins sets
        dsimp only at read
        cases data : dataBlock? key value with
        | some block =>
          rw [data] at read
          obtain rfl := Except.ok.inj read
          exact ⟨[], _, comments more, rfl, rfl, List.forall_mem_nil _, begins.trans data, rfl, rfl⟩
        | none =>
          rw [data] at read
          exact (ih read).cons (begins.trans data) (by rw [sets]; rfl)

/-- A header that is read stands at the front of the comments. -/
theorem heads_of_readHeader {lines : List (List UInt8 × List UInt8)}
    (read : readHeader lines = .ok header) : Heads (comments lines) header := by
  induction lines with
  | nil => cases read
  | cons line more ih =>
    obtain ⟨line, after⟩ := line
    unfold readHeader at read
    cases hash : comment? line with
    | none =>
      rw [hash] at read
      rw [comments_cons_of_none hash]
      exact ih read
    | some content =>
      rw [hash] at read
      dsimp only at read
      cases named : versionOrder? content with
      | none =>
        rw [named] at read
        cases read
      | some order =>
        rw [named] at read
        obtain ⟨before, begin, rest, split, same, others⟩ := enters_of_readEntries read
        have first : comments ((line, after) :: more) = (content, after) :: comments more :=
          comments_cons_of_some hash
        rw [first, split]
        exact ⟨(content, after), before, begin, rest, rfl, same ▸ named, others⟩

/-! ## The numbers of text data -/

/-- Whether a line of text data is a comment. -/
def isComment (line : List Char) : Bool := (trim line).head? = some '#'

/-- Whether a line is the comment that ends text data. -/
def endsData (line : List Char) : Bool :=
  isComment line && occursIn "end: data".toList (lowerCase (trim line))

/-- The words of text data in order: those of its lines up to the comment that ends the data, without
the comments among them. -/
def dataWords (lines : List (List Char)) : List (List Char) :=
  ((lines.takeWhile fun line => !endsData line).filter fun line => !isComment line).flatMap words

/-- The numbers of lines are those of their words. -/
theorem readRows_ok {lines : List (List Char)} {all : List Float} (read : readRows lines = .ok all) :
    (dataWords lines).mapM readWord = .ok all := by
  induction lines generalizing all with
  | nil => exact read
  | cons line rest ih =>
    unfold readRows at read
    unfold dataWords
    split at read
    · rename_i content hash
      have comment : isComment line = true := decide_eq_true (by rw [hash]; rfl)
      have ends : endsData line =
          occursIn "end: data".toList (lowerCase ('#' :: content)) := by
        unfold endsData
        rw [comment, hash]
        rfl
      -- one comment ends the data, the others are passed over
      split at read
      · rename_i last
        rw [List.takeWhile_cons_of_neg (by rw [ends, last]; decide)]
        exact read
      · rename_i other
        rw [List.takeWhile_cons_of_pos (by rw [ends]; simpa using other),
          List.filter_cons_of_neg (by rw [comment]; decide)]
        exact ih read
    · rename_i hash
      have plain : isComment line = false := by
        refine decide_eq_false fun first => ?_
        obtain ⟨content, same⟩ := List.head?_eq_some_iff.mp first
        exact hash content same
      have further : endsData line = false := by
        unfold endsData
        rw [plain]
        rfl
      rw [List.takeWhile_cons_of_pos (by rw [further]; rfl),
        List.filter_cons_of_pos (by rw [plain]; rfl), List.flatMap_cons, List.mapM_append]
      obtain ⟨row, here, read⟩ := Result.bind_ok.mp read
      obtain ⟨others, there, same⟩ := Result.bind_ok.mp read
      have own : (words line).mapM readWord = .ok row := by
        rw [← words_trim line]
        exact here
      exact Result.bind_ok.mpr ⟨row, own, Result.bind_ok.mpr ⟨others, ih there, same⟩⟩

/-! ## The numbers of binary data -/

/-- The number at a place of binary data, behind the check number. -/
def numberAt (encoding : Encoding) (order : ByteOrder) (data : List UInt8) (place : Nat) : Float :=
  encoding.decode (Bytes.toNat order
    ((data.drop (encoding.width * (place + 1))).take encoding.width))

/-- Numbers that are read one after the other stand at their places. -/
theorem readWords_eq {encoding : Encoding} {count : Nat} {data : List UInt8} :
    readWords encoding order count data = (List.range count).map fun place =>
      encoding.decode (Bytes.toNat order
        ((data.drop (encoding.width * place)).take encoding.width)) := by
  induction count generalizing data with
  | zero => rfl
  | succ count ih =>
    unfold readWords
    rw [ih, List.range_succ_eq_map, List.map_cons, List.map_map, Nat.mul_zero, List.drop_zero]
    refine congrArg _ (List.map_congr_left fun place _ => ?_)
    show _ = encoding.decode (Bytes.toNat order
      ((data.drop (encoding.width * (place + 1))).take encoding.width))
    rw [List.drop_drop, Nat.mul_succ, Nat.add_comm]

/-! ## Values -/

/-- Whether the data of a header begin with a row of numbers. -/
inductive Carries (header : Header) (numbers : List Float) : Prop where
  /-- All words of text data are numbers, the first of which are these. -/
  | text (block : header.block = "text") (all : List Float)
      (read : List.Forall₂ (fun word x => readFloat? word = some x)
        (dataWords (Text.lines (Utf8.decodeLossy header.data))) all)
      (first : numbers <+: all)
  /-- Binary data have the check number in front and these numbers behind it. -/
  | binary (encoding : Encoding) (known : header.encoding? = some encoding)
      (check : (foundCheck encoding header.order header.data != encoding.check) = false)
      (enough : encoding.width * (numbers.length + 1) ≤ header.data.length)
      (places : numbers = (List.range numbers.length).map
        (numberAt encoding header.order header.data))

/-- Text data carry the numbers that are read from them. -/
theorem carries_of_readText {expected : Nat} {values : List Float} (block : header.block = "text")
    (read : readText expected header.data = .ok values) : Carries header values := by
  obtain ⟨-, all, rows, -, rfl⟩ := readText_ok_iff.mp read
  refine .text block all ?_ (List.take_prefix _ _)
  exact (Result.mapM_ok.mp (readRows_ok rows)).imp fun word x => readWord_ok_iff.mp

/-- Binary data carry the numbers that are read from them if these are as many as expected. -/
theorem carries_of_readBinary {encoding : Encoding} (known : header.encoding? = some encoding)
    {expected : Nat} {values : List Float}
    (read : readBinary encoding header.order expected header.data = .ok values)
    (count : values.length = expected) : Carries header values := by
  obtain ⟨check, long, right, rfl⟩ := readBinary_ok_iff.mp read
  have width := width_of_encoding known
  rw [length_readWords] at count
  -- as many numbers as expected were read, so that the size did not start again from zero
  have size : encoding.width * (expected + 1) ≤ encoding.size expected := by
    rcases width with width | width
    · rw [width] at count check ⊢
      omega
    · rw [width] at count check ⊢
      omega
  refine .binary encoding known right ?_ ?_
  · rw [length_readWords, count]
    exact size.trans long
  · rw [length_readWords, readWords_eq]
    refine List.map_congr_left fun place _ => ?_
    unfold numberAt
    rw [List.drop_drop, Nat.mul_succ, Nat.add_comm]

/-- The data carry the numbers that are read from them if these are as many as expected. -/
theorem carries_of_readValues {expected : Nat} {values : List Float}
    (read : readValues header expected = .ok values) (count : values.length = expected) :
    Carries header values := by
  unfold readValues at read
  split at read
  · rename_i block
    exact carries_of_readText block read
  · rename_i block
    refine carries_of_readBinary ?_ read count
    unfold Header.encoding?
    rw [block]
    rfl
  · rename_i block
    refine carries_of_readBinary ?_ read count
    unfold Header.encoding?
    rw [block]
    rfl
  · cases read

/-- Whether an entry that may be missing has a value. -/
def Header.Has {α : Type} (header : Header) (read? : List Char → Option α) (key : String)
    (default value : α) : Prop :=
  (header.entries.get? key = none ∧ value = default) ∨
    ∃ text, header.entries.get? key = some text ∧ read? text.toList = some value

/-- An entry that may be missing has the value that is read. -/
theorem has_of_valueOr {α : Type} {read? : List Char → Option α} {key : String} {default value : α}
    (read : header.valueOr read? key default = .ok value) : header.Has read? key default value := by
  unfold Header.valueOr Keyed.contains at read
  unfold Header.Has
  split at read
  · unfold Header.value at read
    cases found : header.entries.get? key with
    | none =>
      rw [found] at read
      cases read
    | some text =>
      rw [found] at read
      dsimp only at read
      split at read
      · rename_i value parsed
        obtain rfl := Except.ok.inj read
        exact .inr ⟨text, rfl, parsed⟩
      · cases read
  · rename_i absent
    rw [Bool.not_eq_true, Option.isSome_eq_false_iff, Option.isNone_iff_eq_none] at absent
    exact .inl ⟨absent, (Except.ok.inj read).symm⟩

/-- Whether values are numbers times the factor of a header, if it has one. -/
def Header.Scales (header : Header) (numbers values : List Float) : Prop :=
  (header.entries.get? "valuemultiplier" = none ∧ values = numbers) ∨
    ∃ text factor, header.entries.get? "valuemultiplier" = some text ∧
      readFloat? text.toList = some factor ∧ values = numbers.map (· * factor)

/-- The values that are read are scaled: where the factor is one, scaling changes nothing. -/
theorem scales_of_valueOr {factor : Float} {numbers values : List Float}
    (read : header.valueOr readFloat? "valuemultiplier" 1 = .ok factor)
    (scaled : values = if factor != 1 then numbers.map (· * factor) else numbers)
    (finite : ∀ x ∈ values, x.isFinite = true) : header.Scales numbers values := by
  rcases has_of_valueOr read with ⟨absent, rfl⟩ | ⟨text, found, parsed⟩
  · have one : ((1 : Float) != 1) = false := by decide
    rw [one, if_neg Bool.false_ne_true] at scaled
    exact .inl ⟨absent, scaled⟩
  · refine .inr ⟨text, factor, found, parsed, ?_⟩
    by_cases other : (factor != 1) = true
    · rw [scaled, if_pos other]
    · rw [if_neg other] at scaled
      subst scaled
      have one : factor = 1 := Double.eq_one_of_beq (by simpa [bne] using other)
      rw [one]
      exact (List.map_id' values).symm.trans
        (List.map_congr_left fun x member => (Double.mul_one_of_finite (finite x member)).symm)

/-! ## Fields -/

/-- Whether a field is what a header and its data say. -/
structure Accepts (header : Header) (found : Field Float) : Prop where
  /-- The box begins where the header says. -/
  lower : header.triple "min" = .ok found.mesh.region.lower
  /-- It ends where the header says. -/
  upper : header.triple "max" = .ok found.mesh.region.upper
  /-- The cells have the size of the header. -/
  cell : header.triple "stepsize" = .ok found.mesh.cell
  /-- The mesh is usable. -/
  mesh : found.mesh.validate = .ok ()
  /-- Nothing is named in the mesh and nothing is periodic. -/
  bare : found.mesh.subregions = .empty ∧ found.mesh.periodic = ""
  /-- The components are those of the header, or three. -/
  dim : header.Has readCount? "valuedim" 3 found.dim
  /-- The components are one number or a vector. -/
  components : found.dim = 1 ∨ found.dim = 3
  /-- All values are finite. -/
  finite : ∀ x ∈ found.values, x.isFinite = true
  /-- There are as many values as cells with their components, as a word. -/
  length : found.values.length =
    found.mesh.count .x * found.mesh.count .y * found.mesh.count .z * found.dim % 2 ^ 64
  /-- The values are numbers of the data, times the factor of the header if it has one. -/
  values : ∃ numbers, Carries header numbers ∧ header.Scales numbers found.values

/-- A field is what its header and data say. -/
theorem accepts_of_readField {found : Field Float} (read : readField header = .ok found) :
    Accepts header found := by
  obtain ⟨lower, first, read⟩ := Result.bind_ok.mp read
  obtain ⟨upper, second, read⟩ := Result.bind_ok.mp read
  obtain ⟨cell, third, read⟩ := Result.bind_ok.mp read
  obtain ⟨dim, declared, read⟩ := Result.bind_ok.mp read
  obtain ⟨factor, scale, read⟩ := Result.bind_ok.mp read
  obtain ⟨mesh, made, read⟩ := Result.bind_ok.mp read
  obtain ⟨numbers, given, read⟩ := Result.bind_ok.mp read
  obtain ⟨rfl, usable⟩ := Field.make_ok_iff.mp (Result.mapError_ok.mp read)
  -- scaling keeps the number of values, which is that of a usable field
  have count : numbers.length = mesh.cellCount * dim % 2 ^ 64 := by
    refine Eq.trans ?_ usable.length
    dsimp only
    split
    · exact (List.length_map _).symm
    · rfl
  obtain ⟨_, valid, same⟩ := Result.bind_ok.mp (Result.mapError_ok.mp made)
  obtain rfl := Except.ok.inj same
  exact {
    lower := first
    upper := second
    cell := third
    mesh := valid
    bare := ⟨rfl, rfl⟩
    dim := has_of_valueOr declared
    components := usable.components
    finite := usable.finite
    length := usable.length.trans (Nat.mod_mul_mod _ _ _)
    values := ⟨numbers, carries_of_readValues given count,
      scales_of_valueOr scale rfl usable.finite⟩ }

/-- Whatever bytes are read as a field, their comments begin with a header, and the field is what the
header and the data behind it say: usable, on a mesh with nothing but the box and the cells of the
header, with finite values that are the first numbers of the data. It has a value for each component
of each cell exactly when there are no more of these than words. -/
theorem read_accepts {bytes : List UInt8} {found : Field Float} (read : read bytes = .ok found) :
    ∃ header, Heads (comments (linesWithRest bytes)) header ∧ Accepts header found ∧
      (found.values.length =
          found.mesh.count .x * found.mesh.count .y * found.mesh.count .z * found.dim ↔
        found.mesh.count .x * found.mesh.count .y * found.mesh.count .z * found.dim < 2 ^ 64) := by
  obtain ⟨header, head, data⟩ := Result.bind_ok.mp read
  have accepts := accepts_of_readField data
  refine ⟨header, heads_of_readHeader head, accepts, ?_⟩
  rw [accepts.length]
  constructor
  · intro same
    rw [← same]
    exact Nat.mod_lt _ (by decide)
  · exact Nat.mod_eq_of_lt

/-- A header for three components in each of a third of `2 ^ 65 + 1` cells, and one number. -/
def crammed : List UInt8 :=
  Utf8.ofString (FieldFile.header wrapped "m" .text false) ++ Utf8.ofString "7\n"

/-- One number is accepted as all components of all these cells. -/
theorem read_accepts_crammed :
    ∃ header found, read crammed = .ok found ∧ Accepts header found ∧ found.values = [7] ∧
      found.mesh.count .x * found.mesh.count .y * found.mesh.count .z * found.dim = 2 ^ 65 + 1 := by
  have meshUsable : wrapped.mesh.validate = .ok () := Result.ok_of_toBool (by decide)
  have usable : wrapped.Usable := Field.validate_ok_iff.mp (Result.ok_of_toBool (by decide))
  have head : readHeader (linesWithRest crammed) = .ok ⟨.little, headerEntries wrapped "m" false,
      blockName .text, Utf8.ofString "7\n"⟩ := readHeader_header (by decide) .text
  have entries : Header.entries ⟨.little, headerEntries wrapped "m" false, blockName .text,
      Utf8.ofString "7\n"⟩ = headerEntries wrapped "m" false := rfl
  have values : readText 1 (Utf8.ofString "7\n") = .ok [7] := by rfl
  have count : wrapped.mesh.bare.cellCount * writtenDim wrapped false % 2 ^ 64 = 1 := by decide
  have whole : (withValues wrapped false [7]).Usable :=
    Field.validate_ok_iff.mp (Result.ok_of_toBool (by decide))
  have field := (readField_ok_iff meshUsable usable (meshReadsBack _) entries).mpr
    ⟨[7], by rw [count]; exact values, rfl, whole⟩
  have read : read crammed = .ok (withValues wrapped false [7]) :=
    Result.bind_ok.mpr ⟨_, head, field⟩
  obtain ⟨header, _, accepts, _⟩ := read_accepts read
  exact ⟨header, _, read, accepts, rfl, by decide⟩

end Micromag.FieldFile
