import Micromag.Files.Path
import Micromag.Proofs.Bytes.Double
import Micromag.Proofs.Double.Text
import Micromag.Proofs.Field
import Micromag.Proofs.Field.File.Written

/-!
# What comes back from a file of doubles

A usable field that is written as doubles is read back on the box and the cells of its mesh. The
number of values a mesh needs is a word. Where the count of cells does not fit this word, the values
may end in the middle of a cell; the writer leaves such values out, and the reader takes the bytes
after the data for them. In every other case the values come back as they are.
-/

namespace Micromag.FieldFile

open Text

variable {data rest : List UInt8}

section Encoded

variable {encoding : Encoding} {bytes : Float → List UInt8}
  (width : ∀ x, (bytes x).length = encoding.width)

/-- The double of a number that was written in an encoding. -/
def decoded (encoding : Encoding) (bytes : Float → List UInt8) (x : Float) : Float :=
  encoding.decode (Bytes.toNat .little (bytes x))

include width

/-- Every number takes as many bytes as the encoding says. -/
theorem length_encoded (xs : List Float) : (xs.flatMap bytes).length = encoding.width * xs.length := by
  rw [List.length_flatMap]
  simp [width, Nat.mul_comm]

/-- Numbers that were written are read back, and then what follows them. -/
theorem readWords_encoded (xs : List Float) (more : Nat) :
    readWords encoding .little (xs.length + more) (xs.flatMap bytes ++ rest) =
      xs.map (decoded encoding bytes) ++ readWords encoding .little more rest := by
  induction xs with
  | nil => rw [List.length_nil, Nat.zero_add]; rfl
  | cons x others ih =>
    have next : (x :: others).length + more = others.length + more + 1 := by
      rw [List.length_cons]
      omega
    rw [next, List.flatMap_cons, List.append_assoc]
    show encoding.decode (Bytes.toNat .little ((bytes x ++ _).take encoding.width)) ::
      readWords encoding .little (others.length + more) ((bytes x ++ _).drop encoding.width) = _
    rw [← width x, List.take_left, List.drop_left, ih]
    rfl

end Encoded

/-- As many numbers are made as were asked for. -/
theorem length_readWords {encoding : Encoding} {order : ByteOrder} {count : Nat} :
    (readWords encoding order count data).length = count := by
  induction count generalizing data with
  | zero => rfl
  | succ count ih =>
    unfold readWords
    rw [List.length_cons, ih]

/-- Bytes after the last number that is read do not matter. -/
theorem readWords_take {encoding : Encoding} {order : ByteOrder} {count size : Nat}
    (enough : encoding.width * count ≤ size) :
    readWords encoding order count (data.take size) = readWords encoding order count data := by
  induction count generalizing data size with
  | zero => rfl
  | succ count ih =>
    have first : encoding.width ≤ size := by
      rw [Nat.mul_succ] at enough
      omega
    have further : encoding.width * count ≤ size - encoding.width := by
      rw [Nat.mul_succ] at enough
      omega
    unfold readWords
    rw [List.take_take, Nat.min_eq_left first, List.drop_take, ih further]

/-- The number in front of binary data. -/
def foundCheck (encoding : Encoding) (order : ByteOrder) (data : List UInt8) : Float :=
  encoding.decode (Bytes.toNat order (data.take encoding.width))

/-- Binary data are read when there are as many bytes as expected, the check number is among them
and it is right. -/
theorem readBinary_ok_iff {encoding : Encoding} {order : ByteOrder} {expected : Nat}
    {values : List Float} : readBinary encoding order expected data = .ok values ↔
      encoding.width ≤ encoding.size expected ∧ encoding.size expected ≤ data.length ∧
        (foundCheck encoding order data != encoding.check) = false ∧
        values = readWords encoding order
          ((encoding.size expected - encoding.width) / encoding.width)
          (data.drop encoding.width) := by
  unfold readBinary
  dsimp only
  by_cases short : data.length < encoding.size expected
  · rw [if_pos short]
    exact ⟨(nomatch ·), fun ⟨_, enough, _⟩ => by omega⟩
  rw [if_neg short]
  by_cases few : data.length < encoding.width
  · rw [if_pos few]
    exact ⟨(nomatch ·), fun ⟨_, _, _⟩ => by omega⟩
  rw [if_neg few]
  change (if (foundCheck encoding order data != encoding.check) = true then _ else _) = _ ↔ _
  by_cases wrong : (foundCheck encoding order data != encoding.check) = true
  · rw [if_pos wrong]
    refine ⟨(nomatch ·), fun ⟨_, _, right, _⟩ => ?_⟩
    rw [wrong] at right
    cases right
  rw [if_neg wrong]
  by_cases small : encoding.size expected < encoding.width
  · rw [if_pos small]
    exact ⟨(nomatch ·), fun ⟨_, _, _⟩ => by omega⟩
  rw [if_neg small]
  have count : ((data.take (encoding.size expected)).drop encoding.width).length =
      encoding.size expected - encoding.width := by
    rw [List.length_drop, List.length_take, Nat.min_eq_left (by omega)]
  have whole : encoding.width * ((encoding.size expected - encoding.width) / encoding.width) ≤
      encoding.size expected - encoding.width := Nat.mul_div_le _ _
  change Except.ok _ = Except.ok values ↔ _
  rw [count, List.drop_take, readWords_take whole]
  constructor
  · intro same
    exact ⟨by omega, by omega, by simpa using wrong, (Except.ok.inj same).symm⟩
  · rintro ⟨-, -, -, rfl⟩
    rfl

/-- Behind the check number the numbers that were written are read back, and then what follows them,
up to the number of values that is expected. -/
theorem readBinary_encoded {encoding : Encoding} {bytes : Float → List UInt8}
    (width : ∀ x, (bytes x).length = encoding.width) (some : 0 < encoding.width)
    (right : (decoded encoding bytes encoding.check != encoding.check) = false)
    {xs : List Float} {more : Nat} (long : encoding.width * more ≤ rest.length)
    (fits : encoding.width * (xs.length + more + 1) < 2 ^ 64) :
    readBinary encoding .little (xs.length + more)
        ((encoding.check :: xs).flatMap bytes ++ rest) =
      .ok (xs.map (decoded encoding bytes) ++ readWords encoding .little more rest) := by
  have few : xs.length + more + 1 < 2 ^ 64 :=
    Nat.lt_of_le_of_lt (Nat.le_mul_of_pos_left _ some) fits
  have size : encoding.size (xs.length + more) = encoding.width * (xs.length + more + 1) := by
    unfold Encoding.size
    rw [Nat.mod_eq_of_lt few, Nat.mod_eq_of_lt fits]
  have length : ((encoding.check :: xs).flatMap bytes ++ rest).length =
      encoding.width * (xs.length + 1) + rest.length := by
    rw [List.length_append, length_encoded width, List.length_cons]
  have split : (encoding.check :: xs).flatMap bytes ++ rest =
      bytes encoding.check ++ (xs.flatMap bytes ++ rest) := by
    rw [List.flatMap_cons, List.append_assoc]
  have check : foundCheck encoding .little ((encoding.check :: xs).flatMap bytes ++ rest) =
      decoded encoding bytes encoding.check := by
    unfold foundCheck
    rw [split, ← width encoding.check, List.take_left]
    rfl
  have values : ((encoding.check :: xs).flatMap bytes ++ rest).drop encoding.width =
      xs.flatMap bytes ++ rest := by
    rw [split, ← width encoding.check, List.drop_left]
  have count : (encoding.width * (xs.length + more + 1) - encoding.width) / encoding.width =
      xs.length + more := by
    rw [Nat.mul_succ, Nat.add_sub_cancel, Nat.mul_div_cancel_left _ some]
  rw [readBinary_ok_iff, check, values, size, count, readWords_encoded width, length]
  refine ⟨Nat.le_mul_of_pos_right _ (Nat.succ_pos _), ?_, right, rfl⟩
  rw [Nat.add_right_comm, Nat.mul_add _ (xs.length + 1)]
  exact Nat.add_le_add_left long _

/-- Doubles are read back as they are. -/
theorem decoded_doubles (xs : List Float) : xs.map (decoded double doubleBytes) = xs :=
  (List.map_congr_left fun x _ => Double.decode_doubleBytes x).trans (List.map_id xs)

variable {field : Field Float} {extended : Bool}

/-- The bytes after the last number of a file. -/
def footer : List UInt8 :=
  10 :: Utf8.ofString (joinLines ["# End: Data Binary 8", "# End: Segment"])

/-- The number of values at the end that make up no whole cell. -/
def loose (field : Field Float) : Nat := field.values.length % field.dim

/-- The numbers of all whole cells, behind the check number. -/
theorem body_eq : body field .binary8 extended =
    (doubleCheck :: (writtenCells field extended).flatten).flatMap doubleBytes ++ footer := by
  unfold body dataBytes footer
  rw [List.append_assoc]
  rfl

/-- Values that are written as they are: all of them but the loose ones. -/
theorem flatten_writtenCells (usable : field.Usable)
    (same : writtenDim field extended = field.dim) :
    (writtenCells field extended).flatten =
      field.values.take (field.values.length - loose field) := by
  have positive : 0 < field.dim := by
    have := usable.components
    omega
  have kept : ∀ cell ∈ field.cells, writtenCell field.dim cell = cell := by
    intro cell member
    have length := Field.length_of_mem_chunksFrom member
    unfold writtenCell
    by_cases vector : field.dim = 3
    · rw [if_pos vector, List.take_append_of_le_length (by omega),
        List.take_of_length_le (by omega)]
    · have scalar : field.dim = 1 := usable.components.resolve_right vector
      rw [if_neg vector, List.take_of_length_le (by omega)]
  unfold writtenCells
  rw [same, List.map_congr_left kept, List.map_id']
  exact Field.flatten_chunksFrom positive (Nat.le_refl _)

/-- Numbers that are extended to vectors are all written. -/
theorem flatten_writtenCells_extended (scalar : field.dim = 1) :
    (writtenCells field true).flatten = field.values.flatMap fun x => [x, 0, 0] := by
  have cells : field.cells = field.values.map fun x => [x] := by
    unfold Field.cells
    rw [scalar]
    exact Field.chunksFrom_one (Nat.le_refl _)
  have vectors : writtenDim field true = 3 := by
    unfold writtenDim
    simp [scalar]
  unfold writtenCells
  rw [cells, vectors, List.map_map, List.flatMap]
  rfl

/-- Whether the text of a double in a header stands for this double. -/
def ReadsBack (x : Float) : Prop := readFloat? (Layout.scientific.chars x) = some x

instance (x : Float) : Decidable (ReadsBack x) := inferInstanceAs (Decidable (_ = _))

/-- Whether the numbers of a mesh that stand in a header read back. -/
def MeshReadsBack (mesh : Mesh Float) : Prop :=
  ∀ axis, ReadsBack (mesh.region.lower.along axis) ∧ ReadsBack (mesh.region.upper.along axis) ∧
    ReadsBack (mesh.cell.along axis)

/-- The field that a file should give back: the one that was written, on the box and the cells of
its mesh, numbers as vectors along the first axis if they were extended. -/
def restored (field : Field Float) (extended : Bool) : Field Float where
  mesh := field.mesh.bare
  dim := writtenDim field extended
  values :=
    if extended && field.dim = 1 then field.values.flatMap fun x => [x, 0, 0] else field.values

/-- The field that a file gives back. Loose values are not in the file, and as many numbers are made
of the bytes after the data instead. -/
def recovered (field : Field Float) (extended : Bool) : Field Float where
  mesh := field.mesh.bare
  dim := writtenDim field extended
  values := (writtenCells field extended).flatten ++
    readWords double .little (loose field) footer

variable {title : String}

/-- A header with the entries of a written one. -/
def written (field : Field Float) (title : String) (extended : Bool) : Header :=
  ⟨.little, headerEntries field title extended, "binary 8", body field .binary8 extended⟩

/-- A number that reads back is read from the header. -/
theorem value_of_readsBack {key : String} {x : Float} (readsBack : ReadsBack x)
    (found : (headerEntries field title extended).get? key =
      some (String.ofList (Layout.scientific.chars x))) :
    (written field title extended).value readFloat? key = .ok x := by
  unfold Header.value written
  rw [found]
  dsimp only
  rw [String.toList_ofList, readsBack]

/-- Numbers along the axes that read back are read from the header. -/
theorem triple_of_readsBack {name : String} {value : Triple Float}
    (readsBack : ∀ axis, ReadsBack (value.along axis))
    (found : ∀ axis, (headerEntries field title extended).get? (axisKey axis name) =
      some (String.ofList (Layout.scientific.chars (value.along axis)))) :
    (written field title extended).triple name = .ok value := by
  unfold Header.triple
  rw [value_of_readsBack (readsBack .x) (found .x), value_of_readsBack (readsBack .y) (found .y),
    value_of_readsBack (readsBack .z) (found .z)]
  rfl

/-- The number of components is read from the header. -/
theorem valueOr_valuedim (title : String) (extended : Bool)
    (components : field.dim = 1 ∨ field.dim = 3) :
    (written field title extended).valueOr readCount? "valuedim" 3 =
      .ok (writtenDim field extended) := by
  have known : writtenDim field extended = 1 ∨ writtenDim field extended = 3 := by
    unfold writtenDim
    split
    · exact .inr rfl
    · exact components
  have found : (headerEntries field title extended).get? "valuedim" =
      some (toString (writtenDim field extended)) := get?_valuedim
  have reads : readCount? (toString (writtenDim field extended)).toList =
      some (writtenDim field extended) := by
    rcases known with one | three
    · rw [one]
      decide
    · rw [three]
      decide
  unfold Header.valueOr Header.value Keyed.contains written
  dsimp only
  rw [found]
  dsimp only
  rw [reads]
  rfl

/-- No factor is read from the header. -/
theorem valueOr_valuemultiplier (field : Field Float) (title : String) (extended : Bool) :
    (written field title extended).valueOr readFloat? "valuemultiplier" 1 = .ok 1 := by
  unfold Header.valueOr Keyed.contains written
  dsimp only
  rw [get?_valuemultiplier]
  rfl

/-- Either the components of the field are written or its numbers are extended. -/
theorem writtenDim_cases (field : Field Float) (extended : Bool) :
    writtenDim field extended = field.dim ∨ extended = true ∧ field.dim = 1 := by
  unfold writtenDim
  by_cases grown : (extended && field.dim = 1) = true
  · rw [Bool.and_eq_true, decide_eq_true_eq] at grown
    exact .inr grown
  · rw [if_neg grown]
    exact .inl rfl

/-- There are fewer loose values than components. -/
theorem loose_le_two (usable : field.Usable) : loose field ≤ 2 := by
  unfold loose
  rcases usable.components with scalar | vector
  · rw [scalar]
    omega
  · rw [vector]
    omega

/-- The data take eight bytes for the check number and for every number. -/
theorem length_dataBytes (field : Field Float) (extended : Bool) :
    (dataBytes .binary8 (writtenCells field extended)).length =
      8 * ((writtenCells field extended).flatten.length + 1) + 1 := by
  have width : ∀ x, (doubleBytes x).length = double.width := Double.length_doubleBytes
  unfold dataBytes
  rw [List.length_append, length_encoded width]
  rfl

/-- The reader expects the numbers that were written and one for each loose value. -/
theorem expected_eq (usable : field.Usable)
    (few : (writtenCells field extended).flatten.length < 2 ^ 64) :
    field.mesh.cellCount * writtenDim field extended % 2 ^ 64 =
      (writtenCells field extended).flatten.length + loose field := by
  have needed : field.values.length = field.mesh.cellCount * field.dim % 2 ^ 64 := usable.length
  rcases writtenDim_cases field extended with same | ⟨rfl, scalar⟩
  · rw [flatten_writtenCells usable same, same, List.length_take, ← needed]
    have bound : loose field ≤ field.values.length := Nat.mod_le _ _
    omega
  · have vectors : writtenDim field true = 3 := by
      unfold writtenDim
      simp [scalar]
    have none : loose field = 0 := by
      unfold loose
      rw [scalar]
      exact Nat.mod_one _
    have count : (writtenCells field true).flatten.length = 3 * field.values.length := by
      rw [flatten_writtenCells_extended scalar, List.length_flatMap]
      simp [Nat.mul_comm]
    rw [count] at few
    rw [scalar, Nat.mul_one] at needed
    rw [vectors, count, none]
    omega

/-- There are fewer numbers than bytes in a file that fits the memory. -/
theorem few_of_fits (fits : (dataBytes .binary8 (writtenCells field extended)).length < 2 ^ 63) :
    (writtenCells field extended).flatten.length < 2 ^ 64 := by
  rw [length_dataBytes] at fits
  omega

/-- The numbers that are made of the bytes after the data are finite. -/
theorem finite_footer {count : Nat} (few : count ≤ 2) :
    ∀ x ∈ readWords double .little count footer, Scalar.isFinite x = true := by
  have finite : ∀ count ≤ 2, ∀ x ∈ readWords double .little count footer,
      Float.isFinite x = true := by decide
  exact finite count few

/-- The field that a file gives back is usable. -/
theorem recovered_usable (usable : field.Usable)
    (fits : (dataBytes .binary8 (writtenCells field extended)).length < 2 ^ 63) :
    (recovered field extended).Usable where
  components := by
    rcases writtenDim_cases field extended with same | ⟨rfl, scalar⟩
    · show writtenDim field extended = 1 ∨ writtenDim field extended = 3
      rw [same]
      exact usable.components
    · right
      show (if (true && field.dim = 1) = true then 3 else field.dim) = 3
      simp [scalar]
  length := by
    show (recovered field extended).values.length =
      field.mesh.cellCount * writtenDim field extended % 2 ^ 64
    unfold recovered
    rw [expected_eq usable (few_of_fits fits), List.length_append, length_readWords]
  finite := by
    intro x member
    rcases List.mem_append.mp member with member | member
    · rcases writtenDim_cases field extended with same | ⟨rfl, scalar⟩
      · rw [flatten_writtenCells usable same] at member
        exact usable.finite x (List.mem_of_mem_take member)
      · rw [flatten_writtenCells_extended scalar] at member
        obtain ⟨y, inside, member⟩ := List.mem_flatMap.mp member
        have zero : Float.isFinite 0 = true := by decide
        rcases List.mem_cons.mp member with rfl | member
        · exact usable.finite _ inside
        · have same : x = 0 := by simpa using member
          rw [same]
          exact zero
    · exact finite_footer (loose_le_two usable) x member

/-- The field on the box and the cells of a mesh with values that were read. -/
def withValues (field : Field Float) (extended : Bool) (values : List Float) : Field Float where
  mesh := field.mesh.bare
  dim := writtenDim field extended
  values

/-- What a header says of its field. -/
structure Shape where
  /-- The mesh. -/
  mesh : Mesh Float
  /-- The number of components. -/
  dim : Nat
  /-- The factor of the values. -/
  multiplier : Float

/-- The number of values that are expected, as a word. -/
def Shape.expected (shape : Shape) : Nat := shape.mesh.cellCount * shape.dim % 2 ^ 64

/-- The number of values that there should be. -/
def Shape.values (shape : Shape) : Nat :=
  shape.mesh.count .x * shape.mesh.count .y * shape.mesh.count .z * shape.dim

/-- Read a header up to its data. -/
def Header.shape (header : Header) : Except ReadFault Shape := do
  let lower ← header.triple "min"
  let upper ← header.triple "max"
  let cell ← header.triple "stepsize"
  let dim ← header.valueOr readCount? "valuedim" 3
  let multiplier ← header.valueOr readFloat? "valuemultiplier" 1
  let mesh ← readMesh lower upper cell
  return ⟨mesh, dim, multiplier⟩

/-- A field is read from its shape and then its values. -/
theorem readField_eq (header : Header) :
    readField header = header.shape >>= fun shape =>
      readValues header shape.expected >>= fun values =>
        (Field.make shape.mesh shape.dim (if shape.multiplier != 1 then
          values.map (· * shape.multiplier) else values)).mapError
            fun cause => .unusable "valuedim" cause.fault.message := by
  unfold readField Header.shape
  simp only [bind_assoc, pure_bind]
  rfl

/-- A header with the entries of a written one has the mesh and the components of the field. -/
theorem shape_written (meshUsable : field.mesh.validate = .ok ())
    (components : field.dim = 1 ∨ field.dim = 3) (readsBack : MeshReadsBack field.mesh)
    {header : Header} (entries : header.entries = headerEntries field title extended) :
    header.shape = .ok ⟨field.mesh.bare, writtenDim field extended, 1⟩ := by
  have same : header.entries = (written field title extended).entries := entries
  have triple (name : String) : header.triple name = (written field title extended).triple name := by
    unfold Header.triple Header.value
    rw [same]
  have lower : header.triple "min" = .ok field.mesh.region.lower := by
    rw [triple, triple_of_readsBack (fun axis => (readsBack axis).1) get?_lower]
  have upper : header.triple "max" = .ok field.mesh.region.upper := by
    rw [triple, triple_of_readsBack (fun axis => (readsBack axis).2.1) get?_upper]
  have cell : header.triple "stepsize" = .ok field.mesh.cell := by
    rw [triple, triple_of_readsBack (fun axis => (readsBack axis).2.2) get?_stepsize]
  have dim : header.valueOr readCount? "valuedim" 3 = .ok (writtenDim field extended) := by
    rw [← valueOr_valuedim title extended components]
    unfold Header.valueOr Header.value
    rw [same]
  have multiplier : header.valueOr readFloat? "valuemultiplier" 1 = .ok 1 := by
    rw [← valueOr_valuemultiplier field title extended]
    unfold Header.valueOr Header.value
    rw [same]
  have mesh : readMesh field.mesh.region.lower field.mesh.region.upper field.mesh.cell =
      .ok field.mesh.bare := by
    have made : Mesh.make ⟨field.mesh.region.lower, field.mesh.region.upper⟩ field.mesh.cell =
        .ok field.mesh.bare := Mesh.make_bare meshUsable
    unfold readMesh
    rw [made]
    rfl
  refine Result.bind_ok.mpr ⟨_, lower, Result.bind_ok.mpr ⟨_, upper, ?_⟩⟩
  refine Result.bind_ok.mpr ⟨_, cell, Result.bind_ok.mpr ⟨_, dim, ?_⟩⟩
  exact Result.bind_ok.mpr ⟨_, multiplier, Result.bind_ok.mpr ⟨_, mesh, rfl⟩⟩

/-- A header with the entries of a written one is read as the field with the values that the data
give. -/
theorem readField_ok_iff (meshUsable : field.mesh.validate = .ok ()) (usable : field.Usable)
    (readsBack : MeshReadsBack field.mesh) {header : Header}
    (entries : header.entries = headerEntries field title extended) {found : Field Float} :
    readField header = .ok found ↔
      ∃ values, readValues header
          (field.mesh.bare.cellCount * writtenDim field extended % 2 ^ 64) = .ok values ∧
        found = withValues field extended values ∧ found.Usable := by
  have unscaled : ((1 : Float) != 1) = false := by decide
  have shape := shape_written meshUsable usable.components readsBack entries
  rw [readField_eq]
  constructor
  · intro read
    obtain ⟨_, same, read⟩ := Result.bind_ok.mp read
    obtain rfl := Except.ok.inj (shape.symm.trans same)
    obtain ⟨values, given, read⟩ := Result.bind_ok.mp read
    have made := Result.mapError_ok.mp read
    rw [unscaled, if_neg Bool.false_ne_true] at made
    exact ⟨values, given, Field.make_ok_iff.mp made⟩
  · rintro ⟨values, given, made⟩
    refine Result.bind_ok.mpr ⟨_, shape, Result.bind_ok.mpr ⟨values, given, ?_⟩⟩
    rw [Result.mapError_ok, unscaled, if_neg Bool.false_ne_true]
    exact Field.make_ok_iff.mpr made

/-- Reading the file of a usable field on a usable mesh never fails. -/
theorem read_write (meshUsable : field.mesh.validate = .ok ()) (usable : field.Usable)
    (oneLine : '\n' ∉ title.toList) (readsBack : MeshReadsBack field.mesh)
    (fits : (dataBytes .binary8 (writtenCells field extended)).length < 2 ^ 63) :
    read (write field title .binary8 extended) = .ok (recovered field extended) := by
  have size := length_dataBytes field extended
  have few := loose_le_two usable
  have long : 8 * loose field ≤ footer.length := by
    have length : footer.length = 37 := by decide
    omega
  have header : readHeader (linesWithRest (write field title .binary8 extended)) =
      .ok (written field title extended) := readHeader_write oneLine .binary8
  have expected : field.mesh.bare.cellCount * writtenDim field extended % 2 ^ 64 =
      (writtenCells field extended).flatten.length + loose field :=
    expected_eq usable (few_of_fits fits)
  have values : readValues (written field title extended)
      (field.mesh.bare.cellCount * writtenDim field extended % 2 ^ 64) =
      .ok (recovered field extended).values := by
    change readBinary double .little _ (body field .binary8 extended) = _
    have right : (decoded double doubleBytes double.check != double.check) = false := by decide
    have room : 8 * ((writtenCells field extended).flatten.length + loose field + 1) < 2 ^ 64 := by
      omega
    have read := readBinary_encoded Double.length_doubleBytes (by decide) right long room
    rw [decoded_doubles] at read
    rw [expected, body_eq]
    exact read
  have entries : (written field title extended).entries = headerEntries field title extended := rfl
  have back := (readField_ok_iff meshUsable usable readsBack entries).mpr
    ⟨_, values, rfl, recovered_usable usable fits⟩
  exact Result.bind_ok.mpr ⟨_, header, back⟩

/-- What is given back is the field that should be given back exactly when the loose values happen
to be the numbers that are made of the bytes after the data. -/
theorem recovered_eq_restored (usable : field.Usable) :
    recovered field extended = restored field extended ↔
      field.values.drop (field.values.length - loose field) =
        readWords double .little (loose field) footer := by
  have values : recovered field extended = restored field extended ↔
      (recovered field extended).values = (restored field extended).values :=
    ⟨fun same => by rw [same],
      fun same => congrArg (Field.mk field.mesh.bare (writtenDim field extended)) same⟩
  rw [values]
  show _ ++ _ = (if (extended && field.dim = 1) = true then _ else field.values) ↔ _
  by_cases grown : (extended && field.dim = 1) = true
  · rw [if_pos grown]
    rw [Bool.and_eq_true, decide_eq_true_eq] at grown
    obtain ⟨rfl, scalar⟩ := grown
    have none : loose field = 0 := by
      unfold loose
      rw [scalar]
      exact Nat.mod_one _
    rw [none, flatten_writtenCells_extended scalar, Nat.sub_zero, List.drop_length]
    exact ⟨fun _ => rfl, fun _ => List.append_nil _⟩
  · rw [if_neg grown]
    have same : writtenDim field extended = field.dim := by
      unfold writtenDim
      rw [if_neg grown]
    rw [flatten_writtenCells usable same]
    have split := List.take_append_drop (field.values.length - loose field) field.values
    constructor
    · intro whole
      exact List.append_cancel_left (split.trans whole.symm)
    · intro last
      rw [← last]
      exact split

/-- Nothing is loose when the number of values on the mesh fits a word. -/
theorem loose_of_fits (usable : field.Usable)
    (fits : field.mesh.count .x * field.mesh.count .y * field.mesh.count .z * field.dim < 2 ^ 64) :
    loose field = 0 := by
  have needed : field.values.length = field.mesh.cellCount * field.dim % 2 ^ 64 := usable.length
  have cells : field.mesh.cellCount =
      field.mesh.count .x * field.mesh.count .y * field.mesh.count .z := by
    unfold Mesh.cellCount
    rcases usable.components with scalar | vector
    · rw [scalar] at fits
      omega
    · rw [vector] at fits
      omega
  unfold loose
  rw [needed, cells, Nat.mod_eq_of_lt fits]
  exact Nat.mul_mod_left _ _

/-- A usable field on a usable mesh that is written as doubles is always read back on its box and
its cells. It comes back as it should exactly when no value is loose or the loose values happen to
be what the bytes after the data stand for; so it does whenever the number of values on the mesh
fits a word. The file must fit the memory, and the numbers of the mesh must read back. -/
theorem read_write_exact_iff (field : Field Float) (path : String) (extended : Bool)
    (meshUsable : field.mesh.validate = .ok ()) (usable : field.validate = .ok ())
    (oneLine : '\n' ∉ ((Path.stem? path).getD "field").toList)
    (readsBack : MeshReadsBack field.mesh)
    (fits : (dataBytes .binary8 (writtenCells field extended)).length < 2 ^ 63) :
    read (write field ((Path.stem? path).getD "field") .binary8 extended) =
        .ok (recovered field extended) ∧
      (recovered field extended).mesh = { region := field.mesh.region, cell := field.mesh.cell } ∧
      (recovered field extended).mesh.counts = field.mesh.counts ∧
      (recovered field extended = restored field extended ↔
        field.values.drop (field.values.length - loose field) =
          readWords double .little (loose field) footer) ∧
      (field.mesh.count .x * field.mesh.count .y * field.mesh.count .z * field.dim < 2 ^ 64 →
        recovered field extended = restored field extended) := by
  have accepted : field.Usable := Field.validate_ok_iff.mp usable
  refine ⟨read_write meshUsable accepted oneLine readsBack fits, rfl, rfl,
    recovered_eq_restored accepted, fun small => ?_⟩
  have none : loose field = 0 := loose_of_fits accepted small
  rw [recovered_eq_restored accepted, none, Nat.sub_zero, List.drop_length]
  rfl

/-- A vector field on so many cells that the number of values, three times a third of `2 ^ 65 + 1`,
is one as a word. -/
def wrapped : Field Float where
  mesh := { region := ⟨⟨0, 0, 0⟩, ⟨7623851, 409891, 3935371⟩⟩, cell := ⟨1, 1, 1⟩ }
  dim := 3
  values := [7]

/-- A usable field whose only value is not in its file. -/
theorem wrapped_not_restored :
    wrapped.mesh.validate = .ok () ∧ wrapped.validate = .ok () ∧
      read (write wrapped ((Path.stem? "m.omf").getD "field") .binary8 false) =
        .ok (recovered wrapped false) ∧
      recovered wrapped false ≠ restored wrapped false := by
  have meshUsable : wrapped.mesh.validate = .ok () := Result.ok_of_toBool (by decide)
  have usable : wrapped.validate = .ok () := Result.ok_of_toBool (by decide)
  have readsBack : MeshReadsBack wrapped.mesh := by
    intro axis
    cases axis with
    | x => exact ⟨by decide, by decide, by decide⟩
    | y => exact ⟨by decide, by decide, by decide⟩
    | z => exact ⟨by decide, by decide, by decide⟩
  obtain ⟨back, _, _, same, _⟩ := read_write_exact_iff wrapped "m.omf" false meshUsable usable
    (by decide) readsBack (by decide)
  have other : wrapped.values.drop (wrapped.values.length - loose wrapped) ≠
      readWords double .little (loose wrapped) footer := by decide
  exact ⟨meshUsable, usable, back, fun equal => other (same.mp equal)⟩

end Micromag.FieldFile

/-!
## Which files of doubles are accepted

A usable field may be written whatever its mesh. The reader asks that the box of the mesh has an
extent and that the cells divide it, so the file is read back exactly when this part of the mesh is
usable; what is named in the mesh and what is periodic does not matter, as it is not in the file.
-/

namespace Micromag.FieldFile

variable {field : Field Float} {title : String} {extended : Bool}

/-- The numbers of every mesh read back. -/
theorem meshReadsBack (mesh : Mesh Float) : MeshReadsBack mesh := fun _ =>
  ⟨Double.readFloat?_scientific _, Double.readFloat?_scientific _, Double.readFloat?_scientific _⟩

/-- A file is read back only if the box and the cells of the mesh are usable by themselves. -/
theorem bare_of_read (oneLine : '\n' ∉ title.toList) {found : Field Float}
    (back : read (write field title .binary8 extended) = .ok found) :
    field.mesh.bare.validate = .ok () := by
  have readsBack := meshReadsBack field.mesh
  have head : readHeader (linesWithRest (write field title .binary8 extended)) =
      .ok (written field title extended) := readHeader_write oneLine .binary8
  have lower : (written field title extended).triple "min" = .ok field.mesh.region.lower :=
    triple_of_readsBack (fun axis => (readsBack axis).1) get?_lower
  have upper : (written field title extended).triple "max" = .ok field.mesh.region.upper :=
    triple_of_readsBack (fun axis => (readsBack axis).2.1) get?_upper
  have cell : (written field title extended).triple "stepsize" = .ok field.mesh.cell :=
    triple_of_readsBack (fun axis => (readsBack axis).2.2) get?_stepsize
  obtain ⟨_, header, back⟩ := Result.bind_ok.mp back
  obtain rfl := Except.ok.inj (header.symm.trans head)
  obtain ⟨_, first, back⟩ := Result.bind_ok.mp back
  obtain rfl := Except.ok.inj (first.symm.trans lower)
  obtain ⟨_, second, back⟩ := Result.bind_ok.mp back
  obtain rfl := Except.ok.inj (second.symm.trans upper)
  obtain ⟨_, third, back⟩ := Result.bind_ok.mp back
  obtain rfl := Except.ok.inj (third.symm.trans cell)
  obtain ⟨_, _, back⟩ := Result.bind_ok.mp back
  obtain ⟨_, _, back⟩ := Result.bind_ok.mp back
  obtain ⟨mesh, made, _⟩ := Result.bind_ok.mp back
  obtain ⟨_, valid, _⟩ := Result.bind_ok.mp (Result.mapError_ok.mp made)
  exact valid

/-- A usable field is read back from its file exactly when its mesh is usable. -/
theorem read_write_ok_iff (usable : field.Usable) (oneLine : '\n' ∉ title.toList)
    (fits : (dataBytes .binary8 (writtenCells field extended)).length < 2 ^ 63)
    {found : Field Float} : read (write field title .binary8 extended) = .ok found ↔
      field.mesh.bare.validate = .ok () ∧ found = recovered field extended := by
  have back (valid : field.mesh.bare.validate = .ok ()) :
      read (write field title .binary8 extended) = .ok (recovered field extended) := by
    -- nothing but the box and the cells of the mesh stands in the file
    have bare : read (write { field with mesh := field.mesh.bare } title .binary8 extended) =
        .ok (recovered { field with mesh := field.mesh.bare } extended) :=
      read_write valid ⟨usable.components, usable.length, usable.finite⟩ oneLine
        (meshReadsBack _) fits
    exact bare
  constructor
  · intro read
    have valid := bare_of_read oneLine read
    exact ⟨valid, Except.ok.inj (read.symm.trans (back valid))⟩
  · rintro ⟨valid, rfl⟩
    exact back valid

end Micromag.FieldFile
