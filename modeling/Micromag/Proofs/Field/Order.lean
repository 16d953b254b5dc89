import Mathlib.Data.Set.Function
import Mathlib.Order.Interval.Set.Defs
import Micromag.Proofs.Field

/-!
# The order of cells

Cells follow each other along the first axis, rows along the second and layers along the third. So
every cell has one place, and every place below the number of cells has one cell. A mesh lists its
centres in this order, and a field that is sampled from a function has the components of a cell next
to each other at the cell's place.
-/

namespace Micromag

/-! ## Parts of one length -/

section

variable {β γ : Type} {parts : List β} {f : β → List γ} {width : Nat}

/-- Parts of one length take up that length each. -/
theorem length_flatMap_of_width (even : ∀ part ∈ parts, (f part).length = width) :
    (parts.flatMap f).length = width * parts.length := by
  induction parts with
  | nil => rfl
  | cons part others ih =>
    obtain ⟨first, further⟩ := List.forall_mem_cons.mp even
    rw [List.flatMap_cons, List.length_append, first, ih further, List.length_cons, Nat.mul_succ,
      Nat.add_comm]

/-- What stands at an offset in a part stands at that offset behind the parts before it. -/
theorem getElem?_flatMap_of_width (even : ∀ part ∈ parts, (f part).length = width) {place : Nat}
    {part : β} (here : parts[place]? = some part) {offset : Nat} (inside : offset < width) :
    (parts.flatMap f)[offset + width * place]? = (f part)[offset]? := by
  induction parts generalizing place with
  | nil => cases here
  | cons first others ih =>
    obtain ⟨same, further⟩ := List.forall_mem_cons.mp even
    rw [List.flatMap_cons]
    cases place with
    | zero =>
      obtain rfl := Option.some.inj here
      exact List.getElem?_append_left (by omega)
    | succ place =>
      rw [List.getElem?_append_right (by rw [Nat.mul_succ]; omega), ← ih further here]
      congr 1
      rw [Nat.mul_succ]
      omega

end

/-! ## Places -/

namespace Mesh

variable {α : Type} [Scalar α] {mesh : Mesh α} {index : Triple Nat}

/-- The number of places in the order of the cells. -/
def places (mesh : Mesh α) : Nat := mesh.count .x * mesh.count .y * mesh.count .z

/-- There is a cell at an index: along every axis it is less than the number of cells. -/
def HasCell (mesh : Mesh α) (index : Triple Nat) : Prop :=
  ∀ axis, index.along axis < mesh.count axis

/-- The place of a cell in the order. -/
def place (mesh : Mesh α) (index : Triple Nat) : Nat :=
  index.x + mesh.count .x * (index.y + mesh.count .y * index.z)

/-- The place of a cell is one of the places. -/
theorem HasCell.place_lt (cell : mesh.HasCell index) : mesh.place index < mesh.places := by
  unfold places
  rw [Nat.mul_assoc]
  exact Nat.add_mul_lt_mul_of_lt_of_lt (cell .x)
    (Nat.add_mul_lt_mul_of_lt_of_lt (cell .y) (cell .z))

/-- The index of the place of a cell is that of the cell. -/
theorem HasCell.index_place (cell : mesh.HasCell index) :
    mesh.index (mesh.place index) = index := by
  have x : index.x < mesh.count .x := cell .x
  have y : index.y < mesh.count .y := cell .y
  have row : mesh.place index / mesh.count .x = index.y + mesh.count .y * index.z := by
    unfold place
    rw [Nat.add_mul_div_left _ _ (by omega), Nat.div_eq_of_lt x, Nat.zero_add]
  unfold Mesh.index
  rw [row, Nat.add_mul_div_left _ _ (by omega), Nat.div_eq_of_lt y, Nat.zero_add,
    Nat.add_mul_mod_self_left, Nat.mod_eq_of_lt y]
  unfold place
  rw [Nat.add_mul_mod_self_left, Nat.mod_eq_of_lt x]

/-- The cell of a place has that place. -/
theorem place_index (mesh : Mesh α) (place : Nat) : mesh.place (mesh.index place) = place := by
  show place % mesh.count .x + mesh.count .x * (place / mesh.count .x % mesh.count .y +
    mesh.count .y * (place / mesh.count .x / mesh.count .y)) = place
  rw [Nat.mod_add_div, Nat.mod_add_div]

/-- There is a cell at every place. -/
theorem hasCell_index {place : Nat} (inside : place < mesh.places) :
    mesh.HasCell (mesh.index place) := by
  unfold places at inside
  have filled : 0 < mesh.count .x * mesh.count .y * mesh.count .z := by omega
  have plane := Nat.pos_of_mul_pos_right filled
  intro axis
  cases axis with
  | x => exact Nat.mod_lt _ (Nat.pos_of_mul_pos_right plane)
  | y => exact Nat.mod_lt _ (Nat.pos_of_mul_pos_left plane)
  | z =>
    show place / mesh.count .x / mesh.count .y < mesh.count .z
    rw [Nat.div_div_eq_div_mul]
    exact Nat.div_lt_of_lt_mul inside

/-- Each cell has one of the places, and each place has one cell. -/
theorem bijOn_place (mesh : Mesh α) :
    Set.BijOn mesh.place {index | mesh.HasCell index} (Set.Iio mesh.places) :=
  Set.InvOn.bijOn ⟨fun _ cell => HasCell.index_place cell, fun place _ => mesh.place_index place⟩
    (fun _ cell => HasCell.place_lt cell) fun _ inside => hasCell_index inside

/-! ## Centres -/

/-- The centres of a row of cells. -/
def row (mesh : Mesh α) (k j : Nat) : List (Triple α) :=
  (List.range (mesh.count .x)).map fun i => mesh.centre ⟨i, j, k⟩

/-- The centres of a layer of cells. -/
def layer (mesh : Mesh α) (k : Nat) : List (Triple α) :=
  (List.range (mesh.count .y)).flatMap (mesh.row k)

/-- The centres layer by layer. -/
theorem centres_eq (mesh : Mesh α) :
    mesh.centres = (List.range (mesh.count .z)).flatMap mesh.layer := rfl

/-- A row has as many centres as there are cells along the first axis. -/
theorem length_row (mesh : Mesh α) (k j : Nat) : (mesh.row k j).length = mesh.count .x := by
  unfold row
  rw [List.length_map, List.length_range]

/-- A layer has as many rows as there are cells along the second axis. -/
theorem length_layer (mesh : Mesh α) (k : Nat) :
    (mesh.layer k).length = mesh.count .x * mesh.count .y := by
  unfold layer
  rw [length_flatMap_of_width fun j _ => mesh.length_row k j, List.length_range]

/-- There are as many centres as places. -/
theorem length_centres (mesh : Mesh α) : mesh.centres.length = mesh.places := by
  rw [centres_eq, length_flatMap_of_width fun k _ => mesh.length_layer k, List.length_range]
  rfl

/-- The centre of a cell is listed at the place of the cell. -/
theorem HasCell.getElem?_centres (cell : mesh.HasCell index) :
    mesh.centres[mesh.place index]? = some (mesh.centre index) := by
  have x : index.x < mesh.count .x := cell .x
  have y : index.y < mesh.count .y := cell .y
  have z : index.z < mesh.count .z := cell .z
  have layered : mesh.place index =
      (index.x + mesh.count .x * index.y) + mesh.count .x * mesh.count .y * index.z := by
    unfold place
    rw [Nat.mul_add, ← Nat.add_assoc, Nat.mul_assoc]
  rw [layered, centres_eq, getElem?_flatMap_of_width (fun k _ => mesh.length_layer k)
    (List.getElem?_range z) (Nat.add_mul_lt_mul_of_lt_of_lt x y), layer, getElem?_flatMap_of_width
    (fun j _ => mesh.length_row index.z j) (List.getElem?_range y) x, row, List.getElem?_map,
    List.getElem?_range x]
  rfl

/-- The centres are those of the cells in the order of their places. -/
theorem centres_eq_map (mesh : Mesh α) :
    mesh.centres = (List.range mesh.places).map fun place => mesh.centre (mesh.index place) := by
  refine List.ext_getElem? fun place => ?_
  rw [List.getElem?_map]
  rcases lt_or_ge place mesh.places with inside | outside
  · have listed := (hasCell_index inside).getElem?_centres
    rw [place_index] at listed
    rw [listed, List.getElem?_range inside]
    rfl
  · rw [List.getElem?_eq_none (by rwa [length_centres]),
      List.getElem?_eq_none (by rwa [List.length_range])]
    rfl

/-- The first centres are the beginning of all centres. -/
theorem firstCentres_eq (mesh : Mesh α) (limit : Nat) :
    mesh.firstCentres limit = mesh.centres.take limit := by
  rw [centres_eq_map, ← List.map_take, List.take_range]
  rfl

end Mesh

/-! ## Values -/

namespace Field

variable {α : Type} {dim : Nat} {value : Triple α → List α}

/-- A function is sampled when it gives as many components as expected at every centre, and these
are the values. -/
theorem sample_ok_iff {centres : List (Triple α)} {values : List α} :
    sample dim value centres = .ok values ↔
      (∀ centre ∈ centres, (value centre).length = dim) ∧ values = centres.flatMap value := by
  induction centres generalizing values with
  | nil => exact ⟨fun same => ⟨nofun, (Except.ok.inj same).symm⟩, fun ⟨_, same⟩ => same ▸ rfl⟩
  | cons centre others ih =>
    unfold sample
    dsimp only
    rw [List.forall_mem_cons, List.flatMap_cons]
    split
    · rename_i right
      rw [Result.map_ok]
      constructor
      · rintro ⟨rest, sampled, rfl⟩
        obtain ⟨further, rfl⟩ := ih.mp sampled
        exact ⟨⟨right, further⟩, rfl⟩
      · rintro ⟨⟨_, further⟩, rfl⟩
        exact ⟨_, ih.mpr ⟨further, rfl⟩, rfl⟩
    · rename_i wrong
      exact ⟨(nomatch ·), fun ⟨⟨right, _⟩, _⟩ => absurd right wrong⟩

variable [Scalar α] {mesh : Mesh α}

/-- The field of a function is made from its components at the centres in order. -/
theorem ofFn_ok_iff {field : Field α} :
    ofFn mesh dim value = .ok field ↔
      (∀ centre ∈ mesh.centres, (value centre).length = dim) ∧
        field = { mesh, dim, values := mesh.centres.flatMap value } ∧ field.Usable := by
  unfold ofFn
  rw [Result.bind_ok]
  constructor
  · rintro ⟨values, sampled, made⟩
    obtain ⟨even, rfl⟩ := sample_ok_iff.mp sampled
    exact ⟨even, make_ok_iff.mp made⟩
  · rintro ⟨even, made⟩
    exact ⟨_, sample_ok_iff.mpr ⟨even, rfl⟩, make_ok_iff.mpr made⟩

/-- A function that gives one finite number or a finite vector at every centre has a field, if the
values can be addressed, eight bytes each. -/
theorem ofFn_of_finite (known : dim = 1 ∨ dim = 3) (few : 8 * (dim * mesh.places) < 2 ^ 63)
    (each : ∀ centre ∈ mesh.centres, (value centre).length = dim ∧
      ∀ x ∈ value centre, Scalar.isFinite x = true) :
    ofFn mesh dim value = .ok { mesh, dim, values := mesh.centres.flatMap value } := by
  have even : ∀ centre ∈ mesh.centres, (value centre).length = dim := fun centre member =>
    (each centre member).1
  refine ofFn_ok_iff.mpr ⟨even, rfl, known, ?_, fun x member => ?_⟩
  · show _ = mesh.places % 2 ^ 64 * dim % 2 ^ 64
    rw [length_flatMap_of_width even, mesh.length_centres, Nat.mod_mul_mod, Nat.mul_comm,
      Nat.mod_eq_of_lt (by rw [Nat.mul_comm]; omega)]
  · obtain ⟨centre, listed, inside⟩ := List.mem_flatMap.mp member
    exact (each centre listed).2 x inside

/-- The components of a cell stand in the field of a function at the place of the cell. -/
theorem getElem?_ofFn {field : Field α} (made : ofFn mesh dim value = .ok field)
    {index : Triple Nat} (cell : mesh.HasCell index) {c : Nat} (inside : c < dim) :
    field.values[dim * mesh.place index + c]? = (value (mesh.centre index))[c]? := by
  obtain ⟨even, rfl, -⟩ := ofFn_ok_iff.mp made
  rw [Nat.add_comm]
  exact getElem?_flatMap_of_width even cell.getElem?_centres inside

end Field

/-- Cells have one order. It assigns one place to each cell and one cell to each place; the centres
are listed in it; and a field that is made from a function has the components of every cell at the
place of the cell, each followed by the next. Such a field is made at least when the function gives
one finite number or a finite vector everywhere, and not more values than can be addressed. -/
theorem Mesh.cells_in_order {α : Type} [Scalar α] (mesh : Mesh α) :
    Set.BijOn mesh.place {index | mesh.HasCell index} (Set.Iio mesh.places) ∧
      mesh.centres.length = mesh.places ∧
      (∀ index, mesh.HasCell index →
        mesh.centres[mesh.place index]? = some (mesh.centre index)) ∧
      ∀ (dim : Nat) (value : Triple α → List α),
        (∀ field, Field.ofFn mesh dim value = .ok field →
          field.mesh = mesh ∧ field.dim = dim ∧ field.values.length = dim * mesh.places ∧
            ∀ index, mesh.HasCell index → (value (mesh.centre index)).length = dim ∧
              ∀ c < dim, field.values[dim * mesh.place index + c]? =
                (value (mesh.centre index))[c]?) ∧
        ((dim = 1 ∨ dim = 3) → 8 * (dim * mesh.places) < 2 ^ 63 →
          (∀ centre ∈ mesh.centres, (value centre).length = dim ∧
            ∀ x ∈ value centre, Scalar.isFinite x = true) →
          ∃ field, Field.ofFn mesh dim value = .ok field) := by
  refine ⟨mesh.bijOn_place, mesh.length_centres, fun _ cell => cell.getElem?_centres,
    fun dim value => ⟨fun field made => ?_, fun known few each =>
      ⟨_, Field.ofFn_of_finite known few each⟩⟩⟩
  obtain ⟨even, same, -⟩ := Field.ofFn_ok_iff.mp made
  refine ⟨by rw [same], by rw [same], ?_, fun index cell => ⟨?_, fun c inside =>
    Field.getElem?_ofFn made cell inside⟩⟩
  · rw [same, length_flatMap_of_width even, mesh.length_centres]
  · exact even _ (List.mem_of_getElem? cell.getElem?_centres)

/-- A box of two by one by three cells. -/
def brick : Mesh Float where
  region := ⟨.fill 0, ⟨2, 1, 3⟩⟩
  cell := .fill 1

/-- The last cell of the box is the sixth, and the last three values of the field of its centres are
the coordinates of this cell. -/
theorem cells_in_order_brick :
    brick.HasCell ⟨1, 0, 2⟩ ∧ brick.centres.length = 6 ∧
      brick.centres[5]? = some (brick.centre ⟨1, 0, 2⟩) ∧
      ∃ field, Field.ofFn brick 3 Triple.toList = .ok field ∧
        field.values[17]? = some (brick.centre ⟨1, 0, 2⟩).z := by
  have places : brick.places = 6 := by decide +kernel
  have place : brick.place ⟨1, 0, 2⟩ = 5 := by decide +kernel
  have cell : brick.HasCell ⟨1, 0, 2⟩ := by
    intro axis
    cases axis <;> decide +kernel
  obtain ⟨-, length, listed, fields⟩ := brick.cells_in_order
  obtain ⟨stored, succeeds⟩ := fields 3 Triple.toList
  obtain ⟨field, made⟩ := succeeds (.inr rfl) (by rw [places]; decide) (by decide +kernel)
  have component := ((stored field made).2.2.2 _ cell).2 2 (by decide)
  rw [place] at component
  refine ⟨cell, by rw [length, places], ?_, field, made, component⟩
  rw [← place]
  exact listed _ cell

end Micromag
