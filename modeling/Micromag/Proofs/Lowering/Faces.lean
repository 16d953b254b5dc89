import Micromag.Proofs.Exact
import Micromag.Proofs.Field
import Micromag.Proofs.Lowering.Pairs

/-!
# Coupled faces

Two subregions are coupled across the face at which one of them ends and the other begins, give or
take a tolerance. Across the face they have to overlap by more than the tolerance, so that neither
ends where the other begins along any other axis. Hence boxes touch along one axis at most, and a
coupling is refused only when they do not touch at all. Bounds are compared here as the real numbers
that they stand for.
-/

namespace Micromag

/-! ## Boxes that touch -/

namespace Region

variable {tolerance : ℝ} {a b : Region ℝ} {axis other : Axis}

/-- Whether two boxes overlap along an axis by more than a tolerance. -/
def Overlaps (tolerance : ℝ) (a b : Region ℝ) (axis : Axis) : Prop :=
  tolerance < min (a.upper.along axis) (b.upper.along axis) -
    max (a.lower.along axis) (b.lower.along axis)

/-- Whether one box ends where another one begins along an axis, and they overlap along the other
axes. -/
structure Abuts (tolerance : ℝ) (a b : Region ℝ) (axis : Axis) : Prop where
  /-- Their cross-sections overlap. -/
  across : ∀ other, other ≠ axis → a.Overlaps tolerance b other
  /-- The end of the first is the beginning of the second. -/
  meets : |a.upper.along axis - b.lower.along axis| ≤ tolerance

/-- Whether two boxes touch along an axis, in either order. -/
def Touches (tolerance : ℝ) (a b : Region ℝ) (axis : Axis) : Prop :=
  a.Abuts tolerance b axis ∨ b.Abuts tolerance a axis

/-- An overlap is mutual. -/
theorem Overlaps.symm (overlaps : a.Overlaps tolerance b axis) : b.Overlaps tolerance a axis := by
  unfold Overlaps at overlaps ⊢
  rwa [min_comm, max_comm]

/-- Along an axis on which two boxes overlap, neither ends where the other begins. -/
theorem Overlaps.not_meets (overlaps : a.Overlaps tolerance b axis) :
    ¬|a.upper.along axis - b.lower.along axis| ≤ tolerance := by
  refine not_le.mpr ?_
  calc tolerance
    _ < min (a.upper.along axis) (b.upper.along axis) -
        max (a.lower.along axis) (b.lower.along axis) := overlaps
    _ ≤ a.upper.along axis - b.lower.along axis :=
      sub_le_sub (min_le_left _ _) (le_max_right _ _)
    _ ≤ |a.upper.along axis - b.lower.along axis| := le_abs_self _

/-- Boxes that touch along an axis overlap along the others. -/
theorem Touches.across (touches : a.Touches tolerance b axis) (different : other ≠ axis) :
    a.Overlaps tolerance b other := by
  rcases touches with abuts | abuts
  · exact abuts.across other different
  · exact (abuts.across other different).symm

/-- Boxes touch along one axis at most. -/
theorem Touches.unique (one : a.Touches tolerance b axis) (two : a.Touches tolerance b other) :
    axis = other := by
  by_contra different
  have overlaps := one.across (Ne.symm different)
  rcases two with abuts | abuts
  · exact overlaps.not_meets abuts.meets
  · exact overlaps.symm.not_meets abuts.meets

/-- Of two boxes that are thicker than the tolerance, at most one ends where the other begins. -/
theorem Abuts.asymm (abuts : a.Abuts tolerance b axis) (thick : tolerance < a.edge axis)
    (thick' : tolerance < b.edge axis) : ¬b.Abuts tolerance a axis := by
  intro back
  have front := (abs_le.mp abuts.meets).2
  have behind := (abs_le.mp back.meets).2
  unfold edge at thick thick'
  linarith

end Region

/-! ## Faces that are found -/

namespace SharedFace

variable {α : Type} {read : α → ℝ} {tolerance : ℝ} {a b : String × Region α} {face : SharedFace α}

/-- Whether a face lies between two boxes, the one that ends at it being the first. Where each of
two thin boxes ends at the beginning of the other, they stay in order. -/
def Between (read : α → ℝ) (tolerance : ℝ) (a b : String × Region α) (face : SharedFace α) : Prop :=
  (face.first.2.map read).Abuts tolerance (face.second.2.map read) face.axis ∧
    (face.first = a ∧ face.second = b ∨ face.first = b ∧ face.second = a ∧
      ¬(a.2.map read).Abuts tolerance (b.2.map read) face.axis)

/-- Boxes overlap across an axis when they do along the other axes. -/
theorem overlapAcross_iff {a b : Region ℝ} {axis : Axis} :
    overlapAcross tolerance a b axis = true ↔
      ∀ other, other ≠ axis → a.Overlaps tolerance b other := by
  unfold overlapAcross Axis.others
  rw [List.all_eq_true]
  simp only [List.mem_filter, decide_eq_true_eq, and_imp]
  exact ⟨fun all other => all other other.mem_all, fun all other _ => all other⟩

/-- Whether boxes overlap across an axis does not depend on their order. -/
theorem overlapAcross_comm (a b : Region ℝ) (axis : Axis) :
    overlapAcross tolerance a b axis = overlapAcross tolerance b a axis := by
  rw [Bool.eq_iff_iff, overlapAcross_iff, overlapAcross_iff]
  exact forall₂_congr fun _ _ => ⟨Region.Overlaps.symm, Region.Overlaps.symm⟩

/-- One box abuts another when they overlap across the axis and meet along it. -/
theorem abuts_iff {a b : Region ℝ} {axis : Axis} :
    a.Abuts tolerance b axis ↔
      overlapAcross tolerance a b axis = true ∧ meets tolerance a b axis = true := by
  rw [overlapAcross_iff]
  have meets : meets tolerance a b axis = true ↔
      |a.upper.along axis - b.lower.along axis| ≤ tolerance := decide_eq_true_iff
  rw [meets]
  exact ⟨fun abuts => ⟨abuts.across, abuts.meets⟩, fun ⟨across, meets⟩ => ⟨across, meets⟩⟩

/-- Boxes that a face lies between touch along its axis. -/
theorem Between.touches (between : face.Between read tolerance a b) :
    (a.2.map read).Touches tolerance (b.2.map read) face.axis := by
  obtain ⟨abuts, ⟨first, second⟩ | ⟨first, second, _⟩⟩ := between
  · exact .inl (first ▸ second ▸ abuts)
  · exact .inr (first ▸ second ▸ abuts)

/-- Between boxes that touch there is a face. -/
theorem exists_between {axis : Axis}
    (touches : (a.2.map read).Touches tolerance (b.2.map read) axis) :
    ∃ face : SharedFace α, face.Between read tolerance a b ∧ face.axis = axis := by
  by_cases front : (a.2.map read).Abuts tolerance (b.2.map read) axis
  · exact ⟨⟨axis, a, b⟩, ⟨front, .inl ⟨rfl, rfl⟩⟩, rfl⟩
  · exact ⟨⟨axis, b, a⟩, ⟨touches.resolve_left front, .inr ⟨rfl, rfl, front⟩⟩, rfl⟩

/-- Between boxes that are thicker than the tolerance a face lies in either order. -/
theorem Between.symm (thick : ∀ axis, tolerance < (a.2.map read).edge axis)
    (thick' : ∀ axis, tolerance < (b.2.map read).edge axis)
    (between : face.Between read tolerance a b) : face.Between read tolerance b a := by
  obtain ⟨abuts, ⟨first, second⟩ | ⟨first, second, _⟩⟩ := between
  · refine ⟨abuts, .inr ⟨first, second, ?_⟩⟩
    rw [first, second] at abuts
    exact abuts.asymm (thick _) (thick' _)
  · exact ⟨abuts, .inl ⟨first, second⟩⟩

/-- The face that is found across an axis is the one that lies there. -/
theorem across?_iff {axis : Axis} :
    across? read tolerance a b axis = some face ↔
      face.Between read tolerance a b ∧ face.axis = axis := by
  have front : (a.2.map read).Abuts tolerance (b.2.map read) axis ↔ _ := abuts_iff
  have back : (b.2.map read).Abuts tolerance (a.2.map read) axis ↔ _ := abuts_iff
  rw [overlapAcross_comm] at back
  unfold across?
  constructor
  · intro found
    split at found
    · cases found
    · rename_i overlap
      rw [Bool.not_eq_true', Bool.not_eq_false] at overlap
      split at found
      · rename_i meets
        rw [← Option.some.inj found]
        exact ⟨⟨front.mpr ⟨overlap, meets⟩, .inl ⟨rfl, rfl⟩⟩, rfl⟩
      · rename_i apart
        split at found
        · rename_i meets
          rw [← Option.some.inj found]
          exact ⟨⟨back.mpr ⟨overlap, meets⟩, .inr ⟨rfl, rfl, fun abuts =>
            apart (front.mp abuts).2⟩⟩, rfl⟩
        · cases found
  · rintro ⟨⟨abuts, sides⟩, rfl⟩
    obtain ⟨axis, first, second⟩ := face
    rcases sides with ⟨rfl, rfl⟩ | ⟨rfl, rfl, apart⟩
    · obtain ⟨overlap, meets⟩ := front.mp abuts
      rw [if_neg (by rw [overlap]; decide), if_pos meets]
    · obtain ⟨overlap, meets⟩ := back.mp abuts
      rw [if_neg (by rw [overlap]; decide),
        if_neg (fun meets => apart (front.mpr ⟨overlap, meets⟩)), if_pos meets]

/-- A face is found between two boxes when it is the one that lies there. -/
theorem only?_iff :
    only? read tolerance a b = some face ↔ face.Between read tolerance a b := by
  constructor
  · intro found
    obtain ⟨axis, across⟩ := exists_of_only? found
    exact (across?_iff.mp across).1
  · intro between
    have here : across? read tolerance a b face.axis = some face := across?_iff.mpr ⟨between, rfl⟩
    have elsewhere (axis : Axis) (different : axis ≠ face.axis) :
        across? read tolerance a b axis = none := by
      refine Option.eq_none_iff_forall_ne_some.mpr fun other found => different ?_
      obtain ⟨lies, rfl⟩ := across?_iff.mp found
      exact lies.touches.unique between.touches
    have single : all read tolerance a b = [face] := by
      show [Axis.x, .y, .z].filterMap (across? read tolerance a b) = [face]
      generalize face.axis = axis at here elsewhere
      cases axis with
      | x => simp [here, elsewhere .y (by decide), elsewhere .z (by decide)]
      | y => simp [here, elsewhere .x (by decide), elsewhere .z (by decide)]
      | z => simp [here, elsewhere .x (by decide), elsewhere .y (by decide)]
    unfold only?
    rw [single]

/-- No face is found between boxes that do not touch. -/
theorem only?_eq_none_iff :
    only? read tolerance a b = none ↔
      ∀ axis, ¬(a.2.map read).Touches tolerance (b.2.map read) axis := by
  rw [Option.eq_none_iff_forall_ne_some]
  constructor
  · intro none axis touches
    obtain ⟨face, between, _⟩ := exists_between touches
    exact none face (only?_iff.mpr between)
  · intro apart face found
    exact apart face.axis (only?_iff.mp found).touches

end SharedFace

/-! ## Blocks of a coupling -/

namespace Term

open Script

variable {site : Site} {name first second : String} {sigma sigma2 : Float} {a b : Region Float}
  {items : List Item} {face : SharedFace Float}

/-- One surface of a coupling: a region, the text of the coordinate at which it has the surface, and
the side from which the coordinate is passed. -/
def surfaceEntry (key name : String) (box : String × String) (side : String) : Script.Entry :=
  .table key
    [[.text "atlas", .reference "main_atlas"], [.text "region", .text box.1],
      [.text "scalarfield", .reference (parameterName name "field")],
      [.text "scalarvalue", .text box.2], [.text "scalarside", .text side]]

/-- The blocks of a coupling across an axis: a field that grows along the axis, and the two surfaces
at which it passes the end of the first box and the beginning of the second. -/
def coupling (name sigma sigma2 : String) (axis : Axis) (below above : String × String) :
    List Item :=
  [item "Oxs_LinearScalarField" (parameterName name "field")
      [.setting "vector"
          (.group (Axis.all.map fun other => .text (if other = axis then "1" else "0"))),
        .setting "norm" (.text "1")],
    item "Oxs_TwoSurfaceExchange" name
      [.setting "sigma" (.text sigma), .setting "sigma2" (.text sigma2),
        surfaceEntry "surface1" name below "-", surfaceEntry "surface2" name above "+"]]

/-- The direction across a face is written with ones and zeros. -/
theorem vectorWord_unitVector (axis : Axis) :
    vectorWord (unitVector axis) =
      .ok (.group (Axis.all.map fun other => .text (if other = axis then "1" else "0"))) := by
  cases axis <;> rfl

/-- A surface is written when its coordinate is. -/
theorem surface_ok {key region side : String} {value : Float} {entry : Script.Entry} :
    surface key (parameterName name "field") region value side = .ok entry ↔
      ∃ text, numberText value = .ok text ∧ entry = surfaceEntry key name (region, text) side := by
  unfold surface
  rw [Result.bind_ok]
  constructor
  · rintro ⟨word, written, same⟩
    obtain ⟨text, found, rfl⟩ := PairValue.numberWord_ok.mp written
    exact ⟨text, found, (Except.ok.inj same).symm⟩
  · rintro ⟨text, found, rfl⟩
    exact ⟨_, PairValue.numberWord_ok.mpr ⟨text, found, rfl⟩, rfl⟩

/-- The coupling across a face has the texts of its constants and of the two coordinates. -/
theorem faceItems_ok :
    faceItems name sigma sigma2 face = .ok items ↔
      ∃ s s2 below above, numberText sigma = .ok s ∧ numberText sigma2 = .ok s2 ∧
        numberText face.firstEnd = .ok below ∧ numberText face.secondStart = .ok above ∧
        items = coupling name s s2 face.axis (face.first.1, below) (face.second.1, above) := by
  constructor
  · intro lowered
    obtain ⟨direction, vector, lowered⟩ := Result.bind_ok.mp lowered
    obtain ⟨_, first, lowered⟩ := Result.bind_ok.mp lowered
    obtain ⟨_, second, lowered⟩ := Result.bind_ok.mp lowered
    obtain ⟨_, third, lowered⟩ := Result.bind_ok.mp lowered
    obtain ⟨_, fourth, same⟩ := Result.bind_ok.mp lowered
    obtain ⟨s, written, rfl⟩ := PairValue.numberWord_ok.mp first
    obtain ⟨s2, written2, rfl⟩ := PairValue.numberWord_ok.mp second
    obtain ⟨below, ends, rfl⟩ := surface_ok.mp third
    obtain ⟨above, starts, rfl⟩ := surface_ok.mp fourth
    obtain rfl := Except.ok.inj ((vectorWord_unitVector _).symm.trans vector)
    exact ⟨s, s2, below, above, written, written2, ends, starts, (Except.ok.inj same).symm⟩
  · rintro ⟨s, s2, below, above, written, written2, ends, starts, rfl⟩
    exact Result.bind_ok.mpr ⟨_, vectorWord_unitVector _, Result.bind_ok.mpr
      ⟨_, PairValue.numberWord_ok.mpr ⟨s, written, rfl⟩, Result.bind_ok.mpr
        ⟨_, PairValue.numberWord_ok.mpr ⟨s2, written2, rfl⟩, Result.bind_ok.mpr
          ⟨_, surface_ok.mpr ⟨below, ends, rfl⟩, Result.bind_ok.mpr
            ⟨_, surface_ok.mpr ⟨above, starts, rfl⟩, rfl⟩⟩⟩⟩⟩

/-- What keeps a coupling across a face from being written is a number that is not finite. -/
theorem faceItems_error {fault : Fault}
    (refused : faceItems name sigma sigma2 face = .error fault) : ∃ x, fault = notFinite x := by
  have side {key region side : String} {value : Float}
      (failed : surface key (parameterName name "field") region value side = .error fault) :
      fault = notFinite value := by
    rcases Result.bind_error.mp failed with failed | ⟨_, _, failed⟩
    · exact PairValue.numberWord_error failed
    · cases failed
  rcases Result.bind_error.mp refused with failed | ⟨_, _, refused⟩
  · rw [vectorWord_unitVector] at failed
    cases failed
  rcases Result.bind_error.mp refused with failed | ⟨_, _, refused⟩
  · exact ⟨_, PairValue.numberWord_error failed⟩
  rcases Result.bind_error.mp refused with failed | ⟨_, _, refused⟩
  · exact ⟨_, PairValue.numberWord_error failed⟩
  rcases Result.bind_error.mp refused with failed | ⟨_, _, refused⟩
  · exact ⟨_, side failed⟩
  rcases Result.bind_error.mp refused with failed | ⟨_, _, refused⟩
  · exact ⟨_, side failed⟩
  cases refused

variable {read : Float → ℝ}

/-- The face of two subregions is the only one between them. -/
theorem sharedFace_eq (foundA : site.mesh.subregions.get? first = some a)
    (foundB : site.mesh.subregions.get? second = some b) :
    sharedFace read site name first second =
      match SharedFace.only? read (site.mesh.map read).tolerance (first, a) (second, b) with
      | some face => .ok face
      | none => .error (.badTerm "INPUT.RKKY_GEOMETRY"
        s!"subregions '{first}' and '{second}' of term '{name}' must share exactly one face") := by
  unfold sharedFace subregion
  rw [foundA, foundB]
  rfl

/-- A coupling is the one across the face between its subregions. -/
theorem rkkyItems_ok (foundA : site.mesh.subregions.get? first = some a)
    (foundB : site.mesh.subregions.get? second = some b) :
    (rkkyItems read site name sigma sigma2 first second).result = .ok items ↔
      ∃ face : SharedFace Float,
        face.Between read (site.mesh.map read).tolerance (first, a) (second, b) ∧
          faceItems name sigma sigma2 face = .ok items := by
  unfold rkkyItems
  rw [Lowering.bind_ok]
  refine exists_congr fun face => and_congr ?_ Iff.rfl
  show sharedFace read site name first second = .ok face ↔ _
  rw [sharedFace_eq foundA foundB, ← SharedFace.only?_iff]
  cases SharedFace.only? read (site.mesh.map read).tolerance (first, a) (second, b) with
  | none => exact ⟨(nomatch ·), (nomatch ·)⟩
  | some other => rw [Option.some.injEq, Except.ok.injEq]

/-- A coupling is refused for its geometry when its subregions do not touch. -/
theorem rkkyItems_geometry (foundA : site.mesh.subregions.get? first = some a)
    (foundB : site.mesh.subregions.get? second = some b) :
    (∃ fault, (rkkyItems read site name sigma sigma2 first second).result = .error fault ∧
        fault.code = "INPUT.RKKY_GEOMETRY") ↔
      ∀ axis, ¬(a.map read).Touches (site.mesh.map read).tolerance (b.map read) axis := by
  have result : (rkkyItems read site name sigma sigma2 first second).result =
      sharedFace read site name first second >>= faceItems name sigma sigma2 :=
    Lowering.result_bind _ _
  have apart : SharedFace.only? read (site.mesh.map read).tolerance (first, a) (second, b) = none ↔
      ∀ axis, ¬(a.map read).Touches (site.mesh.map read).tolerance (b.map read) axis :=
    SharedFace.only?_eq_none_iff
  rw [result, sharedFace_eq foundA foundB, ← apart]
  cases SharedFace.only? read (site.mesh.map read).tolerance (first, a) (second, b) with
  | none => exact ⟨fun _ => rfl, fun _ => ⟨_, rfl, rfl⟩⟩
  | some face =>
    refine ⟨fun ⟨fault, refused, code⟩ => ?_, (nomatch ·)⟩
    obtain ⟨x, rfl⟩ := faceItems_error refused
    exact absurd code (by show "INPUT.NON_FINITE" ≠ _; decide)

/-- Two subregions of a usable mesh touch along one axis at most, and a coupling of them is refused
for its geometry exactly when they touch along none. If the constants are finite, it is written
otherwise: the field grows along the axis, the first surface is that of the region that ends at the
face, where it ends, and the second that of the region that begins there, where it begins. The names
of the regions can be swapped when both are thicker than the tolerance. -/
theorem rkky_faces (usable : site.mesh.validate = .ok ())
    (foundA : site.mesh.subregions.get? first = some a)
    (foundB : site.mesh.subregions.get? second = some b) (name : String) (sigma sigma2 : Float) :
    (∀ axis other, (a.map realOf).Touches (site.mesh.map realOf).tolerance (b.map realOf) axis →
      (a.map realOf).Touches (site.mesh.map realOf).tolerance (b.map realOf) other →
        axis = other) ∧
    ((∃ fault, (rkkyItems realOf site name sigma sigma2 first second).result = .error fault ∧
        fault.code = "INPUT.RKKY_GEOMETRY") ↔
      ∀ axis, ¬(a.map realOf).Touches (site.mesh.map realOf).tolerance (b.map realOf) axis) ∧
    ((∃ items, (rkkyItems realOf site name sigma sigma2 first second).result = .ok items) ↔
      (∃ axis, (a.map realOf).Touches (site.mesh.map realOf).tolerance (b.map realOf) axis) ∧
        sigma.isFinite = true ∧ sigma2.isFinite = true) ∧
    (∀ items, (rkkyItems realOf site name sigma sigma2 first second).result = .ok items ↔
      ∃ face : SharedFace Float,
        face.Between realOf (site.mesh.map realOf).tolerance (first, a) (second, b) ∧
        ∃ s s2 below above, numberText sigma = .ok s ∧ numberText sigma2 = .ok s2 ∧
          numberText (face.first.2.upper.along face.axis) = .ok below ∧
          numberText (face.second.2.lower.along face.axis) = .ok above ∧
          items = coupling name s s2 face.axis (face.first.1, below) (face.second.1, above)) ∧
    ((∀ axis, (site.mesh.map realOf).tolerance < (a.map realOf).edge axis ∧
        (site.mesh.map realOf).tolerance < (b.map realOf).edge axis) →
      ∀ items, (rkkyItems realOf site name sigma sigma2 first second).result = .ok items ↔
        (rkkyItems realOf site name sigma sigma2 second first).result = .ok items) := by
  have lowered (items : List Item) :
      (rkkyItems realOf site name sigma sigma2 first second).result = .ok items ↔ _ :=
    (rkkyItems_ok foundA foundB).trans
      (exists_congr fun face => and_congr_right fun _ => faceItems_ok)
  refine ⟨fun _ _ one two => one.unique two, rkkyItems_geometry foundA foundB, ?_, lowered, ?_⟩
  · constructor
    · rintro ⟨items, succeeds⟩
      obtain ⟨face, between, s, s2, _, _, written, written2, _⟩ := (lowered items).mp succeeds
      exact ⟨⟨face.axis, between.touches⟩, PairValue.numberText_ok.mp ⟨s, written⟩,
        PairValue.numberText_ok.mp ⟨s2, written2⟩⟩
    · rintro ⟨⟨axis, touches⟩, finite, finite2⟩
      obtain ⟨face, between, _⟩ := SharedFace.exists_between (a := (first, a)) (b := (second, b))
        touches
      have bounds (axis : Axis) : (face.first.2.upper.along axis).isFinite = true ∧
          (face.second.2.lower.along axis).isFinite = true := by
        have boundsA := Mesh.subregion_finite usable foundA axis
        have boundsB := Mesh.subregion_finite usable foundB axis
        obtain ⟨_, ⟨one, two⟩ | ⟨one, two, _⟩⟩ := between
        · exact one ▸ two ▸ ⟨boundsA.2, boundsB.1⟩
        · exact one ▸ two ▸ ⟨boundsB.2, boundsA.1⟩
      obtain ⟨s, written⟩ := PairValue.numberText_ok.mpr finite
      obtain ⟨s2, written2⟩ := PairValue.numberText_ok.mpr finite2
      obtain ⟨below, ends⟩ := PairValue.numberText_ok.mpr (bounds face.axis).1
      obtain ⟨above, starts⟩ := PairValue.numberText_ok.mpr (bounds face.axis).2
      exact ⟨_, (lowered _).mpr
        ⟨face, between, s, s2, below, above, written, written2, ends, starts, rfl⟩⟩
  · intro thick items
    rw [rkkyItems_ok foundA foundB, rkkyItems_ok foundB foundA]
    refine exists_congr fun face => and_congr_left fun _ => ⟨fun between => ?_, fun between => ?_⟩
    · exact between.symm (fun axis => (thick axis).1) fun axis => (thick axis).2
    · exact between.symm (fun axis => (thick axis).2) fun axis => (thick axis).1

/-- The left half of the divided region. -/
def leftHalf : Region Float := ⟨.fill 0, .fill 1⟩

/-- The right half of the divided region. -/
def rightHalf : Region Float := ⟨⟨1, 0, 0⟩, ⟨2, 1, 1⟩⟩

/-- Two halves of a region that touch are coupled across the face between them, whichever of them is
named first. -/
theorem rkky_faces_halves :
    PairValue.halves.mesh.validate = .ok () ∧
    (rkkyItems realOf PairValue.halves "rkky" 1 0 "left" "right").result =
      .ok (coupling "rkky" "1" "0" .x ("left", "1") ("right", "1")) ∧
    (rkkyItems realOf PairValue.halves "rkky" 1 0 "right" "left").result =
      .ok (coupling "rkky" "1" "0" .x ("left", "1") ("right", "1")) := by
  have usable : PairValue.halves.mesh.validate = .ok () := Result.ok_of_toBool (by decide)
  have tolerance : (PairValue.halves.mesh.map realOf).tolerance = 1e-3 := by
    show min (min (realOf 1) (realOf 1)) (realOf 1) * 1e-3 = 1e-3
    rw [realOf_one, min_self, min_self, one_mul]
  have foundA : PairValue.halves.mesh.subregions.get? "left" = some leftHalf := rfl
  have foundB : PairValue.halves.mesh.subregions.get? "right" = some rightHalf := rfl
  obtain ⟨_, _, _, lowered, swapped⟩ := rkky_faces usable foundA foundB "rkky" 1 0
  rw [tolerance] at lowered swapped
  have two : realOf 2 = 2 := by
    have parts : isNegative 2 = false ∧ Magnitude.ofFloat 2 = ⟨2 ^ 52, -51, true⟩ := by decide
    unfold realOf Magnitude.toReal
    rw [parts.1, parts.2]
    norm_num
  have abuts : (leftHalf.map realOf).Abuts 1e-3 (rightHalf.map realOf) .x := by
    have across : (1e-3 : ℝ) < min (realOf 1) (realOf 1) - max (realOf 0) (realOf 0) := by
      rw [min_self, max_self, realOf_one, realOf_zero]
      norm_num
    refine ⟨fun other different => ?_, ?_⟩
    · cases other with
      | x => exact absurd rfl different
      | y => exact across
      | z => exact across
    · show |realOf 1 - realOf 1| ≤ 1e-3
      rw [sub_self, abs_zero]
      norm_num
  have thick (axis : Axis) : 1e-3 < (leftHalf.map realOf).edge axis ∧
      1e-3 < (rightHalf.map realOf).edge axis := by
    have unit : (1e-3 : ℝ) < realOf 1 - realOf 0 := by
      rw [realOf_one, realOf_zero]
      norm_num
    have beyond : (1e-3 : ℝ) < realOf 2 - realOf 1 := by
      rw [two, realOf_one]
      norm_num
    cases axis with
    | x => exact ⟨unit, beyond⟩
    | y => exact ⟨unit, unit⟩
    | z => exact ⟨unit, unit⟩
  have coupled := (lowered _).mpr ⟨⟨.x, ("left", leftHalf), ("right", rightHalf)⟩,
    ⟨abuts, .inl ⟨rfl, rfl⟩⟩, "1", "0", "1", "1", rfl, rfl, rfl, rfl, rfl⟩
  exact ⟨usable, coupled, (swapped thick _).mp coupled⟩

end Term

end Micromag
