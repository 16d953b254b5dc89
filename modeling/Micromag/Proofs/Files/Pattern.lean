import Mathlib.Data.List.Basic
import Micromag.Files.Pattern
import Micromag.Proofs.Text.Utf8

/-!
# Names that a pattern matches

A pattern of plain characters around one star matches the names that begin and end with these
characters. The marks that are carried through a pattern stand for the beginnings of the name that
the parts so far can have matched; every part carries them on.
-/

namespace Micromag.Pattern

variable {name : List UInt8} {marks : Marks} {L : List UInt8 → Prop}
  {text rest : List Char} {c : Char}

/-! ## Marks -/

/-- Marks that stand for the beginnings of a name with a property. -/
structure Follows (name : List UInt8) (marks : Marks) (L : List UInt8 → Prop) : Prop where
  /-- There is one place more than there are bytes. -/
  length : marks.length = name.length + 1
  /-- A place is marked when the bytes before it have the property. -/
  marked : ∀ i ≤ name.length, marks[i]? = some true ↔ L (name.take i)

/-- At the start only the empty beginning is matched. -/
theorem follows_start (name : List UInt8) :
    Follows name (true :: name.map fun _ => false) (· = []) where
  length := by simp
  marked i fits := by
    cases i with
    | zero => simp
    | succ i =>
      have some : name ≠ [] := by
        rintro rfl
        simp at fits
      have unmarked : (name.map fun _ => false)[i]? ≠ Option.some true := by
        rw [List.getElem?_map]
        cases name[i]? <;> simp
      simpa [some] using unmarked

namespace Follows

/-- The last place is marked when the whole name has the property. -/
theorem last (follows : Follows name marks L) :
    marks.getLast?.getD false = true ↔ L name := by
  have whole := follows.marked name.length (Nat.le_refl _)
  rw [List.take_length] at whole
  rw [← whole, List.getLast?_eq_getElem?, follows.length, Nat.add_sub_cancel]
  cases marks[name.length]? <;> simp

/-- A byte that passes a test. -/
theorem nextByte (follows : Follows name marks L) (test : UInt8 → Bool) :
    Follows name (nextByte test name marks)
      fun part => ∃ before byte, part = before ++ [byte] ∧ L before ∧ test byte = true where
  length := by
    have long := follows.length
    simp only [Pattern.nextByte, List.length_cons, List.length_zipWith]
    omega
  marked i fits := by
    cases i with
    | zero => simp [Pattern.nextByte]
    | succ i =>
      have inside : i < name.length := fits
      have before := follows.marked i (by omega)
      have cut : name.take (i + 1) = name.take i ++ [name[i]] := by
        rw [List.take_add_one, List.getElem?_eq_getElem inside]
        rfl
      have place : ∃ mark, marks[i]? = some mark :=
        ⟨_, List.getElem?_eq_getElem (by have := follows.length; omega)⟩
      obtain ⟨mark, found⟩ := place
      rw [found] at before
      rw [cut, Pattern.nextByte, List.getElem?_cons_succ, List.getElem?_zipWith, found,
        List.getElem?_eq_getElem inside]
      constructor
      · intro both
        obtain ⟨marked, passed⟩ := Bool.and_eq_true_iff.mp (Option.some.inj both)
        exact ⟨_, _, rfl, before.mp (congrArg some marked), passed⟩
      · rintro ⟨other, byte, same, has, passed⟩
        obtain ⟨rfl, rfl⟩ := List.append_singleton_inj.mp same
        have marked := Option.some.inj (before.mpr has)
        rw [marked]
        exact congrArg Option.some passed

/-- The bytes of a character. -/
theorem bytes (follows : Follows name marks L) (bytes : List UInt8) :
    Follows name (bytes.foldl (fun marks byte => Pattern.nextByte (· == byte) name marks) marks)
      fun part => ∃ before, part = before ++ bytes ∧ L before := by
  induction bytes generalizing marks L with
  | nil =>
    refine ⟨follows.length, fun i fits => ?_⟩
    simpa using follows.marked i fits
  | cons byte rest ih =>
    have further := ih (follows.nextByte (· == byte))
    refine ⟨further.length, fun i fits => (further.marked i fits).trans ?_⟩
    constructor
    · rintro ⟨_, split, before, other, rfl, has, same⟩
      obtain rfl := eq_of_beq same
      exact ⟨before, by rw [split, List.append_assoc]; rfl, has⟩
    · rintro ⟨before, split, has⟩
      exact ⟨before ++ [byte], by rw [split, List.append_assoc]; rfl, before, byte, rfl, has,
        beq_self_eq_true byte⟩

/-- Plain characters. -/
theorem literals (follows : Follows name marks L) (text : List Char) :
    Follows name (advanceAll name marks (text.map .literal))
      fun part => ∃ before, part = before ++ Text.Utf8.encode text ∧ L before := by
  induction text generalizing marks L with
  | nil =>
    refine ⟨follows.length, fun i fits => ?_⟩
    simpa [advanceAll, Text.Utf8.encode] using follows.marked i fits
  | cons c rest ih =>
    have further := ih (follows.bytes (bytesOf c))
    have step : advanceAll name marks ((c :: rest).map .literal) =
        advanceAll name ((bytesOf c).foldl (fun marks byte =>
          Pattern.nextByte (· == byte) name marks) marks) (rest.map .literal) := by
      rw [List.map_cons, advanceAll, advance]
    rw [step]
    refine ⟨further.length, fun i fits => (further.marked i fits).trans ?_⟩
    have encoded : Text.Utf8.encode (c :: rest) = bytesOf c ++ Text.Utf8.encode rest :=
      List.flatMap_cons
    rw [encoded]
    constructor
    · rintro ⟨_, split, before, rfl, has⟩
      exact ⟨before, by rw [split, List.append_assoc], has⟩
    · rintro ⟨before, split, has⟩
      exact ⟨before ++ bytesOf c, by rw [split, List.append_assoc], before, rfl, has⟩

end Follows

/-- Behind a reached place all places are marked, and those behind a marked one. -/
theorem laterMarks_iff (reached : Bool) (marks : Marks) (i : Nat) :
    (laterMarks reached marks)[i]? = some true ↔
      i < marks.length ∧ (reached = true ∨ ∃ j ≤ i, marks[j]? = some true) := by
  induction marks generalizing reached i with
  | nil => simp [laterMarks]
  | cons mark rest ih =>
    cases i with
    | zero => simp [laterMarks]
    | succ i =>
      rw [laterMarks, List.getElem?_cons_succ, ih, List.length_cons, Nat.add_lt_add_iff_right,
        Bool.or_eq_true]
      refine and_congr_right fun _ => ?_
      constructor
      · rintro ((already | marked) | ⟨j, before, marked⟩)
        · exact .inl already
        · exact .inr ⟨0, Nat.zero_le _, by simpa using marked⟩
        · exact .inr ⟨j + 1, by omega, marked⟩
      · rintro (already | ⟨j, before, marked⟩)
        · exact .inl (.inl already)
        · cases j with
          | zero => exact .inl (.inr (by simpa using marked))
          | succ j => exact .inr ⟨j, by omega, marked⟩

/-- Any bytes. -/
theorem Follows.skipBytes (follows : Follows name marks L) :
    Follows name (skipBytes marks) fun part => ∃ before middle, part = before ++ middle ∧ L before
    where
  length := by
    have same (reached : Bool) (marks : Marks) :
        (laterMarks reached marks).length = marks.length := by
      induction marks generalizing reached with
      | nil => rfl
      | cons mark rest ih => simp [laterMarks, ih]
    rw [Pattern.skipBytes, same, follows.length]
  marked i fits := by
    rw [Pattern.skipBytes, laterMarks_iff, follows.length]
    constructor
    · rintro ⟨-, already | ⟨j, before, marked⟩⟩
      · cases already
      · have has := (follows.marked j (by omega)).mp marked
        refine ⟨name.take j, (name.take i).drop j, ?_, has⟩
        have cut : name.take j = (name.take i).take j := by
          rw [List.take_take, Nat.min_eq_left before]
        rw [cut, List.take_append_drop]
    · rintro ⟨before, middle, split, has⟩
      have long : before.length ≤ i := by
        have lengths := congrArg List.length split
        rw [List.length_take, List.length_append] at lengths
        omega
      have cut : name.take before.length = before := by
        have shorter : (name.take i).take before.length = before := by
          rw [split, List.take_left]
        rwa [List.take_take, Nat.min_eq_left long] at shorter
      refine ⟨by omega, .inr ⟨before.length, long, ?_⟩⟩
      exact (follows.marked _ (by omega)).mpr (by rwa [cut])

/-! ## A star between plain characters -/

/-- Whether a character stands for itself in a pattern. -/
def isPlain (c : Char) : Bool := !("?*[\x7b\x7d,\\".toList.contains c)

/-- The pattern of plain characters around a star. -/
def around (front ending : String) : Pattern :=
  front.toList.map .literal ++ .anyBytes :: ending.toList.map .literal

/-- A plain character is read as itself. -/
theorem readFrom?_plain (plain : isPlain c = true) (fuel : Nat) (scan : Scan)
    (before : Option Char) :
    readFrom? (fuel + 1) scan before (c :: rest) =
      readFrom? fuel (scan.push (.literal c)) (some c) rest := by
  have differs (other : Char) (special : isPlain other = false) : c ≠ other := by
    rintro rfl
    rw [plain] at special
    cases special
  rw [readFrom?.eq_def]
  dsimp only
  split
  · exact absurd rfl (differs '?' (by decide))
  · exact absurd rfl (differs '*' (by decide))
  · exact absurd rfl (differs '*' (by decide))
  · exact absurd rfl (differs '[' (by decide))
  · exact absurd rfl (differs '\x7b' (by decide))
  · exact absurd rfl (differs '\x7d' (by decide))
  · exact absurd rfl (differs ',' (by decide))
  · exact absurd rfl (differs '\\' (by decide))
  · rfl

/-- Plain characters are read one after the other. -/
theorem readFrom?_literals (plain : ∀ c ∈ text, isPlain c = true) (fuel : Nat)
    (current : Pattern) (before : Option Char) :
    ∃ last, readFrom? (fuel + text.length) ⟨⟨[], current⟩, []⟩ before (text ++ rest) =
      readFrom? fuel ⟨⟨[], (text.map .literal).reverse ++ current⟩, []⟩ last rest := by
  induction text generalizing current before with
  | nil => exact ⟨before, rfl⟩
  | cons c others ih =>
    obtain ⟨first, further⟩ := List.forall_mem_cons.mp plain
    obtain ⟨last, read⟩ := ih further (.literal c :: current) (some c)
    refine ⟨last, ?_⟩
    rw [List.length_cons, ← Nat.add_assoc, List.cons_append, readFrom?_plain first]
    simpa [Scan.push] using read

/-- A star between plain characters is read as such. -/
theorem ofText?_around {front ending : String} (plain : ∀ c ∈ front.toList, isPlain c = true)
    (others : ∀ c ∈ ending.toList, isPlain c = true) :
    ofText? (front ++ "*" ++ ending) = some (around front ending) := by
  have text : (front ++ "*" ++ ending).toList = front.toList ++ '*' :: ending.toList := by
    simp
  have size : (front ++ "*" ++ ending).length + 1 =
      1 + ending.toList.length + 1 + front.toList.length := by
    rw [String.length_append, String.length_append, ← String.length_toList (s := front),
      ← String.length_toList (s := ending)]
    have one : "*".length = 1 := by decide
    omega
  obtain ⟨last, read⟩ := @readFrom?_literals front.toList ('*' :: ending.toList) plain
    (1 + ending.toList.length + 1) [] none
  have star (before : Option Char) (current : Pattern) :
      readFrom? (1 + ending.toList.length + 1) ⟨⟨[], current⟩, []⟩ before ('*' :: ending.toList) =
        readFrom? (1 + ending.toList.length) ⟨⟨[], .anyBytes :: current⟩, []⟩ (some '*')
          ending.toList := by
    rw [readFrom?.eq_def]
    dsimp only
    split
    · rename_i same
      exact absurd same (by decide)
    · rename_i more _ same
      have inside : '*' ∈ ending.toList := by rw [same]; exact List.mem_cons_self
      exact absurd (others '*' inside) (by decide)
    all_goals first | rfl | simp_all
  obtain ⟨final, remaining⟩ := @readFrom?_literals ending.toList [] others
    1 (.anyBytes :: ((front.toList.map PatternPart.literal).reverse ++ [])) (some '*')
  rw [List.append_nil ending.toList] at remaining
  unfold ofText?
  rw [text, size, read, star, remaining, readFrom?]
  simp [Scan.inBraces, around]

/-- A pattern of plain characters around a star matches the names that begin and end so. -/
theorem matchesName_around {front ending name : String} :
    matchesName (around front ending) name = true ↔
      ∃ middle, Text.Utf8.ofString name =
        Text.Utf8.ofString front ++ middle ++ Text.Utf8.ofString ending := by
  have narrow : isEverything (around front ending) = false := by
    unfold around
    cases front.toList <;> rfl
  have split (name : List UInt8) (marks : Marks) :
      advanceAll name marks (around front ending) =
        advanceAll name (Pattern.skipBytes
          (advanceAll name marks (front.toList.map .literal))) (ending.toList.map .literal) := by
    unfold around
    induction front.toList generalizing marks with
    | nil => simp [advanceAll, advance]
    | cons c rest ih => simp only [List.map_cons, List.cons_append, advanceAll, ih]
  have follows := (((follows_start (Text.Utf8.ofString name)).literals
    front.toList).skipBytes).literals ending.toList
  unfold matchesName
  rw [narrow, Bool.false_or, split, follows.last]
  constructor
  · rintro ⟨_, same, before, middle, rfl, _, rfl, rfl⟩
    exact ⟨middle, by rw [same]; rfl⟩
  · rintro ⟨middle, same⟩
    exact ⟨_, same, _, middle, rfl, [], rfl, rfl⟩

end Micromag.Pattern
