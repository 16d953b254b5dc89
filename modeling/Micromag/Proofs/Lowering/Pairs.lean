import Micromag.Proofs.Lowering.Energy
import Micromag.Proofs.Script.Heading

/-!
# Tables of unordered pairs

The key of a coupling names two regions with a colon between them, or one region that is taken
twice; blanks around a name do not count. A table of couplings has one row for each unordered pair
that is named, with the smaller name first and the rows in order, so that it does not depend on how
the keys are spelled.
-/

namespace Micromag

open Script

namespace PairValue

/-! ## Spellings of pairs -/

/-- Whether text is a name with blanks around it, the name having none at its ends. -/
structure Padded (text : List Char) (name : String) : Prop where
  /-- The name stands between blanks. -/
  between : ∃ before after, text = before ++ name.toList ++ after ∧
    (∀ c ∈ before, Text.isBlank c = true) ∧ ∀ c ∈ after, Text.isBlank c = true
  /-- It does not begin with a blank. -/
  first : ∀ c ∈ name.toList.head?, Text.isBlank c = false
  /-- It does not end in a blank. -/
  last : ∀ c ∈ name.toList.getLast?, Text.isBlank c = false

/-- The keys that name two regions in order. -/
inductive Spells (key a b : String) : Prop where
  /-- Both names, with the first colon of the key between them. -/
  | both {left right : List Char} (text : key.toList = left ++ ':' :: right)
      (noColon : ':' ∉ left) (first : Padded left a) (second : Padded right b)
  /-- One name for both. -/
  | alone (noColon : ':' ∉ key.toList) (first : Padded key.toList a) (same : a = b)

/-- Whether a key names two regions, in either order. -/
def Denotes (key a b : String) : Prop := Spells key a b ∨ Spells key b a

/-- The order in which a key names two regions does not count. -/
theorem Denotes.symm {key a b : String} (denotes : Denotes key a b) : Denotes key b a :=
  Or.symm denotes

/-- Trimming a text finds the name in it. -/
theorem Padded.trim_eq {text : List Char} {name : String} (padded : Padded text name) :
    Text.trim text = name.toList := by
  obtain ⟨before, after, rfl, front, back⟩ := padded.between
  rw [Text.trim_append_blanks back, Text.trim_blanks_append front,
    Text.trim_of_ends padded.first padded.last]

/-- Every text is what trimming it leaves, with blanks around. -/
theorem padded_trim (text : List Char) : Padded text (String.ofList (Text.trim text)) := by
  obtain ⟨before, front, start⟩ := Text.exists_blanks_trimStart text
  obtain ⟨after, back, stop⟩ := Text.exists_trimEnd_blanks (Text.trimStart text)
  have visible {c : Char} {rest : List Char} (first : rest.head? = some c)
      (trimmed : Text.trimStart rest = rest) : Text.isBlank c = false := by
    cases rest with
    | nil => cases first
    | cons head others =>
      obtain rfl := Option.some.inj first
      cases blank : Text.isBlank head with
      | false => rfl
      | true =>
        have shorter : (Text.trimStart (head :: others)).length ≤ others.length := by
          unfold Text.trimStart
          rw [List.dropWhile_cons_of_pos blank]
          exact (List.dropWhile_suffix _).length_le
        rw [trimmed, List.length_cons] at shorter
        omega
  refine ⟨⟨before, after, ?_, front, back⟩, fun c member => ?_, fun c member => ?_⟩
  · rw [String.toList_ofList, List.append_assoc]
    exact (start.symm.trans (congrArg (before ++ ·) stop.symm))
  · rw [String.toList_ofList] at member
    refine visible member ?_
    rw [← Text.trimStart_trimEnd]
    exact List.dropWhile_idempotent _ _
  · rw [String.toList_ofList, List.getLast?_eq_head?_reverse] at member
    refine visible member ?_
    unfold Text.trim Text.trimEnd Text.trimStart
    rw [List.reverse_reverse]
    exact List.dropWhile_idempotent _ _

/-- The name in a text is what trimming leaves. -/
theorem padded_iff {text : List Char} {name : String} :
    Padded text name ↔ String.ofList (Text.trim text) = name := by
  constructor
  · intro padded
    rw [padded.trim_eq, String.ofList_toList]
  · rintro rfl
    exact padded_trim text

/-- The regions of a key are those that it spells. -/
theorem regionsOf_eq_iff {key a b : String} : regionsOf key = (a, b) ↔ Spells key a b := by
  unfold regionsOf
  by_cases colon : ':' ∈ key.toList
  · obtain ⟨left, right, text, noColon⟩ := List.eq_append_cons_of_mem colon
    rw [text, splitFirstColon?_append noColon, Option.getD_some, Prod.mk.injEq, ← padded_iff,
      ← padded_iff]
    constructor
    · exact fun ⟨first, second⟩ => .both text noColon first second
    · rintro (⟨text', noColon', first, second⟩ | ⟨whole, -, -⟩)
      · have split : Table.splitFirstColon? (left ++ ':' :: right) = some (left, right) :=
          splitFirstColon?_append noColon
        rw [← text, text', splitFirstColon?_append noColon'] at split
        obtain ⟨rfl, rfl⟩ := Prod.mk.inj (Option.some.inj split)
        exact ⟨first, second⟩
      · exact absurd colon whole
  · rw [splitFirstColon?_of_noColon colon, Option.getD_none, Prod.mk.injEq, ← padded_iff,
      ← padded_iff]
    constructor
    · intro ⟨first, second⟩
      exact .alone colon first ((padded_iff.mp first).symm.trans (padded_iff.mp second))
    · rintro (⟨text, -, -, -⟩ | ⟨-, first, rfl⟩)
      · rw [text] at colon
        exact absurd (List.mem_append_right _ List.mem_cons_self) colon
      · exact ⟨first, first⟩

/-! ## Pairs in order -/

/-- Whether a pair stands in front of another one: by the first and then by the second name. -/
def Precedes (one other : PairValue) : Prop :=
  one.first < other.first ∨ one.first = other.first ∧ one.second < other.second

/-- Whether two pairs are of different regions. -/
def Apart (one other : PairValue) : Prop :=
  ¬(one.first = other.first ∧ one.second = other.second)

variable {site : Site} {name : String} {pair : PairValue} {pairs after : List PairValue}

/-- Whether pairs stand in strictly ascending order. -/
def Ordered (pairs : List PairValue) : Prop := pairs.Pairwise Precedes

/-- The comparison of pairs decides their order. -/
theorem below_iff {one other : PairValue} : one.below other = true ↔ one.Precedes other := by
  unfold below Precedes
  simp only [Bool.or_eq_true, Bool.and_eq_true, decide_eq_true_eq]

/-- Pairs of the same regions are not apart. -/
theorem samePair_iff {one other : PairValue} : one.samePair other = true ↔ ¬one.Apart other := by
  unfold samePair Apart
  rw [Bool.and_eq_true, decide_eq_true_eq, decide_eq_true_eq, not_not]

/-- To be apart is mutual. -/
theorem Apart.symm {one other : PairValue} (apart : one.Apart other) : other.Apart one :=
  fun same => apart ⟨same.1.symm, same.2.symm⟩

/-- A pair in front of another one is apart from it. -/
theorem Precedes.apart {one other : PairValue} (front : one.Precedes other) : one.Apart other := by
  rintro ⟨first, second⟩
  rcases front with below | ⟨-, below⟩
  · exact String.lt_irrefl _ (first ▸ below)
  · exact String.lt_irrefl _ (second ▸ below)

/-- The order of pairs is transitive. -/
theorem Precedes.trans {one other third : PairValue} (front : one.Precedes other)
    (back : other.Precedes third) : one.Precedes third := by
  rcases front with below | ⟨same, below⟩
  · rcases back with further | ⟨same', -⟩
    · exact .inl (String.lt_trans below further)
    · exact .inl (same' ▸ below)
  · rcases back with further | ⟨same', further⟩
    · exact .inl (same ▸ further)
    · exact .inr ⟨same.trans same', String.lt_trans below further⟩

/-- No two pairs stand in front of each other. -/
theorem Precedes.asymm {one other : PairValue} (front : one.Precedes other) :
    ¬other.Precedes one :=
  fun back => (front.trans back).apart ⟨rfl, rfl⟩

/-- Of two pairs that are apart one stands in front of the other. -/
theorem Apart.precedes {one other : PairValue} (apart : one.Apart other)
    (notFront : ¬one.Precedes other) : other.Precedes one := by
  unfold Precedes at notFront ⊢
  rw [not_or, not_and] at notFront
  by_cases same : one.first = other.first
  · refine .inr ⟨same.symm, ?_⟩
    exact Std.lt_of_le_of_ne (notFront.2 same) fun equal => apart ⟨same, equal.symm⟩
  · exact .inl (Std.lt_of_le_of_ne notFront.1 (Ne.symm same))

/-- A pair that is put among ordered pairs comes to them, and they stay in order. -/
theorem insert?_some (ordered : Ordered pairs) (inserted : pair.insert? pairs = some after) :
    after.Perm (pair :: pairs) ∧ Ordered after := by
  induction pairs generalizing after with
  | nil =>
    rw [← Option.some.inj inserted]
    exact ⟨.refl _, List.pairwise_singleton _ _⟩
  | cons head rest ih =>
    obtain ⟨first, others⟩ := List.pairwise_cons.mp ordered
    unfold insert? at inserted
    split at inserted
    · cases inserted
    · rename_i different
      have apart : pair.Apart head := by
        by_contra same
        exact different (samePair_iff.mpr same)
      split at inserted
      · rename_i below
        have front := below_iff.mp below
        rw [← Option.some.inj inserted]
        refine ⟨.refl _, List.pairwise_cons.mpr ⟨List.forall_mem_cons.mpr ⟨front, ?_⟩, ordered⟩⟩
        exact fun other member => front.trans (first other member)
      · rename_i notBelow
        have behind := apart.precedes fun front => notBelow (below_iff.mpr front)
        obtain ⟨tail, inner, rfl⟩ := Option.map_eq_some_iff.mp inserted
        obtain ⟨moved, sorted⟩ := ih others inner
        refine ⟨(moved.cons head).trans (.swap pair head rest), List.pairwise_cons.mpr ⟨?_, sorted⟩⟩
        intro other member
        rcases List.mem_cons.mp (moved.mem_iff.mp member) with rfl | member
        · exact behind
        · exact first other member

/-- A pair that is apart from all others can be put among them. -/
theorem exists_insert? (apart : ∀ other ∈ pairs, pair.Apart other) :
    ∃ after, pair.insert? pairs = some after := by
  induction pairs with
  | nil => exact ⟨_, rfl⟩
  | cons head rest ih =>
    obtain ⟨first, others⟩ := List.forall_mem_cons.mp apart
    obtain ⟨tail, inner⟩ := ih others
    unfold insert?
    rw [if_neg (fun same => samePair_iff.mp same first), inner]
    split
    · exact ⟨_, rfl⟩
    · exact ⟨_, rfl⟩

/-- Ordered pairs are apart from each other. -/
theorem Ordered.apart (ordered : Ordered pairs) : pairs.Pairwise Apart := ordered.imp Precedes.apart

/-- The same pairs in order are one list. -/
theorem Ordered.eq_of_perm {others : List PairValue} (ordered : Ordered pairs)
    (again : Ordered others) (same : pairs.Perm others) : pairs = others :=
  same.eq_of_pairwise (fun _ _ _ _ front back => absurd back front.asymm) ordered again

/-- Collecting the entries of a map succeeds when each of them is a pair and the pairs are apart
from each other and from those before; the result is all of them in order. -/
theorem collect_ok {entries : List (String × RegionValue)} (ordered : Ordered pairs) :
    collect site name pairs entries = .ok after ↔
      ∃ found, entries.mapM (ofEntry site name) = .ok found ∧ after.Perm (pairs ++ found) ∧
        Ordered after := by
  induction entries generalizing pairs with
  | nil =>
    constructor
    · intro done
      rw [← Except.ok.inj done]
      exact ⟨[], rfl, by rw [List.append_nil], ordered⟩
    · rintro ⟨found, all, same, sorted⟩
      rw [List.forall₂_nil_left_iff.mp (Result.mapM_ok.mp all), List.append_nil] at same
      exact congrArg Except.ok (ordered.eq_of_perm sorted same.symm)
  | cons entry rest ih =>
    unfold collect
    rw [Result.bind_ok]
    constructor
    · rintro ⟨pair, first, done⟩
      split at done
      · cases done
      · rename_i more inserted
        obtain ⟨moved, sorted⟩ := insert?_some ordered inserted
        obtain ⟨found, others, same, all⟩ := (ih sorted).mp done
        refine ⟨pair :: found, ?_, ?_, all⟩
        · exact Result.mapM_ok.mpr (.cons first (Result.mapM_ok.mp others))
        · exact same.trans ((moved.append_right found).trans List.perm_middle.symm)
    · rintro ⟨found, all, same, sorted⟩
      obtain ⟨pair, others, first, tail, rfl⟩ :=
        List.forall₂_cons_left_iff.mp (Result.mapM_ok.mp all)
      have moved : after.Perm (pair :: (pairs ++ others)) := same.trans List.perm_middle
      have apart := (List.pairwise_cons.mp
        ((moved.pairwise_iff Apart.symm).mp sorted.apart)).1
      obtain ⟨more, inserted⟩ := exists_insert? fun other member =>
        apart other (List.mem_append_left _ member)
      obtain ⟨come, ascending⟩ := insert?_some ordered inserted
      refine ⟨pair, first, ?_⟩
      rw [inserted]
      refine (ih ascending).mpr ⟨others, Result.mapM_ok.mpr tail, ?_, sorted⟩
      exact moved.trans (come.append_right others).symm

/-! ## Entries and rows -/

/-- The two regions that a key denotes are determined up to their order. -/
theorem Denotes.unique {key a b c d : String} (one : Denotes key a b) (other : Denotes key c d) :
    a = c ∧ b = d ∨ a = d ∧ b = c := by
  have same {a b c d : String} (one : Spells key a b) (other : Spells key c d) : a = c ∧ b = d :=
    Prod.mk.inj ((regionsOf_eq_iff.mpr one).symm.trans (regionsOf_eq_iff.mpr other))
  rcases one with one | one
  · rcases other with other | other
    · exact .inl (same one other)
    · exact .inr (same one other)
  · rcases other with other | other
    · exact .inr (same one other).symm
    · exact .inl (same one other).symm

/-- The two regions that a key denotes are determined when the smaller one is the first. -/
theorem Denotes.sorted {key a b c d : String} (one : Denotes key a b) (other : Denotes key c d)
    (below : a ≤ b) (below' : c ≤ d) : a = c ∧ b = d := by
  rcases one.unique other with same | ⟨rfl, rfl⟩
  · exact same
  · have same := String.le_antisymm below below'
    exact ⟨same, same.symm⟩

/-- Keys that denote the same two regions once denote the same regions always. -/
theorem Denotes.of_same {key other a b c d : String} (one : Denotes key a b)
    (same : Denotes other a b) (denotes : Denotes key c d) : Denotes other c d := by
  rcases one.unique denotes with ⟨rfl, rfl⟩ | ⟨rfl, rfl⟩
  · exact same
  · exact same.symm

/-- An entry is a pair when its key denotes the two regions of the pair, which are regions of the
mesh and of which the smaller is the first, and its value is the number of the pair. -/
theorem ofEntry_ok {entry : String × RegionValue} :
    ofEntry site name entry = .ok pair ↔
      pair.first ≤ pair.second ∧ Denotes entry.1 pair.first pair.second ∧ pair.Known site ∧
        entry.2 = .scalar pair.value := by
  obtain ⟨key, value⟩ := entry
  unfold ofEntry
  dsimp only
  generalize regions : regionsOf key = names
  obtain ⟨a, b⟩ := names
  have spelled := regionsOf_eq_iff.mp regions
  dsimp only
  rw [Result.bind_ok]
  constructor
  · rintro ⟨_, aAccepted, lowered⟩
    obtain ⟨_, bAccepted, lowered⟩ := Result.bind_ok.mp lowered
    have aKnown := Parameter.mem_of_checkRegion aAccepted
    have bKnown := Parameter.mem_of_checkRegion bAccepted
    cases value with
    | vector v => cases lowered
    | scalar x =>
      dsimp only at lowered
      split at lowered
      · rename_i below
        rw [← Except.ok.inj lowered]
        exact ⟨below, .inl spelled, ⟨aKnown, bKnown⟩, rfl⟩
      · rename_i notBelow
        rw [← Except.ok.inj lowered]
        exact ⟨(String.le_total b a).resolve_right notBelow, .inr spelled, ⟨bKnown, aKnown⟩, rfl⟩
  · rintro ⟨below, denotes, known, rfl⟩
    rcases Denotes.unique (.inl spelled) denotes with ⟨rfl, rfl⟩ | ⟨rfl, rfl⟩
    · refine ⟨(), Parameter.checkRegion_of_mem known.1, Result.bind_ok.mpr
        ⟨(), Parameter.checkRegion_of_mem known.2, ?_⟩⟩
      exact if_pos below
    · refine ⟨(), Parameter.checkRegion_of_mem known.2, Result.bind_ok.mpr
        ⟨(), Parameter.checkRegion_of_mem known.1, ?_⟩⟩
      dsimp only
      split
      · rename_i above
        obtain ⟨first, second, x⟩ := pair
        obtain rfl : second = first := String.le_antisymm above below
        rfl
      · rfl

/-- A number can be written when it is finite. -/
theorem numberText_ok {x : Float} : (∃ text, numberText x = .ok text) ↔ x.isFinite = true := by
  unfold numberText
  cases x.isFinite with
  | false => exact ⟨fun ⟨_, failed⟩ => (nomatch failed), fun no => (nomatch no)⟩
  | true =>
    refine ⟨fun _ => rfl, fun _ => ?_⟩
    by_cases zero : (x == 0) = true
    · exact ⟨_, if_pos zero⟩
    · exact ⟨_, if_neg zero⟩

/-- The word of a number is its text. -/
theorem numberWord_ok {x : Float} {word : Word} :
    numberWord x = .ok word ↔ ∃ text, numberText x = .ok text ∧ word = .text text := by
  unfold numberWord number
  rw [Result.map_ok]
  constructor
  · rintro ⟨atom, inner, rfl⟩
    obtain ⟨text, found, rfl⟩ := Result.map_ok.mp inner
    exact ⟨text, found, rfl⟩
  · rintro ⟨text, found, rfl⟩
    exact ⟨.text text, Result.map_ok.mpr ⟨text, found, rfl⟩, rfl⟩

/-- A number that has no word is not finite. -/
theorem numberWord_error {x : Float} {fault : Fault} (failed : numberWord x = .error fault) :
    fault = notFinite x := by
  unfold numberWord number numberText at failed
  cases finite : x.isFinite with
  | false =>
    rw [finite] at failed
    exact (Except.error.inj failed).symm
  | true =>
    obtain ⟨text, written⟩ := numberText_ok.mpr finite
    unfold numberText at written
    rw [written] at failed
    cases failed

/-- Whether a row is that of a pair: its regions and the text of its value. -/
def RowOf (pair : PairValue) (row : List Word) : Prop :=
  ∃ text, numberText pair.value = .ok text ∧
    row = [.text pair.first, .text pair.second, .text text]

/-- The row of a pair names its regions and has its value behind them. -/
theorem row_ok {words : List Word} : pair.row = .ok words ↔ RowOf pair words := by
  unfold row RowOf
  rw [Result.bind_ok]
  constructor
  · rintro ⟨value, written, same⟩
    obtain ⟨text, found, rfl⟩ := numberWord_ok.mp written
    exact ⟨text, found, (Except.ok.inj same).symm⟩
  · rintro ⟨text, found, rfl⟩
    exact ⟨.text text, numberWord_ok.mpr ⟨text, found, rfl⟩, rfl⟩

/-! ## Tables -/

/-- Pairs that are apart from each other can be put in order. -/
theorem exists_ordered (apart : pairs.Pairwise Apart) :
    ∃ after, after.Perm pairs ∧ Ordered after := by
  induction pairs with
  | nil => exact ⟨[], .refl _, .nil⟩
  | cons pair rest ih =>
    obtain ⟨first, others⟩ := List.pairwise_cons.mp apart
    obtain ⟨sorted, same, ordered⟩ := ih others
    obtain ⟨after, inserted⟩ := exists_insert? fun other member =>
      first other (same.mem_iff.mp member)
    obtain ⟨come, ascending⟩ := insert?_some ordered inserted
    exact ⟨after, come.trans (same.cons pair), ascending⟩

/-- The rows of a map are those of the pairs of its entries, in order. -/
theorem table_ok {map : RegionMap} {rows : List (List Word)} :
    table site map name = .ok rows ↔
      ∃ found sorted, map.values.entries.mapM (ofEntry site name) = .ok found ∧
        sorted.Perm found ∧ Ordered sorted ∧ sorted.mapM row = .ok rows := by
  have collected (sorted : List PairValue) :
      collect site name [] map.values.entries = .ok sorted ↔ _ := collect_ok .nil
  unfold table
  rw [Result.bind_ok]
  constructor
  · rintro ⟨sorted, done, written⟩
    obtain ⟨found, all, same, ordered⟩ := (collected sorted).mp done
    exact ⟨found, sorted, all, same, ordered, written⟩
  · rintro ⟨found, sorted, all, same, ordered, written⟩
    exact ⟨sorted, (collected sorted).mpr ⟨found, all, same, ordered⟩, written⟩

/-- Whether a region map is a table of couplings of a mesh. -/
structure Tabular (site : Site) (map : RegionMap) : Prop where
  /-- Every key names two regions of the mesh. -/
  regions : ∀ entry ∈ map.values.entries, ∃ a ∈ site.mesh.regionNames,
    ∃ b ∈ site.mesh.regionNames, Spells entry.1 a b
  /-- Every value is a finite number. -/
  numbers : ∀ entry ∈ map.values.entries, ∃ x, entry.2 = .scalar x ∧ x.isFinite = true
  /-- No two keys denote the same two regions. -/
  once : map.values.entries.Pairwise fun one other =>
    ∀ a b, Denotes one.1 a b → ¬Denotes other.1 a b

/-- Two pairs are apart when the keys of their entries denote different regions. -/
theorem apart_iff {one other : String × RegionValue} {two : PairValue}
    (first : ofEntry site name one = .ok pair) (second : ofEntry site name other = .ok two) :
    (∀ a b, Denotes one.1 a b → ¬Denotes other.1 a b) ↔ pair.Apart two := by
  obtain ⟨below, denotes, -, -⟩ := ofEntry_ok.mp first
  obtain ⟨below', denotes', -, -⟩ := ofEntry_ok.mp second
  constructor
  · rintro different ⟨firstSame, secondSame⟩
    exact different _ _ denotes (firstSame ▸ secondSame ▸ denotes')
  · intro apart a b one other
    have again := Denotes.of_same one other denotes
    have ⟨firstSame, secondSame⟩ := denotes'.sorted again below' below
    exact apart ⟨firstSame.symm, secondSame.symm⟩

/-- A map has rows when it is a table of couplings. -/
theorem table_succeeds {map : RegionMap} :
    (∃ rows, table site map name = .ok rows) ↔ Tabular site map := by
  constructor
  · rintro ⟨rows, lowered⟩
    obtain ⟨found, sorted, all, same, ordered, written⟩ := table_ok.mp lowered
    have pairs {entry : String × RegionValue} (member : entry ∈ map.values.entries) :
        ∃ pair ∈ sorted, ofEntry site name entry = .ok pair := by
      obtain ⟨pair, inside, lowers⟩ := Result.exists_mapM_of_mem all member
      exact ⟨pair, same.mem_iff.mpr inside, lowers⟩
    refine ⟨fun entry member => ?_, fun entry member => ?_, ?_⟩
    · obtain ⟨pair, -, lowers⟩ := pairs member
      obtain ⟨-, spells | spells, known, -⟩ := ofEntry_ok.mp lowers
      · exact ⟨_, known.1, _, known.2, spells⟩
      · exact ⟨_, known.2, _, known.1, spells⟩
    · obtain ⟨pair, inside, lowers⟩ := pairs member
      obtain ⟨row, -, of⟩ := Result.exists_mapM_of_mem written inside
      obtain ⟨text, written, -⟩ := row_ok.mp of
      exact ⟨pair.value, (ofEntry_ok.mp lowers).2.2.2, numberText_ok.mp ⟨text, written⟩⟩
    · exact (Result.pairwise_mapM all apart_iff).mpr
        ((same.pairwise_iff Apart.symm).mp ordered.apart)
  · intro tabular
    have pairs (entry : String × RegionValue) (member : entry ∈ map.values.entries) :
        ∃ pair, ofEntry site name entry = .ok pair ∧ pair.value.isFinite = true := by
      obtain ⟨a, aKnown, b, bKnown, spells⟩ := tabular.regions entry member
      obtain ⟨x, value, finite⟩ := tabular.numbers entry member
      rcases String.le_total a b with below | below
      · exact ⟨⟨a, b, x⟩, ofEntry_ok.mpr ⟨below, .inl spells, ⟨aKnown, bKnown⟩, value⟩, finite⟩
      · exact ⟨⟨b, a, x⟩, ofEntry_ok.mpr ⟨below, .inr spells, ⟨bKnown, aKnown⟩, value⟩, finite⟩
    obtain ⟨found, all⟩ := Result.mapM_succeeds.mpr fun entry member =>
      (pairs entry member).imp fun _ => And.left
    obtain ⟨sorted, same, ordered⟩ := exists_ordered ((Result.pairwise_mapM all apart_iff).mp
      tabular.once)
    have writes (pair : PairValue) (member : pair ∈ sorted) : ∃ words, pair.row = .ok words := by
      obtain ⟨entry, inside, lowers⟩ := Result.exists_of_mem_mapM all (same.mem_iff.mp member)
      obtain ⟨_, again, finite⟩ := pairs entry inside
      obtain rfl := Except.ok.inj (again.symm.trans lowers)
      obtain ⟨text, written⟩ := numberText_ok.mpr finite
      exact ⟨_, row_ok.mpr ⟨text, written, rfl⟩⟩
    obtain ⟨rows, written⟩ := Result.mapM_succeeds.mpr writes
    exact ⟨rows, table_ok.mpr ⟨found, sorted, all, same, ordered, written⟩⟩

/-- Whether two maps give the same values to the same pairs of regions, however their keys spell
them. -/
def Respelled (map other : RegionMap) : Prop :=
  ∃ moved, moved.Perm other.values.entries ∧
    List.Forall₂ (fun one two => (∃ a b, Denotes one.1 a b ∧ Denotes two.1 a b) ∧ one.2 = two.2)
      map.values.entries moved

/-- To be respelled is mutual. -/
theorem Respelled.symm {map other : RegionMap} (respelled : Respelled map other) :
    Respelled other map := by
  obtain ⟨moved, same, alike⟩ := respelled
  obtain ⟨back, along, same⟩ := List.perm_comp_forall₂ same.symm alike.flip
  refine ⟨back, same, along.imp ?_⟩
  rintro one two ⟨⟨a, b, denotes, denotes'⟩, value⟩
  exact ⟨⟨a, b, denotes', denotes⟩, value.symm⟩

/-- An entry is the pair that it is under another spelling of its key. -/
theorem ofEntry_respelled {one two : String × RegionValue}
    (alike : (∃ a b, Denotes one.1 a b ∧ Denotes two.1 a b) ∧ one.2 = two.2)
    (lowered : ofEntry site name one = .ok pair) : ofEntry site name two = .ok pair := by
  obtain ⟨⟨a, b, first, second⟩, value⟩ := alike
  obtain ⟨below, denotes, known, number⟩ := ofEntry_ok.mp lowered
  exact ofEntry_ok.mpr ⟨below, first.of_same second denotes, known, value ▸ number⟩

/-- Maps that give the same values to the same pairs have the same rows. -/
theorem table_respelled {map other : RegionMap} {rows : List (List Word)}
    (respelled : Respelled map other) (lowered : table site map name = .ok rows) :
    table site other name = .ok rows := by
  obtain ⟨found, sorted, all, same, ordered, written⟩ := table_ok.mp lowered
  obtain ⟨moved, order, alike⟩ := respelled
  have again := Result.mapM_along (alike.imp fun _ _ alike _ => ofEntry_respelled alike) all
  obtain ⟨others, found', same'⟩ := Result.mapM_perm order.symm again
  exact table_ok.mpr ⟨others, sorted, found', same.trans same'.symm, ordered, written⟩

/-- A region map has rows for its couplings exactly when every key names two regions of the mesh,
every value is a finite number and no two keys denote the same two regions. The rows are then one
for each two regions that a key denotes, the smaller name first, with the value of the key, and in
ascending order. They do not depend on how keys spell the regions. -/
theorem table_canonical (site : Site) (name : String) (map : RegionMap) :
    ((∃ rows, table site map name = .ok rows) ↔ Tabular site map) ∧
      (∀ rows, table site map name = .ok rows → ∃ pairs, Ordered pairs ∧
        (∀ pair, pair ∈ pairs ↔ pair.first ≤ pair.second ∧ ∃ entry ∈ map.values.entries,
          Denotes entry.1 pair.first pair.second ∧ entry.2 = .scalar pair.value) ∧
        List.Forall₂ RowOf pairs rows) ∧
      ∀ other, Respelled map other → ∀ rows,
        table site map name = .ok rows ↔ table site other name = .ok rows := by
  refine ⟨table_succeeds, fun rows lowered => ?_, fun other respelled rows =>
    ⟨table_respelled respelled, table_respelled respelled.symm⟩⟩
  obtain ⟨found, sorted, all, same, ordered, written⟩ := table_ok.mp lowered
  refine ⟨sorted, ordered, fun pair => ?_, (Result.mapM_ok.mp written).imp fun _ _ => row_ok.mp⟩
  rw [same.mem_iff]
  constructor
  · intro member
    obtain ⟨entry, inside, lowers⟩ := Result.exists_of_mem_mapM all member
    obtain ⟨below, denotes, -, value⟩ := ofEntry_ok.mp lowers
    exact ⟨below, entry, inside, denotes, value⟩
  · rintro ⟨below, entry, inside, denotes, value⟩
    obtain ⟨other, member, lowers⟩ := Result.exists_mapM_of_mem all inside
    obtain ⟨below', denotes', known, value'⟩ := ofEntry_ok.mp lowers
    have ⟨firstSame, secondSame⟩ := denotes.sorted denotes' below below'
    have valueSame := RegionValue.scalar.inj (value.symm.trans value')
    have same : pair = other := by
      cases pair
      cases other
      simp_all only
    rwa [same]

/-- A region in two halves. -/
def halves : Site where
  mesh := {
    region := ⟨.fill 0, ⟨2, 1, 1⟩⟩
    cell := .fill 1
    subregions := .ofList [("left", ⟨.fill 0, .fill 1⟩), ("right", ⟨⟨1, 0, 0⟩, ⟨2, 1, 1⟩⟩)] }
  platform := .unix

/-- Couplings under keys that are written carelessly. -/
def careless : RegionMap where
  values := .ofList
    [(" right :right", .scalar 3), ("left", .scalar 2), ("right: left", .scalar 1)]

/-- The same couplings under tidy keys. -/
def tidy : RegionMap where
  values := .ofList [("left:left", .scalar 2), ("left:right", .scalar 1), ("right", .scalar 3)]

/-- Couplings under careless keys have the rows of those under tidy keys. -/
theorem table_canonical_careless :
    Tabular halves careless ∧ table halves tidy "exchange" = .ok
      [[.text "left", .text "left", .text "2"], [.text "left", .text "right", .text "1"],
        [.text "right", .text "right", .text "3"]] := by
  have ⟨succeeds, _, spelling⟩ := table_canonical halves "exchange" careless
  have denotes {key other : String} (same : regionsOf key = regionsOf other) :
      ∃ a b, Denotes key a b ∧ Denotes other a b :=
    ⟨_, _, .inl (regionsOf_eq_iff.mp rfl), .inl (regionsOf_eq_iff.mp same.symm)⟩
  have crossed : ∃ a b, Denotes "right: left" a b ∧ Denotes "left:right" a b :=
    ⟨_, _, .inl (regionsOf_eq_iff.mp rfl), .inr (regionsOf_eq_iff.mp rfl)⟩
  have respelled : Respelled careless tidy := by
    refine ⟨[("right", .scalar 3), ("left:left", .scalar 2), ("left:right", .scalar 1)],
      ((List.Perm.swap _ _ _).trans (.cons _ (.swap _ _ _))), ?_⟩
    exact .cons ⟨denotes rfl, rfl⟩ (.cons ⟨denotes rfl, rfl⟩ (.cons ⟨crossed, rfl⟩ .nil))
  have rows : table halves careless "exchange" = .ok
      [[.text "left", .text "left", .text "2"], [.text "left", .text "right", .text "1"],
        [.text "right", .text "right", .text "3"]] := by rfl
  exact ⟨succeeds.mp ⟨_, rows⟩, (spelling tidy respelled _).mp rows⟩

end PairValue

end Micromag
