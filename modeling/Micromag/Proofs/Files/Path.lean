import Micromag.Files.System
import Micromag.Proofs.Text.Basic

/-!
# Steps of paths

The steps of a path that is followed from another one are those of both. A path that ends in a name
has this name as its last step, and nothing else of the text matters when the path is followed.
-/

namespace Micromag

namespace Path

variable {base name : String}

/-- Whether text is one part of a path. -/
structure Solid (name : String) : Prop where
  /-- It is not empty. -/
  filled : name ≠ ""
  /-- It has no slash. -/
  noSlash : '/' ∉ name.toList

/-- A part of a path is a relative path. -/
theorem Solid.notAbsolute (solid : Solid name) : isAbsolute name = false := by
  unfold isAbsolute
  refine decide_eq_false fun starts => ?_
  obtain ⟨rest, text⟩ := List.head?_eq_some_iff.mp starts
  exact solid.noSlash (text ▸ List.mem_cons_self)

/-- A part of a path does not end in a slash. -/
theorem Solid.last_ne (solid : Solid name) : ∃ c, name.toList.getLast? = some c ∧ c ≠ '/' := by
  cases last : name.toList.getLast? with
  | none =>
    have empty := List.getLast?_eq_none_iff.mp last
    exact absurd (String.toList_inj.mp empty) solid.filled
  | some c =>
    refine ⟨c, rfl, fun same => solid.noSlash ?_⟩
    exact List.mem_of_getLast? (same ▸ last)

/-- The parts of a part are itself. -/
theorem Solid.parts_eq (solid : Solid name) : parts name = [name] := by
  unfold parts
  rw [Text.splitOn_of_notMem solid.noSlash, List.map_singleton, String.ofList_toList]

/-- A slash between two texts separates their parts. -/
theorem parts_append (first second : String) :
    parts (first ++ "/" ++ second) = parts first ++ parts second := by
  have text : (first ++ "/" ++ second).toList = first.toList ++ '/' :: second.toList := by
    rw [String.toList_append, String.toList_append, List.append_assoc]
    rfl
  unfold parts
  rw [text, Text.splitOn_append_cons, List.map_append]

/-- A part behind another path. -/
theorem join_eq (solid : Solid name) :
    join base name = if base.isEmpty then name
      else if endsInSlash base then base ++ name else base ++ "/" ++ name := by
  unfold join
  rw [solid.notAbsolute, Bool.false_or]

/-- The parts that say something. -/
def said (path : String) : List String := (parts path).filter (· ≠ "")

/-- The parts of a path with one more part. -/
theorem said_join (solid : Solid name) : said (join base name) = said base ++ [name] := by
  have one : said name = [name] := by
    unfold said
    rw [solid.parts_eq, List.filter_cons_of_pos (by simpa using solid.filled), List.filter_nil]
  rw [join_eq solid]
  by_cases empty : base.isEmpty = true
  · have nothing : base = "" := String.isEmpty_iff.mp empty
    rw [if_pos empty, one, nothing]
    rfl
  · rw [if_neg empty]
    by_cases slash : endsInSlash base = true
    · rw [if_pos slash]
      obtain ⟨front, text⟩ := List.getLast?_eq_some_iff.mp (of_decide_eq_true slash)
      have same : base = String.ofList front ++ "/" ++ "" := by
        rw [← String.toList_inj, String.toList_append, String.toList_append, String.toList_ofList,
          text, List.append_assoc]
        rfl
      have whole : base ++ name = String.ofList front ++ "/" ++ name := by
        rw [same, String.append_empty]
      have blank : said base = said (String.ofList front) := by
        have last : parts "" = [""] := by decide
        unfold said
        rw [same, parts_append, List.filter_append, last]
        simp
      unfold said at blank one ⊢
      rw [whole, parts_append, List.filter_append, one, blank]
    · rw [if_neg slash]
      unfold said at one ⊢
      rw [parts_append, List.filter_append, one]

/-- The parts that lead anywhere. -/
def telling (path : String) : List String := (said path).filter (· ≠ ".")

/-- The names of a path are the parts that say something, without single points but one at the
start. -/
theorem names_eq (path : String) :
    names path = (if (parts path).head? = some "." then ["."] else []) ++
      (said path).filter (· ≠ ".") := by
  have meaningful : (parts path).filter (fun name => name ≠ "" && name ≠ ".") =
      (said path).filter (· ≠ ".") := by
    unfold said
    rw [List.filter_filter]
    congr 1
    funext name
    exact Bool.and_comm _ _
  unfold names
  rw [← meaningful]
  dsimp only
  split <;> rfl

/-- The last name of a path with one more part is that part. -/
theorem fileName?_join (solid : Solid name) (notHere : name ≠ ".") (notUp : name ≠ "..") :
    fileName? (join base name) = some name := by
  have last : (names (join base name)).getLast? = some name := by
    have kept : [name].filter (· ≠ ".") = [name] :=
      List.filter_cons_of_pos (by simpa using notHere)
    rw [names_eq, said_join solid, List.filter_append, kept, ← List.append_assoc,
      List.getLast?_concat]
  unfold fileName?
  rw [last]
  dsimp only
  rw [decide_eq_false notHere, decide_eq_false notUp]
  rfl

/-- What is in no part and not in the separator is not in the whole. -/
theorem notMem_intercalate {c : Char} {separator : List Char} {parts : List (List Char)}
    (absent : ∀ part ∈ parts, c ∉ part) (other : c ∉ separator) :
    c ∉ separator.intercalate parts := by
  induction parts with
  | nil => exact List.not_mem_nil
  | cons part rest ih =>
    have first := absent part List.mem_cons_self
    have others := ih fun piece member => absent piece (List.mem_cons_of_mem part member)
    cases rest with
    | nil => rwa [List.intercalate_singleton]
    | cons next more =>
      rw [List.intercalate_cons_cons, List.mem_append, List.mem_append, not_or, not_or]
      exact ⟨⟨first, other⟩, others⟩

/-- A stem has no character that is not in the name. -/
theorem notMem_stemOf {c : Char} (absent : c ∉ name.toList) (notPoint : c ≠ '.') :
    c ∉ (stemOf name).toList := by
  unfold stemOf
  split
  · rename_i ending last before pieces
    have inside : ∀ piece ∈ (last :: before).reverse, c ∉ piece := by
      intro piece member within
      have among : piece ∈ (Text.splitOn '.' name.toList).reverse := by
        rw [pieces]
        exact List.mem_cons_of_mem _ (List.mem_reverse.mp member)
      rw [List.mem_reverse, Text.splitOn_eq] at among
      exact absent (Text.subset_of_mem_splitOnP among within)
    dsimp only
    split
    · exact absent
    · rw [String.toList_ofList]
      exact notMem_intercalate inside (by simpa using notPoint)
  · exact absent

/-- A path with one more part ends in no slash. -/
theorem endsInSlash_join (solid : Solid name) : endsInSlash (join base name) = false := by
  obtain ⟨c, last, other⟩ := solid.last_ne
  have ends (front : String) : endsInSlash (front ++ name) = false := by
    unfold endsInSlash
    rw [String.toList_append, List.getLast?_append, last, Option.some_or]
    exact decide_eq_false fun same => other (Option.some.inj same)
  rw [join_eq solid]
  split
  · have alone := ends ""
    rwa [String.empty_append] at alone
  · split
    · exact ends base
    · exact ends (base ++ "/")

/-- A path with one more part starts where the path starts. -/
theorem isAbsolute_join (solid : Solid name) : isAbsolute (join base name) = isAbsolute base := by
  have starts (rest : String) (filled : ¬ base.isEmpty = true) :
      isAbsolute (base ++ rest) = isAbsolute base := by
    unfold isAbsolute
    rw [String.toList_append]
    cases text : base.toList with
    | nil => exact absurd (String.isEmpty_iff.mpr (String.toList_inj.mp text)) filled
    | cons c others => rfl
  rw [join_eq solid]
  by_cases empty : base.isEmpty = true
  · rw [if_pos empty, String.isEmpty_iff.mp empty, solid.notAbsolute]
    rfl
  · rw [if_neg empty]
    split
    · exact starts name empty
    · rw [String.append_assoc]
      exact starts _ empty

end Path

namespace FileSystem

variable {base name : String}

/-- Whether a step goes into a directory, to an entry with the name. -/
structure Enters (name : String) : Prop where
  /-- It does not stay. -/
  notHere : name ≠ "."
  /-- It does not go back. -/
  notUp : name ≠ ".."
  /-- The name is not too long. -/
  short : name.utf8ByteSize ≤ maxName

/-- Every step of a path is one part of it. -/
theorem solid_of_mem_steps {path : String} (member : name ∈ steps path) : Path.Solid name := by
  unfold steps at member
  rcases List.mem_append.mp member with member | member
  · obtain ⟨part, filled⟩ := List.mem_filter.mp member
    obtain ⟨piece, inside, rfl⟩ := List.mem_map.mp part
    refine ⟨by simpa using filled, ?_⟩
    rw [String.toList_ofList]
    exact Text.notMem_of_mem_splitOn inside
  · split at member
    · rw [List.mem_singleton.mp member]
      exact ⟨by decide, by decide⟩
    · exact absurd member List.not_mem_nil

/-- The parts that lead anywhere are parts of paths and no single points. -/
theorem solid_of_mem_telling {path : String} (member : name ∈ Path.telling path) :
    Path.Solid name ∧ name ≠ "." := by
  obtain ⟨inside, other⟩ := List.mem_filter.mp member
  exact ⟨solid_of_mem_steps (List.mem_append_left _ inside), by simpa using other⟩

/-- They are the steps of the path without single points. -/
theorem telling_eq (path : String) : Path.telling path = (steps path).filter (· ≠ ".") := by
  have said : (Path.parts path).filter (· ≠ "") = Path.said path := rfl
  unfold steps Path.telling
  rw [said, List.filter_append]
  split <;> simp

/-- A path with one more part has one more step. -/
theorem steps_join (solid : Path.Solid name) :
    steps (Path.join base name) = Path.said base ++ [name] := by
  unfold steps
  rw [Path.endsInSlash_join solid]
  exact (List.append_nil _).trans (Path.said_join solid)

end FileSystem

end Micromag
