import Micromag.Proofs.Files.Directories

/-!
# Absolute paths name by name

An absolute path that ends in no slash is followed by its names from the root. The directories on
the way to it are reached by its first name, its first two names and so on, and those on the way to
a path with one more name are the same and the path itself.
-/

namespace Micromag

namespace Path

variable {base path name : String} {all : List String}

/-- The parts of a path with more parts. -/
theorem said_foldl_join (solid : ∀ name ∈ all, Solid name) :
    said (all.foldl join base) = said base ++ all := by
  induction all generalizing base with
  | nil => exact (List.append_nil _).symm
  | cons first rest ih =>
    obtain ⟨head, tail⟩ := List.forall_mem_cons.mp solid
    rw [List.foldl_cons, ih tail, said_join head, List.append_assoc]
    rfl

/-- A path with more parts starts where the path starts. -/
theorem isAbsolute_foldl_join (solid : ∀ name ∈ all, Solid name) :
    isAbsolute (all.foldl join base) = isAbsolute base := by
  induction all generalizing base with
  | nil => rfl
  | cons first rest ih =>
    obtain ⟨head, tail⟩ := List.forall_mem_cons.mp solid
    rw [List.foldl_cons, ih tail, isAbsolute_join head]

/-- A path with more parts ends in no slash. -/
theorem endsInSlash_foldl_join (solid : ∀ name ∈ all, Solid name) (some : all ≠ []) :
    endsInSlash (all.foldl join base) = false := by
  obtain ⟨front, last, rfl⟩ := (List.eq_nil_or_concat' all).resolve_left some
  rw [List.foldl_append]
  exact endsInSlash_join (solid last List.mem_concat_self)

/-- Whether a path is absolute, ends in no slash and has certain parts. -/
structure Spells (path : String) (all : List String) : Prop where
  /-- It starts at the root. -/
  absolute : isAbsolute path = true
  /-- It ends in no slash. -/
  plainEnd : endsInSlash path = false
  /-- Its parts. -/
  said : said path = all

/-- One more part. -/
theorem Spells.join (spells : Spells path all) (solid : Solid name) :
    Spells (join path name) (all ++ [name]) where
  absolute := (isAbsolute_join solid).trans spells.absolute
  plainEnd := endsInSlash_join solid
  said := by rw [said_join solid, spells.said]

/-- Parts that follow each other from a root. -/
theorem spells_foldl_join (absolute : isAbsolute base = true)
    (solid : ∀ name ∈ all, Solid name) (some : all ≠ []) :
    Spells (all.foldl Path.join base) (Path.said base ++ all) :=
  ⟨(isAbsolute_foldl_join solid).trans absolute, endsInSlash_foldl_join solid some,
    said_foldl_join solid⟩

/-- An absolute path has the names that say something, without single points. -/
theorem names_of_isAbsolute (absolute : isAbsolute path = true) :
    names path = (said path).filter (· ≠ ".") := by
  have first : (parts path).head? = some "" := by
    obtain ⟨rest, text⟩ := List.head?_eq_some_iff.mp (of_decide_eq_true absolute)
    have pieces : Text.splitOn '/' path.toList = [] :: Text.splitOn '/' rest := by
      rw [text]
      exact Text.splitOn_append_cons '/' [] rest
    unfold parts
    rw [pieces]
    rfl
  rw [names_eq, first]
  rfl

/-- A part behind a path that does not end in a slash follows a slash. -/
theorem join_of_plainEnd (solid : Solid name) (filled : base ≠ "")
    (plainEnd : endsInSlash base = false) : join base name = base ++ "/" ++ name := by
  rw [join_eq solid, if_neg (by simpa using filled), if_neg (by simp [plainEnd])]

/-- Parts behind a path that does not end in a slash are separated by slashes. -/
theorem foldl_join_eq_intercalate (solid : ∀ name ∈ all, Solid name) (filled : base ≠ "")
    (plainEnd : endsInSlash base = false) :
    all.foldl join base = String.intercalate "/" (base :: all) := by
  induction all generalizing base with
  | nil => exact String.intercalate_singleton.symm
  | cons first rest ih =>
    obtain ⟨head, tail⟩ := List.forall_mem_cons.mp solid
    have next := join_of_plainEnd head filled plainEnd
    have more : join base first ≠ "" := by
      intro empty
      rw [empty] at next
      have texts := congrArg String.toList next
      rw [String.toList_append, String.toList_append] at texts
      simp at texts
    have regroup : String.intercalate "/" ((base ++ "/" ++ first) :: rest) =
        base ++ "/" ++ String.intercalate "/" (first :: rest) := by
      cases rest with
      | nil => rw [String.intercalate_singleton, String.intercalate_singleton]
      | cons second others =>
        rw [String.intercalate_cons_cons, String.intercalate_cons_cons]
        simp only [String.append_assoc]
    rw [List.foldl_cons, ih tail more (endsInSlash_join head), next, regroup,
      String.intercalate_cons_cons]

/-- The path of a place is made of its names behind the root. -/
theorem pathOf_eq (solid : ∀ name ∈ all, Solid name) :
    FileSystem.pathOf all = all.foldl join "/" := by
  cases all with
  | nil => rfl
  | cons first rest =>
    obtain ⟨head, tail⟩ := List.forall_mem_cons.mp solid
    have start : join "/" first = "/" ++ first := by
      rw [join_eq head]
      rfl
    have filled : join "/" first ≠ "" := by
      intro empty
      rw [start] at empty
      have texts := congrArg String.toList empty
      rw [String.toList_append] at texts
      simp at texts
    have regroup : String.intercalate "/" (("/" ++ first) :: rest) =
        "/" ++ String.intercalate "/" (first :: rest) := by
      cases rest with
      | nil => rw [String.intercalate_singleton, String.intercalate_singleton]
      | cons second others =>
        rw [String.intercalate_cons_cons, String.intercalate_cons_cons]
        simp only [String.append_assoc]
    rw [List.foldl_cons, foldl_join_eq_intercalate tail filled (endsInSlash_join head), start,
      regroup]
    rfl

end Path

namespace FileSystem

variable {path name : String} {all : List String}

/-- The steps of a path that ends in no slash are its parts. -/
theorem steps_of_spells (spells : Path.Spells path all) : steps path = all := by
  unfold steps
  rw [spells.plainEnd]
  exact (List.append_nil _).trans spells.said

/-- A path that spells certain names is followed by these from the root. -/
theorem locate_spells {system : FileSystem} {last : Bool} {spot : Spot}
    (spells : Path.Spells path all) : system.locate path last = .ok spot ↔
      checkPath path = .ok () ∧ walk system.tree last maxLinks [] all = .ok spot := by
  rw [locate_ok_iff, startOf_absolute spells.absolute, steps_of_spells spells]
  refine and_congr_right fun _ => ?_
  rw [walk_ok_iff]
  constructor
  · rintro ⟨_, same, leads⟩
    rwa [← Except.ok.inj same] at leads
  · exact fun leads => ⟨[], rfl, leads⟩

/-- The paths by the first name, by the first two names and so on. -/
def trail (all : List String) : List String :=
  (all.foldl (fun (made : List String × String) name =>
    let next := Path.join made.2 name
    (made.1 ++ [next], next)) ([], "/")).1

/-- A trail with one more name has one more path. -/
theorem trail_concat (all : List String) (name : String) :
    trail (all ++ [name]) = trail all ++ [(all ++ [name]).foldl Path.join "/"] := by
  have last (all : List String) (made : List String × String) :
      (all.foldl (fun (made : List String × String) name =>
        (made.1 ++ [Path.join made.2 name], Path.join made.2 name)) made).2 =
      all.foldl Path.join made.2 := by
    induction all generalizing made with
    | nil => rfl
    | cons first rest ih => exact ih _
  unfold trail
  rw [List.foldl_append, List.foldl_append]
  dsimp only [List.foldl_cons, List.foldl_nil]
  rw [last]

/-- The directories on the way along an absolute path are those of its names. -/
theorem ancestors_eq (spells : Path.Spells path all) (noPoint : ∀ name ∈ all, name ≠ ".") :
    ancestors path = trail all := by
  have names : Path.names path = all := by
    rw [Path.names_of_isAbsolute spells.absolute, spells.said]
    exact List.filter_eq_self.mpr fun name member => by simpa using noPoint name member
  unfold ancestors
  rw [names, if_pos spells.absolute]
  rfl

/-- The paths of a trail end in no slash. -/
theorem endsInSlash_of_mem_trail (solid : ∀ name ∈ all, Path.Solid name)
    (member : path ∈ trail all) : Path.endsInSlash path = false := by
  induction all using List.reverseRecOn with
  | nil => exact absurd member List.not_mem_nil
  | append_singleton front last ih =>
    rw [trail_concat] at member
    rcases List.mem_append.mp member with member | member
    · exact ih (fun name inside => solid name (List.mem_append_left _ inside)) member
    · rw [List.mem_singleton.mp member]
      exact Path.endsInSlash_foldl_join solid (List.concat_ne_nil _ _)

end FileSystem

end Micromag
