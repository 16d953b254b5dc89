import Micromag.Proofs.Files.Path
import Micromag.Proofs.Files.Tree

/-!
# Paths through a tree

A path is led by the directories and links of a tree. Where these stay, a path that led somewhere
leads there still, whatever files are written. A path that leads to a directory can be prolonged,
and from there on the rest of it is followed as if it started there.
-/

namespace Micromag

namespace FileTree

/-- What a path can go on through at a place: a directory or a link. -/
def guide? (tree : FileTree) (place : Place) : Option Node :=
  match tree.nodeAt? place with
  | some (.file _) => none
  | node => node

variable {tree later : FileTree} {place : Place}

/-- A directory is a guide. -/
theorem guide?_eq_directory :
    tree.guide? place = some .directory ↔ tree.nodeAt? place = some .directory := by
  unfold guide?
  cases tree.nodeAt? place with
  | none => simp
  | some node => cases node <;> simp

/-- A link is a guide. -/
theorem guide?_eq_link {target : String} :
    tree.guide? place = some (.link target) ↔ tree.nodeAt? place = some (.link target) := by
  unfold guide?
  cases tree.nodeAt? place with
  | none => simp
  | some node => cases node <;> simp

/-- Nothing leads on where nothing or a file stands. -/
theorem guide?_eq_none : tree.guide? place = none ↔
    tree.nodeAt? place ≠ some .directory ∧ ∀ target, tree.nodeAt? place ≠ some (.link target) := by
  unfold guide?
  cases tree.nodeAt? place with
  | none => simp
  | some node => cases node <;> simp

/-- Whether every directory and every link of a tree is in another tree at the same place. -/
def Extends (tree later : FileTree) : Prop :=
  ∀ place node, tree.guide? place = some node → later.guide? place = some node

/-- A tree extends itself. -/
theorem Extends.refl (tree : FileTree) : Extends tree tree := fun _ _ guides => guides

/-- What extends an extension extends the tree. -/
theorem Extends.trans {last : FileTree} (first : Extends tree later) (second : Extends later last) :
    Extends tree last :=
  fun place node guides => second place node (first place node guides)

/-- Where everything stays, directories and links do. -/
theorem extends_of_stays (stays : ∀ place node, tree.nodeAt? place = some node →
    later.nodeAt? place = some node) : Extends tree later := by
  intro place node guides
  cases node with
  | directory => exact guide?_eq_directory.mpr (stays _ _ (guide?_eq_directory.mp guides))
  | link target => exact guide?_eq_link.mpr (stays _ _ (guide?_eq_link.mp guides))
  | file content =>
    unfold guide? at guides
    split at guides
    · cases guides
    · rename_i other
      exact absurd guides (other content)

/-- A directory stays a directory. -/
theorem Extends.directory (grows : Extends tree later)
    (stands : tree.nodeAt? place = some .directory) : later.nodeAt? place = some .directory :=
  guide?_eq_directory.mp (grows place _ (guide?_eq_directory.mpr stands))

/-- A link stays a link. -/
theorem Extends.link (grows : Extends tree later) {target : String}
    (stands : tree.nodeAt? place = some (.link target)) :
    later.nodeAt? place = some (.link target) :=
  guide?_eq_link.mp (grows place _ (guide?_eq_link.mpr stands))

end FileTree

namespace FileSystem

open FileTree

/-- Steps lead from a place to a spot, through at most a number of links. If `last` is set, a link
at the end is meant itself. -/
inductive Leads (tree : FileTree) (last : Bool) : Nat → Place → List String → Spot → Prop
  /-- No step is left. -/
  | arrive {links : Nat} {place : Place} :
      Leads tree last links place [] ⟨place, tree.nodeAt? place⟩
  /-- One point stays. -/
  | stay {links : Nat} {place : Place} {rest : List String} {spot : Spot}
      (further : Leads tree last links place rest spot) :
      Leads tree last links place ("." :: rest) spot
  /-- Two points go back. -/
  | back {links : Nat} {place : Place} {rest : List String} {spot : Spot}
      (further : Leads tree last links place.dropLast rest spot) :
      Leads tree last links place (".." :: rest) spot
  /-- The last name is that of a file or of nothing. -/
  | reach {links : Nat} {place : Place} {name : String} (enters : Enters name)
      (ends : tree.guide? (place ++ [name]) = none) :
      Leads tree last links place [name] ⟨place ++ [name], tree.nodeAt? (place ++ [name])⟩
  /-- A name is that of a directory. -/
  | enter {links : Nat} {place : Place} {name : String} {rest : List String} {spot : Spot}
      (enters : Enters name) (stands : tree.nodeAt? (place ++ [name]) = some .directory)
      (further : Leads tree last links (place ++ [name]) rest spot) :
      Leads tree last links place (name :: rest) spot
  /-- The last name is that of a link that is meant itself. -/
  | mean {links : Nat} {place : Place} {name target : String} (enters : Enters name)
      (stands : tree.nodeAt? (place ++ [name]) = some (.link target)) (meant : last = true) :
      Leads tree last links place [name] ⟨place ++ [name], some (.link target)⟩
  /-- A name is that of a link that is followed. -/
  | through {links : Nat} {place : Place} {name target : String} {rest : List String} {spot : Spot}
      (enters : Enters name) (stands : tree.nodeAt? (place ++ [name]) = some (.link target))
      (passes : ¬(rest.isEmpty && last) = true)
      (further : Leads tree last links (if Path.isAbsolute target then [] else place)
        (steps target ++ rest) spot) :
      Leads tree last (links + 1) place (name :: rest) spot

variable {tree later : FileTree} {last again : Bool} {links : Nat} {place goal : Place}
  {node : Option Node} {name : String} {names rest : List String} {spot : Spot}
  {resume : Place → List String → Except FileFault Spot}

/-- A step into a directory depends on what stands there. -/
theorem follow_cons (enters : Enters name) : follow tree last resume place (name :: rest) =
    match tree.nodeAt? (place ++ [name]) with
    | none => if rest.isEmpty then .ok ⟨place ++ [name], none⟩ else .error .absent
    | some .directory => follow tree last resume (place ++ [name]) rest
    | some (.file content) =>
      if rest.isEmpty then .ok ⟨place ++ [name], some (.file content)⟩ else .error .notDirectory
    | some (.link target) =>
      if rest.isEmpty && last then .ok ⟨place ++ [name], some (.link target)⟩
      else resume (if Path.isAbsolute target then [] else place) (steps target ++ rest) := by
  rw [follow, if_neg enters.notHere, if_neg enters.notUp]
  exact if_neg (Nat.not_lt.mpr enters.short)

/-- A limited number of links only matters where a link is followed. -/
theorem walk_eq_follow (tree : FileTree) (last : Bool) (links : Nat) :
    ∃ resume, walk tree last links = follow tree last resume := by
  cases links with
  | zero => exact ⟨_, rfl⟩
  | succ links => exact ⟨_, rfl⟩

/-- Steps that are followed lead somewhere, if those behind a link do. -/
theorem leads_of_follow
    (resumes : ∀ place names, resume place names = .ok spot →
      ∃ fewer, links = fewer + 1 ∧ Leads tree last fewer place names spot)
    (followed : follow tree last resume place names = .ok spot) :
    Leads tree last links place names spot := by
  induction names generalizing place with
  | nil =>
    rw [← Except.ok.inj followed]
    exact .arrive
  | cons name rest ih =>
    by_cases here : name = "."
    · rw [follow, if_pos here] at followed
      rw [here]
      exact .stay (ih followed)
    by_cases up : name = ".."
    · rw [follow, if_neg here, if_pos up] at followed
      rw [up]
      exact .back (ih followed)
    by_cases long : maxName < name.utf8ByteSize
    · rw [follow, if_neg here, if_neg up, if_pos long] at followed
      cases followed
    have enters : Enters name := ⟨here, up, Nat.not_lt.mp long⟩
    rw [follow_cons enters] at followed
    cases stands : tree.nodeAt? (place ++ [name]) with
    | none =>
      rw [stands] at followed
      cases rest with
      | cons _ _ => cases followed
      | nil =>
        rw [← Except.ok.inj followed, ← stands]
        exact .reach enters (by unfold guide?; rw [stands])
    | some found =>
      rw [stands] at followed
      cases found with
      | directory => exact .enter enters stands (ih followed)
      | file content =>
        cases rest with
        | cons _ _ => cases followed
        | nil =>
          rw [← Except.ok.inj followed, ← stands]
          exact .reach enters (by unfold guide?; rw [stands])
      | link target =>
        dsimp only at followed
        by_cases meant : (rest.isEmpty && last) = true
        · rw [if_pos meant] at followed
          rw [Bool.and_eq_true, List.isEmpty_iff] at meant
          rw [← Except.ok.inj followed, meant.1]
          exact .mean enters stands meant.2
        · rw [if_neg meant] at followed
          obtain ⟨fewer, rfl, further⟩ := resumes _ _ followed
          exact .through enters stands meant further

/-- Steps lead from a place to a spot exactly when following them ends there. -/
theorem walk_ok_iff :
    walk tree last links place names = .ok spot ↔ Leads tree last links place names spot := by
  constructor
  · intro followed
    induction links generalizing place names with
    | zero =>
      refine leads_of_follow ?_ followed
      exact fun _ _ refused => nomatch refused
    | succ links ih =>
      refine leads_of_follow ?_ followed
      exact fun _ _ further => ⟨links, rfl, ih further⟩
  · intro leads
    induction leads with
    | @arrive links place =>
      obtain ⟨resume, same⟩ := walk_eq_follow tree last links
      rw [same]
      rfl
    | @stay links _ _ _ _ ih =>
      obtain ⟨resume, same⟩ := walk_eq_follow tree last links
      rw [same] at ih ⊢
      rw [follow, if_pos rfl]
      exact ih
    | @back links _ _ _ _ ih =>
      obtain ⟨resume, same⟩ := walk_eq_follow tree last links
      rw [same] at ih ⊢
      rw [follow, if_neg (by decide), if_pos rfl]
      exact ih
    | @reach links place name enters ends =>
      obtain ⟨resume, same⟩ := walk_eq_follow tree last links
      rw [same, follow_cons enters]
      obtain ⟨noDirectory, noLink⟩ := guide?_eq_none.mp ends
      cases stands : tree.nodeAt? (place ++ [name]) with
      | none => rfl
      | some found =>
        cases found with
        | directory => exact absurd stands noDirectory
        | file content => rfl
        | link target => exact absurd stands (noLink target)
    | @enter links _ _ _ _ enters stands _ ih =>
      obtain ⟨resume, same⟩ := walk_eq_follow tree last links
      rw [same] at ih ⊢
      rw [follow_cons enters, stands]
      exact ih
    | @mean links _ _ _ enters stands meant =>
      obtain ⟨resume, same⟩ := walk_eq_follow tree last links
      rw [same, follow_cons enters, stands, meant]
      rfl
    | through enters stands passes _ ih =>
      rw [walk, follow_cons enters, stands]
      dsimp only
      rw [if_neg passes]
      exact ih

namespace Leads

/-- What stands at the spot is what stands at its place. -/
theorem node_eq (leads : Leads tree last links place names spot) :
    spot.node = tree.nodeAt? spot.place := by
  induction leads with
  | arrive => rfl
  | reach => rfl
  | mean _ stands _ => exact stands.symm
  | stay _ ih => exact ih
  | back _ ih => exact ih
  | enter _ _ _ ih => exact ih
  | through _ _ _ _ ih => exact ih

/-- Along directories and links that stay, steps lead to the place where they led. Nothing there may
have become a link, and a link may stop to be meant only where none is. -/
theorem extends_ (leads : Leads tree last links place names spot) (grows : Extends tree later)
    (noLink : tree.guide? spot.place = none →
      ∀ target, later.nodeAt? spot.place ≠ some (.link target))
    (ends : again = last ∨ again = false ∧ ∀ target, spot.node ≠ some (.link target)) :
    Leads later again links place names ⟨spot.place, later.nodeAt? spot.place⟩ := by
  induction leads with
  | arrive => exact .arrive
  | stay _ ih => exact .stay (ih noLink ends)
  | back _ ih => exact .back (ih noLink ends)
  | @reach links place name enters free =>
    cases stands : later.nodeAt? (place ++ [name]) with
    | none =>
      rw [← stands]
      exact .reach enters (by unfold guide?; rw [stands])
    | some found =>
      cases found with
      | directory =>
        rw [← stands]
        exact .enter enters stands .arrive
      | file content =>
        rw [← stands]
        exact .reach enters (by unfold guide?; rw [stands])
      | link target => exact absurd stands (noLink free target)
  | enter enters stands _ ih => exact .enter enters (grows.directory stands) (ih noLink ends)
  | mean enters stands meant =>
    have stays := grows.link stands
    rw [stays]
    rcases ends with rfl | ⟨_, other⟩
    · exact .mean enters stays meant
    · exact absurd rfl (other _)
  | through enters stands passes _ ih =>
    refine .through enters (grows.link stands) ?_ (ih noLink ends)
    rcases ends with rfl | ⟨rfl, _⟩
    · exact passes
    · rw [Bool.and_false]
      exact Bool.false_ne_true

/-- Steps that lead to a directory can be prolonged: the further ones are followed from there. -/
theorem append (leads : Leads tree false links place names spot)
    (directory : spot.node = some .directory) : ∃ left, ∀ last rest, rest ≠ [] →
      walk tree last links place (names ++ rest) = walk tree last left spot.place rest := by
  induction leads with
  | @arrive links place => exact ⟨links, fun _ _ _ => rfl⟩
  | @stay links _ _ _ _ ih =>
    obtain ⟨left, prolonged⟩ := ih directory
    refine ⟨left, fun last rest more => ?_⟩
    obtain ⟨resume, same⟩ := walk_eq_follow tree last links
    rw [← prolonged last rest more, same, List.cons_append, follow, if_pos rfl]
  | @back links _ _ _ _ ih =>
    obtain ⟨left, prolonged⟩ := ih directory
    refine ⟨left, fun last rest more => ?_⟩
    obtain ⟨resume, same⟩ := walk_eq_follow tree last links
    rw [← prolonged last rest more, same, List.cons_append, follow, if_neg (by decide), if_pos rfl]
  | reach _ ends => exact absurd directory (guide?_eq_none.mp ends).1
  | @enter links _ _ _ _ enters stands _ ih =>
    obtain ⟨left, prolonged⟩ := ih directory
    refine ⟨left, fun last rest more => ?_⟩
    obtain ⟨resume, same⟩ := walk_eq_follow tree last links
    rw [← prolonged last rest more, same, List.cons_append, follow_cons enters, stands]
  | mean => cases directory
  | @through links _ _ _ others _ enters stands _ _ ih =>
    obtain ⟨left, prolonged⟩ := ih directory
    refine ⟨left, fun last rest more => ?_⟩
    have passes : ¬((others ++ rest).isEmpty && last) = true := by
      rw [Bool.and_eq_true, List.isEmpty_iff, List.append_eq_nil_iff]
      exact fun both => more both.1.2
    rw [← prolonged last rest more, List.cons_append, walk, follow_cons enters, stands]
    dsimp only
    rw [if_neg passes, List.append_assoc]

end Leads

end FileSystem

end Micromag
