import Mathlib.Data.Prod.Lex
import Mathlib.Data.String.Basic
import Mathlib.Order.WithBot
import Micromag.Drive.Artifact
import Micromag.Proofs.Files.Children
import Micromag.Proofs.Files.Directories
import Micromag.Proofs.Files.Pattern
import Micromag.Proofs.Files.System

/-!
# The latest file

Of several files the one that was made last is taken, and of those with one time the one with the
greatest name. Files are ranked by their times, an unknown one below all others, and by their names
within one time. A file gives way to those that do not rank below it, and the file that is taken has
the highest rank. No two files in a directory have one rank, so that the order in which the directory
lists them does not matter.
-/

namespace Micromag

namespace Candidate

variable {first second third best : Candidate} {candidates listing : List Candidate}

/-- Giving way when the time is known: made earlier, or at the same time with a name that is not
greater. -/
theorem yieldsTo_iff {early late : Nat} {name other : String} :
    yieldsTo ⟨some early, name⟩ ⟨some late, other⟩ = true ↔
      early < late ∨ early = late ∧ name ≤ other := by
  simp [yieldsTo, isEarlier]

/-- A time among all times; an unknown one is at the bottom. -/
def timeOf : Option Nat → WithBot ℕ
  | none => ⊥
  | some time => WithBot.some time

/-- The rank of a candidate: the time at which it was made, then its name. -/
def rank (candidate : Candidate) : WithBot ℕ ×ₗ String :=
  toLex (timeOf candidate.created, candidate.name)

/-- Known times differ from one another and from the unknown one. -/
theorem timeOf_injective : Function.Injective timeOf := by
  intro early late same
  cases early with
  | none =>
    cases late with
    | none => rfl
    | some late => exact absurd same WithBot.bot_ne_coe
  | some early =>
    cases late with
    | none => exact absurd same WithBot.coe_ne_bot
    | some late => exact congrArg some (WithBot.coe_injective same)

/-- A time is earlier when it is below the other one. -/
theorem isEarlier_iff {early late : Option Nat} :
    isEarlier early late = true ↔ timeOf early < timeOf late := by
  cases early with
  | none =>
    cases late with
    | none => exact iff_of_false Bool.false_ne_true (lt_irrefl ⊥)
    | some late => exact iff_of_true rfl (WithBot.bot_lt_coe late)
  | some early =>
    cases late with
    | none => exact iff_of_false Bool.false_ne_true not_lt_bot
    | some late => exact decide_eq_true_iff.trans WithBot.coe_lt_coe.symm

/-- A candidate gives way to those that do not rank below it. -/
theorem yieldsTo_iff_rank : first.yieldsTo second = true ↔ first.rank ≤ second.rank := by
  unfold yieldsTo rank
  rw [Prod.Lex.toLex_le_toLex, Bool.or_eq_true, Bool.and_eq_true, isEarlier_iff, beq_iff_eq,
    decide_eq_true_iff]
  dsimp only
  rw [timeOf_injective.eq_iff]

/-- No two candidates have one rank. -/
theorem rank_injective : Function.Injective rank := by
  intro first second same
  obtain ⟨time, name⟩ := Prod.mk.inj (toLex.injective same)
  obtain ⟨created, name⟩ := first
  exact congrArg₂ mk (timeOf_injective time) name

/-- Every candidate gives way to itself. -/
theorem yieldsTo_refl (first : Candidate) : first.yieldsTo first = true :=
  yieldsTo_iff_rank.mpr le_rfl

/-- Of two candidates one gives way. -/
theorem yieldsTo_total (first second : Candidate) :
    first.yieldsTo second = true ∨ second.yieldsTo first = true := by
  rw [yieldsTo_iff_rank, yieldsTo_iff_rank]
  exact le_total first.rank second.rank

/-- A candidate gives way to those to which the ones give way to which it does. -/
theorem yieldsTo_trans (less : first.yieldsTo second = true)
    (more : second.yieldsTo third = true) : first.yieldsTo third = true :=
  yieldsTo_iff_rank.mpr ((yieldsTo_iff_rank.mp less).trans (yieldsTo_iff_rank.mp more))

/-- Of some candidates there is one to which all others give way, and it is taken. -/
theorem latest?_cons (first : Candidate) (candidates : List Candidate) :
    ∃ best, latest? (first :: candidates) = some best ∧ best ∈ first :: candidates ∧
      ∀ other ∈ first :: candidates, other.yieldsTo best = true := by
  induction candidates generalizing first with
  | nil =>
    exact ⟨first, rfl, List.mem_cons_self, List.forall_mem_singleton.mpr (yieldsTo_refl first)⟩
  | cons second rest ih =>
    by_cases less : first.yieldsTo second = true
    · obtain ⟨best, taken, member, greatest⟩ := ih second
      have step : latest? (first :: second :: rest) = latest? (second :: rest) := by
        simp [latest?, less]
      refine ⟨best, step.trans taken, List.mem_cons_of_mem _ member, ?_⟩
      have behind := greatest second List.mem_cons_self
      exact List.forall_mem_cons.mpr ⟨yieldsTo_trans less behind, greatest⟩
    · obtain ⟨best, taken, member, greatest⟩ := ih first
      have more := (yieldsTo_total first second).resolve_left less
      have step : latest? (first :: second :: rest) = latest? (first :: rest) := by
        simp [latest?, less]
      obtain ⟨ahead, others⟩ := List.forall_mem_cons.mp greatest
      refine ⟨best, step.trans taken, ?_, ?_⟩
      · exact (List.mem_cons.mp member).elim (fun same => same ▸ List.mem_cons_self)
          fun inside => List.mem_cons_of_mem _ (List.mem_cons_of_mem _ inside)
      · exact List.forall_mem_cons.mpr
          ⟨ahead, List.forall_mem_cons.mpr ⟨yieldsTo_trans more ahead, others⟩⟩

/-- The candidate that is taken is one of them, and all others give way to it. -/
theorem latest?_eq_some (taken : latest? candidates = some best) :
    best ∈ candidates ∧ ∀ other ∈ candidates, other.yieldsTo best = true := by
  cases candidates with
  | nil => cases taken
  | cons first rest =>
    obtain ⟨greatest, same, spec⟩ := latest?_cons first rest
    obtain rfl := Option.some.inj (same.symm.trans taken)
    exact spec

/-- None is taken only where there is none. -/
theorem latest?_eq_none_iff : latest? candidates = none ↔ candidates = [] := by
  cases candidates with
  | nil => exact iff_of_true rfl rfl
  | cons first rest =>
    obtain ⟨best, taken, -⟩ := latest?_cons first rest
    rw [taken]
    exact iff_of_false nofun (List.cons_ne_nil first rest)

/-- The candidate that is taken is the one above which no other ranks. -/
theorem latest?_eq_some_iff : latest? candidates = some best ↔
    best ∈ candidates ∧ ∀ other ∈ candidates, other.rank ≤ best.rank := by
  constructor
  · intro taken
    obtain ⟨member, greatest⟩ := latest?_eq_some taken
    exact ⟨member, fun other inside => yieldsTo_iff_rank.mp (greatest other inside)⟩
  · rintro ⟨member, greatest⟩
    cases taken : latest? candidates with
    | none => exact absurd (latest?_eq_none_iff.mp taken) (List.ne_nil_of_mem member)
    | some other =>
      obtain ⟨inside, above⟩ := latest?_eq_some taken
      -- neither of the two ranks below the other, so that they are one candidate
      have same := le_antisymm (greatest other inside) (yieldsTo_iff_rank.mp (above best member))
      rw [rank_injective same]

/-- The same candidate is taken of the same candidates in another order. -/
theorem latest?_of_perm (order : listing.Perm candidates) :
    latest? listing = latest? candidates := by
  refine Option.ext fun best => ?_
  rw [latest?_eq_some_iff, latest?_eq_some_iff, order.mem_iff]
  exact and_congr_right fun _ => forall_congr' fun other => by rw [order.mem_iff]

end Candidate

namespace Artifact

variable {files after : FileSystem} {directory text path name : String} {pattern : Pattern}
  {names : List String}

/-- The files that may be taken are those that are listed under a name that the pattern matches. -/
theorem mem_candidates {candidate : Candidate} :
    candidate ∈ candidates files directory pattern names ↔
      candidate.name ∈ names ∧ pattern.matchesName candidate.name = true ∧
        files.isFile (Path.join directory candidate.name) = true ∧
        candidate.created = files.serialOf? (Path.join directory candidate.name) := by
  obtain ⟨created, name⟩ := candidate
  unfold candidates
  rw [List.mem_filterMap]
  dsimp only
  constructor
  · rintro ⟨other, inside, taken⟩
    by_cases both : (pattern.matchesName other && files.isFile (Path.join directory other)) = true
    · rw [if_pos both] at taken
      obtain ⟨rfl, rfl⟩ := Candidate.mk.inj (Option.some.inj taken)
      obtain ⟨fits, file⟩ := Bool.and_eq_true_iff.mp both
      exact ⟨inside, fits, file, rfl⟩
    · rw [if_neg both] at taken
      cases taken
  · rintro ⟨inside, fits, file, rfl⟩
    exact ⟨name, inside, if_pos (Bool.and_eq_true_iff.mpr ⟨fits, file⟩)⟩

/-- A file has a time at which it was made. -/
theorem serialOf?_of_isFile (file : files.isFile path = true) :
    ∃ serial, files.serialOf? path = some serial := by
  obtain ⟨place, content, located⟩ := FileSystem.isFile_iff.mp file
  have stands : files.tree.nodeAt? place = some (.file content) :=
    (FileSystem.node_of_locate located).symm
  unfold FileSystem.serialOf?
  rw [FileSystem.nodeOf_ok.mpr located]
  exact FileTree.serialAt?_of_nodeAt? stands

/-- Whether a name is listed in a directory. -/
def Listed (files : FileSystem) (directory name : String) : Prop :=
  ∃ found, files.list directory = .ok found ∧ name ∈ found.map (·.1)

/-- Whether a name is that of the latest file in a directory among the names that a pattern matches:
the file was made last, and of files with one time it has the greatest name. -/
structure IsLatest (files : FileSystem) (directory : String) (pattern : Pattern) (name : String) :
    Prop where
  /-- It is a name in the directory. -/
  listed : Listed files directory name
  /-- The pattern matches the name. -/
  fits : pattern.matchesName name = true
  /-- A file stands there. -/
  file : files.isFile (Path.join directory name) = true
  /-- No other such file was made later, and none at the same time has a greater name. -/
  greatest : ∀ other, Listed files directory other → pattern.matchesName other = true →
    files.isFile (Path.join directory other) = true →
      ∃ early late, files.serialOf? (Path.join directory other) = some early ∧
        files.serialOf? (Path.join directory name) = some late ∧
        (early < late ∨ early = late ∧ other ≤ name)

/-- The file that is taken is the latest one. -/
theorem latest?_ok (read : Pattern.ofText? text = some pattern)
    (taken : latest? directory text files = (.ok (some path), after)) :
    ∃ name, path = Path.join directory name ∧ IsLatest files directory pattern name := by
  obtain ⟨_, _, parsed, rest⟩ := Action.bind_ok.mp taken
  have same : Artifact.pattern text = .ok pattern := by
    unfold Artifact.pattern
    rw [read]
  rw [same] at parsed
  obtain ⟨first, rfl⟩ := Prod.mk.inj parsed
  obtain rfl := Except.ok.inj first
  obtain ⟨found, _, listed, rest⟩ := Action.bind_ok.mp rest
  obtain ⟨shown, rfl⟩ := Prod.mk.inj listed
  replace shown := Result.mapError_ok.mp shown
  obtain ⟨_, _, chosen, last⟩ := Action.bind_ok.mp rest
  obtain ⟨first, rfl⟩ := Prod.mk.inj chosen
  obtain rfl := Except.ok.inj first
  obtain ⟨best, same, rfl⟩ := Option.map_eq_some_iff.mp (Except.ok.inj (Prod.mk.inj last).1)
  obtain ⟨member, greatest⟩ := Candidate.latest?_eq_some same
  obtain ⟨inside, fits, file, created⟩ := mem_candidates.mp member
  refine ⟨best.name, rfl, ⟨found, shown, inside⟩, fits, file, ?_⟩
  intro other ⟨again, listed, inside⟩ matching stands
  obtain rfl := Except.ok.inj (shown.symm.trans listed)
  obtain ⟨early, before⟩ := serialOf?_of_isFile stands
  obtain ⟨late, behind⟩ := serialOf?_of_isFile file
  have yields := greatest ⟨some early, other⟩
    (mem_candidates.mpr ⟨inside, matching, stands, before.symm⟩)
  obtain ⟨time, name⟩ := best
  obtain rfl : time = some late := created.trans behind
  exact ⟨early, late, before, behind, Candidate.yieldsTo_iff.mp yields⟩

/-! ## The latest file of before -/

/-- Whether the directories and files that absolute paths lead to are still there, under the numbers
they had. -/
structure Outlast (files after : FileSystem) : Prop where
  /-- Directories are. -/
  directory : ∀ path place, Path.isAbsolute path = true → files.directoryOf path = .ok place →
    after.directoryOf path = .ok place
  /-- What stands in them is. -/
  stands : ∀ place, files.tree.nodeAt? place ≠ none → after.tree.nodeAt? place ≠ none
  /-- Files are. -/
  file : ∀ path, Path.isAbsolute path = true → files.isFile path = true →
    after.isFile path = true ∧ after.serialOf? path = files.serialOf? path

namespace Outlast

/-- What is still there later is still there at last. -/
theorem trans {last : FileSystem} (first : Outlast files after) (second : Outlast after last) :
    Outlast files last where
  directory path place absolute leads :=
    second.directory path place absolute (first.directory path place absolute leads)
  stands place there := second.stands place (first.stands place there)
  file path absolute there := by
    obtain ⟨still, number⟩ := first.file path absolute there
    obtain ⟨again, same⟩ := second.file path absolute still
    exact ⟨again, same.trans number⟩

/-- Names are still listed. -/
theorem listed (outlast : Outlast files after) (absolute : Path.isAbsolute directory = true)
    (inside : Listed files directory name) : Listed after directory name := by
  obtain ⟨found, shown, member⟩ := inside
  obtain ⟨place, leads, children⟩ := Result.bind_ok.mp shown
  obtain rfl := Except.ok.inj children
  have still : after.list directory = .ok (after.tree.children place) := by
    unfold FileSystem.list
    rw [outlast.directory _ _ absolute leads]
    rfl
  refine ⟨_, still, FileTree.mem_children_names.mpr ?_⟩
  exact outlast.stands _ (FileTree.mem_children_names.mp member)

end Outlast

/-- The latest file is the latest of those that were there before, if it is one of them. -/
theorem IsLatest.before (latest : IsLatest after directory pattern name)
    (outlast : Outlast files after) (absolute : Path.isAbsolute directory = true)
    (solid : ∀ other, Listed files directory other → Path.Solid other)
    (listed : Listed files directory name)
    (file : files.isFile (Path.join directory name) = true) :
    IsLatest files directory pattern name where
  listed := listed
  fits := latest.fits
  file := file
  greatest other inside fits stands := by
    have starts (other : String) (inside : Listed files directory other) :
        Path.isAbsolute (Path.join directory other) = true :=
      (Path.isAbsolute_join (solid other inside)).trans absolute
    obtain ⟨still, number⟩ := outlast.file _ (starts other inside) stands
    obtain ⟨early, late, before, behind, order⟩ :=
      latest.greatest other (outlast.listed absolute inside) fits still
    have own := (outlast.file _ (starts name listed) file).2
    exact ⟨early, late, number ▸ before, own ▸ behind, order⟩

end Artifact

/-! ## The latest file of any listing -/

/-- Paths in one directory are in the order of their names. -/
theorem Path.join_lt_join {directory first second : String} (one : Solid first)
    (other : Solid second) : join directory first < join directory second ↔ first < second := by
  have shared (front : String) : front ++ first < front ++ second ↔ first < second := by
    have mono : StrictMono fun name : String => front ++ name := by
      intro less more ordered
      rw [String.lt_iff_toList_lt] at ordered ⊢
      rw [String.toList_append, String.toList_append]
      exact List.append_left_lt ordered
    exact mono.lt_iff_lt
  rw [join_eq one, join_eq other]
  split
  · rfl
  · split
    · exact shared directory
    · exact shared (directory ++ "/")

/-- An entry of a directory as it is seen from outside. -/
structure Shown where
  /-- Its name. -/
  name : String
  /-- The name is a part of a path. -/
  solid : Path.Solid name
  /-- Whether a file stands there. -/
  isFile : Bool
  /-- When it was made, if that is known. -/
  created : Option Nat

namespace Shown

variable {pattern : Pattern} {entry other : Shown}

/-- Whether an entry is a file whose name a pattern matches. -/
def Fits (pattern : Pattern) (entry : Shown) : Prop :=
  entry.isFile = true ∧ pattern.matchesName entry.name = true

instance : DecidablePred (Fits pattern) := fun _ => inferInstanceAs (Decidable (_ ∧ _))

/-- The path of an entry. -/
def path (directory : String) (entry : Shown) : String := Path.join directory entry.name

/-- The rank of an entry: the time at which it was made, then its path. -/
def rank (directory : String) (entry : Shown) : WithBot ℕ ×ₗ String :=
  toLex (Candidate.timeOf entry.created, entry.path directory)

/-- An entry as a candidate. -/
def candidate (entry : Shown) : Candidate := ⟨entry.created, entry.name⟩

/-- The entries rank as the candidates do. -/
theorem rank_lt_iff {directory : String} :
    other.rank directory < entry.rank directory ↔ other.candidate.rank < entry.candidate.rank := by
  unfold rank Candidate.rank
  rw [Prod.Lex.toLex_lt_toLex, Prod.Lex.toLex_lt_toLex]
  exact or_congr_right (and_congr_right fun _ => Path.join_lt_join other.solid entry.solid)

/-- Two files that are one candidate are one entry. -/
theorem eq_of_candidate (one : entry.isFile = true) (two : other.isFile = true)
    (same : entry.candidate = other.candidate) : entry = other := by
  obtain ⟨name, solid, file, created⟩ := entry
  obtain ⟨text, whole, stands, time⟩ := other
  obtain ⟨rfl, rfl⟩ := Candidate.mk.inj same
  obtain rfl : file = stands := one.trans two.symm
  rfl

end Shown

namespace Artifact

variable {files : FileSystem} {directory text : String} {pattern : Pattern} {entries : List Shown}

/-- The path of the latest file that a pattern matches, among entries of a directory. -/
def latestOf? (directory : String) (pattern : Pattern) (entries : List Shown) : Option String :=
  (Candidate.latest? ((entries.filter (Shown.Fits pattern)).map Shown.candidate)).map fun chosen =>
    Path.join directory chosen.name

/-- Whether a directory shows just these entries, in whatever order it lists them. -/
structure Shows (files : FileSystem) (directory : String) (entries : List Shown) : Prop where
  /-- It lists their names. -/
  listed : ∃ found, files.list directory = .ok found ∧
    (found.map (·.1)).Perm (entries.map Shown.name)
  /-- Those that are files are told so. -/
  file : ∀ entry ∈ entries, entry.isFile = files.isFile (entry.path directory)
  /-- The times are told. -/
  created : ∀ entry ∈ entries, entry.created = files.serialOf? (entry.path directory)

/-- The candidates among names are the entries that fit. -/
theorem candidates_map_name
    (file : ∀ entry ∈ entries, entry.isFile = files.isFile (entry.path directory))
    (created : ∀ entry ∈ entries, entry.created = files.serialOf? (entry.path directory)) :
    candidates files directory pattern (entries.map Shown.name) =
      (entries.filter (Shown.Fits pattern)).map Shown.candidate := by
  unfold candidates
  rw [List.filterMap_map, ← List.filterMap_eq_map, List.filterMap_filter]
  refine List.filterMap_congr fun entry member => ?_
  show (if (pattern.matchesName entry.name && files.isFile (entry.path directory)) = true then
      some (Candidate.mk (files.serialOf? (entry.path directory)) entry.name) else none) = _
  rw [← file entry member, ← created entry member, Bool.and_comm]
  exact if_congr (Bool.and_eq_true_iff.trans decide_eq_true_iff.symm) rfl rfl

/-- Of a directory that shows some entries the latest of these is found. -/
theorem latest?_of_shows (read : Pattern.ofText? text = some pattern)
    (shows : Shows files directory entries) :
    latest? directory text files = (.ok (latestOf? directory pattern entries), files) := by
  obtain ⟨⟨found, listed, order⟩, file, created⟩ := shows
  have same : Artifact.pattern text = .ok pattern := by
    unfold Artifact.pattern
    rw [read]
  have taken : Candidate.latest? (candidates files directory pattern (found.map (·.1))) =
      Candidate.latest? ((entries.filter (Shown.Fits pattern)).map Shown.candidate) := by
    rw [← candidates_map_name file created]
    exact Candidate.latest?_of_perm (order.filterMap _)
  refine Action.bind_ok.mpr ⟨pattern, files, congrArg (·, files) same,
    Action.bind_ok.mpr ⟨found, files, ?_, ?_⟩⟩
  · unfold FileAction.look
    dsimp only
    rw [listed]
    rfl
  · rw [Action.bind_apply, Action.read_apply]
    dsimp only
    rw [taken]
    rfl

/-- The candidates are those of the entries that fit. -/
theorem mem_fitting {candidate : Candidate} :
    candidate ∈ (entries.filter (Shown.Fits pattern)).map Shown.candidate ↔
      ∃ entry ∈ entries, entry.Fits pattern ∧ entry.candidate = candidate := by
  rw [List.mem_map]
  refine exists_congr fun entry => ?_
  rw [List.mem_filter, decide_eq_true_iff, and_assoc]

/-- Whether an entry is the only one of the highest rank among the files that a pattern matches. -/
structure Greatest (directory : String) (pattern : Pattern) (entries : List Shown) (entry : Shown) :
    Prop where
  /-- It is one of the entries. -/
  member : entry ∈ entries
  /-- It is a file that the pattern matches. -/
  fits : entry.Fits pattern
  /-- All other such files rank below it. -/
  above : ∀ other ∈ entries, other.Fits pattern → other ≠ entry →
    other.rank directory < entry.rank directory

/-- The candidate that is taken is the entry of the highest rank. -/
theorem latest?_fitting {best : Candidate} :
    Candidate.latest? ((entries.filter (Shown.Fits pattern)).map Shown.candidate) = some best ↔
      ∃ entry, Greatest directory pattern entries entry ∧ entry.candidate = best := by
  rw [Candidate.latest?_eq_some_iff, mem_fitting]
  constructor
  · rintro ⟨⟨entry, member, fits, rfl⟩, greatest⟩
    refine ⟨entry, ⟨member, fits, fun other inside matching differs => ?_⟩, rfl⟩
    refine Shown.rank_lt_iff.mpr (lt_of_le_of_ne ?_ fun same => differs ?_)
    · exact greatest _ (mem_fitting.mpr ⟨other, inside, matching, rfl⟩)
    · exact Shown.eq_of_candidate matching.1 fits.1 (Candidate.rank_injective same)
  · rintro ⟨entry, ⟨member, fits, above⟩, rfl⟩
    refine ⟨⟨entry, member, fits, rfl⟩, fun candidate among => ?_⟩
    obtain ⟨other, inside, matching, rfl⟩ := mem_fitting.mp among
    by_cases same : other = entry
    · rw [same]
    · exact (Shown.rank_lt_iff.mp (above other inside matching same)).le

/-- The latest file does not depend on the order of the listing. There is none exactly when the
pattern matches the name of no file; else it is the only file of the highest rank, by the time at
which it was made and then by its path, an unknown time being below all others. It is the one that is
found in every directory that shows the entries, in whatever order. -/
theorem latest_in_any_order (directory : String) (pattern : Pattern) (entries : List Shown) :
    (∀ listing : List Shown, listing.Perm entries →
      latestOf? directory pattern listing = latestOf? directory pattern entries) ∧
    (latestOf? directory pattern entries = none ↔ ∀ entry ∈ entries, ¬entry.Fits pattern) ∧
    (∀ path, latestOf? directory pattern entries = some path ↔
      ∃ entry, Greatest directory pattern entries entry ∧ entry.path directory = path) ∧
    ∀ files text, Pattern.ofText? text = some pattern → Shows files directory entries →
      latest? directory text files = (.ok (latestOf? directory pattern entries), files) := by
  refine ⟨fun listing order => ?_, ?_, fun path => ?_, fun files text => latest?_of_shows⟩
  · unfold latestOf?
    rw [Candidate.latest?_of_perm ((order.filter _).map _)]
  · unfold latestOf?
    rw [Option.map_eq_none_iff, Candidate.latest?_eq_none_iff, List.map_eq_nil_iff,
      List.filter_eq_nil_iff]
    exact forall₂_congr fun entry _ => not_congr decide_eq_true_iff
  · unfold latestOf?
    rw [Option.map_eq_some_iff]
    constructor
    · rintro ⟨best, taken, rfl⟩
      obtain ⟨entry, greatest, rfl⟩ : ∃ entry, Greatest directory pattern entries entry ∧
        entry.candidate = best := latest?_fitting.mp taken
      exact ⟨entry, greatest, rfl⟩
    · rintro ⟨entry, greatest, rfl⟩
      exact ⟨entry.candidate, latest?_fitting.mpr ⟨entry, greatest, rfl⟩, rfl⟩

/-- A file that was made at an unknown time gives way to every other one. -/
example : latestOf? "/d" (.around "m-" ".omf")
    [⟨"m-1.omf", ⟨by decide, by decide⟩, true, some 0⟩,
      ⟨"m-2.omf", ⟨by decide, by decide⟩, true, none⟩] = some "/d/m-1.omf" := by
  decide +kernel

/-- Files with a directory that holds a file, a link to it, a directory and another file. -/
def linked : FileSystem where
  tree := ((((FileTree.add {} ["d"] .directory).add ["d", "m-1.omf"] (.file [])).add
    ["d", "m-2.omf"] (.link "m-1.omf")).add ["d", "m-9.omf"] .directory).add
      ["d", "m.odt"] (.file [])

/-- The entries of this directory in another order. The file and the link were made at one time. -/
def tied : List Shown :=
  [⟨"m-9.omf", ⟨by decide, by decide⟩, false, some 4⟩,
    ⟨"m-2.omf", ⟨by decide, by decide⟩, true, some 2⟩,
    ⟨"m.odt", ⟨by decide, by decide⟩, true, some 5⟩,
    ⟨"m-1.omf", ⟨by decide, by decide⟩, true, some 2⟩]

/-- Of two files that were made at one time the one with the greater path is found. A directory and
a file of another name do not count. -/
theorem latest_in_any_order_tied :
    ∃ pattern, Pattern.ofText? "m-*.omf" = some pattern ∧ Shows linked "/d" tied ∧
      latest? "/d" "m-*.omf" linked = (.ok (some "/d/m-2.omf"), linked) := by
  have read : Pattern.ofText? "m-*.omf" = some (.around "m-" ".omf") := rfl
  have shows : Shows linked "/d" tied :=
    ⟨⟨_, rfl, by decide +kernel⟩, by decide +kernel, by decide +kernel⟩
  have found : latestOf? "/d" (.around "m-" ".omf") tied = some "/d/m-2.omf" := by decide +kernel
  refine ⟨_, read, shows, ?_⟩
  rw [← found]
  exact (latest_in_any_order "/d" _ tied).2.2.2 linked "m-*.omf" read shows

end Artifact

end Micromag
