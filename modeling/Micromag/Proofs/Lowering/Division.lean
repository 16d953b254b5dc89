import Micromag.Proofs.Lowering.Formation
import Micromag.Proofs.Lowering.Roles

/-!
# Nothing is injected into a script

Whatever a problem, its terms, its subregions and the keys of its maps are called, the text of its
script says to a reader who counts braces what the items say, piece by piece, and nothing else.
-/

namespace Micromag.Problem

open Script

variable {problem : Problem} {intent : Intent} {settings : ScriptSettings} {platform : Platform}

/-- The text of a script without text of the caller closes exactly the braces that it opens. Its
pieces outside of braces are those of its items, in order; they declare the objects of its blocks,
in order; and its procedures are those of waves and of tables. -/
theorem script_divided (plain : intent.Plain settings) {script : LoweredScript}
    (lowered : problem.lower intent settings platform = .ok script) :
    depthAfter? 0 script.text.toList = some 0 ∧
      pieces script.text.toList = (script.items.flatMap Item.pieces).map String.toList ++ [[]] ∧
      (pieces script.text.toList).filterMap objectOfLine? =
        (blocks script.items).map Block.object ∧
      ∀ item ∈ script.items, (∀ text, item ≠ .verbatim text) ∧
        ∀ procedure, item = .procedure procedure → procedure.Emitted := by
  have formed := formed_of_lower plain lowered
  have level := level_of_lower plain lowered
  obtain ⟨balanced, split, objects⟩ := pieces_render formed level
  refine ⟨balanced 0, split, objects, fun item member => ⟨(level item member).2, ?_⟩⟩
  rintro procedure rfl
  exact (formed _ member).1

/-- A problem with an applied field that is scaled in time. -/
def pulsedCell : Problem :=
  { oneCell with energy := [⟨"pulse", .zeeman (.vector (.fill 1)) (some .sinc) (some 1) none⟩] }

/-- The procedure of a wave has braces over several lines; the script still falls into the pieces
that declare the objects, and the procedure is one of its pieces. -/
theorem pulsedCell_divided :
    ∃ script, pulsedCell.lower { goal := .minimise } {} .unix = .ok script ∧
      depthAfter? 0 script.text.toList = some 0 ∧
      (pieces script.text.toList).filterMap objectOfLine? =
        [("Oxs_BoxAtlas", "main_atlas"), ("Oxs_RectangularMesh", "mesh"),
          ("Oxs_TransformZeeman", "pulse"), ("Oxs_FileVectorField", "m0"),
          ("Oxs_VecMagScalarField", "m0_norm"), ("Oxs_CGEvolve", "evolver"),
          ("Oxs_MinDriver", "")] ∧
      (pieces script.text.toList).length = 25 := by
  have checked : (pulsedCell.lower { goal := .minimise } {} .unix).toOption.map (fun script =>
      ((blocks script.items).map Block.object, (script.items.flatMap Item.pieces).length)) =
      some ([("Oxs_BoxAtlas", "main_atlas"), ("Oxs_RectangularMesh", "mesh"),
          ("Oxs_TransformZeeman", "pulse"), ("Oxs_FileVectorField", "m0"),
          ("Oxs_VecMagScalarField", "m0_norm"), ("Oxs_CGEvolve", "evolver"),
          ("Oxs_MinDriver", "")], 24) := by
    decide +kernel
  obtain ⟨script, kept, found⟩ := Option.map_eq_some_iff.mp checked
  obtain ⟨objects, length⟩ := Prod.mk.inj found
  have lowered : pulsedCell.lower { goal := .minimise } {} .unix = .ok script :=
    Result.ok_of_toOption kept
  have plain : Intent.Plain { goal := .minimise } {} := .of_default rfl rfl
  obtain ⟨balanced, split, declared, -⟩ := script_divided plain lowered
  refine ⟨script, lowered, balanced, declared.trans objects, ?_⟩
  rw [split, List.length_append, List.length_map, length]
  rfl

end Micromag.Problem
