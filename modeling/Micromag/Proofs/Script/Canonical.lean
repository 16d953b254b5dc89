import Micromag.Drive.Basic
import Micromag.Proofs.Script.Text
import Micromag.Proofs.Text.LineEnds

/-!
# Scripts in canonical form

A caller adds texts of its own to a script, with line ends of its own. Each is ended by a line feed
before it is put among the items, and every other item ends its last line, so that the lines of a
script are those of its items one after the other. What is written depends on these lines alone.
-/

namespace Micromag.Script

open Text

/-! ## Texts of the caller -/

/-- A text of the caller is ended by a line feed. -/
theorem getLast?_endLine (text : String) : (endLine text).toList.getLast? = some '\n' := by
  unfold endLine
  by_cases ended : text.toList.getLast? = some '\n'
  · rw [if_pos ended, ended]
  · rw [if_neg ended]
    exact getLast?_toList_append (by decide)

/-- A text of the caller keeps its lines, but an empty text becomes an empty line. -/
theorem universalLines_endLine (text : String) : universalLines (endLine text).toList =
    if universalLines text.toList = [] then [[]] else universalLines text.toList := by
  have own := consists_universalLines text.toList
  by_cases nothing : universalLines text.toList = []
  · have empty : text = "" := String.toList_eq_nil_iff.mp (consists_nil.mp (nothing ▸ own))
    rw [if_pos nothing, empty]
    rfl
  · have filled : text.toList ≠ [] := fun empty => nothing (by rw [empty, universalLines])
    rw [if_neg nothing]
    unfold endLine
    by_cases ended : text.toList.getLast? = some '\n'
    · rw [if_pos ended]
    · rw [if_neg ended, String.toList_append]
      exact (consists_iff.mp (own.feed filled ended)).symm

/-- Texts with the same lines have the same lines when they are ended. -/
theorem sameLines_endLine {first second : String} (same : SameLines first second) :
    SameLines (endLine first) (endLine second) := by
  unfold SameLines at same ⊢
  rw [universalLines_endLine, universalLines_endLine, same]

/-! ## Items one after the other -/

/-- Whether two items are one item of the library, or texts of the caller with the same lines. -/
inductive Item.Alike : Item → Item → Prop
  /-- An item of the library. -/
  | own {item : Item} (own : ∀ text, item ≠ .verbatim text) : Alike item item
  /-- Texts of the caller. -/
  | given {first second : String} (same : SameLines first second) :
      Alike (.verbatim (endLine first)) (.verbatim (endLine second))

/-- Such items end their last lines, and they have the same lines. -/
theorem Item.Alike.render {item other : Item} (alike : item.Alike other) :
    item.render.toList.getLast? = some '\n' ∧ other.render.toList.getLast? = some '\n' ∧
      SameLines item.render other.render := by
  cases alike with
  | own own =>
    have ended := getLast?_render_of_verbatim fun text same => absurd same (own text)
    exact ⟨ended, ended, rfl⟩
  | given same => exact ⟨getLast?_endLine _, getLast?_endLine _, sameLines_endLine same⟩

/-- The lines of an item that ends its last line stand in front of those of the other items. -/
theorem universalLines_render {item : Item} {rest : List Item}
    (ended : item.render.toList.getLast? = some '\n') :
    universalLines (render (item :: rest)).toList =
      universalLines item.render.toList ++ universalLines (render rest).toList := by
  have first := consists_universalLines item.render.toList
  rw [toList_render_cons]
  exact (consists_iff.mp (first.append ended (consists_universalLines _))).symm

/-- Scripts of such items have the same lines. -/
theorem sameLines_render {items others : List Item} (alike : List.Forall₂ Item.Alike items others) :
    SameLines (render items) (render others) := by
  induction alike with
  | nil => rfl
  | cons one more ih =>
    obtain ⟨first, second, same⟩ := one.render
    unfold SameLines at same ih ⊢
    rw [universalLines_render first, universalLines_render second, same, ih]

end Micromag.Script

/-! ## Written text -/

namespace Micromag.Text

open Script

/-- The canonical form of a text, which two replacements and a line feed at the end make, depends on
the lines of the text and on nothing else. It has no carriage return, is empty or ends in a line
feed, is its own form, and has the lines of the text, also when only line feeds end a line. Texts
have the same form exactly when they have the same lines; then the same bytes are written for them,
as scripts, as manifests or otherwise. A script is written alike whatever line ends the texts have
that a caller adds to it. -/
theorem canonical_form (text : String) :
    (∀ lines, Consists text.toList lines ↔ lines = universalLines text.toList) ∧
    (canonical text).toList = endLine (replaceEnds text.toList) ∧
    CanonicalEnds (canonical text).toList ∧
    canonical (canonical text) = canonical text ∧
    SameLines (canonical text) text ∧
    linesOf (canonical text) = (universalLines text.toList).map String.ofList ∧
    (∀ other, canonical text = canonical other ↔ SameLines text other) ∧
    (∀ other, SameLines text other → ∀ code path,
      Artifact.writeText code path text = Artifact.writeText code path other) ∧
    ∀ script other : LoweredScript, List.Forall₂ Item.Alike script.items other.items →
      script.sidecars = other.sidecars →
        ∀ directory name,
          Drive.prepare directory name script = Drive.prepare directory name other := by
  have rows := (consists_universalLines text.toList).unbroken
  have written {first second : String} (same : SameLines first second) (code path : String) :
      Artifact.writeText code path first = Artifact.writeText code path second := by
    unfold Artifact.writeText
    rw [canonical_eq_iff.mpr same]
  refine ⟨fun lines => consists_iff, ?_, ?_, canonical_eq_iff.mpr (sameLines_canonical text),
    sameLines_canonical text, ?_, fun other => canonical_eq_iff, fun other => written, ?_⟩
  · rw [replaceEnds_eq]
    exact String.toList_ofList
  · rw [toList_canonical]
    exact canonical_fed rows
  · unfold linesOf
    rw [toList_canonical, lines_fed rows]
  · intro script other alike sidecars directory name
    have same : SameLines script.text other.text := sameLines_render alike
    unfold Drive.prepare
    dsimp only
    rw [written same, sidecars]

/-- Texts that end the same lines otherwise are written alike, also when a caller adds them to a
script. -/
theorem canonical_form_mixed :
    SameLines "alpha\r\nbeta\rgamma" "alpha\nbeta\r\ngamma\r" ∧
      canonical "alpha\r\nbeta\rgamma" = "alpha\nbeta\ngamma\n" ∧
      (∀ code path, Artifact.writeText code path "alpha\r\nbeta\rgamma" =
        Artifact.writeText code path "alpha\nbeta\r\ngamma\r") ∧
      ∀ directory name,
        Drive.prepare directory name
            ⟨[.blank, .verbatim (Script.endLine "alpha\r\nbeta\rgamma")], []⟩ =
          Drive.prepare directory name
            ⟨[.blank, .verbatim (Script.endLine "alpha\nbeta\r\ngamma\r")], []⟩ := by
  have same : SameLines "alpha\r\nbeta\rgamma" "alpha\nbeta\r\ngamma\r" := by
    unfold SameLines
    decide
  obtain ⟨-, -, -, -, -, -, -, written, prepared⟩ := canonical_form "alpha\r\nbeta\rgamma"
  refine ⟨same, by decide, written _ same, prepared _ _ ?_ rfl⟩
  exact .cons (.own nofun) (.cons (.given same) .nil)

end Micromag.Text
