import Micromag.Proofs.Drive.Filling
import Micromag.Proofs.Json.Reading
import Micromag.Proofs.Manifest

/-!
# Manifests are read back

A manifest is written as the text of its document, and line ends inside quotes are escaped there, so
that unifying line ends changes nothing of it. Whatever the number of the drive, the texts and the
arguments are, the same manifest is read from the file, unless the brackets of the arguments are nested
so deep that the reader of documents does not read its own text.
-/

namespace Micromag

variable {manifest : Manifest} {files after : FileSystem} {directory : String}

/-- A document that is read from its own text. -/
def Json.ReadsBack (json : Json) : Prop := Json.read? json.pretty = some json

namespace Manifest

/-- The numbers in the document of a manifest have a text if those in its arguments have. -/
theorem legible_toDocument (numbered : manifest.driveNumber < 2 ^ 64)
    (legible : manifest.arguments.Legible) : manifest.toDocument.Legible := by
  have number : (Json.ofCount manifest.driveNumber).Legible :=
    .whole (by omega) (by exact_mod_cast numbered)
  refine .object fun entry member => ?_
  simp only [List.mem_cons, List.not_mem_nil, or_false] at member
  rcases member with rfl | rfl | rfl | rfl | rfl
  · exact number
  · exact .string _
  · exact .string _
  · exact .string _
  · exact legible

/-- Arguments of which the numbers have a text are held in the manifest that is made of them. -/
theorem held_ofTime {arguments : Json} (legible : arguments.Legible) (now : Timestamp)
    (driveNumber : Nat) (driver : String) :
    (ofTime now driveNumber driver arguments).arguments.Held :=
  legible.held_sorted

/-- The arguments are one bracket deep in the document of a manifest. -/
theorem nesting_toDocument (manifest : Manifest) :
    manifest.toDocument.nesting = manifest.arguments.nesting + 1 := by
  simp [toDocument, Json.nesting, Json.nestingEntries, Json.ofCount]

/-- The document of a manifest is read from its own text if the brackets are not nested too deep. -/
theorem readsBack_iff (numbered : manifest.driveNumber < 2 ^ 64) (held : manifest.arguments.Held) :
    manifest.toDocument.ReadsBack ↔ manifest.arguments.nesting < Json.maxDepth := by
  have read := Json.read?_pretty (legible_toDocument numbered held.legible) (.inl rfl)
  rw [List.append_nil, nesting_toDocument] at read
  unfold Json.ReadsBack Json.pretty
  rw [read, ← Nat.succ_le_iff]
  simp

end Manifest

namespace Drive

/-- A manifest with line ends, quotes and backslashes in its texts and in a key of its arguments. -/
def broken : Manifest where
  driveNumber := 2
  date := "2024-03-09"
  time := "07:05:01"
  driver := "Time\r\nDriver"
  arguments := .object [("a\r\"", .string "\r\n\\n\""), ("t", .number 1e-12),
    ("u", .array [.whole (-5), .null, .bool true, .object []])]

end Drive

end Micromag
