import Micromag.Instances
import Micromag.Text.Basic
import Micromag.Text.Utf8

/-!
# Text of the shell

The shell works on bytes. A text of the shell is a list of characters below 256, each of which
stands for one byte, so that texts can be written and compared as characters are.
-/

namespace Micromag.Shell

/-- Bytes as characters. -/
abbrev Text := List Char

namespace Text

/-- The text of bytes. -/
def ofBytes (bytes : List UInt8) : Text := bytes.map fun byte => Char.ofNat byte.toNat

/-- The bytes of a text. -/
def toBytes (text : Text) : List UInt8 := text.map fun c => UInt8.ofNat c.toNat

/-- The text of a string's bytes. -/
def ofString (s : String) : Text := ofBytes (Text.Utf8.ofString s)

/-- The string of a text; bytes that are no characters are replaced. -/
def string (text : Text) : String := String.ofList (Text.Utf8.decodeLossy (toBytes text))

/-- The text of a number. -/
def ofNat (n : Nat) : Text := (Nat.repr n).toList

/-- The text of an integer. -/
def ofInt (n : Int) : Text := if n < 0 then '-' :: ofNat n.natAbs else ofNat n.natAbs

/-- The number of a text that holds digits and nothing else. -/
def toNat? (text : Text) : Option Nat :=
  if !text.isEmpty && text.all Char.isDigit then
    some (text.foldl (fun n c => 10 * n + (c.toNat - 48)) 0)
  else none

/-- The lines of a text; a line feed at the end begins no further line. -/
def lines (text : Text) : List Text :=
  let pieces := Text.splitOn '\n' text
  if pieces.getLast? = some [] then pieces.dropLast else pieces

/-- Lines, each ended by a line feed. -/
def ofLines (lines : List Text) : Text := lines.flatMap (· ++ ['\n'])

/-- Texts with a separator between them. -/
def joined (separator : Text) (texts : List Text) : Text := List.intercalate separator texts

/-- Text without the line feeds at its end. -/
def trimLines (text : Text) : Text := (text.reverse.dropWhile (· = '\n')).reverse

/-- Whether a character may start a name. -/
def startsName (c : Char) : Bool := c.isAlpha || c = '_'

/-- Whether a character may stand in a name. -/
def inName (c : Char) : Bool := c.isAlphanum || c = '_'

/-- Whether a text is a name. -/
def isName (text : Text) : Bool :=
  match text with
  | [] => false
  | c :: rest => startsName c && rest.all inName

end Text

end Micromag.Shell
