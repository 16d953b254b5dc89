import Micromag.Decimal.Basic
import Micromag.Decimal.Reading
import Micromag.Shell.Arithmetic
import Micromag.Shell.Glob

/-!
# Formatted text

A format is text with escapes, which begin with a backslash, and with directives, which begin with a
percent sign and take an argument each. A format with directives is used again until no arguments
are left. Numbers are rounded exactly, halves to even.
-/

namespace Micromag.Shell

/-! ## Escapes -/

namespace Escape

/-- The characters that a letter behind a backslash stands for. -/
def ofLetter? : Char → Option Char
  | 'a' => some '\x07'
  | 'b' => some '\x08'
  | 'f' => some '\x0c'
  | 'n' => some '\n'
  | 'r' => some '\r'
  | 't' => some '\t'
  | 'v' => some '\x0b'
  | '\\' => some '\\'
  | _ => none

/-- Whether a character is an octal digit. -/
def isOctal (c : Char) : Bool := '0' ≤ c && c ≤ '7'

/-- The octal digits at the start of a text, up to a number of them: their byte and their count. -/
def octal (most : Nat) (text : Text) : Char × Nat :=
  let digits := (text.take most).takeWhile isOctal
  (Char.ofNat ((digits.foldl (fun n c => 8 * n + (c.toNat - 48)) 0) % 256), digits.length)

/-- What an escape stands for, behind the backslash, and how many characters it takes. -/
def read? (text : Text) : Option (Char × Nat) :=
  match text with
  | [] => none
  | c :: _ =>
    if isOctal c then some (octal 3 text)
    else (ofLetter? c).map fun d => (d, 1)

/-- A text without its escapes, and whether an escape has ended it. -/
def decode : Nat → Text → Text × Bool
  | 0, _ => ([], false)
  | _ + 1, [] => ([], false)
  | fuel + 1, '\\' :: 'c' :: _ => ([], fuel + 1 > 0)
  | fuel + 1, '\\' :: '0' :: rest =>
    let (c, count) := octal 3 rest
    let (text, ended) := decode fuel (rest.drop count)
    (c :: text, ended)
  | fuel + 1, '\\' :: rest =>
    match read? rest with
    | some (c, count) =>
      let (text, ended) := decode fuel (rest.drop count)
      (c :: text, ended)
    | none =>
      let (text, ended) := decode fuel rest
      ('\\' :: text, ended)
  | fuel + 1, c :: rest =>
    let (text, ended) := decode fuel rest
    (c :: text, ended)

/-- A text without its escapes, and whether an escape has ended it. -/
def all (text : Text) : Text × Bool := decode (text.length + 1) text

end Escape

/-! ## Directives -/

/-- How an argument is laid out. -/
structure Directive where
  /-- At the left of its field. -/
  left : Bool := false
  /-- With a sign in any case. -/
  plus : Bool := false
  /-- With a blank in place of a plus. -/
  blank : Bool := false
  /-- In another form. -/
  other : Bool := false
  /-- With zeros in front. -/
  zero : Bool := false
  /-- The least width. -/
  width : Nat := 0
  /-- The number of places, digits or characters. -/
  precision : Option Nat := none
deriving DecidableEq, Repr

namespace Directive

/-- Set a flag. -/
def withFlag (directive : Directive) : Char → Directive
  | '-' => { directive with left := true }
  | '+' => { directive with plus := true }
  | ' ' => { directive with blank := true }
  | '#' => { directive with other := true }
  | '0' => { directive with zero := true }
  | _ => directive

/-- A text in its field, behind a sign. -/
def field (directive : Directive) (zeros : Bool) (sign text : Text) : Text :=
  let missing := directive.width - (sign.length + text.length)
  if directive.left then sign ++ text ++ List.replicate missing ' '
  else if zeros then sign ++ List.replicate missing '0' ++ text
  else List.replicate missing ' ' ++ sign ++ text

/-- The sign of a number. -/
def sign (directive : Directive) (negative : Bool) : Text :=
  if negative then ['-']
  else if directive.plus then ['+']
  else if directive.blank then [' ']
  else []

/-- The digits of a whole number in a base. -/
def digits (base : Nat) (n : Nat) : Text := Nat.toDigits base n

/-- A whole number. -/
def integer (directive : Directive) (letter : Char) (n : Int) : Text :=
  let unsigned := letter ≠ 'd' && letter ≠ 'i'
  let size := if unsigned && n < 0 then (n + 2 ^ 64).toNat else n.natAbs
  let plain : Text := match letter with
    | 'o' => digits 8 size
    | 'x' => digits 16 size
    | 'X' => (digits 16 size).map Char.toUpper
    | _ => Text.ofNat size
  let padded := match directive.precision with
    | some 0 => if size = 0 then [] else plain
    | some count => zeroPadded count plain
    | none => plain
  let mark : Text :=
    if !directive.other || size = 0 then []
    else match letter with
      | 'o' => if padded.head? = some '0' then [] else ['0']
      | 'x' => ['0', 'x']
      | 'X' => ['0', 'X']
      | _ => []
  let sign := if unsigned then mark else directive.sign (n < 0)
  directive.field (directive.zero && directive.precision.isNone) sign padded

/-- A double. -/
def real (directive : Directive) (letter : Char) (x : Float) : Text :=
  let sign := directive.sign (isNegative x)
  let raised : Text → Text := if letter.isUpper then List.map Char.toUpper else id
  if x.isNaN then directive.field false sign (raised "nan".toList)
  else if x.isInf then directive.field false sign (raised "inf".toList)
  else
    let m := Magnitude.ofFloat x
    let places := directive.precision.getD 6
    let text := match letter with
      | 'e' | 'E' => m.scientific places directive.other letter
      | 'g' => m.general places directive.other 'e'
      | 'G' => m.general places directive.other 'E'
      | _ => m.fixed places directive.other
    directive.field directive.zero sign text

/-- A text, cut to its precision. -/
def string (directive : Directive) (text : Text) : Text :=
  directive.field false [] (match directive.precision with
    | some count => text.take count
    | none => text)

end Directive

/-! ## Formats -/

/-- Text that is being formatted. -/
structure Formatting where
  /-- The arguments that are left. -/
  arguments : List Text
  /-- The text so far, its latest part first. -/
  parts : List Text := []
  /-- Messages about arguments, the latest first. -/
  messages : List String := []
  /-- The text has been ended. -/
  ended : Bool := false
  /-- A directive is not understood. -/
  refused : Bool := false
  /-- An argument has been taken. -/
  used : Bool := false

namespace Formatting

/-- Add text. -/
def add (state : Formatting) (text : Text) : Formatting :=
  { state with parts := text :: state.parts }

/-- Take an argument. -/
def take (state : Formatting) : Option Text × Formatting :=
  match state.arguments with
  | [] => (none, { state with used := true })
  | first :: rest => (some first, { state with arguments := rest, used := true })

/-- The longest start of a text that can be read, with the rest. -/
def longest {α : Type} (read? : Text → Option α) (text : Text) : Option α × Text :=
  let counts := (List.range (text.length + 1)).reverse
  match counts.findSome? fun count => (read? (text.take count)).map (·, count) with
  | some (value, count) => (some value, text.drop count)
  | none => (none, text)

/-- The value of a numeric argument: zero where nothing can be read, with a message. -/
def numeric {α : Type} (zero : α) (ofCode : Nat → α) (read? : Text → Option α)
    (state : Formatting) :
    α × Formatting :=
  match state.take with
  | (none, state) => (zero, state)
  | (some ('\x22' :: rest), state) => (ofCode (rest.head?.map Char.toNat |>.getD 0), state)
  | (some ('\x27' :: rest), state) => (ofCode (rest.head?.map Char.toNat |>.getD 0), state)
  | (some text, state) =>
    let say (what : String) : Formatting :=
      { state with messages := s!"{Text.string text}: {what}" :: state.messages }
    match longest read? (text.dropWhile fun c => " \t\n".toList.contains c) with
    | (none, _) => (zero, say "expected numeric value")
    | (some value, []) => (value, state)
    | (some value, _) => (value, say "not completely converted")

/-- A whole number, with a sign. -/
def integer? : Text → Option Int
  | '-' :: rest => (Sum.number? rest).map fun n => -n
  | '+' :: rest => Sum.number? rest
  | text => Sum.number? text

/-- A number of the format, or the next argument in its place. -/
def size (state : Formatting) (text : Text) : Option Int × Formatting × Text :=
  match text with
  | '*' :: rest =>
    let (n, state) := numeric 0 (fun n => (n : Int)) integer? state
    (some n, state, rest)
  | _ =>
    let digits := text.takeWhile Char.isDigit
    ((Text.toNat? digits).map fun n => (n : Int), state, text.drop digits.length)

/-- Carry out a directive behind its flags and numbers. -/
def convert (state : Formatting) (directive : Directive) (letter : Char) : Formatting :=
  match letter with
  | '%' => state.add ['%']
  | 's' =>
    let (text, state) := state.take
    state.add (directive.string (text.getD []))
  | 'b' =>
    let (text, state) := state.take
    let (text, ended) := Escape.all (text.getD [])
    { state.add (directive.string text) with ended }
  | 'c' =>
    let (text, state) := state.take
    state.add (directive.string ((text.getD []).take 1))
  | _ =>
    if "diouxX".toList.contains letter then
      let (n, state) := numeric 0 (fun n => (n : Int)) integer? state
      state.add (directive.integer letter n)
    else if "eEfFgG".toList.contains letter then
      let (x, state) := numeric 0 Float.ofNat readFloat? state
      state.add (directive.real letter x)
    else
      { state with
        ended := true, refused := true
        messages := s!"%{letter}: invalid directive" :: state.messages }

/-- A directive behind its percent sign: the text behind it. -/
def directive (state : Formatting) (text : Text) : Formatting × Text :=
  let flags := text.takeWhile "-+ #0".toList.contains
  let flagged := flags.foldl Directive.withFlag {}
  let (width, state, text) := size state (text.drop flags.length)
  let width := width.getD 0
  let (precision, state, text) := match text with
    | '.' :: rest =>
      let (precision, state, text) := size state rest
      (some (precision.getD 0), state, text)
    | _ => (none, state, text)
  let whole : Directive := { flagged with
    left := flagged.left || width < 0
    width := width.natAbs
    precision := match precision with
      | some n => if n < 0 then none else some n.toNat
      | none => none }
  match text with
  | [] =>
    ({ state with
      ended := true, refused := true
      messages := "missing format character" :: state.messages }, [])
  | letter :: rest => (convert state whole letter, rest)

/-- Go once through a format. -/
def once : Nat → Formatting → Text → Formatting
  | 0, state, _ => state
  | _ + 1, state, [] => state
  | fuel + 1, state, '\\' :: rest =>
    match Escape.read? rest with
    | some (c, count) => once fuel (state.add [c]) (rest.drop count)
    | none => once fuel (state.add ['\\']) rest
  | fuel + 1, state, '%' :: rest =>
    let (state, rest) := directive state rest
    if state.ended then state else once fuel state rest
  | fuel + 1, state, c :: rest => once fuel (state.add [c]) rest

/-- Go through a format until no arguments are left. -/
def rounds (format : Text) : Nat → Formatting → Formatting
  | 0, state => state
  | fuel + 1, state =>
    let state := once (format.length + 1) { state with used := false } format
    if state.ended || !state.used || state.arguments.isEmpty then state
    else rounds format fuel state

/-- Arguments formatted. -/
def run (format : Text) (arguments : List Text) : Formatting :=
  rounds format (arguments.length + 1) { arguments }

/-- The text. -/
def text (state : Formatting) : Text := state.parts.reverse.flatten

/-- The status that formatting ends with; a directive that is not understood has its own. -/
def status (refusal : Nat) (state : Formatting) : Nat :=
  if state.refused then refusal else if state.messages.isEmpty then 0 else 1

end Formatting

end Micromag.Shell
