/-!
# UTF-8

Text in files is a sequence of bytes. Decoding goes byte by byte and remembers a character of which
only the first bytes have been seen. Where bytes are no text, the longest part that could have begun
a character counts as one unreadable place; a strict reader refuses such bytes, a lenient one puts a
replacement character there.
-/

namespace Micromag.Text.Utf8

/-- A character of which some bytes are missing. -/
structure Pending where
  /-- The number of missing bytes. -/
  missing : Nat
  /-- The bits seen so far. -/
  value : Nat
  /-- The least value of the next byte. -/
  low : Nat
  /-- The greatest value of the next byte. -/
  high : Nat
deriving DecidableEq, Repr

/-- What a byte at the start of a character means. -/
inductive Lead where
  /-- A whole character. -/
  | single (c : Char)
  /-- The first byte of a longer character. -/
  | multiple (pending : Pending)
  /-- No character starts so. -/
  | unreadable

/-- The meaning of a first byte. The bounds of the second byte leave out forms that are longer than
needed, halves of pairs and numbers that are no characters. -/
def lead (byte : Nat) : Lead :=
  if byte < 0x80 then .single (Char.ofNat byte)
  else if byte < 0xC2 then .unreadable
  else if byte < 0xE0 then .multiple ⟨1, byte - 0xC0, 0x80, 0xBF⟩
  else if byte < 0xF0 then
    .multiple ⟨2, byte - 0xE0, if byte = 0xE0 then 0xA0 else 0x80,
      if byte = 0xED then 0x9F else 0xBF⟩
  else if byte < 0xF5 then
    .multiple ⟨3, byte - 0xF0, if byte = 0xF0 then 0x90 else 0x80,
      if byte = 0xF4 then 0x8F else 0xBF⟩
  else .unreadable

/-- Read a byte at the start of a character: what is complete, and what is pending. An unreadable
place is `none`. -/
def begin? (byte : Nat) : List (Option Char) × Option Pending :=
  match lead byte with
  | .single c => ([some c], none)
  | .multiple pending => ([], some pending)
  | .unreadable => ([none], none)

/-- Read one byte. -/
def step (pending : Option Pending) (byte : Nat) : List (Option Char) × Option Pending :=
  match pending with
  | none => begin? byte
  | some pending =>
    if pending.low ≤ byte && byte ≤ pending.high then
      let value := pending.value * 64 + (byte - 0x80)
      if pending.missing ≤ 1 then ([some (Char.ofNat value)], none)
      else ([], some ⟨pending.missing - 1, value, 0x80, 0xBF⟩)
    else
      let (read, next) := begin? byte
      (none :: read, next)

/-- The characters and unreadable places of bytes after a pending character. -/
def decodeFrom : Option Pending → List UInt8 → List (Option Char)
  | none, [] => []
  | some _, [] => [none]
  | pending, byte :: rest =>
    let (read, next) := step pending byte.toNat
    read ++ decodeFrom next rest

/-- The characters and unreadable places of bytes. -/
def decodeParts (bytes : List UInt8) : List (Option Char) := decodeFrom none bytes

/-- The text of bytes, if all of it can be read. -/
def decode? (bytes : List UInt8) : Option (List Char) := (decodeParts bytes).mapM id

/-- The text of bytes with a replacement character in every unreadable place. -/
def decodeLossy (bytes : List UInt8) : List Char :=
  (decodeParts bytes).map (·.getD '\uFFFD')

/-- The bytes of a text. -/
def encode (text : List Char) : List UInt8 := text.flatMap String.utf8EncodeChar

/-- The bytes of a text. -/
def ofString (text : String) : List UInt8 := encode text.toList

end Micromag.Text.Utf8
