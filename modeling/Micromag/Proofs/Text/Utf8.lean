import Micromag.Text.Utf8

/-!
# Decoding what was encoded

The bytes of a character are read back one after the other: the first says how many follow and which
bounds the second keeps, the others add six bits each. A text is therefore read back whatever bytes
follow it, and a line feed among the bytes comes from a line feed in the text.
-/

namespace Micromag.Text.Utf8

variable {byte missing value low high : Nat} {rest : List UInt8}

/-- A byte that begins a longer character leaves it pending. -/
theorem decodeFrom_lead {pending : Pending} (fits : byte < 256)
    (begun : lead byte = .multiple pending) :
    decodeFrom none (UInt8.ofNat byte :: rest) = decodeFrom (some pending) rest := by
  have same : (UInt8.ofNat byte).toNat = byte := UInt8.toNat_ofNat_of_lt' fits
  simp only [decodeFrom, step, begin?, same, begun]
  rfl

/-- A further byte that is not the last adds its bits. -/
theorem decodeFrom_next (fits : byte < 256) (above : low ≤ byte) (below : byte ≤ high) :
    decodeFrom (some ⟨missing + 2, value, low, high⟩) (UInt8.ofNat byte :: rest) =
      decodeFrom (some ⟨missing + 1, value * 64 + (byte - 0x80), 0x80, 0xBF⟩) rest := by
  have same : (UInt8.ofNat byte).toNat = byte := UInt8.toNat_ofNat_of_lt' fits
  simp only [decodeFrom, step, same]
  rw [if_pos (by simp [above, below]), if_neg (by omega)]
  rfl

/-- The last byte completes the character. -/
theorem decodeFrom_last (fits : byte < 256) (above : low ≤ byte) (below : byte ≤ high) :
    decodeFrom (some ⟨1, value, low, high⟩) (UInt8.ofNat byte :: rest) =
      some (Char.ofNat (value * 64 + (byte - 0x80))) :: decodeFrom none rest := by
  have same : (UInt8.ofNat byte).toNat = byte := UInt8.toNat_ofNat_of_lt' fits
  simp only [decodeFrom, step, same]
  rw [if_pos (by simp [above, below]), if_pos (by omega)]
  rfl

/-- The bytes of a character are read back as the character, whatever follows. -/
theorem decodeFrom_encodeChar (c : Char) :
    decodeFrom none (String.utf8EncodeChar c ++ rest) = some c :: decodeFrom none rest := by
  have code : c.val.toNat = c.toNat := rfl
  have scalar : c.toNat < 0xD800 ∨ 0xDFFF < c.toNat ∧ c.toNat < 0x110000 := c.valid
  unfold String.utf8EncodeChar
  simp only [code]
  split
  · rename_i one
    have fits : c.toNat < 256 := by omega
    have same : (UInt8.ofNat c.toNat).toNat = c.toNat := UInt8.toNat_ofNat_of_lt' fits
    have begun : lead c.toNat = .single c := by
      unfold lead
      rw [if_pos (by omega), Char.ofNat_toNat]
    simp only [List.cons_append, List.nil_append, decodeFrom, step, begin?, same, begun]
  · split
    · have begun : lead (c.toNat / 64 % 0x20 + 0xC0) =
          .multiple ⟨1, c.toNat / 64 % 0x20, 0x80, 0xBF⟩ := by
        unfold lead
        rw [if_neg (by omega), if_neg (by omega), if_pos (by omega), Nat.add_sub_cancel]
      simp only [List.cons_append, List.nil_append]
      rw [decodeFrom_lead (by omega) begun, decodeFrom_last (by omega) (by omega) (by omega)]
      have bits : c.toNat / 64 % 0x20 * 64 + (c.toNat % 0x40 + 0x80 - 0x80) = c.toNat := by omega
      rw [bits, Char.ofNat_toNat]
    · split
      · have begun : lead (c.toNat / 4096 % 0x10 + 0xE0) =
            .multiple ⟨2, c.toNat / 4096 % 0x10,
              if c.toNat / 4096 % 0x10 + 0xE0 = 0xE0 then 0xA0 else 0x80,
              if c.toNat / 4096 % 0x10 + 0xE0 = 0xED then 0x9F else 0xBF⟩ := by
          unfold lead
          rw [if_neg (by omega), if_neg (by omega), if_neg (by omega), if_pos (by omega),
            Nat.add_sub_cancel]
        simp only [List.cons_append, List.nil_append]
        rw [decodeFrom_lead (by omega) begun, decodeFrom_next (by omega) (by split <;> omega)
          (by split <;> omega), decodeFrom_last (by omega) (by omega) (by omega)]
        have bits : (c.toNat / 4096 % 0x10 * 64 + (c.toNat / 64 % 0x40 + 0x80 - 0x80)) * 64 +
            (c.toNat % 0x40 + 0x80 - 0x80) = c.toNat := by omega
        rw [bits, Char.ofNat_toNat]
      · have begun : lead (c.toNat / 262144 % 0x08 + 0xF0) =
            .multiple ⟨3, c.toNat / 262144 % 0x08,
              if c.toNat / 262144 % 0x08 + 0xF0 = 0xF0 then 0x90 else 0x80,
              if c.toNat / 262144 % 0x08 + 0xF0 = 0xF4 then 0x8F else 0xBF⟩ := by
          unfold lead
          rw [if_neg (by omega), if_neg (by omega), if_neg (by omega), if_neg (by omega),
            if_pos (by omega), Nat.add_sub_cancel]
        simp only [List.cons_append, List.nil_append]
        rw [decodeFrom_lead (by omega) begun, decodeFrom_next (by omega) (by split <;> omega)
          (by split <;> omega), decodeFrom_next (by omega) (by omega) (by omega),
          decodeFrom_last (by omega) (by omega) (by omega)]
        have bits : ((c.toNat / 262144 % 0x08 * 64 + (c.toNat / 4096 % 0x40 + 0x80 - 0x80)) * 64 +
            (c.toNat / 64 % 0x40 + 0x80 - 0x80)) * 64 + (c.toNat % 0x40 + 0x80 - 0x80) =
            c.toNat := by omega
        rw [bits, Char.ofNat_toNat]

/-- The bytes of a text are read back as the text, whatever follows. -/
theorem decodeFrom_encode (text : List Char) :
    decodeFrom none (encode text ++ rest) = text.map some ++ decodeFrom none rest := by
  induction text with
  | nil => rfl
  | cons c others ih =>
    show decodeFrom none (String.utf8EncodeChar c ++ encode others ++ rest) = _
    rw [List.append_assoc, decodeFrom_encodeChar, ih]
    rfl

/-- The parts of the bytes of a text are its characters. -/
theorem decodeParts_encode (text : List Char) : decodeParts (encode text) = text.map some := by
  have whole : decodeFrom none (encode text ++ []) = text.map some ++ decodeFrom none [] :=
    decodeFrom_encode text
  rw [List.append_nil] at whole
  rw [decodeParts, whole]
  exact List.append_nil _

/-- Lenient decoding gives back a text from its bytes. -/
theorem decodeLossy_encode (text : List Char) : decodeLossy (encode text) = text := by
  rw [decodeLossy, decodeParts_encode, List.map_map]
  exact List.map_id text

/-- Texts are encoded one after the other. -/
theorem encode_append (text other : List Char) :
    encode (text ++ other) = encode text ++ encode other :=
  List.flatMap_append

/-- A character of ASCII takes one byte, its code. -/
theorem encodeChar_of_ascii {c : Char} (ascii : c.toNat < 128) :
    String.utf8EncodeChar c = [UInt8.ofNat c.toNat] := by
  have code : c.val.toNat = c.toNat := rfl
  unfold String.utf8EncodeChar
  simp only [code]
  rw [if_pos (by omega)]

/-- Every character of ASCII text takes one byte. -/
theorem encode_of_ascii {text : List Char} (ascii : ∀ c ∈ text, c.toNat < 128) :
    encode text = text.map fun c => UInt8.ofNat c.toNat := by
  induction text with
  | nil => rfl
  | cons c others ih =>
    obtain ⟨first, further⟩ := List.forall_mem_cons.mp ascii
    change String.utf8EncodeChar c ++ encode others = _
    rw [encodeChar_of_ascii first, ih further]
    rfl

/-- What ASCII text begins with as bytes is the beginning of the text. -/
theorem exists_prefix_of_ascii {text : List Char} {part : List UInt8}
    (ascii : ∀ c ∈ text, c.toNat < 128) (cut : part <+: encode text) :
    ∃ front, front <+: text ∧ part = encode front := by
  have few : ∀ c ∈ text.take part.length, c.toNat < 128 := fun c member =>
    ascii c (List.mem_of_mem_take member)
  refine ⟨text.take part.length, List.take_prefix _ _, ?_⟩
  rw [encode_of_ascii few, List.map_take, ← encode_of_ascii ascii]
  exact List.prefix_iff_eq_take.mp cut

/-- A byte of ASCII comes from the character with its code. -/
theorem toNat_of_mem_encodeChar {c : Char} {byte : UInt8} (ascii : byte.toNat < 128)
    (member : byte ∈ String.utf8EncodeChar c) : c.toNat = byte.toNat := by
  have code : c.val.toNat = c.toNat := rfl
  have value {n : Nat} (fits : n < 256) (same : byte = UInt8.ofNat n) : n = byte.toNat := by
    rw [same, UInt8.toNat_ofNat_of_lt' fits]
  unfold String.utf8EncodeChar at member
  simp only [code] at member
  split at member
  · exact value (by omega) (List.mem_singleton.mp member)
  · exfalso
    split at member
    · simp only [List.mem_cons, List.not_mem_nil, or_false] at member
      rcases member with same | same <;> have := value (by omega) same <;> omega
    · split at member
      · simp only [List.mem_cons, List.not_mem_nil, or_false] at member
        rcases member with same | same | same <;> have := value (by omega) same <;> omega
      · simp only [List.mem_cons, List.not_mem_nil, or_false] at member
        rcases member with same | same | same | same <;> have := value (by omega) same <;> omega

/-- A byte of ASCII in the bytes of a text comes from the character with its code. -/
theorem mem_of_mem_encode {text : List Char} {c : Char} (ascii : c.toNat < 128)
    (member : UInt8.ofNat c.toNat ∈ encode text) : c ∈ text := by
  obtain ⟨d, inside, found⟩ := List.mem_flatMap.mp member
  have fits : c.toNat < 256 := by omega
  have value : (UInt8.ofNat c.toNat).toNat = c.toNat := UInt8.toNat_ofNat_of_lt' fits
  have same := toNat_of_mem_encodeChar (by omega) found
  rw [value] at same
  rw [← Char.ofNat_toNat c, ← same, Char.ofNat_toNat]
  exact inside

/-- The bytes of a line hold no line feed. -/
theorem lineFeed_notMem_encode {text : List Char} (oneLine : '\n' ∉ text) :
    10 ∉ encode text := by
  intro member
  have code : UInt8.ofNat '\n'.toNat = 10 := by decide
  exact oneLine (mem_of_mem_encode (by decide) (code ▸ member))

end Micromag.Text.Utf8
