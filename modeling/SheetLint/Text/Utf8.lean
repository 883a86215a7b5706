/-!
# UTF-8

Texts as bytes, and bytes as texts. Bytes that are not the bytes of a text can still be shown.
-/

namespace SheetLint.Utf8

/-- The bytes of a text. -/
def encode (text : String) : List UInt8 :=
  text.toUTF8.data.toList

/-- The text with these bytes, if there is one. -/
def decode? (bytes : List UInt8) : Option String :=
  String.fromUTF8? ⟨bytes.toArray⟩

@[simp] theorem decode?_encode (text : String) : decode? (encode text) = some text := by
  have valid : (⟨(encode text).toArray⟩ : ByteArray).IsValidUTF8 := text.isValidUTF8
  rw [decode?, String.fromUTF8?, dif_pos valid]
  rfl

/-- Bytes are those of the text that is read from them. -/
theorem encode_of_decode? {bytes : List UInt8} {text : String} (h : decode? bytes = some text) :
    encode text = bytes := by
  rw [decode?, String.fromUTF8?] at h
  split at h
  · cases h
    rfl
  · cases h

/-- How many bytes of a character stand behind its first byte, and between which bounds the second
    of its bytes is. -/
def followers? (first : UInt8) : Option (Nat × UInt8 × UInt8) :=
  if first < 0x80 then some (0, 0x80, 0xBF)
  else if first < 0xC2 then none
  else if first < 0xE0 then some (1, 0x80, 0xBF)
  else if first = 0xE0 then some (2, 0xA0, 0xBF)
  else if first = 0xED then some (2, 0x80, 0x9F)
  else if first < 0xF0 then some (2, 0x80, 0xBF)
  else if first = 0xF0 then some (3, 0x90, 0xBF)
  else if first < 0xF4 then some (3, 0x80, 0xBF)
  else if first = 0xF4 then some (3, 0x80, 0x8F)
  else none

/-- The number of bytes at the front that are a character or the beginning of one; at least the
    first byte counts. -/
def stretch : List UInt8 → Nat
  | [] => 0
  | [_] => 1
  | first :: second :: rest =>
    match followers? first with
    | some (more + 1, low, high) =>
      if low ≤ second ∧ second ≤ high then
        2 + ((rest.take more).takeWhile fun b => 0x80 ≤ b ∧ b ≤ 0xBF).length
      else 1
    | _ => 1

/-- The characters of bytes, with a mark in the place of each stretch that is none. Some bytes at
    the front may be passed over. -/
def pieces (passed : Nat) : List UInt8 → String
  | [] => ""
  | b :: bs =>
    match passed with
    | passed + 1 => pieces passed bs
    | 0 =>
      let length := stretch (b :: bs)
      (decode? ((b :: bs).take length)).getD "\ufffd" ++ pieces (length - 1) bs

/-- The text to show for bytes. -/
def display (bytes : List UInt8) : String :=
  (decode? bytes).getD (pieces 0 bytes)

end SheetLint.Utf8
