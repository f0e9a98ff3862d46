import Ariel.Text.Hexadecimal

/-!
# Bytes of text

Text travels as bytes in UTF-8, percent-encoded inside paths and queries. Bytes that are no text
are refused, or become replacement characters, one for each longest beginning of a character.
-/

namespace Ariel.Text

/-- The bytes of a text. -/
def bytesOf (s : String) : List UInt8 :=
  s.toUTF8.data.toList

/-- The text that some bytes make, when they make one. -/
def textOfBytes? (bytes : List UInt8) : Option String :=
  String.fromUTF8? ⟨bytes.toArray⟩

/-- How many bytes follow the first byte of a character, with the bounds of the first of them and
the bits that the first byte contributes. -/
def lead? (b : Nat) : Option (Nat × Nat × Nat × Nat) :=
  if 0xC2 ≤ b && b ≤ 0xDF then some (1, 0x80, 0xBF, b - 0xC0)
  else if b = 0xE0 then some (2, 0xA0, 0xBF, 0)
  else if b = 0xED then some (2, 0x80, 0x9F, 0xD)
  else if 0xE1 ≤ b && b ≤ 0xEF then some (2, 0x80, 0xBF, b - 0xE0)
  else if b = 0xF0 then some (3, 0x90, 0xBF, 0)
  else if b = 0xF4 then some (3, 0x80, 0x8F, 4)
  else if 0xF1 ≤ b && b ≤ 0xF3 then some (3, 0x80, 0xBF, b - 0xF0)
  else none

/-- The character that stands for bytes that make none. -/
def replacementChar : Char := Char.ofNat 0xFFFD

/-- Read bytes as text, where `pending` bytes are missing to the character begun so far: the next
one lies between `low` and `high`, and `value` holds the bits that were read. -/
def lossyFrom : (pending low high value : Nat) → List UInt8 → List Char
  | 0, _, _, _, [] => []
  | _ + 1, _, _, _, [] => [replacementChar]
  | 0, _, _, _, b :: bytes =>
      if b.toNat < 0x80 then Char.ofNat b.toNat :: lossyFrom 0 0 0 0 bytes
      else match lead? b.toNat with
        | some (pending, low, high, value) => lossyFrom pending low high value bytes
        | none => replacementChar :: lossyFrom 0 0 0 0 bytes
  | pending + 1, low, high, value, b :: bytes =>
      if low ≤ b.toNat && b.toNat ≤ high then
        let value := 64 * value + (b.toNat - 0x80)
        match pending with
        | 0 => Char.ofNat value :: lossyFrom 0 0 0 0 bytes
        | pending + 1 => lossyFrom (pending + 1) 0x80 0xBF value bytes
      else if b.toNat < 0x80 then
        replacementChar :: Char.ofNat b.toNat :: lossyFrom 0 0 0 0 bytes
      else match lead? b.toNat with
        | some (pending, low, high, value) =>
            replacementChar :: lossyFrom pending low high value bytes
        | none => replacementChar :: replacementChar :: lossyFrom 0 0 0 0 bytes

/-- Read bytes as text, with replacement characters where they make none. -/
def lossyText (bytes : List UInt8) : String :=
  String.ofList (lossyFrom 0 0 0 0 bytes)

/-- The byte that two hexadecimal digits name. -/
def hexByte? (high low : UInt8) : Option UInt8 := do
  let value? (b : UInt8) := hexValue? (Char.ofNat b.toNat)
  pure (UInt8.ofNat (16 * (← value? high) + (← value? low)))

/-- Undo percent-encoding. A percent sign without two hexadecimal digits stands for itself. -/
def percentDecoded : List UInt8 → List UInt8
  | [] => []
  | 0x25 :: high :: low :: bytes =>
      match hexByte? high low with
      | some b => b :: percentDecoded bytes
      | none => 0x25 :: percentDecoded (high :: low :: bytes)
  | b :: bytes => b :: percentDecoded bytes

end Ariel.Text
