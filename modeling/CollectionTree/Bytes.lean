/-!
# Byte strings

Keys, values, segments and frames are plain lists of bytes. This module holds the few operations on
them that no single format owns: padding a short buffer with zeros, overwriting the front of one
string by another, the little-endian form of the fixed-width words, and the text in hexadecimal
digits.

The main statements say that a word is recovered from its bytes (`uint16_ofUInt16` and its
relatives) and that overwriting keeps the length (`Bytes.length_overwrite`).
-/

namespace CollectionTree

/-- A string of bytes. -/
abbrev Bytes := List UInt8

namespace Bytes

/-- The bytes of a zero-filled buffer of `room` bytes after `written` was put at its front. -/
def padTo (room : Nat) (written : Bytes) : Bytes :=
  written ++ List.replicate (room - written.length) 0

/-- Put as much of `source` over the front of `target` as `target` has places for. -/
def overwrite (target source : Bytes) : Bytes :=
  source.take target.length ++ target.drop source.length

/-- Combine two strings position by position, as far as both reach; the rest of the first stays. -/
def mergeWith (combine : UInt8 → UInt8 → UInt8) (target source : Bytes) : Bytes :=
  List.zipWith combine target source ++ target.drop source.length

/-- Padding fills the room. -/
@[simp] theorem length_padTo {room : Nat} {written : Bytes} (h : written.length ≤ room) :
    (padTo room written).length = room := by
  simp [padTo]; omega

/-- Overwriting keeps the length of the target. -/
@[simp] theorem length_overwrite (target source : Bytes) :
    (overwrite target source).length = target.length := by
  simp [overwrite]; omega

/-- Merging keeps the length of the target. -/
@[simp] theorem length_mergeWith (combine : UInt8 → UInt8 → UInt8) (target source : Bytes) :
    (mergeWith combine target source).length = target.length := by
  simp [mergeWith]; omega

/-- The two bytes of a 16-bit word, low byte first. -/
def ofUInt16 (word : UInt16) : Bytes :=
  [word.toUInt8, UInt8.ofNat (word.toNat / 256)]

/-- The 16-bit word with the given low and high byte. -/
def uint16 (low high : UInt8) : UInt16 :=
  (low.toNat + 256 * high.toNat).toUInt16

/-- The four bytes of a 32-bit word, low byte first. -/
def ofUInt32 (word : UInt32) : Bytes :=
  [word.toUInt8, UInt8.ofNat (word.toNat / 256), UInt8.ofNat (word.toNat / 65536),
    UInt8.ofNat (word.toNat / 16777216)]

/-- The 32-bit word with the given bytes, low byte first. -/
def uint32 (b₀ b₁ b₂ b₃ : UInt8) : UInt32 :=
  (b₀.toNat + 256 * b₁.toNat + 65536 * b₂.toNat + 16777216 * b₃.toNat).toUInt32

/-- The digit for a number below sixteen. -/
def hexDigit (n : Nat) : Char := if n < 10 then Char.ofNat (48 + n) else Char.ofNat (87 + n)

/-- The number that a digit stands for. -/
def ofHexDigit? (c : Char) : Option Nat :=
  if '0' ≤ c ∧ c ≤ '9' then some (c.toNat - 48)
  else if 'a' ≤ c ∧ c ≤ 'f' then some (c.toNat - 87)
  else none

/-- The bytes in hexadecimal digits, two for each. -/
def toHex (bytes : Bytes) : List Char :=
  bytes.flatMap fun b ↦ [hexDigit (b.toNat / 16), hexDigit (b.toNat % 16)]

/-- The bytes that hexadecimal digits stand for. -/
def ofHex? : List Char → Option Bytes
  | [] => some []
  | high :: low :: rest => do
    let byte := 16 * (← ofHexDigit? high) + (← ofHexDigit? low)
    return byte.toUInt8 :: (← ofHex? rest)
  | _ => none

private theorem ofHexDigit?_hexDigit : ∀ n < 16, ofHexDigit? (hexDigit n) = some n := by decide

/-- Bytes are recovered from their digits. -/
@[simp] theorem ofHex?_toHex (bytes : Bytes) : ofHex? bytes.toHex = some bytes := by
  induction bytes with
  | nil => rfl
  | cons b rest ih =>
    have small : b.toNat < 256 := b.toNat_lt
    have whole : (16 * (b.toNat / 16) + b.toNat % 16).toUInt8 = b := by
      rw [Nat.div_add_mod]
      exact UInt8.ofNat_toNat
    rw [toHex] at ih
    rw [toHex, List.flatMap_cons, List.cons_append, List.cons_append, List.nil_append, ofHex?,
      ofHexDigit?_hexDigit _ (by omega), ofHexDigit?_hexDigit _ (by omega), ih]
    exact congrArg (fun byte ↦ some (byte :: rest)) whole

/-- A 16-bit word is recovered from its bytes. -/
@[simp] theorem uint16_ofUInt16 (word : UInt16) :
    uint16 word.toUInt8 (UInt8.ofNat (word.toNat / 256)) = word := by
  have h := word.toNat_lt
  apply UInt16.toNat_inj.mp
  simp [uint16]
  omega

/-- Two bytes are recovered from the word they make. -/
@[simp] theorem ofUInt16_uint16 (low high : UInt8) :
    ofUInt16 (uint16 low high) = [low, high] := by
  have hl := low.toNat_lt
  have hh := high.toNat_lt
  simp only [ofUInt16, uint16, List.cons.injEq, and_true,
    ← UInt8.toNat_inj]
  simp
  omega

/-- A 32-bit word is recovered from its bytes. -/
@[simp] theorem uint32_ofUInt32 (word : UInt32) :
    uint32 word.toUInt8 (UInt8.ofNat (word.toNat / 256)) (UInt8.ofNat (word.toNat / 65536))
      (UInt8.ofNat (word.toNat / 16777216)) = word := by
  have h := word.toNat_lt
  apply UInt32.toNat_inj.mp
  simp [uint32]
  omega

/-- Four bytes are recovered from the word they make. -/
@[simp] theorem ofUInt32_uint32 (b₀ b₁ b₂ b₃ : UInt8) :
    ofUInt32 (uint32 b₀ b₁ b₂ b₃) = [b₀, b₁, b₂, b₃] := by
  have h₀ := b₀.toNat_lt
  have h₁ := b₁.toNat_lt
  have h₂ := b₂.toNat_lt
  have h₃ := b₃.toNat_lt
  simp only [ofUInt32, uint32, List.cons.injEq, and_true,
    ← UInt8.toNat_inj]
  simp
  omega

end Bytes

end CollectionTree
