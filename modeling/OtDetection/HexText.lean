import OtDetection.Utf8Lossy
import Mathlib.Data.List.DropRight

/-! Hex text: octets as pairs of digits, with separators between them that mean nothing. A
text is read by its octets, so that a character beyond ASCII is no digit whatever its parts. -/

namespace OtDetection.HexText
open Octets Utf8Lossy

def utf8 (text : List Char) : List U8 := text.flatMap encodeChar

def hexNibble (byte : U8) : Option U8 :=
  if 0x30#8 ≤ byte ∧ byte ≤ 0x39#8 then some (byte - 0x30#8)
  else if 0x61#8 ≤ byte ∧ byte ≤ 0x66#8 then some (byte - 0x61#8 + 10#8)
  else if 0x41#8 ≤ byte ∧ byte ≤ 0x46#8 then some (byte - 0x41#8 + 10#8)
  else none

/-- `u8::is_ascii_whitespace`, which does not have the vertical tab. -/
def isAsciiWhitespace (byte : U8) : Prop :=
  byte = 0x20#8 ∨ byte = 0x09#8 ∨ byte = 0x0A#8 ∨ byte = 0x0C#8 ∨ byte = 0x0D#8

instance (byte : U8) : Decidable (isAsciiWhitespace byte) := inferInstanceAs (Decidable (_ ∨ _))

/-- White space, a colon or a hyphen. -/
def isSeparator (byte : U8) : Prop := isAsciiWhitespace byte ∨ byte = 0x3A#8 ∨ byte = 0x2D#8

instance (byte : U8) : Decidable (isSeparator byte) := inferInstanceAs (Decidable (_ ∨ _))

def readPairs : List U8 → Option (List U8)
  | high :: low :: rest => do
    let h ← hexNibble high
    let l ← hexNibble low
    let octets ← readPairs rest
    some ((h <<< 4 ||| l) :: octets)
  | _ => some []

def decodeHex (line : List Char) : Option (List U8) :=
  let cleaned := (utf8 line).filter fun byte => ¬ isSeparator byte
  if cleaned.length % 2 ≠ 0 then none else readPairs cleaned

/-! ## Spellings -/

def digit (upper : Bool) (nibble : ℕ) : U8 :=
  if nibble < 10 then BitVec.ofNat 8 (0x30 + nibble)
  else BitVec.ofNat 8 ((if upper then 0x37 else 0x57) + nibble)

/-- The digits spell the octets, each in its own case. -/
inductive Spells : List U8 → List U8 → Prop
  | nil : Spells [] []
  | cons (high low : Bool) (octet : U8) {digits octets : List U8} : Spells digits octets →
      Spells (digit high (octet.toNat / 16) :: digit low (octet.toNat % 16) :: digits)
        (octet :: octets)

theorem hexNibble_digit (upper : Bool) {nibble : ℕ} (small : nibble < 16) :
    hexNibble (digit upper nibble) = some (BitVec.ofNat 8 nibble) := by
  have each : ∀ upper : Bool, ∀ nibble : Fin 16,
      hexNibble (digit upper nibble) = some (BitVec.ofNat 8 nibble) := by decide
  exact each upper ⟨nibble, small⟩

theorem digit_of_hexNibble {byte nibble : U8} (read : hexNibble byte = some nibble) :
    nibble.toNat < 16 ∧ ∃ upper, byte = digit upper nibble.toNat := by
  unfold hexNibble at read
  split_ifs at read with number lower capital
  · obtain rfl := Option.some.inj read
    have low : 0x30 ≤ byte.toNat := number.1
    have high : byte.toNat ≤ 0x39 := number.2
    have value : (byte - 0x30#8).toNat = byte.toNat - 0x30 := by bv_omega
    rw [value]
    refine ⟨by omega, false, ?_⟩
    rw [digit, if_pos (by omega)]
    bv_omega
  · obtain rfl := Option.some.inj read
    have low : 0x61 ≤ byte.toNat := lower.1
    have high : byte.toNat ≤ 0x66 := lower.2
    have value : (byte - 0x61#8 + 10#8).toNat = byte.toNat - 0x57 := by bv_omega
    rw [value]
    refine ⟨by omega, false, ?_⟩
    rw [digit, if_neg (by omega), if_neg (by decide)]
    bv_omega
  · obtain rfl := Option.some.inj read
    have low : 0x41 ≤ byte.toNat := capital.1
    have high : byte.toNat ≤ 0x46 := capital.2
    have value : (byte - 0x41#8 + 10#8).toNat = byte.toNat - 0x37 := by bv_omega
    rw [value]
    refine ⟨by omega, true, ?_⟩
    rw [digit, if_neg (by omega), if_pos rfl]
    bv_omega

theorem join_nibbles {high low : U8} (h : high.toNat < 16) (l : low.toNat < 16) :
    (high <<< 4 ||| low).toNat = 16 * high.toNat + low.toNat := by
  have shifted : (high <<< 4).toNat = 2 ^ 4 * high.toNat := by
    rw [BitVec.toNat_shiftLeft, Nat.shiftLeft_eq]
    omega
  rw [BitVec.toNat_or, shifted, ← Nat.two_pow_add_eq_or_of_lt (by omega)]

theorem split_octet (octet : U8) :
    (BitVec.ofNat 8 (octet.toNat / 16) <<< 4 ||| BitVec.ofNat 8 (octet.toNat % 16)) = octet := by
  have small := octet.isLt
  refine BitVec.eq_of_toNat_eq ?_
  rw [join_nibbles, BitVec.toNat_ofNat, BitVec.toNat_ofNat]
  · omega
  · rw [BitVec.toNat_ofNat]; omega
  · rw [BitVec.toNat_ofNat]; omega

theorem Spells.even {digits octets : List U8} (spells : Spells digits octets) :
    digits.length % 2 = 0 := by
  induction spells with
  | nil => rfl
  | cons high low octet _ ih => simp only [List.length_cons]; omega

theorem Spells.digit_of_mem {digits octets : List U8} (spells : Spells digits octets) {byte : U8}
    (mem : byte ∈ digits) : ∃ upper, ∃ nibble < 16, byte = digit upper nibble := by
  induction spells with
  | nil => exact nomatch mem
  | cons high low octet _ ih =>
    have small := octet.isLt
    rcases List.mem_cons.mp mem with rfl | mem
    · exact ⟨high, octet.toNat / 16, by omega, rfl⟩
    · rcases List.mem_cons.mp mem with rfl | mem
      · exact ⟨low, octet.toNat % 16, by omega, rfl⟩
      · exact ih mem

theorem readPairs_of_spells {digits octets : List U8} (spells : Spells digits octets) :
    readPairs digits = some octets := by
  induction spells with
  | nil => rfl
  | cons high low octet _ ih =>
    have small := octet.isLt
    rw [readPairs, hexNibble_digit high (by omega), hexNibble_digit low (by omega), ih]
    simp only [Option.bind_eq_bind, Option.bind_some, split_octet]

theorem spells_of_readPairs {digits octets : List U8} (even : digits.length % 2 = 0)
    (read : readPairs digits = some octets) : Spells digits octets := by
  induction digits using readPairs.induct generalizing octets with
  | case1 high low rest ih =>
    rw [readPairs] at read
    obtain ⟨h, isHigh, read⟩ := Option.bind_eq_some_iff.mp read
    obtain ⟨l, isLow, read⟩ := Option.bind_eq_some_iff.mp read
    obtain ⟨tail, later, read⟩ := Option.bind_eq_some_iff.mp read
    obtain rfl := Option.some.inj read
    obtain ⟨hSmall, hCase, rfl⟩ := digit_of_hexNibble isHigh
    obtain ⟨lSmall, lCase, rfl⟩ := digit_of_hexNibble isLow
    have joined := join_nibbles hSmall lSmall
    have first : h.toNat = (h <<< 4 ||| l).toNat / 16 := by omega
    have second : l.toNat = (h <<< 4 ||| l).toNat % 16 := by omega
    rw [first, second]
    refine .cons hCase lCase _ (ih ?_ later)
    simp only [List.length_cons] at even
    omega
  | case2 digits short =>
    match digits with
    | [] =>
      cases read
      exact .nil
    | [digit] => simp at even
    | high :: low :: rest => exact absurd rfl (short high low rest)

theorem decodeHex_eq_some_iff {line : List Char} {octets : List U8} :
    decodeHex line = some octets ↔
      Spells ((utf8 line).filter fun byte => ¬ isSeparator byte) octets := by
  rw [decodeHex]
  constructor
  · intro read
    split_ifs at read with odd
    exact spells_of_readPairs (not_not.mp odd) read
  · intro spells
    rw [if_neg (not_not.mpr spells.even)]
    exact readPairs_of_spells spells

end OtDetection.HexText
