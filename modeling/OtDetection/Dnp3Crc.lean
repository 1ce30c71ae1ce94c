import OtDetection.Octets
import OtDetection.ShiftRegister
import Mathlib.Data.Int.Bitwise

/-! CRC-16/DNP twice: `crc16` of the Rust decoder, on wrapping 16-bit words, and
`crc_dnp` of the Python capture builder, on unbounded integers. Both are the
shift register of the reflected polynomial `0xA6BC`, complemented at the end,
and both compute the same word. -/

namespace OtDetection.Dnp3Crc
open Octets ShiftRegister

def polynomialReflected : U16 := 0xA6BC#16

/-- Body of the inner loop of `crc16`. -/
def crcShift (crc : U16) : U16 :=
  if crc &&& 1#16 ≠ 0#16 then (crc >>> 1) ^^^ polynomialReflected else crc >>> 1

def crcByte (crc : U16) (byte : U8) : U16 :=
  (List.range 8).foldl (fun crc _ => crcShift crc) (crc ^^^ byte.setWidth 16)

def crc16 (data : List U8) : U16 := ~~~(data.foldl crcByte 0#16)

/-- Body of the inner loop of `crc_dnp`. -/
def crcDnpShift (crc : ℕ) : ℕ := if crc &&& 1 ≠ 0 then (crc >>> 1) ^^^ 0xA6BC else crc >>> 1

/-- Body of the outer loop of `crc_dnp`. -/
def crcDnpByte (crc : ℕ) (byte : U8) : ℕ :=
  (List.range 8).foldl (fun crc _ => crcDnpShift crc) (crc ^^^ byte.toNat)

/-- `(~crc) & 0xFFFF` complements an unbounded integer before it masks. -/
def crcDnp (data : List U8) : ℕ :=
  (Int.land (Int.lnot (data.foldl crcDnpByte 0 : ℕ)) 0xFFFF).toNat

/-! ## The register behind the word -/

theorem crcShift_eq_shift (crc : U16) : crcShift crc = shift polynomialReflected crc := by
  have low : crc &&& 1#16 = BitVec.setWidth 16 (BitVec.ofBool (crc.getLsbD 0)) :=
    BitVec.and_one_eq_setWidth_ofBool_getLsbD
  unfold crcShift shift
  rw [low]
  cases crc.getLsbD 0 <;> simp

theorem crcByte_eq_shifts (crc : U16) (byte : U8) :
    crcByte crc byte = shifts polynomialReflected 8 (crc ^^^ byte.setWidth 16) := by
  simp only [crcByte, show List.range 8 = [0, 1, 2, 3, 4, 5, 6, 7] by rfl, List.foldl_cons,
    List.foldl_nil, crcShift_eq_shift]
  rfl

def octetBits (byte : U8) : List Bool := (List.range 8).map byte.getLsbD

@[simp] theorem octetBits_length (byte : U8) : (octetBits byte).length = 8 := by simp [octetBits]

def transmitted (bytes : List U8) : List Bool := bytes.flatMap octetBits

theorem transmitted_cons (byte : U8) (bytes : List U8) :
    transmitted (byte :: bytes) = octetBits byte ++ transmitted bytes := List.flatMap_cons

@[simp] theorem transmitted_length (bytes : List U8) :
    (transmitted bytes).length = 8 * bytes.length := by
  induction bytes with
  | nil => rfl
  | cons b bytes ih =>
    rw [transmitted_cons, List.length_append, octetBits_length, ih, List.length_cons]
    omega

theorem transmitted_append (a b : List U8) :
    transmitted (a ++ b) = transmitted a ++ transmitted b := List.flatMap_append

theorem octetBits_getD (byte : U8) (i : ℕ) : (octetBits byte).getD i false = byte.getLsbD i := by
  rw [octetBits, List.getD_eq_getElem?_getD, List.getElem?_map]
  by_cases h : i < 8
  · simp [h]
  · rw [List.getElem?_eq_none (by simpa using h)]
    exact (BitVec.getLsbD_of_ge byte i (by omega)).symm

theorem word_octetBits (byte : U8) : word (octetBits byte) = byte.setWidth 16 := by
  apply BitVec.eq_of_getLsbD_eq
  intro i hi
  rw [word_getLsbD, octetBits_getD, BitVec.getLsbD_setWidth]

theorem crcByte_eq_feed (crc : U16) (byte : U8) :
    crcByte crc byte = feed polynomialReflected crc (octetBits byte) := by
  rw [feed_eq_shifts_word _ _ (by simp), octetBits_length, word_octetBits, crcByte_eq_shifts]

theorem foldl_crcByte_eq_feed (crc : U16) (data : List U8) :
    data.foldl crcByte crc = feed polynomialReflected crc (transmitted data) := by
  induction data generalizing crc with
  | nil => rfl
  | cons byte data ih =>
    rw [List.foldl_cons, ih, crcByte_eq_feed, transmitted_cons, feed_append]

theorem crc16_eq_feed (data : List U8) :
    crc16 data = ~~~(feed polynomialReflected 0#16 (transmitted data)) := by
  rw [crc16, foldl_crcByte_eq_feed]

/-! ## The two implementations agree -/

theorem crcShift_toNat (crc : U16) : (crcShift crc).toNat = crcDnpShift crc.toNat := by
  rw [crcShift_eq_shift, shift_toNat, natShift, crcDnpShift, Nat.and_one_is_mod,
    Nat.shiftRight_eq_div_pow]
  by_cases h : crc.toNat % 2 = 1
  · simp only [h, if_true, ne_eq, one_ne_zero, not_false_eq_true]
    rfl
  · have even : crc.toNat % 2 = 0 := by omega
    simp [even]

theorem crcByte_toNat (crc : U16) (byte : U8) :
    (crcByte crc byte).toNat = crcDnpByte crc.toNat byte := by
  unfold crcByte crcDnpByte
  have start : (crc ^^^ byte.setWidth 16).toNat = crc.toNat ^^^ byte.toNat := by
    rw [BitVec.toNat_xor, BitVec.toNat_setWidth, Nat.mod_eq_of_lt]
    have := byte.isLt
    omega
  rw [← start]
  generalize crc ^^^ byte.setWidth 16 = s
  generalize List.range 8 = turns
  induction turns generalizing s with
  | nil => rfl
  | cons _ turns ih => rw [List.foldl_cons, List.foldl_cons, ih, crcShift_toNat]

theorem foldl_crcByte_toNat (crc : U16) (data : List U8) :
    (data.foldl crcByte crc).toNat = data.foldl crcDnpByte crc.toNat := by
  induction data generalizing crc with
  | nil => rfl
  | cons byte data ih => rw [List.foldl_cons, List.foldl_cons, ih, crcByte_toNat]

theorem land_lnot_toNat (mask r : ℕ) : (Int.land (Int.lnot r) mask).toNat = Nat.ldiff mask r := rfl

theorem land_lnot (r : U16) : (Int.land (Int.lnot (r.toNat : ℕ)) 0xFFFF).toNat = (~~~r).toNat := by
  have ones : (0xFFFF : ℤ) = ((2 ^ 16 - 1 : ℕ) : ℤ) := by decide
  rw [ones, land_lnot_toNat]
  apply Nat.eq_of_testBit_eq
  intro i
  rw [Nat.testBit_ldiff, Nat.testBit_two_pow_sub_one]
  change _ = (~~~r).getLsbD i
  rw [BitVec.getLsbD_not]
  rfl

theorem crcDnp_eq_crc16 (data : List U8) : crcDnp data = (crc16 data).toNat := by
  rw [crcDnp, crc16, ← land_lnot, foldl_crcByte_toNat]
  rfl

example : crc16 [0x31, 0x32, 0x33, 0x34, 0x35, 0x36, 0x37, 0x38, 0x39] = 0xEA82#16 := by
  decide +kernel

end OtDetection.Dnp3Crc
