import Mathlib.Data.List.Basic
import Mathlib.Data.Nat.Bitwise
import Mathlib.Tactic.Common

/-! Octet strings and the fixed-width unsigned integers of the decoders. A slice
is a list, a machine integer a bit vector, and an index expression `bytes[i]`
reads `0` outside the slice; the `Checked` modules show that no decoder ever
reads there. -/

namespace OtDetection.Octets

abbrev U8 := BitVec 8
abbrev U16 := BitVec 16
abbrev U32 := BitVec 32

def octet (bytes : List U8) (i : ℕ) : U8 := bytes.getD i 0

def slice {α : Type*} (bytes : List α) (first last : ℕ) : List α :=
  (bytes.drop first).take (last - first)

def getSlice {α : Type*} (bytes : List α) (first last : ℕ) : Option (List α) :=
  if first ≤ last ∧ last ≤ bytes.length then some (slice bytes first last) else none

/-- `u16::from_le_bytes([low, high])`. -/
def u16FromLe (low high : U8) : U16 := high ++ low

/-- `u16::from_be_bytes([high, low])`. -/
def u16FromBe (high low : U8) : U16 := high ++ low

/-- `u32::from_le_bytes([a, b, c, d])`. -/
def u32FromLe (a b c d : U8) : U32 := d ++ c ++ b ++ a

/-- `to_le_bytes` of a 16-bit word. -/
def u16ToLe (w : U16) : List U8 := [w.extractLsb' 0 8, w.extractLsb' 8 8]

@[simp] theorem u16ToLe_length (w : U16) : (u16ToLe w).length = 2 := rfl

theorem u16FromLe_toNat (low high : U8) :
    (u16FromLe low high).toNat = low.toNat + 256 * high.toNat := by
  rw [u16FromLe, BitVec.toNat_append, ← Nat.shiftLeft_add_eq_or_of_lt low.isLt, Nat.shiftLeft_eq]
  omega

@[simp] theorem u16FromLe_extract (w : U16) :
    u16FromLe (w.extractLsb' 0 8) (w.extractLsb' 8 8) = w := by
  apply BitVec.eq_of_toNat_eq
  rw [u16FromLe_toNat]
  simp only [BitVec.extractLsb'_toNat, Nat.shiftRight_eq_div_pow]
  have bound := w.isLt
  omega

@[simp] theorem u16ToLe_fromLe (low high : U8) : u16ToLe (u16FromLe low high) = [low, high] := by
  have value := u16FromLe_toNat low high
  have lowBound := low.isLt
  have highBound := high.isLt
  simp only [u16ToLe, List.cons.injEq, and_true]
  constructor <;> apply BitVec.eq_of_toNat_eq <;>
    simp only [BitVec.extractLsb'_toNat, value, Nat.shiftRight_eq_div_pow] <;> omega

theorem u16ToLe_inj {v w : U16} (h : u16ToLe v = u16ToLe w) : v = w := by
  rw [u16ToLe, u16ToLe, List.cons.injEq, List.cons.injEq] at h
  rw [← u16FromLe_extract v, ← u16FromLe_extract w, h.1, h.2.1]

def u32ToLe (w : U32) : List U8 :=
  [w.extractLsb' 0 8, w.extractLsb' 8 8, w.extractLsb' 16 8, w.extractLsb' 24 8]

@[simp] theorem u32ToLe_length (w : U32) : (u32ToLe w).length = 4 := rfl

theorem u32FromLe_toNat (a b c d : U8) : (u32FromLe a b c d).toNat =
    a.toNat + 256 * (b.toNat + 256 * (c.toNat + 256 * d.toNat)) := by
  rw [u32FromLe, BitVec.toNat_append, BitVec.toNat_append, BitVec.toNat_append,
    ← Nat.shiftLeft_add_eq_or_of_lt a.isLt, ← Nat.shiftLeft_add_eq_or_of_lt b.isLt,
    ← Nat.shiftLeft_add_eq_or_of_lt c.isLt, Nat.shiftLeft_eq, Nat.shiftLeft_eq, Nat.shiftLeft_eq]
  omega

@[simp] theorem u32FromLe_extract (w : U32) :
    u32FromLe (w.extractLsb' 0 8) (w.extractLsb' 8 8) (w.extractLsb' 16 8) (w.extractLsb' 24 8) =
      w := by
  apply BitVec.eq_of_toNat_eq
  rw [u32FromLe_toNat]
  simp only [BitVec.extractLsb'_toNat, Nat.shiftRight_eq_div_pow]
  have bound := w.isLt
  omega

theorem octet_take (bytes : List U8) {i n : ℕ} (h : i < n) :
    octet (bytes.take n) i = octet bytes i := by
  simp [octet, List.getD_eq_getElem?_getD, h]

theorem octet_drop (bytes : List U8) (n i : ℕ) :
    octet (bytes.drop n) i = octet bytes (n + i) := by
  simp [octet, List.getD_eq_getElem?_getD]

theorem getElem?_eq_octet {bytes : List U8} {i : ℕ} (h : i < bytes.length) :
    bytes[i]? = some (octet bytes i) := by
  simp [octet, List.getD_eq_getElem?_getD, h]

theorem drop_eq_octet_cons {bytes : List U8} {i : ℕ} (h : i < bytes.length) :
    bytes.drop i = octet bytes i :: bytes.drop (i + 1) := by
  rw [List.drop_eq_getElem_cons h]
  simp [octet, List.getD_eq_getElem?_getD, h]

theorem slice_take {α : Type*} (bytes : List α) {first last n : ℕ} (h : last ≤ n) :
    slice (bytes.take n) first last = slice bytes first last := by
  simp only [slice, List.drop_take, List.take_take]
  rw [Nat.min_eq_left (by omega)]

theorem slice_length {α : Type*} (bytes : List α) {first last : ℕ} (h : last ≤ bytes.length) :
    (slice bytes first last).length = last - first := by
  simp only [slice, List.length_take, List.length_drop]
  omega

end OtDetection.Octets
