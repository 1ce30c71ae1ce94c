import OtDetection.Octets
import Mathlib.Tactic.SplitIfs

/-! Lossy UTF-8 decoding as the Rust standard library does it: each maximal
prefix of a character that cannot be completed becomes one U+FFFD. A character
other than U+FFFD is in the result exactly when its encoding is among the
octets, because a decoding step never runs past the start of a character. -/

namespace OtDetection.Utf8Lossy
open Octets

def replacement : Char := Char.ofNat 0xFFFD

def isTail (b : ℕ) : Prop := 0x80 ≤ b ∧ b ≤ 0xBF

instance (b : ℕ) : Decidable (isTail b) := inferInstanceAs (Decidable (_ ∧ _))

/-- Second octets that keep a three or four octet character in range. -/
def isSecond (a b : ℕ) : Prop :=
  isTail b ∧ (a = 0xE0 → 0xA0 ≤ b) ∧ (a = 0xED → b ≤ 0x9F) ∧ (a = 0xF0 → 0x90 ≤ b) ∧
    (a = 0xF4 → b ≤ 0x8F)

instance (a b : ℕ) : Decidable (isSecond a b) := inferInstanceAs (Decidable (_ ∧ _))

/-- The character at the octet `a`, with how many octets of `rest` belong to it. Past
the end of the input `octet` reads zero, which is no tail. -/
def lossyStep (a : ℕ) (rest : List U8) : Char × ℕ :=
  let b := (octet rest 0).toNat
  let c := (octet rest 1).toNat
  let d := (octet rest 2).toNat
  if a < 0x80 then (Char.ofNat a, 0)
  else if 0xC2 ≤ a ∧ a ≤ 0xDF then
    if isTail b then (Char.ofNat (a % 32 * 64 + b % 64), 1) else (replacement, 0)
  else if 0xE0 ≤ a ∧ a ≤ 0xEF then
    if ¬ isSecond a b then (replacement, 0)
    else if ¬ isTail c then (replacement, 1)
    else (Char.ofNat (a % 16 * 4096 + b % 64 * 64 + c % 64), 2)
  else if 0xF0 ≤ a ∧ a ≤ 0xF4 then
    if ¬ isSecond a b then (replacement, 0)
    else if ¬ isTail c then (replacement, 1)
    else if ¬ isTail d then (replacement, 2)
    else (Char.ofNat (a % 8 * 262144 + b % 64 * 4096 + c % 64 * 64 + d % 64), 3)
  else (replacement, 0)

/-- `String::from_utf8_lossy`. -/
def fromUtf8Lossy : List U8 → List Char
  | [] => []
  | a :: rest =>
    (lossyStep a.toNat rest).1 :: fromUtf8Lossy (rest.drop (lossyStep a.toNat rest).2)
termination_by bytes => bytes.length
decreasing_by simp only [List.length_drop, List.length_cons]; omega

/-- The octets of a character. -/
def encodeChar (c : Char) : List U8 :=
  let n := c.toNat
  if n < 0x80 then [BitVec.ofNat 8 n]
  else if n < 0x800 then [BitVec.ofNat 8 (0xC0 + n / 64), BitVec.ofNat 8 (0x80 + n % 64)]
  else if n < 0x10000 then
    [BitVec.ofNat 8 (0xE0 + n / 4096), BitVec.ofNat 8 (0x80 + n / 64 % 64),
      BitVec.ofNat 8 (0x80 + n % 64)]
  else
    [BitVec.ofNat 8 (0xF0 + n / 262144), BitVec.ofNat 8 (0x80 + n / 4096 % 64),
      BitVec.ofNat 8 (0x80 + n / 64 % 64), BitVec.ofNat 8 (0x80 + n % 64)]

theorem char_bounds (c : Char) : c.toNat < 0xD800 ∨ 0xDFFF < c.toNat ∧ c.toNat < 0x110000 :=
  c.valid

theorem toNat_ofNat {n : ℕ} (h : n < 0xD800 ∨ 0xDFFF < n ∧ n < 0x110000) :
    (Char.ofNat n).toNat = n := by
  rw [Char.ofNat, dif_pos h]
  rfl

theorem octet_zero_cons (b : U8) (rest : List U8) : octet (b :: rest) 0 = b := rfl

theorem octet_succ_cons (b : U8) (rest : List U8) (i : ℕ) :
    octet (b :: rest) (i + 1) = octet rest i := rfl

theorem lossyStep_encodeChar (c : Char) : ∃ a tail, encodeChar c = a :: tail ∧
    ∀ rest, lossyStep a.toNat (tail ++ rest) = (c, tail.length) := by
  have bounds := char_bounds c
  have self := Char.ofNat_toNat c
  generalize hn : c.toNat = n at *
  simp only [encodeChar, hn]
  by_cases one : n < 0x80
  · rw [if_pos one]
    refine ⟨_, _, rfl, fun rest => ?_⟩
    have value : n % 2 ^ 8 = n := by omega
    simp only [lossyStep, BitVec.toNat_ofNat, value, if_pos one, self]
    rfl
  rw [if_neg one]
  by_cases two : n < 0x800
  · rw [if_pos two]
    refine ⟨_, _, rfl, fun rest => ?_⟩
    have lead : (0xC0 + n / 64) % 2 ^ 8 = 0xC0 + n / 64 := by omega
    have tail : (0x80 + n % 64) % 2 ^ 8 = 0x80 + n % 64 := by omega
    simp only [lossyStep, List.cons_append, octet_zero_cons, BitVec.toNat_ofNat, lead, tail]
    rw [if_neg (by omega), if_pos (by omega), if_pos (by unfold isTail; omega)]
    rw [show (0xC0 + n / 64) % 32 * 64 + (0x80 + n % 64) % 64 = n by omega, self]
    rfl
  rw [if_neg two]
  by_cases three : n < 0x10000
  · rw [if_pos three]
    refine ⟨_, _, rfl, fun rest => ?_⟩
    have lead : (0xE0 + n / 4096) % 2 ^ 8 = 0xE0 + n / 4096 := by omega
    have tail : (0x80 + n / 64 % 64) % 2 ^ 8 = 0x80 + n / 64 % 64 := by omega
    have last : (0x80 + n % 64) % 2 ^ 8 = 0x80 + n % 64 := by omega
    simp only [lossyStep, List.cons_append, octet_zero_cons, octet_succ_cons, BitVec.toNat_ofNat,
      lead, tail, last]
    rw [if_neg (by omega), if_neg (by omega), if_pos (by omega),
      if_neg (by unfold isSecond isTail; omega), if_neg (by unfold isTail; omega)]
    rw [show (0xE0 + n / 4096) % 16 * 4096 + (0x80 + n / 64 % 64) % 64 * 64 +
      (0x80 + n % 64) % 64 = n by omega, self]
    rfl
  · rw [if_neg three]
    refine ⟨_, _, rfl, fun rest => ?_⟩
    have lead : (0xF0 + n / 262144) % 2 ^ 8 = 0xF0 + n / 262144 := by omega
    have second : (0x80 + n / 4096 % 64) % 2 ^ 8 = 0x80 + n / 4096 % 64 := by omega
    have third : (0x80 + n / 64 % 64) % 2 ^ 8 = 0x80 + n / 64 % 64 := by omega
    have last : (0x80 + n % 64) % 2 ^ 8 = 0x80 + n % 64 := by omega
    simp only [lossyStep, List.cons_append, octet_zero_cons, octet_succ_cons, BitVec.toNat_ofNat,
      lead, second, third, last]
    rw [if_neg (by omega), if_neg (by omega), if_neg (by omega), if_pos (by omega),
      if_neg (by unfold isSecond isTail; omega), if_neg (by unfold isTail; omega),
      if_neg (by unfold isTail; omega)]
    rw [show (0xF0 + n / 262144) % 8 * 262144 + (0x80 + n / 4096 % 64) % 64 * 4096 +
      (0x80 + n / 64 % 64) % 64 * 64 + (0x80 + n % 64) % 64 = n by omega, self]
    rfl

theorem tail_lt_length {rest : List U8} {i : ℕ} (h : isTail (octet rest i).toNat) :
    i < rest.length := by
  by_contra outside
  rw [octet, List.getD_eq_default _ _ (by omega)] at h
  exact absurd h (by decide)

theorem lossyStep_cases (a : ℕ) (rest : List U8) :
    let b := (octet rest 0).toNat
    let c := (octet rest 1).toNat
    let d := (octet rest 2).toNat
    (a < 0x80 ∧ lossyStep a rest = (Char.ofNat a, 0)) ∨
    (0xC2 ≤ a ∧ a ≤ 0xDF ∧ isTail b ∧
      lossyStep a rest = (Char.ofNat (a % 32 * 64 + b % 64), 1)) ∨
    (0xE0 ≤ a ∧ a ≤ 0xEF ∧ isSecond a b ∧ isTail c ∧
      lossyStep a rest = (Char.ofNat (a % 16 * 4096 + b % 64 * 64 + c % 64), 2)) ∨
    (0xF0 ≤ a ∧ a ≤ 0xF4 ∧ isSecond a b ∧ isTail c ∧ isTail d ∧
      lossyStep a rest =
        (Char.ofNat (a % 8 * 262144 + b % 64 * 4096 + c % 64 * 64 + d % 64), 3)) ∨
    lossyStep a rest = (replacement, 0) ∨
    (isTail b ∧ lossyStep a rest = (replacement, 1)) ∨
    (isTail b ∧ isTail c ∧ lossyStep a rest = (replacement, 2)) := by
  intro b c d
  unfold lossyStep
  by_cases one : a < 0x80
  · exact .inl ⟨one, if_pos one⟩
  by_cases two : 0xC2 ≤ a ∧ a ≤ 0xDF
  · by_cases hb : isTail b
    · exact .inr (.inl ⟨two.1, two.2, hb, by simp only [if_neg one, if_pos two]; exact if_pos hb⟩)
    · refine .inr (.inr (.inr (.inr (.inl ?_))))
      simp only [if_neg one, if_pos two]
      exact if_neg hb
  by_cases three : 0xE0 ≤ a ∧ a ≤ 0xEF
  · simp only [if_neg one, if_neg two, if_pos three]
    by_cases hb : isSecond a b
    · by_cases hc : isTail c
      · exact .inr (.inr (.inl ⟨three.1, three.2, hb, hc, by
          rw [if_neg (not_not.mpr hb), if_neg (not_not.mpr hc)]⟩))
      · exact .inr (.inr (.inr (.inr (.inr (.inl ⟨hb.1, by
          rw [if_neg (not_not.mpr hb), if_pos hc]⟩)))))
    · exact .inr (.inr (.inr (.inr (.inl (if_pos hb)))))
  by_cases four : 0xF0 ≤ a ∧ a ≤ 0xF4
  · simp only [if_neg one, if_neg two, if_neg three, if_pos four]
    by_cases hb : isSecond a b
    · by_cases hc : isTail c
      · by_cases hd : isTail d
        · exact .inr (.inr (.inr (.inl ⟨four.1, four.2, hb, hc, hd, by
            rw [if_neg (not_not.mpr hb), if_neg (not_not.mpr hc), if_neg (not_not.mpr hd)]⟩)))
        · exact .inr (.inr (.inr (.inr (.inr (.inr ⟨hb.1, hc, by
            rw [if_neg (not_not.mpr hb), if_neg (not_not.mpr hc), if_pos hd]⟩)))))
      · exact .inr (.inr (.inr (.inr (.inr (.inl ⟨hb.1, by
          rw [if_neg (not_not.mpr hb), if_pos hc]⟩)))))
    · exact .inr (.inr (.inr (.inr (.inl (if_pos hb)))))
  · refine .inr (.inr (.inr (.inr (.inl ?_))))
    simp only [if_neg one, if_neg two, if_neg three, if_neg four]

theorem lossyStep_tails (a : ℕ) (rest : List U8) :
    ∀ i < (lossyStep a rest).2, isTail (octet rest i).toNat := by
  intro i hi
  have steps := lossyStep_cases a rest
  simp only at steps
  rcases steps with ⟨-, h⟩ | ⟨-, -, hb, h⟩ | ⟨-, -, hb, hc, h⟩ | ⟨-, -, hb, hc, hd, h⟩ | h |
    ⟨hb, h⟩ | ⟨hb, hc, h⟩ <;> rw [h] at hi
  · exact absurd hi (Nat.not_lt_zero i)
  · match i, hi with
    | 0, _ => exact hb
  · match i, hi with
    | 0, _ => exact hb.1
    | 1, _ => exact hc
  · match i, hi with
    | 0, _ => exact hb.1
    | 1, _ => exact hc
    | 2, _ => exact hd
  · exact absurd hi (Nat.not_lt_zero i)
  · match i, hi with
    | 0, _ => exact hb
  · match i, hi with
    | 0, _ => exact hb
    | 1, _ => exact hc

theorem ofNat_eq_of_eq_toNat {b : U8} {n : ℕ} (h : n = b.toNat) : BitVec.ofNat 8 n = b := by
  rw [h, BitVec.ofNat_toNat, BitVec.setWidth_eq]

theorem take_eq_octets {rest : List U8} {n : ℕ} (h : n ≤ rest.length) :
    rest.take n = (List.range n).map (octet rest) := by
  apply List.ext_getElem?
  intro i
  by_cases hi : i < n
  · rw [List.getElem?_take, if_pos hi, getElem?_eq_octet (by omega), List.getElem?_map,
      List.getElem?_range hi]
    rfl
  · rw [List.getElem?_take, if_neg hi, List.getElem?_eq_none (by simpa using hi)]

theorem lossyStep_sound {a : U8} {rest : List U8}
    (h : (lossyStep a.toNat rest).1 ≠ replacement) :
    a :: rest.take (lossyStep a.toNat rest).2 = encodeChar (lossyStep a.toNat rest).1 := by
  have steps := lossyStep_cases a.toNat rest
  simp only at steps
  rcases steps with ⟨one, step⟩ | ⟨low, high, hb, step⟩ | ⟨low, high, hb, hc, step⟩ |
    ⟨low, high, hb, hc, hd, step⟩ | step | ⟨-, step⟩ | ⟨-, -, step⟩
  · rw [step, encodeChar, toNat_ofNat (by omega), if_pos one, ofNat_eq_of_eq_toNat rfl]
    rfl
  · have fits := tail_lt_length hb
    simp only [isTail] at hb
    rw [step, take_eq_octets fits, encodeChar, toNat_ofNat (by omega)]
    rw [if_neg (by omega), if_pos (by omega), ofNat_eq_of_eq_toNat (b := a) (by omega),
      ofNat_eq_of_eq_toNat (b := octet rest 0) (by omega)]
    rfl
  · have fits := tail_lt_length hc
    simp only [isSecond, isTail] at hb hc
    rw [step, take_eq_octets fits, encodeChar, toNat_ofNat (by omega)]
    rw [if_neg (by omega), if_neg (by omega), if_pos (by omega),
      ofNat_eq_of_eq_toNat (b := a) (by omega), ofNat_eq_of_eq_toNat (b := octet rest 0) (by omega),
      ofNat_eq_of_eq_toNat (b := octet rest 1) (by omega)]
    rfl
  · have fits := tail_lt_length hd
    simp only [isSecond, isTail] at hb hc hd
    rw [step, take_eq_octets fits, encodeChar, toNat_ofNat (by omega)]
    rw [if_neg (by omega), if_neg (by omega), if_neg (by omega),
      ofNat_eq_of_eq_toNat (b := a) (by omega), ofNat_eq_of_eq_toNat (b := octet rest 0) (by omega),
      ofNat_eq_of_eq_toNat (b := octet rest 1) (by omega),
      ofNat_eq_of_eq_toNat (b := octet rest 2) (by omega)]
    rfl
  · rw [step] at h; exact absurd rfl h
  · rw [step] at h; exact absurd rfl h
  · rw [step] at h; exact absurd rfl h

theorem fromUtf8Lossy_cons (a : U8) (rest : List U8) :
    fromUtf8Lossy (a :: rest) =
      (lossyStep a.toNat rest).1 :: fromUtf8Lossy (rest.drop (lossyStep a.toNat rest).2) := by
  rw [fromUtf8Lossy]

theorem fromUtf8Lossy_encode (text : List Char) :
    fromUtf8Lossy (text.flatMap encodeChar) = text := by
  induction text with
  | nil => rw [List.flatMap_nil, fromUtf8Lossy]
  | cons c text ih =>
    obtain ⟨a, tail, encoded, step⟩ := lossyStep_encodeChar c
    rw [List.flatMap_cons, encoded, List.cons_append, fromUtf8Lossy_cons, step, List.drop_left, ih]

theorem encodeChar_head (c : Char) {a : U8} {tail : List U8} (h : encodeChar c = a :: tail) :
    ¬ isTail a.toNat := by
  have bounds := char_bounds c
  rw [encodeChar] at h
  unfold isTail
  split_ifs at h <;> cases h <;> rw [BitVec.toNat_ofNat] <;> omega

theorem lossyStep_le {a : ℕ} {pre tail : List U8} {lead : U8} (h : ¬ isTail lead.toNat) :
    (lossyStep a (pre ++ lead :: tail)).2 ≤ pre.length := by
  by_contra beyond
  have taken := lossyStep_tails a (pre ++ lead :: tail) pre.length (by omega)
  have start := octet_drop (pre ++ lead :: tail) pre.length 0
  rw [List.drop_left, Nat.add_zero] at start
  rw [← start] at taken
  exact h taken

theorem mem_fromUtf8Lossy_iff {c : Char} (hc : c ≠ replacement) (bytes : List U8) :
    c ∈ fromUtf8Lossy bytes ↔ encodeChar c <:+: bytes := by
  obtain ⟨lead, tail, encoded, step⟩ := lossyStep_encodeChar c
  have start := encodeChar_head c encoded
  induction bytes using fromUtf8Lossy.induct with
  | case1 => simp [fromUtf8Lossy, encoded]
  | case2 a rest ih =>
    rw [fromUtf8Lossy_cons, List.mem_cons, show _ ↔ _ from ih]
    constructor
    · rintro (rfl | inside)
      · rw [← lossyStep_sound hc]
        exact (List.cons_prefix_cons.mpr ⟨rfl, List.take_prefix _ rest⟩).isInfix
      · exact (inside.trans (List.drop_suffix _ _).isInfix).trans (List.suffix_cons a rest).isInfix
    · rw [encoded, List.infix_cons_iff]
      rintro (⟨after, front⟩ | ⟨before, after, whole⟩)
      · rw [List.cons_append] at front
        cases front
        exact .inl (by rw [step])
      · right
        rw [← whole, List.append_assoc, List.cons_append]
        rw [List.drop_append_of_le_length (lossyStep_le start)]
        exact ⟨_, after, by rw [List.append_assoc]; rfl⟩

end OtDetection.Utf8Lossy
