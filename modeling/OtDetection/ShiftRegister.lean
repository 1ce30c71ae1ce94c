import Mathlib.Data.Nat.Bitwise
import Mathlib.Algebra.Field.ZMod
import Mathlib.Logic.Function.Iterate
import Mathlib.Tactic.Common

/-! Reflected linear-feedback shift registers, for any width `w` and feedback
word `p`. Bits are fed least significant end first. A register started at zero
returns to zero exactly on the multiples of the generator polynomial, so a bit
pattern on which `feed` is nonzero is an error pattern the check detects. Three
facts about `p` give the usual guarantees: its top bit (bursts of `w` bits), its
parity (odd weights) and the absence of a four-term relation among the first
`n` powers (weights two and four on words of `n` bits). -/

namespace OtDetection.ShiftRegister

variable {w : ℕ}

/-- One shift: the outgoing bit, when set, feeds `p` back. -/
def shift (p s : BitVec w) : BitVec w :=
  if s.getLsbD 0 then (s >>> 1) ^^^ p else s >>> 1

def bit (b : Bool) : BitVec w := if b then 1#w else 0#w

def feed (p : BitVec w) (s : BitVec w) (bits : List Bool) : BitVec w :=
  bits.foldl (fun s b => shift p (s ^^^ bit b)) s

theorem feed_append (p s : BitVec w) (a b : List Bool) :
    feed p s (a ++ b) = feed p (feed p s a) b := List.foldl_append

/-! ## Linearity -/

theorem xor_swap (a b c d : BitVec w) : (a ^^^ b) ^^^ (c ^^^ d) = (a ^^^ c) ^^^ (b ^^^ d) := by
  ac_rfl

theorem shift_xor (p a b : BitVec w) : shift p (a ^^^ b) = shift p a ^^^ shift p b := by
  unfold shift
  rw [BitVec.getLsbD_xor, BitVec.ushiftRight_xor_distrib]
  cases a.getLsbD 0 <;> cases b.getLsbD 0 <;>
    simp only [Bool.false_eq_true, if_true, if_false, Bool.xor_false, Bool.xor_true, Bool.not_true,
      Bool.not_false]
  · ac_rfl
  · ac_rfl
  · rw [xor_swap, BitVec.xor_self, BitVec.xor_zero]

theorem shift_zero (p : BitVec w) : shift p 0#w = 0#w := by simp [shift]

def shifts (p : BitVec w) (n : ℕ) (s : BitVec w) : BitVec w := (shift p)^[n] s

@[simp] theorem shifts_zero (p s : BitVec w) : shifts p 0 s = s := rfl

theorem shifts_succ (p s : BitVec w) (n : ℕ) : shifts p (n + 1) s = shifts p n (shift p s) := rfl

theorem shifts_add (p s : BitVec w) (m n : ℕ) :
    shifts p (m + n) s = shifts p m (shifts p n s) := Function.iterate_add_apply _ _ _ _

@[simp] theorem shifts_register_zero (p : BitVec w) (n : ℕ) : shifts p n 0#w = 0#w := by
  induction n with
  | zero => rfl
  | succ n ih => rw [shifts_succ, shift_zero, ih]

theorem shifts_xor (p a b : BitVec w) (n : ℕ) :
    shifts p n (a ^^^ b) = shifts p n a ^^^ shifts p n b := by
  induction n generalizing a b with
  | zero => rfl
  | succ n ih => simp only [shifts_succ, shift_xor, ih]

theorem bit_xor (a b : Bool) : bit (w := w) (a ^^ b) = bit a ^^^ bit b := by
  cases a <;> cases b <;> simp [bit]

theorem feed_xor (p s t : BitVec w) {a b : List Bool} (h : a.length = b.length) :
    feed p (s ^^^ t) (List.zipWith (· ^^ ·) a b) = feed p s a ^^^ feed p t b := by
  induction a generalizing b s t with
  | nil => cases b with
    | nil => rfl
    | cons => simp at h
  | cons x a ih => cases b with
    | nil => simp at h
    | cons y b =>
      simp only [List.zipWith_cons_cons, feed, List.foldl_cons]
      rw [bit_xor, xor_swap, shift_xor]
      exact ih _ _ (by simpa using h)

theorem feed_replicate_false (p s : BitVec w) (n : ℕ) :
    feed p s (List.replicate n false) = shifts p n s := by
  induction n generalizing s with
  | zero => rfl
  | succ n ih =>
    change feed p (shift p (s ^^^ 0#w)) (List.replicate n false) = _
    rw [BitVec.xor_zero, ih, shifts_succ]

/-! ## A whole word at a time -/

/-- The register holding `bits`, the first at the low end. -/
def word : List Bool → BitVec w
  | [] => 0#w
  | b :: bits => (word bits <<< 1) ^^^ bit b

theorem bit_getLsbD (b : Bool) (i : ℕ) :
    (bit (w := w) b).getLsbD i = (decide (i = 0) && decide (0 < w) && b) := by
  cases b <;> by_cases hi : i = 0 <;> simp [bit, hi]

theorem word_getLsbD (bits : List Bool) (i : ℕ) :
    (word (w := w) bits).getLsbD i = (decide (i < w) && bits.getD i false) := by
  induction bits generalizing i with
  | nil => simp [word]
  | cons b bits ih =>
    rw [word, BitVec.getLsbD_xor, BitVec.getLsbD_shiftLeft, bit_getLsbD, ih]
    cases i with
    | zero => simp
    | succ i =>
      by_cases h : i + 1 < w
      · simp [h, show i < w by omega]
      · simp [h]

theorem shift_xor_shiftLeft (p s x : BitVec w) (h : x.getLsbD (w - 1) = false) :
    shift p (s ^^^ (x <<< 1)) = shift p s ^^^ x := by
  rw [shift_xor]
  congr 1
  have low : (x <<< 1).getLsbD 0 = false := by simp
  rw [shift, low, if_neg Bool.false_ne_true]
  apply BitVec.eq_of_getLsbD_eq
  intro i hi
  simp only [BitVec.getLsbD_ushiftRight, BitVec.getLsbD_shiftLeft]
  by_cases top : i = w - 1
  · subst top
    simp [h, show ¬ 1 + (w - 1) < w by omega]
  · simp [show 1 + i < w by omega]

theorem feed_eq_shifts_word (p s : BitVec w) {bits : List Bool} (h : bits.length ≤ w) :
    feed p s bits = shifts p bits.length (s ^^^ word bits) := by
  induction bits generalizing s with
  | nil => simp [feed, word]
  | cons b bits ih =>
    have free : (word (w := w) bits).getLsbD (w - 1) = false := by
      rw [word_getLsbD, List.getD_eq_default _ _ (by simp at h; omega), Bool.and_false]
    change feed p (shift p (s ^^^ bit b)) bits = _
    rw [ih _ (by simp at h; omega), List.length_cons, shifts_succ, word,
      BitVec.xor_comm (word bits <<< 1), ← BitVec.xor_assoc, shift_xor_shiftLeft _ _ _ free]

/-! ## Bursts -/

theorem shift_eq_zero {p s : BitVec w} (top : p.getLsbD (w - 1) = true) (h : shift p s = 0#w) :
    s = 0#w := by
  unfold shift at h
  have wpos : 0 < w := by
    by_contra hw
    rw [BitVec.getLsbD_of_ge _ _ (by omega)] at top
    cases top
  split at h
  · -- The shifted register has its top bit clear, so it cannot cancel `p`.
    have bits := congrArg (fun v => BitVec.getLsbD v (w - 1)) h
    simp only [BitVec.getLsbD_xor, BitVec.getLsbD_ushiftRight, top, BitVec.getLsbD_zero] at bits
    rw [BitVec.getLsbD_of_ge _ _ (by omega)] at bits
    cases bits
  · rename_i low
    apply BitVec.eq_of_getLsbD_eq
    intro i hi
    rw [BitVec.getLsbD_zero]
    cases i with
    | zero => simpa using low
    | succ i =>
      have bits := congrArg (fun v => BitVec.getLsbD v i) h
      simpa [Nat.add_comm] using bits

theorem shifts_eq_zero {p s : BitVec w} (top : p.getLsbD (w - 1) = true) {n : ℕ}
    (h : shifts p n s = 0#w) : s = 0#w := by
  induction n generalizing s with
  | zero => exact h
  | succ n ih => exact shift_eq_zero top (ih h)

/-- The set bits lie within `width` consecutive positions. -/
def Burst (width : ℕ) (bits : List Bool) : Prop :=
  ∃ start, ∀ i, bits[i]? = some true → start ≤ i ∧ i < start + width

theorem eq_replicate_false {bits : List Bool} (h : true ∉ bits) :
    bits = List.replicate bits.length false := by
  rw [List.eq_replicate_iff]
  refine ⟨rfl, fun b hb => ?_⟩
  cases b with
  | false => rfl
  | true => exact absurd hb h

theorem Burst.split {width : ℕ} {bits : List Bool} (h : Burst width bits) :
    ∃ i window j, bits = List.replicate i false ++ window ++ List.replicate j false ∧
      window.length ≤ width := by
  obtain ⟨start, hstart⟩ := h
  have before : true ∉ bits.take start := by
    intro mem
    obtain ⟨i, hi⟩ := List.mem_iff_getElem?.mp mem
    rw [List.getElem?_take] at hi
    split at hi
    · have := hstart i hi; omega
    · cases hi
  have after : true ∉ bits.drop (start + width) := by
    intro mem
    obtain ⟨i, hi⟩ := List.mem_iff_getElem?.mp mem
    rw [List.getElem?_drop] at hi
    have := hstart _ hi
    omega
  refine ⟨(bits.take start).length, (bits.drop start).take width,
    (bits.drop (start + width)).length, ?_, List.length_take_le _ _⟩
  rw [← eq_replicate_false before, ← eq_replicate_false after, List.append_assoc,
    ← List.drop_drop, List.take_append_drop, List.take_append_drop]

theorem feed_ne_zero_of_burst {p : BitVec w} (top : p.getLsbD (w - 1) = true) {bits : List Bool}
    (hne : true ∈ bits) (h : Burst w bits) : feed p 0#w bits ≠ 0#w := by
  obtain ⟨i, window, j, rfl, short⟩ := h.split
  intro zero
  have start : feed p 0#w (List.replicate i false) = 0#w := by
    rw [feed_replicate_false, shifts_register_zero]
  rw [feed_append, feed_append, start, feed_replicate_false, feed_eq_shifts_word _ _ short,
    BitVec.zero_xor] at zero
  have empty := shifts_eq_zero top (shifts_eq_zero top zero)
  have inWindow : true ∈ window := by simpa using hne
  obtain ⟨k, hk⟩ := List.mem_iff_getElem?.mp inWindow
  have bound := (List.getElem?_eq_some_iff.mp hk).1
  have set := word_getLsbD (w := w) window k
  rw [empty, List.getD_eq_getElem?_getD, hk, decide_eq_true (by omega : k < w)] at set
  simp at set

/-! ## Weights -/

/-- The register after `n` shifts from one. -/
def power (p : BitVec w) (n : ℕ) : BitVec w := shifts p n 1#w

def exponents : List Bool → List ℕ
  | [] => []
  | b :: bits => if b then (bits.length + 1) :: exponents bits else exponents bits

/-- The sum of the powers at `exps`. -/
def powerSum (p : BitVec w) (exps : List ℕ) : BitVec w :=
  exps.foldr (fun n sum => power p n ^^^ sum) 0#w

theorem feed_eq_powerSum (p s : BitVec w) (bits : List Bool) :
    feed p s bits = shifts p bits.length s ^^^ powerSum p (exponents bits) := by
  induction bits generalizing s with
  | nil => simp [feed, exponents, powerSum]
  | cons b bits ih =>
    change feed p (shift p (s ^^^ bit b)) bits = _
    rw [ih, List.length_cons, shifts_succ, shift_xor, shifts_xor]
    cases b with
    | false => simp [bit, exponents, shift_zero]
    | true =>
      simp only [bit, exponents, if_true, powerSum, List.foldr_cons]
      rw [BitVec.xor_assoc]
      rfl

theorem exponents_length (bits : List Bool) : (exponents bits).length = bits.count true := by
  induction bits with
  | nil => rfl
  | cons b bits ih => cases b <;> simp [exponents, ih]

theorem exponents_bounds (bits : List Bool) :
    ∀ n ∈ exponents bits, 0 < n ∧ n ≤ bits.length := by
  induction bits with
  | nil => simp [exponents]
  | cons b bits ih =>
    intro n hn
    rw [List.length_cons]
    have tail : n ∈ exponents bits → 0 < n ∧ n ≤ bits.length + 1 := by
      intro h
      have := ih n h
      omega
    cases b with
    | false => exact tail (by simpa [exponents] using hn)
    | true =>
      rcases List.mem_cons.mp (by simpa [exponents] using hn) with rfl | h
      · omega
      · exact tail h

theorem exponents_pairwise (bits : List Bool) : (exponents bits).Pairwise (· > ·) := by
  induction bits with
  | nil => exact .nil
  | cons b bits ih =>
    cases b with
    | false => simpa [exponents] using ih
    | true =>
      rw [exponents, if_pos rfl, List.pairwise_cons]
      refine ⟨fun n hn => ?_, ih⟩
      have := exponents_bounds bits n hn
      omega

theorem powerSum_map_add (p : BitVec w) (exps : List ℕ) (n : ℕ) :
    powerSum p (exps.map (n + ·)) = shifts p n (powerSum p exps) := by
  induction exps with
  | nil => simp [powerSum]
  | cons m exps ih =>
    simp only [List.map_cons, powerSum, List.foldr_cons] at ih ⊢
    rw [ih, shifts_xor, power, power, shifts_add]

def parity (s : BitVec w) : ZMod 2 := ∑ i ∈ Finset.range w, if s.getLsbD i then 1 else 0

theorem parity_xor (a b : BitVec w) : parity (a ^^^ b) = parity a + parity b := by
  rw [parity, parity, parity, ← Finset.sum_add_distrib]
  refine Finset.sum_congr rfl fun i _ => ?_
  rw [BitVec.getLsbD_xor]
  cases a.getLsbD i <;> cases b.getLsbD i <;> decide

theorem parity_shiftRight (s : BitVec w) :
    parity (s >>> 1) + (if s.getLsbD 0 then 1 else 0) = parity s := by
  have tail := Finset.sum_range_succ' (fun i => if s.getLsbD i then (1 : ZMod 2) else 0) w
  rw [Finset.sum_range_succ, BitVec.getLsbD_of_ge s w (Nat.le_refl w)] at tail
  simp only [Bool.false_eq_true, if_false, add_zero] at tail
  rw [parity, parity, tail]
  congr 1
  refine Finset.sum_congr rfl fun i _ => ?_
  rw [BitVec.getLsbD_ushiftRight, Nat.add_comm]

theorem parity_shift {p : BitVec w} (odd : parity p = 1) (s : BitVec w) :
    parity (shift p s) = parity s := by
  rw [← parity_shiftRight s, shift]
  split
  · rw [parity_xor, odd]
  · simp

theorem parity_power {p : BitVec w} (odd : parity p = 1) (wpos : 0 < w) (n : ℕ) :
    parity (power p n) = 1 := by
  have all : ∀ s : BitVec w, parity (shifts p n s) = parity s := by
    induction n with
    | zero => intro s; rfl
    | succ n ih => intro s; rw [shifts_succ, ih, parity_shift odd]
  rw [power, all, parity]
  rw [Finset.sum_eq_single_of_mem 0 (by simpa using wpos)]
  · simp [wpos]
  · intro i _ hi
    simp [hi]

theorem parity_powerSum {p : BitVec w} (odd : parity p = 1) (wpos : 0 < w) (exps : List ℕ) :
    parity (powerSum p exps) = exps.length := by
  induction exps with
  | nil => simp [powerSum, parity]
  | cons n exps ih =>
    rw [powerSum, List.foldr_cons, parity_xor, parity_power odd wpos]
    change 1 + parity (powerSum p exps) = _
    rw [ih, List.length_cons, Nat.cast_add, Nat.cast_one, add_comm]

/-! ## Independence by evaluation -/

def natShift (p s : ℕ) : ℕ := if s % 2 = 1 then (s / 2) ^^^ p else s / 2

theorem shift_toNat (p s : BitVec w) : (shift p s).toNat = natShift p.toNat s.toNat := by
  unfold shift natShift
  have low : s.getLsbD 0 = decide (s.toNat % 2 = 1) := Nat.testBit_zero _
  rw [low]
  by_cases h : s.toNat % 2 = 1 <;>
    simp [h, BitVec.toNat_ushiftRight, Nat.shiftRight_eq_div_pow]

/-- `n` registers in a row, from `s`. -/
def orbit (p : ℕ) : ℕ → ℕ → List ℕ
  | 0, _ => []
  | n + 1, s => s :: orbit p n (natShift p s)

theorem orbit_getElem? (p s : BitVec w) {n i : ℕ} (h : i < n) :
    (orbit p.toNat n s.toNat)[i]? = some (shifts p i s).toNat := by
  induction n generalizing s i with
  | zero => omega
  | succ n ih =>
    rw [orbit, ← shift_toNat]
    cases i with
    | zero => rfl
    | succ i => rw [List.getElem?_cons_succ, ih (shift p s) (by omega), shifts_succ]

def bitmap (xs : List ℕ) : ℕ := xs.foldr (fun x map => (1 <<< x) ||| map) 0

theorem bitmap_testBit {xs : List ℕ} {x : ℕ} (h : x ∈ xs) : (bitmap xs).testBit x = true := by
  induction xs with
  | nil => cases h
  | cons y xs ih =>
    rw [bitmap, List.foldr_cons, Nat.testBit_or, Nat.one_shiftLeft]
    rcases List.mem_cons.mp h with rfl | tail
    · simp [Nat.testBit_two_pow_self]
    · have set : (List.foldr (fun x map => (1 <<< x) ||| map) 0 xs).testBit x = true := ih tail
      rw [set, Bool.or_true]

/-- `1 ^^^ a ^^^ b` misses the bitmap for every pair in order. -/
def pairsClear (map : ℕ) : List ℕ → Bool
  | [] => true
  | a :: rest => rest.all (fun b => !map.testBit (1 ^^^ a ^^^ b)) && pairsClear map rest

theorem pairsClear_getElem? {map : ℕ} {xs : List ℕ} (clear : pairsClear map xs = true)
    {i j x y : ℕ} (order : i < j) (hx : xs[i]? = some x) (hy : xs[j]? = some y) :
    map.testBit (1 ^^^ x ^^^ y) = false := by
  induction xs generalizing i j with
  | nil => simp at hx
  | cons a rest ih =>
    rw [pairsClear, Bool.and_eq_true, List.all_eq_true] at clear
    cases j with
    | zero => omega
    | succ j =>
      rw [List.getElem?_cons_succ] at hy
      cases i with
      | zero =>
        rw [List.getElem?_cons_zero, Option.some.injEq] at hx
        subst hx
        simpa using clear.1 y (List.mem_of_getElem? hy)
      | succ i =>
        rw [List.getElem?_cons_succ] at hx
        exact ih clear.2 (Nat.lt_of_succ_lt_succ order) hx hy

/-- The test that `Independent` holds for `n` powers. -/
def independentCheck (p n : ℕ) : Bool :=
  pairsClear (bitmap (orbit p n 1)) ((orbit p n 1).drop 1)

/-- Among the first `n` powers there is no relation of four terms that starts at one. -/
def Independent (p : BitVec w) (n : ℕ) : Prop :=
  ∀ a b c, 0 < a → a < b → b < n → c < n → 1#w ^^^ power p a ^^^ power p b ≠ power p c

theorem independent_of_check {p : BitVec w} (wide : 1 < 2 ^ w) {n : ℕ}
    (check : independentCheck p.toNat n = true) : Independent p n := by
  intro a b c apos hab hb hc relation
  have one : (1#w).toNat = 1 := Nat.mod_eq_of_lt wide
  have entry : ∀ i, i < n → (orbit p.toNat n 1)[i]? = some (power p i).toNat := by
    intro i hi
    have at1 := orbit_getElem? p 1#w hi
    rwa [one] at at1
  have tail : ∀ i, 0 < i → i < n →
      ((orbit p.toNat n 1).drop 1)[i - 1]? = some (power p i).toNat := by
    intro i hpos hi
    rw [List.getElem?_drop, show 1 + (i - 1) = i by omega]
    exact entry i hi
  have absent := pairsClear_getElem? check (show a - 1 < b - 1 by omega)
    (tail a apos (by omega)) (tail b (by omega) hb)
  have present := bitmap_testBit (List.mem_of_getElem? (entry c hc))
  have sum := congrArg BitVec.toNat relation
  rw [BitVec.toNat_xor, BitVec.toNat_xor, one] at sum
  rw [sum, present] at absent
  cases absent

theorem Independent.power_ne_one {p : BitVec w} {n : ℕ} (h : Independent p n) (three : 3 ≤ n)
    {a : ℕ} (pos : 0 < a) (less : a < n) : power p a ≠ 1#w := by
  intro one
  by_cases first : a = 1
  · subst first
    refine h 1 2 2 (by omega) (by omega) (by omega) (by omega) ?_
    rw [one, BitVec.xor_self, BitVec.zero_xor]
  · refine h 1 a 1 (by omega) (by omega) less (by omega) ?_
    rw [one, BitVec.xor_comm, ← BitVec.xor_assoc, BitVec.xor_self, BitVec.zero_xor]

theorem eq_of_xor_eq_zero {a b : BitVec w} (h : a ^^^ b = 0#w) : a = b := by
  have step : a ^^^ b ^^^ b = 0#w ^^^ b := by rw [h]
  rwa [BitVec.xor_assoc, BitVec.xor_self, BitVec.xor_zero, BitVec.zero_xor] at step

theorem powerSum_pair_ne_zero {p : BitVec w} (top : p.getLsbD (w - 1) = true) {n : ℕ}
    (h : Independent p n) (three : 3 ≤ n) {a b : ℕ} (hab : b < a) (ha : a < b + n) :
    powerSum p [a, b] ≠ 0#w := by
  intro zero
  have factored : powerSum p [a, b] = shifts p b (powerSum p [a - b, 0]) := by
    rw [← powerSum_map_add]
    simp [show b + (a - b) = a by omega]
  rw [factored] at zero
  have relation := shifts_eq_zero top zero
  simp only [powerSum, List.foldr_cons, List.foldr_nil, BitVec.xor_zero] at relation
  exact h.power_ne_one three (by omega) (by omega) (eq_of_xor_eq_zero relation)

theorem powerSum_four_ne_zero {p : BitVec w} (top : p.getLsbD (w - 1) = true) {n : ℕ}
    (h : Independent p n) {a b c d : ℕ} (hab : b < a) (hbc : c < b) (hcd : d < c)
    (ha : a < d + n) : powerSum p [a, b, c, d] ≠ 0#w := by
  intro zero
  have factored : powerSum p [a, b, c, d] = shifts p d (powerSum p [a - d, b - d, c - d, 0]) := by
    rw [← powerSum_map_add]
    simp [show d + (a - d) = a by omega, show d + (b - d) = b by omega,
      show d + (c - d) = c by omega]
  rw [factored] at zero
  have relation := shifts_eq_zero top zero
  simp only [powerSum, List.foldr_cons, List.foldr_nil, BitVec.xor_zero] at relation
  have isolated := eq_of_xor_eq_zero relation
  refine h (c - d) (b - d) (a - d) (by omega) (by omega) (by omega) (by omega) ?_
  rw [isolated]
  change power p 0 ^^^ power p (c - d) ^^^ power p (b - d) = _
  ac_rfl

theorem feed_ne_zero_of_count_le {p : BitVec w} (top : p.getLsbD (w - 1) = true)
    (odd : parity p = 1) (wpos : 0 < w) {n : ℕ} (h : Independent p n) (three : 3 ≤ n)
    {bits : List Bool} (short : bits.length ≤ n) (hne : true ∈ bits)
    (few : bits.count true ≤ 5) : feed p 0#w bits ≠ 0#w := by
  rw [feed_eq_powerSum, shifts_register_zero, BitVec.zero_xor]
  have bounds := exponents_bounds bits
  have order := exponents_pairwise bits
  have size := exponents_length bits
  have some := List.count_pos_iff.mpr hne
  have parityOf := parity_powerSum odd wpos (exponents bits)
  intro zero
  rw [zero] at parityOf
  have even : ((exponents bits).length : ZMod 2) = 0 := by
    rw [← parityOf]; simp [parity]
  rw [ZMod.natCast_eq_zero_iff] at even
  generalize exponents bits = exps at *
  match exps, size with
  | [], size => simp at size; omega
  | [_], _ => simp at even
  | [a, b], _ =>
    have ha := bounds a (by simp)
    have hb := bounds b (by simp)
    simp only [List.pairwise_cons, List.mem_cons, forall_eq_or_imp] at order
    exact powerSum_pair_ne_zero top h three order.1.1 (by omega) zero
  | [_, _, _], _ => simp only [List.length_cons, List.length_nil] at even; omega
  | [a, b, c, d], _ =>
    have ha := bounds a (by simp)
    have hd := bounds d (by simp)
    simp only [List.pairwise_cons, List.mem_cons, forall_eq_or_imp] at order
    exact powerSum_four_ne_zero top h order.1.1 order.2.1.1 order.2.2.1.1 (by omega) zero
  | [_, _, _, _, _], _ => simp only [List.length_cons, List.length_nil] at even; omega
  | _ :: _ :: _ :: _ :: _ :: _ :: _, size => simp at size; omega

end OtDetection.ShiftRegister
