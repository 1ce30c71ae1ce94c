import OtDetection.IpAddress
import Mathlib.Data.List.TakeWhile
import Mathlib.Tactic.Linarith
import Mathlib.Tactic.Positivity

/-! The range of `float` on integers, and the numbers that read back from the text that
`str` gives them. -/

namespace OtDetection.NumberText
open PyText FieldLookup PyNumber IpAddress

/-! ## The range of doubles -/

theorem le_roundHalfEven {k : ℤ} {q : ℚ} (h : k ≤ q) : k ≤ roundHalfEven q := by
  have floor : k ≤ ⌊q⌋ := Int.le_floor.mpr h
  unfold roundHalfEven
  split_ifs <;> omega

theorem roundHalfEven_le {k : ℤ} {q : ℚ} (h : q ≤ k) : roundHalfEven q ≤ k := by
  have below : ⌊q⌋ ≤ k := Int.floor_le_iff.mpr (by linarith)
  by_cases whole : ⌊q⌋ = k
  · have exact : q = ⌊q⌋ := le_antisymm (by rw [whole]; exact h) (Int.floor_le q)
    rw [roundHalfEven, if_pos (by rw [← exact]; norm_num)]
    exact below
  · unfold roundHalfEven
    split_ifs <;> omega

theorem roundHalfEven_mono {p q : ℚ} (h : p ≤ q) : roundHalfEven p ≤ roundHalfEven q := by
  rcases (Int.floor_mono h).eq_or_lt with same | less
  · -- In one unit interval a larger number is rounded up if a smaller one is.
    unfold roundHalfEven
    rw [same]
    split_ifs <;> first | omega | linarith
  · have next : roundHalfEven p ≤ ⌊p⌋ + 1 := by
      unfold roundHalfEven
      split_ifs <;> omega
    exact next.trans (less.trans_le (le_roundHalfEven (Int.floor_le q)))

theorem le_roundHalfEven_iff {k : ℤ} (even : k % 2 = 0) (q : ℚ) :
    k ≤ roundHalfEven q ↔ k - 1 / 2 ≤ q := by
  have lower := Int.floor_le q
  have upper := Int.lt_floor_add_one q
  rcases lt_trichotomy (⌊q⌋ + 1) k with below | next | above
  · have bound : (⌊q⌋ : ℚ) + 1 + 1 ≤ k := by exact_mod_cast below
    have rounded : roundHalfEven q ≤ ⌊q⌋ + 1 := by
      unfold roundHalfEven
      split_ifs <;> omega
    exact iff_of_false (by omega) (by linarith)
  · have value : (⌊q⌋ : ℚ) + 1 = k := by exact_mod_cast next
    unfold roundHalfEven
    split_ifs with near far tie
    · exact iff_of_false (by omega) (by linarith)
    · exact iff_of_true (by omega) (by linarith)
    · omega
    · exact iff_of_true (by omega) (by linarith)
  · have bound : (k : ℚ) ≤ ⌊q⌋ := by exact_mod_cast Int.lt_add_one_iff.mp above
    exact iff_of_true (le_roundHalfEven (bound.trans lower)) (by linarith)

/-- The least number that rounds out of the range of doubles. -/
def floatEnd : ℚ := 2 ^ 1024 - 2 ^ 970

theorem two_zpow_pos (n : ℤ) : (0 : ℚ) < 2 ^ n := zpow_pos two_pos n

theorem two_zpow_le {m n : ℤ} (h : m ≤ n) : (2 : ℚ) ^ m ≤ 2 ^ n := zpow_le_zpow_right₀ one_le_two h

theorem two_zpow_split (m n : ℤ) : (2 : ℚ) ^ m = 2 ^ (m - n) * 2 ^ n := by
  rw [← zpow_add₀ two_ne_zero, sub_add_cancel]

/-- A power of two on the grid bounds the rounded number if it bounds the number. -/
theorem nearestDouble_le {q : ℚ} {n : ℕ} (le : q ≤ 2 ^ (n : ℤ)) (log : Int.log 2 q - 52 ≤ n) :
    nearestDouble q ≤ 2 ^ (n : ℤ) := by
  obtain ⟨k, grid⟩ : ∃ k : ℕ, (n : ℤ) - max (Int.log 2 q - 52) (-1074) = k :=
    Int.eq_ofNat_of_zero_le (by omega)
  have ulp := two_zpow_pos (max (Int.log 2 q - 52) (-1074))
  have split := two_zpow_split n (max (Int.log 2 q - 52) (-1074))
  rw [grid] at split
  have scaled : q / 2 ^ max (Int.log 2 q - 52) (-1074) ≤ ((2 ^ k : ℤ) : ℚ) := by
    rw [div_le_iff₀ ulp]
    push_cast
    rw [← zpow_natCast, ← split]
    exact le
  have rounded : ((roundHalfEven (q / 2 ^ max (Int.log 2 q - 52) (-1074)) : ℤ) : ℚ) ≤
      ((2 ^ k : ℤ) : ℚ) := by exact_mod_cast roundHalfEven_le scaled
  rw [nearestDouble, split]
  refine mul_le_mul_of_nonneg_right (rounded.trans_eq ?_) ulp.le
  push_cast
  rw [zpow_natCast]

theorem le_nearestDouble {q : ℚ} (positive : 0 < q) (log : -1022 ≤ Int.log 2 q) :
    2 ^ Int.log 2 q ≤ nearestDouble q := by
  have lower : (2 : ℚ) ^ Int.log 2 q ≤ q := by
    exact_mod_cast Int.zpow_log_le_self one_lt_two positive
  have split := two_zpow_split (Int.log 2 q) (Int.log 2 q - 52)
  have ulp := two_zpow_pos (Int.log 2 q - 52)
  rw [sub_sub_cancel] at split
  have scaled : ((2 ^ 52 : ℤ) : ℚ) ≤ q / 2 ^ (Int.log 2 q - 52) := by
    rw [le_div_iff₀ ulp]
    refine le_trans (le_of_eq ?_) lower
    rw [split]
    norm_num
  have rounded : ((2 ^ 52 : ℤ) : ℚ) ≤ roundHalfEven (q / 2 ^ (Int.log 2 q - 52)) := by
    exact_mod_cast le_roundHalfEven scaled
  rw [nearestDouble, max_eq_left (by omega), split]
  refine mul_le_mul_of_nonneg_right (le_trans (le_of_eq ?_) rounded) ulp.le
  norm_num

theorem two_pow_le_floatEnd : 2 ^ 1023 ≤ floatEnd := by
  have double : (2 : ℚ) ^ 1024 = 2 * 2 ^ 1023 := pow_succ' 2 1023
  have gap : (2 : ℚ) ^ 970 ≤ 2 ^ 1023 := pow_le_pow_right₀ one_le_two (by norm_num)
  rw [floatEnd, double, two_mul, add_sub_assoc]
  exact le_add_of_nonneg_right (sub_nonneg.mpr gap)

theorem le_nearestDouble_iff {q : ℚ} (positive : 0 < q) :
    2 ^ 1024 ≤ nearestDouble q ↔ floatEnd ≤ q := by
  have lower : (2 : ℚ) ^ Int.log 2 q ≤ q := by
    exact_mod_cast Int.zpow_log_le_self one_lt_two positive
  have upper : q < (2 : ℚ) ^ (Int.log 2 q + 1) := by
    exact_mod_cast Int.lt_zpow_succ_log_self one_lt_two q
  rcases lt_trichotomy (Int.log 2 q) 1023 with small | middle | large
  · have below : q < 2 ^ ((1023 : ℕ) : ℤ) := upper.trans_le (two_zpow_le (by omega))
    have rounded := nearestDouble_le below.le (by omega)
    rw [zpow_natCast] at below rounded
    have next : (2 : ℚ) ^ 1023 < 2 ^ 1024 := pow_lt_pow_right₀ one_lt_two (by norm_num)
    exact iff_of_false (rounded.trans_lt next).not_ge (below.trans_le two_pow_le_floatEnd).not_ge
  · have ulp : (0 : ℚ) < 2 ^ 971 := by positivity
    have half : (2 : ℚ) ^ 971 = 2 * 2 ^ 970 := pow_succ' 2 970
    have split : (2 : ℚ) ^ 1024 = (2 ^ 53 : ℤ) * 2 ^ 971 := by
      rw [Int.cast_pow, Int.cast_ofNat]
      exact pow_add 2 53 971
    have scale : (2 : ℚ) ^ (971 : ℤ) = 2 ^ 971 := zpow_natCast 2 971
    have rounded : nearestDouble q = roundHalfEven (q / 2 ^ 971) * 2 ^ 971 := by
      rw [nearestDouble, middle, show max ((1023 : ℤ) - 52) (-1074) = 971 by norm_num, scale]
    calc 2 ^ 1024 ≤ nearestDouble q
        ↔ ((2 ^ 53 : ℤ) : ℚ) ≤ roundHalfEven (q / 2 ^ 971) := by
          rw [rounded, split, mul_le_mul_iff_left₀ ulp]
      _ ↔ ((2 ^ 53 : ℤ) : ℚ) - 1 / 2 ≤ q / 2 ^ 971 := by
          rw [← le_roundHalfEven_iff (by norm_num), Int.cast_le]
      _ ↔ (((2 ^ 53 : ℤ) : ℚ) - 1 / 2) * 2 ^ 971 ≤ q := le_div_iff₀ ulp
      _ ↔ floatEnd ≤ q := by
          have value : (((2 ^ 53 : ℤ) : ℚ) - 1 / 2) * 2 ^ 971 = floatEnd := by
            rw [floatEnd, sub_mul, ← split, half, one_div, inv_mul_cancel_left₀ two_ne_zero]
          rw [value]
  · have above : (2 : ℚ) ^ 1024 ≤ 2 ^ Int.log 2 q := by
      rw [← zpow_natCast]
      exact two_zpow_le (by omega)
    have rounded := le_nearestDouble positive (by omega)
    have floatEnd_le : floatEnd ≤ 2 ^ 1024 := sub_le_self _ (by positivity)
    exact iff_of_true (above.trans rounded) (floatEnd_le.trans (above.trans lower))

/-- `float(n)` overflows from the end of the range on. -/
theorem roundDouble_isSome_iff (q : ℚ) : (roundDouble q).isSome ↔ |q| < floatEnd := by
  by_cases zero : q = 0
  · have positive : 0 < floatEnd := lt_of_lt_of_le (by positivity) two_pow_le_floatEnd
    rw [roundDouble, if_pos zero, zero, abs_zero]
    exact iff_of_true rfl positive
  · have bound := le_nearestDouble_iff (abs_pos.mpr zero)
    rw [roundDouble, if_neg zero]
    by_cases out : 2 ^ 1024 ≤ nearestDouble |q|
    · rw [if_pos out]
      exact iff_of_false Bool.false_ne_true (bound.mp out).not_gt
    · rw [if_neg out]
      exact iff_of_true rfl (not_le.mp fun above => out (bound.mpr above))

theorem roundHalfEven_intCast (k : ℤ) : roundHalfEven k = k :=
  le_antisymm (roundHalfEven_le le_rfl) (le_roundHalfEven le_rfl)

/-- A double has every digit of a number below `2 ^ 53`. -/
theorem nearestDouble_natCast {n : ℕ} (positive : 0 < n) (small : n < 2 ^ 53) :
    nearestDouble n = n := by
  have log : Int.log 2 ((n : ℕ) : ℚ) = Nat.log 2 n := Int.log_natCast 2 n
  have short : Nat.log 2 n < 53 := Nat.log_lt_of_lt_pow positive.ne' small
  obtain ⟨k, grid⟩ : ∃ k : ℕ, (Nat.log 2 n : ℤ) - 52 = -(k : ℤ) :=
    ⟨52 - Nat.log 2 n, by omega⟩
  have scaled : ((n : ℕ) : ℚ) / 2 ^ (-(k : ℤ)) = ((n * 2 ^ k : ℤ) : ℚ) := by
    rw [zpow_neg, div_inv_eq_mul, zpow_natCast]
    push_cast
    rfl
  rw [nearestDouble, log, grid, max_eq_left (by omega), scaled, roundHalfEven_intCast, ← scaled,
    div_mul_cancel₀ _ (two_zpow_pos _).ne']

theorem roundDouble_intCast {n : ℤ} (small : n.natAbs < 2 ^ 53) : roundDouble n = some (n : ℚ) := by
  by_cases zero : n = 0
  · rw [zero]
    exact if_pos rfl
  · have positive : 0 < n.natAbs := Int.natAbs_pos.mpr zero
    have size : |(n : ℚ)| = (n.natAbs : ℕ) := by rw [Nat.cast_natAbs, Int.cast_abs]
    have exact := nearestDouble_natCast positive small
    have below : ¬ (2 : ℚ) ^ 1024 ≤ (n.natAbs : ℕ) := by
      rw [not_le]
      calc ((n.natAbs : ℕ) : ℚ) < ((2 ^ 53 : ℕ) : ℚ) := Nat.cast_lt.mpr small
        _ = 2 ^ 53 := by norm_num
        _ ≤ 2 ^ 1024 := pow_le_pow_right₀ one_le_two (by norm_num)
    rw [roundDouble, if_neg (Int.cast_ne_zero.mpr zero), size, exact, if_neg below,
      Option.some.injEq, ← size]
    split_ifs with negative
    · rw [abs_of_neg negative, neg_neg]
    · rw [abs_of_nonneg (not_lt.mp negative)]

/-- A number beyond `2 ^ 53` does not round below it. -/
theorem roundDouble_eq_intCast_iff {n m : ℤ} {q : ℚ} (rounded : roundDouble n = some q)
    (small : m.natAbs < 2 ^ 53) : q = m ↔ n = m := by
  by_cases fits : n.natAbs < 2 ^ 53
  · rw [roundDouble_intCast fits, Option.some.injEq] at rounded
    rw [← rounded, Int.cast_inj]
  · have size : |(n : ℚ)| = (n.natAbs : ℕ) := by rw [Nat.cast_natAbs, Int.cast_abs]
    have positive : 0 < n.natAbs := by omega
    have log : (53 : ℤ) ≤ Int.log 2 ((n.natAbs : ℕ) : ℚ) := by
      rw [Int.log_natCast, Nat.ofNat_le_cast]
      exact Nat.le_log_of_pow_le one_lt_two (not_lt.mp fits)
    have large := le_nearestDouble (Nat.cast_pos.mpr positive) (by omega)
    have bound : (2 : ℚ) ^ (53 : ℤ) ≤ |q| := by
      refine (two_zpow_le log).trans (large.trans ?_)
      rw [roundDouble, if_neg (Int.cast_ne_zero.mpr (by omega)), size] at rounded
      split_ifs at rounded
      · rw [← Option.some.inj rounded, abs_neg]
        exact le_abs_self _
      · rw [← Option.some.inj rounded]
        exact le_abs_self _
    refine iff_of_false (fun same => ?_) fun same => fits (same ▸ small)
    have below : |q| < 2 ^ (53 : ℤ) := by
      rw [same, ← Int.cast_abs, ← Nat.cast_natAbs]
      exact_mod_cast small
    exact absurd bound below.not_ge

/-! ## The text of an integer -/

theorem isDigit_of_mem_natText {n c : ℕ} (h : c ∈ natText n) : isDigit c = true := by
  obtain ⟨d, mem, rfl⟩ := List.mem_map.mp h
  have digit := Nat.isDigit_of_mem_toDigits (by norm_num) (by norm_num) mem
  simp only [Char.isDigit, Bool.and_eq_true, decide_eq_true_eq, UInt32.le_iff_toNat_le] at digit
  exact decide_eq_true digit

theorem natText_ne_nil (n : ℕ) : natText n ≠ [] := by
  rw [natText, ne_eq, List.map_eq_nil_iff]
  exact Nat.toDigits_ne_nil

theorem digitsValue_natText (n : ℕ) : digitsValue (natText n) = n := by
  rw [digitsValue, natText, List.foldl_map]
  exact Nat.ofDigitChars_eq_foldl.symm.trans Nat.ofDigitChars_ten_toDigits

theorem length_natText_le_iff {n k : ℕ} (some_digit : 0 < k) :
    (natText n).length ≤ k ↔ n < 10 ^ k := by
  rw [natText, List.length_map, Nat.length_toDigits_le_iff (by decide) some_digit]

/-- A character of the text of an integer. -/
def IsIntChar (c : ℕ) : Prop := c = 0x2D ∨ isDigit c = true

theorem isIntChar_of_mem_intText {n : ℤ} {c : ℕ} (h : c ∈ intText n) : IsIntChar c := by
  rcases List.mem_append.mp h with minus | digit
  · refine .inl ?_
    unfold sign at minus
    split_ifs at minus
    · exact List.mem_singleton.mp minus
    · exact absurd minus List.not_mem_nil
  · exact .inr (isDigit_of_mem_natText digit)

theorem intText_ne (n : ℤ) {word : Text} {c : ℕ} (mem : c ∈ word) (h : ¬ IsIntChar c) :
    intText n ≠ word := by
  rintro rfl
  exact h (isIntChar_of_mem_intText mem)

instance (c : ℕ) : Decidable (IsIntChar c) := inferInstanceAs (Decidable (_ ∨ _))

theorem IsIntChar.bounds {c : ℕ} (h : IsIntChar c) : c = 0x2D ∨ 0x30 ≤ c ∧ c ≤ 0x39 := by
  simpa [IsIntChar, isDigit] using h

/-! ## What the readers leave alone -/

section Strip

variable {α : Type} {space : α → Bool}

theorem stripBy_letter (front : List α) {c : α} (letter : space c = false) {pad : List α}
    (padded : ∀ d ∈ pad, space d = true) :
    stripBy space (front ++ c :: pad) = front.dropWhile space ++ [c] := by
  have starts : (c :: pad).dropWhile space = c :: pad := by
    rw [List.dropWhile_cons, letter]
    rfl
  have behind : (front ++ c :: pad).dropWhile space = front.dropWhile space ++ c :: pad := by
    rw [List.dropWhile_append, starts]
    split_ifs with nothing
    · rw [List.isEmpty_iff.mp nothing, List.nil_append]
    · rfl
  have blank : ∀ d ∈ pad.reverse, space d = true :=
    fun d mem => padded d (List.mem_reverse.mp mem)
  rw [stripBy, behind, List.reverse_append, List.reverse_cons, List.append_assoc,
    List.dropWhile_append_of_pos blank, List.singleton_append, List.dropWhile_cons, letter,
    if_neg Bool.false_ne_true, List.reverse_cons, List.reverse_reverse]

theorem stripBy_eq_self {text : List α} (h : ∀ c ∈ text, space c = false) :
    stripBy space text = text := by
  have kept : ∀ rest : List α, (∀ c ∈ rest, space c = false) → rest.dropWhile space = rest := by
    intro rest none
    cases rest with
    | nil => rfl
    | cons c rest => rw [List.dropWhile_cons, none c List.mem_cons_self, if_neg (by simp)]
  rw [stripBy, kept text h, kept _ (by simpa using h), List.reverse_reverse]

end Strip

theorem dropUnderscores_eq_some {text : Text} (h : ∀ c ∈ text, c ≠ 0x5F) {previous : ℕ}
    (start : previous ≠ 0x5F) : dropUnderscores previous text = some text := by
  induction text generalizing previous with
  | nil => rw [dropUnderscores, if_neg start]
  | cons c text ih =>
    have first := h c List.mem_cons_self
    have later := ih (fun d mem => h d (List.mem_cons_of_mem c mem)) first
    rw [dropUnderscores, if_neg first, if_neg (by simp [start]), later]
    rfl

theorem map_eq_self {f : ℕ → ℕ} {text : Text} (h : ∀ c ∈ text, f c = c) : text.map f = text :=
  (List.map_congr_left h).trans (List.map_id text)

theorem strip_intText (n : ℤ) : strip (intText n) = intText n := by
  refine stripBy_eq_self fun c mem => ?_
  have bounds := (isIntChar_of_mem_intText mem).bounds
  simp only [isSpace, decide_eq_false_iff_not]
  omega

theorem numeral_eq_self (unicode : Unicode) {text : Text}
    (plain : ∀ c ∈ text, c = 0x2E ∨ IsIntChar c) : numeral unicode text = text := by
  have bounds {c : ℕ} (mem : c ∈ text) : c = 0x2D ∨ c = 0x2E ∨ 0x30 ≤ c ∧ c ≤ 0x39 := by
    rcases plain c mem with point | inside
    · exact .inr (.inl point)
    · exact inside.bounds.imp_right .inr
  have ascii : text.map (toAscii unicode) = text := map_eq_self fun c mem => by
    have range := bounds mem
    exact if_pos (by omega)
  rw [numeral, ascii]
  refine stripBy_eq_self fun c mem => ?_
  have range := bounds mem
  simp only [isAsciiSpace, decide_eq_false_iff_not]
  omega

theorem numeral_intText (unicode : Unicode) (n : ℤ) : numeral unicode (intText n) = intText n :=
  numeral_eq_self unicode fun _ mem => .inr (isIntChar_of_mem_intText mem)

theorem signed_sign (negative : Bool) {rest : Text} (digit : ∀ c ∈ rest.head?, isDigit c = true) :
    signed (sign negative ++ rest) = (negative, rest) := by
  cases negative with
  | true => rfl
  | false =>
    cases rest with
    | nil => rfl
    | cons c rest =>
      have bounds := digit c rfl
      have notSign : c ≠ 0x2D ∧ c ≠ 0x2B := by
        rw [isDigit, decide_eq_true_eq] at bounds
        omega
      rw [sign, if_neg Bool.false_ne_true, List.nil_append]
      unfold signed
      split
      · rename_i head
        exact absurd (List.cons.inj head).1 notSign.1
      · rename_i head
        exact absurd (List.cons.inj head).1 notSign.2
      · rfl

theorem signed_intText (n : ℤ) : signed (intText n) = (decide (n < 0), natText n.natAbs) :=
  signed_sign _ fun _ mem => isDigit_of_mem_natText (List.mem_of_mem_head? mem)

theorem readDecimal_natText (n : ℕ) : readDecimal (natText n) = some (n : ℚ) := by
  have digits : ∀ c ∈ natText n, isDigit c = true := fun c mem => isDigit_of_mem_natText mem
  have value : ((digitsValue (natText n) : ℕ) : ℚ) * 10 ^ ((0 : ℤ) - ((0 : ℕ) : ℤ)) = n := by
    rw [digitsValue_natText]
    simp
  simp only [readDecimal, List.takeWhile_eq_self_iff.mpr digits,
    List.dropWhile_eq_nil_iff.mpr digits, readFraction, readExponent, List.append_nil,
    List.length_nil, Option.bind_eq_bind, Option.bind_some, value]
  exact if_neg (natText_ne_nil n)

theorem natText_ne (n : ℕ) {word : Text} {c : ℕ} (mem : c ∈ word) (h : isDigit c = false) :
    natText n ≠ word := by
  rintro rfl
  exact absurd (isDigit_of_mem_natText mem) (by simp [h])

theorem lowerAscii_eq_self {c : ℕ} (h : IsIntChar c) : lowerAscii c = c := by
  have bounds := h.bounds
  exact if_neg (by omega)

theorem signed_natAbs (n : ℤ) :
    (if decide (n < 0) = true then -((n.natAbs : ℕ) : ℚ) else (n.natAbs : ℕ)) = n := by
  rw [Nat.cast_natAbs]
  by_cases negative : n < 0
  · rw [if_pos (decide_eq_true negative), abs_of_neg negative]
    simp
  · rw [if_neg (by simpa using negative), abs_of_nonneg (not_lt.mp negative)]

theorem floatOfText_intText (unicode : Unicode) (n : ℤ) :
    floatOfText unicode (intText n) = some (toDouble (decide (n < 0)) n) := by
  have underscores : dropUnderscores 0 (intText n) = some (intText n) := by
    refine dropUnderscores_eq_some (fun c mem => ?_) (by norm_num)
    have bounds := (isIntChar_of_mem_intText mem).bounds
    omega
  rw [floatOfText, numeral_intText, underscores, Option.bind_some, readDouble, signed_intText]
  have inf : natText n.natAbs ≠ codes "inf" := natText_ne _ (c := 0x69) (by decide) (by decide)
  have infinity : natText n.natAbs ≠ codes "infinity" :=
    natText_ne _ (c := 0x69) (by decide) (by decide)
  have nan : natText n.natAbs ≠ codes "nan" := natText_ne _ (c := 0x61) (by decide) (by decide)
  have lowered : (natText n.natAbs).map lowerAscii = natText n.natAbs :=
    map_eq_self fun c mem => lowerAscii_eq_self (.inr (isDigit_of_mem_natText mem))
  simp only [lowered, readDecimal_natText, Option.map_some, signed_natAbs, inf, infinity,
    nan, or_self, if_false]

theorem IsIntChar.ne {c d : ℕ} (h : IsIntChar c) (other : ¬ IsIntChar d) : c ≠ d := by
  rintro rfl
  exact other h

theorem floatOfText_point (unicode : Unicode) (negative : Bool) {whole fraction : Text}
    (some_whole : whole ≠ []) (wholeDigits : ∀ c ∈ whole, isDigit c = true)
    (digits : ∀ c ∈ fraction, isDigit c = true) {size : ℚ}
    (value : digitsValue (whole ++ fraction) * 10 ^ (0 - (fraction.length : ℤ)) = size) :
    floatOfText unicode (sign negative ++ (whole ++ 0x2E :: fraction)) =
      some (toDouble negative (if negative then -size else size)) := by
  have plain : ∀ c ∈ sign negative ++ (whole ++ 0x2E :: fraction), c = 0x2E ∨ IsIntChar c := by
    intro c mem
    rcases List.mem_append.mp mem with minus | rest
    · cases negative
      · cases minus
      · exact .inr (.inl (List.mem_singleton.mp minus))
    · rcases List.mem_append.mp rest with front | point
      · exact .inr (.inr (wholeDigits c front))
      · rcases List.mem_cons.mp point with point | behind
        · exact .inl point
        · exact .inr (.inr (digits c behind))
  have underscores := @dropUnderscores_eq_some (sign negative ++ (whole ++ 0x2E :: fraction))
    (fun c mem => by
      rcases plain c mem with rfl | inside
      · decide
      · exact inside.ne (by decide)) 0 (by decide)
  have head : ∀ c ∈ (whole ++ 0x2E :: fraction).head?, isDigit c = true := by
    rw [List.head?_append_of_ne_nil _ some_whole]
    exact fun c mem => wholeDigits c (List.mem_of_mem_head? mem)
  have word (text : Text) (long : 0x2E ∉ text) :
      (whole ++ 0x2E :: fraction).map lowerAscii ≠ text := by
    rintro rfl
    refine long (List.mem_map.mpr ⟨0x2E, ?_, by decide⟩)
    exact List.mem_append_right whole List.mem_cons_self
  have point : ¬ isDigit 0x2E = true := by decide
  have taken : (whole ++ 0x2E :: fraction).takeWhile isDigit = whole := by
    rw [List.takeWhile_append_of_pos wholeDigits, List.takeWhile_cons, if_neg point,
      List.append_nil]
  have left : (whole ++ 0x2E :: fraction).dropWhile isDigit = 0x2E :: fraction := by
    rw [List.dropWhile_append_of_pos wholeDigits, List.dropWhile_cons, if_neg point]
  have some_digit : whole ++ fraction ≠ [] := fun none =>
    some_whole (List.append_eq_nil_iff.mp none).1
  rw [floatOfText, numeral_eq_self unicode plain, underscores, Option.bind_some, readDouble,
    signed_sign negative head]
  simp only [word (codes "inf") (by decide), word (codes "infinity") (by decide),
    word (codes "nan") (by decide), or_self, if_false, readDecimal, taken, left,
    readFraction, List.takeWhile_eq_self_iff.mpr digits, List.dropWhile_eq_nil_iff.mpr digits,
    readExponent, Option.bind_eq_bind, Option.bind_some, some_digit, Option.map_some, value]

theorem digitsValue_zeros (digits : Text) (k : ℕ) :
    digitsValue (digits ++ List.replicate k 0x30) = digitsValue digits * 10 ^ k := by
  induction k with
  | zero => rw [List.replicate_zero, List.append_nil, pow_zero, mul_one]
  | succ k ih =>
    have zero (n : ℕ) : 10 * n + (0x30 - 0x30) = n * 10 := Nat.mul_comm 10 n
    rw [digitsValue] at ih
    rw [List.replicate_succ', ← List.append_assoc, digitsValue, List.foldl_append, ih,
      List.foldl_cons, List.foldl_nil, zero, pow_succ, mul_assoc]

/-- `float` of a whole number with zeros behind the point. -/
theorem floatOfText_whole (unicode : Unicode) {n : ℤ} (small : n.natAbs < 2 ^ 53) (k : ℕ) :
    floatOfText unicode (intText n ++ 0x2E :: List.replicate k 0x30) =
      some (.finite (n : ℚ)) := by
  have zeros : ∀ c ∈ List.replicate k 0x30, isDigit c = true := by
    intro c mem
    rw [List.eq_of_mem_replicate mem]
    rfl
  have size : ((digitsValue (natText n.natAbs ++ List.replicate k 0x30) : ℕ) : ℚ) *
      10 ^ ((0 : ℤ) - ((List.replicate k 0x30).length : ℤ)) = (n.natAbs : ℕ) := by
    rw [digitsValue_zeros, digitsValue_natText, List.length_replicate, zero_sub, zpow_neg,
      zpow_natCast, Nat.cast_mul, Nat.cast_pow]
    exact mul_inv_cancel_right₀ (by positivity) _
  have read := floatOfText_point unicode (decide (n < 0)) (natText_ne_nil n.natAbs)
    (fun c mem => isDigit_of_mem_natText mem) zeros size
  rw [signed_natAbs, toDouble, roundDouble_intCast small] at read
  rw [intText, List.append_assoc]
  exact read

/-- `int` of the digits of a number, of which it takes 4300. -/
theorem intOfText_natText (unicode : Unicode) (n : ℕ) :
    intOfText unicode (natText n) = if (natText n).length ≤ 4300 then some (n : ℤ) else none := by
  have digits : ∀ c ∈ natText n, isDigit c = true := fun c mem => isDigit_of_mem_natText mem
  have unsigned := signed_sign false fun c mem => digits c (List.mem_of_mem_head? mem)
  have underscores := @dropUnderscores_eq_some (natText n)
    (fun c mem => IsIntChar.ne (.inr (digits c mem)) (by decide)) 0 (by decide)
  rw [sign, if_neg Bool.false_ne_true, List.nil_append] at unsigned
  simp only [intOfText, numeral_eq_self unicode fun c mem => .inr (.inr (digits c mem)), unsigned,
    underscores, Option.bind_eq_bind, Option.bind_some, digitsValue_natText, ne_eq,
    natText_ne_nil n, not_false_eq_true, List.all_eq_true.mpr digits, true_and,
    Bool.false_eq_true, if_false]

/-! ## Addresses -/

theorem number4_eq_none {text : Text} (h : 0x2E ∉ text) : number4 text = none := by
  rw [number4, List.splitOn_eq_singleton h]
  cases octet : octet4 text with
  | none => simp [octet]
  | some value => simp [octet]

theorem parts6_eq_none {text : Text} (h : 0x3A ∉ text) : parts6 text = none := by
  rw [parts6, List.splitOn_eq_singleton h]
  rfl

theorem mem_of_splitScope {text address : Text} (h : splitScope text = some address) {c : ℕ}
    (mem : c ∈ address) : c ∈ text := by
  have joined := @List.intercalate_splitOn ℕ text _ _ 0x25
  unfold splitScope at h
  split at h
  · rename_i whole parts
    obtain rfl : whole = address := Option.some.inj h
    rw [parts] at joined
    simpa [← joined] using mem
  · rename_i front scope parts
    split_ifs at h
    obtain rfl : front = address := Option.some.inj h
    rw [parts] at joined
    simp [← joined, mem]
  · cases h

theorem ipAddress_eq_none {text : Text} (point : 0x2E ∉ text) (colon : 0x3A ∉ text) :
    ipAddress text = none := by
  rw [ipAddress, number4_eq_none point]
  by_cases slash : 0x2F ∈ text
  · exact if_pos slash
  · rw [if_neg slash]
    cases scope : splitScope text with
    | none => rfl
    | some address =>
      have part : 0x3A ∉ address := fun mem => colon (mem_of_splitScope scope mem)
      rw [Option.bind_some, number6, parts6_eq_none part]
      rfl

end OtDetection.NumberText
