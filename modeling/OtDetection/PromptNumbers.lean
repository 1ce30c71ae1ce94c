import OtDetection.JsonDumps
import OtDetection.JsonNumber
import OtDetection.NumberText

/-! The numbers of a prompt as JSON. The text of a float is a JSON number in each of its layouts,
and it is short, because a float has few digits and a small exponent. -/

namespace OtDetection.TriagePrompt
open PyText JsonText JsonDumps

/-- The shortest digits of a float: one to seventeen, no leading zero but that of zero itself,
and the range of doubles. -/
structure ShortestDigits (digits : List (Fin 10)) (point : ℤ) : Prop where
  some_digits : digits ≠ []
  leading : digits.head? = some 0 → digits = [0] ∧ point = 1
  few : digits.length ≤ 17
  low : -323 ≤ point
  high : point ≤ 309

def IsFloat : PyFloat → Prop
  | .finite _ digits point => ShortestDigits digits point
  | _ => True

/-! ## Digits -/

theorem isDigit_digit : ∀ d : Fin 10, isDigit (Char.ofNat (48 + d.val)) = true := by decide

theorem digit_eq_zero : ∀ d : Fin 10, Char.ofNat (48 + d.val) = '0' → d = 0 := by decide

theorem digits_digitsText {digits : List (Fin 10)} (some_digits : digits ≠ []) :
    Digits (asChars (digitsText digits)) := by
  refine ⟨?_, fun c mem => ?_⟩
  · simpa [asChars, digitsText] using some_digits
  · rw [asChars, digitsText, List.map_map] at mem
    obtain ⟨d, -, rfl⟩ := List.mem_map.mp mem
    exact isDigit_digit d

theorem digits_zero : Digits (asChars (codes "0")) :=
  @digits_digitsText [0] (List.cons_ne_nil 0 [])

theorem head_digitsText {digits : List (Fin 10)}
    (zero : (asChars (digitsText digits)).head? = some '0') : digits.head? = some 0 := by
  cases digits with
  | nil => cases zero
  | cons d digits =>
    rw [List.head?_cons, digit_eq_zero d (Option.some.inj zero)]

theorem length_digitsText (digits : List (Fin 10)) :
    (digitsText digits).length = digits.length := List.length_map _

theorem length_zero : (codes "0").length = 1 := rfl

theorem length_point : (codes ".").length = 1 := rfl

theorem length_point_zero : (codes ".0").length = 2 := rfl

theorem length_asChars (text : Text) : (asChars text).length = text.length := List.length_map _

theorem digits_natText (n : ℕ) : Digits (asChars (natText n)) := by
  rw [asChars_natText]
  exact ⟨Nat.toDigits_ne_nil, fun c mem => isDigit_of_mem_toDigits mem⟩

/-! ## Layouts -/

/-- A JSON number of few characters. -/
def IsNumeral (negative : Bool) (text : Text) : Prop :=
  ∃ whole fraction exponent : Text, text = sign negative ++ (whole ++ (fraction ++ exponent)) ∧
    IsNumber negative (asChars whole) (asChars fraction) (asChars exponent) ∧
    whole.length + fraction.length + exponent.length ≤ 25

/-- The digits of an exponent, two at least. -/
def exponentDigits (e : ℤ) : Text := (if e.natAbs < 10 then codes "0" else []) ++ natText e.natAbs

theorem digits_exponentDigits (e : ℤ) : Digits (asChars (exponentDigits e)) := by
  have later := digits_natText e.natAbs
  rw [exponentDigits, asChars_append]
  refine ⟨fun none => later.1 (List.append_eq_nil_iff.mp none).2, fun c mem => ?_⟩
  rcases List.mem_append.mp mem with zero | mem
  · split_ifs at zero with small
    · rw [List.mem_singleton.mp zero]
      rfl
    · cases zero
  · exact later.2 c mem

theorem exponentText_eq (e : ℤ) :
    exponentText e = 0x65 :: (if e < 0 then 0x2D else 0x2B) :: exponentDigits e := by
  rw [exponentText, exponentDigits]
  split_ifs with negative small
  all_goals rfl

theorem exponent_exponentText (e : ℤ) : Exponent (asChars (exponentText e)) := by
  rw [exponentText_eq, asChars_cons, asChars_cons]
  refine .signed ?_ (digits_exponentDigits e)
  split_ifs with negative
  · exact .inr rfl
  · exact .inl rfl

theorem length_exponentText {e : ℤ} (small : e.natAbs < 1000) : (exponentText e).length ≤ 6 := by
  have digits : (natText e.natAbs).length ≤ 3 :=
    (NumberText.length_natText_le_iff (by decide)).mpr small
  rw [exponentText_eq, exponentDigits, List.length_cons, List.length_cons, List.length_append]
  split_ifs with short
  · rw [length_zero]
    omega
  · rw [List.length_nil]
    omega

theorem fraction_point {digits : List (Fin 10)} (some_digits : digits ≠ []) :
    Fraction (asChars (codes "." ++ digitsText digits)) :=
  .point (digits_digitsText some_digits)

variable (negative : Bool) {digits : List (Fin 10)} {point : ℤ}

theorem numeral_scientific (h : ShortestDigits digits point) :
    IsNumeral negative (sign negative ++ (digitsText (digits.take 1) ++
      (if digits.length ≤ 1 then [] else codes "." ++ digitsText (digits.drop 1)) ++
        exponentText (point - 1))) := by
  have few := h.few
  have low := h.low
  have high := h.high
  have some_digits := List.length_pos_iff.mpr h.some_digits
  have exponent := @length_exponentText (point - 1) (by omega)
  have one : (digits.take 1).length = 1 := by
    rw [List.length_take]
    omega
  refine ⟨digitsText (digits.take 1), _, exponentText (point - 1),
    congrArg (sign negative ++ ·) (List.append_assoc _ _ _),
    ⟨⟨digits_digitsText ?_, fun _ => ?_⟩, ?_, exponent_exponentText _⟩, ?_⟩
  · exact List.length_pos_iff.mp (by omega)
  · rw [length_asChars, length_digitsText, one]
  · split_ifs with single
    · exact .absent
    · refine fraction_point (List.length_pos_iff.mp ?_)
      rw [List.length_drop]
      omega
  · rw [length_digitsText, one]
    split_ifs with single
    · rw [List.length_nil]
      omega
    · rw [List.length_append, length_digitsText, List.length_drop,
        length_point]
      omega

theorem numeral_small (h : ShortestDigits digits point) (small : -4 < point) :
    IsNumeral negative (sign negative ++
      (codes "0." ++ digitsText (List.replicate (-point).toNat 0 ++ digits))) := by
  have few := h.few
  have some_digits := List.length_pos_iff.mpr h.some_digits
  have text : codes "0." ++ digitsText (List.replicate (-point).toNat 0 ++ digits) =
      codes "0" ++
        ((codes "." ++ digitsText (List.replicate (-point).toNat 0 ++ digits)) ++ []) := by
    rw [List.append_nil]
    rfl
  refine ⟨_, _, [], congrArg (sign negative ++ ·) text, ⟨⟨digits_zero, fun _ => rfl⟩,
    fraction_point (List.length_pos_iff.mp ?_), .absent⟩, ?_⟩
  · rw [List.length_append]
    omega
  · rw [List.length_append, length_digitsText, List.length_append, List.length_replicate,
      length_zero, length_point, List.length_nil]
    omega

theorem numeral_whole (h : ShortestDigits digits point) (bound : point ≤ 16)
    (long : digits.length ≤ point.toNat) :
    IsNumeral negative (sign negative ++
      (digitsText (digits ++ List.replicate (point.toNat - digits.length) 0) ++ codes ".0")) := by
  have few := h.few
  have some_digits := List.length_pos_iff.mpr h.some_digits
  refine ⟨_, codes ".0", [], by rw [List.append_nil], ⟨⟨digits_digitsText ?_, fun zero => ?_⟩,
    .point digits_zero, .absent⟩, ?_⟩
  · exact List.append_ne_nil_of_left_ne_nil h.some_digits _
  · have first := head_digitsText zero
    rw [List.head?_append_of_ne_nil _ h.some_digits] at first
    obtain ⟨rfl, rfl⟩ := h.leading first
    rfl
  · rw [length_digitsText, List.length_append, List.length_replicate,
      length_point_zero, List.length_nil]
    omega

theorem numeral_point (h : ShortestDigits digits point) (large : 0 < point)
    (short : point.toNat < digits.length) :
    IsNumeral negative (sign negative ++
      (digitsText (digits.take point.toNat) ++ codes "." ++
        digitsText (digits.drop point.toNat))) := by
  have few := h.few
  have front : (digits.take point.toNat).length = point.toNat := by
    rw [List.length_take]
    omega
  have back : (digits.drop point.toNat).length = digits.length - point.toNat := List.length_drop
  refine ⟨_, _, [], by rw [List.append_nil, List.append_assoc],
    ⟨⟨digits_digitsText ?_, fun zero => ?_⟩, fraction_point (List.length_pos_iff.mp (by omega)),
      .absent⟩, ?_⟩
  · exact List.length_pos_iff.mp (by omega)
  · have first := head_digitsText zero
    rw [List.head?_take, if_neg (by omega)] at first
    obtain ⟨rfl, rfl⟩ := h.leading first
    exact absurd short (by decide)
  · rw [length_digitsText, List.length_append, length_digitsText, front, back,
      length_point, List.length_nil]
    omega

theorem numeral_repr (h : ShortestDigits digits point) :
    IsNumeral negative (PyFloat.finite negative digits point).repr := by
  rw [PyFloat.repr]
  by_cases far : point ≤ -4 ∨ 16 < point
  · rw [if_pos far]
    exact numeral_scientific negative h
  · rw [if_neg far]
    by_cases low : point ≤ 0
    · rw [if_pos low]
      exact numeral_small negative h (by omega)
    · rw [if_neg low]
      by_cases long : digits.length ≤ point.toNat
      · rw [if_pos long]
        exact numeral_whole negative h (by omega) long
      · rw [if_neg long]
        exact numeral_point negative h (by omega) (by omega)

/-! ## A float in a prompt -/

theorem length_sign_le (negative : Bool) : (sign negative).length ≤ 1 := by
  cases negative with
  | true => exact le_rfl
  | false => exact Nat.zero_le 1

theorem IsNumeral.length_le {negative : Bool} {text : Text} (h : IsNumeral negative text) :
    text.length ≤ 26 := by
  obtain ⟨whole, fraction, exponent, rfl, -, short⟩ := h
  have one := length_sign_le negative
  simp only [List.length_append]
  omega

theorem IsNumeral.reads {negative : Bool} {text : Text} (h : IsNumeral negative text) :
    ∃ q, ∀ depth, Reads (readValue (depth + 1)) text (.number q) := by
  obtain ⟨whole, fraction, exponent, rfl, number, -⟩ := h
  refine ⟨numberValue negative (asChars whole) (asChars fraction) (asChars exponent),
    fun depth pad c rest blank stop => ?_⟩
  have chars : asChars (sign negative ++ (whole ++ (fraction ++ exponent))) =
      numberText negative (asChars whole) (asChars fraction) (asChars exponent) := by
    rw [asChars_append, asChars_append, asChars_append, numberText]
    cases negative with
    | true => rfl
    | false => rfl
  rw [readValue_append blank, chars]
  exact readValue_isNumber number depth stop.endsNumber rest

/-! ## Visible texts -/

/-- ASCII without control characters. -/
def Visible (text : Text) : Prop := ∀ c ∈ text, 0x20 ≤ c ∧ c ≤ 0x7E

instance (text : Text) : Decidable (Visible text) := inferInstanceAs (Decidable (∀ _ ∈ _, _))

theorem visible_nil : Visible [] := List.forall_mem_nil _

theorem visible_append {a b : Text} : Visible (a ++ b) ↔ Visible a ∧ Visible b :=
  List.forall_mem_append

theorem visible_sign (negative : Bool) : Visible (sign negative) := by
  cases negative with
  | true => decide
  | false => decide

theorem visible_natText (n : ℕ) : Visible (natText n) := by
  intro c mem
  have digit := NumberText.isDigit_of_mem_natText mem
  rw [PyNumber.isDigit, decide_eq_true_eq] at digit
  omega

theorem visible_intText (n : ℤ) : Visible (intText n) :=
  visible_append.mpr ⟨visible_sign _, visible_natText _⟩

theorem visible_digitsText (digits : List (Fin 10)) : Visible (digitsText digits) := by
  intro c mem
  obtain ⟨d, -, rfl⟩ := List.mem_map.mp mem
  omega

theorem visible_exponentText (e : ℤ) : Visible (exponentText e) := by
  have digits := visible_natText e.natAbs
  have e_visible : Visible (codes "e") := by decide
  have signs : Visible (codes "-") ∧ Visible (codes "+") ∧ Visible (codes "0") := by decide
  rw [exponentText]
  split_ifs <;>
    simp only [visible_append, e_visible, signs, digits, visible_nil, and_self]

theorem visible_repr (f : PyFloat) : Visible f.repr := by
  cases f with
  | nan => decide
  | inf negative => exact visible_append.mpr ⟨visible_sign negative, by decide⟩
  | finite negative digits point =>
    have marks : Visible (codes ".") ∧ Visible (codes "0.") ∧ Visible (codes ".0") := by decide
    rw [PyFloat.repr, visible_append]
    refine ⟨visible_sign _, ?_⟩
    split_ifs <;>
      simp only [visible_append, visible_digitsText, visible_exponentText, marks, visible_nil,
        and_self]

end OtDetection.TriagePrompt
