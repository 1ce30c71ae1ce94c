import OtDetection.JsonText

/-! The texts of JSON numbers: a minus sign, digits, a fraction and an exponent, of which only the
digits have to be there. Each of them reads as one number. -/

namespace OtDetection.JsonText

/-- One digit or more. -/
def Digits (text : List Char) : Prop := text ≠ [] ∧ ∀ c ∈ text, isDigit c = true

/-- No digit follows a leading zero. -/
def Whole (text : List Char) : Prop := Digits text ∧ (text.head? = some '0' → text.length = 1)

inductive Fraction : List Char → Prop
  | absent : Fraction []
  | point {digits : List Char} (some_digits : Digits digits) : Fraction ('.' :: digits)

inductive Exponent : List Char → Prop
  | absent : Exponent []
  | signed {sign : Char} {digits : List Char} (isSign : sign = '+' ∨ sign = '-')
      (some_digits : Digits digits) : Exponent ('e' :: sign :: digits)

structure IsNumber (negative : Bool) (whole fraction exponent : List Char) : Prop where
  whole : Whole whole
  fraction : Fraction fraction
  exponent : Exponent exponent

def numberText (negative : Bool) (whole fraction exponent : List Char) : List Char :=
  (if negative then ['-'] else []) ++ (whole ++ (fraction ++ exponent))

def exponentValue (exponent : List Char) : ℤ :=
  let size : ℤ := Nat.ofDigitChars 10 exponent.tail.tail 0
  if exponent = [] then 0 else if exponent.tail.head? = some '-' then -size else size

def numberValue (negative : Bool) (whole fraction exponent : List Char) : ℚ :=
  let size : ℚ := (Nat.ofDigitChars 10 (whole ++ fraction.tail) 0 : ℕ) *
    10 ^ (exponentValue exponent - fraction.tail.length)
  if negative then -size else size

/-! ## Reading -/

theorem readDigits_digits {digits : List Char} (h : Digits digits) {c : Char}
    (hc : isDigit c = false) (rest : List Char) :
    readDigits (digits ++ c :: rest) = some (digits, c :: rest) := by
  obtain ⟨front, back⟩ := takeWhile_digits h.2 hc rest
  rw [readDigits, front, back, if_neg h.1]

theorem readInt_whole {whole : List Char} (h : Whole whole) {c : Char} (hc : isDigit c = false)
    (rest : List Char) : readInt (whole ++ c :: rest) = some (whole, c :: rest) := by
  rw [readInt, readDigits_digits h.1 hc]
  refine if_neg ?_
  rintro ⟨zero, long⟩
  exact long (h.2 zero)

theorem readExponent_exponent {exponent : List Char} (h : Exponent exponent) {c : Char}
    (hc : endsNumber c) (rest : List Char) :
    readExponent (exponent ++ c :: rest) = some (exponentValue exponent, c :: rest) := by
  cases h with
  | absent => exact if_neg (by simpa using hc.2.2)
  | @signed sign digits isSign some_digits =>
    have read := readDigits_digits some_digits hc.1 rest
    rw [readExponent, exponentValue]
    rcases isSign with rfl | rfl
    · simp [read]
    · simp [read]

theorem readFrac_fraction {fraction : List Char} (h : Fraction fraction) {c : Char}
    (hc : isDigit c = false) (point : c ≠ '.') (rest : List Char) :
    readFrac (fraction ++ c :: rest) = some (fraction.tail, c :: rest) := by
  cases h with
  | absent => exact if_neg (by simpa using point)
  | point some_digits =>
    rw [readFrac, List.cons_append, if_pos List.head?_cons, List.tail_cons,
      readDigits_digits some_digits hc, List.tail_cons]

/-! What follows the digits is no digit. -/

theorem Exponent.starts {exponent : List Char} (h : Exponent exponent) {c : Char}
    (hc : endsNumber c) (rest : List Char) :
    ∃ d more, exponent ++ c :: rest = d :: more ∧ isDigit d = false ∧ d ≠ '.' := by
  cases h with
  | absent => exact ⟨c, rest, rfl, hc.1, hc.2.1⟩
  | signed isSign some_digits => exact ⟨'e', _, rfl, by decide, by decide⟩

theorem Fraction.starts {fraction : List Char} (h : Fraction fraction) {c : Char}
    (hc : isDigit c = false) (rest : List Char) :
    ∃ d more, fraction ++ c :: rest = d :: more ∧ isDigit d = false := by
  cases h with
  | absent => exact ⟨c, rest, rfl, hc⟩
  | point some_digits => exact ⟨'.', _, rfl, by decide⟩

section Number

variable {negative : Bool} {whole fraction exponent : List Char}

theorem IsNumber.parts (h : IsNumber negative whole fraction exponent) {c : Char}
    (hc : endsNumber c) (rest : List Char) :
    readInt (whole ++ (fraction ++ (exponent ++ c :: rest))) =
        some (whole, fraction ++ (exponent ++ c :: rest)) ∧
      readFrac (fraction ++ (exponent ++ c :: rest)) =
        some (fraction.tail, exponent ++ c :: rest) ∧
      readExponent (exponent ++ c :: rest) = some (exponentValue exponent, c :: rest) := by
  refine ⟨?_, ?_, readExponent_exponent h.exponent hc rest⟩
  · obtain ⟨d, more, after, digit, -⟩ := h.exponent.starts hc rest
    obtain ⟨e, others, next, other⟩ := h.fraction.starts digit more
    rw [after, next, readInt_whole h.whole other]
  · obtain ⟨d, more, after, digit, point⟩ := h.exponent.starts hc rest
    rw [after, readFrac_fraction h.fraction digit point]

/-- The sign is not read as a digit, nor a digit as a sign. -/
theorem IsNumber.head (h : IsNumber negative whole fraction exponent) :
    ∃ c rest, numberText negative whole fraction exponent = c :: rest ∧
      (isDigit c = true ∨ c = '-') ∧ (c = '-' ↔ negative = true) := by
  rw [numberText]
  cases negative with
  | true => exact ⟨'-', _, rfl, .inr rfl, iff_of_true rfl rfl⟩
  | false =>
    cases digits : whole with
    | nil => exact absurd digits h.whole.1.1
    | cons d ds =>
      have digit := h.whole.1.2 d (by rw [digits]; exact List.mem_cons_self)
      refine ⟨d, _, rfl, .inl digit, iff_of_false ?_ Bool.false_ne_true⟩
      rintro rfl
      exact absurd digit (by decide)

theorem readNumber_isNumber (h : IsNumber negative whole fraction exponent) {c : Char}
    (hc : endsNumber c) (rest : List Char) :
    readNumber (numberText negative whole fraction exponent ++ c :: rest) =
      some (numberValue negative whole fraction exponent, c :: rest) := by
  obtain ⟨int, frac, last⟩ := h.parts hc rest
  obtain ⟨d, ds, text, -, minus⟩ := h.head
  have sign : (numberText negative whole fraction exponent ++ c :: rest).head? = some '-' ↔
      negative = true := by
    rw [text, List.cons_append, List.head?_cons, Option.some.injEq, minus]
  have unsigned : (if negative then
      (numberText negative whole fraction exponent ++ c :: rest).tail
      else numberText negative whole fraction exponent ++ c :: rest) =
      whole ++ (fraction ++ (exponent ++ c :: rest)) := by
    cases negative with
    | true => simp [numberText]
    | false => simp [numberText]
  simp only [readNumber, sign, unsigned, int, frac, last, Option.bind_eq_bind, Option.bind_some,
    numberValue]

theorem readValue_isNumber (h : IsNumber negative whole fraction exponent) (depth : ℕ) {c : Char}
    (hc : endsNumber c) (rest : List Char) :
    readValue (depth + 1) (numberText negative whole fraction exponent ++ c :: rest) =
      some (.number (numberValue negative whole fraction exponent), c :: rest) := by
  have number := readNumber_isNumber h hc rest
  obtain ⟨d, ds, text, first, -⟩ := h.head
  rw [text, List.cons_append] at number ⊢
  rw [readValue_number depth first, number]
  rfl

end Number

end OtDetection.JsonText
