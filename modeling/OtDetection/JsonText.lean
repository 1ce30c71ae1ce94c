import Mathlib.Algebra.Order.Field.Rat
import Mathlib.Data.List.Forall2
import Mathlib.Tactic.Common
import Mathlib.Tactic.IntervalCases

/-! JSON text by RFC 8259. `loads` reads a text to its value and refuses everything
else; members are kept in order and repeated names are kept too, so that a caller
can ask for distinct names. A string value is its code points, because an escape
may name half of a surrogate pair. -/

namespace OtDetection.JsonText

inductive Json
  | null
  | bool (b : Bool)
  | number (q : ℚ)
  | string (s : List ℕ)
  | array (items : List Json)
  | object (members : List (List ℕ × Json))

/-- The names of an object, in order. -/
def Json.names : Json → List (List ℕ)
  | .object members => members.map Prod.fst
  | _ => []

/-! ## Reading -/

def isSpace (c : Char) : Prop := c = ' ' ∨ c = '\t' ∨ c = '\n' ∨ c = '\r'

instance (c : Char) : Decidable (isSpace c) := inferInstanceAs (Decidable (_ ∨ _))

def skipSpace (text : List Char) : List Char := text.dropWhile fun c => decide (isSpace c)

def hexValue (c : Char) : Option ℕ :=
  if '0' ≤ c ∧ c ≤ '9' then some (c.toNat - '0'.toNat)
  else if 'a' ≤ c ∧ c ≤ 'f' then some (c.toNat - 'a'.toNat + 10)
  else if 'A' ≤ c ∧ c ≤ 'F' then some (c.toNat - 'A'.toNat + 10)
  else none

def hex4 (a b c d : Char) : Option ℕ := do
  let a ← hexValue a
  let b ← hexValue b
  let c ← hexValue c
  let d ← hexValue d
  some (((a * 16 + b) * 16 + c) * 16 + d)

def escapeOf (c : Char) : Option ℕ :=
  match c with
  | '"' => some 0x22
  | '\\' => some 0x5C
  | '/' => some 0x2F
  | 'b' => some 0x08
  | 'f' => some 0x0C
  | 'n' => some 0x0A
  | 'r' => some 0x0D
  | 't' => some 0x09
  | _ => none

def isHigh (code : ℕ) : Prop := 0xD800 ≤ code ∧ code ≤ 0xDBFF

def isLow (code : ℕ) : Prop := 0xDC00 ≤ code ∧ code ≤ 0xDFFF

instance (code : ℕ) : Decidable (isHigh code) := inferInstanceAs (Decidable (_ ∧ _))

instance (code : ℕ) : Decidable (isLow code) := inferInstanceAs (Decidable (_ ∧ _))

/-- A high surrogate joins a low one right behind it. -/
def joinUnit (unit : ℕ) (later : List ℕ) : List ℕ :=
  match later with
  | [] => [unit]
  | code :: rest =>
    if isHigh unit ∧ isLow code then
      (0x10000 + (unit - 0xD800) * 0x400 + (code - 0xDC00)) :: rest
    else unit :: later

/-- The rest of a string literal, after its opening quote. -/
def readChars : List Char → Option (List ℕ × List Char)
  | [] => none
  | c :: rest =>
    if c = '"' then some ([], rest)
    else if c = '\\' then
      match rest with
      | [] => none
      | e :: rest =>
        if e = 'u' then
          match rest with
          | a :: b :: c :: d :: rest =>
            (hex4 a b c d).bind fun unit =>
              (readChars rest).map fun p => (joinUnit unit p.1, p.2)
          | _ => none
        else (escapeOf e).bind fun code => (readChars rest).map fun p => (code :: p.1, p.2)
    else if c.toNat < 0x20 then none
    else (readChars rest).map fun p => (c.toNat :: p.1, p.2)

def isDigit (c : Char) : Bool := c.isDigit

def readDigits (text : List Char) : Option (List Char × List Char) :=
  if text.takeWhile isDigit = [] then none
  else some (text.takeWhile isDigit, text.dropWhile isDigit)

def readInt (text : List Char) : Option (List Char × List Char) := do
  let (digits, rest) ← readDigits text
  if digits.head? = some '0' ∧ digits.length ≠ 1 then none else some (digits, rest)

def readFrac (text : List Char) : Option (List Char × List Char) :=
  if text.head? = some '.' then readDigits text.tail else some ([], text)

def readExponent (text : List Char) : Option (ℤ × List Char) :=
  if text.head? = some 'e' ∨ text.head? = some 'E' then
    let negative := text.tail.head? = some '-'
    let signed := negative ∨ text.tail.head? = some '+'
    do
      let (digits, rest) ← readDigits (if signed then text.tail.tail else text.tail)
      let size : ℤ := Nat.ofDigitChars 10 digits 0
      some (if negative then -size else size, rest)
  else some (0, text)

def readNumber (text : List Char) : Option (ℚ × List Char) := do
  let negative := text.head? = some '-'
  let (int, text) ← readInt (if negative then text.tail else text)
  let (frac, text) ← readFrac text
  let (exponent, text) ← readExponent text
  let size : ℚ := (Nat.ofDigitChars 10 (int ++ frac) 0 : ℕ) * 10 ^ (exponent - frac.length)
  some (if negative then -size else size, text)

/-- Items separated by commas, up to a closing bracket. -/
def readItems {α : Type} (item : List Char → Option (α × List Char)) (close : Char) :
    ℕ → List Char → Option (List α × List Char)
  | 0, _ => none
  | fuel + 1, text =>
    (item text).bind fun p =>
      match skipSpace p.2 with
      | [] => none
      | c :: rest =>
        if c = ',' then (readItems item close fuel rest).map fun q => (p.1 :: q.1, q.2)
        else if c = close then some ([p.1], rest)
        else none

def readMember (value : List Char → Option (Json × List Char)) (text : List Char) :
    Option ((List ℕ × Json) × List Char) :=
  match skipSpace text with
  | [] => none
  | c :: rest =>
    if c = '"' then
      (readChars rest).bind fun p =>
        match skipSpace p.2 with
        | [] => none
        | c :: rest => if c = ':' then (value rest).map fun q => ((p.1, q.1), q.2) else none
    else none

/-- The contents of an object or an array, after its opening bracket. -/
def readBody {α : Type} (item : List Char → Option (α × List Char)) (close : Char)
    (text : List Char) : Option (List α × List Char) :=
  if (skipSpace text).head? = some close then some ([], (skipSpace text).tail)
  else readItems item close (text.length + 1) text

/-- A value of nesting depth at most `depth`. -/
def readValue : ℕ → List Char → Option (Json × List Char)
  | 0, _ => none
  | depth + 1, text =>
    match skipSpace text with
    | [] => none
    | c :: rest =>
      if c = '"' then (readChars rest).map fun p => (.string p.1, p.2)
      else if c = '\x7b' then
        (readBody (readMember (readValue depth)) '\x7d' rest).map fun p => (.object p.1, p.2)
      else if c = '[' then (readBody (readValue depth) ']' rest).map fun p => (.array p.1, p.2)
      else if (c :: rest).take 4 = "true".toList then some (.bool true, rest.drop 3)
      else if (c :: rest).take 5 = "false".toList then some (.bool false, rest.drop 4)
      else if (c :: rest).take 4 = "null".toList then some (.null, rest.drop 3)
      else (readNumber (c :: rest)).map fun p => (.number p.1, p.2)

/-- The value of a whole text. A text nests no deeper than it is long. -/
def loads (text : List Char) : Option Json :=
  (readValue text.length text).bind fun p => if skipSpace p.2 = [] then some p.1 else none

/-! ## Texts that read back -/

/-- What may follow a value inside brackets. -/
def isEnd (c : Char) : Prop := c = ',' ∨ c = '\x7d' ∨ c = ']'

instance (c : Char) : Decidable (isEnd c) := inferInstanceAs (Decidable (_ ∨ _))

/-- `text` reads as `a` in front of a comma or a closing bracket. -/
def ReadsAs {α : Type} (reader : List Char → Option (α × List Char)) (text : List Char) (a : α) :
    Prop := ∀ c rest, isEnd c → reader (text ++ c :: rest) = some (a, c :: rest)

/-- A character that a string literal may carry as it is. -/
def isPlain (c : Char) : Prop := c ≠ '"' ∧ c ≠ '\\' ∧ 0x20 ≤ c.toNat

instance (c : Char) : Decidable (isPlain c) := inferInstanceAs (Decidable (_ ∧ _))

theorem forall_of_all {p : Char → Prop} [DecidablePred p] {text : List Char}
    (h : (text.all fun c => decide (p c)) = true) : ∀ c ∈ text, p c := by
  simpa using h

theorem skipSpace_cons {c : Char} (h : ¬ isSpace c) (rest : List Char) :
    skipSpace (c :: rest) = c :: rest := by
  rw [skipSpace, List.dropWhile_cons, if_neg (by simpa using h)]

theorem isEnd.not_space {c : Char} (h : isEnd c) : ¬ isSpace c := by
  rcases h with rfl | rfl | rfl <;> decide

theorem readChars_quote (rest : List Char) : readChars ('"' :: rest) = some ([], rest) := by
  rw [readChars.eq_def]
  rfl

theorem readChars_plain {c : Char} (h : isPlain c) (rest : List Char) :
    readChars (c :: rest) = (readChars rest).map fun p => (c.toNat :: p.1, p.2) := by
  rw [readChars.eq_def]
  simp only [if_neg h.1, if_neg h.2.1, if_neg (Nat.not_lt.mpr h.2.2)]

theorem readChars_control {c : Char} (h : c.toNat < 0x20) (rest : List Char) :
    readChars (c :: rest) = none := by
  have quote : c ≠ '"' := by rintro rfl; exact absurd h (by decide)
  have backslash : c ≠ '\\' := by rintro rfl; exact absurd h (by decide)
  rw [readChars.eq_def]
  simp only [if_neg quote, if_neg backslash, if_pos h]

theorem readChars_escape {e : Char} (h : e ≠ 'u') (rest : List Char) :
    readChars ('\\' :: e :: rest) =
      (escapeOf e).bind fun code => (readChars rest).map fun p => (code :: p.1, p.2) := by
  rw [readChars.eq_def]
  exact if_neg h

theorem readChars_unicode (a b c d : Char) (rest : List Char) :
    readChars ('\\' :: 'u' :: a :: b :: c :: d :: rest) =
      (hex4 a b c d).bind fun unit => (readChars rest).map fun p => (joinUnit unit p.1, p.2) := by
  rw [readChars.eq_def]
  rfl

theorem hex4_quote {a b c d : Char} (h : a = '"' ∨ b = '"' ∨ c = '"' ∨ d = '"') :
    hex4 a b c d = none := by
  have quote : hexValue '"' = none := by decide
  unfold hex4
  rcases h with rfl | rfl | rfl | rfl <;> rw [quote]
  · rfl
  · cases hexValue a <;> rfl
  · cases hexValue a <;> cases hexValue b <;> rfl
  · cases hexValue a <;> cases hexValue b <;> cases hexValue c <;> rfl

theorem readChars_append {s : List Char} (h : ∀ c ∈ s, isPlain c) (rest : List Char) :
    readChars (s ++ '"' :: rest) = some (s.map Char.toNat, rest) := by
  induction s with
  | nil => exact readChars_quote rest
  | cons c s ih =>
    rw [List.cons_append, readChars_plain (h c List.mem_cons_self),
      ih fun d hd => h d (List.mem_cons_of_mem _ hd)]
    rfl

theorem joinUnit_length_le (unit : ℕ) (later : List ℕ) :
    (joinUnit unit later).length ≤ later.length + 1 := by
  unfold joinUnit
  split
  · simp
  · split <;> simp [*]

theorem joinUnit_append_quote (unit : ℕ) (front : List ℕ) :
    ∃ front', joinUnit unit (front ++ [0x22, 0x2C]) = front' ++ [0x22, 0x2C] := by
  cases front with
  | nil => exact ⟨[unit], by simp [joinUnit, isLow]⟩
  | cons code front =>
    rw [List.cons_append, joinUnit]
    split
    · exact ⟨_ :: front, rfl⟩
    · exact ⟨unit :: code :: front, rfl⟩

/-- What a raw text in front of a quote, a comma and a further quote may read as: fewer
code points, the text itself, or an end that the text cannot have. -/
def Outcome (s : List Char) (codes : List ℕ) : Prop :=
  codes.length < s.length ∨ ((∀ c ∈ s, isPlain c) ∧ codes = s.map Char.toNat) ∨
    ((∃ front, codes = front ++ [0x22, 0x2C]) ∧ ∃ front, s = front ++ ['\\'])

theorem Outcome.plain {s : List Char} {codes : List ℕ} (h : Outcome s codes) {c : Char}
    (hc : isPlain c) : Outcome (c :: s) (c.toNat :: codes) := by
  rcases h with less | ⟨plain, rfl⟩ | ⟨⟨front, rfl⟩, front', rfl⟩
  · exact .inl (Nat.succ_lt_succ less)
  · exact .inr (.inl ⟨List.forall_mem_cons.mpr ⟨hc, plain⟩, rfl⟩)
  · exact .inr (.inr ⟨⟨c.toNat :: front, rfl⟩, c :: front', rfl⟩)

theorem Outcome.escape {s : List Char} {codes codes' : List ℕ} (h : Outcome s codes)
    {escape : List Char} (long : 2 ≤ escape.length) (short : codes'.length ≤ codes.length + 1)
    (keeps : ∀ front, codes = front ++ [0x22, 0x2C] → ∃ front', codes' = front' ++ [0x22, 0x2C]) :
    Outcome (escape ++ s) codes' := by
  rcases h with less | ⟨-, same⟩ | ⟨⟨front, tail⟩, front', rfl⟩
  · left
    rw [List.length_append]
    omega
  · left
    have size := congrArg List.length same
    rw [List.length_map] at size
    rw [List.length_append]
    omega
  · exact .inr (.inr ⟨keeps front tail, escape ++ front', by rw [List.append_assoc]⟩)

theorem outcome_of_readChars {s rest : List Char} {p : List ℕ × List Char}
    (h : readChars (s ++ '"' :: ',' :: '"' :: rest) = some p) : Outcome s p.1 := by
  induction hn : s.length using Nat.strong_induction_on generalizing s p with
  | _ n ih =>
  subst hn
  match s with
  | [] =>
    rw [List.nil_append, readChars_quote] at h
    cases h
    exact .inr (.inl ⟨by simp, rfl⟩)
  | c :: s =>
    rw [List.cons_append] at h
    by_cases quote : c = '"'
    · subst quote
      rw [readChars_quote] at h
      cases h
      exact .inl (by simp)
    by_cases backslash : c = '\\'
    · subst backslash
      match s with
      | [] =>
        -- The backslash takes the closing quote with it, and the next quote ends the string.
        rw [List.nil_append, readChars_escape (by decide), readChars_plain (by decide),
          readChars_quote] at h
        cases h
        exact .inr (.inr ⟨⟨[], rfl⟩, ⟨[], rfl⟩⟩)
      | e :: s =>
        simp only [List.cons_append] at h
        by_cases unicode : e = 'u'
        · subst unicode
          match s with
          | a :: b :: c' :: d :: s =>
            simp only [List.cons_append, readChars_unicode] at h
            obtain ⟨unit, -, h⟩ := Option.bind_eq_some_iff.mp h
            obtain ⟨q, later, rfl⟩ := Option.map_eq_some_iff.mp h
            have rest := ih s.length (by simp only [List.length_cons]; omega) later rfl
            refine rest.escape (show 2 ≤ ['\\', 'u', a, b, c', d].length by simp)
              (joinUnit_length_le unit q.1) fun front tail => ?_
            rw [tail]
            exact joinUnit_append_quote unit front
          -- An escape that runs into the closing quote has no four digits.
          | [] =>
            cases rest with
            | nil => rw [List.nil_append, readChars.eq_def] at h; cases h
            | cons d rest => simp [readChars_unicode, hex4_quote] at h
          | [a] => simp [readChars_unicode, hex4_quote] at h
          | [a, b] => simp [readChars_unicode, hex4_quote] at h
          | [a, b, c'] => simp [readChars_unicode, hex4_quote] at h
        · rw [readChars_escape unicode] at h
          obtain ⟨code, -, h⟩ := Option.bind_eq_some_iff.mp h
          obtain ⟨q, later, rfl⟩ := Option.map_eq_some_iff.mp h
          have rest := ih s.length (by simp only [List.length_cons]; omega) later rfl
          refine rest.escape (show 2 ≤ ['\\', e].length by simp) le_rfl fun front tail => ?_
          exact ⟨code :: front, by rw [tail]; rfl⟩
    by_cases control : c.toNat < 0x20
    · rw [readChars_control control] at h
      cases h
    · have plain : isPlain c := ⟨quote, backslash, Nat.not_lt.mp control⟩
      rw [readChars_plain plain] at h
      obtain ⟨q, later, rfl⟩ := Option.map_eq_some_iff.mp h
      exact (ih s.length (by simp) later rfl).plain plain

theorem plain_of_readChars {s rest rest' : List Char}
    (h : readChars (s ++ '"' :: ',' :: '"' :: rest) = some (s.map Char.toNat, rest')) :
    ∀ c ∈ s, isPlain c := by
  rcases outcome_of_readChars h with less | ⟨plain, -⟩ | ⟨⟨front, tail⟩, front', rfl⟩
  · simp at less
  · exact plain
  · rw [List.map_append] at tail
    have last := congrArg List.getLast? tail
    simp at last

/-! ### Numbers and strings -/

theorem toDigits_leading_zero {n : ℕ} (h : (Nat.toDigits 10 n).head? = some '0') : n = 0 := by
  induction n using Nat.strong_induction_on with
  | _ n ih =>
    by_cases small : n < 10
    · rw [Nat.toDigits_of_lt_base small] at h
      interval_cases n <;> first | rfl | exact absurd h (by decide)
    · have front : (Nat.toDigits 10 (n / 10)).head? = some '0' := by
        rwa [Nat.toDigits_of_base_le (by decide) (Nat.not_lt.mp small),
          List.head?_append_of_ne_nil _ Nat.toDigits_ne_nil] at h
      have zero := ih (n / 10) (by omega) front
      omega

theorem takeWhile_digits {digits : List Char} {c : Char} (h : ∀ d ∈ digits, isDigit d = true)
    (hc : isDigit c = false) (rest : List Char) :
    (digits ++ c :: rest).takeWhile isDigit = digits ∧
      (digits ++ c :: rest).dropWhile isDigit = c :: rest := by
  induction digits with
  | nil => simp [hc]
  | cons d digits ih =>
    have tail := ih fun e he => h e (List.mem_cons_of_mem _ he)
    simp [h d List.mem_cons_self, tail]

theorem isDigit_of_mem_toDigits {n : ℕ} {c : Char} (h : c ∈ Nat.toDigits 10 n) :
    isDigit c = true := Nat.isDigit_of_mem_toDigits (by decide) (by decide) h

theorem readInt_toDigits (n : ℕ) {c : Char} (hc : isDigit c = false) (rest : List Char) :
    readInt (Nat.toDigits 10 n ++ c :: rest) = some (Nat.toDigits 10 n, c :: rest) := by
  obtain ⟨front, back⟩ := takeWhile_digits (fun d hd => isDigit_of_mem_toDigits hd) hc rest
  rw [readInt, readDigits, front, back, if_neg Nat.toDigits_ne_nil]
  refine if_neg ?_
  rintro ⟨zero, long⟩
  rw [toDigits_leading_zero zero] at long
  exact long rfl

/-- A character that ends the text of a number. -/
def endsNumber (c : Char) : Prop := isDigit c = false ∧ c ≠ '.' ∧ c ≠ 'e' ∧ c ≠ 'E'

instance (c : Char) : Decidable (endsNumber c) := inferInstanceAs (Decidable (_ ∧ _))

theorem isEnd.endsNumber {c : Char} (h : isEnd c) : endsNumber c := by
  rcases h with rfl | rfl | rfl <;> decide

theorem readNumber_toDigits (n : ℕ) {c : Char} (hc : endsNumber c) (rest : List Char) :
    readNumber (Nat.toDigits 10 n ++ c :: rest) = some ((n : ℚ), c :: rest) := by
  have sign : (Nat.toDigits 10 n ++ c :: rest).head? ≠ some '-' := by
    rw [List.head?_append_of_ne_nil _ Nat.toDigits_ne_nil]
    intro minus
    have digit := isDigit_of_mem_toDigits (List.mem_of_head? minus)
    exact absurd digit (by decide)
  have frac : readFrac (c :: rest) = some ([], c :: rest) :=
    if_neg (by simpa using hc.2.1)
  have exponent : readExponent (c :: rest) = some (0, c :: rest) :=
    if_neg (by simpa using hc.2.2)
  rw [readNumber]
  simp only [sign, if_false, readInt_toDigits n hc.1, Option.bind_eq_bind,
    Option.bind_some, frac, exponent, List.append_nil, Nat.ofDigitChars_ten_toDigits,
    List.length_nil, Nat.cast_zero, sub_zero, zpow_zero, mul_one]

theorem readValue_number (depth : ℕ) {d : Char} (h : isDigit d = true ∨ d = '-')
    (rest : List Char) :
    readValue (depth + 1) (d :: rest) = (readNumber (d :: rest)).map fun p => (.number p.1, p.2) := by
  have other : ∀ e, isDigit e = false → e ≠ '-' → d ≠ e := by
    rintro e digit minus rfl
    rcases h with h | h
    · rw [digit] at h
      cases h
    · exact minus h
  have space : ¬ isSpace d := by
    rintro (rfl | rfl | rfl | rfl) <;> exact absurd h (by decide)
  rw [readValue, skipSpace_cons space]
  simp only [if_neg (other '"' rfl (by decide)), if_neg (other '\x7b' rfl (by decide)),
    if_neg (other '[' rfl (by decide))]
  have literal : ∀ e, isDigit e = false → e ≠ '-' → ∀ n word,
      (d :: rest).take (n + 1) ≠ e :: word :=
    fun e digit minus n word same => other e digit minus (List.head_eq_of_cons_eq same)
  refine (if_neg (literal 't' rfl (by decide) 3 ['r', 'u', 'e'])).trans ?_
  refine (if_neg (literal 'f' rfl (by decide) 4 ['a', 'l', 's', 'e'])).trans ?_
  exact if_neg (literal 'n' rfl (by decide) 3 ['u', 'l', 'l'])

theorem readsAs_number (depth n : ℕ) :
    ReadsAs (readValue (depth + 1)) (Nat.toDigits 10 n) (.number n) := by
  intro c rest hc
  have number := readNumber_toDigits n hc.endsNumber rest
  cases digits : Nat.toDigits 10 n with
  | nil => exact absurd digits Nat.toDigits_ne_nil
  | cons d ds =>
    have first : isDigit d = true := isDigit_of_mem_toDigits (n := n) (by rw [digits]; simp)
    rw [digits, List.cons_append] at number
    rw [List.cons_append, readValue_number depth (.inl first), number]
    rfl

theorem readValue_quote (depth : ℕ) (rest : List Char) :
    readValue (depth + 1) ('"' :: rest) = (readChars rest).map fun p => (.string p.1, p.2) := by
  rw [readValue, skipSpace_cons (by decide)]
  exact if_pos rfl

theorem readsAs_string (depth : ℕ) {s : List Char} (h : ∀ c ∈ s, isPlain c) :
    ReadsAs (readValue (depth + 1)) ('"' :: (s ++ ['"'])) (.string (s.map Char.toNat)) := by
  intro c rest _
  rw [List.cons_append, List.append_assoc, readValue_quote, List.singleton_append,
    readChars_append h]
  rfl

/-! ### Members and objects -/

theorem readMember_quote {value : List Char → Option (Json × List Char)} {name : List Char}
    (h : ∀ c ∈ name, isPlain c) (text : List Char) :
    readMember value ('"' :: (name ++ '"' :: ':' :: text)) =
      (value text).map fun p => ((name.map Char.toNat, p.1), p.2) := by
  rw [readMember, skipSpace_cons (by decide)]
  simp only [if_true, readChars_append h, Option.bind_some, skipSpace_cons (c := ':') (by decide)]

theorem readsAs_member {value : List Char → Option (Json × List Char)} {name text : List Char}
    {v : Json} (h : ∀ c ∈ name, isPlain c) (hv : ReadsAs value text v) :
    ReadsAs (readMember value) ('"' :: (name ++ '"' :: ':' :: text)) (name.map Char.toNat, v) := by
  intro c rest hc
  have split : '"' :: (name ++ '"' :: ':' :: text) ++ c :: rest =
      '"' :: (name ++ '"' :: ':' :: (text ++ c :: rest)) := by simp
  rw [split, readMember_quote h, hv c rest hc]
  rfl

section Items

variable {α : Type} {item : List Char → Option (α × List Char)} {close : Char}

theorem readItems_comma {text : List Char} {a : α} (h : ReadsAs item text a) (fuel : ℕ)
    (more : List Char) :
    readItems item close (fuel + 1) (text ++ ',' :: more) =
      (readItems item close fuel more).map fun p => (a :: p.1, p.2) := by
  rw [readItems, h ',' more (.inl rfl)]
  simp only [Option.bind_some, skipSpace_cons (c := ',') (by decide), if_true]

theorem readItems_close {text : List Char} {a : α} (h : ReadsAs item text a) (hc : isEnd close)
    (other : close ≠ ',') (fuel : ℕ) (more : List Char) :
    readItems item close (fuel + 1) (text ++ close :: more) = some ([a], more) := by
  rw [readItems, h close more hc]
  simp only [Option.bind_some, skipSpace_cons hc.not_space, if_neg other, if_true]

theorem intercalate_cons_append (text : List Char) {texts : List (List Char)} (h : texts ≠ [])
    (more : List Char) :
    List.intercalate [','] (text :: texts) ++ more =
      text ++ ',' :: (List.intercalate [','] texts ++ more) := by
  cases texts with
  | nil => exact absurd rfl h
  | cons next texts => simp [List.intercalate]

theorem mem_intercalate_of_mem {c : Char} {text : List Char} {texts : List (List Char)}
    (ht : text ∈ texts) (hc : c ∈ text) : c ∈ List.intercalate [','] texts := by
  induction texts with
  | nil => cases ht
  | cons first texts ih =>
    cases texts with
    | nil =>
      rw [List.mem_singleton] at ht
      subst ht
      simpa [List.intercalate] using hc
    | cons next texts =>
      have step := intercalate_cons_append first (List.cons_ne_nil next texts) []
      rw [List.append_nil, List.append_nil] at step
      rw [step, List.mem_append, List.mem_cons]
      rcases List.mem_cons.mp ht with rfl | ht
      · exact .inl hc
      · exact .inr (.inr (ih ht))

theorem mem_intercalate {c : Char} {texts : List (List Char)}
    (h : c ∈ List.intercalate [','] texts) : c = ',' ∨ ∃ text ∈ texts, c ∈ text := by
  induction texts with
  | nil => cases h
  | cons text texts ih =>
    cases texts with
    | nil => exact .inr ⟨text, by simp, by simpa [List.intercalate] using h⟩
    | cons next texts =>
      have step := intercalate_cons_append text (List.cons_ne_nil next texts) []
      rw [List.append_nil, List.append_nil] at step
      rw [step] at h
      rcases List.mem_append.mp h with h | h
      · exact .inr ⟨text, by simp, h⟩
      · rcases List.mem_cons.mp h with rfl | h
        · exact .inl rfl
        · rcases ih h with rfl | ⟨found, hf, h⟩
          · exact .inl rfl
          · exact .inr ⟨found, List.mem_cons_of_mem _ hf, h⟩

theorem readItems_intercalate {texts : List (List Char)} {items : List α}
    (h : List.Forall₂ (ReadsAs item) texts items) (nonempty : texts ≠ []) (hc : isEnd close)
    (other : close ≠ ',') {fuel : ℕ} (enough : texts.length ≤ fuel) (more : List Char) :
    readItems item close fuel (List.intercalate [','] texts ++ close :: more) =
      some (items, more) := by
  induction h generalizing fuel with
  | nil => exact absurd rfl nonempty
  | @cons text a texts items first later ih =>
    obtain ⟨fuel, rfl⟩ : ∃ m, fuel = m + 1 := ⟨fuel - 1, by simp at enough; omega⟩
    cases texts with
    | nil =>
      cases later
      simpa [List.intercalate] using readItems_close first hc other fuel more
    | cons next texts =>
      rw [intercalate_cons_append _ (by simp), readItems_comma first,
        ih (by simp) (by simpa using enough)]
      rfl

theorem readItems_middle {good later : List (List Char)} {bad : List Char} {items members : List α}
    {fuel : ℕ} {more rest : List Char} (h : List.Forall₂ (ReadsAs item) good items)
    (hlater : later ≠ [])
    (read : readItems item close fuel
      (List.intercalate [','] (good ++ bad :: later) ++ more) = some (members, rest)) :
    ∃ a rest', item (bad ++ ',' :: (List.intercalate [','] later ++ more)) = some (a, rest') ∧
      members[good.length]? = some a := by
  induction h generalizing fuel members with
  | nil =>
    cases fuel with
    | zero => cases read
    | succ fuel =>
      rw [List.nil_append, intercalate_cons_append _ hlater, readItems] at read
      obtain ⟨p, first, read⟩ := Option.bind_eq_some_iff.mp read
      refine ⟨p.1, p.2, first, ?_⟩
      split at read
      · cases read
      · split at read
        · obtain ⟨q, -, same⟩ := Option.map_eq_some_iff.mp read
          cases same
          rfl
        · split at read <;> cases read
          rfl
  | @cons text a good items first _ ih =>
    cases fuel with
    | zero => cases read
    | succ fuel =>
      rw [List.cons_append, intercalate_cons_append _ (by simp), readItems_comma first] at read
      obtain ⟨q, later', same⟩ := Option.map_eq_some_iff.mp read
      cases same
      simpa using ih later'

end Items

theorem length_le_intercalate (texts : List (List Char)) :
    texts.length ≤ (List.intercalate [','] texts).length + 1 := by
  induction texts with
  | nil => simp
  | cons text texts ih =>
    cases texts with
    | nil => simp
    | cons next texts =>
      have step := intercalate_cons_append text (List.cons_ne_nil next texts) []
      rw [List.append_nil, List.append_nil] at step
      rw [step]
      simp only [List.length_cons, List.length_append] at *
      omega

theorem loads_brace (body : List Char) (h : body.head? = some '"') :
    loads ('\x7b' :: body) =
      (readItems (readMember (readValue body.length)) '\x7d' (body.length + 1) body).bind
        fun p => if skipSpace p.2 = [] then some (.object p.1) else none := by
  obtain ⟨rest, rfl⟩ : ∃ rest, body = '"' :: rest := by
    cases body with
    | nil => cases h
    | cons c rest => cases h; exact ⟨rest, rfl⟩
  have inside : readBody (readMember (readValue ('"' :: rest).length)) '\x7d' ('"' :: rest) =
      readItems (readMember (readValue ('"' :: rest).length)) '\x7d' (('"' :: rest).length + 1)
        ('"' :: rest) := by
    rw [readBody, skipSpace_cons (by decide)]
    exact if_neg (by simp)
  rw [loads, List.length_cons, readValue, skipSpace_cons (by decide)]
  simp only [show ('\x7b' : Char) ≠ '"' by decide, if_false, if_true, inside, Option.bind_map]
  rfl

theorem loads_object {texts : List (List Char)} {members : List (List ℕ × Json)}
    (h : ∀ depth, List.Forall₂ (ReadsAs (readMember (readValue (depth + 1)))) texts members)
    (nonempty : texts ≠ []) (quoted : (List.intercalate [','] texts).head? = some '"') :
    loads ('\x7b' :: (List.intercalate [','] texts ++ ['\x7d'])) = some (.object members) := by
  have first : (List.intercalate [','] texts ++ ['\x7d']).head? = some '"' := by
    rw [List.head?_append, quoted]
    rfl
  have long := length_le_intercalate texts
  rw [loads_brace _ first, List.length_append, List.length_singleton,
    readItems_intercalate (h _) nonempty (.inr (.inl rfl)) (by decide) (by omega) []]
  rfl

end OtDetection.JsonText
