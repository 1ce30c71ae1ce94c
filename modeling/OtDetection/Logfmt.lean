import Mathlib.Data.Nat.Notation
import Mathlib.Data.List.TakeWhile
import Mathlib.Tactic.Common

/-! The logfmt grammar on code points. A line is a list of pairs `key=value` with spaces or
control characters between them. A bare value is a maximal run of characters above the
space other than an equals sign or a quote; a quoted one has escapes and no control
character. -/

namespace OtDetection.Logfmt

abbrev Line := List ℕ

/-! ## Reading -/

def isSeparator (c : ℕ) : Bool := c ≤ 0x20

def isBare (c : ℕ) : Bool := 0x20 < c ∧ c ≠ 0x3D ∧ c ≠ 0x22

/-- What a backslash makes of the character behind it. -/
def escapeOf (c : ℕ) : Option ℕ :=
  match c with
  | 0x22 | 0x27 | 0x2F | 0x5C => some c
  | 0x62 => some 0x08
  | 0x66 => some 0x0C
  | 0x6E => some 0x0A
  | 0x72 => some 0x0D
  | 0x74 => some 0x09
  | _ => none

/-- A value behind its opening quote, and what follows the closing one. -/
def readQuoted : Line → Option (Line × Line)
  | [] => none
  | 0x22 :: rest => some ([], rest)
  | 0x5C :: e :: rest => do
    let c ← escapeOf e
    let (text, rest) ← readQuoted rest
    return (c :: text, rest)
  | c :: rest =>
    if c < 0x20 then none else (readQuoted rest).map fun (text, rest) => (c :: text, rest)

def readValue : Line → Option (Line × Line)
  | 0x22 :: rest => readQuoted rest
  | line => some (line.takeWhile isBare, line.dropWhile isBare)

def readPair (line : Line) : Option ((Line × Line) × Line) :=
  match line.dropWhile isBare with
  | 0x3D :: rest => (readValue rest).map fun (value, rest) => ((line.takeWhile isBare, value), rest)
  | _ => none

def endsPair (rest : Line) : Bool := rest.head?.all isSeparator

theorem length_dropWhile_le (p : ℕ → Bool) (line : Line) :
    (line.dropWhile p).length ≤ line.length :=
  (List.dropWhile_suffix p).length_le

theorem readQuoted_length {line text rest : Line} (h : readQuoted line = some (text, rest)) :
    rest.length < line.length := by
  induction line using readQuoted.induct generalizing text with
  | case1 => cases h
  | case2 rest' =>
    cases h
    exact Nat.lt_succ_self _
  | case3 e rest' ih =>
    simp only [readQuoted, Option.bind_eq_bind, Option.bind_eq_some_iff] at h
    obtain ⟨c, -, ⟨text', behind⟩, reads, same⟩ := h
    cases same
    exact (ih reads).trans (Nat.lt_succ_of_lt (Nat.lt_succ_self _))
  | case4 c rest' notQuote notEscape control =>
    rw [readQuoted] at h
    · rw [if_pos control] at h
      cases h
    all_goals assumption
  | case5 c rest' notQuote notEscape control ih =>
    rw [readQuoted] at h
    · rw [if_neg control, Option.map_eq_some_iff] at h
      obtain ⟨⟨text', behind⟩, reads, same⟩ := h
      cases same
      exact Nat.lt_succ_of_lt (ih reads)
    all_goals assumption

theorem readPair_length {line behind : Line} {pair : Line × Line}
    (h : readPair line = some (pair, behind)) : behind.length < line.length := by
  have shorter := length_dropWhile_le isBare line
  unfold readPair at h
  split at h
  · rename_i rest after
    rw [after, List.length_cons] at shorter
    obtain ⟨⟨value, behind'⟩, reads, same⟩ := Option.map_eq_some_iff.mp h
    cases same
    unfold readValue at reads
    split at reads
    · have quoted := readQuoted_length reads
      rw [List.length_cons] at shorter
      omega
    · cases reads
      have bare := length_dropWhile_le isBare rest
      omega
  · cases h

/-- The pairs of a line, unless it is no list of pairs. -/
def decode (line : Line) : Option (List (Line × Line)) :=
  match _start : line.dropWhile isSeparator with
  | [] => some []
  | c :: rest =>
    match _first : readPair (c :: rest) with
    | none => none
    | some (pair, behind) => if endsPair behind then (decode behind).map (pair :: ·) else none
termination_by line.length
decreasing_by
  have skipped := length_dropWhile_le isSeparator line
  rw [_start] at skipped
  exact (readPair_length _first).trans_le skipped

theorem decode_nil : decode [] = some [] := by
  rw [decode]
  rfl

theorem decode_separator {c : ℕ} (h : isSeparator c = true) (rest : Line) :
    decode (c :: rest) = decode rest := by
  rw [decode, decode, List.dropWhile_cons_of_pos h]

theorem decode_pair {c : ℕ} (h : isSeparator c = false) (rest : Line) :
    decode (c :: rest) = (readPair (c :: rest)).bind fun p =>
      if endsPair p.2 then (decode p.2).map (p.1 :: ·) else none := by
  rw [decode, List.dropWhile_cons_of_neg (by simp [h])]
  split
  · rename_i empty
    cases empty
  · rename_i same
    cases same
    split
    · rename_i refused
      rw [refused]
      rfl
    · rename_i reads
      rw [reads]
      rfl

/-! ## Values as they are written -/

/-- A coded value is read as `value`, wherever it ends. -/
def Reads (coded value : Line) : Prop :=
  ∀ rest, endsPair rest = true → readValue (coded ++ rest) = some (value, rest)

/-- A coded value is never read as `value`. -/
def Misses (coded value : Line) : Prop :=
  ∀ rest behind, endsPair rest = true → readValue (coded ++ rest) ≠ some (value, behind)

def NoControl (value : Line) : Prop := ∀ c ∈ value, 0x20 ≤ c

instance (value : Line) : Decidable (NoControl value) := inferInstanceAs (Decidable (∀ _ ∈ _, _))

theorem Reads.not_misses {coded value : Line} (reads : Reads coded value) :
    ¬ Misses coded value := fun misses => misses [] [] rfl (reads [] rfl)

theorem takeWhile_isBare_end {rest : Line} (ends : endsPair rest = true) :
    rest.takeWhile isBare = [] := by
  cases rest with
  | nil => rfl
  | cons c rest =>
    have separator : c ≤ 0x20 := of_decide_eq_true ends
    apply List.takeWhile_cons_of_neg
    simp [isBare]
    omega

theorem takeWhile_append_end {value rest : Line} (ends : endsPair rest = true) :
    (value ++ rest).takeWhile isBare = value.takeWhile isBare := by
  induction value with
  | nil => exact takeWhile_isBare_end ends
  | cons c value ih =>
    rw [List.cons_append, List.takeWhile_cons, List.takeWhile_cons, ih]

/-- A value without a space, a quote or an equals sign. -/
structure IsPlain (value : Line) : Prop where
  nonempty : value ≠ []
  space : 0x20 ∉ value
  quote : 0x22 ∉ value
  equals : 0x3D ∉ value

theorem IsPlain.isBare_iff {value : Line} (plain : IsPlain value) {c : ℕ} (mem : c ∈ value) :
    isBare c = true ↔ 0x20 ≤ c := by
  have space : c ≠ 0x20 := fun same => plain.space (same ▸ mem)
  have quote : c ≠ 0x22 := fun same => plain.quote (same ▸ mem)
  have equals : c ≠ 0x3D := fun same => plain.equals (same ▸ mem)
  simp only [isBare, decide_eq_true_eq]
  omega

theorem readValue_plain {value : Line} (plain : IsPlain value) (rest : Line) :
    readValue (value ++ rest) =
      some ((value ++ rest).takeWhile isBare, (value ++ rest).dropWhile isBare) := by
  cases value with
  | nil => exact absurd rfl plain.nonempty
  | cons c value =>
    have quote : c ≠ 0x22 := fun same => plain.quote (same ▸ List.mem_cons_self)
    rw [List.cons_append, readValue]
    intro rest' same
    exact quote (List.cons.inj same).1

theorem reads_plain {value : Line} (plain : IsPlain value) (clean : NoControl value) :
    Reads value value := by
  intro rest ends
  have bare : ∀ c ∈ value, isBare c = true := fun c mem =>
    (plain.isBare_iff mem).mpr (clean c mem)
  have behind : rest.dropWhile isBare = rest := by
    have split := List.takeWhile_append_dropWhile (p := isBare) (l := rest)
    rwa [takeWhile_isBare_end ends] at split
  rw [readValue_plain plain, List.takeWhile_append_of_pos bare, takeWhile_isBare_end ends,
    List.append_nil, List.dropWhile_append_of_pos bare, behind]

theorem misses_plain {value : Line} (plain : IsPlain value) (control : ¬ NoControl value) :
    Misses value value := by
  intro rest behind ends reads
  rw [readValue_plain plain, takeWhile_append_end ends] at reads
  have whole : value.takeWhile isBare = value := congrArg Prod.fst (Option.some.inj reads)
  apply control
  intro c mem
  exact (plain.isBare_iff mem).mp (List.takeWhile_eq_self_iff.mp whole c mem)

def escape (c : ℕ) : Line := if c = 0x5C ∨ c = 0x22 then [0x5C, c] else [c]

def quoted (value : Line) : Line := 0x22 :: (value.flatMap escape ++ [0x22])

theorem readQuoted_escape (c : ℕ) (rest : Line) :
    readQuoted (escape c ++ rest) =
      if c < 0x20 then none else (readQuoted rest).map fun p => (c :: p.1, p.2) := by
  rw [escape]
  split_ifs with special control control
  · omega
  · rw [List.cons_append, List.singleton_append, readQuoted]
    have self : escapeOf c = some c := by
      rcases special with rfl | rfl
      · rfl
      · rfl
    rw [self]
    cases readQuoted rest <;> rfl
  · rw [List.singleton_append, readQuoted, if_pos control]
    · intro quote
      exact special (.inr quote)
    · intro e rest' backslash
      exact absurd (.inl backslash) special
  · rw [List.singleton_append, readQuoted, if_neg control]
    · intro quote
      exact special (.inr quote)
    · intro e rest' backslash
      exact absurd (.inl backslash) special

theorem readQuoted_flatMap (value rest : Line) (clean : NoControl value) :
    readQuoted (value.flatMap escape ++ 0x22 :: rest) = some (value, rest) := by
  induction value with
  | nil => rfl
  | cons c value ih =>
    have first : ¬ c < 0x20 := (clean c List.mem_cons_self).not_gt
    rw [List.flatMap_cons, List.append_assoc, readQuoted_escape, if_neg first,
      ih fun d mem => clean d (List.mem_cons_of_mem c mem)]
    rfl

theorem readQuoted_control (value rest : Line) (control : ¬ NoControl value) :
    readQuoted (value.flatMap escape ++ 0x22 :: rest) = none := by
  induction value with
  | nil => exact absurd (List.forall_mem_nil _) control
  | cons c value ih =>
    rw [List.flatMap_cons, List.append_assoc, readQuoted_escape]
    split_ifs with first
    · rfl
    · rw [ih fun later => control (List.forall_mem_cons.mpr ⟨not_lt.mp first, later⟩)]
      rfl

theorem readValue_quoted (value rest : Line) :
    readValue (quoted value ++ rest) = readQuoted (value.flatMap escape ++ 0x22 :: rest) := by
  rw [quoted, List.cons_append, readValue, List.append_assoc, List.singleton_append]

theorem reads_quoted {value : Line} (clean : NoControl value) :
    Reads (quoted value) value := by
  intro rest _
  rw [readValue_quoted, readQuoted_flatMap value rest clean]

theorem misses_quoted {value : Line} (control : ¬ NoControl value) :
    Misses (quoted value) value := by
  intro rest behind _
  rw [readValue_quoted, readQuoted_control value rest control]
  simp

/-! ## Lines as they are written -/

def encodePair (code : Line → Line) (pair : Line × Line) : Line := pair.1 ++ 0x3D :: code pair.2

/-- The pairs with a space between them. -/
def encode (code : Line → Line) : List (Line × Line) → Line
  | [] => []
  | [pair] => encodePair code pair
  | pair :: next :: pairs => encodePair code pair ++ 0x20 :: encode code (next :: pairs)

theorem encode_cons (code : Line → Line) (pair : Line × Line) (pairs : List (Line × Line)) :
    ∃ rest, encode code (pair :: pairs) = encodePair code pair ++ rest ∧
      endsPair rest = true ∧ decode rest = decode (encode code pairs) := by
  cases pairs with
  | nil => exact ⟨[], by rw [encode, List.append_nil], rfl, rfl⟩
  | cons next pairs => exact ⟨_, rfl, rfl, decode_separator rfl _⟩

def IsKey (key : Line) : Prop := ∀ c ∈ key, isBare c = true

instance (key : Line) : Decidable (IsKey key) := inferInstanceAs (Decidable (∀ _ ∈ _, _))

theorem readPair_key {key : Line} (isKey : IsKey key) (line : Line) :
    readPair (key ++ 0x3D :: line) = (readValue line).map fun p => ((key, p.1), p.2) := by
  have stop : isBare 0x3D = false := rfl
  rw [readPair, List.dropWhile_append_of_pos isKey, List.takeWhile_append_of_pos isKey,
    List.dropWhile_cons_of_neg (by simp [stop]), List.takeWhile_cons_of_neg (by simp [stop]),
    List.append_nil]
  rfl

theorem decode_key {key : Line} (isKey : IsKey key) (line : Line) :
    decode (key ++ 0x3D :: line) = (readValue line).bind fun p =>
      if endsPair p.2 then (decode p.2).map ((key, p.1) :: ·) else none := by
  have reads := readPair_key isKey line
  cases key with
  | nil =>
    rw [List.nil_append] at reads ⊢
    rw [decode_pair rfl, reads, Option.bind_map]
    rfl
  | cons c key =>
    have first : isSeparator c = false := by
      have bare := isKey c List.mem_cons_self
      simp only [isBare, decide_eq_true_eq] at bare
      simp only [isSeparator, decide_eq_false_iff_not]
      omega
    rw [List.cons_append] at reads ⊢
    rw [decode_pair first, reads, Option.bind_map]
    rfl

theorem decode_encode_iff {code : Line → Line} {pairs : List (Line × Line)}
    (keys : ∀ pair ∈ pairs, IsKey pair.1)
    (values : ∀ pair ∈ pairs,
      Reads (code pair.2) pair.2 ∨ Misses (code pair.2) pair.2) :
    decode (encode code pairs) = some pairs ↔
      ∀ pair ∈ pairs, Reads (code pair.2) pair.2 := by
  induction pairs with
  | nil => simp [encode, decode_nil]
  | cons pair pairs ih =>
    obtain ⟨rest, line, ends, behind⟩ := encode_cons code pair pairs
    rw [List.forall_mem_cons] at keys values ⊢
    rw [line, encodePair, List.append_assoc, List.cons_append, decode_key keys.1]
    rcases values.1 with reads | misses
    · rw [reads rest ends, ← ih keys.2 values.2, ← behind]
      simp [ends, reads, Option.map_eq_some_iff]
    · refine iff_of_false ?_ fun all => all.1.not_misses misses
      intro decoded
      obtain ⟨p, reads, same⟩ := Option.bind_eq_some_iff.mp decoded
      split_ifs at same
      obtain ⟨later, -, same⟩ := Option.map_eq_some_iff.mp same
      have value : p.1 = pair.2 := congrArg Prod.snd (List.cons.inj same).1
      exact misses rest p.2 ends (value ▸ reads)

end OtDetection.Logfmt
