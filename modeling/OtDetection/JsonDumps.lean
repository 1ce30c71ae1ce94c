import OtDetection.JsonText
import OtDetection.TriagePrompt

/-! Indented JSON text, and that it reads back. A writer escapes all but ASCII, so that
a reader joins a high surrogate with a low one right behind it; a text where none stands
like that comes back as it was. -/

namespace OtDetection.JsonDumps
open PyText TriagePrompt JsonText

/-- A text in ASCII as characters. -/
def asChars (text : Text) : List Char := text.map Char.ofNat

/-! ## Writing -/

/-- What a report is made of. -/
inductive Doc
  | int (n : ℤ)
  | string (s : Text)
  | array (items : List Doc)
  | object (members : List (Text × Doc))

/-- A line break in front of `level` steps of two spaces. -/
def newline (level : ℕ) : Text := 0x0A :: List.replicate (2 * level) 0x20

/-- Items on lines of their own, between brackets. -/
def block (opening closing : ℕ) (level : ℕ) (items : List Text) : Text :=
  if items = [] then [opening, closing]
  else opening :: (newline (level + 1) ++ (join (0x2C :: newline (level + 1)) items ++
    (newline level ++ [closing])))

mutual

def write (level : ℕ) : Doc → Text
  | .int n => intText n
  | .string s => jsonString s
  | .array items => block 0x5B 0x5D level (writeItems (level + 1) items)
  | .object members => block 0x7B 0x7D level (writeMembers (level + 1) members)

def writeItems (level : ℕ) : List Doc → List Text
  | [] => []
  | item :: items => write level item :: writeItems level items

def writeMembers (level : ℕ) : List (Text × Doc) → List Text
  | [] => []
  | (name, value) :: members =>
    (jsonString name ++ (codes ": " ++ write level value)) :: writeMembers level members

end

/-- `json.dumps(doc, indent=2)`. -/
def dumps (doc : Doc) : Text := write 0 doc

/-! ## What a reader makes of it -/

/-- A high surrogate is joined with a low one right behind it. -/
def rejoin (s : Text) : Text := s.foldr joinUnit []

mutual

def Doc.json : Doc → Json
  | .int n => .number n
  | .string s => .string (rejoin s)
  | .array items => .array (jsonItems items)
  | .object members => .object (jsonMembers members)

def jsonItems : List Doc → List Json
  | [] => []
  | item :: items => item.json :: jsonItems items

def jsonMembers : List (Text × Doc) → List (List ℕ × Json)
  | [] => []
  | (name, value) :: members => (rejoin name, value.json) :: jsonMembers members

end

/-! ### Strings -/

theorem asChars_append (a b : Text) : asChars (a ++ b) = asChars a ++ asChars b := List.map_append

theorem asChars_cons (c : ℕ) (text : Text) : asChars (c :: text) = Char.ofNat c :: asChars text := rfl

theorem hexValue_hexDigit : ∀ d < 16, hexValue (Char.ofNat (hexDigit d)) = some d := by decide

theorem readChars_hexText {unit : ℕ} (h : unit < 0x10000) (rest : List Char) :
    readChars (asChars (codes "\\u" ++ hexText 4 unit) ++ rest) =
      (readChars rest).map fun p => (joinUnit unit p.1, p.2) := by
  have text : asChars (codes "\\u" ++ hexText 4 unit) = '\\' :: 'u' ::
      [Char.ofNat (hexDigit (unit / 16 / 16 / 16 % 16)), Char.ofNat (hexDigit (unit / 16 / 16 % 16)),
        Char.ofNat (hexDigit (unit / 16 % 16)), Char.ofNat (hexDigit (unit % 16))] := rfl
  have value : hex4 (Char.ofNat (hexDigit (unit / 16 / 16 / 16 % 16)))
      (Char.ofNat (hexDigit (unit / 16 / 16 % 16))) (Char.ofNat (hexDigit (unit / 16 % 16)))
      (Char.ofNat (hexDigit (unit % 16))) = some unit := by
    rw [hex4, hexValue_hexDigit _ (by omega), hexValue_hexDigit _ (by omega),
      hexValue_hexDigit _ (by omega), hexValue_hexDigit _ (by omega)]
    simp only [Option.bind_eq_bind, Option.bind_some, Option.some.injEq]
    omega
  rw [text]
  simp only [List.cons_append, List.nil_append]
  rw [readChars_unicode, value, Option.bind_some]

theorem joinUnit_of_not_high {c : ℕ} (h : ¬ isHigh c) (later : Text) :
    joinUnit c later = c :: later := by
  cases later with
  | nil => rfl
  | cons next later => exact if_neg fun both => h both.1

theorem readChars_short {c : ℕ} {e : Char} (h : e ≠ 'u') (value : escapeOf e = some c)
    (low : ¬ isHigh c) (rest : List Char) :
    readChars ('\\' :: e :: rest) = (readChars rest).map fun p => (joinUnit c p.1, p.2) := by
  rw [readChars_escape h, value]
  simp only [Option.bind_some, joinUnit_of_not_high low]

theorem readChars_jsonEscape {c : ℕ} (h : c < 0x110000) (rest : List Char) :
    readChars (asChars (jsonEscape c) ++ rest) =
      (readChars rest).map fun p => (joinUnit c p.1, p.2) := by
  unfold jsonEscape
  by_cases backslash : c = 0x5C
  · rw [if_pos backslash, backslash]
    exact readChars_short (e := '\\') (by decide) (by decide) (by decide) rest
  rw [if_neg backslash]
  by_cases quote : c = 0x22
  · rw [if_pos quote, quote]
    exact readChars_short (e := '"') (by decide) (by decide) (by decide) rest
  rw [if_neg quote]
  by_cases feed : c = 0x0A
  · rw [if_pos feed, feed]
    exact readChars_short (e := 'n') (by decide) (by decide) (by decide) rest
  rw [if_neg feed]
  by_cases return_ : c = 0x0D
  · rw [if_pos return_, return_]
    exact readChars_short (e := 'r') (by decide) (by decide) (by decide) rest
  rw [if_neg return_]
  by_cases tab : c = 0x09
  · rw [if_pos tab, tab]
    exact readChars_short (e := 't') (by decide) (by decide) (by decide) rest
  rw [if_neg tab]
  by_cases form : c = 0x0C
  · rw [if_pos form, form]
    exact readChars_short (e := 'f') (by decide) (by decide) (by decide) rest
  rw [if_neg form]
  by_cases back : c = 0x08
  · rw [if_pos back, back]
    exact readChars_short (e := 'b') (by decide) (by decide) (by decide) rest
  rw [if_neg back]
  by_cases plain : 0x20 ≤ c ∧ c ≤ 0x7E
  · rw [if_pos plain]
    have value : (Char.ofNat c).toNat = c := by
      rw [Char.ofNat, dif_pos (.inl (by omega))]
      rfl
    have isPlain : isPlain (Char.ofNat c) := by
      refine ⟨fun same => quote ?_, fun same => backslash ?_, by omega⟩
      · exact value.symm.trans (congrArg Char.toNat same)
      · exact value.symm.trans (congrArg Char.toNat same)
    have low : ¬ isHigh c := fun high => absurd high.1 (by omega)
    simp only [joinUnit_of_not_high low]
    rw [asChars_cons, List.cons_append, readChars_plain isPlain, value]
    rfl
  rw [if_neg plain]
  by_cases small : c < 0x10000
  · rw [if_pos small]
    exact readChars_hexText small rest
  · rw [if_neg small]
    have high : isHigh (0xD800 + (c - 0x10000) / 1024 % 1024) := ⟨by omega, by omega⟩
    have low : isLow (0xDC00 + (c - 0x10000) % 1024) := ⟨by omega, by omega⟩
    have lowOnly : ¬ isHigh (0xDC00 + (c - 0x10000) % 1024) := fun h => absurd h.2 (by omega)
    have whole : ¬ isHigh c := fun h => absurd h.2 (by omega)
    have joined : ∀ later, joinUnit (0xD800 + (c - 0x10000) / 1024 % 1024)
        ((0xDC00 + (c - 0x10000) % 1024) :: later) = c :: later := by
      intro later
      have value : 0x10000 + (0xD800 + (c - 0x10000) / 1024 % 1024 - 0xD800) * 0x400 +
          (0xDC00 + (c - 0x10000) % 1024 - 0xDC00) = c := by omega
      simp only [joinUnit, high, low, and_self, if_true, value]
    rw [← List.append_assoc, asChars_append, List.append_assoc, readChars_hexText (by omega),
      readChars_hexText (by omega), Option.map_map]
    simp only [Function.comp_def, joinUnit_of_not_high lowOnly, joined, joinUnit_of_not_high whole]

/-- The code points of a text. -/
def InRange (s : Text) : Prop := ∀ c ∈ s, c < 0x110000

instance (s : Text) : Decidable (InRange s) := inferInstanceAs (Decidable (∀ _ ∈ _, _))

theorem readChars_jsonString {s : Text} (h : InRange s) (rest : List Char) :
    readChars (asChars (s.flatMap jsonEscape ++ [0x22]) ++ rest) = some (rejoin s, rest) := by
  induction s with
  | nil => exact readChars_quote rest
  | cons c s ih =>
    have later := ih fun d mem => h d (List.mem_cons_of_mem c mem)
    rw [List.flatMap_cons, List.append_assoc, asChars_append, List.append_assoc,
      readChars_jsonEscape (h c List.mem_cons_self), later]
    rfl

/-! ### Values -/

/-- What may follow a value in an indented text. -/
def isStop (c : Char) : Prop := isEnd c ∨ isSpace c

def Blank (pad : List Char) : Prop := ∀ c ∈ pad, isSpace c

theorem blank_space : Blank [' '] := by
  intro c mem
  rw [List.mem_singleton.mp mem]
  exact .inl rfl

/-- `text` reads as `a` behind any whitespace and in front of whitespace, a comma or a
closing bracket. -/
def Reads {α : Type} (reader : List Char → Option (α × List Char)) (text : Text) (a : α) : Prop :=
  ∀ pad c rest, Blank pad → isStop c →
    reader (pad ++ (asChars text ++ c :: rest)) = some (a, c :: rest)

theorem isStop.endsNumber {c : Char} (h : isStop c) : endsNumber c := by
  rcases h with closing | rfl | rfl | rfl | rfl
  · exact closing.endsNumber
  all_goals decide

theorem skipSpace_append {pad : List Char} (h : Blank pad) (text : List Char) :
    skipSpace (pad ++ text) = skipSpace text :=
  List.dropWhile_append_of_pos fun c mem => by simpa using h c mem

theorem readValue_append {pad : List Char} (h : Blank pad) (depth : ℕ) (text : List Char) :
    readValue (depth + 1) (pad ++ text) = readValue (depth + 1) text := by
  rw [readValue, readValue, skipSpace_append h]

theorem readMember_append {pad : List Char} (h : Blank pad)
    (value : List Char → Option (Json × List Char)) (text : List Char) :
    readMember value (pad ++ text) = readMember value text := by
  rw [readMember, readMember, skipSpace_append h]

theorem reads_string {s : Text} (h : InRange s) (depth : ℕ) :
    Reads (readValue (depth + 1)) (jsonString s) (.string (rejoin s)) := by
  intro pad c rest blank _
  rw [readValue_append blank, jsonString, asChars_cons, List.cons_append]
  refine (readValue_quote depth _).trans ?_
  rw [readChars_jsonString h]
  rfl

theorem asChars_natText (n : ℕ) : asChars (natText n) = Nat.toDigits 10 n := by
  rw [asChars, natText, List.map_map]
  exact (List.map_congr_left fun c _ => Char.ofNat_toNat c).trans (List.map_id _)

theorem readNumber_minus (n : ℕ) {c : Char} (hc : endsNumber c) (rest : List Char) :
    readNumber ('-' :: (Nat.toDigits 10 n ++ c :: rest)) = some (-(n : ℚ), c :: rest) := by
  have frac : readFrac (c :: rest) = some ([], c :: rest) := if_neg (by simpa using hc.2.1)
  have exponent : readExponent (c :: rest) = some (0, c :: rest) := if_neg (by simpa using hc.2.2)
  rw [readNumber]
  simp only [List.head?_cons, List.tail_cons, if_true, readInt_toDigits n hc.1, Option.bind_eq_bind,
    Option.bind_some, frac, exponent, List.append_nil, Nat.ofDigitChars_ten_toDigits,
    List.length_nil, Nat.cast_zero, sub_zero, zpow_zero, mul_one]

theorem asChars_intText (n : ℤ) :
    ∃ c rest, asChars (intText n) = c :: rest ∧ (isDigit c = true ∨ c = '-') := by
  rw [intText, asChars_append, asChars_natText, sign]
  split_ifs with negative
  · exact ⟨'-', _, rfl, .inr rfl⟩
  · cases digits : Nat.toDigits 10 n.natAbs with
    | nil => exact absurd digits Nat.toDigits_ne_nil
    | cons d ds =>
      have first : isDigit d = true :=
        isDigit_of_mem_toDigits (n := n.natAbs) (by rw [digits]; exact List.mem_cons_self)
      exact ⟨d, ds, rfl, .inl first⟩

theorem readNumber_intText (n : ℤ) {c : Char} (hc : endsNumber c) (rest : List Char) :
    readNumber (asChars (intText n) ++ c :: rest) = some ((n : ℚ), c :: rest) := by
  rw [intText, asChars_append, asChars_natText, sign]
  split_ifs with negative
  · have value : (n : ℚ) = -((n.natAbs : ℕ) : ℚ) := by
      rw [Nat.cast_natAbs, abs_of_neg (by simpa using negative)]
      simp
    have minus : asChars (codes "-") = ['-'] := rfl
    rw [minus, List.singleton_append, List.cons_append, readNumber_minus _ hc, value]
  · have value : (n : ℚ) = ((n.natAbs : ℕ) : ℚ) := by
      rw [Nat.cast_natAbs, abs_of_nonneg (by simpa using negative)]
    have none : asChars [] = [] := rfl
    rw [none, List.nil_append, readNumber_toDigits _ hc, value]

theorem reads_int (n : ℤ) (depth : ℕ) :
    Reads (readValue (depth + 1)) (intText n) (.number n) := by
  intro pad c rest blank stop
  obtain ⟨d, ds, text, first⟩ := asChars_intText n
  have number := readNumber_intText n stop.endsNumber rest
  rw [text, List.cons_append] at number
  rw [readValue_append blank, text, List.cons_append, readValue_number depth first, number]
  rfl

/-! ### Items and members -/

section Items

variable {α : Type} {item : List Char → Option (α × List Char)}

theorem isStop_head {pad : List Char} (h : Blank pad) {close : Char} (hc : isEnd close)
    (more : List Char) : ∃ c rest, pad ++ close :: more = c :: rest ∧ isStop c := by
  cases pad with
  | nil => exact ⟨close, more, rfl, .inl hc⟩
  | cons c pad => exact ⟨c, pad ++ close :: more, rfl, .inr (h c List.mem_cons_self)⟩

theorem readItems_join {texts : List Text} {items : List α}
    (h : List.Forall₂ (Reads item) texts items) (nonempty : texts ≠ []) {pad : Text}
    (blank : Blank (asChars pad)) {lead last : List Char} (blankLead : Blank lead)
    (blankLast : Blank last) {close : Char} (hc : isEnd close) (other : close ≠ ',') {fuel : ℕ}
    (enough : texts.length ≤ fuel) (more : List Char) :
    readItems item close fuel
        (lead ++ (asChars (join (0x2C :: pad) texts) ++ (last ++ close :: more))) =
      some (items, more) := by
  induction h generalizing fuel lead with
  | nil => exact absurd rfl nonempty
  | @cons text a texts items first later ih =>
    obtain ⟨fuel, rfl⟩ : ∃ m, fuel = m + 1 := ⟨fuel - 1, by simp at enough; omega⟩
    cases texts with
    | nil =>
      cases later
      obtain ⟨c, rest, next, stop⟩ := isStop_head blankLast hc more
      have closing : skipSpace (c :: rest) = close :: more := by
        rw [← next, skipSpace_append blankLast, skipSpace_cons hc.not_space]
      rw [join, next, readItems, first _ c rest blankLead stop]
      simp only [Option.bind_some, closing, if_neg other, if_true]
    | cons next texts =>
      have fewer : (next :: texts).length ≤ fuel := by simpa using enough
      have tail := ih (by simp) blank fewer
      have split : asChars (join (0x2C :: pad) (text :: next :: texts)) ++ (last ++ close :: more) =
          asChars text ++ ',' :: (asChars pad ++
            (asChars (join (0x2C :: pad) (next :: texts)) ++ (last ++ close :: more))) := by
        rw [join, asChars_append, asChars_append, asChars_cons]
        simp only [List.append_assoc, List.cons_append]
      rw [split, readItems, first _ ',' _ blankLead (.inl (.inl rfl))]
      simp only [Option.bind_some, skipSpace_cons (c := ',') (by decide), if_true, tail]
      rfl

/-- The first character is neither a space nor a closing bracket. -/
def Opens (text : Text) : Prop := ∃ c rest, asChars text = c :: rest ∧ ¬ isSpace c ∧ ¬ isEnd c

theorem blank_newline (level : ℕ) : Blank (asChars (newline level)) := by
  intro c mem
  obtain ⟨code, inside, rfl⟩ := List.mem_map.mp mem
  rcases List.mem_cons.mp inside with rfl | space
  · exact .inr (.inr (.inl rfl))
  · rw [List.eq_of_mem_replicate space]
    exact .inl rfl

theorem join_cons (sep text : Text) (texts : List Text) :
    ∃ rest, join sep (text :: texts) = text ++ rest := by
  cases texts with
  | nil => exact ⟨[], (List.append_nil text).symm⟩
  | cons next texts => exact ⟨_, rfl⟩

theorem Opens.ne_nil {text : Text} (h : Opens text) : text ≠ [] := by
  rintro rfl
  obtain ⟨c, rest, first, -⟩ := h
  cases first

theorem length_le_join (sep : Text) (texts : List Text) (opens : ∀ text ∈ texts, text ≠ []) :
    texts.length ≤ (join sep texts).length := by
  induction texts with
  | nil => exact Nat.zero_le _
  | cons text texts ih =>
    have first := List.length_pos_iff.mpr (opens text List.mem_cons_self)
    cases texts with
    | nil =>
      rw [join, List.length_singleton]
      exact first
    | cons next texts =>
      have later := ih fun t mem => opens t (List.mem_cons_of_mem text mem)
      simp only [join, List.length_append, List.length_cons] at *
      omega

theorem length_le_join_of_mem {sep : Text} {texts : List Text} {text : Text} (h : text ∈ texts) :
    text.length ≤ (join sep texts).length := by
  induction texts with
  | nil => cases h
  | cons first texts ih =>
    cases texts with
    | nil =>
      rw [List.mem_singleton] at h
      rw [h, join]
    | cons next texts =>
      rw [join, List.length_append, List.length_append]
      rcases List.mem_cons.mp h with rfl | h
      · omega
      · have inside := ih h
        omega

theorem length_lt_block {opening closing level : ℕ} {texts : List Text} {text : Text}
    (h : text ∈ texts) : text.length < (block opening closing level texts).length := by
  have inside : text.length ≤ (join (0x2C :: newline (level + 1)) texts).length :=
    length_le_join_of_mem h
  rw [block, if_neg (List.ne_nil_of_mem h)]
  simp only [List.length_cons, List.length_append]
  omega

theorem readBody_join {texts : List Text} {items : List α}
    (h : List.Forall₂ (Reads item) texts items) (opens : ∀ text ∈ texts, Opens text) {pad : Text}
    (blank : Blank (asChars pad)) {lead last : List Char} (blankLead : Blank lead)
    (blankLast : Blank last) {close : Char} (hc : isEnd close) (other : close ≠ ',')
    (more : List Char) :
    readBody item close
        (lead ++ (asChars (join (0x2C :: pad) texts) ++ (last ++ close :: more))) =
      some (items, more) := by
  cases h with
  | nil =>
    have closing : skipSpace (lead ++ (asChars (join (0x2C :: pad) []) ++ (last ++ close :: more))) =
        close :: more := by
      have empty : asChars (join (0x2C :: pad) []) = [] := rfl
      rw [skipSpace_append blankLead, empty, List.nil_append, skipSpace_append blankLast,
        skipSpace_cons hc.not_space]
    rw [readBody, closing]
    exact if_pos rfl
  | @cons text a texts items first later =>
    have notClosed : (skipSpace (lead ++ (asChars (join (0x2C :: pad) (text :: texts)) ++
        (last ++ close :: more)))).head? ≠ some close := by
      obtain ⟨c, begin_, starts, space, ending⟩ := opens text List.mem_cons_self
      obtain ⟨rest, whole⟩ := join_cons (0x2C :: pad) text texts
      rw [skipSpace_append blankLead, whole, asChars_append, starts]
      simp only [List.cons_append]
      rw [skipSpace_cons space, List.head?_cons]
      exact fun same => ending (Option.some.inj same ▸ hc)
    have enough := length_le_join (0x2C :: pad) (text :: texts) fun t mem => (opens t mem).ne_nil
    rw [readBody, if_neg notClosed]
    refine readItems_join (.cons first later) (by simp) blank blankLead blankLast hc other ?_ more
    simp only [List.length_append, asChars, List.length_map]
    omega

theorem blank_nil : Blank [] := List.forall_mem_nil _

theorem readBody_block {texts : List Text} {items : List α}
    (h : List.Forall₂ (Reads item) texts items) (opens : ∀ text ∈ texts, Opens text)
    (opening : ℕ) {closing : ℕ} (hc : isEnd (Char.ofNat closing))
    (other : Char.ofNat closing ≠ ',') (level : ℕ) (more : List Char) :
    readBody item (Char.ofNat closing)
        (asChars (block opening closing level texts).tail ++ more) = some (items, more) := by
  cases h with
  | nil => exact @readBody_join _ item _ _ .nil opens [] blank_nil [] [] blank_nil blank_nil _ hc other more
  | @cons text a texts items first later =>
    have inner : asChars (block opening closing level (text :: texts)).tail ++ more =
        asChars (newline (level + 1)) ++
          (asChars (join (0x2C :: newline (level + 1)) (text :: texts)) ++
            (asChars (newline level) ++ Char.ofNat closing :: more)) := by
      rw [block, if_neg (by simp), List.tail_cons, asChars_append, asChars_append, asChars_append]
      simp only [List.append_assoc]
      rfl
    rw [inner]
    exact readBody_join (.cons first later) opens (blank_newline _) (blank_newline _)
      (blank_newline _) hc other more

end Items

theorem block_eq_cons (opening closing level : ℕ) (texts : List Text) :
    block opening closing level texts = opening :: (block opening closing level texts).tail := by
  unfold block
  split <;> rfl

theorem reads_array {depth : ℕ} {texts : List Text} {items : List Json}
    (h : List.Forall₂ (Reads (readValue depth)) texts items)
    (opens : ∀ text ∈ texts, Opens text) (level : ℕ) :
    Reads (readValue (depth + 1)) (block 0x5B 0x5D level texts) (.array items) := by
  intro pad c rest blank _
  have bracket : Char.ofNat 0x5B = '[' := rfl
  have closing : isEnd (Char.ofNat 0x5D) := .inr (.inr rfl)
  have body := readBody_block h opens 0x5B closing (by decide) level (c :: rest)
  rw [readValue_append blank, block_eq_cons, asChars_cons, bracket, List.cons_append, readValue,
    skipSpace_cons (by decide)]
  simp only [show ('[' : Char) ≠ '"' by decide, show ('[' : Char) ≠ '\x7b' by decide, if_false,
    if_true]
  exact congrArg _ body

theorem reads_object {depth : ℕ} {texts : List Text} {members : List (List ℕ × Json)}
    (h : List.Forall₂ (Reads (readMember (readValue depth))) texts members)
    (opens : ∀ text ∈ texts, Opens text) (level : ℕ) :
    Reads (readValue (depth + 1)) (block 0x7B 0x7D level texts) (.object members) := by
  intro pad c rest blank _
  have brace : Char.ofNat 0x7B = '\x7b' := rfl
  have closing : isEnd (Char.ofNat 0x7D) := .inr (.inl rfl)
  have body := readBody_block h opens 0x7B closing (by decide) level (c :: rest)
  rw [readValue_append blank, block_eq_cons, asChars_cons, brace, List.cons_append, readValue,
    skipSpace_cons (by decide)]
  simp only [show ('\x7b' : Char) ≠ '"' by decide, if_false, if_true]
  exact congrArg _ body

theorem reads_member {value : List Char → Option (Json × List Char)} {name text : Text} {v : Json}
    (h : InRange name) (hv : Reads value text v) :
    Reads (readMember value) (jsonString name ++ (codes ": " ++ text)) (rejoin name, v) := by
  intro pad c rest blank stop
  have inner : asChars (jsonString name ++ (codes ": " ++ text)) ++ c :: rest =
      '"' :: (asChars (name.flatMap jsonEscape ++ [0x22]) ++
        ':' :: ([' '] ++ (asChars text ++ c :: rest))) := by
    rw [jsonString, List.cons_append, asChars_cons, asChars_append, asChars_append]
    simp only [List.append_assoc, List.cons_append]
    rfl
  rw [readMember_append blank, inner, readMember, skipSpace_cons (by decide)]
  simp only [if_true, readChars_jsonString h, Option.bind_some,
    skipSpace_cons (c := ':') (by decide), hv _ c rest blank_space stop]
  rfl

/-! ## The round trip -/

mutual

/-- The strings of a document are in range. -/
def Doc.Valid : Doc → Prop
  | .int _ => True
  | .string s => InRange s
  | .array items => validItems items
  | .object members => validMembers members

def validItems : List Doc → Prop
  | [] => True
  | item :: items => item.Valid ∧ validItems items

def validMembers : List (Text × Doc) → Prop
  | [] => True
  | (name, value) :: members => (InRange name ∧ value.Valid) ∧ validMembers members

end

theorem jsonItems_map {α : Type*} (f : α → Doc) (items : List α) :
    jsonItems (items.map f) = items.map fun item => (f item).json := by
  induction items with
  | nil => rfl
  | cons item items ih => rw [List.map_cons, jsonItems, ih, List.map_cons]

theorem jsonMembers_map {α : Type*} (name : α → Text) (f : α → Doc) (items : List α) :
    jsonMembers (items.map fun item => (name item, f item)) =
      items.map fun item => (rejoin (name item), (f item).json) := by
  induction items with
  | nil => rfl
  | cons item items ih => rw [List.map_cons, jsonMembers, ih, List.map_cons]

theorem validItems_map {α : Type*} {f : α → Doc} {items : List α}
    (h : ∀ item ∈ items, (f item).Valid) : validItems (items.map f) := by
  induction items with
  | nil => exact trivial
  | cons item items ih =>
    exact ⟨h item List.mem_cons_self, ih fun other mem => h other (List.mem_cons_of_mem item mem)⟩

theorem validMembers_map {α : Type*} {name : α → Text} {f : α → Doc} {items : List α}
    (h : ∀ item ∈ items, InRange (name item) ∧ (f item).Valid) :
    validMembers (items.map fun item => (name item, f item)) := by
  induction items with
  | nil => exact trivial
  | cons item items ih =>
    exact ⟨h item List.mem_cons_self, ih fun other mem => h other (List.mem_cons_of_mem item mem)⟩

theorem opens_quote (text : Text) : Opens (0x22 :: text) :=
  ⟨'"', asChars text, rfl, by decide, by decide⟩

theorem opens_write (level : ℕ) (doc : Doc) : Opens (write level doc) := by
  cases doc with
  | int n =>
    obtain ⟨d, ds, text, first⟩ := asChars_intText n
    refine ⟨d, ds, text, ?_, ?_⟩
    · rintro (rfl | rfl | rfl | rfl) <;> exact absurd first (by decide)
    · rintro (rfl | rfl | rfl) <;> exact absurd first (by decide)
  | string s => exact opens_quote _
  | array items =>
    rw [write, block_eq_cons]
    exact ⟨'[', _, rfl, by decide, by decide⟩
  | object members =>
    rw [write, block_eq_cons]
    exact ⟨'\x7b', _, rfl, by decide, by decide⟩

theorem opens_writeItems (level : ℕ) (items : List Doc) :
    ∀ text ∈ writeItems level items, Opens text := by
  induction items with
  | nil => exact fun text mem => absurd mem List.not_mem_nil
  | cons item items ih =>
    rw [writeItems]
    exact List.forall_mem_cons.mpr ⟨opens_write level item, ih⟩

theorem opens_writeMembers (level : ℕ) (members : List (Text × Doc)) :
    ∀ text ∈ writeMembers level members, Opens text := by
  induction members with
  | nil => exact fun text mem => absurd mem List.not_mem_nil
  | cons member members ih =>
    rw [writeMembers]
    exact List.forall_mem_cons.mpr ⟨opens_quote _, ih⟩

mutual

theorem reads_write (doc : Doc) (valid : doc.Valid) (level : ℕ) {depth : ℕ}
    (deep : (write level doc).length ≤ depth) :
    Reads (readValue depth) (write level doc) doc.json := by
  obtain ⟨depth, rfl⟩ : ∃ m, depth = m + 1 := by
    have positive := List.length_pos_iff.mpr (opens_write level doc).ne_nil
    exact ⟨depth - 1, by omega⟩
  cases doc with
  | int n => exact reads_int n depth
  | string s => exact reads_string valid depth
  | array items =>
    rw [write] at deep ⊢
    refine reads_array (reads_writeItems items valid (level + 1) fun text mem => ?_)
      (opens_writeItems _ items) level
    have inside : text.length < (block 0x5B 0x5D level _).length := length_lt_block mem
    omega
  | object members =>
    rw [write] at deep ⊢
    refine reads_object (reads_writeMembers members valid (level + 1) fun text mem => ?_)
      (opens_writeMembers _ members) level
    have inside : text.length < (block 0x7B 0x7D level _).length := length_lt_block mem
    omega

theorem reads_writeItems (items : List Doc) (valid : validItems items) (level : ℕ) {depth : ℕ}
    (deep : ∀ text ∈ writeItems level items, text.length ≤ depth) :
    List.Forall₂ (Reads (readValue depth)) (writeItems level items) (jsonItems items) := by
  cases items with
  | nil => exact .nil
  | cons item items =>
    rw [writeItems] at deep ⊢
    exact .cons (reads_write item valid.1 level (deep _ List.mem_cons_self))
      (reads_writeItems items valid.2 level fun text mem => deep text (List.mem_cons_of_mem _ mem))

theorem reads_writeMembers (members : List (Text × Doc)) (valid : validMembers members)
    (level : ℕ) {depth : ℕ} (deep : ∀ text ∈ writeMembers level members, text.length ≤ depth) :
    List.Forall₂ (Reads (readMember (readValue depth))) (writeMembers level members)
      (jsonMembers members) := by
  cases members with
  | nil => exact .nil
  | cons member members =>
    obtain ⟨name, value⟩ := member
    rw [writeMembers] at deep ⊢
    have short : (write level value).length ≤ depth := by
      have whole := deep _ List.mem_cons_self
      simp only [List.length_append] at whole
      omega
    exact .cons (reads_member valid.1.1 (reads_write value valid.1.2 level short))
      (reads_writeMembers members valid.2 level fun text mem =>
        deep text (List.mem_cons_of_mem _ mem))

end

theorem loads_dumps {doc : Doc} (valid : doc.Valid) :
    loads (asChars (dumps doc ++ [0x0A])) = some doc.json := by
  have text : asChars (dumps doc ++ [0x0A]) = asChars (write 0 doc) ++ ['\n'] :=
    asChars_append _ _
  have deep : (write 0 doc).length ≤ (asChars (dumps doc ++ [0x0A])).length := by
    simp [asChars, dumps]
  have value : readValue (asChars (dumps doc ++ [0x0A])).length (asChars (dumps doc ++ [0x0A])) =
      some (doc.json, ['\n']) := by
    have reads := reads_write doc valid 0 deep [] '\n' []
      (fun c mem => absurd mem List.not_mem_nil) (.inr (.inr (.inr (.inl rfl))))
    rw [List.nil_append, ← text] at reads
    exact reads
  rw [loads, value, Option.bind_some]
  exact if_pos rfl

/-- No high surrogate stands right in front of a low one. -/
def IsJoined (s : Text) : Prop := List.IsChain (fun a b => ¬ (isHigh a ∧ isLow b)) s

instance (s : Text) : Decidable (IsJoined s) := inferInstanceAs (Decidable (List.IsChain _ s))

theorem rejoin_eq_self {s : Text} (h : IsJoined s) : rejoin s = s := by
  induction s with
  | nil => rfl
  | cons c s ih =>
    have later := ih (List.isChain_of_isChain_cons h)
    have whole : rejoin (c :: s) = joinUnit c (rejoin s) := rfl
    rw [whole, later]
    cases s with
    | nil => rfl
    | cons next s => exact if_neg (List.isChain_cons_cons.mp h).1

end OtDetection.JsonDumps
