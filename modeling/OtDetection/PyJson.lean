import OtDetection.JsonValues
import OtDetection.PromptBound

/-! Python values as JSON on one line, and that it reads back. Sorted names change the order of
the members and nothing else, and no control character is written as it is. -/

namespace OtDetection.PyJson
open PyText TriagePrompt JsonText JsonDumps JsonValues FieldLookup

/-! ## Writing -/

mutual

/-- `json.dumps(value)`. -/
def dumps : PyValue → Text
  | .none => codes "null"
  | .bool b => if b then codes "true" else codes "false"
  | .int n => intText n
  | .float f => jsonFloat f
  | .str s => jsonString s
  | .list items => codes "[" ++ (join (codes ", ") (dumpsItems items) ++ codes "]")
  | .dict items => codes "\x7b" ++ (join (codes ", ") (dumpsMembers items) ++ codes "\x7d")

def dumpsItems : List PyValue → List Text
  | [] => []
  | item :: items => dumps item :: dumpsItems items

def dumpsMembers : List (Text × PyValue) → List Text
  | [] => []
  | (name, value) :: items =>
    (jsonString name ++ (codes ": " ++ dumps value)) :: dumpsMembers items

end

/-- Members by name. -/
def byName (items : List (Text × PyValue)) : List (Text × PyValue) :=
  items.insertionSort fun a b => a.1 ≤ b.1

mutual

/-- What `sort_keys=True` writes instead of a value. -/
def sortKeys : PyValue → PyValue
  | .list items => .list (sortItems items)
  | .dict items => .dict (byName (sortMembers items))
  | value => value

def sortItems : List PyValue → List PyValue
  | [] => []
  | item :: items => sortKeys item :: sortItems items

def sortMembers : List (Text × PyValue) → List (Text × PyValue)
  | [] => []
  | (name, value) :: items => (name, sortKeys value) :: sortMembers items

end

/-- An event with its names in order. -/
def sorted (event : Event) : Event := byName (sortMembers event)

/-- `json.dumps(event, sort_keys=True)`. -/
def dumpsSorted (event : Event) : Text := dumps (.dict (sorted event))

/-! ## What a reader makes of it -/

/-- The number that the text of a float spells. -/
def spelled (f : PyFloat) : ℚ := ((readNumber (asChars f.repr ++ [' '])).map Prod.fst).getD 0

mutual

def jsonOf : PyValue → Json
  | .none => .null
  | .bool b => .bool b
  | .int n => .number n
  | .float f => .number (spelled f)
  | .str s => .string (rejoin s)
  | .list items => .array (jsonItems items)
  | .dict items => .object (jsonMembers items)

def jsonItems : List PyValue → List Json
  | [] => []
  | item :: items => jsonOf item :: jsonItems items

def jsonMembers : List (Text × PyValue) → List (List ℕ × Json)
  | [] => []
  | (name, value) :: items => (rejoin name, jsonOf value) :: jsonMembers items

end

mutual

/-- Characters within Unicode, and floats that are numbers. -/
def Writable : PyValue → Prop
  | .float (.finite _ digits point) => ShortestDigits digits point
  | .float _ => False
  | .str s => InRange s
  | .list items => writableItems items
  | .dict items => writableMembers items
  | _ => True

def writableItems : List PyValue → Prop
  | [] => True
  | item :: items => Writable item ∧ writableItems items

def writableMembers : List (Text × PyValue) → Prop
  | [] => True
  | (name, value) :: items => (InRange name ∧ Writable value) ∧ writableMembers items

end

theorem writableMembers_iff {items : List (Text × PyValue)} :
    writableMembers items ↔ ∀ item ∈ items, InRange item.1 ∧ Writable item.2 := by
  induction items with
  | nil => exact iff_of_true trivial (List.forall_mem_nil _)
  | cons item items ih => rw [writableMembers, ih, List.forall_mem_cons]

theorem sortMembers_eq_map (items : List (Text × PyValue)) :
    sortMembers items = items.map fun item => (item.1, sortKeys item.2) := by
  induction items with
  | nil => rfl
  | cons item items ih => rw [sortMembers, ih, List.map_cons]

/-! ## Scalars -/

theorem readValue_null (depth : ℕ) (rest : List Char) :
    readValue (depth + 1) ('n' :: 'u' :: 'l' :: 'l' :: rest) = some (.null, rest) := by
  rw [readValue, skipSpace_cons (by decide)]
  rfl

theorem readValue_true (depth : ℕ) (rest : List Char) :
    readValue (depth + 1) ('t' :: 'r' :: 'u' :: 'e' :: rest) = some (.bool true, rest) := by
  rw [readValue, skipSpace_cons (by decide)]
  rfl

theorem readValue_false (depth : ℕ) (rest : List Char) :
    readValue (depth + 1) ('f' :: 'a' :: 'l' :: 's' :: 'e' :: rest) = some (.bool false, rest) := by
  rw [readValue, skipSpace_cons (by decide)]
  rfl

theorem reads_null (depth : ℕ) : Reads (readValue (depth + 1)) (dumps .none) .null := by
  intro pad c rest blank _
  rw [readValue_append blank]
  exact readValue_null depth _

theorem reads_bool (b : Bool) (depth : ℕ) :
    Reads (readValue (depth + 1)) (dumps (.bool b)) (.bool b) := by
  intro pad c rest blank _
  rw [readValue_append blank]
  cases b with
  | true => exact readValue_true depth _
  | false => exact readValue_false depth _

section Float

variable (negative : Bool) {digits : List (Fin 10)} {point : ℤ}

theorem numeral_float (short : ShortestDigits digits point) :
    ∃ whole fraction exponent, IsNumber negative whole fraction exponent ∧
      asChars (dumps (.float (.finite negative digits point))) =
        numberText negative whole fraction exponent := by
  obtain ⟨whole, fraction, exponent, text, number, -⟩ := numeral_repr negative short
  refine ⟨_, _, _, number, ?_⟩
  have written : dumps (.float (.finite negative digits point)) =
      sign negative ++ (whole ++ (fraction ++ exponent)) := by
    rw [← text, dumps]
    rfl
  rw [written, asChars_append, asChars_append, asChars_append, numberText]
  cases negative with
  | true => rfl
  | false => rfl

theorem reads_float (short : ShortestDigits digits point) (depth : ℕ) :
    Reads (readValue (depth + 1)) (dumps (.float (.finite negative digits point)))
      (.number (spelled (.finite negative digits point))) := by
  obtain ⟨whole, fraction, exponent, number, text⟩ := numeral_float negative short
  have repr : asChars (PyFloat.finite negative digits point).repr =
      numberText negative whole fraction exponent := by
    rw [← text, dumps]
    rfl
  have value : spelled (.finite negative digits point) =
      numberValue negative whole fraction exponent := by
    rw [spelled, repr, readNumber_isNumber number (by decide)]
    rfl
  intro pad c rest blank stop
  rw [readValue_append blank, text, value]
  exact readValue_isNumber number depth stop.endsNumber rest

end Float

/-- What a number starts with is neither a space nor a bracket. -/
theorem opens_number {text : Text} {c : Char} {rest : List Char} (starts : asChars text = c :: rest)
    (first : isDigit c = true ∨ c = '-') : Opens text := by
  refine ⟨c, rest, starts, ?_, ?_⟩
  · rintro (rfl | rfl | rfl | rfl) <;> exact absurd first (by decide)
  · rintro (rfl | rfl | rfl) <;> exact absurd first (by decide)

theorem opens_dumps {value : PyValue} (writable : Writable value) : Opens (dumps value) := by
  cases value with
  | none => exact ⟨'n', _, rfl, by decide, by decide⟩
  | bool b =>
    cases b with
    | true => exact ⟨'t', _, rfl, by decide, by decide⟩
    | false => exact ⟨'f', _, rfl, by decide, by decide⟩
  | int n =>
    obtain ⟨d, ds, text, first⟩ := asChars_intText n
    exact opens_number text first
  | float f =>
    cases f with
    | finite negative digits point =>
      obtain ⟨_, _, _, number, text⟩ := numeral_float negative writable
      obtain ⟨d, ds, starts, first, -⟩ := number.head
      exact opens_number (text.trans starts) first
    | nan | inf negative => exact writable.elim
  | str s => exact opens_quote _
  | list items => exact ⟨'[', _, rfl, by decide, by decide⟩
  | dict items => exact ⟨'\x7b', _, rfl, by decide, by decide⟩

theorem opens_dumpsItems {items : List PyValue} (writable : writableItems items) :
    ∀ text ∈ dumpsItems items, Opens text := by
  induction items with
  | nil => exact List.forall_mem_nil _
  | cons item items ih =>
    rw [dumpsItems]
    exact List.forall_mem_cons.mpr ⟨opens_dumps writable.1, ih writable.2⟩

theorem opens_dumpsMembers (items : List (Text × PyValue)) :
    ∀ text ∈ dumpsMembers items, Opens text := by
  induction items with
  | nil => exact List.forall_mem_nil _
  | cons item items ih =>
    rw [dumpsMembers]
    exact List.forall_mem_cons.mpr ⟨opens_quote _, ih⟩

/-! ## Brackets -/

theorem readValue_bracket (depth : ℕ) (rest : List Char) :
    readValue (depth + 1) ('[' :: rest) =
      (readBody (readValue depth) ']' rest).map fun p => (.array p.1, p.2) := by
  rw [readValue, skipSpace_cons (by decide)]
  simp only [show ('[' : Char) ≠ '"' by decide, show ('[' : Char) ≠ '\x7b' by decide, if_false,
    if_true]

theorem readValue_brace (depth : ℕ) (rest : List Char) :
    readValue (depth + 1) ('\x7b' :: rest) =
      (readBody (readMember (readValue depth)) '\x7d' rest).map fun p => (.object p.1, p.2) := by
  rw [readValue, skipSpace_cons (by decide)]
  simp only [show ('\x7b' : Char) ≠ '"' by decide, if_false, if_true]

theorem length_lt_brackets {opening closing : String} {texts : List Text} {text : Text}
    (mem : text ∈ texts) (first : 0 < (codes opening).length) :
    text.length < (codes opening ++ (join (codes ", ") texts ++ codes closing)).length := by
  have inside : text.length ≤ (join (codes ", ") texts).length := length_le_join_of_mem mem
  simp only [List.length_append]
  omega

theorem asChars_brackets (opening closing : ℕ) (inner : Text) (rest : List Char) :
    asChars (opening :: (inner ++ [closing])) ++ rest =
      Char.ofNat opening :: ([] ++ (asChars inner ++ ([] ++ Char.ofNat closing :: rest))) := by
  rw [asChars_cons, asChars_append, List.cons_append, List.append_assoc]
  rfl

theorem reads_list {depth : ℕ} {texts : List Text} {items : List Json}
    (h : List.Forall₂ (Reads (readValue depth)) texts items)
    (opens : ∀ text ∈ texts, Opens text) :
    Reads (readValue (depth + 1)) (codes "[" ++ (join (codes ", ") texts ++ codes "]"))
      (.array items) := by
  intro pad c rest blank _
  have body := @readBody_join _ _ _ _ h opens [0x20] blank_space [] [] blank_nil blank_nil ']'
    (.inr (.inr rfl)) (by decide) (c :: rest)
  refine (readValue_append blank _ _).trans ?_
  refine (congrArg (readValue (depth + 1)) (asChars_brackets 0x5B 0x5D _ _)).trans ?_
  exact (readValue_bracket depth _).trans (congrArg _ body)

theorem reads_dict {depth : ℕ} {texts : List Text} {members : List (List ℕ × Json)}
    (h : List.Forall₂ (Reads (readMember (readValue depth))) texts members)
    (opens : ∀ text ∈ texts, Opens text) :
    Reads (readValue (depth + 1)) (codes "\x7b" ++ (join (codes ", ") texts ++ codes "\x7d"))
      (.object members) := by
  intro pad c rest blank _
  have body := @readBody_join _ _ _ _ h opens [0x20] blank_space [] [] blank_nil blank_nil '\x7d'
    (.inr (.inl rfl)) (by decide) (c :: rest)
  refine (readValue_append blank _ _).trans ?_
  refine (congrArg (readValue (depth + 1)) (asChars_brackets 0x7B 0x7D _ _)).trans ?_
  exact (readValue_brace depth _).trans (congrArg _ body)

/-! ## The round trip -/

mutual

theorem reads_dumps (value : PyValue) (writable : Writable value) {depth : ℕ}
    (deep : (dumps value).length ≤ depth) :
    Reads (readValue depth) (dumps value) (jsonOf value) := by
  obtain ⟨depth, rfl⟩ : ∃ m, depth = m + 1 := by
    have positive := List.length_pos_iff.mpr (opens_dumps writable).ne_nil
    exact ⟨depth - 1, by omega⟩
  cases value with
  | none => exact reads_null depth
  | bool b => exact reads_bool b depth
  | int n => exact reads_int n depth
  | float f =>
    cases f with
    | finite negative digits point => exact reads_float negative writable depth
    | nan | inf negative => exact writable.elim
  | str s => exact reads_string writable depth
  | list items =>
    rw [dumps] at deep ⊢
    refine reads_list (reads_dumpsItems items writable fun text mem => ?_)
      (opens_dumpsItems writable)
    have inside := @length_lt_brackets "[" "]" _ _ mem (by decide)
    omega
  | dict items =>
    rw [dumps] at deep ⊢
    refine reads_dict (reads_dumpsMembers items writable fun text mem => ?_)
      (opens_dumpsMembers items)
    have inside := @length_lt_brackets "\x7b" "\x7d" _ _ mem (by decide)
    omega

theorem reads_dumpsItems (items : List PyValue) (writable : writableItems items) {depth : ℕ}
    (deep : ∀ text ∈ dumpsItems items, text.length ≤ depth) :
    List.Forall₂ (Reads (readValue depth)) (dumpsItems items) (jsonItems items) := by
  cases items with
  | nil => exact .nil
  | cons item items =>
    rw [dumpsItems] at deep ⊢
    exact .cons (reads_dumps item writable.1 (deep _ List.mem_cons_self))
      (reads_dumpsItems items writable.2 fun text mem => deep text (List.mem_cons_of_mem _ mem))

theorem reads_dumpsMembers (items : List (Text × PyValue)) (writable : writableMembers items)
    {depth : ℕ} (deep : ∀ text ∈ dumpsMembers items, text.length ≤ depth) :
    List.Forall₂ (Reads (readMember (readValue depth))) (dumpsMembers items)
      (jsonMembers items) := by
  cases items with
  | nil => exact .nil
  | cons item items =>
    obtain ⟨name, value⟩ := item
    rw [dumpsMembers] at deep ⊢
    have short : (dumps value).length ≤ depth := by
      have whole := deep _ List.mem_cons_self
      simp only [List.length_append] at whole
      omega
    exact .cons (reads_member writable.1.1 (reads_dumps value writable.1.2 short))
      (reads_dumpsMembers items writable.2 fun text mem => deep text (List.mem_cons_of_mem _ mem))

end

theorem loads_dumps {items : List (Text × PyValue)} (writable : writableMembers items) :
    loads (asChars (dumps (.dict items))) = some (.object (jsonMembers items)) := by
  have text : asChars (dumps (.dict items)) =
      '\x7b' :: ([] ++ (asChars (join (codes ", ") (dumpsMembers items)) ++ ([] ++ ['\x7d']))) := by
    rw [← List.append_nil (asChars (dumps (.dict items))), dumps]
    exact asChars_brackets 0x7B 0x7D _ []
  have long : (asChars (dumps (.dict items))).length =
      (join (codes ", ") (dumpsMembers items)).length + 1 + 1 := by
    rw [text, List.length_cons, List.nil_append, List.nil_append, List.length_append,
      length_asChars, List.length_singleton]
  have members := reads_dumpsMembers items writable fun text mem =>
    (length_le_join_of_mem mem : text.length ≤ (join (codes ", ") (dumpsMembers items)).length).trans
      (Nat.le_succ _)
  have body := @readBody_join _ _ _ _ members (opens_dumpsMembers items) [0x20] blank_space [] []
    blank_nil blank_nil '\x7d' (.inr (.inl rfl)) (by decide) []
  have read := (readValue_brace _ _).trans (congrArg _ body)
  rw [loads, long, text]
  exact congrArg (Option.bind · fun p => if skipSpace p.2 = [] then some p.1 else none) read

/-! ## Sorted names -/

theorem mem_byName {items : List (Text × PyValue)} {item : Text × PyValue} :
    item ∈ byName items ↔ item ∈ items := (List.perm_insertionSort _ items).mem_iff

theorem writableMembers_byName {items : List (Text × PyValue)} :
    writableMembers (byName items) ↔ writableMembers items := by
  simp only [writableMembers_iff, mem_byName]

mutual

theorem writable_sortKeys (value : PyValue) : Writable (sortKeys value) ↔ Writable value := by
  cases value with
  | list items => exact writable_sortItems items
  | dict items => exact writableMembers_byName.trans (writable_sortMembers items)
  | none | bool b | int n | float f | str s => exact Iff.rfl

theorem writable_sortItems (items : List PyValue) :
    writableItems (sortItems items) ↔ writableItems items := by
  cases items with
  | nil => exact Iff.rfl
  | cons item items => exact and_congr (writable_sortKeys item) (writable_sortItems items)

theorem writable_sortMembers (items : List (Text × PyValue)) :
    writableMembers (sortMembers items) ↔ writableMembers items := by
  cases items with
  | nil => exact Iff.rfl
  | cons item items =>
    obtain ⟨name, value⟩ := item
    exact and_congr (and_congr Iff.rfl (writable_sortKeys value)) (writable_sortMembers items)

end

theorem loads_dumpsSorted {event : Event} (writable : writableMembers event) :
    loads (asChars (dumpsSorted event)) = some (.object (jsonMembers (sorted event))) :=
  loads_dumps (writableMembers_byName.mpr ((writable_sortMembers event).mpr writable))

theorem mem_sorted {event : Event} {item : Text × PyValue} :
    item ∈ sorted event ↔ ∃ value, (item.1, value) ∈ event ∧ sortKeys value = item.2 := by
  rw [sorted, mem_byName, sortMembers_eq_map, List.mem_map]
  constructor
  · rintro ⟨⟨name, value⟩, mem, rfl⟩
    exact ⟨value, mem, rfl⟩
  · rintro ⟨value, mem, same⟩
    exact ⟨(item.1, value), mem, Prod.ext rfl same⟩

theorem names_sorted (event : Event) :
    ((sorted event).map Prod.fst).Perm (event.map Prod.fst) := by
  have names : (sortMembers event).map Prod.fst = event.map Prod.fst := by
    rw [sortMembers_eq_map, List.map_map]
    rfl
  rw [← names]
  exact (List.perm_insertionSort _ _).map Prod.fst

theorem lookup_eq_some_iff {items : List (Text × PyValue)} (distinct : (items.map Prod.fst).Nodup)
    {name : Text} {value : PyValue} :
    items.lookup name = some value ↔ (name, value) ∈ items := by
  refine ⟨mem_of_lookup, fun mem => ?_⟩
  cases found : items.lookup name with
  | none => exact absurd (List.lookup_eq_none_iff.mp found _ mem) (by simp)
  | some other =>
    have same := List.inj_on_of_nodup_map distinct (mem_of_lookup found) mem rfl
    rw [Prod.mk.inj same |>.2]

/-- An event with its names in order has the values that it had. -/
theorem lookup_sorted {event : Event} (distinct : (event.map Prod.fst).Nodup) (name : Text) :
    (sorted event).lookup name = (event.lookup name).map sortKeys := by
  have apart := (names_sorted event).nodup_iff.mpr distinct
  refine Option.ext fun value => ?_
  rw [lookup_eq_some_iff apart, mem_sorted, Option.map_eq_some_iff]
  simp only [lookup_eq_some_iff distinct]

/-! ## No control character -/

mutual

theorem visible_dumps (value : PyValue) : Visible (dumps value) := by
  cases value with
  | none => decide
  | bool b => exact visible_scalar (.bool b)
  | int n => exact visible_intText n
  | float f => exact visible_scalar (.float f)
  | str s => exact visible_jsonString s
  | list items =>
    exact visible_append.mpr ⟨by decide, visible_append.mpr
      ⟨visible_join (by decide) (visible_dumpsItems items), by decide⟩⟩
  | dict items =>
    exact visible_append.mpr ⟨by decide, visible_append.mpr
      ⟨visible_join (by decide) (visible_dumpsMembers items), by decide⟩⟩

theorem visible_dumpsItems (items : List PyValue) : ∀ text ∈ dumpsItems items, Visible text := by
  cases items with
  | nil => exact List.forall_mem_nil _
  | cons item items =>
    rw [dumpsItems]
    exact List.forall_mem_cons.mpr ⟨visible_dumps item, visible_dumpsItems items⟩

theorem visible_dumpsMembers (items : List (Text × PyValue)) :
    ∀ text ∈ dumpsMembers items, Visible text := by
  cases items with
  | nil => exact List.forall_mem_nil _
  | cons item items =>
    obtain ⟨name, value⟩ := item
    rw [dumpsMembers]
    exact List.forall_mem_cons.mpr ⟨visible_append.mpr
      ⟨visible_jsonString name, visible_append.mpr ⟨by decide, visible_dumps value⟩⟩,
      visible_dumpsMembers items⟩

end

end OtDetection.PyJson
