import OtDetection.PromptNumbers
import OtDetection.TelemetrySchema

/-! The size of a prompt. A text is cut and escaped to a bounded length and a float is short, but
an integer passes `sanitise` as it is, with as many digits as the interpreter writes. The data are
one strict JSON object for every event that the schema accepts. -/

namespace OtDetection.TriagePrompt
open PyText PyNumber FieldLookup JsonText JsonDumps
open TelemetrySchema (Check accepts accepts_field isInteger_cases mem_properties propertyGroups)

/-! ## Values -/

/-- A value that the prompt can have of an accepted event. -/
inductive Clean : Scalar → Prop
  | int (n : ℤ) : Clean (.int n)
  | float (negative : Bool) {digits : List (Fin 10)} {point : ℤ}
      (short : ShortestDigits digits point) : Clean (.float (.finite negative digits point))
  | str {s : Text} (inRange : InRange s) (few : s.length ≤ maxFieldChars) : Clean (.str s)

theorem reads_scalar {value : Scalar} (clean : Clean value) :
    ∃ json, ∀ depth, Reads (readValue (depth + 1)) (jsonScalar value) json := by
  cases clean with
  | int n => exact ⟨.number n, reads_int n⟩
  | @float negative digits point short =>
    obtain ⟨q, reads⟩ := (numeral_repr negative short).reads
    exact ⟨.number q, reads⟩
  | @str s inRange few => exact ⟨.string (rejoin s), reads_string inRange⟩

def CleanPair (pair : Text × Scalar) : Prop := InRange pair.1 ∧ Clean pair.2

theorem reads_pairs {pairs : List (Text × Scalar)} (clean : ∀ pair ∈ pairs, CleanPair pair) :
    ∃ members : List (List ℕ × Json),
      members.map Prod.fst = pairs.map (fun pair => rejoin pair.1) ∧
      ∀ depth, List.Forall₂ (Reads (readMember (readValue (depth + 1)))) (pairs.map jsonPair)
        members := by
  induction pairs with
  | nil => exact ⟨[], rfl, fun _ => .nil⟩
  | cons pair pairs ih =>
    obtain ⟨inRange, value⟩ := clean pair List.mem_cons_self
    obtain ⟨json, reads⟩ := reads_scalar value
    obtain ⟨members, names, later⟩ :=
      ih fun other mem => clean other (List.mem_cons_of_mem pair mem)
    refine ⟨(rejoin pair.1, json) :: members, ?_, fun depth => ?_⟩
    · rw [List.map_cons, List.map_cons, names]
    · exact .cons (reads_member inRange (reads depth)) (later depth)

/-! ## The object -/

theorem opens_pair (pair : Text × Scalar) : Opens (jsonPair pair) := opens_quote _

theorem readBody_compact {item : List Char → Option ((List ℕ × Json) × List Char)}
    {texts : List Text} {members : List (List ℕ × Json)}
    (h : List.Forall₂ (Reads item) texts members) (opens : ∀ text ∈ texts, Opens text) :
    readBody item '\x7d' (asChars (join (codes ", ") texts) ++ ['\x7d']) = some (members, []) :=
  @readBody_join _ item _ _ h opens [0x20] blank_space [] [] blank_nil blank_nil '\x7d'
    (.inr (.inl rfl)) (by decide) []

theorem loads_dumps {data : List (Text × Scalar)} (clean : ∀ pair ∈ data, CleanPair pair) :
    ∃ members, loads (asChars (dumps data)) = some (.object members) ∧
      members.map Prod.fst =
        (data.insertionSort fun a b => a.1 ≤ b.1).map fun pair => rejoin pair.1 := by
  have perm := List.perm_insertionSort (fun a b : Text × Scalar => a.1 ≤ b.1) data
  obtain ⟨members, names, reads⟩ := reads_pairs fun pair mem => clean pair (perm.mem_iff.mp mem)
  refine ⟨members, ?_, names⟩
  have opens : ∀ text ∈ (data.insertionSort fun a b => a.1 ≤ b.1).map jsonPair, Opens text :=
    List.forall_mem_map.mpr fun pair _ => opens_pair pair
  have body := readBody_compact (reads (join (codes ", ")
    ((data.insertionSort fun a b => a.1 ≤ b.1).map jsonPair)).length) opens
  have text : asChars (dumps data) = '\x7b' :: (asChars (join (codes ", ")
      ((data.insertionSort fun a b => a.1 ≤ b.1).map jsonPair)) ++ ['\x7d']) := by
    rw [dumps, asChars_append, asChars_append]
    rfl
  rw [loads, text, List.length_cons, List.length_append, length_asChars, List.length_singleton,
    readValue, skipSpace_cons (by decide)]
  simp only [show ('\x7b' : Char) ≠ '"' by decide, if_false, if_true, body, Option.map_some,
    Option.bind_some]
  rfl

/-! ## Visible data -/

theorem visible_hexDigit {d : ℕ} (small : d < 16) : 0x20 ≤ hexDigit d ∧ hexDigit d ≤ 0x7E := by
  unfold hexDigit
  split_ifs <;> omega

theorem visible_hexText (width n : ℕ) : Visible (hexText width n) := by
  induction width generalizing n with
  | zero => exact visible_nil
  | succ width ih =>
    refine visible_append.mpr ⟨ih (n / 16), fun c mem => ?_⟩
    rw [List.mem_singleton.mp mem]
    exact visible_hexDigit (Nat.mod_lt n (by decide))

theorem length_hexText (width n : ℕ) : (hexText width n).length = width := by
  induction width generalizing n with
  | zero => rfl
  | succ width ih => rw [hexText, List.length_append, ih, List.length_singleton]

/-- At most twelve visible characters. -/
def IsEscape (text : Text) : Prop := Visible text ∧ text.length ≤ 12

instance decidableIsEscape (text : Text) : Decidable (IsEscape text) := inferInstanceAs (Decidable (_ ∧ _))

theorem isEscape_jsonEscape (c : ℕ) : IsEscape (jsonEscape c) := by
  have unicode : Visible (codes "\\u") ∧ (codes "\\u").length = 2 := by decide
  have hex := visible_hexText 4
  have four := length_hexText 4
  unfold jsonEscape
  -- The escapes of one letter, then the character itself, one unit and two units.
  refine iteInduction (motive := IsEscape) (fun _ => by decide) fun _ => ?_
  refine iteInduction (motive := IsEscape) (fun _ => by decide) fun _ => ?_
  refine iteInduction (motive := IsEscape) (fun _ => by decide) fun _ => ?_
  refine iteInduction (motive := IsEscape) (fun _ => by decide) fun _ => ?_
  refine iteInduction (motive := IsEscape) (fun _ => by decide) fun _ => ?_
  refine iteInduction (motive := IsEscape) (fun _ => by decide) fun _ => ?_
  refine iteInduction (motive := IsEscape) (fun _ => by decide) fun _ => ?_
  refine iteInduction (motive := IsEscape) (fun plain => ?_) fun _ => ?_
  · refine ⟨fun d mem => ?_, ?_⟩
    · rw [List.mem_singleton.mp mem]
      exact plain
    · rw [List.length_singleton]
      decide
  refine iteInduction (motive := IsEscape) (fun _ => ?_) fun _ => ?_
  · refine ⟨visible_append.mpr ⟨unicode.1, hex _⟩, ?_⟩
    rw [List.length_append, unicode.2, four]
    decide
  · refine ⟨visible_append.mpr ⟨unicode.1, visible_append.mpr ⟨hex _, visible_append.mpr
      ⟨unicode.1, hex _⟩⟩⟩, ?_⟩
    rw [List.length_append, List.length_append, List.length_append, unicode.2, four, four]

theorem visible_jsonString (s : Text) : Visible (jsonString s) := by
  have quote : Visible [0x22] := by decide
  refine visible_append.mpr ⟨quote, visible_append.mpr ⟨fun c mem => ?_, quote⟩⟩
  obtain ⟨d, -, inside⟩ := List.mem_flatMap.mp mem
  exact (isEscape_jsonEscape d).1 c inside

theorem visible_scalar (value : Scalar) : Visible (jsonScalar value) := by
  cases value with
  | bool b =>
    cases b with
    | true => decide
    | false => decide
  | int n => exact visible_intText n
  | float f =>
    cases f with
    | nan => decide
    | inf negative => exact visible_append.mpr ⟨visible_sign negative, by decide⟩
    | finite negative digits point => exact visible_repr (.finite negative digits point)
  | str s => exact visible_jsonString s

theorem visible_join {sep : Text} (visible_sep : Visible sep) {texts : List Text}
    (visible : ∀ text ∈ texts, Visible text) : Visible (join sep texts) := by
  induction texts with
  | nil => exact visible_nil
  | cons text texts ih =>
    have first := visible text List.mem_cons_self
    cases texts with
    | nil => exact first
    | cons next texts =>
      have later := ih fun other mem => visible other (List.mem_cons_of_mem text mem)
      exact visible_append.mpr ⟨first, visible_append.mpr ⟨visible_sep, later⟩⟩

theorem visible_dumps (data : List (Text × Scalar)) : Visible (dumps data) := by
  have braces : Visible (codes "\x7b") ∧ Visible (codes "\x7d") := by decide
  have pairs : ∀ text ∈ (data.insertionSort fun a b => a.1 ≤ b.1).map jsonPair, Visible text :=
    List.forall_mem_map.mpr fun pair _ => visible_append.mpr
      ⟨visible_jsonString pair.1, visible_append.mpr ⟨by decide, visible_scalar pair.2⟩⟩
  exact visible_append.mpr ⟨braces.1, visible_append.mpr ⟨visible_join (by decide) pairs, braces.2⟩⟩

/-! ## The data of an accepted event -/

def integerFields : List Text := ["function_code", "dst_port"].map codes

def isText : Check → Bool
  | .enum _ | .string => true
  | _ => false

theorem allowed_checks {name : Text} (allowed : name ∈ allowedFields) :
    ∃ check, (name, check) ∈ TelemetrySchema.properties ∧
      (isText check = true ∨ check = .integer ∧ name ∈ integerFields) := by
  obtain ⟨name, mem, rfl⟩ := List.mem_map.mp allowed
  have groups : ∀ name ∈ ["product", "service", "direction", "function_code", "src_ip", "dst_ip",
      "dst_port", "event_type", "opcua_service"], ∃ group ∈ propertyGroups, name ∈ group.2 ∧
        (isText group.1 = true ∨ group.1 = .integer ∧ name ∈ ["function_code", "dst_port"]) := by
    decide
  obtain ⟨group, inside, named, kind⟩ := groups name mem
  refine ⟨group.1, mem_properties inside named, kind.imp_right fun integer => ⟨integer.1, ?_⟩⟩
  exact List.mem_map_of_mem integer.2

section Accepted

variable {unicode : Unicode} {event : Event}

theorem allowed_cases (accepted : accepts unicode event = true) {name : Text}
    (allowed : name ∈ allowedFields) {value : PyValue} (found : event.lookup name = some value) :
    (∃ s, value = .str s) ∨ name ∈ integerFields ∧
      ((∃ n, value = .int n) ∨ ∃ f q, value = .float f ∧ doubleOfFloat f = .finite q) := by
  obtain ⟨check, named, kind⟩ := allowed_checks allowed
  have checked := accepts_field accepted named found
  rcases kind with text | ⟨rfl, integer⟩
  · left
    cases value with
    | str s => exact ⟨s, rfl⟩
    | none | bool b | int n | float f | list items | dict items =>
      cases check with
      | enum values => cases checked
      | string => cases checked
      | timestamp | integer | number => cases text
  · exact .inr ⟨integer, isInteger_cases checked⟩

/-- A value of the interpreter: its characters are within Unicode, its floats have their digits. -/
def GenuineValue : PyValue → Prop
  | .str s => InRange s
  | .float f => IsFloat f
  | _ => True

def Genuine (event : Event) : Prop := ∀ entry ∈ event, GenuineValue entry.2

theorem mem_promptData {isPrintable : ℕ → Bool} {pair : Text × Scalar} :
    pair ∈ promptData isPrintable event ↔ ∃ name ∈ allowedFields, ∃ value,
      event.lookup name = some value ∧ (name, sanitise isPrintable value) = pair := by
  simp only [promptData, List.mem_filterMap, Option.map_eq_some_iff]

theorem blank_lt {c : ℕ} (inRange : c < 0x110000) : blank c < 0x110000 := by
  unfold blank
  split_ifs
  · decide
  · exact inRange

theorem clean_sanitise {isPrintable : ℕ → Bool} (accepted : accepts unicode event = true)
    (genuine : Genuine event) {name : Text} (allowed : name ∈ allowedFields) {value : PyValue}
    (found : event.lookup name = some value) : Clean (sanitise isPrintable value) := by
  have real : GenuineValue value := genuine _ (mem_of_lookup found)
  rcases allowed_cases accepted allowed found with ⟨s, rfl⟩ | ⟨-, ⟨n, rfl⟩ | ⟨f, q, rfl, double⟩⟩
  · refine .str (fun c mem => ?_) (List.length_take_le _ _)
    obtain ⟨d, inside, rfl⟩ := List.mem_map.mp (List.mem_of_mem_take mem)
    exact blank_lt (real d inside)
  · exact .int n
  · cases f with
    | finite negative digits point => exact .float negative real
    | nan | inf negative => cases double

theorem clean_promptData (isPrintable : ℕ → Bool) (accepted : accepts unicode event = true)
    (genuine : Genuine event) : ∀ pair ∈ promptData isPrintable event, CleanPair pair := by
  have names : ∀ name ∈ allowedFields, InRange name := by decide
  intro pair mem
  obtain ⟨name, allowed, value, found, rfl⟩ := mem_promptData.mp mem
  exact ⟨names name allowed, clean_sanitise accepted genuine allowed found⟩

/-- A strict JSON object of the allowlisted fields of the event, in their order. -/
structure IsView (event : Event) (data : Text) : Prop where
  object : ∃ members, loads (asChars data) = some (.object members) ∧
    (members.map Prod.fst).Pairwise (· < ·) ∧
    ∀ name, name ∈ members.map Prod.fst ↔ name ∈ allowedFields ∧ (event.lookup name).isSome
  no_control : ∀ c ∈ data, ¬ isControl c

theorem map_rejoin {names : List Text} (allowed : ∀ name ∈ names, name ∈ allowedFields) :
    names.map rejoin = names := by
  have plain : ∀ name ∈ allowedFields, rejoin name = name := by decide
  exact (List.map_congr_left fun name mem => plain name (allowed name mem)).trans (List.map_id _)

theorem names_promptData (isPrintable : ℕ → Bool) : (promptData isPrintable event).map Prod.fst =
    allowedFields.filter fun name => (event.lookup name).isSome := by
  rw [promptData, List.map_filterMap]
  induction allowedFields with
  | nil => rfl
  | cons name names ih =>
    rw [List.filterMap_cons, List.filter_cons, ih]
    cases event.lookup name with
    | none => rfl
    | some value => rfl

theorem isView_dumps (isPrintable : ℕ → Bool) (accepted : accepts unicode event = true)
    (genuine : Genuine event) : IsView event (dumps (promptData isPrintable event)) := by
  obtain ⟨members, loaded, names⟩ := loads_dumps (clean_promptData isPrintable accepted genuine)
  have perm := (List.perm_insertionSort (fun a b : Text × Scalar => a.1 ≤ b.1)
    (promptData isPrintable event)).map Prod.fst
  have kept := @names_promptData event isPrintable
  have mem_names : ∀ name, name ∈ ((promptData isPrintable event).insertionSort
      fun a b => a.1 ≤ b.1).map Prod.fst ↔ name ∈ allowedFields ∧ (event.lookup name).isSome := by
    intro name
    rw [perm.mem_iff, kept, List.mem_filter]
  have same : members.map Prod.fst =
      ((promptData isPrintable event).insertionSort fun a b => a.1 ≤ b.1).map Prod.fst := by
    rw [names, ← map_rejoin fun name mem => ((mem_names name).mp mem).1, List.map_map]
    rfl
  refine ⟨⟨members, loaded, ?_, fun name => ?_⟩, fun c mem control => ?_⟩
  · have distinct : (((promptData isPrintable event).insertionSort
        fun a b => a.1 ≤ b.1).map Prod.fst).Nodup := by
      rw [perm.nodup_iff, kept]
      exact List.Nodup.filter _ (by decide)
    have sorted : (((promptData isPrintable event).insertionSort
        fun a b => a.1 ≤ b.1).map Prod.fst).Pairwise (· ≤ ·) :=
      List.pairwise_map.mpr (List.pairwise_insertionSort _ _)
    rw [same]
    exact sorted.imp₂ (fun a b le ne => lt_of_le_of_ne le ne) distinct
  · rw [same, mem_names]
  · have visible := visible_dumps _ c mem
    rcases control with low | delete
    · omega
    · omega

end Accepted

/-! ## The interpreter's limit -/

/-- The interpreter writes no integer of more digits; no limit is 0. -/
def fits (limit : ℕ) (n : ℤ) : Bool := limit = 0 ∨ (natText n.natAbs).length ≤ limit

mutual

def writable (limit : ℕ) : PyValue → Bool
  | .int n => fits limit n
  | .list items => writableItems limit items
  | .dict items => writablePairs limit items
  | _ => true

def writableItems (limit : ℕ) : List PyValue → Bool
  | [] => true
  | item :: items => writable limit item && writableItems limit items

def writablePairs (limit : ℕ) : List (Text × PyValue) → Bool
  | [] => true
  | (_, value) :: items => writable limit value && writablePairs limit items

end

/-- `build_prompt` of an interpreter with a limit. -/
def limitedPrompt (limit : ℕ) (isPrintable : ℕ → Bool) (event : Event) :
    Except PyError (Text × Text) :=
  if allowedFields.all fun name => (event.lookup name).all (writable limit) then
    .ok (buildPrompt isPrintable event)
  else .error .valueError

/-- The prompt is there, its user message is bounded and its data are a view of the event. -/
def Within (limit : ℕ) (isPrintable : ℕ → Bool) (bound : ℕ) (event : Event) : Prop :=
  ∃ prompt, limitedPrompt limit isPrintable event = .ok prompt ∧ prompt.2.length ≤ bound ∧
    ∃ data, prompt.2 = openTag ++ data ++ closeTag ∧ IsView event data

/-- The integers of the event have few digits. -/
def FewDigits (limit digits : ℕ) (event : Event) : Prop :=
  ∀ name ∈ integerFields, ∀ n, event.lookup name = some (.int n) →
    (natText n.natAbs).length ≤ digits ∧ fits limit n = true

/-! ## Lengths -/

def valueBound (digits : ℕ) : ℕ := max (12 * maxFieldChars + 2) (digits + 1)

def nameBound : ℕ := 15

def promptBound (digits : ℕ) : ℕ :=
  openTag.length + (allowedFields.length * (nameBound + 2 + valueBound digits + 2) + 2) +
    closeTag.length

theorem length_escaped_le (s : Text) : (s.flatMap jsonEscape).length ≤ 12 * s.length := by
  induction s with
  | nil => exact Nat.zero_le _
  | cons c s ih =>
    have first := (isEscape_jsonEscape c).2
    rw [List.flatMap_cons, List.length_append, List.length_cons]
    omega

theorem length_intText_le (n : ℤ) : (intText n).length ≤ (natText n.natAbs).length + 1 := by
  have one := length_sign_le (decide (n < 0))
  rw [intText, List.length_append]
  omega

theorem length_scalar_le {value : Scalar} (clean : Clean value) {digits : ℕ}
    (few : ∀ n, value = .int n → (natText n.natAbs).length ≤ digits) :
    (jsonScalar value).length ≤ valueBound digits := by
  unfold valueBound
  cases clean with
  | int n =>
    have short := few n rfl
    have text := length_intText_le n
    rw [jsonScalar]
    omega
  | @float negative digits point short =>
    have text : (jsonScalar (.float (.finite negative digits point))).length ≤ 26 :=
      (numeral_repr negative short).length_le
    have slack : 26 ≤ 12 * maxFieldChars + 2 := by decide
    omega
  | @str s inRange short =>
    have text := length_escaped_le s
    rw [jsonScalar, jsonString, List.length_cons, List.length_append, List.length_singleton]
    omega

theorem length_join_le {sep : Text} {texts : List Text} {k : ℕ}
    (short : ∀ text ∈ texts, text.length ≤ k) :
    (join sep texts).length ≤ texts.length * (k + sep.length) := by
  induction texts with
  | nil => exact Nat.zero_le _
  | cons text texts ih =>
    have first := short text List.mem_cons_self
    cases texts with
    | nil =>
      rw [join, List.length_singleton]
      omega
    | cons next texts =>
      have later := ih fun other mem => short other (List.mem_cons_of_mem text mem)
      rw [join, List.length_append, List.length_append, List.length_cons, Nat.succ_mul]
      omega

theorem length_promptData_le (isPrintable : ℕ → Bool) (event : Event) :
    (promptData isPrintable event).length ≤ allowedFields.length := List.length_filterMap_le _ _

section Accepted

variable {unicode : Unicode} {event : Event}

theorem length_pair_le (isPrintable : ℕ → Bool) (accepted : accepts unicode event = true)
    (genuine : Genuine event) {limit digits : ℕ} (few : FewDigits limit digits event)
    {pair : Text × Scalar} (mem : pair ∈ promptData isPrintable event) :
    (jsonPair pair).length ≤ nameBound + 2 + valueBound digits := by
  have names : ∀ name ∈ allowedFields, (jsonString name).length ≤ nameBound := by decide
  obtain ⟨name, allowed, value, found, rfl⟩ := mem_promptData.mp mem
  have clean := @clean_sanitise _ _ isPrintable accepted genuine _ allowed _ found
  have short : (jsonScalar (sanitise isPrintable value)).length ≤ valueBound digits := by
    refine length_scalar_le clean fun n same => ?_
    rcases allowed_cases accepted allowed found with
      ⟨s, rfl⟩ | ⟨integer, ⟨m, rfl⟩ | ⟨f, q, rfl, -⟩⟩
    · cases same
    · cases same
      exact (few name integer _ found).1
    · cases same
  have quoted := names name allowed
  have colon : (codes ": ").length = 2 := by decide
  simp only [jsonPair, List.length_append, colon]
  omega

theorem length_prompt_le (isPrintable : ℕ → Bool) (accepted : accepts unicode event = true)
    (genuine : Genuine event) {limit digits : ℕ} (few : FewDigits limit digits event) :
    (buildPrompt isPrintable event).2.length ≤ promptBound digits := by
  have perm := List.perm_insertionSort (fun a b : Text × Scalar => a.1 ≤ b.1)
    (promptData isPrintable event)
  have joined := @length_join_le (codes ", ")
    (((promptData isPrintable event).insertionSort fun a b => a.1 ≤ b.1).map jsonPair)
    (nameBound + 2 + valueBound digits) (List.forall_mem_map.mpr fun pair mem =>
      length_pair_le isPrintable accepted genuine few (perm.mem_iff.mp mem))
  have count := Nat.mul_le_mul_right (nameBound + 2 + valueBound digits + (codes ", ").length)
    (length_promptData_le isPrintable event)
  have marks : (codes ", ").length = 2 ∧ (codes "\x7b").length = 1 ∧
      (codes "\x7d").length = 1 := by decide
  rw [List.length_map, perm.length_eq] at joined
  rw [marks.1] at joined count
  rw [buildPrompt, promptBound, dumps]
  simp only [List.length_append, marks]
  omega

theorem le_length_prompt (isPrintable : ℕ → Bool) {name : Text} (allowed : name ∈ allowedFields)
    {n : ℤ} (found : event.lookup name = some (.int n)) :
    (natText n.natAbs).length ≤ (buildPrompt isPrintable event).2.length := by
  have inside : (name, Scalar.int n) ∈ promptData isPrintable event :=
    mem_promptData.mpr ⟨name, allowed, .int n, found, rfl⟩
  have perm := List.perm_insertionSort (fun a b : Text × Scalar => a.1 ≤ b.1)
    (promptData isPrintable event)
  have joined := @length_le_join_of_mem (codes ", ") _ _
    (List.mem_map_of_mem (perm.mem_iff.mpr inside) : jsonPair (name, .int n) ∈ _)
  simp only [jsonPair, jsonScalar, intText, List.length_append] at joined
  rw [buildPrompt, dumps]
  simp only [List.length_append]
  omega

theorem integer_allowed : ∀ name ∈ integerFields, name ∈ allowedFields := by decide

theorem limitedPrompt_iff (isPrintable : ℕ → Bool) (accepted : accepts unicode event = true)
    (limit : ℕ) {prompt : Text × Text} :
    limitedPrompt limit isPrintable event = .ok prompt ↔
      (∀ name ∈ integerFields, ∀ n, event.lookup name = some (.int n) → fits limit n = true) ∧
        buildPrompt isPrintable event = prompt := by
  have written : (allowedFields.all fun name => (event.lookup name).all (writable limit)) = true ↔
      ∀ name ∈ integerFields, ∀ n, event.lookup name = some (.int n) → fits limit n = true := by
    rw [List.all_eq_true]
    constructor
    · intro all name integer n found
      have fit := all name (integer_allowed name integer)
      rw [found] at fit
      exact fit
    · intro fit name allowed
      cases found : event.lookup name with
      | none => rfl
      | some value =>
        rcases allowed_cases accepted allowed found with
          ⟨s, rfl⟩ | ⟨integer, ⟨n, rfl⟩ | ⟨f, q, rfl, -⟩⟩
        · rfl
        · exact fit name integer n found
        · rfl
  rw [limitedPrompt, ← written]
  split_ifs with all
  · rw [Except.ok.injEq, and_iff_right all]
  · exact iff_of_false nofun fun both => all both.1

theorem within_of_fewDigits (isPrintable : ℕ → Bool) (accepted : accepts unicode event = true)
    (genuine : Genuine event) {limit digits : ℕ} (few : FewDigits limit digits event) :
    Within limit isPrintable (promptBound digits) event :=
  ⟨_, (limitedPrompt_iff isPrintable accepted limit).mpr
      ⟨fun name integer n found => (few name integer n found).2, rfl⟩,
    length_prompt_le isPrintable accepted genuine few, _, rfl,
    isView_dumps isPrintable accepted genuine⟩

theorem fewDigits_of_within {isPrintable : ℕ → Bool} (accepted : accepts unicode event = true)
    {limit bound : ℕ} (within : Within limit isPrintable bound event) :
    FewDigits limit bound event := by
  obtain ⟨prompt, built, short, -⟩ := within
  obtain ⟨fit, rfl⟩ := (limitedPrompt_iff isPrintable accepted limit).mp built
  intro name integer n found
  exact ⟨(le_length_prompt isPrintable (integer_allowed name integer) found).trans short,
    fit name integer n found⟩

end Accepted

/-- The digits of the integers bound the prompts of accepted events, and a set of these has one
bound exactly when its integers have one for their digits. -/
theorem prompts_bounded_iff (unicode : Unicode) (limit : ℕ) {events : Set Event}
    (accepted : ∀ e ∈ events, accepts unicode e = true) (genuine : ∀ e ∈ events, Genuine e) :
    (∀ digits, ∀ e ∈ events, FewDigits limit digits e →
      Within limit unicode.isPrintable (promptBound digits) e) ∧
    ((∃ bound, ∀ e ∈ events, Within limit unicode.isPrintable bound e) ↔
      ∃ digits, ∀ e ∈ events, FewDigits limit digits e) := by
  have within : ∀ digits, ∀ e ∈ events, FewDigits limit digits e →
      Within limit unicode.isPrintable (promptBound digits) e :=
    fun digits e mem => within_of_fewDigits unicode.isPrintable (accepted e mem) (genuine e mem)
  refine ⟨within, ?_, ?_⟩
  · rintro ⟨bound, bounded⟩
    exact ⟨bound, fun e mem => fewDigits_of_within (accepted e mem) (bounded e mem)⟩
  · rintro ⟨digits, few⟩
    exact ⟨promptBound digits, fun e mem => within digits e mem (few e mem)⟩

/-! ## An integer in a prompt -/

def codedEvent (n : ℤ) : Event :=
  [(codes "timestamp", .str (codes "2026-10-19T10:00:00Z")),
    (codes "product", .str (codes "ot_ndr")), (codes "service", .str (codes "modbus")),
    (codes "function_code", .int n)]

theorem accepted_coded (n : ℤ) : accepts noTables (codedEvent n) = true := Eq.refl true

theorem genuine_coded (n : ℤ) : Genuine (codedEvent n) := by
  have texts : ∀ s ∈ ["2026-10-19T10:00:00Z", "ot_ndr", "modbus"].map codes, InRange s := by
    decide
  simp only [List.forall_mem_map, List.forall_mem_cons] at texts
  exact List.forall_mem_cons.mpr ⟨texts.1, List.forall_mem_cons.mpr ⟨texts.2.1,
    List.forall_mem_cons.mpr ⟨texts.2.2.1, List.forall_mem_cons.mpr ⟨trivial,
      List.forall_mem_nil _⟩⟩⟩⟩

theorem fewDigits_coded : FewDigits 4300 2 (codedEvent 41) := by
  have code : (codedEvent 41).lookup (codes "function_code") = some (.int 41) := rfl
  have port : (codedEvent 41).lookup (codes "dst_port") = none := rfl
  refine List.forall_mem_cons.mpr ⟨fun n found => ?_, List.forall_mem_cons.mpr
    ⟨fun n found => ?_, List.forall_mem_nil _⟩⟩
  · rw [code, Option.some.injEq, PyValue.int.injEq] at found
    rw [← found]
    decide
  · rw [port] at found
    cases found

theorem prompts_bounded_coded : ∃ bound, ∀ e ∈ ({codedEvent 41} : Set Event),
    Within 4300 noTables.isPrintable bound e := by
  refine (prompts_bounded_iff noTables 4300 ?_ ?_).2.mpr ⟨2, ?_⟩
  · rintro e rfl
    exact accepted_coded 41
  · rintro e rfl
    exact genuine_coded 41
  · rintro e rfl
    exact fewDigits_coded

/-- No bound is for the prompts of all accepted events, whatever the interpreter writes. -/
theorem prompts_unbounded : ¬ ∃ limit bound, ∀ event, accepts noTables event = true →
    Genuine event → Within limit noTables.isPrintable bound event := by
  rintro ⟨limit, bound, within⟩
  have few := fewDigits_of_within (accepted_coded _)
    (within (codedEvent (10 ^ (bound + 1) : ℕ)) (accepted_coded _) (genuine_coded _))
  have short := (few (codes "function_code") (by decide) _ rfl).1
  have small := (NumberText.length_natText_le_iff bound.succ_pos).mp (short.trans bound.le_succ)
  rw [Int.natAbs_natCast] at small
  exact lt_irrefl _ small

end OtDetection.TriagePrompt
