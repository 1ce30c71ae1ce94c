import OtDetection.Matcher
import OtDetection.NumberText

/-! Rules on the text of an event. A log line carries `str` of every value; on a flat event
of texts, booleans and integers that a double holds exactly, every test comes out the
same on the text as on the value. -/

namespace OtDetection.TextEvents
open PyText FieldLookup PyNumber ShortCircuit Matcher NumberText

section

variable (py : Interpreter)

/-- The event with `str(value)` for every value. -/
def texts (event : Event) : Event := event.map fun item => (item.1, .str (str py item.2))

end

/-- A text, a boolean, or an integer of magnitude at most `2 ^ 53`. -/
def IsFlat : PyValue → Prop
  | .str _ | .bool _ => True
  | .int n => |n| ≤ 2 ^ 53
  | _ => False

def FlatEvent (event : Event) : Prop := ∀ item ∈ event, IsFlat item.2

/-- What routes a rule is text. -/
def RoutesByText (event : Event) : Prop :=
  ∀ field ∈ ["product", "service", "category"], ∀ value ∈ event.lookup (codes field),
    ∃ s, value = .str s

variable {py : Interpreter}

/-! ## Values -/

theorem IsFlat.isNone_eq {value : PyValue} (flat : IsFlat value) : isNone value = false := by
  cases value with
  | none => exact flat.elim
  | _ => rfl

theorem coerceBool_str {value : PyValue} (flat : IsFlat value) :
    coerceBool py (.str (str py value)) = coerceBool py value := by
  cases value with
  | str s => rfl
  | bool b =>
    cases b with
    | true => rfl
    | false => rfl
  | int n =>
    have ascii : ∀ c ∈ intText n, c < 0x80 := fun c mem => by
      have bounds := (isIntChar_of_mem_intText mem).bounds
      omega
    have lowered : lower py.toUnicode (intText n) = intText n := by
      rw [lower, if_pos ascii]
      exact map_eq_self fun c mem => lowerAscii_eq_self (isIntChar_of_mem_intText mem)
    have yes : intText n ≠ codes "true" ∧ intText n ≠ codes "yes" :=
      ⟨intText_ne n (c := 0x65) (by decide) (by decide),
        intText_ne n (c := 0x65) (by decide) (by decide)⟩
    have no : intText n ≠ codes "false" ∧ intText n ≠ codes "no" :=
      ⟨intText_ne n (c := 0x65) (by decide) (by decide),
        intText_ne n (c := 0x6F) (by decide) (by decide)⟩
    have text : str py (.int n) = intText n := rfl
    simp only [coerceBool, text, strip_intText, lowered, yes.1, yes.2, no.1, no.2, or_self, if_false]
  | none | float _ | list _ | dict _ => exact flat.elim

theorem coerceNumber_int {n : ℤ} (fits : (roundDouble n).isSome) :
    coerceNumber py (.str (str py (.int n))) = coerceNumber py (.int n) := by
  have text : str py (.int n) = intText n := rfl
  obtain ⟨q, value⟩ := Option.isSome_iff_exists.mp fits
  simp only [coerceNumber, floatOfInt, text, strip_intText, floatOfText_intText, toDouble, value]

theorem coerceNumber_str {value : PyValue} (flat : IsFlat value) :
    coerceNumber py (.str (str py value)) = coerceNumber py value := by
  cases value with
  | str s => rfl
  | bool b =>
    cases b with
    | true => rfl
    | false => rfl
  | int n =>
    refine coerceNumber_int ((roundDouble_isSome_iff n).mpr ?_)
    have bound : |(n : ℚ)| ≤ 2 ^ 53 := by exact_mod_cast (flat : |n| ≤ 2 ^ 53)
    have next : (2 : ℚ) ^ 53 < 2 ^ 1023 := pow_lt_pow_right₀ one_lt_two (by norm_num)
    exact (bound.trans_lt next).trans_le two_pow_le_floatEnd
  | none | float _ | list _ | dict _ => exact flat.elim

theorem matchCidr_str {value : PyValue} (flat : IsFlat value) (network : IpAddress.Network) :
    matchCidr network (.str (str py value)) = matchCidr network value := by
  cases value with
  | str s => rfl
  | bool b =>
    cases b with
    | true => rfl
    | false => rfl
  | int n =>
    have text : str py (.int n) = intText n := rfl
    have noPoint : 0x2E ∉ intText n := fun mem =>
      absurd (isIntChar_of_mem_intText mem) (by decide)
    have noColon : 0x3A ∉ intText n := fun mem =>
      absurd (isIntChar_of_mem_intText mem) (by decide)
    simp only [matchCidr, text, strip_intText, ipAddress_eq_none noPoint noColon]
  | none | float _ | list _ | dict _ => exact flat.elim

theorem matchRegex_str {value : PyValue} (flat : IsFlat value) (regexp : Text) (ignoreCase : Bool) :
    matchRegex py regexp ignoreCase (.str (str py value)) = matchRegex py regexp ignoreCase value := by
  cases value with
  | none => exact flat.elim
  | _ => rfl

theorem matchString_str {value : PyValue} (flat : IsFlat value) (test : SigmaString) :
    matchString py test (.str (str py value)) = matchString py test value := by
  cases value with
  | none => exact flat.elim
  | _ => rfl

theorem valueMatches_str {value : PyValue} (flat : IsFlat value) (test : SigmaValue) :
    valueMatches py test (.str (str py value)) = valueMatches py test value := by
  cases test with
  | null =>
    rw [valueMatches, valueMatches, flat.isNone_eq]
    rfl
  | «exists» present =>
    rw [valueMatches, valueMatches, flat.isNone_eq]
    rfl
  | bool boolean => simp only [valueMatches, coerceBool_str flat]
  | number number => simp only [valueMatches, coerceNumber_str flat]
  | compare op number => simp only [valueMatches, Matcher.compare, coerceNumber_str flat]
  | cidr network => simp only [valueMatches, matchCidr_str flat]
  | regex regexp ignoreCase => simp only [valueMatches, matchRegex_str flat]
  | string s => simp only [valueMatches, matchString_str flat]
  | fieldReference | other _ => rfl

theorem keywordMatches_str {value : PyValue} (flat : IsFlat value) (test : SigmaValue) :
    keywordMatches py test (.str (str py value)) = keywordMatches py test value := by
  cases test with
  | string s => rfl
  | _ =>
    rw [keywordMatches_of_not_string (by simp), keywordMatches_of_not_string (by simp),
      valueMatches_str flat]

/-! ## Events -/

theorem lookup_texts (event : Event) (name : Text) :
    (texts py event).lookup name = (event.lookup name).map fun value => .str (str py value) := by
  induction event with
  | nil => rfl
  | cons item event ih =>
    rw [texts, List.map_cons, List.lookup_cons, List.lookup_cons]
    cases name == item.1 with
    | true => rfl
    | false => exact ih

theorem FlatEvent.lookup {event : Event} (flat : FlatEvent event) {name : Text} {value : PyValue}
    (found : event.lookup name = some value) : IsFlat value :=
  flat (name, value) (mem_of_lookup found)

theorem IsFlat.descend {value : PyValue} (flat : IsFlat value) (part : Text) (parts : List Text) :
    descend value (part :: parts) = .none := by
  cases value with
  | str _ | bool _ | int _ => rfl
  | none | float _ | list _ | dict _ => exact flat.elim

theorem lookupField_flat {event : Event} (flat : FlatEvent event) (field : Text) :
    lookupField event field = (event.lookup field).getD .none := by
  cases found : event.lookup field with
  | some value => simp only [lookupField, found, Option.getD_some]
  | none =>
    simp only [lookupField, found, Option.getD_none]
    split_ifs with dotted
    · have joined := @List.intercalate_splitOn ℕ field _ _ 0x2E
      cases parts : field.splitOn 0x2E with
      | nil => exact absurd parts (List.splitOn_ne_nil _ _)
      | cons part rest =>
        rw [parts] at joined
        cases first : event.lookup part with
        | none => simp only [descend, first]
        | some value =>
          simp only [descend, first]
          cases rest with
          | nil =>
            obtain rfl : part = field := by simpa using joined
            cases found.symm.trans first
          | cons next rest => exact (flat.lookup first).descend next rest
    · rfl

theorem flatEvent_texts (event : Event) : FlatEvent (texts py event) := by
  intro item mem
  obtain ⟨source, -, rfl⟩ := List.mem_map.mp mem
  trivial

theorem scalars_flat {event : Event} (flat : FlatEvent event) :
    scalars (.dict event) = event.map Prod.snd := by
  rw [scalars]
  induction event with
  | nil => rfl
  | cons item event ih =>
    have first : scalars item.2 = [item.2] := by
      have value := flat item List.mem_cons_self
      cases shape : item.2 with
      | str _ | bool _ | int _ => rfl
      | none | float _ | list _ | dict _ =>
        rw [shape] at value
        exact value.elim
    rw [scalarsOfPairs, first, ih fun later mem => flat later (List.mem_cons_of_mem item mem)]
    rfl

theorem anyCandidate_str {values : List PyValue} (flat : ∀ value ∈ values, IsFlat value)
    (test : SigmaValue) :
    anyCandidate py test (values.map fun value => .str (str py value)) =
      anyCandidate py test values := by
  induction values with
  | nil => rfl
  | cons value values ih =>
    have first := flat value List.mem_cons_self
    have later := ih fun v mem => flat v (List.mem_cons_of_mem value mem)
    rw [List.map_cons, anyCandidate, anyCandidate, keywordMatches_str first, later, first.isNone_eq]
    rfl

theorem evalKeyword_texts {event : Event} (flat : FlatEvent event) (test : SigmaValue) :
    evalKeyword py (texts py event) test = evalKeyword py event test := by
  have values : (texts py event).map Prod.snd =
      (event.map Prod.snd).map fun value => .str (str py value) := by
    rw [texts, List.map_map, List.map_map]
    rfl
  rw [evalKeyword, evalKeyword, scalars_flat flat, scalars_flat (flatEvent_texts event), values]
  refine anyCandidate_str (fun value mem => ?_) test
  obtain ⟨item, source, rfl⟩ := List.mem_map.mp mem
  exact flat item source

theorem evalLeaf_texts {event : Event} (flat : FlatEvent event) (leaf : Leaf) :
    evalLeaf py (texts py event) leaf = evalLeaf py event leaf := by
  cases leaf with
  | none | other _ => rfl
  | keyword test => exact evalKeyword_texts flat test
  | field field test =>
    rw [evalLeaf, evalLeaf, lookupField_flat flat, lookupField_flat (flatEvent_texts event),
      lookup_texts]
    cases found : event.lookup field with
    | none => rfl
    | some value => exact valueMatches_str (flat.lookup found) test

theorem logsourceMatches_texts {event : Event} (routing : RoutesByText event) (rule : SigmaRule) :
    logsourceMatches rule (texts py event) = logsourceMatches rule event := by
  have same : ∀ field ∈ ["product", "service", "category"], ∀ expected,
      routes (texts py event) field expected = routes event field expected := by
    intro field mem expected
    unfold routes
    rw [lookup_texts]
    cases found : event.lookup (codes field) with
    | none => rfl
    | some value =>
      obtain ⟨s, rfl⟩ := routing field mem value found
      rfl
  rw [logsourceMatches, logsourceMatches, same "product" (by simp), same "service" (by simp),
    same "category" (by simp)]

/-- A rule does on the text of a flat event what it does on the event. -/
theorem matchRule_texts {event : Event} (flat : FlatEvent event) (routing : RoutesByText event)
    (rule : SigmaRule) : matchRule py rule (texts py event) = matchRule py rule event := by
  have conditions : (Formula.any rule.conditions).eval (evalLeaf py (texts py event)) =
      (Formula.any rule.conditions).eval (evalLeaf py event) :=
    eval_congr fun leaf _ => evalLeaf_texts flat leaf
  rw [Formula.eval, Formula.eval] at conditions
  rw [matchRule, matchRule, logsourceMatches_texts routing, conditions]

def write : Event :=
  [(codes "service", .str (codes "modbus")), (codes "function_code", .int 6),
    (codes "is_request", .bool true)]

def requests : SigmaRule :=
  ⟨codes "requests", none, some (codes "modbus"), none,
    [.leaf (.field (codes "is_request") (.bool true))]⟩

theorem matchRule_texts_request :
    matchRule plainPatterns requests (texts plainPatterns write) =
      matchRule plainPatterns requests write :=
  matchRule_texts
    (by
      intro item mem
      simp only [write, List.mem_cons, List.not_mem_nil, or_false] at mem
      rcases mem with rfl | rfl | rfl
      · trivial
      · exact (by decide : |(6 : ℤ)| ≤ 2 ^ 53)
      · trivial)
    (by
      intro field mem value found
      simp only [List.mem_cons, List.not_mem_nil, or_false] at mem
      rcases mem with rfl | rfl | rfl
      · cases found
      · exact ⟨_, (Option.some.inj found).symm⟩
      · cases found)
    requests

end OtDetection.TextEvents
