import OtDetection.CorpusFile
import OtDetection.FormulaBounds
import OtDetection.RuleFields
import OtDetection.SigmaRuleset

/-! The false positives of the rules over the benign corpus. Of a field of an event it is known which
texts and which integers it can have, whatever the generator of random numbers gives; from this it
is known what a rule does on the event. -/

namespace OtDetection.BenignSilence
open PyText FieldLookup ShortCircuit Matcher PyNumber RuleFields BenignCorpus SigmaRuleset
open JsonValues (assign lookup_assign nodup_assign)

/-! ## Cells -/

/-- What is known of the value of a field. -/
inductive Cell
  | absent
  | text (t : Text)
  | integer (low high : ℤ)
  | any

def Cell.Has : Cell → Option PyValue → Prop
  | .absent, value => value = none
  | .text t, value => value = some (.str t)
  | .integer low high, value => ∃ n, value = some (.int n) ∧ low ≤ n ∧ n ≤ high
  | .any, _ => True

def cellOf : Option PyValue → Cell
  | none => .absent
  | some (.str t) => .text t
  | some (.int n) => .integer n n
  | some _ => .any

theorem has_cellOf (value : Option PyValue) : (cellOf value).Has value := by
  cases value with
  | none => rfl
  | some value =>
    cases value with
    | str t => rfl
    | int n => exact ⟨n, rfl, le_rfl, le_rfl⟩
    | none | bool _ | float _ | list _ | dict _ => trivial

theorem Cell.Has.sortKeys {cell : Cell} {value : Option PyValue} (has : cell.Has value) :
    cell.Has (value.map PyJson.sortKeys) := by
  cases cell with
  | absent => exact congrArg (Option.map PyJson.sortKeys) has
  | text t => exact congrArg (Option.map PyJson.sortKeys) has
  | integer low high =>
    obtain ⟨n, rfl, bounds⟩ := has
    exact ⟨n, rfl, bounds⟩
  | any => trivial

/-! ## Tests of a cell -/

def isAscii (t : Text) : Bool := t.all (· < 0x80)

def exactInt (value : SigmaNumber) : Option ℤ :=
  if value.number.den = 1 ∧ value.number.num.natAbs < 2 ^ 53 then some value.number.num else none

def isExact (low high : ℤ) : Bool := -(2 ^ 53) < low ∧ high < 2 ^ 53

def knownValue (test : SigmaValue) (cell : Cell) : Known :=
  match test, cell with
  | .exists present, .absent => .answers (!present)
  | .exists present, .text _ | .exists present, .integer _ _ => .answers present
  | .string _, .absent => .answers false
  | .string ⟨[.plain word], false⟩, .text t =>
    if isAscii word ∧ isVerbatim word ∧ isAscii t then
      .answers (t.map lowerAscii = word.map lowerAscii)
    else .returns
  | .string _, _ => .returns
  | .number _, .absent => .answers false
  | .number value, .integer low high =>
    match exactInt value with
    | none => .nothing
    | some m =>
      if isExact low high then
        if high < m ∨ m < low then .answers false
        else if low = high then .answers true else .returns
      else .nothing
  | .compare .gte value, .integer low high =>
    match exactInt value with
    | none => .nothing
    | some m =>
      if isExact low high then if high < m then .answers false else .returns else .nothing
  | _, _ => .nothing

variable {py : Interpreter}

theorem matchString_text {word t : Text} (ascii : isAscii word = true)
    (verbatim : isVerbatim word = true) (ascii' : isAscii t = true) :
    matchString py ⟨[.plain word], false⟩ (.str t) =
      decide (t.map lowerAscii = word.map lowerAscii) := by
  have small {s : Text} (ascii : isAscii s = true) : ∀ c ∈ s, c < 0x80 :=
    fun c mem => of_decide_eq_true (List.all_eq_true.mp ascii c mem)
  have written : SigmaString.str py ⟨[.plain word], false⟩ = word :=
    (List.append_nil _).trans (py.plain_eq word verbatim)
  have whole : SigmaString.containsSpecial ⟨[.plain word], false⟩ = false := rfl
  have read : str py (.str t) = t := rfl
  simp only [matchString, whole, written, read, lower, if_pos (small ascii), if_pos (small ascii'),
    Bool.false_eq_true, if_false]

theorem coerceNumber_exact {low high n : ℤ} (exactly : isExact low high = true) (above : low ≤ n)
    (below : n ≤ high) : coerceNumber py (.int n) = .ok (some (.finite n)) := by
  have bounds := of_decide_eq_true exactly
  rw [coerceNumber, floatOfInt, NumberText.roundDouble_intCast (by omega)]

theorem number_of_exactInt {value : SigmaNumber} {m : ℤ} (is : exactInt value = some m) :
    value.number = m ∧ value.toFloat = .finite m := by
  rw [exactInt] at is
  split_ifs at is with whole
  obtain rfl := Option.some.inj is
  have same : value.number = (value.number.num : ℤ) := (Rat.den_eq_one_iff _).mp whole.1 |>.symm
  have rounded := NumberText.roundDouble_intCast whole.2
  rw [← same] at rounded
  refine ⟨same, ?_⟩
  rw [SigmaNumber.toFloat, Option.some.inj ((Option.some_get value.fits).trans rounded)]
  exact congrArg Double.finite same

section Numbers

variable {value : SigmaNumber} {low high m n : ℤ} (is : exactInt value = some m)
  (exactly : isExact low high = true) (above : low ≤ n) (below : n ≤ high)
include is exactly above below

theorem number_int : valueMatches py (.number value) (.int n) = .ok (decide (n = m)) := by
  rw [valueMatches, coerceNumber_exact exactly above below, (number_of_exactInt is).1]
  change Except.ok (decide ((n : ℚ) = m)) = _
  simp only [Int.cast_inj]

theorem compare_int : valueMatches py (.compare .gte value) (.int n) = .ok (decide (m ≤ n)) := by
  rw [valueMatches, Matcher.compare, coerceNumber_exact exactly above below]
  change Except.ok (Double.le value.toFloat (.finite n)) = _
  rw [(number_of_exactInt is).2]
  change Except.ok (decide ((m : ℚ) < n) || decide ((m : ℚ) = n)) = _
  simp only [Int.cast_lt, Int.cast_inj, ← Bool.decide_or, le_iff_lt_or_eq]

end Numbers

theorem holds_knownValue (test : SigmaValue) {cell : Cell} {value : Option PyValue}
    (has : cell.Has value) :
    (knownValue test cell).Holds (valueMatches py test (value.getD .none)) := by
  fun_cases knownValue test cell with
  | case1 present =>
    obtain rfl : value = none := has
    cases present <;> rfl
  | case2 present t =>
    obtain rfl : value = some (.str t) := has
    cases present <;> rfl
  | case3 present low high =>
    obtain ⟨n, rfl, -⟩ := has
    cases present <;> rfl
  | case4 word =>
    obtain rfl : value = none := has
    rfl
  | case5 word t ascii =>
    obtain rfl : value = some (.str t) := has
    exact congrArg Except.ok (matchString_text ascii.1 ascii.2.1 ascii.2.2)
  | case6 word t _ => exact ⟨_, rfl⟩
  | case7 word => exact ⟨_, rfl⟩
  | case8 number =>
    obtain rfl : value = none := has
    rfl
  | case10 number low high m is exactly apart =>
    obtain ⟨n, rfl, above, below⟩ := has
    have other : n ≠ m := by omega
    exact (number_int is exactly above below).trans (by rw [decide_eq_false other])
  | case11 number high m is exactly meets =>
    obtain ⟨n, rfl, above, below⟩ := has
    have same : n = m := by omega
    exact (number_int is exactly above below).trans (by rw [decide_eq_true same])
  | case12 number low high m is exactly _ _ =>
    obtain ⟨n, rfl, above, below⟩ := has
    exact ⟨_, number_int is exactly above below⟩
  | case15 number low high m is exactly apart =>
    obtain ⟨n, rfl, above, below⟩ := has
    have smaller : ¬ m ≤ n := by omega
    exact (compare_int is exactly above below).trans (by rw [decide_eq_false smaller])
  | case16 number low high m is exactly _ =>
    obtain ⟨n, rfl, above, below⟩ := has
    exact ⟨_, compare_int is exactly above below⟩
  | case9 | case13 | case14 | case17 | case18 => trivial

/-! ## Rules on what is known of an event -/

/-- Each field has a value of one of its cells. -/
def Fits (cells : Text → List Cell) (event : Event) : Prop :=
  ∀ name, ∃ cell ∈ cells name, cell.Has (event.lookup name)

def knownLeaf (cells : Text → List Cell) : Leaf → Known
  | .none => .answers false
  | .field field value =>
    if 0x2E ∈ field then .nothing else Known.joinAll ((cells field).map (knownValue value))
  | .keyword _ | .other _ => .nothing

theorem holds_knownLeaf {cells : Text → List Cell} {event : Event} (fits : Fits cells event)
    (leaf : Leaf) : (knownLeaf cells leaf).Holds (evalLeaf py event leaf) := by
  cases leaf with
  | none => rfl
  | keyword _ | other _ => trivial
  | field field value =>
    rw [knownLeaf]
    split_ifs with dotted
    · trivial
    · have looked : lookupField event field = (event.lookup field).getD .none := by
        rw [lookupField, if_neg dotted]
        cases event.lookup field <;> rfl
      obtain ⟨cell, mem, has⟩ := fits field
      rw [evalLeaf, looked]
      exact Known.holds_joinAll (List.mem_map_of_mem mem) (holds_knownValue value has)

def knownRule (rule : SigmaRule) (routed : Event) (cells : Text → List Cell) : Known :=
  if logsourceMatches rule routed then
    if rule.conditions.isEmpty then .nothing else (Formula.any rule.conditions).known (knownLeaf cells)
  else .answers false

theorem holds_knownRule {rule : SigmaRule} {routed event : Event} {cells : Text → List Cell}
    (same : Agree routing routed event) (fits : Fits cells event) :
    (knownRule rule routed cells).Holds (matchRule py rule event) := by
  rw [knownRule, logsourceMatches_agree same, matchRule]
  cases logsourceMatches rule event with
  | false => rfl
  | true =>
    cases rule.conditions.isEmpty with
    | true => trivial
    | false =>
      have holds := holds_known (f := evalLeaf py event) (t := .any rule.conditions)
        (holds_knownLeaf fits)
      rwa [Formula.eval] at holds

/-- One cell of some fields after another, since a disjunction over the values of a field may hold of
each of its cells and of no two of them for the same reason. -/
def knownSplit (rule : SigmaRule) (routed : Event) : List Text → (Text → List Cell) → Known
  | [], cells => knownRule rule routed cells
  | field :: fields, cells => Known.joinAll ((cells field).map fun cell =>
      knownSplit rule routed fields (Function.update cells field [cell]))

theorem holds_knownSplit {rule : SigmaRule} {routed event : Event} (fields : List Text)
    {cells : Text → List Cell} (same : Agree routing routed event) (fits : Fits cells event) :
    (knownSplit rule routed fields cells).Holds (matchRule py rule event) := by
  induction fields generalizing cells with
  | nil => exact holds_knownRule same fits
  | cons field fields ih =>
    obtain ⟨cell, mem, has⟩ := fits field
    refine Known.holds_joinAll (List.mem_map_of_mem mem) (ih fun name => ?_)
    by_cases here : name = field
    · rw [here, Function.update_self]
      exact ⟨cell, List.mem_singleton_self _, has⟩
    · rw [Function.update_of_ne here]
      exact fits name

/-! ## The corpus -/

/-- The cells of the values that the assignments of an event make, by their fields. -/
def assigned (event : Event) : List (String × Cell) :=
  let texts (key : String) (values : List String) : List (String × Cell) :=
    values.map fun value => (key, .text (codes value))
  let integers (key : String) (values : List ℤ) : List (String × Cell) :=
    values.map fun value => (key, .integer value value)
  if isText "service" "modbus" event then
    integers "unit_id" [1, 2] ++ [("register", .integer 100 3899), ("value", .integer 0 1),
      ("register", .integer 0 999)] ++ texts "src_ip" ["172.21.0.20", "172.22.0.10"] ++
      texts "dst_ip" ["172.21.0.10", "172.21.0.11", "172.21.0.12"]
  else if isText "service" "dnp3" event then
    if isText "direction" "request" event then
      integers "link_source" [1, 2] ++ integers "link_destination" [10, 11, 12] ++
        [("object_group", .integer 1 30), ("control_code", .integer 1 4)]
    else integers "link_source" [10, 11, 12] ++ integers "link_destination" [1, 2]
  else if isText "service" "s7comm" event then
    ("pdu_reference", .integer 1 500) :: texts "src_ip" ["172.21.0.20", "172.22.0.10"]
  else if isText "service" "opcua" event then
    [("request_id", .integer 1 10000), ("secure_channel_id", .integer 1 20)]
  else if isText "service" "iptables" event then
    [("dst_ip", .any), ("src_port", .integer 1024 65000)]
  else if isText "service" "safety_monitor" event then
    [("tank_level_pct", .integer 35 79), ("value", .integer 0 1)]
  else if isText "service" "flow" event then
    [("bytes", .integer 200 4200), ("packets", .integer 6 25), ("duration", .any),
      ("src_port", .integer 1024 65000)]
  else if isText "service" "snmp" event then
    [("device", .any), ("src_ip", .any), ("snmp_value", .any)]
  else []

/-- The values of an assignment are in one of the cells of its field. -/
def Describes (cells : List (String × Cell)) (variation : Variation) : Prop :=
  ∀ event draws, ∃ cell, (variation.key, cell) ∈ cells ∧
    cell.Has (some (variation.value event draws).1)

section Values

variable {cells : List (String × Cell)} {applies : Event → Bool} {key : String}

theorem describes_any {value : Event → StateM Draws PyValue} (mem : (key, Cell.any) ∈ cells) :
    Describes cells ⟨applies, key, value⟩ := fun _ _ => ⟨.any, mem, trivial⟩

theorem describes_number {low high : ℕ} (order : low ≤ high)
    (mem : (key, Cell.integer low high) ∈ cells) :
    Describes cells (given applies key (randomNumber low high)) := by
  intro event draws
  have inside : draws 0 % (high - low + 1) < high - low + 1 := Nat.mod_lt _ (Nat.succ_pos _)
  refine ⟨_, mem, (low + draws 0 % (high - low + 1) : ℕ), rfl, ?_, ?_⟩
  · omega
  · omega

theorem describes_numbers {values : List ℤ} (some_values : values ≠ [])
    (each : ∀ n ∈ values, (key, Cell.integer n n) ∈ cells) :
    Describes cells (given applies key (numbers values)) := by
  intro event draws
  obtain ⟨n, inside, drawn⟩ := numbers_drawn some_values draws
  exact ⟨_, each n inside, n, congrArg some drawn, le_rfl, le_rfl⟩

theorem describes_addresses {values : List String} (some_values : values ≠ [])
    (each : ∀ value ∈ values, (key, Cell.text (codes value)) ∈ cells) :
    Describes cells (given applies key (addresses values)) := by
  intro event draws
  obtain ⟨address, inside, drawn⟩ := addresses_drawn some_values draws
  exact ⟨_, each address inside, congrArg some drawn⟩

end Values

theorem describes_variations (event : Event) :
    ∀ variation ∈ variations event, Describes (assigned event) variation := by
  rw [variations, assigned]
  split_ifs with modbus dnp3 request s7comm opcua iptables safety flow snmp
  · simp only [modbusVariations, List.forall_mem_cons, List.not_mem_nil, false_imp_iff,
      implies_true, and_true]
    exact ⟨describes_numbers (by decide) (by simp),
      describes_number (by decide) (by simp), describes_number (by decide) (by simp),
      describes_number (by decide) (by simp), describes_addresses (by decide) (by simp),
      describes_addresses (by decide) (by simp)⟩
  · simp only [request, dnp3Variations, if_true, List.forall_mem_cons, List.not_mem_nil,
      false_imp_iff, implies_true, and_true]
    exact ⟨describes_numbers (by decide) (by simp),
      describes_numbers (by decide) (by simp),
      describes_number (by decide) (by simp), describes_number (by decide) (by simp)⟩
  · simp only [request, dnp3Variations, Bool.false_eq_true, if_false, List.forall_mem_cons,
      List.not_mem_nil, false_imp_iff, implies_true, and_true]
    exact ⟨describes_numbers (by decide) (by simp),
      describes_numbers (by decide) (by simp)⟩
  · simp only [s7commVariations, List.forall_mem_cons, List.not_mem_nil, false_imp_iff,
      implies_true, and_true]
    exact ⟨describes_addresses (by decide) (by simp), describes_number (by decide) (by simp)⟩
  · simp only [opcuaVariations, List.forall_mem_cons, List.not_mem_nil, false_imp_iff,
      implies_true, and_true]
    exact ⟨describes_number (by decide) (by simp), describes_number (by decide) (by simp)⟩
  · simp only [iptablesVariations, List.forall_mem_cons, List.not_mem_nil, false_imp_iff,
      implies_true, and_true]
    exact ⟨describes_any (by simp), describes_number (by decide) (by simp)⟩
  · simp only [safetyMonitorVariations, List.forall_mem_cons, List.not_mem_nil, false_imp_iff,
      implies_true, and_true]
    exact ⟨describes_number (by decide) (by simp), describes_number (by decide) (by simp)⟩
  · simp only [flowVariations, List.forall_mem_cons, List.not_mem_nil, false_imp_iff,
      implies_true, and_true]
    exact ⟨describes_number (by decide) (by simp), describes_number (by decide) (by simp),
      describes_any (by simp), describes_number (by decide) (by simp)⟩
  · simp only [snmpVariations, List.forall_mem_cons, List.not_mem_nil, false_imp_iff,
      implies_true, and_true]
    exact ⟨describes_any (by simp), describes_any (by simp), describes_any (by simp)⟩
  · exact List.forall_mem_nil _

def cellsOf (template : Event) (name : Text) : List Cell :=
  if name = codes "timestamp" then [.any]
  else cellOf (template.lookup name) ::
    ((assigned template).filter fun entry => codes entry.1 = name).map Prod.snd

/-- The field has a value of one of the cells, in the event as it is or with sorted names. -/
def Within (template event : Event) : Prop :=
  ∀ name ≠ codes "timestamp", ∃ cell ∈ cellsOf template name, cell.Has (event.lookup name)

theorem within_template (template : Event) : Within template template := by
  intro name other
  refine ⟨cellOf (template.lookup name), ?_, has_cellOf _⟩
  rw [cellsOf, if_neg other]
  exact List.mem_cons_self

theorem Within.apply {template event : Event} (within : Within template event)
    {variation : Variation} (describes : Describes (assigned template) variation) (draws : Draws) :
    Within template (variation.apply event draws).1 := by
  rw [Variation.apply]
  split_ifs with applies
  · intro name other
    change ∃ cell ∈ cellsOf template name,
      cell.Has ((assign (codes variation.key) (variation.value event draws).1 event).lookup name)
    rw [lookup_assign]
    split_ifs with here
    · obtain ⟨cell, mem, has⟩ := describes event draws
      refine ⟨cell, ?_, has⟩
      rw [cellsOf, if_neg other, here]
      exact List.mem_cons_of_mem _ (List.mem_map.mpr
        ⟨_, List.mem_filter.mpr ⟨mem, decide_eq_true rfl⟩, rfl⟩)
    · exact within name other
  · exact within

theorem Within.foldlM {template event : Event} (within : Within template event)
    {list : List Variation} (describes : ∀ variation ∈ list, Describes (assigned template) variation)
    (draws : Draws) : Within template (list.foldlM Variation.apply event draws).1 := by
  induction list generalizing event draws with
  | nil => exact within
  | cons variation list ih =>
    obtain ⟨here, later⟩ := List.forall_mem_cons.mp describes
    rw [List.foldlM_cons]
    exact ih (within.apply here draws) later _

theorem fits_eventAt (index : ℕ) (draws : Draws) (moment : Correlation.DateTime) :
    Fits (cellsOf (templateAt index)) (eventAt index draws moment) := by
  intro name
  by_cases stamped : name = codes "timestamp"
  · refine ⟨.any, ?_, trivial⟩
    rw [cellsOf, if_pos stamped]
    exact List.mem_singleton_self _
  · have within := (within_template (templateAt index)).foldlM
      (describes_variations (templateAt index)) draws
    rw [eventAt, lookup_assign, if_neg stamped]
    exact within name stamped

theorem routing_templates : ∀ template ∈ templates, ∀ name ∈ routing,
    name ≠ codes "timestamp" ∧ (∀ entry ∈ assigned template, codes entry.1 ≠ name) := by
  decide +kernel

theorem texts_templates : ∀ template ∈ templates, ∀ name ∈ routing,
    (match cellOf (template.lookup name) with | .absent | .text _ => true | _ => false) = true := by
  decide +kernel

theorem agree_of_fits {template event : Event} (mem : template ∈ templates)
    (fits : Fits (cellsOf template) event) : Agree routing template event := by
  intro name routes
  obtain ⟨other, fixed⟩ := routing_templates template mem name routes
  have texts := texts_templates template mem name routes
  obtain ⟨cell, inside, has⟩ := fits name
  have unassigned : (assigned template).filter (fun entry => codes entry.1 = name) = [] :=
    List.filter_eq_nil_iff.mpr fun entry there => by
      rw [decide_eq_true_eq]
      exact fixed entry there
  rw [cellsOf, if_neg other, unassigned, List.map_nil, List.mem_singleton] at inside
  have own := has_cellOf (template.lookup name)
  subst inside
  cases cell : cellOf (template.lookup name) with
  | absent | text t =>
    rw [cell] at has own
    exact own.trans has.symm
  | integer low high | any =>
    rw [cell] at texts
    cases texts

def splitFields : List Text := ["src_ip", "link_source"].map codes

theorem silent_templates : ∀ template ∈ templates, ∀ entry ∈ singleEventRules,
    knownSplit entry.2 template splitFields (cellsOf template) = .answers false := by
  decide +kernel

theorem matchRule_eventAt {index : ℕ} {event : Event} (fits : Fits (cellsOf (templateAt index)) event)
    {entry : Text × SigmaRule} (mem : entry ∈ singleEventRules) :
    matchRule py entry.2 event = .ok false := by
  have there := templateAt_mem index
  have holds := @holds_knownSplit py entry.2 (templateAt index) event splitFields
    (cellsOf (templateAt index)) (agree_of_fits there fits) fits
  rwa [silent_templates _ there _ mem] at holds

theorem Fits.sorted {cells : Text → List Cell} {event : Event} (fits : Fits cells event)
    (distinct : (event.map Prod.fst).Nodup) : Fits cells (PyJson.sorted event) := by
  intro name
  obtain ⟨cell, mem, has⟩ := fits name
  refine ⟨cell, mem, ?_⟩
  rw [PyJson.lookup_sorted distinct]
  exact has.sortKeys

/-! ## False positives -/

structure FalsePositive where
  eventIndex : ℕ
  rules : List Text
  deriving DecidableEq

structure BaselineMetrics where
  eventsTotal : ℕ
  falsePositiveEvents : ℕ
  details : List FalsePositive
  deriving DecidableEq

section Metrics

variable (py) (rules : List (Text × SigmaRule))

def matching (event : Event) : List (Text × SigmaRule) → Except Matcher.Error (List Text)
  | [] => .ok []
  | (name, rule) :: rules => do
    let hit ← matchRule py rule event
    let names ← matching event rules
    return if hit then name :: names else names

def falsePositives : ℕ → List Event → Except Matcher.Error (List FalsePositive)
  | _, [] => .ok []
  | index, event :: events => do
    let names ← matching py event rules
    let details ← falsePositives (index + 1) events
    return if names = [] then details else ⟨index, names⟩ :: details

/-- `baseline_metrics`, but for the rates. -/
def baselineMetrics (events : List Event) : Except Matcher.Error BaselineMetrics := do
  let details ← falsePositives py rules 0 events
  return ⟨events.length, details.length, details⟩

end Metrics

variable {rules : List (Text × SigmaRule)}

theorem matching_silent {event : Event} (silent : ∀ entry ∈ rules, matchRule py entry.2 event = .ok false) :
    matching py event rules = .ok [] := by
  induction rules with
  | nil => rfl
  | cons entry rules ih =>
    obtain ⟨here, later⟩ := List.forall_mem_cons.mp silent
    rw [matching, here, ih later]
    rfl

theorem baselineMetrics_silent {events : List Event}
    (silent : ∀ event ∈ events, ∀ entry ∈ rules, matchRule py entry.2 event = .ok false) :
    baselineMetrics py rules events = .ok ⟨events.length, 0, []⟩ := by
  have none (index : ℕ) : falsePositives py rules index events = .ok [] := by
    induction events generalizing index with
    | nil => rfl
    | cons event events ih =>
      obtain ⟨here, later⟩ := List.forall_mem_cons.mp silent
      rw [falsePositives, matching_silent here, ih later]
      rfl
  rw [baselineMetrics, none]
  rfl

end OtDetection.BenignSilence
