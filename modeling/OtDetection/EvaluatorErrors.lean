import OtDetection.BehaviourBaseline
import OtDetection.ConduitPolicy
import OtDetection.Matcher
import OtDetection.NumberText

/-! What an event can make the three evaluators raise. A conversion to a float overflows
on a large integer, a conversion to an integer on an infinite float, and a dict refuses an
unhashable key; every other coercion catches its errors. -/

namespace OtDetection.EvaluatorErrors
open PyText FieldLookup PyNumber ShortCircuit Matcher NumberText

/-- An evaluation ends with a boolean. -/
def Returns {ε : Type} (result : Except ε Bool) : Prop := ∃ b, result = .ok b

theorem returns_iff {ε : Type} {result : Except ε Bool} :
    Returns result ↔ ¬ ∃ e, result = .error e := by
  cases result with
  | error e => simp [Returns]
  | ok b => simp [Returns]

/-! ## Coercions -/

def IsHuge : PyValue → Prop
  | .int n => floatEnd ≤ |(n : ℚ)|
  | _ => False

/-- `Infinity`, or a literal beyond the range. -/
def IsInfinite : PyValue → Prop
  | .float f => ∃ negative, doubleOfFloat f = .inf negative
  | _ => False

/-- A list or a dict. -/
def IsUnhashable (value : PyValue) : Prop := hashKey value = none

theorem coerceNumber_error_iff (py : Interpreter) (actual : PyValue) :
    (∃ e, coerceNumber py actual = .error e) ↔ IsHuge actual := by
  cases actual with
  | int n =>
    have range := roundDouble_isSome_iff n
    simp only [coerceNumber, floatOfInt, IsHuge]
    cases value : roundDouble (n : ℚ) with
    | none =>
      rw [value] at range
      simpa using range
    | some q =>
      rw [value] at range
      simpa using range
  | none | bool _ | float _ | str _ | list _ | dict _ => simp [coerceNumber, IsHuge]

theorem intOf_overflow_iff (unicode : Unicode) (value : PyValue) :
    intOf unicode value = .error .overflowError ↔ IsInfinite value := by
  cases value with
  | float f =>
    simp only [intOf, IsInfinite]
    cases doubleOfFloat f <;> simp
  | str s =>
    simp only [intOf, IsInfinite]
    cases intOfText unicode s <;> simp
  | none | bool _ | int _ | list _ | dict _ => simp [intOf, IsInfinite]

/-! ## The matcher -/

def TestsNumber : SigmaValue → Prop
  | .number _ | .compare _ _ => True
  | _ => False

def Overflows (py : Interpreter) (event : Event) : Leaf → Prop
  | .field field value => TestsNumber value ∧ IsHuge (lookupField event field)
  | .keyword value => TestsNumber value ∧ ∃ candidate,
      Reaches (keywordMatches py value) (.any ((candidates event).map .leaf)) candidate ∧
        IsHuge candidate
  | _ => False

structure Supported (rule : SigmaRule) : Prop where
  conditions : rule.conditions ≠ []
  leaves : ∀ leaf, (Formula.any rule.conditions).Has leaf → ¬ leaf.Unsupported

variable {py : Interpreter} {event : Event}

theorem valueMatches_error_iff {value : SigmaValue} (supported : ¬ value.Unsupported)
    (actual : PyValue) :
    (∃ e, valueMatches py value actual = .error e) ↔ TestsNumber value ∧ IsHuge actual := by
  cases value with
  | fieldReference | other _ => exact absurd trivial supported
  | null | «exists» _ | bool _ | cidr _ | regex _ _ | string _ => simp [valueMatches, TestsNumber]
  | number _ | compare _ _ =>
    rw [← coerceNumber_error_iff py]
    simp only [valueMatches, Matcher.compare, TestsNumber, true_and]
    cases coerceNumber py actual with
    | error e => exact iff_of_true ⟨e, rfl⟩ ⟨e, rfl⟩
    | ok left =>
      refine iff_of_false ?_ (by simp)
      cases left <;> rintro ⟨e, fails⟩ <;> cases fails

theorem keywordMatches_error_iff {value : SigmaValue} (supported : ¬ value.Unsupported)
    (candidate : PyValue) :
    (∃ e, keywordMatches py value candidate = .error e) ↔ TestsNumber value ∧ IsHuge candidate := by
  cases value with
  | string s => simp [keywordMatches, TestsNumber]
  | _ =>
    rw [keywordMatches_of_not_string (by simp)]
    exact valueMatches_error_iff supported candidate

theorem evalLeaf_error_iff {leaf : Leaf} (supported : ¬ leaf.Unsupported) :
    (∃ e, evalLeaf py event leaf = .error e) ↔ Overflows py event leaf := by
  cases leaf with
  | none => simp [evalLeaf, Overflows]
  | other type => exact absurd trivial supported
  | field field value => exact valueMatches_error_iff supported (lookupField event field)
  | keyword value =>
    rw [evalLeaf, evalKeyword_eq_any, Overflows]
    constructor
    · intro ⟨e, fails⟩
      obtain ⟨candidate, reached, raised⟩ := reaches_of_eval fails
      have huge := (keywordMatches_error_iff supported candidate).mp ⟨e, raised⟩
      exact ⟨huge.1, candidate, reached, huge.2⟩
    · intro ⟨number, candidate, reached, huge⟩
      obtain ⟨e, raised⟩ := (keywordMatches_error_iff supported candidate).mpr ⟨number, huge⟩
      exact ⟨e, eval_of_reaches reached raised⟩

theorem matchRule_returns_iff {rule : SigmaRule} (supported : Supported rule) :
    Returns (matchRule py rule event) ↔
      (logsourceMatches rule event = true → ∀ leaf,
        Reaches (evalLeaf py event) (.any rule.conditions) leaf → ¬ Overflows py event leaf) := by
  cases admitted : logsourceMatches rule event with
  | false => simp [Returns, matchRule, admitted]
  | true =>
    have evaluates : matchRule py rule event =
        (Formula.any rule.conditions).eval (evalLeaf py event) := by
      rw [matchRule, admitted, Formula.eval]
      simp [supported.conditions]
    rw [returns_iff, evaluates]
    simp only [forall_const]
    constructor
    · intro returns leaf reached overflows
      obtain ⟨e, fails⟩ := (evalLeaf_error_iff (supported.leaves leaf reached.has)).mpr overflows
      exact returns ⟨e, eval_of_reaches reached fails⟩
    · rintro within ⟨e, fails⟩
      obtain ⟨leaf, reached, raised⟩ := reaches_of_eval fails
      exact within leaf reached
        ((evalLeaf_error_iff (supported.leaves leaf reached.has)).mp ⟨e, raised⟩)

/-! ## The other two evaluators -/

/-- The baseline rule looks up the codes of a service. -/
def LooksUp (config : BehaviourBaseline.BaselineConfig) (event : Event) : Prop :=
  BehaviourBaseline.filtered config.service event = false ∧
    config.type = .newFunctionCode ∧ isNone (eventGet event "service") = false

theorem knownCodes_returns_iff (baseline : BehaviourBaseline.Baseline) (service : PyValue) :
    (∃ known, BehaviourBaseline.knownCodes baseline service = .ok known) ↔
      ¬ IsUnhashable service := by
  cases service with
  | none | bool _ | int _ | float _ | str _ | list _ | dict _ =>
    simp [BehaviourBaseline.knownCodes, IsUnhashable, hashKey]

section FunctionCode

variable {unicode : Unicode} {baseline : BehaviourBaseline.Baseline} {service code : PyValue}

theorem newFunctionCode_of_ok (given : isNone service = false) {n : ℤ}
    (value : intOf unicode code = .ok n) :
    BehaviourBaseline.newFunctionCode unicode baseline service code =
      (BehaviourBaseline.knownCodes baseline service).map fun known => decide (n ∉ known) := by
  cases service with
  | none => cases given
  | bool _ | int _ | float _ | str _ | list _ | dict _ =>
    simp only [BehaviourBaseline.newFunctionCode, value]

theorem newFunctionCode_of_error (given : isNone service = false) {e : PyError}
    (value : intOf unicode code = .error e) :
    BehaviourBaseline.newFunctionCode unicode baseline service code =
      if e = .overflowError then .error (.raised .overflowError) else .ok false := by
  cases service with
  | none => cases given
  | bool _ | int _ | float _ | str _ | list _ | dict _ =>
    simp only [BehaviourBaseline.newFunctionCode, value]
    cases e <;> rfl

theorem newFunctionCode_returns_iff (given : isNone service = false) :
    Returns (BehaviourBaseline.newFunctionCode unicode baseline service code) ↔
      ¬ IsInfinite code ∧ (IsUnhashable service → ¬ ∃ n, intOf unicode code = .ok n) := by
  have known := knownCodes_returns_iff baseline service
  rw [← intOf_overflow_iff unicode]
  cases value : intOf unicode code with
  | error e =>
    rw [newFunctionCode_of_error given value]
    by_cases overflow : e = .overflowError
    · simp [Returns, overflow]
    · simp [Returns, overflow]
  | ok n =>
    rw [newFunctionCode_of_ok given value]
    cases codes : BehaviourBaseline.knownCodes baseline service with
    | error e =>
      rw [codes] at known
      simpa [Returns, Except.map] using known
    | ok codes' =>
      have hashable := known.mp ⟨codes', codes⟩
      exact iff_of_true ⟨_, rfl⟩ ⟨by simp, fun unhashable => absurd unhashable hashable⟩

end FunctionCode

theorem matchBaseline_returns_iff {unicode : Unicode} {config : BehaviourBaseline.BaselineConfig}
    (supported : ∀ type, config.type ≠ .other type) (title : PyValue)
    (baseline : BehaviourBaseline.Baseline) :
    Returns (BehaviourBaseline.matchBaseline unicode ⟨title, some config⟩ event baseline) ↔
      (LooksUp config event →
        ¬ IsInfinite (eventGet event "function_code") ∧
          (IsUnhashable (eventGet event "service") →
            ¬ ∃ n, intOf unicode (eventGet event "function_code") = .ok n)) := by
  unfold BehaviourBaseline.matchBaseline LooksUp
  cases filter : BehaviourBaseline.filtered config.service event with
  | true => simp [filter, Returns]
  | false =>
    cases type : config.type with
    | other type' => exact absurd type (supported type')
    | newAsset _ | newPair => simp [filter, type, Returns]
    | newFunctionCode =>
      cases given : isNone (eventGet event "service") with
      | true =>
        have absent : eventGet event "service" = .none := by
          cases service : eventGet event "service" with
          | none => rfl
          | _ =>
            rw [service] at given
            cases given
        simp [filter, type, absent, BehaviourBaseline.newFunctionCode, Returns]
      | false =>
        simp only [filter, type, Bool.false_eq_true, if_false, newFunctionCode_returns_iff given,
          true_and, forall_const]

/-- A policy whose networks all parse. -/
def ValidPolicy (policy : ConduitPolicy.Policy) : Prop :=
  ∀ zone ∈ policy.zones, (IpAddress.ipNetwork zone.cidr).isSome

/-- The service rule judges the port of a flow over a declared conduit. -/
def JudgesPort (unicode : Unicode) (kind : ConduitPolicy.ConduitType) (event : Event)
    (policy : ConduitPolicy.Policy) : Prop :=
  kind = .undeclaredService ∧ ∃ source dest,
    ConduitPolicy.zoneFor unicode (eventGet event "src_ip") policy = .ok (some source) ∧
    ConduitPolicy.zoneFor unicode (eventGet event "dst_ip") policy = .ok (some dest) ∧
    source ≠ dest ∧ (ConduitPolicy.conduitFor policy source dest).isSome

theorem findZone_returns {zones : List ConduitPolicy.Zone}
    (valid : ∀ zone ∈ zones, (IpAddress.ipNetwork zone.cidr).isSome)
    (address : IpAddress.Address) : ∃ zone, ConduitPolicy.findZone address zones = .ok zone := by
  induction zones with
  | nil => exact ⟨none, rfl⟩
  | cons zone zones ih =>
    obtain ⟨network, parsed⟩ := Option.isSome_iff_exists.mp (valid zone List.mem_cons_self)
    simp only [ConduitPolicy.findZone, parsed]
    split
    · exact ⟨_, rfl⟩
    · exact ih fun later mem => valid later (List.mem_cons_of_mem zone mem)

theorem zoneFor_returns (unicode : Unicode) {policy : ConduitPolicy.Policy}
    (valid : ValidPolicy policy) (address : PyValue) :
    ∃ zone, ConduitPolicy.zoneFor unicode address policy = .ok zone := by
  unfold ConduitPolicy.zoneFor
  split
  · exact ⟨none, rfl⟩
  · split
    · exact ⟨none, rfl⟩
    · exact findZone_returns valid _

theorem undeclaredService_returns_iff {unicode : Unicode} (conduit : ConduitPolicy.Conduit)
    (port : PyValue) :
    Returns (ConduitPolicy.undeclaredService unicode conduit port) ↔ ¬ IsInfinite port := by
  rw [← intOf_overflow_iff unicode, ConduitPolicy.undeclaredService]
  cases intOf unicode port with
  | error e => cases e <;> simp [Returns]
  | ok n =>
    refine iff_of_true ?_ (by simp)
    simp only
    split <;> exact ⟨_, rfl⟩

theorem matchConduit_silent {unicode : Unicode} {policy : ConduitPolicy.Policy}
    {source dest : Option Text}
    (from_zone : ConduitPolicy.zoneFor unicode (eventGet event "src_ip") policy = .ok source)
    (to_zone : ConduitPolicy.zoneFor unicode (eventGet event "dst_ip") policy = .ok dest)
    (kind : ConduitPolicy.ConduitType) (title : PyValue)
    (apart : ∀ s ∈ source, ∀ d ∈ dest, s = d) :
    ConduitPolicy.matchConduit unicode ⟨title, some kind⟩ event policy = .ok false := by
  simp only [ConduitPolicy.matchConduit, from_zone, to_zone]
  cases source with
  | none => rfl
  | some s =>
    cases dest with
    | none => rfl
    | some d => exact if_pos (apart s rfl d rfl)

theorem matchConduit_returns_iff {unicode : Unicode} {kind : ConduitPolicy.ConduitType}
    (supported : ∀ type, kind ≠ .other type) {policy : ConduitPolicy.Policy}
    (valid : ValidPolicy policy) (title : PyValue) :
    Returns (ConduitPolicy.matchConduit unicode ⟨title, some kind⟩ event policy) ↔
      (JudgesPort unicode kind event policy → ¬ IsInfinite (eventGet event "dst_port")) := by
  obtain ⟨source, from_zone⟩ := zoneFor_returns unicode valid (eventGet event "src_ip")
  obtain ⟨dest, to_zone⟩ := zoneFor_returns unicode valid (eventGet event "dst_ip")
  have silent := matchConduit_silent from_zone to_zone kind title
  simp only [JudgesPort, from_zone, to_zone, Except.ok.injEq]
  cases source with
  | none => simp [silent (by simp), Returns]
  | some source =>
    cases dest with
    | none => simp [silent (by simp), Returns]
    | some dest =>
      by_cases same : source = dest
      · simp [silent (by simp [same]), same, Returns]
      · rw [ConduitPolicy.matchConduit_between from_zone to_zone same,
          ← ConduitPolicy.conduitFor_eq_head?]
        cases kind with
        | other type => exact absurd rfl (supported type)
        | undeclaredPath => simp [ConduitPolicy.judge, Returns]
        | undeclaredService =>
          cases declared : ConduitPolicy.conduitFor policy source dest with
          | none => simp [ConduitPolicy.judge, Returns, declared]
          | some conduit =>
            simp [ConduitPolicy.judge, undeclaredService_returns_iff, declared, same]

/-! ## All three -/

/-- Exactly when each of the three evaluators returns a boolean on an event. -/
theorem evaluators_return_iff {rule : SigmaRule} (supported : Supported rule)
    {config : BehaviourBaseline.BaselineConfig} (deviation : ∀ type, config.type ≠ .other type)
    {kind : ConduitPolicy.ConduitType} (segmentation : ∀ type, kind ≠ .other type)
    {policy : ConduitPolicy.Policy} (valid : ValidPolicy policy) (py : Interpreter) (event : Event)
    (baseline : BehaviourBaseline.Baseline) (title : PyValue) :
    (Returns (matchRule py rule event) ↔
      (logsourceMatches rule event = true → ∀ leaf,
        Reaches (evalLeaf py event) (.any rule.conditions) leaf → ¬ Overflows py event leaf)) ∧
    (Returns (BehaviourBaseline.matchBaseline py.toUnicode ⟨title, some config⟩ event baseline) ↔
      (LooksUp config event →
        ¬ IsInfinite (eventGet event "function_code") ∧
          (IsUnhashable (eventGet event "service") →
            ¬ ∃ n, intOf py.toUnicode (eventGet event "function_code") = .ok n))) ∧
    (Returns (ConduitPolicy.matchConduit py.toUnicode ⟨title, some kind⟩ event policy) ↔
      (JudgesPort py.toUnicode kind event policy → ¬ IsInfinite (eventGet event "dst_port"))) :=
  ⟨matchRule_returns_iff supported, matchBaseline_returns_iff deviation title baseline,
    matchConduit_returns_iff segmentation valid title⟩

/-! Three rules on an event that all of them take, and on two that they do not. -/

theorem lt_floatEnd {q : ℚ} (small : q < 2 ^ 16) : q < floatEnd :=
  have power : (2 : ℚ) ^ 16 ≤ 2 ^ 1023 := pow_le_pow_right₀ one_le_two (by norm_num)
  small.trans_le (power.trans two_pow_le_floatEnd)

theorem roundDouble_hundred : (roundDouble 100).isSome :=
  (roundDouble_isSome_iff 100).mpr (lt_floatEnd (by norm_num))

def longFrames : SigmaRule where
  title := codes "long frames"
  product := none
  service := none
  category := none
  conditions := [.leaf (.field (codes "length") (.compare .gt ⟨100, roundDouble_hundred⟩))]

def unknownCodes : BehaviourBaseline.BaselineConfig := ⟨none, .newFunctionCode⟩

def emptyBaseline : BehaviourBaseline.Baseline := ⟨[codes "capture"], [], [], [], []⟩

def frame (length port service code : PyValue) : Event :=
  [(codes "src_ip", .str (codes "172.21.0.20")), (codes "dst_ip", .str (codes "172.31.0.10")),
    (codes "length", length), (codes "dst_port", port), (codes "service", service),
    (codes "function_code", code)]

def infinity : PyValue := .float (.inf false)

theorem supported_longFrames : Supported longFrames where
  conditions := by simp [longFrames]
  leaves leaf has := by
    cases has with
    | any mem has =>
      cases List.mem_singleton.mp mem
      cases has
      exact id

theorem validPolicy_plant : ValidPolicy ConduitPolicy.plant := by
  simp only [ValidPolicy, ConduitPolicy.plant]
  decide +kernel

theorem evaluators_return_frame :
    let event := frame (.int 1500) (.int 502) (.str (codes "modbus")) (.int 3)
    Returns (matchRule plainPatterns longFrames event) ∧
    Returns (BehaviourBaseline.matchBaseline noTables ⟨.none, some unknownCodes⟩ event
      emptyBaseline) ∧
    Returns (ConduitPolicy.matchConduit noTables ⟨.none, some .undeclaredService⟩ event
      ConduitPolicy.plant) := by
  intro event
  have exact_when := @evaluators_return_iff longFrames supported_longFrames unknownCodes
    (by simp [unknownCodes]) .undeclaredService (by simp) ConduitPolicy.plant validPolicy_plant
    plainPatterns event emptyBaseline .none
  refine ⟨exact_when.1.mpr fun _ leaf reached => ?_, exact_when.2.1.mpr fun _ => ?_,
    exact_when.2.2.mpr fun _ => id⟩
  · cases reached.has with
    | any mem has =>
      cases List.mem_singleton.mp mem
      cases has
      intro overflows
      have huge : floatEnd ≤ |((1500 : ℤ) : ℚ)| := overflows.2
      exact huge.not_gt (lt_floatEnd (by norm_num))
  · exact ⟨id, fun unhashable => by cases unhashable⟩
theorem floatOfInt_huge : floatOfInt (2 ^ 1024) = .error .overflowError := by
  have range := roundDouble_isSome_iff ((2 ^ 1024 : ℤ) : ℚ)
  have huge : floatEnd ≤ |((2 ^ 1024 : ℤ) : ℚ)| := by
    rw [Int.cast_pow, Int.cast_ofNat, abs_of_pos (by positivity)]
    exact sub_le_self _ (by positivity)
  have none : roundDouble ((2 ^ 1024 : ℤ) : ℚ) = none := by
    rw [← Option.not_isSome_iff_eq_none, range]
    exact huge.not_gt
  rw [floatOfInt, none]

theorem evaluators_raise_frame :
    let event := frame (.int (2 ^ 1024)) infinity (.str (codes "modbus")) infinity
    Supported longFrames ∧ ValidPolicy ConduitPolicy.plant ∧
    matchRule plainPatterns longFrames event = .error (.raised .overflowError) ∧
    BehaviourBaseline.matchBaseline noTables ⟨.none, some unknownCodes⟩ event emptyBaseline =
      .error (.raised .overflowError) ∧
    BehaviourBaseline.matchBaseline noTables ⟨.none, some unknownCodes⟩
      (frame .none .none (.list []) (.int 3)) emptyBaseline = .error (.raised .typeError) ∧
    ConduitPolicy.matchConduit noTables ⟨.none, some .undeclaredService⟩ event
      ConduitPolicy.plant = .error (.raised .overflowError) := by
  refine ⟨supported_longFrames, validPolicy_plant, ?_, rfl, rfl, ?_⟩
  · have field : lookupField (frame (.int (2 ^ 1024)) infinity (.str (codes "modbus")) infinity)
        (codes "length") = .int (2 ^ 1024) := rfl
    have node : evalLeaf plainPatterns
        (frame (.int (2 ^ 1024)) infinity (.str (codes "modbus")) infinity)
        (.field (codes "length") (.compare .gt ⟨100, roundDouble_hundred⟩)) =
        .error (.raised .overflowError) := by
      simp only [evalLeaf, field, valueMatches, Matcher.compare, coerceNumber, floatOfInt_huge]
      rfl
    simp only [matchRule, longFrames, evalAny, Formula.eval, node]
    rfl
  · decide +kernel

end OtDetection.EvaluatorErrors
