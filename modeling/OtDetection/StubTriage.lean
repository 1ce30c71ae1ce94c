import OtDetection.Matcher
import OtDetection.NumberText
import OtDetection.TelemetrySchema
import OtDetection.TriagePrompt

/-! The verdict of the stub. A function code counts only when it is an `int`, while the schema
and the matcher take a float with the same value for the same code. -/

namespace OtDetection.StubTriage
open PyText PyNumber FieldLookup NumberText TelemetrySchema
open TriagePrompt (Scalar sanitise)
open Matcher (Interpreter SigmaNumber coerceNumber valueMatches)

def suspiciousFunctions : List ℤ := [5, 6, 13, 14, 16, 21, 26, 29, 41]

def suspiciousEvents : List Text := ["interface_down", "device_restart", "config_change"].map codes

inductive Verdict
  | suspicious
  | benign
  deriving DecidableEq, Repr

def Verdict.text : Verdict → Text
  | suspicious => codes "suspicious"
  | benign => codes "benign"

structure Output where
  verdict : Verdict
  rationale : Text
  requiresHumanReview : Bool
  model : Text

structure StubProvider where
  model : Text := codes "stub-deterministic-v1"

def inEvents (value : PyValue) : Except PyError Bool :=
  match hashKey value with
  | some key => .ok (key ∈ suspiciousEvents.map HashKey.str)
  | none => .error .typeError

/-- A `bool` is an `int` too and is left out. -/
def inFunctions : PyValue → Bool
  | .int n => n ∈ suspiciousFunctions
  | _ => false

def format : Scalar → Text
  | .bool b => if b then codes "True" else codes "False"
  | .int n => intText n
  | .float f => f.repr
  | .str s => s

def triage (isPrintable : ℕ → Bool) (provider : StubProvider) (event : Event) :
    Except PyError Output := do
  let code := eventGet event "function_code"
  let suspicious := (← inEvents (eventGet event "event_type")) || inFunctions code
  let verdict := if suspicious then .suspicious else .benign
  let service := sanitise isPrintable
    ((event.lookup (codes "service")).getD (.str (codes "unknown")))
  .ok ⟨verdict, format service ++
    (codes " event classified from structured fields only; verdict " ++
      (verdict.text ++ codes ".")), true, provider.model⟩

/-! ## What the verdict is about -/

/-- The function code is numerically equal to a number. -/
def HasCode (event : Event) (n : ℤ) : Prop :=
  hashKey (eventGet event "function_code") = some (.number n)

instance (event : Event) (n : ℤ) : Decidable (HasCode event n) :=
  inferInstanceAs (Decidable (_ = _))

def SuspiciousEvent (event : Event) : Prop :=
  ∃ text ∈ suspiciousEvents, event.lookup (codes "event_type") = some (.str text)

def SuspiciousCode (event : Event) : Prop := ∃ n ∈ suspiciousFunctions, HasCode event n

/-- The same event type, and the same function code however it is spelled. -/
structure SameFacts (event event' : Event) : Prop where
  type : event.lookup (codes "event_type") = event'.lookup (codes "event_type")
  code : (event.lookup (codes "function_code") = none ∧
      event'.lookup (codes "function_code") = none) ∨
    ∃ value value', event.lookup (codes "function_code") = some value ∧
      event'.lookup (codes "function_code") = some value' ∧ hashKey value = hashKey value'

section Judge

variable (py : Interpreter) (provider : StubProvider)

def verdict (event : Event) : Except PyError Verdict :=
  (triage py.isPrintable provider event).map Output.verdict

def matchesCode (value : SigmaNumber) (event : Event) : Except Matcher.Error Bool :=
  valueMatches py (.number value) (lookupField event (codes "function_code"))

/-- The verdict is about the values of the event, and so is the matcher. -/
structure Judged (event : Event) : Prop where
  verdict : ∃ judged, verdict py provider event = .ok judged ∧
    (judged = .suspicious ↔ SuspiciousEvent event ∨ SuspiciousCode event)
  matcher : ∀ n ∈ suspiciousFunctions, ∀ value : SigmaNumber, value.number = n →
    matchesCode py value event = .ok (HasCode event n)

end Judge

/-- The exact condition: no float stands for a suspicious function code, unless the event type
settles the verdict, and a code that is an integer is in the range of floats. -/
structure Recognised (event : Event) : Prop where
  spelled : ∀ f, event.lookup (codes "function_code") = some (.float f) →
    SuspiciousEvent event ∨ ∀ n ∈ suspiciousFunctions, doubleOfFloat f ≠ .finite n
  range : ∀ n, event.lookup (codes "function_code") = some (.int n) → (roundDouble n).isSome

/-! ## The verdict -/

section Verdict

variable {py : Interpreter} {provider : StubProvider} {event : Event}

theorem inEvents_accepted (accepted : accepts py.toUnicode event = true) :
    ∃ found, inEvents (eventGet event "event_type") = .ok found ∧
      (found = true ↔ SuspiciousEvent event) := by
  unfold SuspiciousEvent
  cases type : event.lookup (codes "event_type") with
  | none =>
    rw [eventGet, type]
    exact ⟨false, rfl, iff_of_false Bool.false_ne_true fun ⟨_, _, found⟩ => nomatch found⟩
  | some value =>
    have named := @mem_properties .string ["opcua_service", "event_type", "asset"] "event_type"
      (by decide) (by decide)
    have checked := accepts_field accepted named type
    cases value with
    | str text =>
      rw [eventGet, type]
      refine ⟨_, rfl, ?_⟩
      simp only [Option.some.injEq, PyValue.str.injEq, exists_eq_right',
        decide_eq_true_eq, List.mem_map, HashKey.str.injEq, exists_eq_right]
    | none | bool b | int n | float f | list items | dict items => cases checked

theorem verdict_eq {found : Bool} (type : inEvents (eventGet event "event_type") = .ok found) :
    verdict py provider event = .ok
      (if found || inFunctions (eventGet event "function_code") then .suspicious else .benign) := by
  rw [verdict, triage, type]
  rfl

theorem verdict_iff (accepted : accepts py.toUnicode event = true) :
    ∃ judged, verdict py provider event = .ok judged ∧ (judged = .suspicious ↔
      SuspiciousEvent event ∨ inFunctions (eventGet event "function_code") = true) := by
  obtain ⟨found, type, iff⟩ := inEvents_accepted accepted
  refine ⟨_, verdict_eq type, ?_⟩
  rw [← iff, ← Bool.or_eq_true]
  cases found || inFunctions (eventGet event "function_code") with
  | true => exact iff_of_true rfl rfl
  | false => exact iff_of_false nofun Bool.false_ne_true

/-! ## The function code -/

theorem code_cases (accepted : accepts py.toUnicode event = true) :
    event.lookup (codes "function_code") = none ∨
      (∃ n, event.lookup (codes "function_code") = some (.int n)) ∨
      ∃ f q, event.lookup (codes "function_code") = some (.float f) ∧
        doubleOfFloat f = .finite q := by
  cases code : event.lookup (codes "function_code") with
  | none => exact .inl rfl
  | some value =>
    have named := @mem_properties .integer ["function_code"] "function_code"
      (by decide) (by decide)
    rcases isInteger_cases (accepts_field accepted named code) with ⟨n, rfl⟩ | ⟨f, q, rfl, double⟩
    · exact .inr (.inl ⟨n, rfl⟩)
    · exact .inr (.inr ⟨f, q, rfl, double⟩)

theorem hasCode_none (code : event.lookup (codes "function_code") = none) (n : ℤ) :
    ¬ HasCode event n := by
  rw [HasCode, eventGet, code]
  exact nofun

theorem hasCode_int {m : ℤ} (code : event.lookup (codes "function_code") = some (.int m)) (n : ℤ) :
    HasCode event n ↔ m = n := by
  rw [HasCode, eventGet, code, Option.getD_some, hashKey, Option.some.injEq, HashKey.number.injEq,
    Int.cast_inj]

theorem floatKey_eq_iff (f : PyFloat) (q : ℚ) :
    floatKey f = .number q ↔ doubleOfFloat f = .finite q := by
  rw [doubleOfFloat]
  cases floatKey f with
  | number p => rw [HashKey.number.injEq, Double.finite.injEq]
  | none | nan | inf negative | str text => exact iff_of_false nofun nofun

theorem hasCode_float {f : PyFloat}
    (code : event.lookup (codes "function_code") = some (.float f)) (n : ℤ) :
    HasCode event n ↔ doubleOfFloat f = .finite n := by
  rw [HasCode, eventGet, code, Option.getD_some, hashKey, Option.some.injEq, floatKey_eq_iff]

theorem lookupField_code :
    lookupField event (codes "function_code") = eventGet event "function_code" := by
  rw [lookupField, eventGet]
  cases event.lookup (codes "function_code") with
  | none => exact if_neg (by decide)
  | some value => rfl

/-! ## The matcher -/

theorem small_of_mem : ∀ n ∈ suspiciousFunctions, n.natAbs < 2 ^ 53 := by decide

theorem matchesCode_none (code : event.lookup (codes "function_code") = none)
    (value : SigmaNumber) : matchesCode py value event = .ok false := by
  rw [matchesCode, lookupField_code, eventGet, code]
  rfl

theorem matchesCode_int {m : ℤ} (code : event.lookup (codes "function_code") = some (.int m))
    (value : SigmaNumber) : matchesCode py value event =
      match roundDouble m with
      | some q => .ok (q = value.number)
      | none => .error (.raised .overflowError) := by
  rw [matchesCode, lookupField_code, eventGet, code, Option.getD_some, valueMatches, coerceNumber,
    floatOfInt]
  cases roundDouble m with
  | none => rfl
  | some q => rfl

theorem matchesCode_float {f : PyFloat} {q : ℚ}
    (code : event.lookup (codes "function_code") = some (.float f))
    (double : doubleOfFloat f = .finite q) (value : SigmaNumber) :
    matchesCode py value event = .ok (q = value.number) := by
  rw [matchesCode, lookupField_code, eventGet, code, Option.getD_some, valueMatches, coerceNumber,
    double]
  rfl

theorem matcher_iff (accepted : accepts py.toUnicode event = true) :
    (∀ n ∈ suspiciousFunctions, ∀ value : SigmaNumber, value.number = n →
      matchesCode py value event = .ok (HasCode event n)) ↔
      ∀ n, event.lookup (codes "function_code") = some (.int n) → (roundDouble n).isSome := by
  rcases code_cases accepted with code | ⟨m, code⟩ | ⟨f, q, code, double⟩
  · refine iff_of_true (fun n _ value _ => ?_) fun m found => ?_
    · rw [matchesCode_none code, decide_eq_false (hasCode_none code n)]
    · rw [code] at found
      cases found
  · rw [code]
    cases rounded : roundDouble m with
    | none =>
      refine iff_of_false (fun all => ?_) fun all => ?_
      · have five : roundDouble (5 : ℤ) = some ((5 : ℤ) : ℚ) := roundDouble_intCast (by decide)
        have found := all 5 (by decide) ⟨(5 : ℤ), by rw [five]; rfl⟩ rfl
        rw [matchesCode_int code, rounded] at found
        cases found
      · have inside := all m rfl
        rw [rounded] at inside
        cases inside
    | some q =>
      refine iff_of_true (fun n mem value same => ?_) fun n found => ?_
      · rw [matchesCode_int code, rounded, same]
        have number := roundDouble_eq_intCast_iff rounded (small_of_mem n mem)
        exact congrArg Except.ok (decide_eq_decide.mpr (number.trans (hasCode_int code n).symm))
      · rw [← PyValue.int.inj (Option.some.inj found), rounded]
        rfl
  · refine iff_of_true (fun n _ value same => ?_) fun m found => ?_
    · have number : q = n ↔ HasCode event n := by
        rw [hasCode_float code, double, Double.finite.injEq]
      rw [matchesCode_float code double, same, decide_eq_decide.mpr number]
    · rw [code] at found
      cases found

theorem spelled_iff (accepted : accepts py.toUnicode event = true) :
    ((SuspiciousEvent event ∨ inFunctions (eventGet event "function_code") = true) ↔
      SuspiciousEvent event ∨ SuspiciousCode event) ↔
      ∀ f, event.lookup (codes "function_code") = some (.float f) →
        SuspiciousEvent event ∨ ∀ n ∈ suspiciousFunctions, doubleOfFloat f ≠ .finite n := by
  rcases code_cases accepted with code | ⟨m, code⟩ | ⟨f, q, code, double⟩
  · rw [eventGet, code]
    refine iff_of_true (or_congr_right ?_) nofun
    exact iff_of_false Bool.false_ne_true fun ⟨n, _, found⟩ => hasCode_none code n found
  · rw [eventGet, code]
    refine iff_of_true (or_congr_right ?_) nofun
    simp only [SuspiciousCode, hasCode_int code, exists_eq_right', Option.getD_some, inFunctions,
      decide_eq_true_eq]
  · have unseen : inFunctions (eventGet event "function_code") = false := by
      rw [eventGet, code]
      rfl
    rw [unseen, code]
    simp only [Bool.false_eq_true, or_false, SuspiciousCode, hasCode_float code, Option.some.injEq,
      PyValue.float.injEq, forall_eq']
    constructor
    · intro about
      by_cases type : SuspiciousEvent event
      · exact .inl type
      · exact .inr fun n mem found => type (about.mpr (.inr ⟨n, mem, found⟩))
    · rintro (type | fine)
      · exact iff_of_true type (.inl type)
      · exact ⟨.inl, fun either => either.resolve_right fun ⟨n, mem, found⟩ => fine n mem found⟩

theorem judged_iff (accepted : accepts py.toUnicode event = true) :
    Judged py provider event ↔ Recognised event := by
  obtain ⟨judged, same, about⟩ := @verdict_iff py provider event accepted
  constructor
  · intro h
    obtain ⟨judged', same', about'⟩ := h.verdict
    rw [same] at same'
    cases same'
    exact ⟨(spelled_iff accepted).mp (about.symm.trans about'),
      (matcher_iff accepted).mp h.matcher⟩
  · intro h
    exact ⟨⟨judged, same, about.trans ((spelled_iff accepted).mpr h.spelled)⟩,
      (matcher_iff accepted).mpr h.range⟩

end Verdict

/-! ## Two events -/

theorem SameFacts.suspicious_iff {event event' : Event} (same : SameFacts event event') :
    SuspiciousEvent event ∨ SuspiciousCode event ↔
      SuspiciousEvent event' ∨ SuspiciousCode event' := by
  have key : hashKey (eventGet event "function_code") =
      hashKey (eventGet event' "function_code") := by
    rw [eventGet, eventGet]
    rcases same.code with ⟨first, second⟩ | ⟨value, value', first, second, equal⟩
    · rw [first, second]
    · rw [first, second, Option.getD_some, Option.getD_some, equal]
  simp only [SuspiciousEvent, SuspiciousCode, HasCode, same.type, key]

/-- Two accepted events with the same facts have one verdict, and it is about the facts, exactly
when both are recognised. -/
theorem verdicts_agree_iff (py : Interpreter) (provider : StubProvider) {event event' : Event}
    (accepted : accepts py.toUnicode event = true) (accepted' : accepts py.toUnicode event' = true)
    (same : SameFacts event event') :
    (verdict py provider event = verdict py provider event' ∧ Judged py provider event ∧
      Judged py provider event') ↔ Recognised event ∧ Recognised event' := by
  rw [judged_iff accepted, judged_iff accepted']
  refine ⟨And.right, fun recognised => ⟨?_, recognised⟩⟩
  obtain ⟨judged, found, about⟩ :=
    ((@judged_iff py provider event accepted).mpr recognised.1).verdict
  obtain ⟨judged', found', about'⟩ :=
    ((@judged_iff py provider event' accepted').mpr recognised.2).verdict
  have equal : judged = .suspicious ↔ judged' = .suspicious := by
    rw [about, about', same.suspicious_iff]
  rw [found, found']
  cases judged with
  | suspicious => rw [equal.mp rfl]
  | benign =>
    cases judged' with
    | suspicious => cases equal.mpr rfl
    | benign => rfl

/-! ## One code in two spellings -/

def codeEvent (code : PyValue) : Event :=
  [(codes "timestamp", .str (codes "2026-10-19T10:00:00Z")),
    (codes "product", .str (codes "ot_ndr")), (codes "service", .str (codes "modbus")),
    (codes "function_code", code)]

def spelled41 : PyFloat := .finite false [⟨4, by decide⟩, ⟨1, by decide⟩] 2

theorem accepted_int : accepts noTables (codeEvent (.int 41)) = true := by decide +kernel

theorem accepted_float : accepts noTables (codeEvent (.float spelled41)) = true := by
  decide +kernel

theorem same_spelled : SameFacts (codeEvent (.int 41)) (codeEvent (.float spelled41)) := by
  have key : floatKey spelled41 = .number 41 := by decide +kernel
  refine ⟨rfl, .inr ⟨_, _, rfl, rfl, ?_⟩⟩
  rw [hashKey, hashKey, key]
  rfl

theorem verdicts_agree_iff_spelled :
    (verdict Matcher.plainPatterns ⟨codes "stub-deterministic-v1"⟩ (codeEvent (.int 41)) =
        verdict Matcher.plainPatterns ⟨codes "stub-deterministic-v1"⟩
          (codeEvent (.float spelled41)) ∧
      Judged Matcher.plainPatterns ⟨codes "stub-deterministic-v1"⟩ (codeEvent (.int 41)) ∧
      Judged Matcher.plainPatterns ⟨codes "stub-deterministic-v1"⟩
        (codeEvent (.float spelled41))) ↔
      Recognised (codeEvent (.int 41)) ∧ Recognised (codeEvent (.float spelled41)) :=
  verdicts_agree_iff Matcher.plainPatterns ⟨codes "stub-deterministic-v1"⟩ accepted_int
    accepted_float same_spelled

/-- The stub takes `41` for suspicious and `41.0` for benign. -/
theorem verdicts_disagree : ¬ ∀ (provider : StubProvider) (event event' : Event),
    accepts noTables event = true → accepts noTables event' = true → SameFacts event event' →
    verdict Matcher.plainPatterns provider event =
      verdict Matcher.plainPatterns provider event' := by
  intro all
  have same := all ⟨codes "stub-deterministic-v1"⟩ _ _ accepted_int accepted_float same_spelled
  rw [@verdict_eq _ _ _ false rfl, @verdict_eq _ _ _ false rfl] at same
  cases same

end OtDetection.StubTriage
