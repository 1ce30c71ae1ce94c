import OtDetection.Steps
import OtDetection.IsoTime
import OtDetection.NumberText
import Mathlib.Data.List.MinMax

/-! The score of an emulation run. Every expectation of a step is met by the earliest alert
of its type in the window of the step, and the counters of the loops give the summary. Numbers
of seconds are exact. -/

namespace OtDetection.EmulationScore
open PyText FieldLookup IsoTime ExceptSteps
open Correlation (DateTime replaceZ)

/-- The order of the integers that can be run. -/
local instance intPreorder : Preorder ℤ := Int.instLinearOrder.toPreorder

/-! ## Plans and observations -/

structure Expectation where
  signal : Text
  technique : Text
  rule : Text

structure Step where
  id : Text
  name : Text
  technique : Option Text
  expectations : List Expectation

structure Plan where
  name : Text
  steps : List Step

/-- What was recorded of a step, with `None` for a key that is not there. -/
structure Observation where
  startedAt : PyValue
  finishedAt : PyValue
  alerts : List Event

/-- `observations.get(id, {})`. -/
def observationOf (observations : List (Text × Observation)) (id : Text) : Observation :=
  (observations.lookup id).getD ⟨.none, .none, []⟩

inductive Error
  | attributeError
  | valueError
  deriving DecidableEq

/-! ## Alerts -/

def parseTimestamp : PyValue → Except Error DateTime
  | .str value =>
    match fromisoformat (replaceZ value) with
    | some parsed => .ok (if parsed.isAware then parsed else ⟨parsed.wall, some 0, parsed.in_range⟩)
    | none => .error .valueError
  | _ => .error .attributeError

/-- `parse_timestamp(raw) if raw else None`. -/
def parseGiven (raw : PyValue) : Except Error (Option DateTime) :=
  if truthy raw then (parseTimestamp raw).map some else .ok none

def isSignal (signal : Text) (alert : Event) : Bool :=
  match alert.lookup (codes "alert_type") with
  | some (.str type) => type = signal
  | _ => false

def timestamp (alert : Event) : PyValue := eventGet alert "timestamp"

def matchingAlerts (signal : Text) (started : DateTime) (finished : Option DateTime) :
    List Event → Except Error (List (DateTime × Event))
  | [] => .ok []
  | alert :: alerts =>
    if !isSignal signal alert then matchingAlerts signal started finished alerts
    else if !truthy (timestamp alert) then matchingAlerts signal started finished alerts
    else do
      let moment ← parseTimestamp (timestamp alert)
      if moment.utc < started.utc then matchingAlerts signal started finished alerts
      else if finished.any fun stop => stop.utc < moment.utc then
        matchingAlerts signal started finished alerts
      else return (moment, alert) :: (← matchingAlerts signal started finished alerts)

def firstMatchingAlert (alerts : List Event) (signal : Text) (started : DateTime)
    (finished : Option DateTime) : Except Error (Option Event) := do
  let found ← matchingAlerts signal started finished alerts
  return (found.argmin fun item => item.1.utc).map Prod.snd

/-! ## Scores -/

structure ExpectationResult where
  signal : Text
  technique : Text
  rule : Text
  detected : Bool
  mttdSeconds : Option ℚ

structure StepResult where
  id : Text
  name : Text
  technique : Option Text
  detected : Bool
  expectations : List ExpectationResult

structure Summary where
  expectationsTotal : ℕ
  expectationsDetected : ℕ
  detectionRatePct : ℚ
  meanMttdSeconds : Option ℚ
  maxMttdSeconds : Option ℚ

structure Results where
  plan : Text
  steps : List StepResult
  summary : Summary

/-- The counters of `evaluate`. -/
structure Tally where
  total : ℕ
  detected : ℕ
  mttds : List ℚ

def round (q : ℚ) (digits : ℕ) : ℚ := roundHalfEven (q * 10 ^ digits) / 10 ^ digits

def totalSeconds (started moment : ℤ) : ℚ := ((moment - started : ℤ) : ℚ) / 1000000

def scoreExpectation (alerts : List Event) (started finished : Option DateTime) (tally : Tally)
    (expectation : Expectation) : Except Error (ExpectationResult × Tally) :=
  let tally := { tally with total := tally.total + 1 }
  let missed : ExpectationResult :=
    ⟨expectation.signal, expectation.technique, expectation.rule, false, none⟩
  match started with
  | none => .ok (missed, tally)
  | some started => do
    match ← firstMatchingAlert alerts expectation.signal started finished with
    | none => return (missed, tally)
    | some alert =>
      let moment ← parseTimestamp (timestamp alert)
      let mttd := round (totalSeconds started.utc moment.utc) 3
      return ({ missed with detected := true, mttdSeconds := some mttd },
        { tally with detected := tally.detected + 1, mttds := tally.mttds ++ [mttd] })

def scoreExpectations (alerts : List Event) (started finished : Option DateTime) :
    List Expectation → Tally → Except Error (List ExpectationResult × Tally)
  | [], tally => .ok ([], tally)
  | expectation :: expectations, tally => do
    let (result, tally) ← scoreExpectation alerts started finished tally expectation
    let (results, tally) ← scoreExpectations alerts started finished expectations tally
    return (result :: results, tally)

def scoreSteps (observations : List (Text × Observation)) :
    List Step → Tally → Except Error (List StepResult × Tally)
  | [], tally => .ok ([], tally)
  | step :: steps, tally => do
    let observation := observationOf observations step.id
    let started ← parseGiven observation.startedAt
    let finished ← parseGiven observation.finishedAt
    let (results, tally) ←
      scoreExpectations observation.alerts started finished step.expectations tally
    let (others, tally) ← scoreSteps observations steps tally
    return (⟨step.id, step.name, step.technique, results.all (·.detected), results⟩ :: others, tally)

def Tally.summary (tally : Tally) : Summary where
  expectationsTotal := tally.total
  expectationsDetected := tally.detected
  detectionRatePct := if tally.total = 0 then 0 else round (100 * tally.detected / tally.total) 1
  meanMttdSeconds :=
    if tally.mttds = [] then none else some (round (tally.mttds.sum / tally.mttds.length) 3)
  maxMttdSeconds := tally.mttds.max?.map fun mttd => round mttd 3

def evaluate (plan : Plan) (observations : List (Text × Observation)) : Except Error Results := do
  let (steps, tally) ← scoreSteps observations plan.steps ⟨0, 0, []⟩
  return ⟨plan.name, steps, tally.summary⟩

/-! ## What an observation says of a signal -/

def momentOf (raw : PyValue) : Option DateTime :=
  if truthy raw then (parseTimestamp raw).toOption else none

def hit (signal : Text) (started : DateTime) (finished : Option DateTime) (alert : Event) :
    Option DateTime :=
  if isSignal signal alert then
    (momentOf (timestamp alert)).filter fun moment =>
      decide (started.utc ≤ moment.utc ∧ ∀ stop ∈ finished, moment.utc ≤ stop.utc)
  else none

/-- The earliest moment at which the signal was raised, and how long it took. -/
def delay (observation : Observation) (signal : Text) : Option ℚ :=
  (momentOf observation.startedAt).bind fun started =>
    ((observation.alerts.filterMap
      (hit signal started (momentOf observation.finishedAt))).map DateTime.utc).min?.map
        fun moment => round (totalSeconds started.utc moment) 3

def scored (observation : Observation) (expectation : Expectation) : ExpectationResult where
  signal := expectation.signal
  technique := expectation.technique
  rule := expectation.rule
  detected := (delay observation expectation.signal).isSome
  mttdSeconds := delay observation expectation.signal

def scoredStep (observations : List (Text × Observation)) (step : Step) : StepResult :=
  let results := step.expectations.map (scored (observationOf observations step.id))
  ⟨step.id, step.name, step.technique, results.all (·.detected), results⟩

def Tally.add (tally : Tally) (result : ExpectationResult) : Tally where
  total := tally.total + 1
  detected := tally.detected + result.detected.toNat
  mttds := tally.mttds ++ result.mttdSeconds.toList

/-- Every timestamp that is there can be read. -/
def Parseable (observation : Observation) : Prop :=
  ∀ raw ∈ observation.startedAt :: observation.finishedAt :: observation.alerts.map timestamp,
    truthy raw = true → ∃ moment, parseTimestamp raw = .ok moment

/-! ## The loops and what they compute -/

theorem toOption_eq_some_iff {ε α : Type} {x : Except ε α} {a : α} :
    x.toOption = some a ↔ x = .ok a := by
  cases x <;> simp [Except.toOption]

theorem momentOf_eq_some_iff {raw : PyValue} {moment : DateTime} :
    momentOf raw = some moment ↔ truthy raw = true ∧ parseTimestamp raw = .ok moment := by
  rw [momentOf]
  split
  · rename_i given
    rw [toOption_eq_some_iff, and_iff_right given]
  · rename_i absent
    exact iff_of_false (Option.some_ne_none moment).symm fun both => absent both.1

theorem parseGiven_ok {raw : PyValue}
    (parseable : truthy raw = true → ∃ moment, parseTimestamp raw = .ok moment) :
    parseGiven raw = .ok (momentOf raw) := by
  rw [parseGiven, momentOf]
  split
  · rename_i given
    obtain ⟨moment, parsed⟩ := parseable given
    rw [parsed]
    rfl
  · rfl

theorem matchingAlerts_ok {signal : Text} {started : DateTime} {finished : Option DateTime}
    {alerts : List Event}
    (parseable : ∀ alert ∈ alerts, truthy (timestamp alert) = true →
      ∃ moment, parseTimestamp (timestamp alert) = .ok moment) :
    matchingAlerts signal started finished alerts =
      .ok (alerts.filterMap fun alert =>
        (hit signal started finished alert).map fun moment => (moment, alert)) := by
  induction alerts with
  | nil => rfl
  | cons alert alerts ih =>
    obtain ⟨here, later⟩ := List.forall_mem_cons.mp parseable
    rw [matchingAlerts, ih later, List.filterMap_cons, hit]
    cases signalled : isSignal signal alert with
    | false => rfl
    | true =>
      cases given : truthy (timestamp alert) with
      | false =>
        rw [momentOf, given]
        rfl
      | true =>
        obtain ⟨moment, parsed⟩ := here given
        have read : momentOf (timestamp alert) = some moment :=
          momentOf_eq_some_iff.mpr ⟨given, parsed⟩
        rw [parsed, read]
        by_cases early : moment.utc < started.utc
        · have outside : ¬ (started.utc ≤ moment.utc ∧
              ∀ stop ∈ finished, moment.utc ≤ stop.utc) := fun both => by omega
          simp only [Bool.not_true, Bool.false_eq_true, if_false, bind, Except.bind, if_pos early,
            Option.filter_some, decide_eq_false outside]
          rfl
        · have late_iff : (finished.any fun stop => stop.utc < moment.utc) = true ↔
              ¬ ∀ stop ∈ finished, moment.utc ≤ stop.utc := by
            cases finished with
            | none => simp
            | some stop => simp
          by_cases late : (finished.any fun stop => stop.utc < moment.utc) = true
          · have outside : ¬ (started.utc ≤ moment.utc ∧
                ∀ stop ∈ finished, moment.utc ≤ stop.utc) := fun both => late_iff.mp late both.2
            simp only [Bool.not_true, Bool.false_eq_true, if_false, bind, Except.bind,
              if_neg early, if_pos late, Option.filter_some, decide_eq_false outside]
            rfl
          · have inside : started.utc ≤ moment.utc ∧ ∀ stop ∈ finished, moment.utc ≤ stop.utc :=
              ⟨not_lt.mp early, not_not.mp (mt late_iff.mpr late)⟩
            simp only [Bool.not_true, Bool.false_eq_true, if_false, bind, Except.bind,
              if_neg early, if_neg late, Option.filter_some, decide_eq_true inside]
            rfl

theorem hit_eq_some_iff {signal : Text} {started : DateTime} {finished : Option DateTime}
    {alert : Event} {moment : DateTime} :
    hit signal started finished alert = some moment ↔
      isSignal signal alert = true ∧ momentOf (timestamp alert) = some moment ∧
        started.utc ≤ moment.utc ∧ ∀ stop ∈ finished, moment.utc ≤ stop.utc := by
  rw [hit]
  split
  · rename_i signalled
    rw [Option.filter_eq_some_iff, decide_eq_true_iff, and_iff_right signalled]
  · rename_i other
    exact iff_of_false (Option.some_ne_none moment).symm fun all => other all.1

theorem map_argmin {α : Type} (value : α → ℤ) (items : List α) :
    (items.argmin value).map value = (items.map value).min? := by
  cases least : items.argmin value with
  | none =>
    rw [List.argmin_eq_none.mp least]
    rfl
  | some item =>
    symm
    rw [Option.map_some, List.min?_eq_some_iff, List.forall_mem_map]
    exact ⟨List.mem_map_of_mem (List.argmin_mem least), fun other mem =>
      List.le_of_mem_argmin mem least⟩

theorem map_fst_pairs (found : Event → Option DateTime) (alerts : List Event) :
    (alerts.filterMap fun alert => (found alert).map fun moment => (moment, alert)).map Prod.fst =
      alerts.filterMap found := by
  rw [List.map_filterMap]
  congr 1
  funext alert
  cases found alert <;> rfl

theorem firstMatchingAlert_ok {signal : Text} {started : DateTime} {finished : Option DateTime}
    {alerts : List Event}
    (parseable : ∀ alert ∈ alerts, truthy (timestamp alert) = true →
      ∃ moment, parseTimestamp (timestamp alert) = .ok moment) :
    ∃ found : Option (DateTime × Event),
      firstMatchingAlert alerts signal started finished = .ok (found.map Prod.snd) ∧
      found.map (fun item => item.1.utc) =
        ((alerts.filterMap (hit signal started finished)).map DateTime.utc).min? ∧
      ∀ item ∈ found, parseTimestamp (timestamp item.2) = .ok item.1 := by
  refine ⟨(alerts.filterMap fun alert =>
    (hit signal started finished alert).map fun moment => (moment, alert)).argmin
      fun item => item.1.utc, ?_, ?_, ?_⟩
  · rw [firstMatchingAlert, matchingAlerts_ok parseable]
    rfl
  · rw [map_argmin, ← map_fst_pairs (hit signal started finished), List.map_map]
    rfl
  · intro item least
    obtain ⟨alert, -, found⟩ := List.mem_filterMap.mp (List.argmin_mem least)
    obtain ⟨moment, here, rfl⟩ := Option.map_eq_some_iff.mp found
    exact (momentOf_eq_some_iff.mp (hit_eq_some_iff.mp here).2.1).2

theorem Parseable.alerts {observation : Observation} (parseable : Parseable observation) :
    ∀ alert ∈ observation.alerts, truthy (timestamp alert) = true →
      ∃ moment, parseTimestamp (timestamp alert) = .ok moment := fun _ mem =>
  parseable _ (List.mem_cons_of_mem _ (List.mem_cons_of_mem _ (List.mem_map_of_mem mem)))

section Loops

variable {observation : Observation}

theorem scoreExpectation_ok (parseable : Parseable observation) (tally : Tally)
    (expectation : Expectation) :
    scoreExpectation observation.alerts (momentOf observation.startedAt)
        (momentOf observation.finishedAt) tally expectation =
      .ok (scored observation expectation, tally.add (scored observation expectation)) := by
  cases start : momentOf observation.startedAt with
  | none =>
    have none : delay observation expectation.signal = none := by
      rw [delay, start]
      rfl
    simp only [scoreExpectation, scored, Tally.add, none, Option.isSome_none, Bool.toNat_false,
      Nat.add_zero, Option.toList_none, List.append_nil]
  | some started =>
    obtain ⟨found, first, least, read⟩ := @firstMatchingAlert_ok expectation.signal started
      (momentOf observation.finishedAt) observation.alerts parseable.alerts
    have value : delay observation expectation.signal =
        found.map fun item => round (totalSeconds started.utc item.1.utc) 3 := by
      rw [delay, start, Option.bind_some, ← least, Option.map_map]
      rfl
    simp only [scoreExpectation, first, scored, Tally.add, value, bind, Except.bind]
    cases found with
    | none =>
      simp only [Option.map_none, Option.isSome_none, Bool.toNat_false, Nat.add_zero,
        Option.toList_none, List.append_nil]
      rfl
    | some item =>
      simp only [Option.map_some, read item rfl, Option.isSome_some, Bool.toNat_true,
        Option.toList_some]
      rfl

theorem scoreExpectations_ok (parseable : Parseable observation) (tally : Tally)
    (expectations : List Expectation) :
    scoreExpectations observation.alerts (momentOf observation.startedAt)
        (momentOf observation.finishedAt) expectations tally =
      .ok (expectations.map (scored observation),
        (expectations.map (scored observation)).foldl Tally.add tally) := by
  induction expectations generalizing tally with
  | nil => rfl
  | cons expectation expectations ih =>
    rw [scoreExpectations, scoreExpectation_ok parseable]
    simp only [bind, Except.bind, ih]
    rfl

end Loops

section Steps

variable {observations : List (Text × Observation)}

theorem scoreSteps_ok {steps : List Step} (tally : Tally)
    (parseable : ∀ step ∈ steps, Parseable (observationOf observations step.id)) :
    scoreSteps observations steps tally =
      .ok (steps.map (scoredStep observations),
        ((steps.map (scoredStep observations)).flatMap StepResult.expectations).foldl Tally.add
          tally) := by
  induction steps generalizing tally with
  | nil => rfl
  | cons step steps ih =>
    obtain ⟨here, later⟩ := List.forall_mem_cons.mp parseable
    have started := parseGiven_ok (here _ List.mem_cons_self)
    have finished := parseGiven_ok (here _ (List.mem_cons_of_mem _ List.mem_cons_self))
    simp only [scoreSteps, started, finished, scoreExpectations_ok here, ih _ later, bind,
      Except.bind, List.map_cons, List.flatMap_cons, List.foldl_append]
    rfl

def resultsOf (plan : Plan) (observations : List (Text × Observation)) : Results :=
  let steps := plan.steps.map (scoredStep observations)
  ⟨plan.name, steps, ((steps.flatMap StepResult.expectations).foldl Tally.add ⟨0, 0, []⟩).summary⟩

theorem evaluate_ok {plan : Plan}
    (parseable : ∀ step ∈ plan.steps, Parseable (observationOf observations step.id)) :
    evaluate plan observations = .ok (resultsOf plan observations) := by
  rw [evaluate, scoreSteps_ok _ parseable]
  rfl

end Steps

/-! ## What is scored -/

/-- An alert of the type with a moment in the window of a step that was started. -/
structure Detects (observation : Observation) (signal : Text) (started moment : DateTime) :
    Prop where
  start : momentOf observation.startedAt = some started
  alert : ∃ alert ∈ observation.alerts,
    isSignal signal alert = true ∧ momentOf (timestamp alert) = some moment
  reached : started.utc ≤ moment.utc
  finished : ∀ stop ∈ momentOf observation.finishedAt, moment.utc ≤ stop.utc

/-- The result of an expectation: detected by some alert, with the delay of the earliest. -/
structure Scores (observation : Observation) (expectation : Expectation)
    (result : ExpectationResult) : Prop where
  signal : result.signal = expectation.signal
  technique : result.technique = expectation.technique
  rule : result.rule = expectation.rule
  detected : result.detected = true ↔
    ∃ started moment, Detects observation expectation.signal started moment
  mttd : result.detected = true → ∃ started moment,
    Detects observation expectation.signal started moment ∧
      (∀ other, Detects observation expectation.signal started other → moment.utc ≤ other.utc) ∧
      result.mttdSeconds = some (round (totalSeconds started.utc moment.utc) 3)
  missed : result.detected = false → result.mttdSeconds = none
  nonneg : ∀ mttd ∈ result.mttdSeconds, 0 ≤ mttd

structure ScoresStep (observation : Observation) (step : Step) (result : StepResult) : Prop where
  id : result.id = step.id
  name : result.name = step.name
  technique : result.technique = step.technique
  expectations : List.Forall₂ (Scores observation) step.expectations result.expectations
  detected : result.detected = true ↔
    ∀ expectation ∈ result.expectations, expectation.detected = true

theorem round_mono {p q : ℚ} (h : p ≤ q) (digits : ℕ) : round p digits ≤ round q digits := by
  have scale : (0 : ℚ) < 10 ^ digits := by positivity
  have rounded := NumberText.roundHalfEven_mono (mul_le_mul_of_nonneg_right h scale.le)
  exact div_le_div_of_nonneg_right (by exact_mod_cast rounded) scale.le

theorem round_nonneg {q : ℚ} (h : 0 ≤ q) (digits : ℕ) : 0 ≤ round q digits := by
  have zero : round 0 digits = 0 := by simp [round, roundHalfEven]
  exact zero.symm.le.trans (round_mono h digits)

theorem totalSeconds_mono {started a b : ℤ} (h : a ≤ b) :
    totalSeconds started a ≤ totalSeconds started b := by
  have later : a - started ≤ b - started := by omega
  exact div_le_div_of_nonneg_right (by exact_mod_cast later) (by norm_num)

theorem mem_hits_iff {observation : Observation} {signal : Text} {started moment : DateTime}
    (start : momentOf observation.startedAt = some started) :
    moment ∈ observation.alerts.filterMap
        (hit signal started (momentOf observation.finishedAt)) ↔
      Detects observation signal started moment := by
  rw [List.mem_filterMap]
  constructor
  · rintro ⟨alert, mem, here⟩
    obtain ⟨signalled, read, reached, finished⟩ := hit_eq_some_iff.mp here
    exact ⟨start, ⟨alert, mem, signalled, read⟩, reached, finished⟩
  · rintro ⟨-, ⟨alert, mem, signalled, read⟩, reached, finished⟩
    exact ⟨alert, mem, hit_eq_some_iff.mpr ⟨signalled, read, reached, finished⟩⟩

theorem delay_eq_some_iff {observation : Observation} {signal : Text} {mttd : ℚ} :
    delay observation signal = some mttd ↔ ∃ started moment,
      Detects observation signal started moment ∧
        (∀ other, Detects observation signal started other → moment.utc ≤ other.utc) ∧
        round (totalSeconds started.utc moment.utc) 3 = mttd := by
  rw [delay, Option.bind_eq_some_iff]
  refine exists_congr fun started => ?_
  rw [Option.map_eq_some_iff]
  constructor
  · rintro ⟨start, utc, least, rfl⟩
    rw [List.min?_eq_some_iff, List.forall_mem_map] at least
    obtain ⟨mem, below⟩ := least
    obtain ⟨moment, found, rfl⟩ := List.mem_map.mp mem
    exact ⟨moment, (mem_hits_iff start).mp found,
      fun other detects => below other ((mem_hits_iff start).mpr detects), rfl⟩
  · rintro ⟨moment, detects, below, rfl⟩
    have start := detects.start
    refine ⟨start, moment.utc, ?_, rfl⟩
    rw [List.min?_eq_some_iff, List.forall_mem_map]
    exact ⟨List.mem_map_of_mem ((mem_hits_iff start).mpr detects),
      fun other found => below other ((mem_hits_iff start).mp found)⟩

theorem delay_isSome_iff {observation : Observation} {signal : Text} :
    (delay observation signal).isSome = true ↔
      ∃ started moment, Detects observation signal started moment := by
  constructor
  · intro detected
    obtain ⟨mttd, found⟩ := Option.isSome_iff_exists.mp detected
    obtain ⟨started, moment, detects, -⟩ := delay_eq_some_iff.mp found
    exact ⟨started, moment, detects⟩
  · rintro ⟨started, moment, detects⟩
    by_contra missed
    have start := detects.start
    rw [Bool.not_eq_true, Option.isSome_eq_false_iff, Option.isNone_iff_eq_none, delay, start,
      Option.bind_some, Option.map_eq_none_iff, List.min?_eq_none_iff, List.map_eq_nil_iff] at missed
    have found := (mem_hits_iff start).mpr detects
    rw [missed] at found
    cases found

theorem scores_scored (observation : Observation) (expectation : Expectation) :
    Scores observation expectation (scored observation expectation) := by
  refine ⟨rfl, rfl, rfl, delay_isSome_iff, fun detected => ?_, fun missed => ?_, fun mttd given => ?_⟩
  · obtain ⟨mttd, found⟩ := Option.isSome_iff_exists.mp detected
    obtain ⟨started, moment, detects, least, rfl⟩ := delay_eq_some_iff.mp found
    exact ⟨started, moment, detects, least, found⟩
  · exact Option.isNone_iff_eq_none.mp (Option.isSome_eq_false_iff.mp missed)
  · obtain ⟨started, moment, detects, -, rfl⟩ := delay_eq_some_iff.mp given
    have zero : totalSeconds started.utc started.utc = 0 := by simp [totalSeconds]
    exact round_nonneg (zero.symm.le.trans (totalSeconds_mono detects.reached)) 3

theorem scoresStep_scoredStep (observations : List (Text × Observation)) (step : Step) :
    ScoresStep (observationOf observations step.id) step (scoredStep observations step) := by
  refine ⟨rfl, rfl, rfl, ?_, List.all_eq_true⟩
  rw [scoredStep, List.forall₂_map_right_iff, List.forall₂_same]
  exact fun expectation _ => scores_scored _ expectation

/-! ## Other alerts -/

/-- The same window with more alerts, in any order. -/
structure Extends (observation more : Observation) : Prop where
  startedAt : more.startedAt = observation.startedAt
  finishedAt : more.finishedAt = observation.finishedAt
  alerts : observation.alerts ⊆ more.alerts

/-- The same window with the alerts in another order. -/
structure Permuted (observation other : Observation) : Prop where
  startedAt : other.startedAt = observation.startedAt
  finishedAt : other.finishedAt = observation.finishedAt
  alerts : observation.alerts.Perm other.alerts

/-- A detection stays one, and none takes longer. -/
structure Improves (result better : ExpectationResult) : Prop where
  detected : result.detected = true → better.detected = true
  mttd : ∀ mttd ∈ result.mttdSeconds, ∃ sooner ∈ better.mttdSeconds, sooner ≤ mttd

theorem Detects.extends {observation more : Observation} (added : Extends observation more)
    {signal : Text} {started moment : DateTime}
    (detects : Detects observation signal started moment) :
    Detects more signal started moment := by
  obtain ⟨start, ⟨alert, mem, raised⟩, reached, finished⟩ := detects
  refine ⟨added.startedAt ▸ start, ⟨alert, added.alerts mem, raised⟩, reached, ?_⟩
  rwa [added.finishedAt]

theorem improves_scored {observation more : Observation} (added : Extends observation more)
    (expectation : Expectation) :
    Improves (scored observation expectation) (scored more expectation) := by
  constructor
  · intro detected
    obtain ⟨started, moment, detects⟩ := delay_isSome_iff.mp detected
    exact delay_isSome_iff.mpr ⟨started, moment, detects.extends added⟩
  · intro mttd given
    obtain ⟨started, moment, detects, -, rfl⟩ := delay_eq_some_iff.mp given
    have there := detects.extends added
    obtain ⟨sooner, found⟩ := Option.isSome_iff_exists.mp
      (delay_isSome_iff.mpr ⟨started, moment, there⟩)
    refine ⟨sooner, found, ?_⟩
    obtain ⟨started', moment', detects', least, rfl⟩ := delay_eq_some_iff.mp found
    obtain rfl := Option.some.inj (there.start.symm.trans detects'.start)
    exact round_mono (totalSeconds_mono (least moment there)) 3

theorem scored_permuted {observation other : Observation} (permuted : Permuted observation other)
    (expectation : Expectation) : scored other expectation = scored observation expectation := by
  have forward : Extends observation other :=
    ⟨permuted.startedAt, permuted.finishedAt, permuted.alerts.subset⟩
  have back : Extends other observation :=
    ⟨permuted.startedAt.symm, permuted.finishedAt.symm, permuted.alerts.symm.subset⟩
  have detects (started moment : DateTime) : Detects other expectation.signal started moment ↔
      Detects observation expectation.signal started moment :=
    ⟨fun there => there.extends back, fun here => here.extends forward⟩
  have same : delay other expectation.signal = delay observation expectation.signal := by
    ext mttd
    simp only [delay_eq_some_iff, detects]
  rw [scored, scored, same]

theorem Permuted.parseable {observation other : Observation} (permuted : Permuted observation other)
    (parseable : Parseable observation) : Parseable other := by
  unfold Parseable at *
  simp only [List.forall_mem_cons, List.forall_mem_map, permuted.startedAt,
    permuted.finishedAt] at *
  exact ⟨parseable.1, parseable.2.1, fun alert mem =>
    parseable.2.2 alert (permuted.alerts.mem_iff.mpr mem)⟩

/-! ## The counters -/

theorem foldl_add (tally : Tally) (results : List ExpectationResult) :
    (results.foldl Tally.add tally).total = tally.total + results.length ∧
      (results.foldl Tally.add tally).detected = tally.detected + results.countP (·.detected) := by
  induction results generalizing tally with
  | nil => exact ⟨rfl, rfl⟩
  | cons result results ih =>
    obtain ⟨total, detected⟩ := ih (tally.add result)
    rw [List.foldl_cons, total, detected, List.length_cons, List.countP_cons]
    cases found : result.detected <;> simp only [Tally.add, found, Bool.toNat] <;> simp <;> omega

theorem summary_resultsOf (plan : Plan) (observations : List (Text × Observation)) :
    (resultsOf plan observations).summary.expectationsTotal =
        ((resultsOf plan observations).steps.map fun step => step.expectations.length).sum ∧
      (resultsOf plan observations).summary.expectationsDetected =
        ((resultsOf plan observations).steps.map fun step =>
          step.expectations.countP (·.detected)).sum := by
  obtain ⟨total, detected⟩ := foldl_add ⟨0, 0, []⟩
    ((plan.steps.map (scoredStep observations)).flatMap StepResult.expectations)
  rw [List.length_flatMap, Nat.zero_add] at total
  rw [List.countP_flatMap, Nat.zero_add] at detected
  exact ⟨total, detected⟩

/-- Scores are exact, the order of alerts does not matter and more alerts only help. -/
theorem evaluate_exact {plan : Plan} {observations : List (Text × Observation)}
    (parseable : ∀ step ∈ plan.steps, Parseable (observationOf observations step.id)) :
    ∃ results, evaluate plan observations = .ok results ∧
      List.Forall₂ (fun step => ScoresStep (observationOf observations step.id) step)
        plan.steps results.steps ∧
      results.summary.expectationsTotal =
        (results.steps.map fun step => step.expectations.length).sum ∧
      results.summary.expectationsDetected =
        (results.steps.map fun step => step.expectations.countP (·.detected)).sum ∧
      (∀ others, (∀ step ∈ plan.steps,
          Permuted (observationOf observations step.id) (observationOf others step.id)) →
        evaluate plan others = .ok results) ∧
      ∀ others, (∀ step ∈ plan.steps,
          Extends (observationOf observations step.id) (observationOf others step.id) ∧
            Parseable (observationOf others step.id)) →
        ∃ better, evaluate plan others = .ok better ∧
          List.Forall₂ (fun step step' => List.Forall₂ Improves step.expectations step'.expectations)
            results.steps better.steps := by
  obtain ⟨total, detected⟩ := summary_resultsOf plan observations
  refine ⟨resultsOf plan observations, evaluate_ok parseable, ?_, total, detected, ?_, ?_⟩
  · rw [resultsOf, List.forall₂_map_right_iff, List.forall₂_same]
    exact fun step _ => scoresStep_scoredStep observations step
  · intro others permuted
    have steps : plan.steps.map (scoredStep others) = plan.steps.map (scoredStep observations) := by
      apply List.map_congr_left
      intro step mem
      have results := List.map_congr_left (l := step.expectations)
        fun expectation _ => scored_permuted (permuted step mem) expectation
      rw [scoredStep, scoredStep, results]
    rw [evaluate_ok fun step mem => (permuted step mem).parseable (parseable step mem), resultsOf,
      resultsOf, steps]
  · intro others added
    refine ⟨resultsOf plan others, evaluate_ok fun step mem => (added step mem).2, ?_⟩
    rw [resultsOf, resultsOf, List.forall₂_map_left_iff, List.forall₂_map_right_iff,
      List.forall₂_same]
    intro step mem
    rw [scoredStep, scoredStep, List.forall₂_map_left_iff, List.forall₂_map_right_iff,
      List.forall₂_same]
    exact fun expectation _ => improves_scored (added step mem).1 expectation

/-! A write that is expected within a minute, and two alerts of it with and without an offset. -/

def writeAlert (timestamp : String) : Event :=
  [(codes "alert_type", .str (codes "UNAUTHORIZED_MODBUS_WRITE")),
    (codes "timestamp", .str (codes timestamp))]

def writePlan : Plan :=
  ⟨codes "write", [⟨codes "pivot", codes "Pivot and write", none,
    [⟨codes "UNAUTHORIZED_MODBUS_WRITE", codes "T0855", codes "rules/sigma/modbus_write.yml"⟩]⟩]⟩

def recorded : List (Text × Observation) :=
  [(codes "pivot", ⟨.str (codes "2026-09-13T02:14:00+00:00"), .none,
    [writeAlert "2026-09-13T04:14:07+0200", writeAlert "2026-09-13T02:14:05.5"]⟩)]

theorem evaluate_exact_recorded :
    ∃ results, evaluate writePlan recorded = .ok results ∧
      results.summary.expectationsDetected =
        (results.steps.map fun step => step.expectations.countP (·.detected)).sum := by
  have parseable : ∀ step ∈ writePlan.steps, Parseable (observationOf recorded step.id) := by
    simp only [writePlan, List.forall_mem_cons, List.not_mem_nil, false_imp_iff, implies_true,
      and_true]
    intro raw mem given
    have observed : raw ∈ [.str (codes "2026-09-13T02:14:00+00:00"), .none,
      .str (codes "2026-09-13T04:14:07+0200"), .str (codes "2026-09-13T02:14:05.5")] := mem
    simp only [List.mem_cons, List.not_mem_nil, or_false] at observed
    rcases observed with rfl | rfl | rfl | rfl
    · exact ⟨_, rfl⟩
    · cases given
    · exact ⟨_, rfl⟩
    · exact ⟨_, rfl⟩
  obtain ⟨results, returns, -, -, detected, -⟩ := evaluate_exact parseable
  exact ⟨results, returns, detected⟩

end OtDetection.EmulationScore
