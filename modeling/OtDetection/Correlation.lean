import OtDetection.FieldLookup
import OtDetection.SlidingWindow
import Mathlib.Data.List.Sort

/-! Correlation rules over a list of events. The evaluator tries the windows that
start at a matched event; what it makes of the events, and when it raises, is
followed error by error. Single rules and `fromisoformat` stay parameters. -/

namespace OtDetection.Correlation
open PyText FieldLookup SlidingWindow

/-! ## Datetimes -/

def wallEnd : ℤ := 3652059 * 86400000000

/-- Microseconds on the wall clock since the first of January of the year 1, and the
offset from UTC unless the datetime is naive. -/
structure DateTime where
  wall : ℤ
  offset : Option ℤ
  in_range : 0 ≤ wall ∧ wall < wallEnd
  deriving DecidableEq

namespace DateTime

def isAware (moment : DateTime) : Bool := moment.offset.isSome

def utc (moment : DateTime) : ℤ := moment.wall - moment.offset.getD 0

def add? (moment : DateTime) (span : ℤ) : Option DateTime :=
  if h : 0 ≤ moment.wall + span ∧ moment.wall + span < wallEnd then
    some ⟨moment.wall + span, moment.offset, h⟩
  else none

end DateTime

/-! ## Rules -/

inductive CorrelationType
  | eventCount
  | valueCount
  | other (name : Text)
  deriving DecidableEq

inductive ConditionOperator
  | lt
  | lte
  | gt
  | gte
  | eq
  | neq
  deriving DecidableEq

def ConditionOperator.compare : ConditionOperator → ℤ → ℤ → Bool
  | lt, count, threshold => count < threshold
  | lte, count, threshold => count ≤ threshold
  | gt, count, threshold => count > threshold
  | gte, count, threshold => count ≥ threshold
  | eq, count, threshold => count = threshold
  | neq, count, threshold => count ≠ threshold

structure Condition where
  op : ConditionOperator
  count : ℤ
  fieldref : Option Text

/-- A correlation rule over single rules of any kind; a reference is `none` until it
is resolved, a timespan is in seconds. -/
structure CorrelationRule (Rule : Type) where
  title : Text
  type : CorrelationType
  referencedRules : List (Option Rule)
  condition : Option Condition
  groupBy : Option (List Text)
  timespan : Option ℤ

/-- What ends an evaluation: the evaluator's own error with its text, one of the
interpreter, or one that a single rule raised. -/
inductive Error (ε : Type)
  | unsupportedCorrelation (message : Text)
  | typeError
  | overflowError
  | raised (error : ε)
  deriving DecidableEq

/-! ## Evaluation -/

section Evaluate

variable {Rule ε : Type}

def anyMatch (matchRule : Rule → Event → Except ε Bool) (event : Event) :
    List Rule → Except ε Bool
  | [] => .ok false
  | rule :: rules => do
    if ← matchRule rule event then return true else anyMatch matchRule event rules

def replaceZ (text : Text) : Text :=
  text.flatMap fun c => if c = 0x5A then codes "+00:00" else [c]

def eventTime (isPrintable : ℕ → Bool) (fromisoformat : Text → Option DateTime) (title : Text)
    (event : Event) : Except (Error ε) DateTime :=
  let timestamp := (event.lookup (codes "timestamp")).getD .none
  if !truthy timestamp then
    .error (.unsupportedCorrelation (codes "correlation rule '" ++ title ++ codes
      "' is evaluated over a window, so every event needs a timestamp"))
  else
    match fromisoformat (replaceZ (pyStr isPrintable timestamp)) with
    | some moment => .ok moment
    | none => .error (.unsupportedCorrelation
        (codes "unparsable event timestamp: " ++ pyStr isPrintable timestamp))

def timedelta (seconds : ℤ) : Except (Error ε) ℤ :=
  if -86399999913600 ≤ seconds ∧ seconds ≤ 86399999999999 then .ok (seconds * 1000000)
  else .error .overflowError

def distinctMoments (moments : List DateTime) : List DateTime :=
  moments.foldl
    (fun set moment => if ∃ other ∈ set, other.utc = moment.utc then set else set ++ [moment]) []

def sortedMoments (moments : List DateTime) : Except (Error ε) (List DateTime) :=
  if (∃ a ∈ moments, a.isAware) ∧ ∃ a ∈ moments, ¬ a.isAware then .error .typeError
  else .ok ((distinctMoments moments).insertionSort fun a b => a.utc ≤ b.utc)

/-- `start <= moment < start + span`; the sum is only made once the first comparison
holds. -/
def inSpan (start : DateTime) (span : ℤ) (moment : DateTime) : Except (Error ε) Bool :=
  if start.utc ≤ moment.utc then
    match start.add? span with
    | some stop => .ok (decide (moment.utc < stop.utc))
    | none => .error .overflowError
  else .ok false

def asKey (value : PyValue) : Except (Error ε) HashKey :=
  match hashKey value with
  | some key => .ok key
  | none => .error .typeError

def groupKey (groups : List Text) (event : Event) : Except (Error ε) (List HashKey) :=
  groups.mapM fun group => asKey (lookupField event group)

def countSpan {σ : Type} (fresh : σ) (change : Event → Except (Error ε) (σ → σ))
    (groups : List Text) (start : DateTime) (span : ℤ) :
    List (DateTime × Event) → (AList fun _ : List HashKey => σ) →
      Except (Error ε) (AList fun _ : List HashKey => σ)
  | [], counted => .ok counted
  | (moment, event) :: matched, counted => do
    if ← inSpan start span moment then
      let key ← groupKey groups event
      let changed ← change event
      countSpan fresh change groups start span matched (bump fresh counted (key, changed))
    else countSpan fresh change groups start span matched counted

def addValue (field : Text) (event : Event) :
    Except (Error ε) (List HashKey → List HashKey) := do
  let value ← asKey (lookupField event field)
  return fun values => values.insert value

def spanMeets (condition : Condition) (type : CorrelationType) (groups : List Text)
    (matched : List (DateTime × Event)) (span : ℤ) (start : DateTime) :
    Except (Error ε) Bool :=
  if type = .valueCount then do
    let distinct ← countSpan [] (addValue (condition.fieldref.getD [])) groups start span matched ∅
    return distinct.entries.any fun entry => condition.op.compare entry.2.length condition.count
  else do
    let counts ← countSpan 0 (fun _ => .ok (· + 1)) groups start span matched ∅
    return counts.entries.any fun entry => condition.op.compare (entry.2 : ℕ) condition.count

def scanStarts (meets : DateTime → Except (Error ε) Bool) :
    List DateTime → Except (Error ε) Bool
  | [] => .ok false
  | start :: starts => do if ← meets start then return true else scanStarts meets starts

variable (matchRule : Rule → Event → Except ε Bool) (isPrintable : ℕ → Bool)
  (fromisoformat : Text → Option DateTime)

def matchedEvents (title : Text) (rules : List Rule) :
    List Event → Except (Error ε) (List (DateTime × Event))
  | [] => .ok []
  | event :: events => do
    if ← (anyMatch matchRule event rules).mapError .raised then
      let moment ← eventTime isPrintable fromisoformat title event
      return (moment, event) :: (← matchedEvents title rules events)
    else matchedEvents title rules events

def matchCorrelation (rule : CorrelationRule Rule) (events : List Event) :
    Except (Error ε) Bool :=
  match rule.type with
  | .other name => .error (.unsupportedCorrelation (codes "correlation type '" ++ name ++ codes
      "' is not implemented; only value_count and event_count are supported"))
  | type =>
    if rule.referencedRules = [] ∨ rule.referencedRules.any Option.isNone then
      .error (.unsupportedCorrelation (codes "correlation rule '" ++ rule.title ++
        codes "' has unresolved rule references"))
    else match rule.condition with
    | none => .error (.unsupportedCorrelation (codes "correlation rule '" ++ rule.title ++
        codes "' has no supported condition"))
    | some condition =>
      if type = .valueCount ∧ condition.fieldref.getD [] = [] then
        .error (.unsupportedCorrelation (codes "value_count correlation '" ++ rule.title ++
          codes "' has no field reference to count"))
      else match rule.timespan with
      | none => .error (.unsupportedCorrelation (codes "correlation rule '" ++ rule.title ++ codes
          ("' has no timespan; a count without a window is not a correlation this harness " ++
            "can evaluate")))
      | some window => do
        let matched ← matchedEvents matchRule isPrintable fromisoformat rule.title
          (rule.referencedRules.filterMap id) events
        if matched = [] then return false
        let span ← timedelta window
        let starts ← sortedMoments (matched.map Prod.fst)
        scanStarts (spanMeets condition type (rule.groupBy.getD []) matched span) starts

end Evaluate

end OtDetection.Correlation
