import OtDetection.EmulationScore
import OtDetection.LabelBuckets
import OtDetection.RuleFamilies

/-! The held-out evaluation of the Sigma rules. Labels are put into buckets by the path of the
rule that they name, and each discovered rule takes its own bucket. -/

namespace OtDetection.HeldoutMetrics
open PyText FieldLookup ExceptSteps LabelBuckets
open RuleFamilies (Environment Tree rulePaths readText isCorrelationRule Yaml)

/-! ## Rules and labels -/

structure SigmaRule (Event : Type) where
  title : Text
  fires : Event → Bool

structure SigmaCorrelationRule (Event : Type) where
  title : Text
  fires : List Event → Bool

inductive Rule (Event : Type)
  | single (rule : SigmaRule Event)
  | correlation (rule : SigmaCorrelationRule Event)

structure Positive (Event : Type) where
  rule : Text
  name : Text
  event : Event

structure Window (Event : Type) where
  rule : Text
  name : Text
  expectMatch : Bool
  events : List Event

/-- `resolved_rules()` by the texts of the paths, and what the libraries compute. -/
structure Library (Event : Type) where
  resolved : AList fun _ : Text => Rule Event
  fromYaml : List Char → Except RuleFamilies.Error (SigmaRule Event)
  roundedInterval : ℕ → ℕ → ℚ × ℚ

/-- An error of a rule has the path of the rule. -/
inductive Error
  | unreadable (error : RuleFamilies.Error)
  | notLoaded (rule : Text) (error : RuleFamilies.Error)
  | typeError (rule message : Text)

def Error.rule : Error → Option Text
  | unreadable _ => none
  | notLoaded rule _ | typeError rule _ => some rule

/-! ## Discovery -/

variable (env : Environment) (tree : Tree)

/-- The Sigma files, and whether each is a correlation rule. -/
def classified : Except RuleFamilies.Error (List (Text × Bool)) :=
  (rulePaths tree .sigma).mapM fun path =>
    (isCorrelationRule env (readText tree path)).map (path, ·)

def rulePathsOf (correlation : Bool) : Except RuleFamilies.Error (List Text) :=
  (classified env tree).map fun paths =>
    (paths.filter fun path => path.2 = correlation).map Prod.fst

def correlationRulePaths : Except RuleFamilies.Error (List Text) := rulePathsOf env tree true

def singleEventRulePaths : Except RuleFamilies.Error (List Text) := rulePathsOf env tree false

/-- `str(rule_path)`. -/
def absolute (relative : Text) : Text := env.root ++ (codes "/" ++ relative)

/-! ## Figures -/

structure Counts where
  tp : ℕ
  fn : ℕ
  fp : ℕ
  tn : ℕ
  precision : Option ℚ
  precisionCi95 : Option (ℚ × ℚ)
  recallRate : Option ℚ
  recallCi95 : Option (ℚ × ℚ)
  falsePositiveRate : Option ℚ
  falsePositiveRateCi95 : Option (ℚ × ℚ)

structure RuleRow where
  rule : Text
  title : Text
  positives : ℕ
  negatives : ℕ
  counts : Counts

structure Section where
  rulesTotal : ℕ
  positivesTotal : ℕ
  negativesTotal : ℕ
  perRule : List RuleRow
  aggregate : Counts

def ratio (numerator denominator : ℕ) : Option ℚ :=
  if denominator = 0 then none
  else some (EmulationScore.round (nearestDouble (numerator / denominator)) 4)

section Metrics

variable {Event : Type} (library : Library Event)

def interval (successes trials : ℕ) : Option (ℚ × ℚ) :=
  if trials ≠ 0 then some (library.roundedInterval successes trials) else none

def countsOf (tp fn fp tn : ℕ) : Counts where
  tp := tp
  fn := fn
  fp := fp
  tn := tn
  precision := ratio tp (tp + fp)
  precisionCi95 := interval library tp (tp + fp)
  recallRate := ratio tp (tp + fn)
  recallCi95 := interval library tp (tp + fn)
  falsePositiveRate := ratio fp (fp + tn)
  falsePositiveRateCi95 := interval library fp (fp + tn)

def aggregate (rows : List RuleRow) : Counts :=
  countsOf library (rows.map fun row => row.counts.tp).sum (rows.map fun row => row.counts.fn).sum
    (rows.map fun row => row.counts.fp).sum (rows.map fun row => row.counts.tn).sum

/-! ## Single-event rules -/

def singleEventRule (relative : Text) : Except Error (SigmaRule Event) :=
  match library.resolved.lookup (absolute env relative) with
  | some (.single rule) => .ok rule
  | _ => (library.fromYaml (readText tree relative)).mapError (.notLoaded relative)

def singleEventRow (byRule : List (Text × List (Positive Event))) (negatives : List Event)
    (relative : Text) : Except Error RuleRow :=
  (singleEventRule env tree library relative).map fun rule =>
    let rulePositives := bucket byRule relative
    let tp := rulePositives.countP fun positive => rule.fires positive.event
    let fn := rulePositives.length - tp
    let fp := negatives.countP rule.fires
    let tn := negatives.length - fp
    ⟨relative, rule.title, rulePositives.length, negatives.length, countsOf library tp fn fp tn⟩

def singleEventMetrics (positives : List (Positive Event)) (negatives : List Event) :
    Except Error Section := do
  let byRule := bucketsBy Positive.rule positives
  let paths ← (singleEventRulePaths env tree).mapError .unreadable
  let rows ← paths.mapM (singleEventRow env tree library byRule negatives)
  return ⟨rows.length, positives.length, negatives.length, rows, aggregate library rows⟩

/-! ## Correlation rules -/

structure Tally where
  tp : ℕ
  fn : ℕ
  fp : ℕ
  tn : ℕ

/-- One turn of the loop over the windows of a rule. -/
def Tally.observe (rule : SigmaCorrelationRule Event) (tally : Tally) (window : Window Event) :
    Tally :=
  let observed := rule.fires window.events
  if window.expectMatch && observed then { tally with tp := tally.tp + 1 }
  else if window.expectMatch then { tally with fn := tally.fn + 1 }
  else if observed then { tally with fp := tally.fp + 1 }
  else { tally with tn := tally.tn + 1 }

def correlationRule (relative : Text) : Except Error (SigmaCorrelationRule Event) :=
  match library.resolved.lookup (absolute env relative) with
  | some (.correlation rule) => .ok rule
  | _ => .error (.typeError relative (relative ++ codes " is not a resolved correlation rule"))

def correlationRow (byRule : List (Text × List (Window Event))) (relative : Text) :
    Except Error RuleRow :=
  (correlationRule env library relative).map fun rule =>
    let ruleWindows := bucket byRule relative
    let tally := ruleWindows.foldl (Tally.observe rule) ⟨0, 0, 0, 0⟩
    ⟨relative, rule.title, ruleWindows.countP Window.expectMatch,
      ruleWindows.countP fun window => !window.expectMatch,
      countsOf library tally.tp tally.fn tally.fp tally.tn⟩

def correlationMetrics (windows : List (Window Event)) : Except Error Section := do
  let byRule := bucketsBy Window.rule windows
  let paths ← (correlationRulePaths env tree).mapError .unreadable
  let rows ← paths.mapM (correlationRow env library byRule)
  return ⟨rows.length, (rows.map RuleRow.positives).sum, (rows.map RuleRow.negatives).sum, rows,
    aggregate library rows⟩

end Metrics

end OtDetection.HeldoutMetrics
