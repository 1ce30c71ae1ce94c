import OtDetection.HeldoutMetrics

/-! Where the held-out evaluation counts every label: exactly when the rules load and each label
names a discovered rule of its kind. -/

namespace OtDetection.HeldoutMetrics
open PyText FieldLookup ExceptSteps LabelBuckets
open RuleFamilies (Environment Tree rulePaths readText isCorrelationRule Yaml belongs)

variable {env : Environment} {tree : Tree}

/-! ## Discovered rules -/

/-- A discovered Sigma file, with or without a correlation block. -/
def IsRule (env : Environment) (tree : Tree) (correlation : Bool) (path : Text) : Prop :=
  path ∈ rulePaths tree .sigma ∧ ∃ document, env.safeLoad (readText tree path) = .ok document ∧
    document.has "correlation" = correlation

/-- The text of every discovered Sigma file is YAML. -/
def AllYaml (env : Environment) (tree : Tree) : Prop :=
  ∀ path ∈ rulePaths tree .sigma, ∃ document, env.safeLoad (readText tree path) = .ok document

theorem nodup_rulePaths (tree : Tree) (family : RuleFamilies.Family) :
    (rulePaths tree family).Nodup :=
  (List.mergeSort_perm _ _).nodup_iff.mpr (tree.keys_nodup.filter _)

theorem isCorrelationRule_ok_iff {text : List Char} {correlation : Bool} :
    isCorrelationRule env text = .ok correlation ↔
      ∃ document, env.safeLoad text = .ok document ∧ document.has "correlation" = correlation :=
  map_eq_ok_iff

theorem rulePathsOf_returns_iff (correlation : Bool) :
    (∃ paths, rulePathsOf env tree correlation = .ok paths) ↔ AllYaml env tree := by
  simp only [rulePathsOf, map_returns_iff, classified, mapM_returns_iff, isCorrelationRule]
  rfl

theorem rulePathsOf_spec {correlation : Bool} {paths : List Text}
    (found : rulePathsOf env tree correlation = .ok paths) :
    paths.Nodup ∧ ∀ path, path ∈ paths ↔ IsRule env tree correlation path := by
  obtain ⟨flags, read, rfl⟩ := map_eq_ok_iff.mp found
  constructor
  · have names : flags.map Prod.fst = rulePaths tree .sigma := by
      rw [← List.map_id (rulePaths tree .sigma)]
      refine map_eq_of_mapM read fun path flag made => ?_
      obtain ⟨_, -, rfl⟩ := map_eq_ok_iff.mp made
      rfl
    have nodup : (flags.map Prod.fst).Nodup := names ▸ nodup_rulePaths tree .sigma
    exact nodup.sublist (List.filter_sublist.map _)
  · intro path
    have flagged : path ∈ (flags.filter fun flag => flag.2 = correlation).map Prod.fst ↔
        (path, correlation) ∈ flags := by
      simp only [List.mem_map, List.mem_filter, decide_eq_true_eq]
      constructor
      · rintro ⟨⟨_, _⟩, ⟨mem, rfl⟩, rfl⟩
        exact mem
      · exact fun mem => ⟨_, ⟨mem, rfl⟩, rfl⟩
    rw [flagged, mem_mapM_iff read, IsRule, ← isCorrelationRule_ok_iff]
    constructor
    · rintro ⟨other, inside, made⟩
      obtain ⟨flag, value, same⟩ := map_eq_ok_iff.mp made
      obtain ⟨rfl, rfl⟩ := Prod.mk.inj same
      exact ⟨inside, value⟩
    · rintro ⟨inside, value⟩
      exact ⟨path, inside, map_eq_ok_iff.mpr ⟨correlation, value, rfl⟩⟩

/-! ## Rows -/

section Rows

variable {Event : Type} {library : Library Event}

theorem singleEventRow_counts {positives : List (Positive Event)} {negatives : List Event}
    {relative : Text} {row : RuleRow} (made : singleEventRow env tree library
      (bucketsBy Positive.rule positives) negatives relative = .ok row) :
    row.counts.tp + row.counts.fn =
        (positives.filter fun positive => positive.rule = relative).length ∧
      row.counts.fp + row.counts.tn = negatives.length := by
  obtain ⟨rule, -, rfl⟩ := map_eq_ok_iff.mp made
  rw [← bucket_bucketsBy]
  exact ⟨Nat.add_sub_cancel' List.countP_le_length, Nat.add_sub_cancel' List.countP_le_length⟩

theorem tally_observe (rule : SigmaCorrelationRule Event) (tally : Tally) (window : Window Event) :
    (tally.observe rule window).tp + (tally.observe rule window).fn =
        tally.tp + tally.fn + (if window.expectMatch then 1 else 0) ∧
      (tally.observe rule window).fp + (tally.observe rule window).tn =
        tally.fp + tally.tn + (if !window.expectMatch then 1 else 0) := by
  rw [Tally.observe]
  cases window.expectMatch <;> cases rule.fires window.events <;> grind

theorem tally_windows (rule : SigmaCorrelationRule Event) (windows : List (Window Event))
    (start : Tally) :
    (windows.foldl (Tally.observe rule) start).tp + (windows.foldl (Tally.observe rule) start).fn =
        start.tp + start.fn + (windows.filter fun window => window.expectMatch).length ∧
      (windows.foldl (Tally.observe rule) start).fp +
          (windows.foldl (Tally.observe rule) start).tn =
        start.fp + start.tn + (windows.filter fun window => !window.expectMatch).length := by
  induction windows generalizing start with
  | nil => exact ⟨rfl, rfl⟩
  | cons window windows ih =>
    obtain ⟨matched, unmatched⟩ := ih (start.observe rule window)
    obtain ⟨first, second⟩ := tally_observe rule start window
    rw [List.foldl_cons, matched, unmatched, first, second, List.filter_cons, List.filter_cons]
    cases window.expectMatch <;> grind

theorem correlationRow_counts {windows : List (Window Event)} {relative : Text} {row : RuleRow}
    (made : correlationRow env library (bucketsBy Window.rule windows) relative = .ok row) :
    row.counts.tp + row.counts.fn = ((windows.filter fun window => window.expectMatch).filter
        fun window => window.rule = relative).length ∧
      row.counts.fp + row.counts.tn = ((windows.filter fun window => !window.expectMatch).filter
        fun window => window.rule = relative).length := by
  obtain ⟨rule, -, rfl⟩ := map_eq_ok_iff.mp made
  obtain ⟨matched, unmatched⟩ :=
    tally_windows rule (bucket (bucketsBy Window.rule windows) relative) ⟨0, 0, 0, 0⟩
  have kept (p : Window Event → Bool) :
      (bucket (bucketsBy Window.rule windows) relative).filter p =
        (windows.filter p).filter fun window => window.rule = relative := by
    rw [bucket_bucketsBy, List.filter_comm]
  rw [kept, Nat.add_zero, Nat.zero_add] at matched unmatched
  exact ⟨matched, unmatched⟩

/-! ## Aggregates -/

theorem aggregate_labelled (rows : List RuleRow) :
    (aggregate library rows).tp + (aggregate library rows).fn =
        (rows.map fun row => row.counts.tp + row.counts.fn).sum ∧
      (aggregate library rows).fp + (aggregate library rows).tn =
        (rows.map fun row => row.counts.fp + row.counts.tn).sum :=
  ⟨List.sum_map_add.symm, List.sum_map_add.symm⟩

end Rows

/-! ## The rows of all rules of a kind -/

def rowsOf (env : Environment) (tree : Tree) (correlation : Bool)
    (row : Text → Except Error RuleRow) : Except Error (List RuleRow) := do
  let paths ← (rulePathsOf env tree correlation).mapError .unreadable
  paths.mapM row

section RowsOf

variable {correlation : Bool} {row : Text → Except Error RuleRow}

theorem rowsOf_ok_iff {rows : List RuleRow} : rowsOf env tree correlation row = .ok rows ↔
    ∃ paths, rulePathsOf env tree correlation = .ok paths ∧ paths.mapM row = .ok rows := by
  refine bind_eq_ok_iff.trans ?_
  simp only [mapError_eq_ok_iff]

theorem rowsOf_returns_iff : (∃ rows, rowsOf env tree correlation row = .ok rows) ↔
    AllYaml env tree ∧ ∀ path, IsRule env tree correlation path → ∃ made, row path = .ok made := by
  simp only [rowsOf_ok_iff]
  rw [exists_comm, ← rulePathsOf_returns_iff correlation]
  constructor
  · rintro ⟨paths, rows, found, run⟩
    refine ⟨⟨paths, found⟩, fun path is_rule => ?_⟩
    exact mapM_returns_iff.mp ⟨rows, run⟩ path (((rulePathsOf_spec found).2 path).mpr is_rule)
  · rintro ⟨⟨paths, found⟩, each⟩
    obtain ⟨rows, run⟩ := mapM_returns_iff.mpr fun path mem =>
      each path (((rulePathsOf_spec found).2 path).mp mem)
    exact ⟨paths, rows, found, run⟩

theorem isRule_of_rowsOf_error (names : ∀ path error, row path = .error error →
    error.rule = some path) {error : Error} (run : rowsOf env tree correlation row = .error error)
    {rule : Text} (named : error.rule = some rule) : IsRule env tree correlation rule := by
  rw [rowsOf] at run
  cases found : rulePathsOf env tree correlation with
  | error unread =>
    rw [found] at run
    obtain rfl := Except.error.inj run
    exact nomatch named
  | ok paths =>
    rw [found] at run
    obtain ⟨path, mem, failed⟩ := mapM_error run
    obtain rfl := Option.some.inj (named.symm.trans (names path error failed))
    exact ((rulePathsOf_spec found).2 _).mp mem

theorem sum_labels_iff {rows : List RuleRow} (made : rowsOf env tree correlation row = .ok rows)
    {α : Type*} {rule : α → Text} {labels : List α} {figure : RuleRow → ℕ}
    (each : ∀ path r, row path = .ok r →
      figure r = (labels.filter fun label => rule label = path).length) :
    (rows.map figure).sum = labels.length ↔
      ∀ label ∈ labels, IsRule env tree correlation (rule label) := by
  obtain ⟨paths, found, run⟩ := rowsOf_ok_iff.mp made
  obtain ⟨nodup, known⟩ := rulePathsOf_spec found
  rw [map_eq_of_mapM run each, sum_length_filter_eq_iff nodup]
  simp only [known]

theorem sum_constant {rows : List RuleRow} (made : rowsOf env tree correlation row = .ok rows)
    {figure : RuleRow → ℕ} {n : ℕ} (each : ∀ path r, row path = .ok r → figure r = n) :
    (rows.map figure).sum = n * {path | IsRule env tree correlation path}.ncard := by
  obtain ⟨paths, found, run⟩ := rowsOf_ok_iff.mp made
  obtain ⟨nodup, known⟩ := rulePathsOf_spec found
  have rules : {path | IsRule env tree correlation path}.ncard = paths.length :=
    InvertedIndex.ncard_eq_length nodup fun path => (known path).symm
  rw [map_eq_of_mapM run (h := fun _ => n) each, List.map_const', List.sum_replicate_nat, rules,
    Nat.mul_comm]

end RowsOf

/-! ## The sections -/

variable {Event : Type} {library : Library Event}

/-- A section counts its labels, or the run reports one whose rule is unknown. -/
def Accounted (env : Environment) (tree : Tree) (correlation : Bool)
    (run : Except Error Section) (Counted : Section → Prop) (labels : List Text) : Prop :=
  (∃ made, run = .ok made ∧ Counted made) ∨
    ∃ rule ∈ labels, ¬ IsRule env tree correlation rule ∧
      ∃ error, run = .error error ∧ error.rule = some rule

structure SingleCounted (env : Environment) (tree : Tree) (positives : List (Positive Event))
    (negatives : List Event) (made : Section) : Prop where
  total : made.positivesTotal = positives.length
  labelled : made.aggregate.tp + made.aggregate.fn = positives.length
  others : made.aggregate.fp + made.aggregate.tn =
    negatives.length * {path | IsRule env tree false path}.ncard

structure CorrelationCounted (windows : List (Window Event)) (made : Section) : Prop where
  labelled : made.aggregate.tp + made.aggregate.fn =
    (windows.filter fun window => window.expectMatch).length
  others : made.aggregate.fp + made.aggregate.tn =
    (windows.filter fun window => !window.expectMatch).length

/-- Sigma's files are YAML, its rules load, and each label names a rule of its kind. -/
structure Accountable (env : Environment) (tree : Tree) (library : Library Event)
    (positives : List (Positive Event)) (windows : List (Window Event)) : Prop where
  readable : AllYaml env tree
  singles : ∀ path, IsRule env tree false path →
    (∃ rule, library.resolved.lookup (absolute env path) = some (.single rule)) ∨
      ∃ rule, library.fromYaml (readText tree path) = .ok rule
  correlations : ∀ path, IsRule env tree true path →
    ∃ rule, library.resolved.lookup (absolute env path) = some (.correlation rule)
  positives : ∀ positive ∈ positives, IsRule env tree false positive.rule
  windows : ∀ window ∈ windows, IsRule env tree true window.rule

theorem singleEventRow_returns_iff {byRule : List (Text × List (Positive Event))}
    {negatives : List Event} {path : Text} :
    (∃ row, singleEventRow env tree library byRule negatives path = .ok row) ↔
      (∃ rule, library.resolved.lookup (absolute env path) = some (.single rule)) ∨
        ∃ rule, library.fromYaml (readText tree path) = .ok rule := by
  have loaded : (∃ row, singleEventRow env tree library byRule negatives path = .ok row) ↔
      ∃ rule, singleEventRule env tree library path = .ok rule := map_returns_iff
  rw [loaded, singleEventRule]
  rcases library.resolved.lookup (absolute env path) with _ | single | correlation
  · simp [mapError_eq_ok_iff]
  · simp
  · simp [mapError_eq_ok_iff]

theorem correlationRow_returns_iff {byRule : List (Text × List (Window Event))} {path : Text} :
    (∃ row, correlationRow env library byRule path = .ok row) ↔
      ∃ rule, library.resolved.lookup (absolute env path) = some (.correlation rule) := by
  have loaded : (∃ row, correlationRow env library byRule path = .ok row) ↔
      ∃ rule, correlationRule env library path = .ok rule := map_returns_iff
  rw [loaded, correlationRule]
  rcases library.resolved.lookup (absolute env path) with _ | single | correlation <;> simp

theorem singleEventRow_error {byRule : List (Text × List (Positive Event))}
    {negatives : List Event} {path : Text} {error : Error}
    (failed : singleEventRow env tree library byRule negatives path = .error error) :
    error.rule = some path := by
  have loading := map_eq_error_iff.mp failed
  have refused {x : Except RuleFamilies.Error (SigmaRule Event)}
      (failed : x.mapError (Error.notLoaded path) = .error error) : error.rule = some path := by
    cases x with
    | error other => rw [← Except.error.inj failed, Error.rule]
    | ok rule => exact nomatch failed
  rw [singleEventRule] at loading
  split at loading
  · exact nomatch loading
  · exact refused loading

theorem correlationRow_error {byRule : List (Text × List (Window Event))} {path : Text}
    {error : Error} (failed : correlationRow env library byRule path = .error error) :
    error.rule = some path := by
  have loading := map_eq_error_iff.mp failed
  rw [correlationRule] at loading
  split at loading
  · exact nomatch loading
  · rw [← Except.error.inj loading, Error.rule]

theorem singleEventMetrics_eq (positives : List (Positive Event)) (negatives : List Event) :
    singleEventMetrics env tree library positives negatives =
      (rowsOf env tree false (singleEventRow env tree library (bucketsBy Positive.rule positives)
        negatives)).map fun rows => ⟨rows.length, positives.length, negatives.length, rows,
          aggregate library rows⟩ := by
  rw [singleEventMetrics, singleEventRulePaths, rowsOf]
  cases rulePathsOf env tree false with
  | error unread => rfl
  | ok paths =>
    change Except.bind (paths.mapM _) _ = Except.map _ (paths.mapM _)
    cases paths.mapM (singleEventRow env tree library (bucketsBy Positive.rule positives)
      negatives) <;> rfl

theorem correlationMetrics_eq (windows : List (Window Event)) :
    correlationMetrics env tree library windows =
      (rowsOf env tree true (correlationRow env library (bucketsBy Window.rule windows))).map
        fun rows => ⟨rows.length, (rows.map RuleRow.positives).sum,
          (rows.map RuleRow.negatives).sum, rows, aggregate library rows⟩ := by
  rw [correlationMetrics, correlationRulePaths, rowsOf]
  cases rulePathsOf env tree true with
  | error unread => rfl
  | ok paths =>
    change Except.bind (paths.mapM _) _ = Except.map _ (paths.mapM _)
    cases paths.mapM (correlationRow env library (bucketsBy Window.rule windows)) <;> rfl

theorem accounted_iff {correlation : Bool} {row : Text → Except Error RuleRow}
    (names : ∀ path error, row path = .error error → error.rule = some path)
    (build : List RuleRow → Section) (Counted : Section → Prop) (labels : List Text) :
    Accounted env tree correlation ((rowsOf env tree correlation row).map build) Counted labels ↔
      ∃ rows, rowsOf env tree correlation row = .ok rows ∧ Counted (build rows) := by
  constructor
  · rintro (⟨made, run, counted⟩ | ⟨rule, -, unknown, error, run, named⟩)
    · obtain ⟨rows, built, rfl⟩ := map_eq_ok_iff.mp run
      exact ⟨rows, built, counted⟩
    · exact absurd (isRule_of_rowsOf_error names (map_eq_error_iff.mp run) named) unknown
  · rintro ⟨rows, built, counted⟩
    exact .inl ⟨_, map_eq_ok_iff.mpr ⟨rows, built, rfl⟩, counted⟩

theorem singleEvent_accounted_iff (positives : List (Positive Event)) (negatives : List Event) :
    Accounted env tree false (singleEventMetrics env tree library positives negatives)
        (SingleCounted env tree positives negatives) (positives.map Positive.rule) ↔
      (AllYaml env tree ∧ ∀ path, IsRule env tree false path →
        (∃ rule, library.resolved.lookup (absolute env path) = some (.single rule)) ∨
          ∃ rule, library.fromYaml (readText tree path) = .ok rule) ∧
      ∀ positive ∈ positives, IsRule env tree false positive.rule := by
  rw [singleEventMetrics_eq, accounted_iff fun _ _ => singleEventRow_error]
  have loads : (∃ rows, rowsOf env tree false (singleEventRow env tree library
      (bucketsBy Positive.rule positives) negatives) = .ok rows) ↔ _ :=
    rowsOf_returns_iff.trans
      (and_congr_right' (forall₂_congr fun _ _ => singleEventRow_returns_iff))
  rw [← loads]
  have counted {rows : List RuleRow} (made : rowsOf env tree false (singleEventRow env tree library
      (bucketsBy Positive.rule positives) negatives) = .ok rows) :
      SingleCounted env tree positives negatives ⟨rows.length, positives.length, negatives.length,
        rows, aggregate library rows⟩ ↔
      ∀ positive ∈ positives, IsRule env tree false positive.rule := by
    obtain ⟨labelled, others⟩ := @aggregate_labelled Event library rows
    have sums := sum_labels_iff made (fun _ _ row => (singleEventRow_counts row).1)
    rw [← labelled] at sums
    rw [← sums]
    refine ⟨SingleCounted.labelled, fun same => ⟨rfl, same, ?_⟩⟩
    exact others.trans (sum_constant made fun _ _ row => (singleEventRow_counts row).2)
  exact ⟨fun ⟨rows, made, all⟩ => ⟨⟨rows, made⟩, (counted made).mp all⟩,
    fun ⟨⟨rows, made⟩, known⟩ => ⟨rows, made, (counted made).mpr known⟩⟩

theorem correlation_accounted_iff (windows : List (Window Event)) :
    Accounted env tree true (correlationMetrics env tree library windows)
        (CorrelationCounted windows) (windows.map Window.rule) ↔
      (AllYaml env tree ∧ ∀ path, IsRule env tree true path →
        ∃ rule, library.resolved.lookup (absolute env path) = some (.correlation rule)) ∧
      ∀ window ∈ windows, IsRule env tree true window.rule := by
  rw [correlationMetrics_eq, accounted_iff fun _ _ => correlationRow_error]
  have loads : (∃ rows, rowsOf env tree true (correlationRow env library
      (bucketsBy Window.rule windows)) = .ok rows) ↔ _ :=
    rowsOf_returns_iff.trans
      (and_congr_right' (forall₂_congr fun _ _ => correlationRow_returns_iff))
  rw [← loads]
  have counted {rows : List RuleRow} (made : rowsOf env tree true (correlationRow env library
      (bucketsBy Window.rule windows)) = .ok rows) :
      CorrelationCounted windows ⟨rows.length, (rows.map RuleRow.positives).sum,
        (rows.map RuleRow.negatives).sum, rows, aggregate library rows⟩ ↔
      ∀ window ∈ windows, IsRule env tree true window.rule := by
    obtain ⟨labelled, others⟩ := @aggregate_labelled Event library rows
    have matched := sum_labels_iff made (fun _ _ row => (correlationRow_counts row).1)
    have unmatched := sum_labels_iff made (fun _ _ row => (correlationRow_counts row).2)
    rw [← labelled] at matched
    rw [← others] at unmatched
    constructor
    · rintro ⟨first, second⟩ window mem
      cases expected : window.expectMatch with
      | true => exact matched.mp first window (List.mem_filter.mpr ⟨mem, expected⟩)
      | false =>
        have unexpected : (!window.expectMatch) = true := by rw [expected, Bool.not_false]
        exact unmatched.mp second window (List.mem_filter.mpr ⟨mem, unexpected⟩)
    · intro known
      exact ⟨matched.mpr fun window mem => known window (List.mem_of_mem_filter mem),
        unmatched.mpr fun window mem => known window (List.mem_of_mem_filter mem)⟩
  exact ⟨fun ⟨rows, made, all⟩ => ⟨⟨rows, made⟩, (counted made).mp all⟩,
    fun ⟨⟨rows, made⟩, known⟩ => ⟨rows, made, (counted made).mpr known⟩⟩

/-- Both sections account for their labels exactly when the rules load and every label names a
discovered rule of its kind. -/
theorem labels_accounted_iff (env : Environment) (tree : Tree) (library : Library Event)
    (positives : List (Positive Event)) (negatives : List Event) (windows : List (Window Event)) :
    Accounted env tree false (singleEventMetrics env tree library positives negatives)
        (SingleCounted env tree positives negatives) (positives.map Positive.rule) ∧
      Accounted env tree true (correlationMetrics env tree library windows)
        (CorrelationCounted windows) (windows.map Window.rule) ↔
      Accountable env tree library positives windows := by
  rw [singleEvent_accounted_iff, correlation_accounted_iff]
  constructor
  · rintro ⟨⟨⟨readable, singles⟩, positives⟩, ⟨-, correlations⟩, windows⟩
    exact ⟨readable, singles, correlations, positives, windows⟩
  · rintro ⟨readable, singles, correlations, positives, windows⟩
    exact ⟨⟨⟨readable, singles⟩, positives⟩, ⟨readable, correlations⟩, windows⟩

def operatePath : Text := codes "rules/sigma/dnp3/operate.yml"

def oneFile : Tree := AList.singleton operatePath "title: Operate".toList

def lenient : Environment where
  root := codes "/srv/ot"
  unicode := PyNumber.noTables
  upper := id
  repr _ := []
  safeLoad _ := .ok (.mapping [])
  ruleFromYaml _ := .ok []
  collectionFromYaml _ := .ok []

def lenientLibrary : Library Unit where
  resolved := AList.singleton (absolute lenient operatePath)
    (.single ⟨codes "Operate", fun _ => true⟩)
  fromYaml _ := .error .sigma
  roundedInterval _ _ := (0, 1)

def misspelt : Positive Unit := ⟨codes "rules/sigma/dnp3/opperate.yml", codes "operate", ()⟩

theorem rulePaths_oneFile : rulePaths oneFile .sigma = [operatePath] := by
  have kept : oneFile.keys.filter (belongs .sigma) = [operatePath] := by decide
  rw [rulePaths, kept, List.mergeSort_singleton]

/-- The label is counted in the total only. -/
theorem misspelt_dropped : ∃ made,
    singleEventMetrics lenient oneFile lenientLibrary [misspelt] [] = .ok made ∧
      made.positivesTotal = 1 ∧ made.aggregate.tp = 0 ∧ made.aggregate.fn = 0 ∧
      ¬ Accounted lenient oneFile false
        (singleEventMetrics lenient oneFile lenientLibrary [misspelt] [])
        (SingleCounted lenient oneFile [misspelt] []) [misspelt.rule] := by
  have run : ∃ made, singleEventMetrics lenient oneFile lenientLibrary [misspelt] [] = .ok made ∧
      made.positivesTotal = 1 ∧ made.aggregate.tp = 0 ∧ made.aggregate.fn = 0 := by
    rw [singleEventMetrics_eq, rowsOf, rulePathsOf, classified, rulePaths_oneFile]
    exact ⟨_, rfl, rfl, rfl, rfl⟩
  obtain ⟨made, value, total, tp, fn⟩ := run
  refine ⟨made, value, total, tp, fn, ?_⟩
  rw [value]
  rintro (⟨other, same, counted⟩ | ⟨rule, -, -, error, failed, -⟩)
  · obtain rfl := Except.ok.inj same
    have labelled := counted.labelled
    rw [tp, fn] at labelled
    exact absurd labelled (by decide)
  · exact nomatch failed

end OtDetection.HeldoutMetrics
