import OtDetection.DetectedTechniques

/-! The coverage of the technique catalog by the rules. The summary counts the catalog
techniques that some rule detects; its number of rules counts a rule once for each of its
techniques. -/

namespace OtDetection.CoverageReport
open PyText FieldLookup InvertedIndex ExceptSteps
open RuleFamilies

/-! ## Catalog -/

structure Technique where
  id : Text
  name : Text
  tactics : List Text

structure Tactic where
  id : Text
  name : Text
  shortname : Text

/-- The ids of the techniques are unique. -/
structure Catalog where
  attackVersion : Text
  tactics : List Tactic
  techniques : List Technique
  distinct : (techniques.map Technique.id).Nodup

def tacticOrder : List Text :=
  ["initial-access", "execution", "persistence", "privilege-escalation", "evasion", "discovery",
    "lateral-movement", "collection", "command-and-control", "inhibit-response-function",
    "impair-process-control", "impact"].map codes

/-! ## Report -/

structure TechniqueRow where
  id : Text
  name : Text
  tactics : List Text
  covered : Bool
  ruleCount : ℕ
  sources : List Text

structure TacticRow where
  id : Text
  name : Text
  shortname : Text
  techniquesTotal : ℕ
  techniquesCovered : ℕ
  coveragePct : ℚ
  techniques : List Text

structure Summary where
  techniquesTotal : ℕ
  techniquesCovered : ℕ
  coveragePct : ℚ
  rulesTotal : ℕ

structure Report where
  attackVersion : Text
  summary : Summary
  tactics : List TacticRow
  techniques : List TechniqueRow

inductive ReportError
  | zeroDivision
  deriving DecidableEq

/-- `round(100 * part / whole, 1)`, as the decimal that the result stands for. -/
def percentage (part whole : ℕ) : Except ReportError ℚ :=
  if whole = 0 then .error .zeroDivision
  else .ok (roundHalfEven (nearestDouble ((100 * part : ℕ) / whole) * 10) / 10)

abbrev Detected := List (Text × List Text)

def techniqueRow (detected : Detected) (technique : Technique) : TechniqueRow :=
  let sources := (detected.lookup technique.id).getD []
  ⟨technique.id, technique.name, technique.tactics, (detected.lookup technique.id).isSome,
    sources.length, sources⟩

def tacticRow (rows : List TechniqueRow) (tactic : Tactic) : Except ReportError TacticRow :=
  let members := rows.filter fun row => row.tactics.contains tactic.id
  let covered := members.filter TechniqueRow.covered
  let coveragePct := if members ≠ [] then percentage covered.length members.length else .ok 0
  coveragePct.map fun pct => ⟨tactic.id, tactic.name, tactic.shortname, members.length,
    covered.length, pct, members.map TechniqueRow.id⟩

/-- The place in the matrix; what is not in it comes last. -/
def rank (tactic : Tactic) : ℕ := tacticOrder.idxOf tactic.shortname

def buildReport (catalog : Catalog) (detected : Detected) : Except ReportError Report := do
  let knownIds := catalog.techniques.map Technique.id
  let tactics := catalog.tactics.mergeSort fun tactic other => rank tactic ≤ rank other
  let rows := catalog.techniques.map (techniqueRow detected)
  let tacticRows ← tactics.mapM (tacticRow rows)
  let coveredIds := (detected.map Prod.fst).filter fun id => knownIds.contains id
  let pct ← percentage coveredIds.length rows.length
  return {
    attackVersion := catalog.attackVersion
    summary := ⟨rows.length, coveredIds.length, pct, (detected.map fun entry => entry.2.length).sum⟩
    tactics := tacticRows
    techniques := rows }

/-! ## What the summary is to count -/

abbrev Assignment := Family → List (Text × List Text)

def filesOf (assigned : Assignment) : List (Text × List Text) := families.flatMap assigned

/-- `detected_techniques()` of such rule files. -/
def detectedOf (assigned : Assignment) : Detected := tidy (invert (filesOf assigned))

def techniquesOf (env : Environment) (tree : Tree) : Assignment := fun family =>
  (rulePaths tree family).filterMap fun path =>
    ((familyTechniques env family path (readText tree path)).map (path, ·)).toOption

/-- Some rule file detects the technique. -/
def Detects (assigned : Assignment) (path technique : Text) : Prop :=
  Mentions (filesOf assigned) technique path

structure Counts (catalog : Catalog) (assigned : Assignment) (report : Report) : Prop where
  covered : report.summary.techniquesCovered =
    {id | id ∈ catalog.techniques.map Technique.id ∧ ∃ path, Detects assigned path id}.ncard
  rows : report.summary.techniquesCovered = (report.techniques.filter TechniqueRow.covered).length
  tactics : ∀ row ∈ report.tactics, row.techniquesCovered ≤ row.techniquesTotal
  rules : report.summary.rulesTotal = {path | ∃ technique, Detects assigned path technique}.ncard

/-! ## The index of an assignment -/

theorem isIndex_detectedOf (assigned : Assignment) : IsIndex (detectedOf assigned) :=
  isIndex_tidy (isIndex_invert _)

theorem lists_detectedOf (assigned : Assignment) (technique path : Text) :
    Lists (detectedOf assigned) technique path ↔ Detects assigned path technique := by
  rw [detectedOf, lists_tidy, lists_invert, Detects]

theorem isSome_lookup_iff (detected : Detected) (technique : Text) :
    (detected.lookup technique).isSome ↔ technique ∈ detected.map Prod.fst := by
  rw [List.lookup_isSome_iff, List.mem_map]
  simp only [beq_iff_eq, @eq_comm _ technique]

theorem detected_iff (assigned : Assignment) (technique : Text) :
    ((detectedOf assigned).lookup technique).isSome ↔ ∃ path, Detects assigned path technique := by
  rw [isSome_lookup_iff, (isIndex_detectedOf assigned).mem_keys_iff]
  simp only [lists_detectedOf]

/-- The map of a tree is the map of the techniques of its files. -/
theorem detectedTechniques_eq_detectedOf {env : Environment} {tree : Tree} {detected : Detected}
    (made : detectedTechniques env tree = .ok detected) :
    detected = detectedOf (techniquesOf env tree) := by
  rw [detectedTechniques_eq] at made
  obtain ⟨entries, read, rfl⟩ := map_eq_ok_iff.mp made
  rw [assignments] at read
  rw [mapM_eq_filterMap read, detectedOf, filesOf, discovered, List.filterMap_flatMap]
  simp only [List.filterMap_map]
  rfl

theorem sum_sources_iff (assigned : Assignment) :
    ((detectedOf assigned).map fun entry => entry.2.length).sum =
        {path | ∃ technique, Detects assigned path technique}.ncard ↔
      ∀ path technique other, Detects assigned path technique → Detects assigned path other →
        technique = other := by
  have files : {path | ∃ technique, Detects assigned path technique} =
      ↑((pairs (detectedOf assigned)).image Prod.snd) := by
    ext path
    rw [Set.mem_ofPred_eq, Finset.mem_coe, Finset.mem_image]
    simp only [mem_pairs, lists_detectedOf, Prod.exists, exists_eq_right]
  rw [files, Set.ncard_coe_finset,
    sum_length_eq_card (isIndex_detectedOf assigned).nodup (nodup_tidy _), card_sources_eq_iff]
  simp only [lists_detectedOf]

/-! ## The report -/

theorem percentage_returns {whole : ℕ} (some_whole : whole ≠ 0) (part : ℕ) :
    ∃ pct, percentage part whole = .ok pct := ⟨_, if_neg some_whole⟩

theorem tacticRow_ok (rows : List TechniqueRow) (tactic : Tactic) :
    ∃ row, tacticRow rows tactic = .ok row ∧ row.techniquesCovered ≤ row.techniquesTotal := by
  by_cases some_member : (rows.filter fun row => row.tactics.contains tactic.id) ≠ []
  · obtain ⟨pct, value⟩ := percentage_returns (mt List.length_eq_zero_iff.mp some_member)
      ((rows.filter fun row => row.tactics.contains tactic.id).filter TechniqueRow.covered).length
    exact ⟨_, map_eq_ok_iff.mpr ⟨pct, (if_pos some_member).trans value, rfl⟩,
      List.length_filter_le ..⟩
  · exact ⟨_, map_eq_ok_iff.mpr ⟨0, if_neg some_member, rfl⟩, List.length_filter_le ..⟩

theorem tacticRows_ok (rows : List TechniqueRow) (tactics : List Tactic) :
    ∃ tacticRows, tactics.mapM (tacticRow rows) = .ok tacticRows ∧
      ∀ row ∈ tacticRows, row.techniquesCovered ≤ row.techniquesTotal := by
  obtain ⟨tacticRows, run⟩ := mapM_returns_iff.mpr fun tactic (_ : tactic ∈ tactics) =>
    (tacticRow_ok rows tactic).imp fun _ both => both.1
  refine ⟨tacticRows, run, fun row mem => ?_⟩
  obtain ⟨tactic, -, made⟩ := (mem_mapM_iff run row).mp mem
  obtain ⟨other, same, le⟩ := tacticRow_ok rows tactic
  obtain rfl := Except.ok.inj (made.symm.trans same)
  exact le

theorem buildReport_returns_iff (catalog : Catalog) (detected : Detected) :
    (∃ report, buildReport catalog detected = .ok report) ↔ catalog.techniques ≠ [] := by
  constructor
  · rintro ⟨report, built⟩ none
    obtain ⟨tacticRows, -, built⟩ := bind_eq_ok_iff.mp built
    obtain ⟨pct, value, -⟩ := bind_eq_ok_iff.mp built
    rw [none] at value
    exact nomatch (if_pos rfl).symm.trans value
  · intro some_technique
    obtain ⟨tacticRows, run, -⟩ := tacticRows_ok (catalog.techniques.map (techniqueRow detected))
      (catalog.tactics.mergeSort fun tactic other => rank tactic ≤ rank other)
    have length : (catalog.techniques.map (techniqueRow detected)).length ≠ 0 := by
      rwa [List.length_map, ne_eq, List.length_eq_zero_iff]
    obtain ⟨pct, value⟩ := percentage_returns length ((detected.map Prod.fst).filter fun id =>
      (catalog.techniques.map Technique.id).contains id).length
    exact ⟨_, bind_eq_ok_iff.mpr ⟨tacticRows, run, bind_eq_ok_iff.mpr ⟨pct, value, rfl⟩⟩⟩

theorem buildReport_ok {catalog : Catalog} {detected : Detected} {report : Report}
    (built : buildReport catalog detected = .ok report) :
    report.techniques = catalog.techniques.map (techniqueRow detected) ∧
    report.summary.techniquesCovered = ((detected.map Prod.fst).filter fun id =>
      (catalog.techniques.map Technique.id).contains id).length ∧
    report.summary.rulesTotal = (detected.map fun entry => entry.2.length).sum ∧
    ∀ row ∈ report.tactics, row.techniquesCovered ≤ row.techniquesTotal := by
  obtain ⟨tacticRows, rows, built⟩ := bind_eq_ok_iff.mp built
  obtain ⟨pct, -, built⟩ := bind_eq_ok_iff.mp built
  obtain rfl := Except.ok.inj built
  obtain ⟨others, run, le⟩ := tacticRows_ok (catalog.techniques.map (techniqueRow detected))
    (catalog.tactics.mergeSort fun tactic other => rank tactic ≤ rank other)
  obtain rfl := Except.ok.inj (rows.symm.trans run)
  exact ⟨rfl, rfl, rfl, le⟩

theorem covered_counts (catalog : Catalog) (assigned : Assignment) :
    ((detectedOf assigned |>.map Prod.fst).filter fun id =>
        (catalog.techniques.map Technique.id).contains id).length =
      {id | id ∈ catalog.techniques.map Technique.id ∧ ∃ path, Detects assigned path id}.ncard ∧
    ((catalog.techniques.map (techniqueRow (detectedOf assigned))).filter
        TechniqueRow.covered).length =
      {id | id ∈ catalog.techniques.map Technique.id ∧ ∃ path, Detects assigned path id}.ncard := by
  constructor
  · symm
    refine ncard_eq_length ((isIndex_detectedOf assigned).nodup.filter _) fun id => ?_
    rw [Set.mem_ofPred_eq, List.mem_filter, (isIndex_detectedOf assigned).mem_keys_iff,
      List.contains_iff_mem, and_comm]
    simp only [lists_detectedOf]
  · symm
    have ids : ((catalog.techniques.map (techniqueRow (detectedOf assigned))).filter
        TechniqueRow.covered).length = ((catalog.techniques.map Technique.id).filter fun id =>
          ((detectedOf assigned).lookup id).isSome).length := by
      rw [List.filter_map, List.length_map, List.filter_map, List.length_map]
      rfl
    rw [ids]
    refine ncard_eq_length (catalog.distinct.filter _) fun id => ?_
    rw [Set.mem_ofPred_eq, List.mem_filter, detected_iff]

/-- The report counts what it names exactly when the catalog has a technique and no rule file
detects two. -/
theorem buildReport_counts_iff (catalog : Catalog) (assigned : Assignment) :
    (∃ report, buildReport catalog (detectedOf assigned) = .ok report ∧
        Counts catalog assigned report) ↔
      catalog.techniques ≠ [] ∧ ∀ path technique other, Detects assigned path technique →
        Detects assigned path other → technique = other := by
  obtain ⟨in_index, in_rows⟩ := covered_counts catalog assigned
  rw [← buildReport_returns_iff catalog (detectedOf assigned), ← sum_sources_iff]
  constructor
  · rintro ⟨report, built, counts⟩
    obtain ⟨-, -, rules, -⟩ := buildReport_ok built
    exact ⟨⟨report, built⟩, rules.symm.trans counts.rules⟩
  · rintro ⟨⟨report, built⟩, sum⟩
    obtain ⟨rows, covered, rules, tactics⟩ := buildReport_ok built
    refine ⟨report, built, ?_, ?_, tactics, rules.trans sum⟩
    · rw [covered, in_index]
    · rw [covered, in_index, rows, in_rows]

def valveTechniques : Catalog where
  attackVersion := codes "19.1"
  tactics := [⟨codes "TA0106", codes "Impair Process Control", codes "impair-process-control"⟩]
  techniques := [⟨codes "T0836", codes "Modify Parameter", [codes "TA0106"]⟩,
    ⟨codes "T0855", codes "Unauthorized Command Message", [codes "TA0106"]⟩]
  distinct := by decide

def valveRule : Assignment
  | .sigma => [(codes "rules/sigma/dnp3/valve.yml", [codes "T0855", codes "T0836"])]
  | _ => []

theorem valveRule_counted_twice : ∃ report,
    buildReport valveTechniques (detectedOf valveRule) = .ok report ∧
      report.summary.rulesTotal = 2 ∧
      {path | ∃ technique, Detects valveRule path technique} =
        {codes "rules/sigma/dnp3/valve.yml"} ∧
      ¬ Counts valveTechniques valveRule report := by
  obtain ⟨report, built⟩ :=
    (buildReport_returns_iff valveTechniques (detectedOf valveRule)).mpr (List.cons_ne_nil _ _)
  have files : filesOf valveRule =
    [(codes "rules/sigma/dnp3/valve.yml", [codes "T0855", codes "T0836"])] := rfl
  have index : invert (filesOf valveRule) =
      [(codes "T0855", [codes "rules/sigma/dnp3/valve.yml"]),
        (codes "T0836", [codes "rules/sigma/dnp3/valve.yml"])] := by
    decide
  have rules : report.summary.rulesTotal = 2 := by
    rw [(buildReport_ok built).2.2.1, detectedOf, index, tidy]
    simp
  have detecting : {path | ∃ technique, Detects valveRule path technique} =
      {codes "rules/sigma/dnp3/valve.yml"} := by
    ext path
    simp only [Detects, Mentions, files, Set.mem_ofPred_eq, Set.mem_singleton_iff]
    simp [eq_comm]
  refine ⟨report, built, rules, detecting, fun counts => ?_⟩
  have one := counts.rules
  rw [rules, detecting, Set.ncard_singleton] at one
  exact absurd one (by decide)

end OtDetection.CoverageReport
