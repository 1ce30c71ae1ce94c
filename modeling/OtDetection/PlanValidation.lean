import OtDetection.EmulationScore
import OtDetection.TechniqueAgreement

/-! Validation of an emulation plan against the rules that it names. -/

namespace OtDetection.PlanValidation
open PyText InvertedIndex ExceptSteps RuleFamilies
open EmulationScore (Plan Step Expectation)

/-! ## Rules by their paths -/

def pathOf (rule : Text) : Text :=
  if rule.head? = some 0x2F then rule
  else [0x2F].intercalate ((parts rule).filter fun part => part ≠ [] ∧ part ≠ [0x2E])

def isDirectory (tree : Tree) (path : Text) : Bool :=
  path = [] ∨ tree.keys.any fun file => (path ++ [0x2F]).isPrefixOf file

variable (env : Environment) (tree : Tree)

def techniquesAt (path : Text) : Option (Except Error (List Text)) :=
  match tree.lookup path with
  | some text => some (techniquesFor env path text)
  | none =>
    if isDirectory tree path then
      some (if ([".rules", ".yml", ".yaml"].map codes).contains (suffix path) then
          .error .isADirectory
        else techniquesFor env path [])
    else none

/-! ## Problems -/

def schemaProblem (error : Text × Text) : Text :=
  codes "schema: " ++ (error.1 ++ (codes ": " ++ error.2))

def duplicateStep (id : Text) : Text := codes "duplicate step id: " ++ id

def unknownTechnique (id technique : Text) : Text :=
  id ++ (codes ": unknown technique " ++ technique)

def ruleNotFound (id rule : Text) : Text := id ++ (codes ": rule not found: " ++ rule)

def doesNotDetect (id : Text) (expectation : Expectation) : Text :=
  id ++ (codes ": " ++ (expectation.rule ++ (codes " does not detect " ++ expectation.technique)))

section Validation

variable (known : List Text)

def expectationProblems (id : Text) (expectation : Expectation) : Except Error (List Text) :=
  let unknown := if known.contains expectation.technique then []
    else [unknownTechnique id expectation.technique]
  match techniquesAt env tree (pathOf expectation.rule) with
  | none => .ok (unknown ++ [ruleNotFound id expectation.rule])
  | some asked => asked.map fun techniques =>
      unknown ++ if techniques.contains expectation.technique then []
        else [doesNotDetect id expectation]

def stepProblems (seenIds : List Text) (step : Step) : Except Error (List Text) := do
  let duplicate := if seenIds.contains step.id then [duplicateStep step.id] else []
  let unknown := (step.technique.toList.filter fun technique => !known.contains technique).map
    (unknownTechnique step.id)
  let problems ← step.expectations.mapM (expectationProblems env tree known step.id)
  return duplicate ++ unknown ++ problems.flatten

def stepsProblems (seenIds : List Text) : List Step → Except Error (List Text)
  | [] => .ok []
  | step :: steps => do
    let problems ← stepProblems env tree known seenIds step
    return problems ++ (← stepsProblems (step.id :: seenIds) steps)

def validatePlan (schemaErrors : List (Text × Text)) (plan : Plan) : Except Error (List Text) :=
  if schemaErrors ≠ [] then .ok (schemaErrors.map schemaProblem)
  else stepsProblems env tree known [] plan.steps

end Validation

/-! ## The two ways of asking -/

variable {env tree}

/-- The question for a file is answered, with the techniques that the map lists it under. -/
def FileAgrees (env : Environment) (tree : Tree) (detected : List (Text × List Text))
    (path : Text) : Prop :=
  ∃ techniques, techniquesFor env path (readText tree path) = .ok techniques ∧
    ∀ technique, technique ∈ techniques ↔ Lists detected technique path

/-- A plan for rules among some files is validated, and an expectation that the map does not
credit has its problem. -/
def PlansAgree (env : Environment) (tree : Tree) (detected : List (Text × List Text))
    (files : Set Text) : Prop :=
  ∀ known plan, (∀ step ∈ plan.steps, ∀ e ∈ step.expectations, pathOf e.rule ∈ files) →
    ∃ problems, validatePlan env tree known [] plan = .ok problems ∧
      ∀ step ∈ plan.steps, ∀ e ∈ step.expectations, doesNotDetect step.id e ∉ problems →
        Lists detected e.technique (pathOf e.rule)

theorem techniquesAt_file {path : Text} (inside : path ∈ tree) :
    techniquesAt env tree path = some (techniquesFor env path (readText tree path)) := by
  obtain ⟨text, found⟩ := Option.isSome_iff_exists.mp (AList.lookup_isSome.mpr inside)
  rw [techniquesAt, readText, found]
  rfl

theorem expectationProblems_spec {known : List Text} {detected : List (Text × List Text)}
    {e : Expectation} (inside : pathOf e.rule ∈ tree)
    (agrees : FileAgrees env tree detected (pathOf e.rule)) (id : Text) :
    ∃ problems, expectationProblems env tree known id e = .ok problems ∧
      (doesNotDetect id e ∉ problems → Lists detected e.technique (pathOf e.rule)) := by
  obtain ⟨techniques, asked, same⟩ := agrees
  rw [expectationProblems, techniquesAt_file inside, asked]
  refine ⟨_, rfl, fun silent => ?_⟩
  rw [← same, ← List.contains_iff_mem]
  by_contra missing
  simp only [if_neg missing] at silent
  exact silent (List.mem_append_right _ (List.mem_singleton_self _))

theorem stepProblems_spec {known seenIds : List Text} {step : Step}
    {Accepted : Expectation → Prop} (each : ∀ e ∈ step.expectations, ∃ problems,
      expectationProblems env tree known step.id e = .ok problems ∧
        (doesNotDetect step.id e ∉ problems → Accepted e)) :
    ∃ problems, stepProblems env tree known seenIds step = .ok problems ∧
      ∀ e ∈ step.expectations, doesNotDetect step.id e ∉ problems → Accepted e := by
  obtain ⟨lists, run⟩ := mapM_returns_iff.mpr fun e mem =>
    (each e mem).imp fun _ both => both.1
  refine ⟨_, bind_eq_ok_iff.mpr ⟨lists, run, rfl⟩, fun e mem silent => ?_⟩
  obtain ⟨problems, made, accepted⟩ := each e mem
  apply accepted
  intro said
  have among : problems ∈ lists := (mem_mapM_iff run problems).mpr ⟨e, mem, made⟩
  exact silent (List.mem_append_right _ (List.mem_flatten.mpr ⟨problems, among, said⟩))

theorem stepsProblems_spec {known : List Text} {Accepted : Step → Expectation → Prop}
    {steps : List Step} (each : ∀ step ∈ steps, ∀ e ∈ step.expectations, ∃ problems,
      expectationProblems env tree known step.id e = .ok problems ∧
        (doesNotDetect step.id e ∉ problems → Accepted step e)) (seenIds : List Text) :
    ∃ problems, stepsProblems env tree known seenIds steps = .ok problems ∧
      ∀ step ∈ steps, ∀ e ∈ step.expectations, doesNotDetect step.id e ∉ problems →
        Accepted step e := by
  induction steps generalizing seenIds with
  | nil => exact ⟨[], rfl, List.forall_mem_nil _⟩
  | cons step steps ih =>
    rw [List.forall_mem_cons] at each
    obtain ⟨problems, made, accepted⟩ := stepProblems_spec each.1
    obtain ⟨others, rest, later⟩ := ih each.2 (step.id :: seenIds)
    refine ⟨problems ++ others,
      bind_eq_ok_iff.mpr ⟨problems, made, bind_eq_ok_iff.mpr ⟨others, rest, rfl⟩⟩, ?_⟩
    rw [List.forall_mem_cons]
    exact ⟨fun e mem silent => accepted e mem fun said => silent (List.mem_append_left _ said),
      fun other mem e inside silent =>
        later other mem e inside fun said => silent (List.mem_append_right _ said)⟩

def dispatchPath : Text := codes "rules/sigma/dnp3/operate.yml"

def baselinePath : Text := codes "rules/baseline/dnp3/operate.yml"

def tagged (block : String) : Yaml :=
  .mapping [(codes "tags", .sequence [.string (codes "attack.t0855")]), (codes block, .mapping [])]

/-- Texts that begin with a `d` are rules with a detection block, others baseline rules. -/
def plant : Environment where
  root := codes "/srv/ot"
  unicode := PyNumber.noTables
  upper := id
  repr _ := []
  safeLoad text := .ok (tagged (if text.head? = some 'd' then "detection" else "baseline"))
  ruleFromYaml text :=
    if text.head? = some 'd' then .ok [codes "attack.t0855"] else .error .sigma
  collectionFromYaml _ := .error .sigma

theorem ruleFromYaml_plant {text : List Char} {document : Yaml} {tags : List Text}
    (loaded : plant.safeLoad text = .ok document) (made : plant.ruleFromYaml text = .ok tags) :
    document = tagged "detection" ∧ tags = [codes "attack.t0855"] := by
  by_cases detection : text.head? = some 'd'
  · simp only [plant, if_pos detection] at made loaded
    exact ⟨(Except.ok.inj loaded).symm, (Except.ok.inj made).symm⟩
  · simp only [plant, if_neg detection] at made
    exact nomatch made

theorem pySigma_plant : PySigma plant where
  refuses {text document tags} loaded none made := by
    rw [(ruleFromYaml_plant loaded made).1] at none
    exact absurd none (by decide)
  keeps {text document tags texts} loads listed := by
    have single : plant.ruleFromYaml text = .ok tags := by
      have made := loads.2
      split at made
      · exact nomatch made
      · exact made
    obtain ⟨rfl, rfl⟩ := ruleFromYaml_plant loads.1 single
    exact Except.ok.inj listed

def oneRule : Tree := AList.singleton dispatchPath "detection: {}".toList

theorem discovered_singleton {family other : Family} {path file : Text} {text : List Char}
    (of_family : belongs family path = true)
    (found : (other, file) ∈ discovered (AList.singleton path text)) :
    other = family ∧ file = path := by
  obtain ⟨inside, of_other⟩ := mem_discovered.mp found
  obtain rfl : file = path := List.mem_singleton.mp (AList.mem_keys.mp inside)
  exact ⟨family_unique of_other of_family, rfl⟩

def oneBaseline : Tree := AList.singleton baselinePath "baseline: {}".toList

def baselinePlan : Plan where
  name := codes "operate"
  steps := [⟨codes "operate", codes "Operate", none,
    [⟨codes "dnp3_operate", codes "T0855", baselinePath⟩]⟩]

end OtDetection.PlanValidation
