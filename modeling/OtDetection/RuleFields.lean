import OtDetection.CorrelationMoments
import OtDetection.IsoTime
import OtDetection.Matcher

/-! The fields that a rule reads. A field is looked up by its whole name and, by a dotted path, from
the first part of the name; a keyword reads every value. Events that agree in these fields are not
told apart, by a single rule or by a correlation. -/

namespace OtDetection.ShortCircuit

variable {α : Type*}

mutual

def Formula.leaves : Formula α → List α
  | .leaf a => [a]
  | .all args => leavesOf args
  | .any args => leavesOf args
  | .not arg => arg.leaves

def leavesOf : List (Formula α) → List α
  | [] => []
  | arg :: args => arg.leaves ++ leavesOf args

end

theorem mem_leavesOf {args : List (Formula α)} {t : Formula α} (mem : t ∈ args) {a : α}
    (inside : a ∈ t.leaves) : a ∈ leavesOf args := by
  induction args with
  | nil => cases mem
  | cons arg args ih =>
    rcases List.mem_cons.mp mem with rfl | later
    · exact List.mem_append_left _ inside
    · exact List.mem_append_right _ (ih later)

theorem Formula.Has.mem_leaves {t : Formula α} {a : α} (has : t.Has a) : a ∈ t.leaves := by
  induction has with
  | leaf a => exact List.mem_singleton_self a
  | all mem _ ih => exact mem_leavesOf mem ih
  | any mem _ ih => exact mem_leavesOf mem ih
  | not _ ih => exact ih

end OtDetection.ShortCircuit

namespace OtDetection.RuleFields
open PyText FieldLookup ShortCircuit Matcher Correlation

def roots (field : Text) : List Text := field :: (field.splitOn 0x2E).take 1

/-- The two events have the same values under the names. -/
def Agree (names : List Text) (event other : Event) : Prop :=
  ∀ name ∈ names, event.lookup name = other.lookup name

theorem Agree.mono {names fewer : List Text} {event other : Event} (agree : Agree names event other)
    (sub : fewer ⊆ names) : Agree fewer event other := fun name mem => agree name (sub mem)

theorem lookupField_agree {field : Text} {event other : Event} (agree : Agree (roots field) event other) :
    lookupField event field = lookupField other field := by
  rw [lookupField, lookupField, agree field List.mem_cons_self]
  cases other.lookup field with
  | some value => rfl
  | none =>
    cases parts : field.splitOn 0x2E with
    | nil => exact absurd parts (List.splitOn_ne_nil _ _)
    | cons part rest =>
      have first : part ∈ roots field := by
        rw [roots, parts]
        exact List.mem_cons_of_mem _ (List.mem_singleton_self part)
      simp only [descend, agree part first]

/-! ## Single rules -/

def leafNames : Leaf → List Text
  | .field field _ => roots field
  | .none | .keyword _ | .other _ => []

def isKeyword : Leaf → Bool
  | .keyword _ => true
  | _ => false

def routing : List Text := ["product", "service", "category"].map codes

/-- The fields that a rule reads; a keyword reads them all. -/
def ruleNames (rule : SigmaRule) : Option (List Text) :=
  if (leavesOf rule.conditions).any isKeyword then none
  else some (routing ++ (leavesOf rule.conditions).flatMap leafNames)

section Rules

variable {py : Interpreter} {event other : Event} {rule : SigmaRule} {names : List Text}

theorem matchRule_congr
    (leaves : ∀ leaf, (Formula.any rule.conditions).Has leaf →
      evalLeaf py event leaf = evalLeaf py other leaf)
    (routed : logsourceMatches rule event = logsourceMatches rule other) :
    matchRule py rule event = matchRule py rule other := by
  have conditions : (Formula.any rule.conditions).eval (evalLeaf py event) =
      (Formula.any rule.conditions).eval (evalLeaf py other) := eval_congr leaves
  rw [Formula.eval, Formula.eval] at conditions
  rw [matchRule, matchRule, routed, conditions]

theorem logsourceMatches_agree (agree : Agree routing event other) :
    logsourceMatches rule event = logsourceMatches rule other := by
  have routed : ∀ field, codes field ∈ routing → ∀ expected,
      routes event field expected = routes other field expected := by
    intro field mem expected
    unfold routes
    rw [agree _ mem]
  rw [logsourceMatches, logsourceMatches, routed "product" (by decide), routed "service" (by decide),
    routed "category" (by decide)]

theorem evalLeaf_agree {leaf : Leaf} (field : isKeyword leaf = false)
    (agree : Agree (leafNames leaf) event other) : evalLeaf py event leaf = evalLeaf py other leaf := by
  cases leaf with
  | none | other _ => rfl
  | field field value => rw [evalLeaf, evalLeaf, lookupField_agree agree]
  | keyword value => cases field

theorem matchRule_agree (reads : ruleNames rule = some names) (agree : Agree names event other) :
    matchRule py rule event = matchRule py rule other := by
  rw [ruleNames] at reads
  split_ifs at reads with keyword
  rw [← Option.some.inj reads] at agree
  refine matchRule_congr (fun leaf has => ?_)
    (logsourceMatches_agree (agree.mono (List.subset_append_left _ _)))
  have mem : leaf ∈ leavesOf rule.conditions := has.mem_leaves
  have field : isKeyword leaf = false :=
    Bool.eq_false_iff.mpr fun found => keyword (List.any_eq_true.mpr ⟨leaf, mem, found⟩)
  exact evalLeaf_agree field (agree.mono fun name inside =>
    List.mem_append_right _ (List.mem_flatMap.mpr ⟨leaf, mem, inside⟩))

end Rules

/-! ## Correlations -/

def singleRules (rule : CorrelationRule SigmaRule) : List SigmaRule :=
  rule.referencedRules.filterMap id

/-- The fields that a correlation reads: the time, the groups, the counted field, and those of its
rules. -/
def correlationNames (rule : CorrelationRule SigmaRule) : Option (List Text) :=
  if (singleRules rule).all fun single => (ruleNames single).isSome then
    some (codes "timestamp" :: ((rule.groupBy.getD []).flatMap roots ++
      ((rule.condition.bind Condition.fieldref).toList.flatMap roots ++
        (singleRules rule).flatMap fun single => (ruleNames single).getD [])))
  else none

section Correlations

variable {py : Interpreter} {fromisoformat : Text → Option DateTime} {isPrintable : ℕ → Bool}
  {rule : CorrelationRule SigmaRule} {event other : Event} {names : List Text}

theorem eventTime_agree {ε : Type} {title : Text} (agree : Agree [codes "timestamp"] event other) :
    eventTime (ε := ε) isPrintable fromisoformat title event =
      eventTime isPrintable fromisoformat title other := by
  rw [eventTime, eventTime, agree _ (List.mem_singleton_self _)]

theorem groupKey_agree {ε : Type} {groups : List Text}
    (agree : Agree (groups.flatMap roots) event other) :
    groupKey (ε := ε) groups event = groupKey groups other := by
  induction groups with
  | nil => rfl
  | cons group groups ih =>
    rw [List.flatMap_cons] at agree
    have first := lookupField_agree (agree.mono (List.subset_append_left _ _))
    have later := ih (agree.mono (List.subset_append_right _ _))
    rw [groupKey, groupKey] at later ⊢
    rw [List.mapM_cons, List.mapM_cons, first, later]

theorem anyMatch_agree {rules : List SigmaRule}
    (agree : ∀ single ∈ rules, ∃ names, ruleNames single = some names ∧ Agree names event other) :
    anyMatch (matchRule py) event rules = anyMatch (matchRule py) other rules := by
  induction rules with
  | nil => rfl
  | cons single rules ih =>
    obtain ⟨⟨names, reads, first⟩, later⟩ := List.forall_mem_cons.mp agree
    rw [anyMatch, anyMatch, matchRule_agree reads first, ih later]

/-- Two events that a correlation does not tell apart. -/
structure Undistinguished (rule : CorrelationRule SigmaRule) (event other : Event) : Prop where
  time : Agree [codes "timestamp"] event other
  groups : Agree ((rule.groupBy.getD []).flatMap roots) event other
  counted : Agree ((rule.condition.bind Condition.fieldref).toList.flatMap roots) event other
  rules : ∀ single ∈ singleRules rule,
    ∃ names, ruleNames single = some names ∧ Agree names event other

theorem undistinguished_of_agree (reads : correlationNames rule = some names)
    (agree : Agree names event other) : Undistinguished rule event other := by
  rw [correlationNames] at reads
  split_ifs at reads with known
  rw [← Option.some.inj reads] at agree
  have behind := agree.mono (List.subset_cons_self _ _)
  have counted := behind.mono (List.subset_append_right _ _)
  refine ⟨agree.mono (List.cons_subset_cons _ (List.nil_subset _)),
    behind.mono (List.subset_append_left _ _), counted.mono (List.subset_append_left _ _),
    fun single mem => ?_⟩
  obtain ⟨names, single_reads⟩ := Option.isSome_iff_exists.mp (List.all_eq_true.mp known single mem)
  refine ⟨names, single_reads, fun name inside => counted name ?_⟩
  refine List.mem_append_right _ (List.mem_flatMap.mpr ⟨single, mem, ?_⟩)
  rwa [single_reads]

theorem matchedEvents_agree {title : Text} {events others : List Event}
    (agree : List.Forall₂ (Undistinguished rule) events others) :
    (∃ e, matchedEvents (matchRule py) isPrintable fromisoformat title (singleRules rule) events =
        .error e ∧
      matchedEvents (matchRule py) isPrintable fromisoformat title (singleRules rule) others =
        .error e) ∨
    ∃ matched matched', matchedEvents (matchRule py) isPrintable fromisoformat title
        (singleRules rule) events = .ok matched ∧
      matchedEvents (matchRule py) isPrintable fromisoformat title (singleRules rule) others =
        .ok matched' ∧
      List.Forall₂ (fun p q => p.1 = q.1 ∧ Undistinguished rule p.2 q.2) matched matched' := by
  induction agree with
  | nil => exact .inr ⟨[], [], rfl, rfl, .nil⟩
  | @cons event other events others here _ ih =>
    rw [matchedEvents, matchedEvents, anyMatch_agree here.rules, eventTime_agree here.time]
    cases anyMatch (matchRule py) other (singleRules rule) with
    | error e => exact .inl ⟨_, rfl, rfl⟩
    | ok hit =>
      cases hit with
      | false => exact ih
      | true =>
        cases eventTime isPrintable fromisoformat title other with
        | error e => exact .inl ⟨e, rfl, rfl⟩
        | ok moment =>
          rcases ih with ⟨e, first, second⟩ | ⟨matched, matched', first, second, pairs⟩
          · exact .inl ⟨e, by rw [first]; rfl, by rw [second]; rfl⟩
          · exact .inr ⟨(moment, event) :: matched, (moment, other) :: matched',
              by rw [first]; rfl, by rw [second]; rfl, .cons ⟨rfl, here⟩ pairs⟩

theorem alikePairs_of_agree {ε : Type} {condition : Condition} (conditioned : rule.condition = some condition)
    (counting : rule.type = .valueCount → condition.fieldref.getD [] ≠ []) (span : ℤ)
    {p q : DateTime × Event} (same : p.1 = q.1) (agree : Undistinguished rule p.2 q.2) :
    AlikePairs ε rule condition span p q := by
  refine ⟨same ▸ ⟨rfl, rfl⟩, groupKey_agree agree.groups, ?_⟩
  rw [countedValue, countedValue]
  split_ifs with values
  · have counted := agree.counted
    rw [conditioned] at counted
    cases field : condition.fieldref with
    | none => exact absurd (by rw [field]; rfl) (counting values)
    | some field' =>
      simp only [Option.bind_some, field, Option.toList_some, List.flatMap_cons, List.flatMap_nil,
        List.append_nil] at counted
      rw [Option.getD_some, lookupField_agree counted]
  · rfl

theorem resolved_or_rejected {Rule ε : Type} (matchSingle : Rule → Event → Except ε Bool)
    (isPrintable : ℕ → Bool) (fromisoformat : Text → Option DateTime) (rule : CorrelationRule Rule) :
    (∃ condition seconds, Resolved rule condition seconds) ∨
      ∃ e, ∀ events, matchCorrelation matchSingle isPrintable fromisoformat rule events = .error e := by
  unfold matchCorrelation
  cases type : rule.type with
  | other name => exact .inr ⟨_, fun _ => rfl⟩
  | eventCount | valueCount =>
    by_cases references : rule.referencedRules = [] ∨ rule.referencedRules.any Option.isNone
    · exact .inr ⟨_, fun _ => if_pos references⟩
    · cases conditioned : rule.condition with
      | none => exact .inr ⟨_, fun _ => if_neg references⟩
      | some condition =>
        by_cases counted : rule.type = .valueCount ∧ condition.fieldref.getD [] = []
        · rw [type] at counted
          exact .inr ⟨_, fun _ => (if_neg references).trans (if_pos counted)⟩
        · cases bounded : rule.timespan with
          | none =>
            rw [type] at counted
            exact .inr ⟨_, fun _ => (if_neg references).trans (if_neg counted)⟩
          | some seconds =>
            obtain ⟨referenced, resolved⟩ := not_or.mp references
            refine .inl ⟨condition, seconds, by simp [type], referenced, fun reference mem => ?_,
              conditioned, fun values empty => counted ⟨values, empty⟩, bounded⟩
            by_contra absent
            exact resolved (List.any_eq_true.mpr
              ⟨reference, mem, Option.isNone_iff_eq_none.mpr (Option.not_isSome_iff_eq_none.mp absent)⟩)

/-- A correlation does the same, error by error, on events that agree one by one in the fields it
reads. -/
theorem matchCorrelation_agree (reads : correlationNames rule = some names)
    {events others : List Event} (agree : List.Forall₂ (Agree names) events others) :
    matchCorrelation (matchRule py) isPrintable fromisoformat rule events =
      matchCorrelation (matchRule py) isPrintable fromisoformat rule others := by
  have pairs := agree.imp fun event other same => undistinguished_of_agree reads same
  rcases resolved_or_rejected (matchRule py) isPrintable fromisoformat rule with
    ⟨condition, seconds, resolved⟩ | ⟨e, rejected⟩
  · rcases @matchedEvents_agree py fromisoformat isPrintable rule rule.title _ _ pairs with
      ⟨e, first, second⟩ | ⟨matched, matched', first, second, alike⟩
    · rw [matchCorrelation_eq resolved, matchCorrelation_eq resolved]
      rw [singleRules] at first second
      rw [first, second]
    · rw [matchCorrelation_resolved resolved first, matchCorrelation_resolved resolved second]
      have times : matched.map Prod.fst = matched'.map Prod.fst :=
        List.forall₂_eq_eq_eq ▸ List.forall₂_map_left_iff.mpr (List.forall₂_map_right_iff.mpr
          (alike.imp fun _ _ same => same.1))
      have empty : matched = [] ↔ matched' = [] := by
        cases alike with
        | nil => exact Iff.rfl
        | cons _ _ => exact iff_of_false (List.cons_ne_nil _ _) (List.cons_ne_nil _ _)
      have meets (span : ℤ) : spanMeets (ε := Matcher.Error) condition rule.type
          (rule.groupBy.getD []) matched span =
            spanMeets condition rule.type (rule.groupBy.getD []) matched' span :=
        funext fun start => spanMeets_congr ⟨rfl, rfl⟩ (alike.imp fun _ _ same =>
          alikePairs_of_agree resolved.conditioned resolved.counting span same.1 same.2)
      simp only [times, empty, meets]
  · rw [rejected, rejected]

end Correlations

/-! Requests that are counted for each source. Which unit they are for is not read. -/

def requestRule : SigmaRule :=
  ⟨codes "requests", none, some (codes "modbus"), none,
    [.leaf (.field (codes "is_request") (.bool true))]⟩

def requestFlood : CorrelationRule SigmaRule :=
  ⟨codes "request flood", .eventCount, [some requestRule], some ⟨.gte, 2, none⟩,
    some [codes "src_ip"], some 10⟩

def request (unit : ℤ) : Event :=
  [(codes "service", .str (codes "modbus")), (codes "is_request", .bool true),
    (codes "src_ip", .str (codes "172.24.0.10")), (codes "unit_id", .int unit),
    (codes "timestamp", .str (codes "2026-05-01T10:00:00Z"))]

theorem matchCorrelation_agree_requests :
    matchCorrelation (matchRule plainPatterns) (fun _ => true) IsoTime.fromisoformat requestFlood
        [request 1, request 2] = .ok true ∧
      matchCorrelation (matchRule plainPatterns) (fun _ => true) IsoTime.fromisoformat requestFlood
        [request 7, request 7] = .ok true := by
  have names : correlationNames requestFlood = some (["timestamp", "src_ip", "src_ip", "product",
      "service", "category", "is_request", "is_request"].map codes) := rfl
  have same (unit other : ℤ) : Agree (["timestamp", "src_ip", "src_ip", "product", "service",
      "category", "is_request", "is_request"].map codes) (request unit) (request other) := by
    intro name mem
    simp only [List.map_cons, List.map_nil, List.mem_cons, List.not_mem_nil, or_false] at mem
    rcases mem with rfl | rfl | rfl | rfl | rfl | rfl | rfl | rfl <;> rfl
  have agree := @matchCorrelation_agree plainPatterns IsoTime.fromisoformat (fun _ => true) _ _ names
    _ _ (.cons (same 1 7) (.cons (same 2 7) .nil))
  have detects : matchCorrelation (matchRule plainPatterns) (fun _ => true) IsoTime.fromisoformat
      requestFlood [request 1, request 2] = .ok true := by decide +kernel
  exact ⟨detects, agree.symm.trans detects⟩

end OtDetection.RuleFields
