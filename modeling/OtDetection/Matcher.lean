import OtDetection.IpAddress
import OtDetection.ShortCircuit

/-! Sigma rules on an event. A rule is the tree that pySigma parses; its fields, values
and nodes are tested one by one, and conditions, conjunctions and disjunctions stop at
the first that settles them. The regular expressions of `re` stay parameters, and so does what pySigma
writes for a literal text with a wildcard character or a backslash. -/

namespace OtDetection.Matcher
open PyText FieldLookup PyNumber IpAddress ShortCircuit

/-- No wildcard character and no backslash. -/
def isVerbatim (text : Text) : Bool := text.all fun c => c ≠ 0x2A ∧ c ≠ 0x3F ∧ c ≠ 0x5C

/-- `re.search` and `re.fullmatch` of a pattern, with `IGNORECASE` or without, in a text, and
what `str` of a `SigmaString` has for a literal part. -/
structure Interpreter extends Unicode where
  search : Text → Bool → Text → Bool
  fullmatch : Text → Bool → Text → Bool
  plain : Text → Text
  plain_eq : ∀ text, isVerbatim text = true → plain text = text

/-! ## Values of a rule -/

inductive StringPart
  | plain (text : Text)
  | multi
  | single
  deriving DecidableEq

/-- `SigmaString`, or `SigmaCasedString`. -/
structure SigmaString where
  parts : List StringPart
  cased : Bool

def StringPart.str (py : Interpreter) : StringPart → Text
  | plain text => py.plain text
  | multi => codes "*"
  | single => codes "?"

def SigmaString.str (py : Interpreter) (value : SigmaString) : Text :=
  value.parts.flatMap (StringPart.str py)

def SigmaString.containsSpecial (value : SigmaString) : Bool :=
  value.parts.any fun part => part = .multi ∨ part = .single

/-- pySigma builds a number only from what `float` accepts. -/
structure SigmaNumber where
  number : ℚ
  fits : (roundDouble number).isSome

def SigmaNumber.toFloat (value : SigmaNumber) : Double :=
  .finite ((roundDouble value.number).get value.fits)

inductive CompareOp
  | lt
  | lte
  | gt
  | gte
  | neq
  deriving DecidableEq

def CompareOp.eval : CompareOp → Double → Double → Bool
  | lt, left, right => left.lt right
  | lte, left, right => left.le right
  | gt, left, right => right.lt left
  | gte, left, right => right.le left
  | neq, left, right => !left.eq right

inductive SigmaValue
  | null
  | exists (present : Bool)
  | bool (boolean : Bool)
  | number (value : SigmaNumber)
  | compare (op : CompareOp) (value : SigmaNumber)
  | cidr (network : Network)
  | regex (regexp : Text) (ignoreCase : Bool)
  | fieldReference
  | string (value : SigmaString)
  | other (type : Text)

/-- What stands at the leaves of a condition tree. `none` is a node that is `None`. -/
inductive Leaf
  | none
  | field (field : Text) (value : SigmaValue)
  | keyword (value : SigmaValue)
  | other (type : Text)

structure SigmaRule where
  title : Text
  product : Option Text
  service : Option Text
  category : Option Text
  conditions : List (Formula Leaf)

inductive Error
  | unsupportedFeature (message : Text)
  | raised (error : PyError)
  deriving DecidableEq

/-! ## Patterns -/

def isReSpecial (c : ℕ) : Bool :=
  c ∈ codes "()[]\x7b\x7d?*+-|^$\\.&~# \t\n\r" ∨ c = 0x0B ∨ c = 0x0C

def reEscape (c : ℕ) : Text := if isReSpecial c then [0x5C, c] else [c]

def wildcardToRegex (pattern : Text) : Text :=
  pattern.flatMap fun c =>
    if c = 0x2A then codes ".*" else if c = 0x3F then codes "." else reEscape c

/-! ## Values of an event -/

section Evaluate

variable (py : Interpreter)

def str (value : PyValue) : Text := pyStr py.isPrintable value

def coerceBool : PyValue → Option Bool
  | .bool b => some b
  | .str s =>
    let lowered := lower py.toUnicode (strip s)
    if lowered = codes "true" ∨ lowered = codes "yes" then some true
    else if lowered = codes "false" ∨ lowered = codes "no" then some false
    else Option.none
  | _ => Option.none

def coerceNumber : PyValue → Except Error (Option Double)
  | .int n =>
    match floatOfInt n with
    | .ok d => .ok (some d)
    | .error error => .error (.raised error)
  | .float f => .ok (some (doubleOfFloat f))
  | .str s => .ok (floatOfText py.toUnicode (strip s))
  | _ => .ok Option.none

def compare (op : CompareOp) (value : SigmaNumber) (actual : PyValue) : Except Error Bool := do
  match ← coerceNumber py actual with
  | Option.none => return false
  | some left => return op.eval left value.toFloat

def matchCidr (network : Network) : PyValue → Bool
  | .str s =>
    match ipAddress (strip s) with
    | some address => network.contains address
    | Option.none => false
  | _ => false

def matchRegex (regexp : Text) (ignoreCase : Bool) (actual : PyValue) : Bool :=
  match actual with
  | .none => false
  | actual => py.search regexp ignoreCase (str py actual)

def matchString (value : SigmaString) (actual : PyValue) : Bool :=
  match actual with
  | .none => false
  | actual =>
    if value.containsSpecial then
      py.fullmatch (wildcardToRegex (value.str py)) (!value.cased) (str py actual)
    else if value.cased then str py actual = value.str py
    else lower py.toUnicode (str py actual) = lower py.toUnicode (value.str py)

def occursIn (pattern text : Text) : Bool := text.tails.any pattern.isPrefixOf

def containsString (value : SigmaString) (candidate : PyValue) : Bool :=
  if value.containsSpecial then
    py.search (wildcardToRegex (value.str py)) (!value.cased) (str py candidate)
  else if value.cased then occursIn (value.str py) (str py candidate)
  else occursIn (lower py.toUnicode (value.str py)) (lower py.toUnicode (str py candidate))

def isNone : PyValue → Bool
  | .none => true
  | _ => false

def valueMatches (value : SigmaValue) (actual : PyValue) : Except Error Bool :=
  match value with
  | .null => .ok (isNone actual)
  | .exists present => .ok ((!isNone actual) = present)
  | .bool boolean => .ok (coerceBool py actual = some boolean)
  | .number value => do
    return (← coerceNumber py actual).any fun d => d.eq (.finite value.number)
  | .compare op value => compare py op value actual
  | .cidr network => .ok (matchCidr network actual)
  | .regex regexp ignoreCase => .ok (matchRegex py regexp ignoreCase actual)
  | .fieldReference =>
    .error (.unsupportedFeature (codes "field-reference comparisons are not supported"))
  | .string value => .ok (matchString py value actual)
  | .other type => .error (.unsupportedFeature (codes "unsupported value type: " ++ type))

mutual

def scalars : PyValue → List PyValue
  | .list items => scalarsOfItems items
  | .dict items => scalarsOfPairs items
  | scalar => [scalar]

def scalarsOfItems : List PyValue → List PyValue
  | [] => []
  | item :: items => scalars item ++ scalarsOfItems items

def scalarsOfPairs : List (Text × PyValue) → List PyValue
  | [] => []
  | (_, item) :: items => scalars item ++ scalarsOfPairs items

end

def keywordMatches (value : SigmaValue) (candidate : PyValue) : Except Error Bool :=
  match value with
  | .string value => .ok (containsString py value candidate)
  | value => valueMatches py value candidate

/-- The loop of `_eval_keyword`, which passes over `None`. -/
def anyCandidate (value : SigmaValue) : List PyValue → Except Error Bool
  | [] => .ok false
  | candidate :: candidates => do
    if isNone candidate then anyCandidate value candidates
    else if ← keywordMatches py value candidate then return true
    else anyCandidate value candidates

def evalKeyword (event : Event) (value : SigmaValue) : Except Error Bool :=
  anyCandidate py value (scalars (.dict event))

/-- A node of `_eval_condition` other than a conjunction, a disjunction or a negation, on
which `Formula.eval` is `_eval_condition`. -/
def evalLeaf (event : Event) : Leaf → Except Error Bool
  | .none => .ok false
  | .field field value => valueMatches py value (lookupField event field)
  | .keyword value => evalKeyword py event value
  | .other type => .error (.unsupportedFeature (codes "unsupported condition node: " ++ type))

end Evaluate

/-! ## Rules -/

def routes (event : Event) (field : String) (expected : Option Text) : Bool :=
  match expected, event.lookup (codes field) with
  | some expected, some (.str s) => s = expected
  | some _, some _ => false
  | _, _ => true

def logsourceMatches (rule : SigmaRule) (event : Event) : Bool :=
  routes event "product" rule.product && routes event "service" rule.service &&
    routes event "category" rule.category

/-- `match`. -/
def matchRule (py : Interpreter) (rule : SigmaRule) (event : Event) : Except Error Bool :=
  if !logsourceMatches rule event then .ok false
  else if rule.conditions.isEmpty then
    .error (.unsupportedFeature (codes "rule '" ++ (rule.title ++ codes "' has no condition")))
  else evalAny (evalLeaf py event) rule.conditions

/-! ## What is not supported -/

def SigmaValue.Unsupported : SigmaValue → Prop
  | fieldReference | other _ => True
  | _ => False

def Leaf.Unsupported : Leaf → Prop
  | none => False
  | field _ value | keyword value => value.Unsupported
  | other _ => True

/-- A keyword is only looked at on an event with a value that is not `None`. -/
def Leaf.Raises (event : Event) : Leaf → Prop
  | keyword value => value.Unsupported ∧ ∃ candidate ∈ scalars (.dict event), isNone candidate = false
  | leaf => leaf.Unsupported

def Error.IsUnsupported : Error → Prop
  | unsupportedFeature _ => True
  | raised _ => False

section Loud

variable {py : Interpreter} {event : Event}

theorem coerceNumber_not_unsupported {actual : PyValue} {e : Error}
    (h : coerceNumber py actual = .error e) : ¬ e.IsUnsupported := by
  cases actual with
  | int n =>
    rw [coerceNumber] at h
    split at h
    · cases h
    · cases h
      exact id
  | none | bool _ | float _ | str _ | list _ | dict _ => cases h

theorem valueMatches_error {value : SigmaValue} {actual : PyValue} {e : Error}
    (h : valueMatches py value actual = .error e) : e.IsUnsupported ↔ value.Unsupported := by
  cases value with
  | null | «exists» _ | bool _ | cidr _ | regex _ _ | string _ => cases h
  | fieldReference | other _ =>
    cases h
    exact Iff.rfl
  | number value | compare op value =>
    refine iff_of_false ?_ id
    cases number : coerceNumber py actual with
    | error e' =>
      simp only [valueMatches, compare, number] at h
      obtain rfl : e' = e := Except.error.inj h
      exact coerceNumber_not_unsupported number
    | ok left =>
      simp only [valueMatches, compare, number] at h
      cases left <;> cases h

theorem valueMatches_unsupported {value : SigmaValue} (unsupported : value.Unsupported)
    (actual : PyValue) : ∃ e, valueMatches py value actual = .error e := by
  cases value with
  | fieldReference | other _ => exact ⟨_, rfl⟩
  | _ => exact unsupported.elim

theorem keywordMatches_of_not_string {value : SigmaValue} (h : ∀ s, value ≠ .string s)
    (candidate : PyValue) : keywordMatches py value candidate = valueMatches py value candidate := by
  cases value with
  | string s => exact absurd rfl (h s)
  | _ => rfl

def candidates (event : Event) : List PyValue :=
  (scalars (.dict event)).filter fun candidate => !isNone candidate

theorem evalKeyword_eq_any (value : SigmaValue) :
    evalKeyword py event value =
      (Formula.any ((candidates event).map .leaf)).eval (keywordMatches py value) := by
  rw [evalKeyword, candidates, Formula.eval]
  generalize scalars (.dict event) = values
  induction values with
  | nil => rfl
  | cons candidate values ih =>
    rw [anyCandidate, ih]
    cases skipped : isNone candidate with
    | true => simp [skipped]
    | false => simp [skipped, evalAny, Formula.eval]

theorem evalKeyword_error {value : SigmaValue} {e : Error}
    (h : evalKeyword py event value = .error e) : e.IsUnsupported ↔ value.Unsupported := by
  rw [evalKeyword_eq_any] at h
  obtain ⟨candidate, -, fails⟩ := reaches_of_eval h
  cases value with
  | string s => cases fails
  | _ =>
    rw [keywordMatches_of_not_string (by simp)] at fails
    exact valueMatches_error fails

theorem evalKeyword_unsupported {value : SigmaValue} (unsupported : value.Unsupported) :
    (∃ e, evalKeyword py event value = .error e) ↔
      ∃ candidate ∈ scalars (.dict event), isNone candidate = false := by
  have present : (∃ candidate ∈ scalars (.dict event), isNone candidate = false) ↔
      ∃ candidate, candidate ∈ candidates event := by
    simp [candidates]
  rw [evalKeyword_eq_any, present]
  cases candidates event with
  | nil => simp [Formula.eval, evalAny]
  | cons candidate rest =>
    obtain ⟨e, fails⟩ : ∃ e, keywordMatches py value candidate = .error e := by
      rw [keywordMatches_of_not_string (by rintro s rfl; exact unsupported)]
      exact valueMatches_unsupported unsupported candidate
    have first : Reaches (keywordMatches py value)
        (.any ((candidate :: rest).map .leaf)) candidate := .any_cons (.leaf candidate)
    exact iff_of_true ⟨e, eval_of_reaches first fails⟩ ⟨candidate, List.mem_cons_self⟩

theorem evalLeaf_error {leaf : Leaf} {e : Error} (h : evalLeaf py event leaf = .error e) :
    e.IsUnsupported ↔ leaf.Unsupported := by
  cases leaf with
  | none => cases h
  | field field value => exact valueMatches_error h
  | keyword value => exact evalKeyword_error h
  | other type =>
    cases h
    exact Iff.rfl

theorem evalLeaf_raises_iff (py : Interpreter) (leaf : Leaf) :
    (∃ e, evalLeaf py event leaf = .error e ∧ e.IsUnsupported) ↔ leaf.Raises event := by
  constructor
  · intro ⟨e, fails, unsupported⟩
    have kind := (evalLeaf_error fails).mp unsupported
    cases leaf with
    | keyword value => exact ⟨kind, (evalKeyword_unsupported kind).mp ⟨e, fails⟩⟩
    | none | field _ _ | other _ => exact kind
  · intro raises
    have ⟨fails, kind⟩ : (∃ e, evalLeaf py event leaf = .error e) ∧ leaf.Unsupported := by
      cases leaf with
      | none => exact raises.elim
      | field field value => exact ⟨valueMatches_unsupported raises _, raises⟩
      | keyword value => exact ⟨(evalKeyword_unsupported raises.1).mpr raises.2, raises.1⟩
      | other type => exact ⟨⟨_, rfl⟩, trivial⟩
    obtain ⟨e, fails⟩ := fails
    exact ⟨e, fails, (evalLeaf_error fails).mpr kind⟩

/-- The matcher raises its own error exactly when its evaluation, from left to right,
comes to a leaf that it does not support. -/
theorem matchRule_unsupported_iff {rule : SigmaRule} (admitted : logsourceMatches rule event = true) :
    (∃ e, matchRule py rule event = .error e ∧ e.IsUnsupported) ↔
      rule.conditions = [] ∨
        ∃ leaf, Reaches (evalLeaf py event) (.any rule.conditions) leaf ∧ leaf.Raises event := by
  rw [matchRule, admitted]
  cases conditions : rule.conditions with
  | nil => exact iff_of_true ⟨_, rfl, trivial⟩ (.inl rfl)
  | cons condition others =>
    have evaluates : evalAny (evalLeaf py event) (condition :: others) =
        (Formula.any (condition :: others)).eval (evalLeaf py event) := by rw [Formula.eval]
    simp only [Bool.not_true, Bool.false_eq_true, if_false, List.isEmpty_cons, evaluates,
      eval_eq_error_iff, ← evalLeaf_raises_iff py, reduceCtorEq, false_or]
    constructor
    · rintro ⟨e, ⟨leaf, reached, fails⟩, kind⟩
      exact ⟨leaf, reached, e, fails, kind⟩
    · rintro ⟨leaf, reached, e, fails, kind⟩
      exact ⟨e, ⟨leaf, reached, fails⟩, kind⟩

end Loud

/-! A destination that is compared with another field, alone and behind a test that
settles the condition. -/

def escapeWildcards (text : Text) : Text :=
  text.flatMap fun c => if c = 0x2A ∨ c = 0x3F then [0x5C, c] else [c]

theorem escapeWildcards_eq (text : Text) (verbatim : isVerbatim text = true) :
    escapeWildcards text = text := by
  have each : ∀ c ∈ text, (if c = 0x2A ∨ c = 0x3F then [0x5C, c] else [c]) = [c] := by
    intro c mem
    obtain ⟨star, mark, -⟩ := of_decide_eq_true (List.all_eq_true.mp verbatim c mem)
    rw [if_neg (not_or.mpr ⟨star, mark⟩)]
  rw [escapeWildcards, List.flatMap_congr each, List.flatMap_singleton']

def plainPatterns : Interpreter where
  toUnicode := noTables
  search pattern _ text := occursIn pattern text
  fullmatch pattern _ text := pattern = text
  plain := escapeWildcards
  plain_eq := escapeWildcards_eq

def hosts : Event :=
  [(codes "src", .str (codes "10.0.0.1")), (codes "dst", .str (codes "10.0.0.1"))]

def sameHost : Leaf := .field (codes "dst") .fieldReference

def hostRule (condition : Formula Leaf) : SigmaRule :=
  ⟨codes "fieldref", some (codes "test"), none, none, [condition]⟩

theorem matchRule_unsupported_reference :
    ∃ e, matchRule plainPatterns (hostRule (.leaf sameHost)) hosts = .error e ∧ e.IsUnsupported :=
  (matchRule_unsupported_iff rfl).mpr (.inr ⟨sameHost, .any_cons (.leaf sameHost), trivial⟩)

/-- The reference is neither evaluated nor refused: the source that exists settles the
condition as true, the source that does not as false. -/
theorem matchRule_skips_reference :
    let source (present : Bool) : Formula Leaf := .leaf (.field (codes "src") (.exists present))
    (Formula.any [source true, .leaf sameHost]).Has sameHost ∧ sameHost.Unsupported ∧
      logsourceMatches (hostRule (.any [source true, .leaf sameHost])) hosts = true ∧
      matchRule plainPatterns (hostRule (.any [source true, .leaf sameHost])) hosts = .ok true ∧
      matchRule plainPatterns (hostRule (.all [source false, .leaf sameHost])) hosts = .ok false := by
  refine ⟨.any (List.mem_cons_of_mem _ List.mem_cons_self) (.leaf sameHost), trivial, rfl, ?_, ?_⟩
  · rfl
  · rfl

end OtDetection.Matcher
