import OtDetection.Steps
import OtDetection.JsonDumps
import OtDetection.PyNumber

/-! The behaviour baseline: what `build` learns from contract events and what the three
deviation rules make of an event. The builder leaves out what is falsy, the evaluator
only what is `None`; they part on the empty text. -/

namespace OtDetection.BehaviourBaseline
open PyText FieldLookup PyNumber JsonText JsonDumps ExceptSteps

/-! ## Contract events -/

/-- A text as a reader of UTF-8 or of JSON yields it. -/
structure IsText (s : Text) : Prop where
  inRange : InRange s
  joined : IsJoined s

/-- The fields of a telemetry event. The routing fields are there and the addresses are
texts if they are; the contract leaves the others to the sensor. -/
structure ContractEvent where
  fields : Event
  product : Text
  service : Text
  srcIp : Option Text
  dstIp : Option Text
  product_eq : fields.lookup (codes "product") = some (.str product)
  service_eq : fields.lookup (codes "service") = some (.str service)
  srcIp_eq : fields.lookup (codes "src_ip") = srcIp.map .str
  dstIp_eq : fields.lookup (codes "dst_ip") = dstIp.map .str
  service_text : IsText service
  srcIp_text : ∀ src ∈ srcIp, IsText src
  dstIp_text : ∀ dst ∈ dstIp, IsText dst

/-- `ot-behaviour.json`, valid by its schema. -/
structure Baseline where
  generatedFrom : List Text
  assets : List Text
  pairs : List (Text × Text)
  functions : List (Text × List ℤ)
  services : List Text
  deriving DecidableEq

/-! ## Learning -/

def otNdr : Text := codes "ot_ndr"

structure Learned where
  assets : List Text
  pairs : List (Text × Text)
  functions : List (Text × List ℤ)
  services : List Text

def addCode (functions : List (Text × List ℤ)) (service : Text) (code : ℤ) :
    List (Text × List ℤ) :=
  match functions with
  | [] => [(service, [code])]
  | (name, known) :: rest =>
    if name = service then (name, known.insert code) :: rest
    else (name, known) :: addCode rest service code

def present (address : Option Text) : Option Text := address.filter (· ≠ [])

section Build

variable (unicode : Unicode)

def learnFunction (functions : List (Text × List ℤ)) (service : Text) (code : PyValue) :
    Except PyError (List (Text × List ℤ)) :=
  match code with
  | .none => .ok functions
  | code => if service = [] then .ok functions
    else (intOf unicode code).map (addCode functions service)

def learnPair (pairs : List (Text × Text)) : Option Text → Option Text → List (Text × Text)
  | some src, some dst => pairs.insert (src, dst)
  | _, _ => pairs

def Learned.absorb (learned : Learned) (event : ContractEvent)
    (functions : List (Text × List ℤ)) : Learned where
  assets := ((present event.srcIp).toList ++ (present event.dstIp).toList).foldl
    (fun assets address => assets.insert address) learned.assets
  pairs := learnPair learned.pairs (present event.srcIp) (present event.dstIp)
  functions := functions
  services := if event.service = [] then learned.services
    else learned.services.insert event.service

def learn (learned : Learned) (event : ContractEvent) : Except PyError Learned :=
  if event.product ≠ otNdr then .ok learned
  else (learnFunction unicode learned.functions event.service
    (eventGet event.fields "function_code")).map (learned.absorb event)

def sortPairs (pairs : List (Text × Text)) : List (Text × Text) :=
  pairs.mergeSort fun a b => a.1 < b.1 ∨ a.1 = b.1 ∧ a.2 ≤ b.2

def sortCodes (known : List ℤ) : List ℤ := known.mergeSort fun a b => a ≤ b

def sortFunctions (functions : List (Text × List ℤ)) : List (Text × List ℤ) :=
  functions.mergeSort fun a b => a.1 ≤ b.1

def Learned.baseline (learned : Learned) (generatedFrom : List Text) : Baseline where
  generatedFrom := sortTexts generatedFrom
  assets := sortTexts learned.assets
  pairs := sortPairs learned.pairs
  functions := (sortFunctions learned.functions).map fun entry => (entry.1, sortCodes entry.2)
  services := sortTexts learned.services

def build (events : List ContractEvent) (generatedFrom : List Text) : Except PyError Baseline := do
  let learned ← events.foldlM (learn unicode) ⟨[], [], [], []⟩
  return learned.baseline generatedFrom

end Build

/-! ## Rules -/

/-- The deviation that a rule names. -/
inductive BaselineType
  | newAsset (field : Text)
  | newPair
  | newFunctionCode
  | other (type : PyValue)

structure BaselineConfig where
  service : Option Text
  type : BaselineType

/-- A rule without a baseline block has none. -/
structure BaselineRule where
  title : PyValue
  config : Option BaselineConfig

inductive Error
  | unsupportedBaseline (message : Text)
  | raised (error : PyError)
  deriving DecidableEq

section Evaluate

variable (unicode : Unicode)

/-- A value that is `None` is no asset, one that is no text is an unknown one. -/
def newAsset (baseline : Baseline) : PyValue → Bool
  | .none => false
  | .str s => s ∉ baseline.assets
  | _ => true

def newPair (baseline : Baseline) (src dst : PyValue) : Bool :=
  if !truthy src || !truthy dst then false
  else match src, dst with
  | .str src, .str dst => (src, dst) ∉ baseline.pairs
  | _, _ => true

/-- `functions.get(service, [])`, which refuses what is unhashable. -/
def knownCodes (baseline : Baseline) : PyValue → Except Error (List ℤ)
  | .str service => .ok ((baseline.functions.lookup service).getD [])
  | .list _ | .dict _ => .error (.raised .typeError)
  | _ => .ok []

def newFunctionCode (baseline : Baseline) (service code : PyValue) : Except Error Bool :=
  match service with
  | .none => .ok false
  | service =>
    match intOf unicode code with
    | .error .overflowError => .error (.raised .overflowError)
    | .error _ => .ok false
    | .ok code => (knownCodes baseline service).map fun known => code ∉ known

def filtered (service : Option Text) (event : Event) : Bool :=
  match service, eventGet event "service" with
  | none, _ => false
  | some service, .str s => s ≠ service
  | some _, _ => true

def matchBaseline (rule : BaselineRule) (event : Event) (baseline : Baseline) : Except Error Bool :=
  match rule.config with
  | none => .error (.unsupportedBaseline (codes "rule '" ++
      (pyStr unicode.isPrintable rule.title ++ codes "' has no baseline block")))
  | some config =>
    if filtered config.service event then .ok false
    else match config.type with
    | .newAsset field => .ok (newAsset baseline ((event.lookup field).getD .none))
    | .newPair => .ok (newPair baseline (eventGet event "src_ip") (eventGet event "dst_ip"))
    | .newFunctionCode =>
      newFunctionCode unicode baseline (eventGet event "service") (eventGet event "function_code")
    | .other type => .error (.unsupportedBaseline
        (codes "unsupported baseline type: " ++ pyRepr unicode.isPrintable type))

end Evaluate

/-! ## The file -/

def textsDoc (texts : List Text) : Doc := .array (texts.map .string)

def pairDoc (pair : Text × Text) : Doc := .array [.string pair.1, .string pair.2]

def codesDoc (known : List ℤ) : Doc := .array (known.map .int)

def Baseline.doc (baseline : Baseline) : Doc := .object [
  (codes "schema_version", .int 1),
  (codes "generated_from", textsDoc baseline.generatedFrom),
  (codes "assets", textsDoc baseline.assets),
  (codes "pairs", .array (baseline.pairs.map pairDoc)),
  (codes "functions", .object (baseline.functions.map fun entry => (entry.1, codesDoc entry.2))),
  (codes "services", textsDoc baseline.services)]

def readText : Json → Option Text
  | .string s => some s
  | _ => none

def readArray {α : Type} (item : Json → Option α) : Json → Option (List α)
  | .array items => items.mapM item
  | _ => none

def readPair : Json → Option (Text × Text)
  | .array [src, dst] => do
    let src ← readText src
    let dst ← readText dst
    return (src, dst)
  | _ => none

def readCode : Json → Option ℤ
  | .number q => if q.den = 1 then some q.num else none
  | _ => none

def readFunctions : Json → Option (List (Text × List ℤ))
  | .object members => members.mapM fun member =>
    (readArray readCode member.2).map fun known => (member.1, known)
  | _ => none

def memberOf (name : String) : Json → Option Json
  | .object members => members.lookup (codes name)
  | _ => none

def ofJson (json : Json) : Option Baseline := do
  let generatedFrom ← (memberOf "generated_from" json).bind (readArray readText)
  let assets ← (memberOf "assets" json).bind (readArray readText)
  let pairs ← (memberOf "pairs" json).bind (readArray readPair)
  let functions ← (memberOf "functions" json).bind readFunctions
  let services ← (memberOf "services" json).bind (readArray readText)
  return ⟨generatedFrom, assets, pairs, functions, services⟩

/-- The baseline that `load_baseline` reads from the file that `main` writes. -/
def reload (baseline : Baseline) : Option Baseline :=
  (loads (asChars (dumps baseline.doc ++ [0x0A]))).bind ofJson

/-- Every text of a baseline is one that a reader yields. -/
structure IsReadable (baseline : Baseline) : Prop where
  generatedFrom : ∀ s ∈ baseline.generatedFrom, IsText s
  assets : ∀ s ∈ baseline.assets, IsText s
  pairs : ∀ pair ∈ baseline.pairs, IsText pair.1 ∧ IsText pair.2
  functions : ∀ entry ∈ baseline.functions, IsText entry.1
  services : ∀ s ∈ baseline.services, IsText s

theorem mapM_map_eq_some {α β : Type} {f : α → β} {g : β → Option α} {items : List α}
    (h : ∀ item ∈ items, g (f item) = some item) : (items.map f).mapM g = some items := by
  induction items with
  | nil => rfl
  | cons item items ih =>
    rw [List.map_cons, List.mapM_cons, h item List.mem_cons_self,
      ih fun other mem => h other (List.mem_cons_of_mem item mem)]
    rfl

theorem readArray_textsDoc {texts : List Text} (h : ∀ s ∈ texts, IsText s) :
    readArray readText (textsDoc texts).json = some texts := by
  rw [textsDoc, Doc.json, jsonItems_map]
  refine mapM_map_eq_some fun s mem => ?_
  rw [Doc.json, rejoin_eq_self (h s mem).joined]
  rfl

theorem readArray_codesDoc (known : List ℤ) :
    readArray readCode (codesDoc known).json = some known := by
  rw [codesDoc, Doc.json, jsonItems_map]
  exact mapM_map_eq_some fun code _ => rfl

theorem readPair_pairDoc {pair : Text × Text} (h : IsText pair.1 ∧ IsText pair.2) :
    readPair (pairDoc pair).json = some pair := by
  simp only [pairDoc, Doc.json, jsonItems, rejoin_eq_self h.1.joined, rejoin_eq_self h.2.joined]
  rfl

theorem ofJson_doc {baseline : Baseline} (h : IsReadable baseline) :
    ofJson baseline.doc.json = some baseline := by
  have pairs : readArray readPair (Doc.array (baseline.pairs.map pairDoc)).json =
      some baseline.pairs := by
    rw [Doc.json, jsonItems_map]
    exact mapM_map_eq_some fun pair mem => readPair_pairDoc (h.pairs pair mem)
  have functions : readFunctions
      (Doc.object (baseline.functions.map fun entry => (entry.1, codesDoc entry.2))).json =
      some baseline.functions := by
    rw [Doc.json, jsonMembers_map]
    refine mapM_map_eq_some fun entry mem => ?_
    rw [readArray_codesDoc, rejoin_eq_self (h.functions entry mem).joined]
    rfl
  have member₁ : memberOf "generated_from" baseline.doc.json =
      some (textsDoc baseline.generatedFrom).json := rfl
  have member₂ : memberOf "assets" baseline.doc.json = some (textsDoc baseline.assets).json := rfl
  have member₃ : memberOf "pairs" baseline.doc.json =
      some (Doc.array (baseline.pairs.map pairDoc)).json := rfl
  have member₄ : memberOf "functions" baseline.doc.json = some (Doc.object
      (baseline.functions.map fun entry => (entry.1, codesDoc entry.2))).json := rfl
  have member₅ : memberOf "services" baseline.doc.json = some (textsDoc baseline.services).json := rfl
  simp only [ofJson, member₁, member₂, member₃, member₄, member₅, Option.bind_some,
    readArray_textsDoc h.generatedFrom, readArray_textsDoc h.assets, pairs, functions,
    readArray_textsDoc h.services, Option.bind_eq_bind, Option.pure_def]

theorem valid_textsDoc {texts : List Text} (h : ∀ s ∈ texts, IsText s) : (textsDoc texts).Valid :=
  validItems_map fun s mem => (h s mem).inRange

theorem valid_doc {baseline : Baseline} (h : IsReadable baseline) : baseline.doc.Valid := by
  have names : ∀ name ∈ ["schema_version", "generated_from", "assets", "pairs", "functions",
      "services"], InRange (codes name) := by decide
  simp only [List.forall_mem_cons] at names
  obtain ⟨version, generatedFrom, assets, pairs, functions, services, -⟩ := names
  have pairDocs : validItems (baseline.pairs.map pairDoc) := validItems_map fun pair mem =>
    ⟨(h.pairs pair mem).1.inRange, (h.pairs pair mem).2.inRange, trivial⟩
  have functionDocs : validMembers
      (baseline.functions.map fun entry => (entry.1, codesDoc entry.2)) :=
    validMembers_map fun entry mem =>
      ⟨(h.functions entry mem).inRange, validItems_map fun _ _ => trivial⟩
  exact ⟨⟨version, trivial⟩, ⟨generatedFrom, valid_textsDoc h.generatedFrom⟩,
    ⟨assets, valid_textsDoc h.assets⟩, ⟨pairs, pairDocs⟩, ⟨functions, functionDocs⟩,
    ⟨services, valid_textsDoc h.services⟩, trivial⟩

theorem reload_eq_some {baseline : Baseline} (h : IsReadable baseline) :
    reload baseline = some baseline := by
  rw [reload, loads_dumps (valid_doc h), Option.bind_some, ofJson_doc h]

/-! ## What a baseline has learned -/

def codesOf (functions : List (Text × List ℤ)) (service : Text) : List ℤ :=
  (functions.lookup service).getD []

/-- Everything that an event of the network brings is known. -/
structure Knows (unicode : Unicode) (learned : Learned) (event : ContractEvent) : Prop where
  src : ∀ src ∈ present event.srcIp, src ∈ learned.assets
  dst : ∀ dst ∈ present event.dstIp, dst ∈ learned.assets
  pair : ∀ src ∈ present event.srcIp, ∀ dst ∈ present event.dstIp, (src, dst) ∈ learned.pairs
  code : event.service ≠ [] → ∀ code, eventGet event.fields "function_code" = code → code ≠ .none →
    ∃ n, intOf unicode code = .ok n ∧ n ∈ codesOf learned.functions event.service

structure Grows (learned next : Learned) : Prop where
  assets : learned.assets ⊆ next.assets
  pairs : learned.pairs ⊆ next.pairs
  codes : ∀ service, codesOf learned.functions service ⊆ codesOf next.functions service

/-- The sets hold texts of the events, none of them empty in the place of an asset or of
a service with a function, and such a service has one entry. -/
structure IsLearned (learned : Learned) : Prop where
  assets : ∀ s ∈ learned.assets, IsText s ∧ s ≠ []
  pairs : ∀ pair ∈ learned.pairs, IsText pair.1 ∧ IsText pair.2
  functions : ∀ entry ∈ learned.functions, IsText entry.1 ∧ entry.1 ≠ []
  services : ∀ s ∈ learned.services, IsText s
  keys : (learned.functions.map Prod.fst).Nodup

theorem codesOf_cons (first : Text) (known : List ℤ) (rest : List (Text × List ℤ)) (name : Text) :
    codesOf ((first, known) :: rest) name = if name = first then known else codesOf rest name := by
  rw [codesOf, List.lookup_cons]
  by_cases same : name = first
  · simp [same]
  · have different : (name == first) = false := by simpa using same
    rw [different, if_neg same]
    rfl

theorem codesOf_addCode (functions : List (Text × List ℤ)) (service name : Text) (code : ℤ) :
    codesOf (addCode functions service code) name =
      if name = service then (codesOf functions service).insert code else codesOf functions name := by
  induction functions with
  | nil =>
    rw [addCode, codesOf_cons]
    rfl
  | cons entry functions ih =>
    obtain ⟨first, known⟩ := entry
    by_cases here : first = service
    · subst here
      rw [addCode, if_pos rfl]
      simp only [codesOf_cons, if_true]
      split <;> rfl
    · rw [addCode, if_neg here, codesOf_cons, ih]
      simp only [codesOf_cons, Ne.symm here, if_false]
      by_cases there : name = first
      · subst there
        simp [here]
      · simp only [there, if_false]

theorem keys_addCode (functions : List (Text × List ℤ)) (service : Text) (code : ℤ) :
    (addCode functions service code).map Prod.fst =
      if service ∈ functions.map Prod.fst then functions.map Prod.fst
      else functions.map Prod.fst ++ [service] := by
  induction functions with
  | nil => rfl
  | cons entry functions ih =>
    obtain ⟨first, known⟩ := entry
    by_cases here : first = service
    · simp [addCode, here]
    · by_cases later : service ∈ functions.map Prod.fst
      · rw [if_pos later] at ih
        simp [addCode, here, ih, Ne.symm here, later]
      · rw [if_neg later] at ih
        simp [addCode, here, ih, Ne.symm here, later]

variable {unicode : Unicode}

theorem mem_foldl_insert {addresses assets : List Text} {s : Text} :
    s ∈ addresses.foldl (fun assets address => assets.insert address) assets ↔
      s ∈ addresses ∨ s ∈ assets := by
  induction addresses generalizing assets with
  | nil => simp
  | cons address addresses ih =>
    rw [List.foldl_cons, ih, List.mem_insert_iff, List.mem_cons]
    tauto

theorem learnFunction_ok {functions next : List (Text × List ℤ)} {service : Text} {code : PyValue}
    (h : learnFunction unicode functions service code = .ok next) :
    ((code = .none ∨ service = []) ∧ next = functions) ∨
      (service ≠ [] ∧ ∃ n, intOf unicode code = .ok n ∧ next = addCode functions service n) := by
  by_cases none : code = .none
  · subst none
    exact .inl ⟨.inl rfl, (Except.ok.inj h).symm⟩
  · have rest : (if service = [] then .ok functions
        else (intOf unicode code).map (addCode functions service)) = .ok next := by
      cases code with
      | none => exact absurd rfl none
      | _ => exact h
    by_cases empty : service = []
    · rw [if_pos empty] at rest
      exact .inl ⟨.inr empty, (Except.ok.inj rest).symm⟩
    · rw [if_neg empty] at rest
      obtain ⟨n, value, added⟩ := map_eq_ok_iff.mp rest
      exact .inr ⟨empty, n, value, added.symm⟩

theorem learn_ok {learned next : Learned} {event : ContractEvent}
    (h : learn unicode learned event = .ok next) :
    (event.product ≠ otNdr ∧ next = learned) ∨
      (event.product = otNdr ∧ ∃ functions, learnFunction unicode learned.functions event.service
        (eventGet event.fields "function_code") = .ok functions ∧
          next = learned.absorb event functions) := by
  by_cases ndr : event.product = otNdr
  · rw [learn, if_neg (not_not.mpr ndr)] at h
    obtain ⟨functions, learned_functions, absorbed⟩ := map_eq_ok_iff.mp h
    exact .inr ⟨ndr, functions, learned_functions, absorbed.symm⟩
  · rw [learn, if_pos ndr] at h
    exact .inl ⟨ndr, (Except.ok.inj h).symm⟩

theorem codesOf_learnFunction {functions next : List (Text × List ℤ)} {service : Text}
    {code : PyValue} (h : learnFunction unicode functions service code = .ok next) (name : Text) :
    codesOf functions name ⊆ codesOf next name := by
  rcases learnFunction_ok h with ⟨-, rfl⟩ | ⟨-, n, -, rfl⟩
  · exact fun _ mem => mem
  · rw [codesOf_addCode]
    split_ifs with same
    · rw [same]
      exact fun _ mem => List.mem_insert_of_mem mem
    · exact fun _ mem => mem

theorem learn_grows {learned next : Learned} {event : ContractEvent}
    (h : learn unicode learned event = .ok next) : Grows learned next := by
  rcases learn_ok h with ⟨-, rfl⟩ | ⟨-, functions, learns, rfl⟩
  · exact ⟨fun _ mem => mem, fun _ mem => mem, fun _ _ mem => mem⟩
  · refine ⟨fun s mem => mem_foldl_insert.mpr (.inr mem), fun pair mem => ?_,
      codesOf_learnFunction learns⟩
    unfold Learned.absorb learnPair
    split
    · exact List.mem_insert_of_mem mem
    · exact mem

theorem learn_knows {learned next : Learned} {event : ContractEvent}
    (h : learn unicode learned event = .ok next) (ndr : event.product = otNdr) :
    Knows unicode next event := by
  rcases learn_ok h with ⟨other, -⟩ | ⟨-, functions, learns, rfl⟩
  · exact absurd ndr other
  · refine ⟨fun src mem => ?_, fun dst mem => ?_, fun src hsrc dst hdst => ?_, ?_⟩
    · exact mem_foldl_insert.mpr (.inl (List.mem_append_left _ (Option.mem_toList.mpr mem)))
    · exact mem_foldl_insert.mpr (.inl (List.mem_append_right _ (Option.mem_toList.mpr mem)))
    · have both : (learned.absorb event functions).pairs = learned.pairs.insert (src, dst) := by
        rw [Learned.absorb, Option.mem_def.mp hsrc, Option.mem_def.mp hdst, learnPair]
      rw [both]
      exact List.mem_insert_self
    · rintro service code rfl given
      rcases learnFunction_ok learns with ⟨none | empty, -⟩ | ⟨-, n, value, rfl⟩
      · exact absurd none given
      · exact absurd empty service
      · refine ⟨n, value, ?_⟩
        have known := codesOf_addCode learned.functions event.service event.service n
        rw [if_pos rfl] at known
        rw [Learned.absorb, known]
        exact List.mem_insert_self

theorem Knows.mono {learned next : Learned} {event : ContractEvent}
    (h : Knows unicode learned event) (grows : Grows learned next) : Knows unicode next event where
  src src mem := grows.assets (h.src src mem)
  dst dst mem := grows.assets (h.dst dst mem)
  pair src hsrc dst hdst := grows.pairs (h.pair src hsrc dst hdst)
  code service code same given := by
    obtain ⟨n, value, known⟩ := h.code service code same given
    exact ⟨n, value, grows.codes _ known⟩

theorem keys_learnFunction {functions next : List (Text × List ℤ)} {service : Text}
    {code : PyValue} (h : learnFunction unicode functions service code = .ok next)
    (nodup : (functions.map Prod.fst).Nodup) : (next.map Prod.fst).Nodup := by
  rcases learnFunction_ok h with ⟨-, rfl⟩ | ⟨-, n, -, rfl⟩
  · exact nodup
  · rw [keys_addCode]
    split_ifs with old
    · exact nodup
    · rw [← List.concat_eq_append]
      exact List.Nodup.concat old nodup

theorem texts_learnFunction {functions next : List (Text × List ℤ)} {service : Text}
    {code : PyValue} (h : learnFunction unicode functions service code = .ok next)
    (service_text : IsText service) (texts : ∀ entry ∈ functions, IsText entry.1 ∧ entry.1 ≠ []) :
    ∀ entry ∈ next, IsText entry.1 ∧ entry.1 ≠ [] := by
  rcases learnFunction_ok h with ⟨-, rfl⟩ | ⟨nonempty, n, -, rfl⟩
  · exact texts
  · intro entry mem
    have key : entry.1 ∈ (addCode functions service n).map Prod.fst := List.mem_map_of_mem mem
    have old : ∀ key ∈ functions.map Prod.fst, IsText key ∧ key ≠ [] := by
      intro key inside
      obtain ⟨source, there, rfl⟩ := List.mem_map.mp inside
      exact texts source there
    rw [keys_addCode] at key
    split_ifs at key
    · exact old _ key
    · rcases List.mem_append.mp key with inside | new
      · exact old _ inside
      · rw [List.mem_singleton.mp new]
        exact ⟨service_text, nonempty⟩

theorem mem_present {address : Option Text} {s : Text} :
    s ∈ present address ↔ s ∈ address ∧ s ≠ [] := by
  rw [present, Option.mem_filter_iff]
  simp

theorem IsLearned.step {learned next : Learned} (h : IsLearned learned) {event : ContractEvent}
    (learns : learn unicode learned event = .ok next) : IsLearned next := by
  rcases learn_ok learns with ⟨-, rfl⟩ | ⟨-, functions, codes, rfl⟩
  · exact h
  · have src : ∀ s ∈ present event.srcIp, IsText s ∧ s ≠ [] := fun s mem =>
      ⟨event.srcIp_text s (mem_present.mp mem).1, (mem_present.mp mem).2⟩
    have dst : ∀ s ∈ present event.dstIp, IsText s ∧ s ≠ [] := fun s mem =>
      ⟨event.dstIp_text s (mem_present.mp mem).1, (mem_present.mp mem).2⟩
    refine ⟨fun s mem => ?_, fun pair mem => ?_, ?_, fun s mem => ?_, ?_⟩
    · rcases mem_foldl_insert.mp mem with new | old
      · rcases List.mem_append.mp new with inside | inside
        · exact src s (Option.mem_toList.mp inside)
        · exact dst s (Option.mem_toList.mp inside)
      · exact h.assets s old
    · unfold Learned.absorb learnPair at mem
      split at mem
      · rename_i a b hsrc hdst
        rcases List.mem_insert_iff.mp mem with rfl | old
        · exact ⟨(src a hsrc).1, (dst b hdst).1⟩
        · exact h.pairs pair old
      · exact h.pairs pair mem
    · exact texts_learnFunction codes event.service_text h.functions
    · unfold Learned.absorb at mem
      simp only at mem
      split_ifs at mem
      · exact h.services s mem
      · rcases List.mem_insert_iff.mp mem with rfl | old
        · exact event.service_text
        · exact h.services s old
    · exact keys_learnFunction codes h.keys

theorem run_learn {events : List ContractEvent} {learned next : Learned}
    (h : events.foldlM (learn unicode) learned = .ok next) (start : IsLearned learned) :
    IsLearned next ∧ Grows learned next ∧
      ∀ event ∈ events, event.product = otNdr → Knows unicode next event := by
  induction events generalizing learned with
  | nil =>
    obtain rfl : learned = next := Except.ok.inj h
    exact ⟨start, ⟨fun _ mem => mem, fun _ mem => mem, fun _ _ mem => mem⟩, by simp⟩
  | cons event events ih =>
    obtain ⟨middle, first, rest⟩ := foldlM_cons_eq_ok_iff.mp h
    obtain ⟨sound, grows, known⟩ := ih rest (start.step first)
    have step := learn_grows first
    refine ⟨sound, ⟨fun s mem => grows.assets (step.assets mem),
      fun s mem => grows.pairs (step.pairs mem),
      fun service n mem => grows.codes service (step.codes service mem)⟩, ?_⟩
    exact List.forall_mem_cons.mpr ⟨fun ndr => (learn_knows first ndr).mono grows, known⟩

theorem build_ok {events : List ContractEvent} {generatedFrom : List Text} {baseline : Baseline}
    (h : build unicode events generatedFrom = .ok baseline) :
    ∃ learned, events.foldlM (learn unicode) ⟨[], [], [], []⟩ = .ok learned ∧
      baseline = learned.baseline generatedFrom := by
  obtain ⟨learned, run, made⟩ := bind_eq_ok_iff.mp h
  exact ⟨learned, run, (Except.ok.inj made).symm⟩

theorem isLearned_empty : IsLearned ⟨[], [], [], []⟩ :=
  ⟨by simp, by simp, by simp, by simp, by simp⟩

/-! ## The sorted baseline -/

theorem lookup_of_mem {entries : List (Text × List ℤ)} (nodup : (entries.map Prod.fst).Nodup)
    {entry : Text × List ℤ} (mem : entry ∈ entries) : entries.lookup entry.1 = some entry.2 := by
  induction entries with
  | nil => cases mem
  | cons first entries ih =>
    obtain ⟨fresh, nodup⟩ := List.nodup_cons.mp nodup
    rcases List.mem_cons.mp mem with rfl | later
    · rw [List.lookup_cons, beq_self_eq_true]
    · have other : (entry.1 == first.1) = false := by
        rw [beq_eq_false_iff_ne]
        exact fun same => fresh (same ▸ List.mem_map_of_mem later)
      rw [List.lookup_cons, other]
      exact ih nodup later

theorem keys_baseline {learned : Learned} (h : IsLearned learned) (generatedFrom : List Text) :
    ((learned.baseline generatedFrom).functions.map Prod.fst).Nodup := by
  have keys : (learned.baseline generatedFrom).functions.map Prod.fst =
      (sortFunctions learned.functions).map Prod.fst := by
    rw [Learned.baseline, List.map_map]
    rfl
  rw [keys]
  exact ((List.mergeSort_perm _ _).map Prod.fst).nodup_iff.mpr h.keys

theorem codesOf_baseline {learned : Learned} (h : IsLearned learned) (generatedFrom : List Text)
    {service : Text} {n : ℤ} (mem : n ∈ codesOf learned.functions service) :
    n ∈ codesOf (learned.baseline generatedFrom).functions service := by
  rw [codesOf] at mem
  cases found : learned.functions.lookup service with
  | none =>
    rw [found] at mem
    cases mem
  | some known =>
    rw [found, Option.getD_some] at mem
    have inside : (service, known) ∈ sortFunctions learned.functions :=
      List.mem_mergeSort.mpr (mem_of_lookup found)
    have entry : (service, sortCodes known) ∈ (learned.baseline generatedFrom).functions :=
      List.mem_map.mpr ⟨_, inside, rfl⟩
    rw [codesOf, lookup_of_mem (keys_baseline h generatedFrom) entry, Option.getD_some]
    exact List.mem_mergeSort.mpr mem

theorem isReadable_baseline {learned : Learned} (h : IsLearned learned) {generatedFrom : List Text}
    (paths : ∀ path ∈ generatedFrom, IsText path) :
    IsReadable (learned.baseline generatedFrom) where
  generatedFrom s mem := paths s (mem_sortTexts.mp mem)
  assets s mem := (h.assets s (mem_sortTexts.mp mem)).1
  pairs pair mem := h.pairs pair (List.mem_mergeSort.mp mem)
  functions entry mem := by
    obtain ⟨source, inside, rfl⟩ := List.mem_map.mp mem
    exact (h.functions source (List.mem_mergeSort.mp inside)).1
  services s mem := h.services s (mem_sortTexts.mp mem)

/-! ## Silence on what was learned -/

def BaselineType.OfNetwork : BaselineType → Prop
  | newAsset field => field = codes "src_ip" ∨ field = codes "dst_ip"
  | newPair | newFunctionCode => True
  | other _ => False

/-- Neither a type error nor a value error, which the evaluator catches. -/
def IsNumeric (unicode : Unicode) (code : PyValue) : Prop :=
  intOf unicode code ≠ .error .typeError ∧ intOf unicode code ≠ .error .valueError

/-- A rule on a learned event is silent but for an empty text in the place that the builder
leaves out and the evaluator does not. -/
def Silent (unicode : Unicode) (config : BaselineConfig) (event : ContractEvent) : Prop :=
  (∀ service ∈ config.service, event.service = service) →
    match config.type with
    | .newAsset field => event.fields.lookup field ≠ some (.str [])
    | .newFunctionCode =>
      event.service = [] → ¬ IsNumeric unicode (eventGet event.fields "function_code")
    | _ => True

theorem filtered_eq_false_iff (service : Option Text) (event : ContractEvent) :
    filtered service event.fields = false ↔ ∀ s ∈ service, event.service = s := by
  have given : eventGet event.fields "service" = .str event.service := by
    rw [eventGet, event.service_eq, Option.getD_some]
  unfold filtered
  rw [given]
  cases service with
  | none => simp
  | some service => simp

theorem newAsset_learned {learned : Learned} (h : IsLearned learned) {address : Option Text}
    (known : ∀ s ∈ present address, s ∈ learned.assets) (generatedFrom : List Text) :
    newAsset (learned.baseline generatedFrom) ((address.map PyValue.str).getD .none) = false ↔
      address ≠ some [] := by
  cases address with
  | none => simp [newAsset]
  | some s =>
    have inside : s ∈ (learned.baseline generatedFrom).assets ↔ s ≠ [] :=
      mem_sortTexts.trans
        ⟨fun mem => (h.assets s mem).2, fun nonempty => known s (mem_present.mpr ⟨rfl, nonempty⟩)⟩
    simp [newAsset, inside]

theorem newPair_learned {learned : Learned} {src dst : Option Text}
    (known : ∀ s ∈ present src, ∀ d ∈ present dst, (s, d) ∈ learned.pairs)
    (generatedFrom : List Text) :
    newPair (learned.baseline generatedFrom) ((src.map PyValue.str).getD .none)
      ((dst.map PyValue.str).getD .none) = false := by
  cases src with
  | none => rfl
  | some s =>
    cases dst with
    | none => simp [newPair, truthy]
    | some d =>
      by_cases both : s ≠ [] ∧ d ≠ []
      · have inside : (s, d) ∈ (learned.baseline generatedFrom).pairs :=
          List.mem_mergeSort.mpr
            (known s (mem_present.mpr ⟨rfl, both.1⟩) d (mem_present.mpr ⟨rfl, both.2⟩))
        simp [newPair, truthy, both, inside]
      · have falsy : (!truthy (.str s) || !truthy (.str d)) = true := by
          simp only [truthy, ne_eq, decide_not, Bool.not_not, Bool.or_eq_true, decide_eq_true_eq]
          tauto
        have skipped : newPair (learned.baseline generatedFrom) (.str s) (.str d) = false := by
          rw [newPair, if_pos falsy]
        exact skipped

theorem newFunctionCode_learned {learned : Learned} (h : IsLearned learned)
    {event : ContractEvent} (known : Knows unicode learned event) (generatedFrom : List Text)
    (code : PyValue) (given : eventGet event.fields "function_code" = code) :
    newFunctionCode unicode (learned.baseline generatedFrom) (.str event.service) code = .ok false ↔
      (event.service = [] → ¬ IsNumeric unicode code) := by
  have codes : knownCodes (learned.baseline generatedFrom) (.str event.service) =
      .ok (codesOf (learned.baseline generatedFrom).functions event.service) := rfl
  simp only [newFunctionCode, IsNumeric]
  cases value : intOf unicode code with
  | error e =>
    cases e with
    | typeError | valueError => simp
    | overflowError =>
      have empty : event.service = [] := by
        by_contra service
        have notNone : code ≠ .none := by
          rintro rfl
          cases value
        obtain ⟨n, parsed, -⟩ := known.code service code given notNone
        cases value.symm.trans parsed
      simp [empty]
  | ok n =>
    rw [codes]
    by_cases empty : event.service = []
    · have none : codesOf (learned.baseline generatedFrom).functions event.service = [] := by
        rw [codesOf]
        cases found : (learned.baseline generatedFrom).functions.lookup event.service with
        | none => rfl
        | some codes =>
          obtain ⟨source, there, same⟩ := List.mem_map.mp (mem_of_lookup found)
          have nonempty := (h.functions source (List.mem_mergeSort.mp there)).2
          exact absurd ((congrArg Prod.fst same).trans empty) nonempty
      rw [none]
      simp [empty, Except.map]
    · have notNone : code ≠ .none := by
        rintro rfl
        cases value
      obtain ⟨m, parsed, mem⟩ := known.code empty code given notNone
      obtain rfl : n = m := Except.ok.inj (value.symm.trans parsed)
      simp [empty, Except.map, codesOf_baseline h generatedFrom mem]

theorem matchBaseline_learned {learned : Learned} (h : IsLearned learned)
    {event : ContractEvent} (known : Knows unicode learned event) {config : BaselineConfig}
    (network : config.type.OfNetwork) (title : PyValue) (generatedFrom : List Text) :
    matchBaseline unicode ⟨title, some config⟩ event.fields (learned.baseline generatedFrom) =
      .ok false ↔ Silent unicode config event := by
  have applies := filtered_eq_false_iff config.service event
  unfold matchBaseline Silent
  rw [← applies]
  cases filter : filtered config.service event.fields with
  | true => simp [filter]
  | false =>
    simp only [filter, Bool.false_eq_true, if_false, forall_const]
    cases type : config.type with
    | other _ =>
      rw [type] at network
      exact network.elim
    | newPair =>
      simp only [eventGet, event.srcIp_eq, event.dstIp_eq, newPair_learned known.pair]
    | newAsset field =>
      rw [type] at network
      simp only [Except.ok.injEq]
      rcases network with rfl | rfl
      · rw [event.srcIp_eq, newAsset_learned h known.src]
        cases event.srcIp <;> simp
      · rw [event.dstIp_eq, newAsset_learned h known.dst]
        cases event.dstIp <;> simp
    | newFunctionCode =>
      have service : eventGet event.fields "service" = .str event.service := by
        rw [eventGet, event.service_eq, Option.getD_some]
      simp only [service]
      exact newFunctionCode_learned h known generatedFrom _ rfl

/-- Exactly when a rule is silent on an event that the baseline was learned from, with the
baseline as it is built and as it is read back from its file. -/
theorem matchBaseline_silent_iff {events : List ContractEvent} {generatedFrom : List Text}
    {baseline : Baseline} (built : build unicode events generatedFrom = .ok baseline)
    (paths : ∀ path ∈ generatedFrom, IsText path) {event : ContractEvent} (mem : event ∈ events)
    (ndr : event.product = otNdr) {config : BaselineConfig} (network : config.type.OfNetwork)
    (title : PyValue) :
    (matchBaseline unicode ⟨title, some config⟩ event.fields baseline = .ok false ∧
      ∃ reloaded, reload baseline = some reloaded ∧
        matchBaseline unicode ⟨title, some config⟩ event.fields reloaded = .ok false) ↔
      Silent unicode config event := by
  obtain ⟨learned, run, rfl⟩ := build_ok built
  obtain ⟨sound, -, known⟩ := run_learn run isLearned_empty
  have silent := matchBaseline_learned sound (known event mem ndr) network title generatedFrom
  rw [reload_eq_some (isReadable_baseline sound paths)]
  simp only [Option.some.injEq, exists_eq_left', silent, and_self]

/-! A read request, and one of a sensor that left its source unset. -/

def readFrom (src : String) : Event :=
  [(codes "product", .str otNdr), (codes "service", .str (codes "modbus")),
    (codes "timestamp", .str (codes "2026-05-01T10:00:00Z")),
    (codes "direction", .str (codes "request")), (codes "function_code", .int 3),
    (codes "src_ip", .str (codes src)),
    (codes "dst_ip", .str (codes "172.21.0.10"))]

theorem isText_of_decide {s : Text} (h : InRange s ∧ IsJoined s) : IsText s := ⟨h.1, h.2⟩

def readEvent (src : String) (h : InRange (codes src) ∧ IsJoined (codes src)) : ContractEvent where
  fields := readFrom src
  product := otNdr
  service := codes "modbus"
  srcIp := some (codes src)
  dstIp := some (codes "172.21.0.10")
  product_eq := rfl
  service_eq := rfl
  srcIp_eq := rfl
  dstIp_eq := rfl
  service_text := isText_of_decide (by decide)
  srcIp_text s mem := Option.some.inj mem ▸ isText_of_decide h
  dstIp_text s mem := Option.some.inj mem ▸ isText_of_decide (by decide)

def read : ContractEvent := readEvent "172.21.0.20" (by decide)

def unset : ContractEvent := readEvent "" (by decide)

def sourceRule : BaselineRule := ⟨.none, some ⟨none, .newAsset (codes "src_ip")⟩⟩

theorem matchBaseline_silent_read :
    ∃ baseline, build noTables [read] [] = .ok baseline ∧
      matchBaseline noTables sourceRule read.fields baseline = .ok false ∧
      ∃ reloaded, reload baseline = some reloaded ∧
        matchBaseline noTables sourceRule read.fields reloaded = .ok false := by
  refine ⟨Learned.baseline ⟨[codes "172.21.0.10", codes "172.21.0.20"],
    [(codes "172.21.0.20", codes "172.21.0.10")], [(codes "modbus", [3])], [codes "modbus"]⟩ [],
    rfl, ?_⟩
  have given : read.fields.lookup (codes "src_ip") = some (.str (codes "172.21.0.20")) := rfl
  have silent : Silent noTables ⟨none, .newAsset (codes "src_ip")⟩ read := fun _ empty => by
    cases given.symm.trans empty
  have network : (BaselineType.newAsset (codes "src_ip")).OfNetwork := .inl rfl
  exact (matchBaseline_silent_iff rfl (by simp) (List.mem_singleton_self read) rfl network
    .none).mpr silent

/-- The sensor's event is in the telemetry the baseline was learned from, and alarms. -/
theorem matchBaseline_alarms_unset :
    ∃ baseline, build noTables [unset] [] = .ok baseline ∧
      matchBaseline noTables sourceRule unset.fields baseline = .ok true := by
  refine ⟨Learned.baseline ⟨[codes "172.21.0.10"], [], [(codes "modbus", [3])],
    [codes "modbus"]⟩ [], rfl, ?_⟩
  have unknown : [] ∉ sortTexts [codes "172.21.0.10"] := by
    rw [mem_sortTexts]
    decide
  exact congrArg Except.ok (decide_eq_true unknown)

end OtDetection.BehaviourBaseline
