import OtDetection.BehaviourBaseline
import Mathlib.Data.List.Lex
import Mathlib.Data.List.Perm.Basic
import Mathlib.Data.Prod.Lex
import Mathlib.Data.Set.Basic

/-! A baseline is a set of facts: the addresses, pairs, services and function codes that
the events of the network state. The builder keeps each fact once and in order, so that
what it builds depends on the set alone, and more facts only silence the rules. -/

namespace OtDetection.BaselineFacts
open PyText FieldLookup PyNumber ExceptSteps BehaviourBaseline

/-! ## Facts -/

inductive Fact
  | asset (address : Text)
  | pair (src dst : Text)
  | service (name : Text)
  | code (service : Text) (code : ℤ)

variable (unicode : Unicode)

/-- The facts that an event of the network states. -/
def brings (event : ContractEvent) : Set Fact :=
  { fact | event.product = otNdr ∧
    match fact with
    | .asset address => address ∈ present event.srcIp ∨ address ∈ present event.dstIp
    | .pair src dst => src ∈ present event.srcIp ∧ dst ∈ present event.dstIp
    | .service name => name = event.service ∧ name ≠ []
    | .code service code => service = event.service ∧ service ≠ [] ∧
      intOf unicode (eventGet event.fields "function_code") = .ok code }

def facts (events : List ContractEvent) : Set Fact :=
  { fact | ∃ event ∈ events, fact ∈ brings unicode event }

theorem facts_append (first second : List ContractEvent) :
    facts unicode (first ++ second) = facts unicode first ∪ facts unicode second := by
  ext fact
  simp only [facts, List.mem_append, Set.mem_ofPred_eq, Set.mem_union]
  constructor
  · rintro ⟨event, before | after, brought⟩
    · exact .inl ⟨event, before, brought⟩
    · exact .inr ⟨event, after, brought⟩
  · rintro (⟨event, before, brought⟩ | ⟨event, after, brought⟩)
    · exact ⟨event, .inl before, brought⟩
    · exact ⟨event, .inr after, brought⟩

/-- Only the events of the network count, and these neither by their number nor by
their order. -/
theorem facts_congr {events other : List ContractEvent}
    (same : ∀ event, event.product = otNdr → (event ∈ events ↔ event ∈ other)) :
    facts unicode events = facts unicode other := by
  ext fact
  constructor
  · rintro ⟨event, mem, brought⟩
    exact ⟨event, (same event brought.1).mp mem, brought⟩
  · rintro ⟨event, mem, brought⟩
    exact ⟨event, (same event brought.1).mpr mem, brought⟩

/-- The sets of the builder hold these facts, each once. -/
structure Represents (learned : Learned) (known : Set Fact) : Prop where
  assets : ∀ address, address ∈ learned.assets ↔ Fact.asset address ∈ known
  pairs : ∀ pair, pair ∈ learned.pairs ↔ Fact.pair pair.1 pair.2 ∈ known
  services : ∀ name, name ∈ learned.services ↔ Fact.service name ∈ known
  codes : ∀ service code,
    code ∈ codesOf learned.functions service ↔ Fact.code service code ∈ known
  distinct : learned.assets.Nodup ∧ learned.pairs.Nodup ∧ learned.services.Nodup
  entries : ∀ entry ∈ learned.functions, entry.2 ≠ [] ∧ entry.2.Nodup
  keys : (learned.functions.map Prod.fst).Nodup

theorem represents_empty : Represents ⟨[], [], [], []⟩ ∅ :=
  ⟨by simp, by simp, by simp, by simp [codesOf], by simp, by simp, by simp⟩

variable {unicode}

theorem nodup_foldl_insert {addresses assets : List Text} (h : assets.Nodup) :
    (addresses.foldl (fun assets address => assets.insert address) assets).Nodup := by
  induction addresses generalizing assets with
  | nil => exact h
  | cons address addresses ih => exact ih h.insert

theorem mem_learnPair {pairs : List (Text × Text)} {src dst : Option Text} {pair : Text × Text} :
    pair ∈ learnPair pairs src dst ↔ pair ∈ pairs ∨ pair.1 ∈ src ∧ pair.2 ∈ dst := by
  cases src with
  | none => simp [learnPair]
  | some a =>
    cases dst with
    | none => simp [learnPair]
    | some b =>
      rw [learnPair, List.mem_insert_iff, Prod.ext_iff, or_comm]
      simp [eq_comm]

theorem entries_addCode {functions : List (Text × List ℤ)} (service : Text) (code : ℤ)
    (h : ∀ entry ∈ functions, entry.2 ≠ [] ∧ entry.2.Nodup) :
    ∀ entry ∈ addCode functions service code, entry.2 ≠ [] ∧ entry.2.Nodup := by
  induction functions with
  | nil => simp [addCode]
  | cons entry functions ih =>
    obtain ⟨here, later⟩ := List.forall_mem_cons.mp h
    rw [addCode]
    split
    · refine List.forall_mem_cons.mpr ⟨⟨?_, here.2.insert⟩, later⟩
      exact List.ne_nil_of_mem (List.mem_insert_self)
    · exact List.forall_mem_cons.mpr ⟨here, ih later⟩

theorem learnFunction_codes {functions next : List (Text × List ℤ)} {service : Text}
    {code : PyValue} (h : learnFunction unicode functions service code = .ok next) (name : Text)
    (n : ℤ) : n ∈ codesOf next name ↔
      n ∈ codesOf functions name ∨ name = service ∧ name ≠ [] ∧ intOf unicode code = .ok n := by
  rcases learnFunction_ok h with ⟨none, rfl⟩ | ⟨nonempty, m, value, rfl⟩
  · have nothing : ¬ (name = service ∧ name ≠ [] ∧ intOf unicode code = .ok n) := by
      rintro ⟨rfl, nonempty, value⟩
      rcases none with rfl | empty
      · cases value
      · exact nonempty empty
    tauto
  · rw [codesOf_addCode, value, Except.ok.injEq]
    split
    · subst name
      rw [List.mem_insert_iff, or_comm, eq_comm]
      tauto
    · tauto

theorem Represents.step {learned next : Learned} {known : Set Fact}
    (h : Represents learned known) {event : ContractEvent}
    (learns : learn unicode learned event = .ok next) :
    Represents next (known ∪ brings unicode event) := by
  rcases learn_ok learns with ⟨other, rfl⟩ | ⟨ndr, functions, codes, rfl⟩
  · have nothing : brings unicode event = ∅ :=
      Set.eq_empty_of_forall_notMem fun fact brought => other brought.1
    rwa [nothing, Set.union_empty]
  · constructor
    · intro address
      rw [Learned.absorb, mem_foldl_insert, h.assets, or_comm, List.mem_append,
        Option.mem_toList, Option.mem_toList]
      simp only [Set.mem_union, brings, Set.mem_ofPred_eq, ndr, true_and]
      rfl
    · intro pair
      simp only [Learned.absorb, mem_learnPair, h.pairs, Set.mem_union, brings,
        Set.mem_ofPred_eq, ndr, true_and]
    · intro name
      have inserted : name ∈ (learned.absorb event functions).services ↔
          name ∈ learned.services ∨ name = event.service ∧ name ≠ [] := by
        rw [Learned.absorb]
        split
        · grind
        · rw [List.mem_insert_iff]
          grind
      simp only [inserted, h.services, Set.mem_union, brings, Set.mem_ofPred_eq, ndr, true_and]
    · intro service code
      have learned_codes := learnFunction_codes codes service code
      simp only [Learned.absorb, learned_codes, h.codes, Set.mem_union, brings,
        Set.mem_ofPred_eq, ndr, true_and]
    · refine ⟨nodup_foldl_insert h.distinct.1, ?_, ?_⟩
      · simp only [Learned.absorb, learnPair]
        split
        · exact h.distinct.2.1.insert
        · exact h.distinct.2.1
      · simp only [Learned.absorb]
        split
        · exact h.distinct.2.2
        · exact h.distinct.2.2.insert
    · rcases learnFunction_ok codes with ⟨-, rfl⟩ | ⟨-, n, -, rfl⟩
      · exact h.entries
      · exact entries_addCode event.service n h.entries
    · exact keys_learnFunction codes h.keys

theorem Represents.run {events : List ContractEvent} {learned next : Learned} {known : Set Fact}
    (h : Represents learned known) (run : events.foldlM (learn unicode) learned = .ok next) :
    Represents next (known ∪ facts unicode events) := by
  induction events generalizing learned known with
  | nil =>
    obtain rfl : learned = next := Except.ok.inj run
    have nothing : facts unicode [] = ∅ := by
      ext fact
      simp [facts]
    rwa [nothing, Set.union_empty]
  | cons event events ih =>
    obtain ⟨middle, first, rest⟩ := foldlM_cons_eq_ok_iff.mp run
    have split : facts unicode (event :: events) = brings unicode event ∪ facts unicode events := by
      ext fact
      simp [facts]
    rw [split, ← Set.union_assoc]
    exact ih (h.step first) rest

theorem represents_build {events : List ContractEvent} {learned : Learned}
    (run : events.foldlM (learn unicode) ⟨[], [], [], []⟩ = .ok learned) :
    Represents learned (facts unicode events) := by
  simpa using represents_empty.run run

/-! ## The baseline of the facts -/

theorem mergeSort_congr {α : Type} {le : α → α → Bool} {elements other : List α}
    (trans : ∀ a b c, le a b → le b c → le a c) (total : ∀ a b, le a b || le b a)
    (antisymm : ∀ a b, le a b → le b a → a = b) (nodup : elements.Nodup) (nodup' : other.Nodup)
    (same : ∀ a, a ∈ elements ↔ a ∈ other) : elements.mergeSort le = other.mergeSort le := by
  have perm : elements.Perm other := (List.perm_ext_iff_of_nodup nodup nodup').mpr same
  have sorted := (List.mergeSort_perm elements le).trans
    (perm.trans (List.mergeSort_perm other le).symm)
  exact sorted.eq_of_pairwise (fun a b _ _ => antisymm a b)
    (List.pairwise_mergeSort trans total elements) (List.pairwise_mergeSort trans total other)

theorem sortTexts_congr {texts other : List Text} (nodup : texts.Nodup) (nodup' : other.Nodup)
    (same : ∀ s, s ∈ texts ↔ s ∈ other) : sortTexts texts = sortTexts other := by
  apply mergeSort_congr _ _ _ nodup nodup' same
  · intro a b c
    simp only [decide_eq_true_eq]
    exact le_trans
  · intro a b
    simpa using le_total a b
  · intro a b
    simp only [decide_eq_true_eq]
    exact le_antisymm

theorem sortCodes_congr {known other : List ℤ} (nodup : known.Nodup) (nodup' : other.Nodup)
    (same : ∀ n, n ∈ known ↔ n ∈ other) : sortCodes known = sortCodes other := by
  apply mergeSort_congr _ _ _ nodup nodup' same
  · grind
  · grind
  · grind

theorem sortPairs_congr {pairs other : List (Text × Text)} (nodup : pairs.Nodup)
    (nodup' : other.Nodup) (same : ∀ pair, pair ∈ pairs ↔ pair ∈ other) :
    sortPairs pairs = sortPairs other := by
  have lex (a b : Text × Text) : decide (a.1 < b.1 ∨ a.1 = b.1 ∧ a.2 ≤ b.2) = true ↔
      toLex a ≤ toLex b := by
    rw [decide_eq_true_eq, Prod.Lex.le_iff]
    rfl
  apply mergeSort_congr _ _ _ nodup nodup' same
  · intro a b c
    rw [lex, lex, lex]
    exact le_trans
  · intro a b
    rw [Bool.or_eq_true, lex, lex]
    exact le_total _ _
  · intro a b
    rw [lex, lex]
    exact fun le ge => toLex.injective (le_antisymm le ge)

theorem mem_keys_iff {functions : List (Text × List ℤ)}
    (entries : ∀ entry ∈ functions, entry.2 ≠ [] ∧ entry.2.Nodup)
    (keys : (functions.map Prod.fst).Nodup) (service : Text) :
    service ∈ functions.map Prod.fst ↔ ∃ code, code ∈ codesOf functions service := by
  constructor
  · intro mem
    obtain ⟨entry, inside, rfl⟩ := List.mem_map.mp mem
    obtain ⟨code, known⟩ := List.exists_mem_of_ne_nil _ (entries entry inside).1
    refine ⟨code, ?_⟩
    rwa [codesOf, lookup_of_mem keys inside]
  · rintro ⟨code, mem⟩
    by_contra absent
    have unknown : functions.lookup service = none := by
      rw [List.lookup_eq_none_iff]
      intro entry inside
      rw [bne_iff_ne]
      rintro rfl
      exact absent (List.mem_map_of_mem inside)
    rw [codesOf, unknown] at mem
    cases mem

theorem nodup_codesOf {functions : List (Text × List ℤ)}
    (entries : ∀ entry ∈ functions, entry.2 ≠ [] ∧ entry.2.Nodup) (service : Text) :
    (codesOf functions service).Nodup := by
  rw [codesOf]
  cases found : functions.lookup service with
  | none => exact List.nodup_nil
  | some known => exact (entries (service, known) (mem_of_lookup found)).2

theorem functions_baseline {learned : Learned} (keys : (learned.functions.map Prod.fst).Nodup)
    (generatedFrom : List Text) : (learned.baseline generatedFrom).functions =
      (sortTexts (learned.functions.map Prod.fst)).map fun service =>
        (service, sortCodes (codesOf learned.functions service)) := by
  have services : sortTexts (learned.functions.map Prod.fst) =
      (sortFunctions learned.functions).map Prod.fst :=
    (List.map_mergeSort (f := Prod.fst) fun _ _ _ _ => rfl).symm
  rw [services, List.map_map]
  apply List.map_congr_left
  intro entry mem
  have found := lookup_of_mem keys (List.mem_mergeSort.mp mem)
  rw [Function.comp_apply, codesOf, found, Option.getD_some]

theorem Represents.baseline_congr {learned other : Learned} {known : Set Fact}
    (h : Represents learned known) (h' : Represents other known) (generatedFrom : List Text) :
    learned.baseline generatedFrom = other.baseline generatedFrom := by
  have assets : sortTexts learned.assets = sortTexts other.assets :=
    sortTexts_congr h.distinct.1 h'.distinct.1 fun s => (h.assets s).trans (h'.assets s).symm
  have pairs : sortPairs learned.pairs = sortPairs other.pairs :=
    sortPairs_congr h.distinct.2.1 h'.distinct.2.1 fun pair =>
      (h.pairs pair).trans (h'.pairs pair).symm
  have services : sortTexts learned.services = sortTexts other.services :=
    sortTexts_congr h.distinct.2.2 h'.distinct.2.2 fun s =>
      (h.services s).trans (h'.services s).symm
  have same (service : Text) (code : ℤ) : code ∈ codesOf learned.functions service ↔
      code ∈ codesOf other.functions service :=
    (h.codes service code).trans (h'.codes service code).symm
  have codes (service : Text) : sortCodes (codesOf learned.functions service) =
      sortCodes (codesOf other.functions service) :=
    sortCodes_congr (nodup_codesOf h.entries service) (nodup_codesOf h'.entries service)
      (same service)
  have keys : sortTexts (learned.functions.map Prod.fst) =
      sortTexts (other.functions.map Prod.fst) := by
    apply sortTexts_congr h.keys h'.keys
    intro service
    simp only [mem_keys_iff h.entries h.keys, mem_keys_iff h'.entries h'.keys, same]
  have functions : (learned.baseline generatedFrom).functions =
      (other.baseline generatedFrom).functions := by
    rw [functions_baseline h.keys, functions_baseline h'.keys, keys]
    simp only [codes]
  rw [Baseline.mk.injEq]
  exact ⟨rfl, assets, pairs, functions, services⟩

/-- What a baseline tells is these facts. -/
structure Tells (baseline : Baseline) (known : Set Fact) : Prop where
  assets : ∀ address, address ∈ baseline.assets ↔ Fact.asset address ∈ known
  pairs : ∀ pair, pair ∈ baseline.pairs ↔ Fact.pair pair.1 pair.2 ∈ known
  services : ∀ name, name ∈ baseline.services ↔ Fact.service name ∈ known
  codes : ∀ service code,
    code ∈ codesOf baseline.functions service ↔ Fact.code service code ∈ known
  keys : ∀ service, service ∈ baseline.functions.map Prod.fst ↔
    ∃ code, Fact.code service code ∈ known

theorem codesOf_map_sortCodes {services : List Text} {known : Text → List ℤ} (service : Text) :
    codesOf (services.map fun service => (service, sortCodes (known service))) service =
      if service ∈ services then sortCodes (known service) else [] := by
  induction services with
  | nil => simp [codesOf]
  | cons first services ih =>
    rw [List.map_cons, codesOf_cons, ih]
    by_cases here : service = first
    · simp [here]
    · simp [here]

theorem Represents.tells {learned : Learned} {known : Set Fact} (h : Represents learned known)
    (generatedFrom : List Text) : Tells (learned.baseline generatedFrom) known := by
  have keys (service : Text) : service ∈ sortTexts (learned.functions.map Prod.fst) ↔
      ∃ code, Fact.code service code ∈ known := by
    simp only [mem_sortTexts, mem_keys_iff h.entries h.keys, h.codes]
  constructor
  · intro address
    exact mem_sortTexts.trans (h.assets address)
  · intro pair
    exact List.mem_mergeSort.trans (h.pairs pair)
  · intro name
    exact mem_sortTexts.trans (h.services name)
  · intro service code
    rw [functions_baseline h.keys, codesOf_map_sortCodes]
    split
    · exact List.mem_mergeSort.trans (h.codes service code)
    · have unknown : Fact.code service code ∉ known := by
        intro mem
        exact absurd ((keys service).mpr ⟨code, mem⟩) (by assumption)
      simp [unknown]
  · intro service
    rw [functions_baseline h.keys, List.map_map, ← keys]
    simp

/-! ## Silence grows with the facts -/

theorem newAsset_antitone {baseline larger : Baseline}
    (assets : baseline.assets ⊆ larger.assets) (value : PyValue)
    (alarms : newAsset larger value = true) : newAsset baseline value = true := by
  cases value with
  | str s =>
    simp only [newAsset, decide_eq_true_eq] at alarms ⊢
    exact fun mem => alarms (assets mem)
  | _ => exact alarms

theorem newPair_antitone {baseline larger : Baseline} (pairs : baseline.pairs ⊆ larger.pairs)
    (src dst : PyValue) (alarms : newPair larger src dst = true) :
    newPair baseline src dst = true := by
  unfold newPair at alarms ⊢
  split
  · simp_all
  · rename_i truthy
    rw [if_neg truthy] at alarms
    split
    · rename_i s d
      simp only [decide_eq_true_eq] at alarms ⊢
      exact fun mem => alarms (pairs mem)
    · rfl

theorem newFunctionCode_antitone {baseline larger : Baseline}
    (known : ∀ service, codesOf baseline.functions service ⊆ codesOf larger.functions service)
    (service code : PyValue) (alarms : newFunctionCode unicode larger service code = .ok true) :
    newFunctionCode unicode baseline service code = .ok true := by
  unfold newFunctionCode at alarms ⊢
  split at alarms
  · cases alarms
  · rename_i notNone
    split at alarms
    · cases alarms
    · cases alarms
    · rename_i n value
      cases service with
      | str name =>
        simp only [knownCodes, Except.map, Except.ok.injEq, decide_eq_true_eq] at alarms ⊢
        exact fun mem => alarms (known name mem)
      | _ => exact alarms

theorem matchBaseline_antitone {baseline larger : Baseline} {known more : Set Fact}
    (tells : Tells baseline known) (tells' : Tells larger more) (grows : known ⊆ more)
    (rule : BaselineRule) (event : Event)
    (alarms : matchBaseline unicode rule event larger = .ok true) :
    matchBaseline unicode rule event baseline = .ok true := by
  have assets : baseline.assets ⊆ larger.assets := fun s mem =>
    (tells'.assets s).mpr (grows ((tells.assets s).mp mem))
  have pairs : baseline.pairs ⊆ larger.pairs := fun pair mem =>
    (tells'.pairs pair).mpr (grows ((tells.pairs pair).mp mem))
  have known (service : Text) :
      codesOf baseline.functions service ⊆ codesOf larger.functions service := fun code mem =>
    (tells'.codes service code).mpr (grows ((tells.codes service code).mp mem))
  unfold matchBaseline at alarms ⊢
  cases given : rule.config with
  | none =>
    rw [given] at alarms
    cases alarms
  | some config =>
    simp only [given] at alarms ⊢
    split
    · simp_all
    · rename_i applies
      rw [if_neg applies] at alarms
      cases type : config.type with
      | newAsset field =>
        rw [type] at alarms
        exact congrArg Except.ok (newAsset_antitone assets _ (Except.ok.inj alarms))
      | newPair =>
        rw [type] at alarms
        exact congrArg Except.ok (newPair_antitone pairs _ _ (Except.ok.inj alarms))
      | newFunctionCode =>
        rw [type] at alarms
        exact newFunctionCode_antitone known _ _ alarms
      | other type =>
        simp_all

/-! ## When the builder returns -/

/-- An event whose function code the builder has no need of or can read. -/
def Readable (unicode : Unicode) (event : ContractEvent) : Prop :=
  event.product = otNdr → event.service ≠ [] →
    eventGet event.fields "function_code" ≠ .none →
      ∃ n, intOf unicode (eventGet event.fields "function_code") = .ok n

theorem learn_returns_iff {learned : Learned} {event : ContractEvent} :
    (∃ next, learn unicode learned event = .ok next) ↔ Readable unicode event := by
  unfold learn Readable
  split
  · simp_all
  · simp only [map_eq_ok_iff, learnFunction]
    cases eventGet event.fields "function_code" with
    | none => simp
    | _ =>
      simp only
      split
      · simp_all
      · simp_all [map_eq_ok_iff]

theorem foldlM_learn_returns_iff {events : List ContractEvent} {learned : Learned} :
    (∃ next, events.foldlM (learn unicode) learned = .ok next) ↔
      ∀ event ∈ events, Readable unicode event := by
  constructor
  · rintro ⟨next, run⟩
    induction events generalizing learned with
    | nil => simp
    | cons event events ih =>
      obtain ⟨middle, first, rest⟩ := foldlM_cons_eq_ok_iff.mp run
      exact List.forall_mem_cons.mpr ⟨learn_returns_iff.mp ⟨middle, first⟩, ih rest⟩
  · intro readable
    apply foldlM_returns
    intro learned event mem
    exact learn_returns_iff.mpr (readable event mem)

theorem build_eq_ok_iff {events : List ContractEvent} {generatedFrom : List Text}
    {baseline : Baseline} : build unicode events generatedFrom = .ok baseline ↔
      (∀ event ∈ events, Readable unicode event) ∧
        ∃ learned, Represents learned (facts unicode events) ∧
          learned.baseline generatedFrom = baseline := by
  constructor
  · intro built
    obtain ⟨learned, run, rfl⟩ := build_ok built
    exact ⟨foldlM_learn_returns_iff.mp ⟨learned, run⟩, learned, represents_build run, rfl⟩
  · rintro ⟨readable, learned, represents, rfl⟩
    obtain ⟨next, run⟩ := foldlM_learn_returns_iff.mpr readable
    have made : build unicode events generatedFrom = .ok (next.baseline generatedFrom) :=
      bind_eq_ok_iff.mpr ⟨next, run, rfl⟩
    rw [made, (represents_build run).baseline_congr represents]

/-! ## Merged telemetry -/

/-- Where two lists of events build, so do both together, into the union of what the two
baselines tell, and no rule alarms that the first would not have raised. What is built is
the same from any events among which are the same events of the network. -/
theorem build_append {events more : List ContractEvent} {files others : List Text}
    {baseline other : Baseline} (built : build unicode events files = .ok baseline)
    (built' : build unicode more others = .ok other) (paths : List Text) :
    (∃ merged, build unicode (events ++ more) paths = .ok merged ∧
      (∀ rule event, matchBaseline unicode rule event merged = .ok true →
        matchBaseline unicode rule event baseline = .ok true) ∧
      (∀ address, address ∈ merged.assets ↔ address ∈ baseline.assets ∨ address ∈ other.assets) ∧
      (∀ pair, pair ∈ merged.pairs ↔ pair ∈ baseline.pairs ∨ pair ∈ other.pairs) ∧
      (∀ name, name ∈ merged.services ↔ name ∈ baseline.services ∨ name ∈ other.services) ∧
      (∀ service, service ∈ merged.functions.map Prod.fst ↔
        service ∈ baseline.functions.map Prod.fst ∨ service ∈ other.functions.map Prod.fst) ∧
      ∀ service code, code ∈ codesOf merged.functions service ↔
        code ∈ codesOf baseline.functions service ∨ code ∈ codesOf other.functions service) ∧
    ∀ presented : List ContractEvent,
      (∀ event, event.product = otNdr → (event ∈ presented ↔ event ∈ events)) →
        build unicode presented files = .ok baseline := by
  obtain ⟨readable, learned, represents, rfl⟩ := build_eq_ok_iff.mp built
  obtain ⟨readable', learned', represents', rfl⟩ := build_eq_ok_iff.mp built'
  constructor
  · have both : ∀ event ∈ events ++ more, Readable unicode event :=
      List.forall_mem_append.mpr ⟨readable, readable'⟩
    obtain ⟨next, run⟩ := foldlM_learn_returns_iff.mpr both
    have union := represents_build run
    rw [facts_append] at union
    have merged := union.tells paths
    have one := represents.tells files
    have two := represents'.tells others
    refine ⟨next.baseline paths, bind_eq_ok_iff.mpr ⟨next, run, rfl⟩, ?_, ?_, ?_, ?_, ?_, ?_⟩
    · intro rule event alarms
      exact matchBaseline_antitone one merged Set.subset_union_left rule event alarms
    · intro address
      rw [merged.assets, one.assets, two.assets, Set.mem_union]
    · intro pair
      rw [merged.pairs, one.pairs, two.pairs, Set.mem_union]
    · intro name
      rw [merged.services, one.services, two.services, Set.mem_union]
    · intro service
      simp only [merged.keys, one.keys, two.keys, Set.mem_union, exists_or]
    · intro service code
      rw [merged.codes, one.codes, two.codes, Set.mem_union]
  · intro presented same
    rw [build_eq_ok_iff]
    refine ⟨?_, learned, ?_, rfl⟩
    · intro event mem ndr
      exact readable event ((same event ndr).mp mem) ndr
    · rwa [facts_congr unicode same]

theorem build_append_read :
    ∃ baseline, build noTables [read] [] = .ok baseline ∧
      ∃ merged, build noTables ([read] ++ [unset]) [] = .ok merged ∧
        ∀ rule event, matchBaseline noTables rule event merged = .ok true →
          matchBaseline noTables rule event baseline = .ok true := by
  have first : build noTables [read] [] = .ok (Learned.baseline
      ⟨[codes "172.21.0.10", codes "172.21.0.20"], [(codes "172.21.0.20", codes "172.21.0.10")],
        [(codes "modbus", [3])], [codes "modbus"]⟩ []) := rfl
  have second : build noTables [unset] [] = .ok (Learned.baseline
      ⟨[codes "172.21.0.10"], [], [(codes "modbus", [3])], [codes "modbus"]⟩ []) := rfl
  obtain ⟨⟨merged, built, silences, -⟩, -⟩ := build_append first second []
  exact ⟨_, first, merged, built, silences⟩

end OtDetection.BaselineFacts
