import OtDetection.LokiSink
import OtDetection.PyJson
import OtDetection.RuleFields
import OtDetection.TextEvents

/-! Rules on what the Loki sink stores. An entry is seen as the labels of its stream and the
texts of its line, and a rule does on it what it does on the event that was collected. -/

namespace OtDetection.LokiDetection
open PyText FieldLookup Matcher RuleFields TextEvents LokiSink

/-- The labels of the stream under their names in the contract, and the fields of the line. All are
texts. -/
def stored (stream : Stream) (entry : Entry) : Option Event :=
  (Logfmt.decode entry.line).map fun pairs =>
    (codes "product", .str stream.job) :: (codes "service", .str stream.service) ::
      pairs.map fun pair => (pair.1, .str pair.2)

/-! ## Fields in another order -/

section Order

variable {event other : Event}

theorem lookup_perm (distinct : (event.map Prod.fst).Nodup) (perm : event.Perm other)
    (name : Text) : event.lookup name = other.lookup name := by
  have apart : (other.map Prod.fst).Nodup := (perm.map _).nodup_iff.mp distinct
  refine Option.ext fun value => ?_
  rw [PyJson.lookup_eq_some_iff distinct, PyJson.lookup_eq_some_iff apart, perm.mem_iff]

variable {py : Interpreter}

theorem keywordMatches_text (py : Interpreter) (test : SigmaValue) :
    (∀ s, ∃ answer, keywordMatches py test (.str s) = .ok answer) ∨
      ∃ e, ∀ s, keywordMatches py test (.str s) = .error e := by
  have number (s : Text) : ∃ left, coerceNumber py (.str s) = .ok left := ⟨_, rfl⟩
  cases test with
  | fieldReference | other _ => exact .inr ⟨_, fun _ => rfl⟩
  | number value =>
    refine .inl fun s => ?_
    obtain ⟨left, read⟩ := number s
    rw [keywordMatches_of_not_string (by simp), valueMatches, read]
    exact ⟨_, rfl⟩
  | compare op value =>
    refine .inl fun s => ?_
    obtain ⟨left, read⟩ := number s
    rw [keywordMatches_of_not_string (by simp), valueMatches, Matcher.compare, read]
    cases left with
    | none => exact ⟨_, rfl⟩
    | some left => exact ⟨_, rfl⟩
  | null | «exists» _ | bool _ | cidr _ | regex _ _ | string _ => exact .inl fun _ => ⟨_, rfl⟩

theorem anyCandidate_texts_perm {texts others : List Text} (perm : texts.Perm others)
    (test : SigmaValue) :
    anyCandidate py test (texts.map .str) = anyCandidate py test (others.map .str) := by
  rcases keywordMatches_text py test with answers | ⟨e, raises⟩
  · choose answer answers using answers
    have any (texts : List Text) :
        anyCandidate py test (texts.map .str) = .ok (texts.any answer) := by
      induction texts with
      | nil => rfl
      | cons s texts ih =>
        rw [List.map_cons, anyCandidate, answers, ih, List.any_cons]
        cases answer s with
        | true => rfl
        | false => rfl
    rw [any, any, perm.any_eq]
  · have first (texts : List Text) :
        anyCandidate py test (texts.map .str) = if texts = [] then .ok false else .error e := by
      cases texts with
      | nil => rfl
      | cons s texts =>
        rw [List.map_cons, anyCandidate, raises]
        rfl
    have empty : texts = [] ↔ others = [] :=
      ⟨fun h => List.nil_perm.mp (h ▸ perm), fun h => List.perm_nil.mp (h ▸ perm)⟩
    rw [first, first]
    simp only [empty]

variable (distinct : (event.map Prod.fst).Nodup) (perm : event.Perm other)
include distinct perm

theorem lookup_texts_perm (name : Text) :
    (texts py event).lookup name = (texts py other).lookup name := by
  rw [lookup_texts, lookup_texts, lookup_perm distinct perm]

theorem evalLeaf_perm (leaf : Leaf) :
    evalLeaf py (texts py event) leaf = evalLeaf py (texts py other) leaf := by
  cases leaf with
  | none | other _ => rfl
  | field field test =>
    rw [evalLeaf, evalLeaf, lookupField_flat (flatEvent_texts event),
      lookupField_flat (flatEvent_texts other), lookup_texts_perm distinct perm]
  | keyword test =>
    have values (event : Event) : (texts py event).map Prod.snd =
        (event.map fun item => str py item.2).map .str := by
      rw [texts, List.map_map, List.map_map]
      rfl
    rw [evalLeaf, evalLeaf, evalKeyword, evalKeyword, scalars_flat (flatEvent_texts event),
      scalars_flat (flatEvent_texts other), values, values]
    exact anyCandidate_texts_perm (perm.map _) test

theorem matchRule_perm (rule : SigmaRule) :
    matchRule py rule (texts py event) = matchRule py rule (texts py other) :=
  matchRule_congr (fun leaf _ => evalLeaf_perm distinct perm leaf)
    (logsourceMatches_agree fun name _ => lookup_texts_perm distinct perm name)

end Order

/-! ## Entries -/

def arranged (event : ContractEvent) : Event :=
  (codes "product", .str event.product) :: (codes "service", .str event.service) :: event.remaining

theorem mem_remaining {event : ContractEvent} {field : Text × PyValue} :
    field ∈ event.remaining ↔
      field ∈ event.fields ∧ field.1 ≠ codes "product" ∧ field.1 ≠ codes "service" := by
  rw [ContractEvent.remaining, List.mem_filter, decide_eq_true_eq]

theorem arranged_perm {event : ContractEvent} (distinct : (event.fields.map Prod.fst).Nodup) :
    event.fields.Perm (arranged event) := by
  have label {name text : Text} (found : event.fields.lookup name = some (.str text))
      (field : Text × PyValue) : field ∈ event.fields ∧ field.1 = name ↔ field = (name, .str text) := by
    constructor
    · rintro ⟨mem, rfl⟩
      rw [(PyJson.lookup_eq_some_iff distinct).mpr mem] at found
      exact Prod.ext rfl (Option.some.inj found)
    · rintro rfl
      exact ⟨mem_of_lookup found, rfl⟩
  have product := label event.product_eq
  have service := label event.service_eq
  have apart : (arranged event).Nodup := by
    refine List.nodup_cons.mpr ⟨fun mem => ?_, List.nodup_cons.mpr ⟨fun mem => ?_, ?_⟩⟩
    · rcases List.mem_cons.mp mem with same | later
      · exact absurd (Prod.mk.inj same).1 (by decide)
      · exact (mem_remaining.mp later).2.1 rfl
    · exact (mem_remaining.mp mem).2.2 rfl
    · exact (distinct.of_map _).filter _
  refine (List.perm_ext_iff_of_nodup (distinct.of_map _) apart).mpr fun field => ?_
  rw [arranged, List.mem_cons, List.mem_cons, mem_remaining, ← product, ← service]
  tauto

variable {py : Interpreter} {clock : Clock}

/-- An event whose fields are distinct flat values of which every text is on one line, routed by
texts. -/
structure Plain (py : Interpreter) (event : ContractEvent) : Prop where
  distinct : (event.fields.map Prod.fst).Nodup
  flat : FlatEvent event.fields
  clean : ∀ pair ∈ event.pairs py.isPrintable, Logfmt.NoControl pair.2
  category : ∀ value ∈ event.fields.lookup (codes "category"), ∃ s, value = .str s

theorem Plain.routes {event : ContractEvent} (plain : Plain py event) :
    RoutesByText event.fields := by
  intro field mem value found
  simp only [List.mem_cons, List.not_mem_nil, or_false] at mem
  rcases mem with rfl | rfl | rfl
  · rw [event.product_eq] at found
    exact ⟨_, (Option.some.inj found).symm⟩
  · rw [event.service_eq] at found
    exact ⟨_, (Option.some.inj found).symm⟩
  · exact plain.category value found

theorem stored_entry {event : ContractEvent} {stream : Stream} {entry : Entry}
    (made : entryOf py.isPrintable clock event = .ok entry) (same : event.key = stream.key)
    (plain : Plain py event) : stored stream entry = some (texts py (arranged event)) := by
  obtain ⟨at', -, rfl⟩ := ExceptSteps.map_eq_ok_iff.mp made
  obtain ⟨job, service⟩ := Prod.mk.inj same
  have decoded := (decode_lineOf_iff event).mpr plain.clean
  rw [stored, decoded, Option.map_some, ← job, ← service, ContractEvent.pairs, List.map_map]
  rfl

def trip : ContractEvent := alarm "modbus" (codes "C:\\trip \"1\"")

def tripStream : Stream :=
  ⟨codes "ot_ndr", codes "modbus",
    [⟨codes "0", codes "timestamp=1970-01-01T00:00:00Z unit_id=7 note=\"C:\\\\trip \\\"1\\\"\""⟩]⟩

def tripRule : SigmaRule :=
  ⟨codes "trip", some (codes "ot_ndr"), none, none,
    [.leaf (.keyword (.string ⟨[.plain (codes "trip \"1")], false⟩))]⟩

theorem plain_trip : Plain plainPatterns trip where
  distinct := by decide
  flat := by
    intro field mem
    simp only [trip, alarm, List.mem_cons, List.not_mem_nil, or_false] at mem
    rcases mem with rfl | rfl | rfl | rfl | rfl
    · trivial
    · trivial
    · trivial
    · exact (by decide : |(7 : ℤ)| ≤ 2 ^ 53)
    · trivial
  clean := by decide +kernel
  category := fun value found => nomatch found

end OtDetection.LokiDetection
