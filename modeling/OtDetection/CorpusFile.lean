import OtDetection.CorpusOverlap
import OtDetection.JsonLines
import OtDetection.TimestampRenderings

/-! The file of the benign corpus. Whatever the generator of random numbers gives, an assignment
keeps the type that the schema asks of its field. -/

namespace OtDetection.BenignCorpus
open PyText FieldLookup JsonDumps JsonLines PyJson TriagePrompt
open JsonValues (assign lookup_assign mem_assign nodup_assign)
open TelemetrySchema (Check accepts accepts_iff properties)

/-- The text that `main` writes. -/
def corpusText (events : List Event) : Text := joined events ++ codes "\n"

/-! ## Values of a field -/

instance (digits : List (Fin 10)) (point : ℤ) : Decidable (ShortestDigits digits point) :=
  decidable_of_iff (digits ≠ [] ∧
      (digits.head?.map Fin.val = some 0 → digits.map Fin.val = [0] ∧ point = 1) ∧
      digits.length ≤ 17 ∧ -323 ≤ point ∧ point ≤ 309) <| by
    have first : digits.head?.map Fin.val = some 0 ↔ digits.head? = some 0 :=
      (Option.map_injective Fin.val_injective).eq_iff' rfl
    have alone : digits.map Fin.val = [0] ↔ digits = [0] :=
      (List.map_injective_iff.mpr Fin.val_injective).eq_iff' rfl
    rw [first, alone]
    exact ⟨fun ⟨some_digits, leading, few, low, high⟩ => ⟨some_digits, leading, few, low, high⟩,
      fun h => ⟨h.some_digits, h.leading, h.few, h.low, h.high⟩⟩

/-- Texts, integers and floats that can be written. -/
def isScalar : PyValue → Bool
  | .int _ => true
  | .float (.finite _ digits point) => ShortestDigits digits point
  | .str s => InRange s
  | _ => false

/-- A check whose answer does not depend on the tables of the interpreter. -/
def Check.suits (check : Check) (value : PyValue) : Bool :=
  check ≠ .timestamp ∧ check.accepts PyNumber.noTables value

/-- A value that the schema allows for its field. -/
def suits (name : Text) (value : PyValue) : Bool :=
  InRange name ∧ isScalar value ∧
    properties.all fun property => property.1 ≠ name ∨ Check.suits property.2 value

theorem suits_iff {name : Text} {value : PyValue} :
    suits name value = true ↔ InRange name ∧ isScalar value = true ∧
      ∀ property ∈ properties, property.1 = name → Check.suits property.2 value = true := by
  rw [suits, decide_eq_true_eq, List.all_eq_true]
  refine and_congr_right fun _ => and_congr_right fun _ => forall₂_congr fun property _ => ?_
  rw [decide_eq_true_eq, ne_eq, ← imp_iff_not_or]

theorem writable_of_isScalar {value : PyValue} (scalar : isScalar value = true) :
    Writable value := by
  cases value with
  | int n => trivial
  | float f =>
    cases f with
    | finite negative digits point =>
      have short : ShortestDigits digits point := of_decide_eq_true scalar
      exact short
    | nan | inf negative => cases scalar
  | str s =>
    have inRange : InRange s := of_decide_eq_true scalar
    exact inRange
  | none | bool b | list items | dict items => cases scalar

theorem accepts_of_suits {check : Check} {value : PyValue} (suits : Check.suits check value = true)
    (unicode : PyNumber.Unicode) : check.accepts unicode value = true := by
  rw [Check.suits, decide_eq_true_eq] at suits
  obtain ⟨other, accepted⟩ := suits
  cases check with
  | timestamp => exact absurd rfl other
  | enum values => cases value <;> exact accepted
  | string => cases value <;> exact accepted
  | integer => cases value <;> exact accepted
  | number => cases value <;> exact accepted

/-! ### The fields of one type -/

/-- The schema asks of a field one of the checks, and nothing else. -/
def isOf (checks : List Check) (name : Text) : Bool :=
  InRange name ∧ properties.all fun property => property.1 ≠ name ∨ checks.contains property.2

theorem suits_of_isOf {checks : List Check} {name : Text} (field : isOf checks name = true)
    {value : PyValue} (scalar : isScalar value = true)
    (each : ∀ check ∈ checks, Check.suits check value = true) : suits name value = true := by
  rw [isOf, decide_eq_true_eq, List.all_eq_true] at field
  refine suits_iff.mpr ⟨field.1, scalar, fun property mem named => ?_⟩
  have among := of_decide_eq_true (field.2 property mem)
  exact each _ (List.contains_iff_mem.mp (among.resolve_left fun other => other named))

theorem suits_int {name : Text} (field : isOf [.integer, .number] name = true) (n : ℤ) :
    suits name (.int n) = true :=
  suits_of_isOf field rfl (List.forall_mem_cons.mpr ⟨rfl, List.forall_mem_singleton.mpr rfl⟩)

theorem suits_str {name : Text} (field : isOf [.string] name = true) {s : Text}
    (inRange : InRange s) : suits name (.str s) = true :=
  suits_of_isOf field (decide_eq_true inRange) (List.forall_mem_singleton.mpr rfl)

/-- The fields whose assigned values are integers. -/
def integerFields : List String :=
  ["unit_id", "register", "value", "link_source", "link_destination", "object_group",
    "control_code", "pdu_reference", "request_id", "secure_channel_id", "src_port",
    "tank_level_pct", "bytes", "packets"]

theorem integer_fields : ∀ name ∈ integerFields, isOf [.integer, .number] (codes name) = true := by
  decide +kernel

def textFields : List String := ["src_ip", "dst_ip", "device", "snmp_value"]

theorem text_fields : ∀ name ∈ textFields, isOf [.string] (codes name) = true ∧
    (properties.map Prod.fst).contains (codes name) = true := by
  decide +kernel

theorem str_of_suits {name : Text} (field : isOf [.string] name = true)
    (named : (properties.map Prod.fst).contains name = true) {value : PyValue}
    (allowed : suits name value = true) : ∃ s, value = .str s ∧ InRange s := by
  obtain ⟨property, mem, rfl⟩ := List.mem_map.mp (List.contains_iff_mem.mp named)
  rw [isOf, decide_eq_true_eq, List.all_eq_true] at field
  have among := (of_decide_eq_true (field.2 property mem)).resolve_left fun other => other rfl
  obtain ⟨-, scalar, checked⟩ := suits_iff.mp allowed
  have string := checked property mem rfl
  rw [List.mem_singleton.mp (List.contains_iff_mem.mp among)] at string
  cases value with
  | str s => exact ⟨s, rfl, of_decide_eq_true scalar⟩
  | none | bool b | int n | float f | list items | dict items => cases string

/-! ## Typed events -/

/-- Every field of the event has a value that the schema allows. -/
structure IsTyped (event : Event) : Prop where
  distinct : (event.map Prod.fst).Nodup
  allowed : ∀ item ∈ event, suits item.1 item.2 = true

theorem IsTyped.assign {event : Event} (typed : IsTyped event) {key : Text} {value : PyValue}
    (allowed : suits key value = true) : IsTyped (assign key value event) := by
  refine ⟨nodup_assign typed.distinct key value, fun item mem => ?_⟩
  rcases mem_assign mem with old | rfl
  · exact typed.allowed item old
  · exact allowed

theorem IsTyped.of_lookup {event : Event} (typed : IsTyped event) {name : Text} {value : PyValue}
    (found : event.lookup name = some value) : suits name value = true :=
  typed.allowed _ (mem_of_lookup found)

/-! ## Assignments -/

/-- The value of an assignment suits its field. -/
def Keeps (variation : Variation) : Prop :=
  ∀ event, IsTyped event → variation.applies event = true → ∀ draws,
    suits (codes variation.key) (variation.value event draws).1 = true

theorem Keeps.apply {variation : Variation} (keeps : Keeps variation) {event : Event}
    (typed : IsTyped event) (draws : Draws) : IsTyped (variation.apply event draws).1 := by
  rw [Variation.apply]
  split_ifs with applies
  · exact typed.assign (keeps event typed applies draws)
  · exact typed

theorem IsTyped.foldlM {list : List Variation} (keeps : ∀ variation ∈ list, Keeps variation)
    {event : Event} (typed : IsTyped event) (draws : Draws) :
    IsTyped (list.foldlM Variation.apply event draws).1 := by
  induction list generalizing event draws with
  | nil => exact typed
  | cons variation list ih =>
    obtain ⟨here, later⟩ := List.forall_mem_cons.mp keeps
    rw [List.foldlM_cons]
    exact ih later (here.apply typed draws) _

section Values

variable {applies : Event → Bool} {key : String}

theorem choice_mem {values : List PyValue} (some_values : values ≠ []) (draws : Draws) :
    (choice values draws).1 ∈ values := by
  have inside : draws 0 % values.length < values.length :=
    Nat.mod_lt _ (List.length_pos_iff.mpr some_values)
  have value : (choice values draws).1 = values.getD (draws 0 % values.length) .none := rfl
  rw [value, List.getD_eq_getElem _ _ inside]
  exact List.getElem_mem inside

theorem numbers_drawn {values : List ℤ} (some_values : values ≠ []) (draws : Draws) :
    ∃ n ∈ values, (numbers values draws).1 = .int n := by
  obtain ⟨n, mem, drawn⟩ := List.mem_map.mp
    (choice_mem (mt List.map_eq_nil_iff.mp some_values) draws)
  exact ⟨n, mem, drawn.symm⟩

theorem addresses_drawn {values : List String} (some_values : values ≠ []) (draws : Draws) :
    ∃ value ∈ values, (addresses values draws).1 = .str (codes value) := by
  obtain ⟨value, mem, drawn⟩ := List.mem_map.mp
    (choice_mem (mt List.map_eq_nil_iff.mp some_values) draws)
  exact ⟨value, mem, drawn.symm⟩

theorem keeps_numbers (field : key ∈ integerFields) {values : List ℤ} (some_values : values ≠ []) :
    Keeps (given applies key (numbers values)) := by
  intro _ _ _ draws
  obtain ⟨n, -, drawn⟩ := numbers_drawn some_values draws
  exact (congrArg (suits _) drawn).trans (suits_int (integer_fields key field) n)

theorem keeps_addresses (field : key ∈ textFields) {values : List String}
    (some_values : values ≠ []) (inRange : ∀ value ∈ values, InRange (codes value)) :
    Keeps (given applies key (addresses values)) := by
  intro _ _ _ draws
  obtain ⟨address, mem, drawn⟩ := addresses_drawn some_values draws
  exact (congrArg (suits _) drawn).trans
    (suits_str (text_fields key field).1 (inRange address mem))

theorem keeps_number (field : key ∈ integerFields) (low high : ℕ) :
    Keeps (given applies key (randomNumber low high)) :=
  fun _ _ _ _ => suits_int (integer_fields key field) _

end Values

theorem inRange_natText (n : ℕ) : InRange (natText n) := fun c mem =>
  (visible_natText n c mem).2.trans_lt (by decide)

theorem inRange_join {sep : Text} (sepInRange : InRange sep) {texts : List Text}
    (each : ∀ text ∈ texts, InRange text) : InRange (join sep texts) := by
  induction texts with
  | nil => exact List.forall_mem_nil _
  | cons text texts ih =>
    obtain ⟨first, others⟩ := List.forall_mem_cons.mp each
    cases texts with
    | nil => exact first
    | cons next texts =>
      exact List.forall_mem_append.mpr ⟨first, List.forall_mem_append.mpr ⟨sepInRange, ih others⟩⟩

theorem inRange_splitOn (separator : ℕ) {text : Text} (inRange : InRange text) :
    ∀ part ∈ text.splitOn separator, InRange part := by
  induction text with
  | nil => exact List.forall_mem_singleton.mpr (List.forall_mem_nil _)
  | cons c text ih =>
    obtain ⟨first, others⟩ := List.forall_mem_cons.mp inRange
    have later := ih others
    rw [List.splitOn_cons_eq_if_modifyHead]
    split_ifs
    · exact List.forall_mem_cons.mpr ⟨List.forall_mem_nil _, later⟩
    · cases parts : text.splitOn separator with
      | nil => exact List.forall_mem_nil _
      | cons part parts' =>
        rw [parts] at later
        obtain ⟨here, rest⟩ := List.forall_mem_cons.mp later
        exact List.forall_mem_cons.mpr ⟨List.forall_mem_cons.mpr ⟨first, here⟩, rest⟩

theorem keeps_moveHost : Keeps ⟨has "dst_ip", "dst_ip", moveHost⟩ := by
  intro event typed applies draws
  obtain ⟨field, named⟩ := text_fields "dst_ip" (by decide)
  cases found : event.lookup (codes "dst_ip") with
  | none =>
    have there : (event.lookup (codes "dst_ip")).isSome = true := applies
    rw [found] at there
    cases there
  | some value =>
    obtain ⟨address, rfl, inRange⟩ :=
      str_of_suits field named (typed.of_lookup found)
    have moved : (moveHost event draws).1 =
        .str (join [0x2E] ((address.splitOn 0x2E).dropLast ++ [natText (2 + draws 0 % 59)])) := by
      rw [moveHost, found]
      rfl
    have parts := inRange_splitOn 0x2E inRange
    refine (congrArg (suits _) moved).trans (suits_str field (inRange_join (by decide) ?_))
    exact List.forall_mem_append.mpr ⟨fun part mem => parts part (List.mem_of_mem_dropLast mem),
      List.forall_mem_singleton.mpr (inRange_natText _)⟩

theorem keeps_duration {applies : Event → Bool} : Keeps (given applies "duration" randomDuration) := by
  have each : ∀ n < 46, suits (codes "duration") (thousandths (5 + n)) = true := by decide +kernel
  exact fun _ _ _ draws => each _ (Nat.mod_lt (draws 0) (by decide))

theorem keeps_heartbeat {applies : Event → Bool} (low high : ℕ) :
    Keeps (given applies "snmp_value" ((fun n => PyValue.str (natText n)) <$> randint low high)) := by
  have field := (text_fields "snmp_value" (by decide)).1
  exact fun _ _ _ _ => suits_str field (inRange_natText _)

/-! ### Each service -/

theorem keeps_modbus (request : Bool) : ∀ variation ∈ modbusVariations request, Keeps variation := by
  simp only [modbusVariations, List.forall_mem_cons, List.not_mem_nil, false_imp_iff, implies_true,
    and_true]
  exact ⟨keeps_numbers (by decide) (by decide), keeps_number (by decide) _ _,
    keeps_number (by decide) _ _, keeps_number (by decide) _ _,
    keeps_addresses (by decide) (by decide) (by decide),
    keeps_addresses (by decide) (by decide) (by decide)⟩

theorem keeps_dnp3 (request : Bool) : ∀ variation ∈ dnp3Variations request, Keeps variation := by
  cases request with
  | true =>
    simp only [dnp3Variations, if_true, List.forall_mem_cons, List.not_mem_nil, false_imp_iff,
      implies_true, and_true]
    exact ⟨keeps_numbers (by decide) (by decide), keeps_numbers (by decide) (by decide),
      keeps_number (by decide) _ _, keeps_number (by decide) _ _⟩
  | false =>
    simp only [dnp3Variations, Bool.false_eq_true, if_false, List.forall_mem_cons, List.not_mem_nil,
      false_imp_iff, implies_true, and_true]
    exact ⟨keeps_numbers (by decide) (by decide), keeps_numbers (by decide) (by decide)⟩

theorem keeps_s7comm (request : Bool) : ∀ variation ∈ s7commVariations request, Keeps variation := by
  simp only [s7commVariations, List.forall_mem_cons, List.not_mem_nil, false_imp_iff, implies_true,
    and_true]
  exact ⟨keeps_addresses (by decide) (by decide) (by decide), keeps_number (by decide) _ _⟩

theorem keeps_opcua : ∀ variation ∈ opcuaVariations, Keeps variation := by
  simp only [opcuaVariations, List.forall_mem_cons, List.not_mem_nil, false_imp_iff, implies_true,
    and_true]
  exact ⟨keeps_number (by decide) _ _, keeps_number (by decide) _ _⟩

theorem keeps_iptables : ∀ variation ∈ iptablesVariations, Keeps variation := by
  simp only [iptablesVariations, List.forall_mem_cons, List.not_mem_nil, false_imp_iff,
    implies_true, and_true]
  exact ⟨keeps_moveHost, keeps_number (by decide) _ _⟩

theorem keeps_safetyMonitor : ∀ variation ∈ safetyMonitorVariations, Keeps variation := by
  simp only [safetyMonitorVariations, List.forall_mem_cons, List.not_mem_nil, false_imp_iff,
    implies_true, and_true]
  exact ⟨keeps_number (by decide) _ _, keeps_number (by decide) _ _⟩

theorem keeps_flow : ∀ variation ∈ flowVariations, Keeps variation := by
  simp only [flowVariations, List.forall_mem_cons, List.not_mem_nil, false_imp_iff, implies_true,
    and_true]
  exact ⟨keeps_number (by decide) _ _, keeps_number (by decide) _ _, keeps_duration,
    keeps_number (by decide) _ _⟩

theorem typed_device {event : Event} (typed : IsTyped event)
    (device : (event.lookup (codes "device")).isSome = true) (draws : Draws) :
    IsTyped ((⟨has "src_ip", "src_ip", fun varied =>
      return (varied.lookup (codes "device")).getD .none⟩ : Variation).apply event draws).1 := by
  obtain ⟨value, found⟩ := Option.isSome_iff_exists.mp device
  obtain ⟨field, named⟩ := text_fields "device" (by decide)
  obtain ⟨s, rfl, inRange⟩ := str_of_suits field named (typed.of_lookup found)
  have same : (event.lookup (codes "device")).getD .none = .str s := by
    rw [found]
    rfl
  rw [Variation.apply]
  split_ifs
  · refine typed.assign ?_
    exact (congrArg (suits (codes "src_ip")) same).trans
      (suits_str (text_fields "src_ip" (by decide)).1 inRange)
  · exact typed

theorem typed_snmp {event : Event} (typed : IsTyped event) (draws : Draws) :
    IsTyped (snmpVariations.foldlM Variation.apply event draws).1 := by
  have device : Keeps (always "device" (addresses ["172.21.0.40", "172.21.0.41", "172.21.0.50"])) :=
    keeps_addresses (by decide) (by decide) (by decide)
  have assigned : (((always "device" (addresses ["172.21.0.40", "172.21.0.41",
      "172.21.0.50"])).apply event draws).1.lookup (codes "device")).isSome = true := by
    change ((assign (codes "device") _ event).lookup (codes "device")).isSome = true
    rw [lookup_assign, if_pos rfl]
    rfl
  exact (keeps_heartbeat _ _).apply (typed_device (device.apply typed draws) assigned _) _

theorem typed_vary {event : Event} (typed : IsTyped event) (draws : Draws) :
    IsTyped (vary event draws).1 :=
  variations_cases (P := fun list => IsTyped (list.foldlM Variation.apply event draws).1)
    (fun request => typed.foldlM (keeps_modbus request) draws)
    (fun request => typed.foldlM (keeps_dnp3 request) draws)
    (fun request => typed.foldlM (keeps_s7comm request) draws) (typed.foldlM keeps_opcua draws)
    (typed.foldlM keeps_iptables draws) (typed.foldlM keeps_safetyMonitor draws)
    (typed.foldlM keeps_flow draws) (typed_snmp typed draws) typed event

/-! ## The corpus -/

theorem typed_templates : ∀ event ∈ templates, (event.map Prod.fst).Nodup ∧
    event.all (fun item => suits item.1 item.2) = true ∧
      (event.lookup (codes "product")).isSome = true ∧
      (event.lookup (codes "service")).isSome = true := by
  decide +kernel

theorem templateAt_mem (index : ℕ) : templateAt index ∈ templates := by
  have inside : index % templates.length < templates.length := Nat.mod_lt _ (by decide)
  rw [templateAt, List.getD_eq_getElem _ _ inside]
  exact List.getElem_mem inside

theorem typed_varied (index : ℕ) (draws : Draws) :
    IsTyped (vary (templateAt index) draws).1 ∧
      ∀ name ∈ ["product", "service"].map codes,
        ((vary (templateAt index) draws).1.lookup name).isSome = true := by
  obtain ⟨distinct, allowed, product, service⟩ := typed_templates _ (templateAt_mem index)
  have typed : IsTyped (templateAt index) := ⟨distinct, List.all_eq_true.mp allowed⟩
  have kept : ∀ name ∈ fixedKeys,
      (vary (templateAt index) draws).1.lookup name = (templateAt index).lookup name :=
    fun name fixed => lookup_foldlM (fun variation mem same =>
      fixed_of_variations _ variation mem (same ▸ fixed)) _ draws
  refine ⟨typed_vary typed draws, List.forall_mem_cons.mpr ⟨?_, List.forall_mem_singleton.mpr ?_⟩⟩
  · rw [kept _ (by decide), product]
  · rw [kept _ (by decide), service]

theorem mem_properties_timestamp {check : Check}
    (named : (codes "timestamp", check) ∈ properties) : check = .timestamp := by
  have only : ∀ property ∈ properties, property.1 = codes "timestamp" → property.2 = .timestamp := by
    decide +kernel
  exact only _ named rfl

theorem accepts_eventAt (unicode : PyNumber.Unicode) (index : ℕ) (draws : Draws)
    (moment : Correlation.DateTime) : accepts unicode (eventAt index draws moment) = true := by
  obtain ⟨typed, routed⟩ := typed_varied index draws
  refine accepts_iff.mpr ⟨fun name mem => ?_, fun property mem value found => ?_⟩
  · rw [eventAt, lookup_assign]
    split_ifs with stamped
    · rfl
    · exact routed name ((List.mem_cons.mp mem).resolve_left stamped)
  · obtain ⟨name, check⟩ := property
    rw [eventAt, lookup_assign] at found
    split_ifs at found with stamped
    · obtain rfl : name = codes "timestamp" := stamped
      rw [mem_properties_timestamp mem, ← Option.some.inj found]
      exact IsoTime.matchesTimestamp_moment moment
    · exact accepts_of_suits ((suits_iff.mp (typed.of_lookup found)).2.2 _ mem rfl) unicode

theorem inRange_stamp (moment : Correlation.DateTime) : InRange (stamp moment) := by
  have digits {c : ℕ} (digit : PyNumber.isDigit c = true) : c < 0x110000 := by
    rw [PyNumber.isDigit, decide_eq_true_eq] at digit
    omega
  have text : stamp moment = IsoTime.wallText moment.wall.toNat ++ IsoTime.Zone.zulu.text :=
    IsoTime.replace_offset moment.wall.toNat
  rw [text]
  refine List.forall_mem_append.mpr ⟨fun c mem => ?_, by decide⟩
  simp only [IsoTime.wallText, IsoTime.clockText_eq, List.mem_append, List.mem_cons] at mem
  rcases mem with date | rfl | time
  · rcases IsoTime.mem_dateText date with rfl | digit
    · decide
    · exact digits digit
  · decide
  · rcases IsoTime.mem_timeText time with rfl | rfl | digit
    · decide
    · decide
    · exact digits digit

theorem writable_eventAt (index : ℕ) (draws : Draws) (moment : Correlation.DateTime) :
    writableMembers (eventAt index draws moment) := by
  have typed := (typed_varied index draws).1
  refine writableMembers_iff.mpr fun item mem => ?_
  rcases mem_assign mem with old | rfl
  · obtain ⟨inRange, scalar, -⟩ := suits_iff.mp (typed.allowed item old)
    exact ⟨inRange, writable_of_isScalar scalar⟩
  · have name : InRange (codes "timestamp") := by decide
    exact ⟨name, inRange_stamp moment⟩

/-! ## The file -/

theorem loadJsonl_corpusText {events : List Event}
    (writable : ∀ event ∈ events, writableMembers event) :
    loadJsonl (asChars (corpusText events)) = some (events.map recordOf) := by
  by_cases none : events = []
  · rw [none]
    rfl
  · rw [corpusText, ← toJsonl_eq_joined none]
    exact loadJsonl_toJsonl writable

theorem length_buildFrom {seed index count : ℕ} {draws : Draws} {events : List Event}
    (built : buildFrom seed index count draws = some events) : events.length = count := by
  induction count generalizing index draws events with
  | zero =>
    rw [← Option.some.inj built]
    rfl
  | succ count ih =>
    obtain ⟨moment, -, rest, later, rfl⟩ := buildFrom_succ.mp built
    rw [List.length_cons, ih later]

/-- The corpus has as many events as were asked for, the schema accepts each of them, and the file
reads back as these events, whatever the generator of random numbers gives. -/
theorem corpus_file (unicode : PyNumber.Unicode) {random : ℕ → Draws} {count seed : ℕ}
    {events : List Event} (built : build random count seed = some events) :
    events.length = count ∧
      (∀ event ∈ events, accepts unicode event = true ∧ (event.map Prod.fst).Nodup) ∧
      loadJsonl (asChars (corpusText events)) = some (events.map recordOf) := by
  refine ⟨length_buildFrom built, fun event mem => ?_, loadJsonl_corpusText fun event mem => ?_⟩
  · obtain ⟨k, -, draws, moment, -, rfl⟩ := mem_buildFrom built mem
    exact ⟨accepts_eventAt unicode _ draws moment,
      nodup_assign (typed_varied _ draws).1.distinct _ _⟩
  · obtain ⟨k, -, draws, moment, -, rfl⟩ := mem_buildFrom built mem
    exact writable_eventAt _ draws moment

theorem corpus_file_seven : ∃ events, build (fun _ => zeros) 40 7 = some events ∧
    events.length = 40 ∧ loadJsonl (asChars (corpusText events)) = some (events.map recordOf) := by
  obtain ⟨events, built⟩ := (@build_returns_iff (fun _ => zeros) 40 7).mpr (.inr (by decide))
  have file := corpus_file PyNumber.noTables built
  exact ⟨events, built, file.1, file.2.2⟩

end OtDetection.BenignCorpus
