import OtDetection.PyJson
import OtDetection.LokiSink
import OtDetection.SensorRecords

/-! What the schema says of the events of the adapters. The routing fields and the timestamp are the
adapter's own, and most values are converted; the others are passed through as the record has them. -/

namespace OtDetection.Collector
open PyText PyNumber FieldLookup ExceptSteps SensorRecords
open TelemetrySchema (Check accepts accepts_iff properties products services required)

/-! ## Events of an adapter -/

/-- A record passes the value through: it is left out, or the schema has a say. -/
def Passed (unicode : Unicode) (check : Check) (value : PyValue) : Prop :=
  value = .none ∨ check.accepts unicode value = true

/-- The schema names every field of an adapter, with the check that is here, and the Loki sink can
write its name. -/
def Typed (columns : List (String × Check)) : Prop :=
  (columns.map fun column => codes column.1).Nodup ∧ ∀ column ∈ columns,
    (codes column.1, column.2) ∈ properties ∧
      codes column.1 ∉ ["product", "service", "timestamp"].map codes ∧ Logfmt.IsKey (codes column.1)

instance (columns : List (String × Check)) : Decidable (Typed columns) :=
  inferInstanceAs (Decidable (_ ∧ _))

/-- The event as the Loki sink reads it, with texts in its routing fields. -/
def contractOf (event : Event) : Option LokiSink.ContractEvent :=
  match product : event.lookup (codes "product"), service : event.lookup (codes "service"),
    timestamp : event.lookup (codes "timestamp") with
  | some (.str p), some (.str s), some (.str t) =>
    if names : ∀ field ∈ event, Logfmt.IsKey field.1 then
      some ⟨event, p, s, t, product, service, timestamp, names⟩
    else none
  | _, _, _ => none

/-- An event of an adapter can be routed, whatever its fields are. -/
def Routed (unicode : Unicode) (event : Event) : Prop :=
  ∃ contract, contractOf event = some contract ∧ contract.product ∈ products ∧
    contract.service ∈ services ∧
    TelemetrySchema.matchesTimestamp unicode contract.timestamp = true

section Event

variable {unicode : Unicode} {product service : String} {timestamp : Text}
  {columns : List (String × Check)} {values : List PyValue}

/-- The fields of an adapter, some of which are left out. -/
def fieldsOf (columns : List (String × Check)) (values : List PyValue) : List (Text × PyValue) :=
  ((columns.map Prod.fst).map codes).zip values

theorem fieldsOf_eq_map (columns : List (String × Check)) (values : List PyValue) :
    fieldsOf columns values = (columns.zip values).map fun row => (codes row.1.1, row.2) := by
  rw [fieldsOf, List.map_map, List.zip_map_left]
  rfl

theorem map_fst_zip_sublist (columns : List (String × Check)) (values : List PyValue) :
    ((columns.zip values).map Prod.fst).Sublist columns := by
  induction columns generalizing values with
  | nil => exact List.Sublist.refl []
  | cons column columns ih =>
    cases values with
    | nil => exact List.nil_sublist _
    | cons value values => exact (ih values).cons_cons column

theorem distinct_fieldsOf (typed : Typed columns) : ((fieldsOf columns values).map Prod.fst).Nodup := by
  refine List.Nodup.sublist ?_ typed.1
  have sublist := (map_fst_zip_sublist columns values).map fun column => codes column.1
  rw [List.map_map] at sublist
  rwa [fieldsOf_eq_map, List.map_map]

theorem properties_distinct : (properties.map Prod.fst).Nodup := by decide +kernel

theorem check_unique {name : Text} {check other : Check} (named : (name, check) ∈ properties)
    (also : (name, other) ∈ properties) : check = other :=
  congrArg Prod.snd (List.inj_on_of_nodup_map properties_distinct named also rfl)

theorem accepts_event_iff (routed : codes product ∈ products ∧ codes service ∈ services)
    (stamped : TelemetrySchema.matchesTimestamp unicode timestamp = true) (typed : Typed columns) :
    accepts unicode (ContractEvent.event product service timestamp (fieldsOf columns values)) = true ↔
      ∀ row ∈ columns.zip values, Passed unicode row.1.2 row.2 := by
  have looked {name : Text} (other : name ∉ ["product", "service", "timestamp"].map codes) :=
    @ContractEvent.lookup_event product service timestamp _ (@distinct_fieldsOf _ values typed) name
      other
  constructor
  · intro accepted row mem
    obtain ⟨named, other, -⟩ := typed.2 row.1 (List.of_mem_zip mem).1
    have inside : (codes row.1.1, row.2) ∈ fieldsOf columns values := by
      rw [fieldsOf_eq_map]
      exact List.mem_map_of_mem mem
    have found := (PyJson.lookup_eq_some_iff (distinct_fieldsOf typed)).mpr inside
    by_cases given : ContractEvent.given row.2 = true
    · refine .inr ((accepts_iff.mp accepted).2 _ named row.2 ?_)
      rw [looked other, found, Option.filter, if_pos given]
    · refine .inl ?_
      cases value : row.2 with
      | none => rfl
      | bool _ | int _ | float _ | str _ | list _ | dict _ =>
        rw [value] at given
        exact absurd rfl given
  · intro passed
    refine accepts_iff.mpr ⟨?_, ?_⟩
    · have all : ∀ name ∈ required, name = codes "product" ∨ name = codes "service" ∨
          name = codes "timestamp" := by decide
      intro name mem
      rcases all name mem with rfl | rfl | rfl <;> rfl
    · rintro ⟨name, check⟩ named value found
      by_cases routing : name ∈ ["product", "service", "timestamp"].map codes
      · simp only [List.map_cons, List.map_nil, List.mem_cons, List.not_mem_nil, or_false] at routing
        rcases routing with rfl | rfl | rfl
        · obtain rfl := check_unique named (show (codes "product", .enum products) ∈ properties by decide)
          obtain rfl := Option.some.inj found
          exact List.contains_iff_mem.mpr routed.1
        · obtain rfl := check_unique named (show (codes "service", .enum services) ∈ properties by decide)
          obtain rfl := Option.some.inj found
          exact List.contains_iff_mem.mpr routed.2
        · obtain rfl := check_unique named (show (codes "timestamp", .timestamp) ∈ properties by decide)
          obtain rfl := Option.some.inj found
          exact stamped
      · rw [looked routing, Option.filter_eq_some_iff,
          PyJson.lookup_eq_some_iff (distinct_fieldsOf typed), fieldsOf_eq_map] at found
        obtain ⟨inside, given⟩ := found
        obtain ⟨row, mem, same⟩ := List.mem_map.mp inside
        obtain ⟨rfl, rfl⟩ := Prod.mk.inj same
        obtain rfl := check_unique named (typed.2 row.1 (List.of_mem_zip mem).1).1
        refine (passed row mem).resolve_left fun none => ?_
        rw [none] at given
        cases given

theorem routed_event (routed : codes product ∈ products ∧ codes service ∈ services)
    (stamped : TelemetrySchema.matchesTimestamp unicode timestamp = true) (typed : Typed columns) :
    Routed unicode (ContractEvent.event product service timestamp (fieldsOf columns values)) := by
  have names : ∀ field ∈ ContractEvent.event product service timestamp (fieldsOf columns values),
      Logfmt.IsKey field.1 := by
    have own : Logfmt.IsKey (codes "product") ∧ Logfmt.IsKey (codes "service") ∧
        Logfmt.IsKey (codes "timestamp") := by decide
    refine List.forall_mem_cons.mpr ⟨own.1, List.forall_mem_cons.mpr ⟨own.2.1,
      List.forall_mem_cons.mpr ⟨own.2.2, fun field mem => ?_⟩⟩⟩
    have inside := List.mem_of_mem_filter mem
    rw [fieldsOf_eq_map] at inside
    obtain ⟨row, paired, rfl⟩ := List.mem_map.mp inside
    exact (typed.2 row.1 (List.of_mem_zip paired).1).2.2
  exact ⟨_, dif_pos names, routed.1, routed.2, stamped⟩

end Event

/-! ## Adapters -/

section Adapters

variable {unicode : Unicode} {shortest : Double → PyFloat} {made : Event}

theorem stamped_seconds {seconds : Double} {timestamp : Text}
    (read : ContractEvent.normalizeSeconds seconds = .ok timestamp) :
    TelemetrySchema.matchesTimestamp unicode timestamp = true := by
  rw [ContractEvent.normalizeSeconds] at read
  cases moment : ContractEvent.fromtimestamp seconds with
  | none =>
    rw [moment] at read
    cases read
  | some moment' =>
    rw [moment] at read
    obtain rfl := Except.ok.inj read
    exact IsoTime.matchesTimestamp_moment moment'

theorem stamped_normalize {value : PyValue} {timestamp : Text}
    (read : ContractEvent.normalize unicode value = .ok timestamp) :
    TelemetrySchema.matchesTimestamp unicode timestamp = true := by
  revert read
  fun_cases ContractEvent.normalize unicode value with
  | case1 b => exact stamped_seconds
  | case2 n seconds _ => exact stamped_seconds
  | case4 f => exact stamped_seconds
  | case5 value _ _ _ text normal =>
    intro read
    obtain rfl := Except.ok.inj read
    obtain ⟨moment, -, rfl⟩ := Option.map_eq_some_iff.mp normal
    exact IsoTime.matchesTimestamp_moment moment
  | case3 | case6 => exact nofun

/-- The event can be routed, and the schema accepts it when it accepts what is passed through. -/
def Made (unicode : Unicode) (passed : List (Check × PyValue)) (made : Event) : Prop :=
  Routed unicode made ∧
    (accepts unicode made = true ↔ ∀ entry ∈ passed, Passed unicode entry.1 entry.2)

/-- The values with the checks of their fields. -/
def checked (columns : List (String × Check)) (values : List PyValue) : List (Check × PyValue) :=
  (columns.zip values).map fun row => (row.1.2, row.2)

theorem made_contract {product service : String} {timestamp : Text} {columns : List (String × Check)}
    (values : List PyValue) (routed : codes product ∈ products ∧ codes service ∈ services)
    (stamped : TelemetrySchema.matchesTimestamp unicode timestamp = true) (typed : Typed columns) :
    Made unicode (checked columns values)
      (ContractEvent.event product service timestamp (fieldsOf columns values)) := by
  refine ⟨routed_event routed stamped typed, ?_⟩
  rw [accepts_event_iff routed stamped typed, checked, List.forall_mem_map]

theorem made_event {product service : String} {timestamp : PyValue}
    {columns : List (String × Check)} {values : List PyValue}
    (routed : codes product ∈ products ∧ codes service ∈ services) (typed : Typed columns)
    (ran : SensorRecords.event unicode product service timestamp (columns.map Prod.fst) values =
      .ok made) : Made unicode (checked columns values) made := by
  obtain ⟨normalized, read, same⟩ := bind_eq_ok_iff.mp ran
  obtain rfl := Except.ok.inj same
  exact made_contract values routed (stamped_normalize (mapError_eq_ok_iff.mp read)) typed

theorem Made.congr {passed fewer : List (Check × PyValue)} (made_here : Made unicode passed made)
    (same : (∀ entry ∈ passed, Passed unicode entry.1 entry.2) ↔
      ∀ entry ∈ fewer, Passed unicode entry.1 entry.2) : Made unicode fewer made :=
  ⟨made_here.1, made_here.2.trans same⟩

def direction : Check := .enum (["request", "response"].map codes)

/-! ### Suricata -/

/-- `value.get(name)` of a value that has been looked into. -/
def look : PyValue → String → PyValue
  | .dict items, name => eventGet items name
  | _, _ => .none

theorem get_eq_ok {value found : PyValue} {name : String} (got : get value name = .ok found) :
    found = look value name := by
  cases value with
  | dict items => exact (Except.ok.inj got).symm
  | none | bool _ | int _ | float _ | str _ | list _ => cases got

def modbusColumns : List (String × Check) :=
  [("direction", direction), ("function_code", .integer), ("unit_id", .integer),
    ("src_ip", .string), ("dst_ip", .string), ("register", .integer), ("value", .integer)]

def registerOf (detail : PyValue) : PyValue :=
  match item (orEmpty (look detail "write")) "address" with
  | .ok given => given
  | .error _ => look (orEmpty (look detail "read")) "address"

/-- What the event of a side of a transaction passes through. -/
def modbusPassed (record : PyValue) (side : String) : List (Check × PyValue) :=
  let detail := look (orEmpty (look record "modbus")) side
  if truthy detail then
    [(.integer, look detail "function_raw"), (.integer, look detail "unit_id"),
      (.string, look record "src_ip"), (.string, look record "dest_ip"),
      (.integer, registerOf detail),
      (.integer, intOrNone (look (orEmpty (look detail "write")) "data"))]
  else []

theorem modbusSide_eq_ok {record : PyValue} {side : String} {given : Option Event}
    (one : side = "request" ∨ side = "response")
    (ran : modbusSide unicode record side = .ok given) :
    (∀ made ∈ given, Made unicode (modbusPassed record side) made) ∧
      (given = none → modbusPassed record side = []) := by
  obtain ⟨_, body, ran⟩ := bind_eq_ok_iff.mp ran
  obtain rfl := get_eq_ok body
  obtain ⟨_, detail, ran⟩ := bind_eq_ok_iff.mp ran
  obtain rfl := get_eq_ok detail
  rw [modbusPassed]
  split_ifs at ran ⊢ with populated
  · obtain ⟨_, write, ran⟩ := bind_eq_ok_iff.mp ran
    obtain rfl := get_eq_ok write
    obtain ⟨_, read, ran⟩ := bind_eq_ok_iff.mp ran
    obtain rfl := get_eq_ok read
    obtain ⟨_, data, ran⟩ := bind_eq_ok_iff.mp ran
    obtain rfl := get_eq_ok data
    obtain ⟨timestamp, -, ran⟩ := bind_eq_ok_iff.mp ran
    obtain ⟨_, function, ran⟩ := bind_eq_ok_iff.mp ran
    obtain rfl := get_eq_ok function
    obtain ⟨_, unit, ran⟩ := bind_eq_ok_iff.mp ran
    obtain rfl := get_eq_ok unit
    obtain ⟨_, source, ran⟩ := bind_eq_ok_iff.mp ran
    obtain rfl := get_eq_ok source
    obtain ⟨_, destination, ran⟩ := bind_eq_ok_iff.mp ran
    obtain rfl := get_eq_ok destination
    obtain ⟨_, address, ran⟩ := bind_eq_ok_iff.mp ran
    obtain rfl := get_eq_ok address
    obtain ⟨made, built, same⟩ := bind_eq_ok_iff.mp ran
    obtain rfl := Except.ok.inj same
    refine ⟨?_, nofun⟩
    rintro _ ⟨⟩
    have all := @made_event unicode made "ot_ndr" "modbus" timestamp modbusColumns _ (by decide)
      (by decide +kernel) built
    refine all.congr (List.forall_mem_cons.trans (and_iff_right (.inr ?_)))
    rcases one with rfl | rfl <;> rfl
  · obtain rfl := Except.ok.inj ran
    exact ⟨nofun, fun _ => rfl⟩

def dnp3Columns : List (String × Check) :=
  [("direction", direction), ("function_code", .integer), ("link_source", .integer),
    ("link_destination", .integer), ("link_function", .integer), ("object_group", .integer),
    ("object_variation", .integer), ("object_count", .integer), ("application_sequence", .integer),
    ("src_ip", .string), ("dst_ip", .string)]

/-- The first object of an application message, if it has one. -/
def firstObject (application : PyValue) : PyValue :=
  match firstOf (orElse (look application "objects") (.list [])) with
  | .ok first => first
  | .error _ => .none

def dnp3Passed (record : PyValue) : List (Check × PyValue) :=
  let body := orEmpty (look record "dnp3")
  let control := orEmpty (look body "control")
  let application := orEmpty (look body "application")
  let first := firstObject application
  checked dnp3Columns [look body "type", look application "function_code", look body "src",
    look body "dst", look control "function_code", look first "group", look first "variation",
    look first "count", look (orEmpty (look application "control")) "sequence",
    look record "src_ip", look record "dest_ip"]

theorem mapM_get_eq_ok {asked : List (PyValue × String)} {found : List PyValue}
    (got : (asked.map fun ask => get ask.1 ask.2).mapM id = .ok found) :
    found = asked.map fun ask => look ask.1 ask.2 := by
  have each := mapM_eq_ok_iff.mp got
  rw [List.forall₂_map_left_iff] at each
  refine (List.forall₂_eq_eq_eq ▸ List.forall₂_map_right_iff.mpr (each.flip.imp ?_))
  exact fun value ask got => get_eq_ok got

theorem made_dnp3 {record : PyValue} (ran : dnp3 unicode record = .ok made) :
    Made unicode (dnp3Passed record) made := by
  obtain ⟨_, body, ran⟩ := bind_eq_ok_iff.mp ran
  obtain rfl := get_eq_ok body
  obtain ⟨_, control, ran⟩ := bind_eq_ok_iff.mp ran
  obtain rfl := get_eq_ok control
  obtain ⟨_, application, ran⟩ := bind_eq_ok_iff.mp ran
  obtain rfl := get_eq_ok application
  obtain ⟨_, applicationControl, ran⟩ := bind_eq_ok_iff.mp ran
  obtain rfl := get_eq_ok applicationControl
  obtain ⟨_, objects, ran⟩ := bind_eq_ok_iff.mp ran
  obtain rfl := get_eq_ok objects
  obtain ⟨first, object, ran⟩ := bind_eq_ok_iff.mp ran
  obtain ⟨timestamp, -, ran⟩ := bind_eq_ok_iff.mp ran
  obtain ⟨values, found, built⟩ := bind_eq_ok_iff.mp ran
  have object' : firstObject (orEmpty (look (orEmpty (look record "dnp3")) "application")) = first := by
    rw [firstObject, object]
  obtain rfl := @mapM_get_eq_ok [(_, _), (_, _), (_, _), (_, _), (_, _), (_, _), (_, _), (_, _),
    (_, _), (_, _), (_, _)] values found
  rw [dnp3Passed, object']
  exact made_event (by decide) (by decide +kernel) built

def suricataPassed (record : PyValue) : List (Check × PyValue) :=
  match look record "event_type" with
  | .str kind =>
    if kind = codes "modbus" then modbusPassed record "request" ++ modbusPassed record "response"
    else if kind = codes "dnp3" then dnp3Passed record
    else []
  | _ => []

/-- Each event can be routed, and the schema accepts all of them when it accepts what is passed
through. -/
def AllMade (unicode : Unicode) (passed : List (Check × PyValue)) (events : List Event) : Prop :=
  (∀ event ∈ events, Routed unicode event) ∧
    ((∀ event ∈ events, accepts unicode event = true) ↔
      ∀ entry ∈ passed, Passed unicode entry.1 entry.2)

theorem AllMade.none : AllMade unicode [] [] :=
  ⟨List.forall_mem_nil _, iff_of_true (List.forall_mem_nil _) (List.forall_mem_nil _)⟩

theorem AllMade.single {passed : List (Check × PyValue)} (made_here : Made unicode passed made) :
    AllMade unicode passed [made] :=
  ⟨List.forall_mem_singleton.mpr made_here.1, List.forall_mem_singleton.trans made_here.2⟩

theorem AllMade.append {front back : List (Check × PyValue)} {events others : List Event}
    (first : AllMade unicode front events) (rest : AllMade unicode back others) :
    AllMade unicode (front ++ back) (events ++ others) := by
  refine ⟨List.forall_mem_append.mpr ⟨first.1, rest.1⟩, ?_⟩
  rw [List.forall_mem_append, List.forall_mem_append, first.2, rest.2]

theorem allMade_modbusSide {record : PyValue} {side : String} {given : Option Event}
    (one : side = "request" ∨ side = "response")
    (ran : modbusSide unicode record side = .ok given) :
    AllMade unicode (modbusPassed record side) given.toList := by
  obtain ⟨made_here, absent⟩ := modbusSide_eq_ok one ran
  cases given with
  | none =>
    rw [absent rfl]
    exact AllMade.none
  | some made => exact AllMade.single (made_here made rfl)

theorem allMade_suricata {record : PyValue} {events : List Event}
    (ran : suricata unicode record = .ok events) :
    AllMade unicode (suricataPassed record) events := by
  obtain ⟨eventType, got, ran⟩ := bind_eq_ok_iff.mp ran
  rw [suricataPassed, ← get_eq_ok got]
  cases eventType with
  | str kind =>
    dsimp only at ran ⊢
    split_ifs at ran ⊢ with modbus dnp3
    · obtain ⟨request, first, ran⟩ := bind_eq_ok_iff.mp ran
      obtain ⟨response, second, same⟩ := bind_eq_ok_iff.mp ran
      obtain rfl := Except.ok.inj same
      exact (allMade_modbusSide (.inl rfl) first).append (allMade_modbusSide (.inr rfl) second)
    · obtain ⟨made, built, rfl⟩ := map_eq_ok_iff.mp ran
      exact AllMade.single (made_dnp3 built)
    · obtain rfl := Except.ok.inj ran
      exact AllMade.none
  | none | bool _ | int _ | float _ | list _ | dict _ =>
    obtain rfl := Except.ok.inj ran
    exact AllMade.none

/-! ### SNMP and NetFlow -/

def snmpColumns : List (String × Check) :=
  [("src_ip", .string), ("device", .string), ("event_type", .string), ("oid", .string),
    ("snmp_value", .string), ("severity", .string)]

theorem passed_string (value : PyValue) : Passed unicode .string (Netflow.string unicode value) := by
  cases value with
  | none => exact .inl rfl
  | bool _ | int _ | float _ | str _ | list _ | dict _ => exact .inr rfl

def snmpPassed (record : PyValue) : List (Check × PyValue) :=
  [(.string, orElse (look record "device") (look record "src_ip")),
    (.string, look record "event_type"), (.string, look record "oid"),
    (.string, look record "severity")]

theorem made_snmp {record : PyValue} (ran : snmp unicode record = .ok made) :
    Made unicode (snmpPassed record) made := by
  obtain ⟨_, device, ran⟩ := bind_eq_ok_iff.mp ran
  obtain rfl := get_eq_ok device
  obtain ⟨_, source, ran⟩ := bind_eq_ok_iff.mp ran
  obtain rfl := get_eq_ok source
  obtain ⟨timestamp, -, ran⟩ := bind_eq_ok_iff.mp ran
  obtain ⟨_, eventType, ran⟩ := bind_eq_ok_iff.mp ran
  obtain rfl := get_eq_ok eventType
  obtain ⟨_, oid, ran⟩ := bind_eq_ok_iff.mp ran
  obtain rfl := get_eq_ok oid
  obtain ⟨value, -, ran⟩ := bind_eq_ok_iff.mp ran
  obtain ⟨_, severity, built⟩ := bind_eq_ok_iff.mp ran
  obtain rfl := get_eq_ok severity
  have all := @made_event unicode made "ot_snmp" "snmp" timestamp snmpColumns _ (by decide)
    (by decide +kernel) built
  refine all.congr ?_
  simp only [checked, snmpColumns, snmpPassed, List.zip_cons_cons, List.zip_nil_right, List.map_cons,
    List.map_nil, List.forall_mem_cons, List.not_mem_nil, false_imp_iff, implies_true, and_true,
    passed_string, true_and, and_self_left]

def netflowColumns : List (String × Check) :=
  [("src_ip", .string), ("dst_ip", .string), ("src_port", .integer), ("dst_port", .integer),
    ("proto", .string), ("bytes", .integer), ("packets", .integer), ("duration", .number),
    ("flow_state", .string)]

def netflowPassed (record : PyValue) : List (Check × PyValue) :=
  match record with
  | .dict record => [(.string, Netflow.either record "src_ip" "srcaddr"),
    (.string, Netflow.either record "dst_ip" "dstaddr")]
  | _ => []

theorem passed_int {value found : PyValue} (read : Netflow.int unicode value = .ok found) :
    Passed unicode .integer found := by
  rw [Netflow.int] at read
  split at read
  · obtain rfl := Except.ok.inj read
    exact .inr rfl
  · cases read
  · obtain rfl := Except.ok.inj read
    exact .inl rfl

theorem passed_float {value found : PyValue} (read : Netflow.float unicode shortest value = .ok found) :
    Passed unicode .number found := by
  revert read
  fun_cases Netflow.float unicode shortest value with
  | case1 | case2 | case4 | case5 =>
    intro read
    obtain rfl := Except.ok.inj read
    exact .inr rfl
  | case3 => exact nofun
  | case6 | case7 =>
    intro read
    obtain rfl := Except.ok.inj read
    exact .inl rfl

theorem made_netflow {record : PyValue} (ran : netflow unicode shortest record = .ok made) :
    Made unicode (netflowPassed record) made := by
  cases record with
  | dict record =>
    have read : Netflow.record unicode shortest record = .ok made := mapError_eq_ok_iff.mp ran
    obtain ⟨timestamp, ran⟩ : ∃ timestamp, (do
        let given ← Netflow.fields unicode shortest record
        let normalized ← ContractEvent.normalize unicode timestamp
        Except.ok (ContractEvent.event "ot_flow" "flow" normalized given)) = .ok made := by
      rw [Netflow.record] at read
      split at read
      · exact ⟨_, read⟩
      · cases read
    obtain ⟨fields, given, ran⟩ := bind_eq_ok_iff.mp ran
    obtain ⟨normalized, stamped, same⟩ := bind_eq_ok_iff.mp ran
    obtain rfl := Except.ok.inj same
    obtain ⟨source, sourcePort, given⟩ := bind_eq_ok_iff.mp given
    obtain ⟨destination, destinationPort, given⟩ := bind_eq_ok_iff.mp given
    obtain ⟨bytes, readBytes, given⟩ := bind_eq_ok_iff.mp given
    obtain ⟨packets, readPackets, given⟩ := bind_eq_ok_iff.mp given
    obtain ⟨duration, readDuration, same⟩ := bind_eq_ok_iff.mp given
    obtain rfl := Except.ok.inj same
    have all := @made_contract unicode "ot_flow" "flow" normalized netflowColumns
      [Netflow.either record "src_ip" "srcaddr", Netflow.either record "dst_ip" "dstaddr", source,
        destination, Netflow.string unicode (Netflow.either record "proto" "protocol"), bytes, packets,
        duration, Netflow.string unicode (eventGet record "flow_state")]
      (by decide) (stamped_normalize stamped) (by decide +kernel)
    refine all.congr ?_
    simp only [checked, netflowColumns, netflowPassed, List.zip_cons_cons, List.zip_nil_right,
      List.map_cons, List.map_nil, List.forall_mem_cons, List.not_mem_nil, false_imp_iff, implies_true,
      and_true, passed_string, passed_int sourcePort, passed_int destinationPort,
      passed_int readBytes, passed_int readPackets, passed_float readDuration]
  | none | bool _ | int _ | float _ | str _ | list _ => cases ran

/-! ### Zeek -/

theorem made_eventAt {product service : String} {row : ZeekLog.Row}
    {columns : List (String × Check)} {values : List PyValue} {given : Option Event}
    (routed : codes product ∈ products ∧ codes service ∈ services) (typed : Typed columns)
    (passed : ∀ entry ∈ checked columns values, Passed unicode entry.1 entry.2)
    (ran : ZeekEvents.eventAt unicode product service row (fieldsOf columns values) = .ok given) :
    ∀ made ∈ given, Made unicode [] made := by
  obtain ⟨seconds, -, ran⟩ := bind_eq_ok_iff.mp ran
  obtain ⟨timestamp, stamped, same⟩ := bind_eq_ok_iff.mp ran
  obtain rfl := Except.ok.inj same
  rintro _ ⟨⟩
  exact (made_contract values routed (stamped_seconds stamped) typed).congr
    (iff_of_true passed (List.forall_mem_nil _))

theorem passed_raw (text : Option Text) : Passed unicode .string (ZeekEvents.raw text) := by
  cases text with
  | none => exact .inl rfl
  | some text => exact .inr rfl

theorem passed_orNone (text : Option Text) : Passed unicode .string (ZeekEvents.orNone text) := by
  cases text with
  | none => exact .inl rfl
  | some text =>
    rw [ZeekEvents.orNone]
    split_ifs
    · exact .inl rfl
    · exact .inr rfl

theorem passed_zeekInt (text : Option Text) : Passed unicode .integer (ZeekEvents.int unicode text) := by
  rw [ZeekEvents.int]
  split
  · exact .inr rfl
  · exact .inl rfl

theorem passed_zeekFloat (text : Option Text) :
    Passed unicode .number (ZeekEvents.float unicode shortest text) := by
  rw [ZeekEvents.float]
  split
  · exact .inr rfl
  · exact .inl rfl

theorem passed_sum (texts : List (Option Text)) :
    Passed unicode .integer (ZeekEvents.sum unicode texts) := by
  rw [ZeekEvents.sum]
  split
  · exact .inl rfl
  · exact .inr rfl

theorem passed_direction (text : Text) : Passed unicode direction (ZeekEvents.direction text) := by
  rw [ZeekEvents.direction]
  split_ifs
  · exact .inr rfl
  · exact .inr rfl
  · exact .inl rfl

theorem passed_side {row : ZeekLog.Row} {side : String} {name : Text}
    (reported : ZeekEvents.dnp3Side row = some (side, name)) :
    direction.accepts unicode (.str (codes side)) = true := by
  rw [ZeekEvents.dnp3Side] at reported
  split_ifs at reported
  · obtain ⟨rfl, -⟩ := Prod.mk.inj (Option.some.inj reported)
    rfl
  · obtain ⟨rfl, -⟩ := Prod.mk.inj (Option.some.inj reported)
    rfl

def connColumns : List (String × Check) :=
  [("src_ip", .string), ("dst_ip", .string), ("src_port", .integer), ("dst_port", .integer),
    ("proto", .string), ("app_protocol", .string), ("duration", .number), ("bytes", .integer),
    ("packets", .integer), ("flow_state", .string)]

def zeekModbusColumns : List (String × Check) :=
  [("direction", direction), ("function_code", .integer), ("unit_id", .integer), ("src_ip", .string),
    ("dst_ip", .string)]

def zeekDnp3Columns : List (String × Check) :=
  [("direction", direction), ("function_code", .integer), ("src_ip", .string), ("dst_ip", .string)]

theorem made_conn {row : ZeekLog.Row} {given : Option Event}
    (ran : ZeekEvents.conn unicode shortest row = .ok given) : ∀ made ∈ given, Made unicode [] made := by
  refine @made_eventAt unicode "ot_flow" "flow" row connColumns [_, _, _, _, _, _, _, _, _, _] given
    (by decide) (by decide +kernel) ?_ ran
  simp only [checked, connColumns, List.zip_cons_cons, List.zip_nil_right, List.map_cons,
    List.map_nil, List.forall_mem_cons, List.not_mem_nil, false_imp_iff, implies_true, passed_raw,
    passed_zeekInt, passed_orNone, passed_zeekFloat, passed_sum, and_self]

theorem made_no_event {given : Option Event}
    (none : (Except.ok Option.none : Except ContractEvent.Error (Option Event)) = .ok given) :
    ∀ made ∈ given, Made unicode [] made := by
  intro made mem
  rw [← Except.ok.inj none] at mem
  cases mem

theorem made_zeekModbus {row : ZeekLog.Row} {given : Option Event}
    (ran : ZeekEvents.modbus unicode row = .ok given) : ∀ made ∈ given, Made unicode [] made := by
  rw [ZeekEvents.modbus] at ran
  cases listed : ZeekEvents.modbusFunctions.lookup ((ZeekEvents.get row "func").getD []) with
  | none =>
    rw [listed] at ran
    exact made_no_event ran
  | some code =>
    rw [listed] at ran
    refine @made_eventAt unicode "ot_ndr" "modbus" row zeekModbusColumns [_, _, _, _, _] given
      (by decide) (by decide +kernel) ?_ ran
    simp only [checked, zeekModbusColumns, List.zip_cons_cons, List.zip_nil_right, List.map_cons,
      List.map_nil, List.forall_mem_cons, List.not_mem_nil, false_imp_iff, implies_true, passed_raw,
      passed_zeekInt, passed_direction, and_true, true_and]
    exact .inr rfl

theorem made_zeekDnp3 {row : ZeekLog.Row} {given : Option Event}
    (ran : ZeekEvents.dnp3 unicode row = .ok given) : ∀ made ∈ given, Made unicode [] made := by
  rw [ZeekEvents.dnp3] at ran
  cases reported : ZeekEvents.dnp3Side row with
  | none =>
    rw [reported] at ran
    exact made_no_event ran
  | some reported_side =>
    obtain ⟨side, name⟩ := reported_side
    rw [reported] at ran
    dsimp only at ran
    cases listed : ZeekEvents.dnp3Functions.lookup name with
    | none =>
      rw [listed] at ran
      exact made_no_event ran
    | some code =>
      rw [listed] at ran
      refine @made_eventAt unicode "ot_ndr" "dnp3" row zeekDnp3Columns [_, _, _, _] given
        (by decide) (by decide +kernel) ?_ ran
      simp only [checked, zeekDnp3Columns, List.zip_cons_cons, List.zip_nil_right, List.map_cons,
        List.map_nil, List.forall_mem_cons, List.not_mem_nil, false_imp_iff, implies_true,
        passed_raw, and_true]
      exact ⟨.inr (passed_side reported), .inr rfl⟩

theorem made_zeek {kind : ZeekEvents.Kind} {row : ZeekLog.Row} {given : Option Event}
    (ran : ZeekEvents.convert unicode shortest kind row = .ok given) :
    ∀ made ∈ given, Made unicode [] made := by
  cases kind with
  | conn => exact made_conn ran
  | modbus => exact made_zeekModbus ran
  | dnp3 => exact made_zeekDnp3 ran

end Adapters

end OtDetection.Collector
