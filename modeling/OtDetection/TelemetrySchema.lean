import OtDetection.IsoTime

/-! The telemetry schema as the validator checks it: a required field has to be there, every
field that the schema names has its type, and any other field is free. -/

namespace OtDetection.TelemetrySchema
open PyText PyNumber FieldLookup IsoTime

def isInteger : PyValue → Bool
  | .int _ => true
  | .float f =>
    match doubleOfFloat f with
    | .finite q => q.den = 1
    | _ => false
  | _ => false

def isNumber : PyValue → Bool
  | .int _ | .float _ => true
  | _ => false

section Pattern

variable (unicode : Unicode)

def skipDigits (n : ℕ) (text : Text) : Option Text :=
  if n ≤ text.length ∧ (text.take n).all (isDecimal unicode) then some (text.drop n) else none

def skipChar (c : ℕ) : Text → Option Text
  | [] => none
  | first :: rest => if first = c then some rest else none

def skipFraction : Text → Text
  | 0x2E :: rest =>
    if rest.takeWhile (isDecimal unicode) = [] then 0x2E :: rest
    else rest.dropWhile (isDecimal unicode)
  | text => text

/-- `re.search` of the pattern of a timestamp, whose `$` is also before a last newline. -/
def matchesTimestamp (text : Text) : Bool :=
  let rest := do
    let rest ← (skipDigits unicode 4 text).bind (skipChar 0x2D)
    let rest ← (skipDigits unicode 2 rest).bind (skipChar 0x2D)
    let rest ← (skipDigits unicode 2 rest).bind (skipChar 0x54)
    let rest ← (skipDigits unicode 2 rest).bind (skipChar 0x3A)
    let rest ← (skipDigits unicode 2 rest).bind (skipChar 0x3A)
    let rest ← skipDigits unicode 2 rest
    skipChar 0x5A (skipFraction unicode rest)
  rest = some [] ∨ rest = some [0x0A]

/-- What the schema asks of a field. -/
inductive Check
  | timestamp
  | enum (values : List Text)
  | string
  | integer
  | number
  deriving DecidableEq

def Check.accepts : Check → PyValue → Bool
  | .timestamp, .str text => matchesTimestamp unicode text
  | .enum values, .str text => values.contains text
  | .string, .str _ => true
  | .integer, value => isInteger value
  | .number, value => isNumber value
  | _, _ => false

def required : List Text := ["timestamp", "product", "service"].map codes

def products : List Text := ["ot_ndr", "ot_firewall", "ot_process", "ot_flow", "ot_snmp"].map codes

def services : List Text :=
  ["modbus", "dnp3", "s7comm", "opcua", "iptables", "safety_monitor", "flow", "snmp"].map codes

def propertyGroups : List (Check × List String) :=
  [(.timestamp, ["timestamp"]), (.enum products, ["product"]), (.enum services, ["service"]),
    (.enum (["request", "response"].map codes), ["direction"]),
    (.string, ["src_ip", "dst_ip", "src_zone", "dst_zone"]),
    (.integer, ["src_port", "dst_port"]), (.string, ["proto"]), (.integer, ["bytes", "packets"]),
    (.number, ["duration"]),
    (.string, ["app_protocol", "flow_state", "device", "oid", "snmp_value", "severity",
      "action"]),
    (.integer, ["function_code"]), (.string, ["function_name"]),
    (.integer, ["unit_id", "register", "value", "exception_code", "link_source",
      "link_destination", "link_function"]),
    (.string, ["link_function_name"]),
    (.integer, ["transport_sequence", "application_sequence", "object_group",
      "object_variation", "object_count", "control_code", "iin", "rosctr", "pdu_reference",
      "parameter_length", "data_length", "cotp_type"]),
    (.string, ["message_type", "chunk_type"]), (.integer, ["secure_channel_id"]),
    (.string, ["security_policy_uri"]),
    (.integer, ["token_id", "sequence_number", "request_id", "service_id"]),
    (.string, ["opcua_service", "event_type", "asset"]), (.number, ["tank_level_pct"]),
    (.string, ["actor", "response"])]

def properties : List (Text × Check) :=
  propertyGroups.flatMap fun group => group.2.map fun name => (codes name, group.1)

/-- `schema_errors` is empty. -/
def accepts (event : Event) : Bool :=
  (required.all fun name => (event.lookup name).isSome) ∧
    properties.all fun property => ((event.lookup property.1).map
      (property.2.accepts unicode)).getD true

end Pattern

variable {unicode : Unicode}

theorem accepts_iff {event : Event} :
    accepts unicode event = true ↔ (∀ name ∈ required, (event.lookup name).isSome) ∧
      ∀ property ∈ properties, ∀ value, event.lookup property.1 = some value →
        property.2.accepts unicode value = true := by
  rw [accepts, decide_eq_true_eq, List.all_eq_true, List.all_eq_true]
  refine and_congr_right fun _ => forall₂_congr fun property _ => ?_
  cases event.lookup property.1 with
  | none => exact iff_of_true rfl fun value found => nomatch found
  | some value => exact ⟨fun checked value' same => Option.some.inj same ▸ checked,
      fun all => all value rfl⟩

theorem isInteger_cases {value : PyValue} (integer : isInteger value = true) :
    (∃ n, value = .int n) ∨ ∃ f q, value = .float f ∧ doubleOfFloat f = .finite q := by
  cases value with
  | int n => exact .inl ⟨n, rfl⟩
  | float f =>
    rw [isInteger] at integer
    cases double : doubleOfFloat f with
    | finite q => exact .inr ⟨f, q, rfl, double⟩
    | nan | inf negative =>
      rw [double] at integer
      cases integer
  | none | bool b | str text | list items | dict items => cases integer

theorem mem_properties {check : Check} {names : List String} {name : String}
    (group : (check, names) ∈ propertyGroups) (mem : name ∈ names) :
    (codes name, check) ∈ properties :=
  List.mem_flatMap.mpr ⟨(check, names), group, List.mem_map.mpr ⟨name, mem, rfl⟩⟩

theorem accepts_field {event : Event} (accepted : accepts unicode event = true) {name : Text}
    {check : Check} (named : (name, check) ∈ properties) {value : PyValue}
    (found : event.lookup name = some value) : check.accepts unicode value = true :=
  (accepts_iff.mp accepted).2 (name, check) named value found

end OtDetection.TelemetrySchema
