import OtDetection.FieldLookup
import OtDetection.IsoTime
import OtDetection.JsonValues

/-! The generator of the benign corpus. The templates repeat with a fixed period, the generator of
random numbers moves the values of some fields, and the clock starts at a place of the seed. -/

namespace OtDetection.BenignCorpus
open PyText IsoTime
open Correlation (DateTime)
open JsonValues (assign)

/-! ## Templates -/

def text (key value : String) : Text × PyValue := (codes key, .str (codes value))

def number (key : String) (value : ℤ) : Text × PyValue := (codes key, .int value)

def source (product service : String) : Event := [text "product" product, text "service" service]

def modbus : Event := source "ot_ndr" "modbus"

def dnp3 : Event := source "ot_ndr" "dnp3"

def s7 : Event := source "ot_ndr" "s7comm"

def opcua : Event := source "ot_ndr" "opcua"

def fw : Event := source "ot_firewall" "iptables"

def proc : Event := source "ot_process" "safety_monitor"

def flow : Event := source "ot_flow" "flow"

def snmp : Event := source "ot_snmp" "snmp"

theorem digit_lt (n : ℕ) : n % 10 < 10 := Nat.mod_lt n (by decide)

def thousandths (n : ℕ) : PyValue :=
  let digit (d : ℕ) : Fin 10 := ⟨d % 10, digit_lt d⟩
  if n < 10 then .float (.finite false [digit n] (-2))
  else if n % 10 = 0 then .float (.finite false [digit (n / 10)] (-1))
  else .float (.finite false [digit (n / 10), digit n] (-1))

def templates : List Event := [
  modbus ++ [text "direction" "request", number "function_code" 3, text "src_ip" "172.22.0.10",
    text "dst_ip" "172.21.0.10", number "unit_id" 1, number "register" 0],
  modbus ++ [text "direction" "request", number "function_code" 4, text "src_ip" "172.22.0.10",
    text "dst_ip" "172.21.0.11", number "unit_id" 1, number "register" 100],
  modbus ++ [text "direction" "request", number "function_code" 6, text "src_ip" "172.21.0.20",
    text "dst_ip" "172.21.0.10", number "unit_id" 1, number "register" 1024, number "value" 1],
  modbus ++ [text "direction" "request", number "function_code" 16, text "src_ip" "172.21.0.20",
    text "dst_ip" "172.21.0.12", number "unit_id" 1, number "register" 512, number "value" 1],
  modbus ++ [text "direction" "response", number "function_code" 3, text "src_ip" "172.21.0.10",
    text "dst_ip" "172.22.0.10", number "unit_id" 1],
  modbus ++ [text "direction" "response", number "function_code" 6, text "src_ip" "172.21.0.10",
    text "dst_ip" "172.21.0.20", number "unit_id" 1],
  dnp3 ++ [text "direction" "request", number "function_code" 1, number "link_source" 1,
    number "link_destination" 10, number "object_group" 1],
  dnp3 ++ [text "direction" "request", number "function_code" 20, number "link_source" 2,
    number "link_destination" 10],
  dnp3 ++ [text "direction" "request", number "function_code" 5, number "link_source" 1,
    number "link_destination" 10, number "object_group" 12, number "control_code" 3],
  dnp3 ++ [text "direction" "response", number "function_code" 129, number "link_source" 10,
    number "link_destination" 1, number "iin" 0],
  s7 ++ [text "direction" "request", number "function_code" 4, text "src_ip" "172.21.0.20",
    text "dst_ip" "172.21.0.10"],
  s7 ++ [text "direction" "request", number "function_code" 240, text "src_ip" "172.21.0.20",
    text "dst_ip" "172.21.0.10"],
  s7 ++ [text "direction" "request", number "function_code" 5, text "src_ip" "172.21.0.20",
    text "dst_ip" "172.21.0.10"],
  s7 ++ [text "direction" "response", number "function_code" 4, number "rosctr" 3],
  opcua ++ [text "message_type" "MSG", text "opcua_service" "ReadRequest",
    number "service_id" 631, text "direction" "request"],
  opcua ++ [text "message_type" "MSG", text "opcua_service" "ReadResponse",
    number "service_id" 634, text "direction" "response"],
  opcua ++ [text "message_type" "MSG", text "opcua_service" "ActivateSessionRequest",
    number "service_id" 473, text "direction" "request"],
  opcua ++ [text "message_type" "MSG", text "opcua_service" "CreateSessionRequest",
    number "service_id" 467, text "direction" "request"],
  opcua ++ [text "message_type" "CLO", text "direction" "request"],
  fw ++ [text "action" "ACCEPT", text "proto" "TCP", text "src_zone" "supervisory",
    text "dst_zone" "control", text "src_ip" "172.22.0.10", text "dst_ip" "172.21.0.10",
    number "dst_port" 502],
  fw ++ [text "action" "ACCEPT", text "proto" "TCP", text "src_zone" "ops",
    text "dst_zone" "control", text "src_ip" "172.23.0.50", text "dst_ip" "172.21.0.10",
    number "dst_port" 502],
  fw ++ [text "action" "ACCEPT", text "proto" "TCP", text "src_zone" "control",
    text "dst_zone" "field", text "src_ip" "172.21.0.20", text "dst_ip" "172.31.0.10",
    number "dst_port" 20000],
  fw ++ [text "action" "ACCEPT", text "proto" "TCP", text "src_zone" "supervisory",
    text "dst_zone" "ops", text "src_ip" "172.22.0.10", text "dst_ip" "172.23.0.10",
    number "dst_port" 8086],
  fw ++ [text "action" "ACCEPT", text "proto" "TCP", text "src_zone" "it", text "dst_zone" "dmz",
    text "src_ip" "172.24.0.10", text "dst_ip" "172.25.0.2", number "dst_port" 443],
  fw ++ [text "action" "DROP", text "proto" "ICMP", text "src_zone" "it",
    text "dst_zone" "control", text "src_ip" "172.24.0.2", text "dst_ip" "172.21.0.10"],
  proc ++ [text "event_type" "process_update", text "asset" "plc_intake", number "register" 100,
    number "value" 0, number "tank_level_pct" 42, text "actor" "172.22.0.10",
    text "response" "none"],
  proc ++ [text "event_type" "process_update", text "asset" "plc_treatment",
    number "register" 200, number "value" 55, number "tank_level_pct" 55,
    text "actor" "172.22.0.10", text "response" "none"],
  proc ++ [text "event_type" "process_safety_violation", text "asset" "plc_intake",
    number "register" 100, number "value" 1, number "tank_level_pct" 97,
    text "actor" "172.22.0.10", text "response" "auto_mitigated"],
  flow ++ [text "src_ip" "172.21.0.20", text "dst_ip" "172.31.0.10", number "src_port" 42000,
    number "dst_port" 20000, text "proto" "tcp", number "bytes" 500, number "packets" 10,
    (codes "duration", thousandths 10), text "flow_state" "SF"],
  flow ++ [text "src_ip" "172.22.0.10", text "dst_ip" "172.21.0.10", number "src_port" 41000,
    number "dst_port" 502, text "proto" "tcp", number "bytes" 300, number "packets" 8,
    (codes "duration", thousandths 8), text "flow_state" "SF"],
  flow ++ [text "src_ip" "172.24.0.10", text "dst_ip" "172.25.0.2", number "src_port" 51000,
    number "dst_port" 443, text "proto" "tcp", number "bytes" 200, number "packets" 6,
    (codes "duration", thousandths 20), text "flow_state" "SF"],
  snmp ++ [text "device" "172.21.0.10", text "src_ip" "172.21.0.10",
    text "event_type" "interface_up", text "oid" "1.3.6.1.6.3.1.1.5.4",
    text "snmp_value" "linkUp", text "severity" "info"],
  snmp ++ [text "device" "172.21.0.10", text "src_ip" "172.21.0.10",
    text "event_type" "heartbeat", text "oid" "1.3.6.1.2.1.1.3.0", text "snmp_value" "123456",
    text "severity" "info"]]

/-- `templates[index % len(templates)]`. -/
def templateAt (index : ℕ) : Event := templates.getD (index % templates.length) []

/-! ## Random numbers -/

abbrev Draws := ℕ → ℕ

def drawn {α : Type} (make : ℕ → α) : StateM Draws α :=
  fun draws => (make (draws 0), fun n => draws (n + 1))

def choice (values : List PyValue) : StateM Draws PyValue :=
  drawn fun n => values.getD (n % values.length) .none

/-- `rng.randint(low, high)`. -/
def randint (low high : ℕ) : StateM Draws ℕ := drawn fun n => low + n % (high - low + 1)

def randomNumber (low high : ℕ) : StateM Draws PyValue :=
  (fun n : ℕ => PyValue.int n) <$> randint low high

/-- `round(rng.uniform(0.005, 0.05), 3)`. -/
def randomDuration : StateM Draws PyValue := thousandths <$> randint 5 50

/-! ## Variation -/

def has (key : String) (event : Event) : Bool := (event.lookup (codes key)).isSome

def isText (key value : String) (event : Event) : Bool :=
  match event.lookup (codes key) with
  | some (.str text) => text = codes value
  | _ => false

def isCode (code : ℤ) (event : Event) : Bool :=
  match event.lookup (codes "function_code") with
  | some (.int n) => n = code
  | _ => false

/-- An assignment that `_vary` makes, and when. -/
structure Variation where
  applies : Event → Bool
  key : String
  value : Event → StateM Draws PyValue

def Variation.apply (event : Event) (variation : Variation) : StateM Draws Event :=
  if variation.applies event then
    (fun value => assign (codes variation.key) value event) <$> variation.value event
  else pure event

def always (key : String) (value : StateM Draws PyValue) : Variation :=
  ⟨fun _ => true, key, fun _ => value⟩

def given (applies : Event → Bool) (key : String) (value : StateM Draws PyValue) : Variation :=
  ⟨applies, key, fun _ => value⟩

def addresses (values : List String) : StateM Draws PyValue :=
  choice (values.map fun value => .str (codes value))

def numbers (values : List ℤ) : StateM Draws PyValue := choice (values.map .int)

def isWrite (event : Event) : Bool := isCode 6 event || isCode 16 event

def modbusVariations (request : Bool) : List Variation := [
  always "unit_id" (numbers [1, 2]),
  given (fun varied => request && isWrite varied) "register" (randomNumber 100 3899),
  given (fun varied => request && isWrite varied && has "value" varied) "value" (randomNumber 0 1),
  given (fun varied => request && !isWrite varied) "register" (randomNumber 0 999),
  given (fun varied => has "src_ip" varied && request) "src_ip"
    (addresses ["172.21.0.20", "172.22.0.10"]),
  given (has "dst_ip") "dst_ip" (addresses ["172.21.0.10", "172.21.0.11", "172.21.0.12"])]

def dnp3Variations (request : Bool) : List Variation :=
  if request then [
    always "link_source" (numbers [1, 2]),
    always "link_destination" (numbers [10, 11, 12]),
    given (has "object_group") "object_group" (randomNumber 1 30),
    given (has "control_code") "control_code" (randomNumber 1 4)]
  else [
    always "link_source" (numbers [10, 11, 12]),
    always "link_destination" (numbers [1, 2])]

def s7commVariations (request : Bool) : List Variation := [
  given (fun _ => request) "src_ip" (addresses ["172.21.0.20", "172.22.0.10"]),
  given (has "pdu_reference") "pdu_reference" (randomNumber 1 500)]

def opcuaVariations : List Variation := [
  given (has "request_id") "request_id" (randomNumber 1 10000),
  given (has "secure_channel_id") "secure_channel_id" (randomNumber 1 20)]

def moveHost (event : Event) : StateM Draws PyValue :=
  match event.lookup (codes "dst_ip") with
  | some (.str address) => do
    let host ← randint 2 60
    return .str (join [0x2E] ((address.splitOn 0x2E).dropLast ++ [natText host]))
  | _ => return .none

def iptablesVariations : List Variation := [
  ⟨has "dst_ip", "dst_ip", moveHost⟩,
  always "src_port" (randomNumber 1024 65000)]

def safetyMonitorVariations : List Variation := [
  given (isText "event_type" "process_update") "tank_level_pct" (randomNumber 35 79),
  given (fun varied => isText "event_type" "process_update" varied && has "value" varied) "value"
    (randomNumber 0 1)]

def flowVariations : List Variation := [
  always "bytes" (randomNumber 200 4200),
  always "packets" (randomNumber 6 25),
  always "duration" randomDuration,
  always "src_port" (randomNumber 1024 65000)]

def snmpVariations : List Variation := [
  always "device" (addresses ["172.21.0.40", "172.21.0.41", "172.21.0.50"]),
  ⟨has "src_ip", "src_ip", fun varied => return (varied.lookup (codes "device")).getD .none⟩,
  given (isText "event_type" "heartbeat") "snmp_value"
    ((fun n => PyValue.str (natText n)) <$> randint 100000 999999)]

def variations (event : Event) : List Variation :=
  let request := isText "direction" "request" event
  if isText "service" "modbus" event then modbusVariations request
  else if isText "service" "dnp3" event then dnp3Variations request
  else if isText "service" "s7comm" event then s7commVariations request
  else if isText "service" "opcua" event then opcuaVariations
  else if isText "service" "iptables" event then iptablesVariations
  else if isText "service" "safety_monitor" event then safetyMonitorVariations
  else if isText "service" "flow" event then flowVariations
  else if isText "service" "snmp" event then snmpVariations
  else []

def vary (event : Event) : StateM Draws Event := (variations event).foldlM Variation.apply event

/-! ## The corpus -/

def stepSeconds : ℕ := 30

/-- `datetime(2026, 1, 1)` in UTC, by its microseconds. -/
def newYear : ℕ := (ymdToOrd 2026 1 1 - 1) * 86400000000

def momentOf (seed index : ℕ) : Option DateTime :=
  ofWall ((newYear + (seed % 10000 * stepSeconds + stepSeconds * index) * 1000000 : ℕ)) (some 0)

/-- `moment.isoformat().replace("+00:00", "Z")`. -/
def stamp (moment : DateTime) : Text :=
  replaceFrom (codes "+00:00") (codes "Z") 0 (isoformat moment)

/-- The loop of `build` from an index on; none for an overflow of the date. -/
def buildFrom (seed index : ℕ) : ℕ → Draws → Option (List Event)
  | 0, _ => some []
  | count + 1, draws => do
    let (event, draws) := vary (templateAt index) draws
    let moment ← momentOf seed index
    let events ← buildFrom seed (index + 1) count draws
    return assign (codes "timestamp") (.str (stamp moment)) event :: events

/-- `build(count, seed)`, where the generator of a seed gives its draws. -/
def build (random : ℕ → Draws) (count seed : ℕ) : Option (List Event) :=
  buildFrom seed 0 count (random seed)

end OtDetection.BenignCorpus
