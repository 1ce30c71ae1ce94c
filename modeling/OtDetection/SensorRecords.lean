import OtDetection.Netflow

/-! Suricata and SNMP records as contract events. A record is whatever its JSON reads as, so that a
look into a value that is no object ends the conversion. -/

namespace OtDetection.SensorRecords
open PyText PyNumber FieldLookup

/-- What ends the conversion of a record. -/
inductive Error
  | attributeError
  | contract (e : ContractEvent.Error)
  deriving DecidableEq

def get (value : PyValue) (name : String) : Except Error PyValue :=
  match value with
  | .dict items => .ok (eventGet items name)
  | _ => .error .attributeError

def item (value : PyValue) (name : String) : Except Error PyValue :=
  match value with
  | .dict items =>
    match items.lookup (codes name) with
    | some value => .ok value
    | none => .error (.contract .keyError)
  | _ => .error .attributeError

def orElse (value default : PyValue) : PyValue := if truthy value then value else default

def orEmpty (value : PyValue) : PyValue := orElse value (.dict [])

def intOrNone : PyValue → PyValue
  | .int n => .int n
  | .bool b => .bool b
  | _ => .none

def firstOf (objects : PyValue) : Except Error PyValue :=
  if truthy objects then
    match objects with
    | .list (first :: _) => .ok first
    | .str (c :: _) => .ok (.str [c])
    | .dict _ => .error (.contract .keyError)
    | _ => .error (.contract (.python .typeError))
  else .ok (.dict [])

section Convert

variable (unicode : Unicode)

/-- `contract.event`, by the names of the fields and their values. -/
def event (product service : String) (timestamp : PyValue) (names : List String)
    (values : List PyValue) : Except Error Event := do
  let normalized ← (ContractEvent.normalize unicode timestamp).mapError .contract
  .ok (ContractEvent.event product service normalized ((names.map codes).zip values))

/-! ## Suricata -/

def modbusNames : List String :=
  ["direction", "function_code", "unit_id", "src_ip", "dst_ip", "register", "value"]

def modbusSide (record : PyValue) (side : String) : Except Error (Option Event) := do
  let body := orEmpty (← get record "modbus")
  let detail ← get body side
  if truthy detail then
    let write := orEmpty (← get detail "write")
    let read := orEmpty (← get detail "read")
    let value ← get write "data"
    let timestamp ← item record "timestamp"
    let function ← get detail "function_raw"
    let unit ← get detail "unit_id"
    let source ← get record "src_ip"
    let destination ← get record "dest_ip"
    let address ← get read "address"
    let register := match item write "address" with
      | .ok given => given
      | .error _ => address
    let made ← event unicode "ot_ndr" "modbus" timestamp modbusNames
      [.str (codes side), function, unit, source, destination, register, intOrNone value]
    .ok (some made)
  else .ok none

def modbus (record : PyValue) : Except Error (List Event) := do
  let request ← modbusSide unicode record "request"
  let response ← modbusSide unicode record "response"
  .ok (request.toList ++ response.toList)

def dnp3Names : List String :=
  ["direction", "function_code", "link_source", "link_destination", "link_function",
    "object_group", "object_variation", "object_count", "application_sequence", "src_ip", "dst_ip"]

def dnp3 (record : PyValue) : Except Error Event := do
  let body := orEmpty (← get record "dnp3")
  let control := orEmpty (← get body "control")
  let application := orEmpty (← get body "application")
  let applicationControl := orEmpty (← get application "control")
  let first ← firstOf (orElse (← get application "objects") (.list []))
  let timestamp ← item record "timestamp"
  let values ← [get body "type", get application "function_code", get body "src", get body "dst",
    get control "function_code", get first "group", get first "variation", get first "count",
    get applicationControl "sequence", get record "src_ip", get record "dest_ip"].mapM id
  event unicode "ot_ndr" "dnp3" timestamp dnp3Names values

def suricata (record : PyValue) : Except Error (List Event) := do
  let eventType ← get record "event_type"
  match eventType with
  | .str kind =>
    if kind = codes "modbus" then modbus unicode record
    else if kind = codes "dnp3" then (dnp3 unicode record).map fun made => [made]
    else .ok []
  | _ => .ok []

/-! ## SNMP and NetFlow -/

def snmpNames : List String := ["src_ip", "device", "event_type", "oid", "snmp_value", "severity"]

def snmp (record : PyValue) : Except Error Event := do
  let device := orElse (← get record "device") (← get record "src_ip")
  let timestamp ← item record "timestamp"
  let eventType ← get record "event_type"
  let oid ← get record "oid"
  let value ← get record "value"
  let severity ← get record "severity"
  event unicode "ot_snmp" "snmp" timestamp snmpNames
    [device, device, eventType, oid, Netflow.string unicode value, severity]

/-- `_record` of NetFlow, which asks a record for its timestamp first. -/
def netflow (shortest : Double → PyFloat) : PyValue → Except Error Event
  | .dict record => (Netflow.record unicode shortest record).mapError .contract
  | _ => .error (.contract (.python .typeError))

end Convert

end OtDetection.SensorRecords
