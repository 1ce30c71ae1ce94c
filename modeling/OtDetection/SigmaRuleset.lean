import OtDetection.Matcher
import OtDetection.NumberText

/-! The single-event rules of the repository as pySigma parses them. A list of values is a
disjunction over its values, a selection with several fields a conjunction over its fields. -/

namespace OtDetection.SigmaRuleset
open PyText ShortCircuit Matcher PyNumber

/-! ## Detections -/

theorem fits_natCast {n : ℕ} (small : n < 2 ^ 53) : (roundDouble n).isSome := by
  have rounded := @NumberText.roundDouble_intCast n (by rwa [Int.natAbs_natCast])
  rw [Int.cast_natCast] at rounded
  rw [rounded]
  rfl

def number (n : UInt32) : SigmaNumber where
  number := n.toNat
  fits := fits_natCast (n.toNat_lt.trans (by decide))

def plain (text : String) : SigmaValue := .string ⟨[.plain (codes text)], false⟩

def whole (n : UInt32) : SigmaValue := .number (number n)

def equals (field : String) (value : SigmaValue) : Formula Leaf := .leaf (.field (codes field) value)

def oneOf (field : String) (values : List SigmaValue) : Formula Leaf :=
  .any (values.map (equals field))

def request : Formula Leaf := equals "direction" (plain "request")

def route (source destination : String) : Formula Leaf :=
  .all [equals "src_zone" (plain source), equals "dst_zone" (plain destination)]

def rule (product service title : String) (condition : Formula Leaf) : SigmaRule :=
  ⟨codes title, some (codes product), some (codes service), none, [condition]⟩

/-- A request with one of the functions. -/
def requestOf (service title : String) (functions : List UInt32) : SigmaRule :=
  rule "ot_ndr" service title (.all [request, oneOf "function_code" (functions.map whole)])

/-- A request with one of the functions, but for a field with one of the values. -/
def requestBut (service title : String) (functions : List UInt32) (field : String)
    (values : List SigmaValue) : SigmaRule :=
  rule "ot_ndr" service title
    (.all [request, oneOf "function_code" (functions.map whole), .not (oneOf field values)])

/-- An industrial service by its port. -/
def controlPort : Formula Leaf := oneOf "dst_port" ([102, 502, 4840, 20000].map whole)

def authorized : List SigmaValue := ["172.21.0.20", "172.22.0.10"].map plain

/-! ## Rules -/

def dnp3RequestFromUnapprovedMaster : SigmaRule :=
  rule "ot_ndr" "dnp3" "DNP3 Request From An Unapproved Master Address"
    (.all [request, equals "src_ip" (.exists true),
      .not (oneOf "src_ip" (["172.21.0.20", "172.23.0.50", "172.22.0.10"].map plain))])

def dnp3RestartCommand : SigmaRule :=
  requestOf "dnp3" "DNP3 Cold Or Warm Restart Command" [13, 14]

def dnp3UnauthorizedControl : SigmaRule :=
  requestBut "dnp3" "DNP3 Control Operation From Unauthorized Master" [3, 4, 5, 6] "link_source"
    ([1, 2].map whole)

def dnp3UnsolicitedDisabled : SigmaRule :=
  rule "ot_ndr" "dnp3" "DNP3 Unsolicited Responses Disabled"
    (.all [request, equals "function_code" (whole 21)])

def firewallControlZoneEgress : SigmaRule :=
  rule "ot_firewall" "iptables" "Control Zone Egress To The Enterprise Over A Standard Port"
    (.all [equals "action" (plain "ACCEPT"), route "control" "it",
      oneOf "dst_port" ([53, 80, 443].map whole)])

def firewallCrossZoneViolation : SigmaRule :=
  rule "ot_firewall" "iptables" "Industrial Protocol Traffic From Enterprise To Control Zone"
    (.all [equals "action" (plain "DROP"), route "it" "control",
      .not (equals "proto" (plain "ICMP"))])

def firewallEnterpriseControlService : SigmaRule :=
  rule "ot_firewall" "iptables" "Enterprise Host Permitted To Reach A Control Zone Service"
    (.all [equals "action" (plain "ACCEPT"), route "it" "control", controlPort])

def flowIndustrialServiceRefused : SigmaRule :=
  rule "ot_flow" "flow" "Connection Refused Or Reset To An Industrial Service"
    (.all [oneOf "flow_state" (["REJ", "S0", "RSTO", "RSTR"].map plain), controlPort])

def flowLargeTransfer : SigmaRule :=
  rule "ot_flow" "flow" "Large Transfer Between OT Assets"
    (equals "bytes" (.compare .gte (number 5000000)))

def modbusDeviceIdentificationScan : SigmaRule :=
  requestOf "modbus" "Modbus Device Identification Scan" [17, 43]

def modbusExceptionResponse : SigmaRule :=
  rule "ot_ndr" "modbus" "Modbus Exception Response"
    (.all [equals "direction" (plain "response"), equals "exception_code" (.exists true)])

def modbusParameterWrite : SigmaRule :=
  rule "ot_ndr" "modbus" "Modbus Write To Safety Critical Parameter Register"
    (.all [request, oneOf "function_code" ([6, 16].map whole),
      equals "register" (.compare .gte (number 4000))])

def modbusProcessStateRead : SigmaRule :=
  requestBut "modbus" "Modbus Process State Read From Unauthorized Source" [3, 4] "src_ip" authorized

def modbusUnauthorizedWrite : SigmaRule :=
  requestBut "modbus" "Modbus Write From Unauthorized Control Writer" [6, 16] "src_ip" authorized

def opcuaBrowseRequest : SigmaRule :=
  rule "ot_ndr" "opcua" "OPC UA Address Space Browse"
    (.all [request, oneOf "opcua_service" (["BrowseRequest", "BrowseNextRequest"].map plain)])

def opcuaMethodCall : SigmaRule :=
  rule "ot_ndr" "opcua" "OPC UA Method Call Request"
    (.all [request, equals "opcua_service" (plain "CallRequest")])

def opcuaWriteRequest : SigmaRule :=
  rule "ot_ndr" "opcua" "OPC UA Write Request"
    (.all [request, equals "opcua_service" (plain "WriteRequest")])

def processSafetyViolation : SigmaRule :=
  rule "ot_process" "safety_monitor" "Process Safety Violation From Physics-Aware Monitor"
    (.all [equals "event_type" (plain "process_safety_violation"),
      equals "response" (plain "none")])

def s7commChangeOperatingMode : SigmaRule :=
  requestOf "s7comm" "S7comm PLC Control Or Stop" [40, 41]

def s7commProgramDownload : SigmaRule := requestOf "s7comm" "S7comm Program Download" [26, 27, 28]

def s7commProgramUpload : SigmaRule := requestOf "s7comm" "S7comm Program Upload" [29, 30, 31]

/-- A trap of one type. -/
def snmpEvent (title type : String) : SigmaRule :=
  rule "ot_snmp" "snmp" title (equals "event_type" (plain type))

def snmpConfigChange : SigmaRule := snmpEvent "OT Device Configuration Change" "config_change"

def snmpDeviceRestart : SigmaRule := snmpEvent "OT Device Restart" "device_restart"

def snmpInterfaceDown : SigmaRule :=
  snmpEvent "Network Interface Down On An OT Device" "interface_down"

/-- The rules of `single_event_rule_paths`, by their paths. -/
def singleEventRules : List (Text × SigmaRule) :=
  [("dnp3_request_from_unapproved_master", dnp3RequestFromUnapprovedMaster),
    ("dnp3_restart_command", dnp3RestartCommand),
    ("dnp3_unauthorized_control", dnp3UnauthorizedControl),
    ("dnp3_unsolicited_disabled", dnp3UnsolicitedDisabled),
    ("firewall_control_zone_egress", firewallControlZoneEgress),
    ("firewall_cross_zone_violation", firewallCrossZoneViolation),
    ("firewall_enterprise_control_service", firewallEnterpriseControlService),
    ("flow_industrial_service_refused", flowIndustrialServiceRefused),
    ("flow_large_transfer", flowLargeTransfer),
    ("modbus_device_identification_scan", modbusDeviceIdentificationScan),
    ("modbus_exception_response", modbusExceptionResponse),
    ("modbus_parameter_write", modbusParameterWrite),
    ("modbus_process_state_read", modbusProcessStateRead),
    ("modbus_unauthorized_write", modbusUnauthorizedWrite),
    ("opcua_browse_request", opcuaBrowseRequest), ("opcua_method_call", opcuaMethodCall),
    ("opcua_write_request", opcuaWriteRequest),
    ("process_safety_violation", processSafetyViolation),
    ("s7comm_change_operating_mode", s7commChangeOperatingMode),
    ("s7comm_program_download", s7commProgramDownload),
    ("s7comm_program_upload", s7commProgramUpload), ("snmp_config_change", snmpConfigChange),
    ("snmp_device_restart", snmpDeviceRestart), ("snmp_interface_down", snmpInterfaceDown)].map
    fun entry => (codes "rules/sigma/ot/ot_" ++ codes entry.1 ++ codes ".yml", entry.2)

end OtDetection.SigmaRuleset
