import OtDetection.ContractEvent
import OtDetection.ZeekLog

/-! Zeek's logs as contract events. A row is converted by the name of its file; the reader has
made every unset cell empty, and a field is left out where its converter gives `None`. -/

namespace OtDetection.ZeekEvents
open PyText PyNumber ZeekLog ContractEvent

def modbusFunctions : List (Text × ℤ) :=
  [("READ_COILS", 1), ("READ_DISCRETE_INPUTS", 2), ("READ_HOLDING_REGISTERS", 3),
    ("READ_INPUT_REGISTERS", 4), ("WRITE_SINGLE_COIL", 5), ("WRITE_SINGLE_REGISTER", 6),
    ("READ_EXCEPTION_STATUS", 7), ("DIAGNOSTICS", 8), ("GET_COMM_EVENT_COUNTER", 11),
    ("GET_COMM_EVENT_LOG", 12), ("WRITE_MULTIPLE_COILS", 15), ("WRITE_MULTIPLE_REGISTERS", 16),
    ("REPORT_SERVER_ID", 17), ("READ_FILE_RECORD", 20), ("WRITE_FILE_RECORD", 21),
    ("MASK_WRITE_REGISTER", 22), ("READ_WRITE_MULTIPLE_REGISTERS", 23), ("READ_FIFO_QUEUE", 24),
    ("ENCAPSULATED_INTERFACE_TRANSPORT", 43)].map
    fun entry => (codes entry.1, entry.2)

def dnp3Functions : List (Text × ℤ) :=
  [("CONFIRM", 0), ("READ", 1), ("WRITE", 2), ("SELECT", 3), ("OPERATE", 4),
    ("DIRECT_OPERATE", 5), ("DIRECT_OPERATE_NR", 6), ("IMMED_FREEZE", 7),
    ("IMMED_FREEZE_NR", 8), ("FREEZE_CLEAR", 9), ("FREEZE_CLEAR_NR", 10),
    ("FREEZE_AT_TIME", 11), ("FREEZE_AT_TIME_NR", 12), ("COLD_RESTART", 13),
    ("WARM_RESTART", 14), ("INITIALIZE_DATA", 15), ("INITIALIZE_APPL", 16), ("START_APPL", 17),
    ("STOP_APPL", 18), ("SAVE_CONFIG", 19), ("ENABLE_UNSOLICITED", 20),
    ("DISABLE_UNSOLICITED", 21), ("ASSIGN_CLASS", 22), ("DELAY_MEASURE", 23),
    ("RECORD_CURRENT_TIME", 24), ("OPEN_FILE", 25), ("CLOSE_FILE", 26), ("DELETE_FILE", 27),
    ("GET_FILE_INFO", 28), ("AUTHENTICATE_FILE", 29), ("ABORT_FILE", 30),
    ("ACTIVATE_CONFIG", 31), ("AUTHENTICATE_REQ", 32)].map
    fun entry => (codes entry.1, entry.2)

def get (row : Row) (name : String) : Option Text := cell row (codes name)

def raw : Option Text → PyValue
  | some text => .str text
  | none => .none

def orNone : Option Text → PyValue
  | some text => if text = [] then .none else .str text
  | none => .none

/-- `_direction`. -/
def direction (pduType : Text) : PyValue :=
  if pduType = codes "REQ" then .str (codes "request")
  else if pduType = codes "RESP" then .str (codes "response")
  else .none

section Convert

variable (unicode : Unicode) (shortest : Double → PyFloat)

def int (value : Option Text) : PyValue :=
  match value.bind (intOfText unicode) with
  | some n => .int n
  | none => .none

def float (value : Option Text) : PyValue :=
  match value.bind (floatOfText unicode) with
  | some d => .float (shortest d)
  | none => .none

def sum (values : List (Option Text)) : PyValue :=
  let numbers := values.map fun value => value.bind (intOfText unicode)
  if numbers.all Option.isNone then .none
  else .int (numbers.map fun number => number.getD 0).sum

/-- `float(row["ts"])`. -/
def seconds (row : Row) : Except Error Double :=
  match get row "ts" with
  | none => .error .keyError
  | some text =>
    match floatOfText unicode text with
    | some d => .ok d
    | none => .error (.python .valueError)

def eventAt (product service : String) (row : Row) (fields : List (Text × PyValue)) :
    Except Error (Option Event) := do
  let timestamp ← normalizeSeconds (← seconds unicode row)
  .ok (some (event product service timestamp fields))

def connFields (row : Row) : List (Text × PyValue) :=
  [(codes "src_ip", raw (get row "id.orig_h")), (codes "dst_ip", raw (get row "id.resp_h")),
    (codes "src_port", int unicode (get row "id.orig_p")),
    (codes "dst_port", int unicode (get row "id.resp_p")),
    (codes "proto", orNone (get row "proto")), (codes "app_protocol", orNone (get row "service")),
    (codes "duration", float unicode shortest (get row "duration")),
    (codes "bytes", sum unicode [get row "orig_bytes", get row "resp_bytes"]),
    (codes "packets", sum unicode [get row "orig_pkts", get row "resp_pkts"]),
    (codes "flow_state", orNone (get row "conn_state"))]

def conn (row : Row) : Except Error (Option Event) :=
  eventAt unicode "ot_flow" "flow" row (connFields unicode shortest row)

def modbusFields (row : Row) (code : ℤ) : List (Text × PyValue) :=
  [(codes "direction", direction ((get row "pdu_type").getD [])),
    (codes "function_code", .int code), (codes "unit_id", int unicode (get row "unit")),
    (codes "src_ip", raw (get row "id.orig_h")), (codes "dst_ip", raw (get row "id.resp_h"))]

def modbus (row : Row) : Except Error (Option Event) :=
  match modbusFunctions.lookup ((get row "func").getD []) with
  | none => .ok none
  | some code => eventAt unicode "ot_ndr" "modbus" row (modbusFields unicode row code)

def dnp3Fields (row : Row) (direction : String) (code : ℤ) : List (Text × PyValue) :=
  [(codes "direction", .str (codes direction)), (codes "function_code", .int code),
    (codes "src_ip", raw (get row "id.orig_h")), (codes "dst_ip", raw (get row "id.resp_h"))]

def dnp3Side (row : Row) : Option (String × Text) :=
  let request := (get row "fc_request").getD []
  let reply := (get row "fc_reply").getD []
  if request ≠ [] then some ("request", request)
  else if reply ≠ [] then some ("response", reply)
  else none

def dnp3 (row : Row) : Except Error (Option Event) :=
  match dnp3Side row with
  | none => .ok none
  | some (direction, name) =>
    match dnp3Functions.lookup name with
    | none => .ok none
    | some code => eventAt unicode "ot_ndr" "dnp3" row (dnp3Fields row direction code)

inductive Kind
  | conn
  | modbus
  | dnp3
  deriving DecidableEq

def kindOf (name : Text) : Option Kind :=
  if codes "conn" <:+: name then some .conn
  else if codes "modbus" <:+: name then some .modbus
  else if codes "dnp3" <:+: name then some .dnp3
  else none

def convert : Kind → Row → Except Error (Option Event)
  | .conn => conn unicode shortest
  | .modbus => modbus unicode
  | .dnp3 => dnp3 unicode

/-- The events of some rows, up to an error of the converter or of the reader behind them. -/
def convertAll (converter : Row → Except Error (Option Event)) (raised : Option PyError) :
    List Row → Yielded Error Event
  | [] => ⟨[], raised.map .python⟩
  | row :: rows =>
    match converter row with
    | .error e => ⟨[], some e⟩
    | .ok converted =>
      let rest := convertAll converter raised rows
      ⟨converted.toList ++ rest.items, rest.raised⟩

def fileEvents (name : Text) (file : List Char) : Yielded Error Event :=
  let read := rows file
  match kindOf name with
  | some kind => convertAll (convert unicode shortest kind) read.raised read.items
  | none => ⟨[], read.raised.map .python⟩

/-- `events`, of files by their names. -/
def events : List (Text × List Char) → Yielded Error Event
  | [] => ⟨[], none⟩
  | (name, file) :: paths =>
    let here := fileEvents unicode shortest name file
    match here.raised with
    | some e => ⟨here.items, some e⟩
    | none =>
      let rest := events paths
      ⟨here.items ++ rest.items, rest.raised⟩

end Convert

end OtDetection.ZeekEvents
