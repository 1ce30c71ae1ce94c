import OtDetection.CollectedEvents
import OtDetection.JsonLines

/-! The collector from its files to its sink. Whatever a sensor reports, the routing fields of an event
are the adapter's own; what a record passes through unchanged decides the exit status. -/

namespace OtDetection.Collector
open PyText PyNumber FieldLookup ExceptSteps SensorRecords JsonLines
open TelemetrySchema (Check accepts)

/-! ## The command -/

inductive Source
  | zeek
  | suricata
  | netflow
  | snmp
  deriving DecidableEq

inductive Sink
  | jsonl
  | loki
  deriving DecidableEq

abbrev File := Text × List Char

def documents (source : Source) (file : File) : List (List Char) :=
  match source with
  | .suricata =>
    ((PyLines.splitlines (readText file.2)).map stripChars).filter fun line => !line.isEmpty
  | _ => [readText file.2]

def recordsOf (source : Source) (data : PyValue) : List PyValue :=
  match source, data with
  | .suricata, data => [data]
  | _, .list records => records
  | _, data => [data]

inductive Sent
  | lines (text : Text)
  | streams (streams : List LokiSink.Stream)

structure Output where
  events : List Event
  sent : Sent
  status : ℕ

section Run

variable (unicode : Unicode) (shortest : Double → PyFloat) (loads : List Char → Option PyValue)
  (clock : LokiSink.Clock)

/-- The events of a record; a row of Zeek's is no JSON. -/
def convert (source : Source) (record : PyValue) : Except Error (List Event) :=
  match source with
  | .zeek => .ok []
  | .suricata => suricata unicode record
  | .netflow => (netflow unicode shortest record).map fun made => [made]
  | .snmp => (snmp unicode record).map fun made => [made]

def readDocument (source : Source) (document : List Char) : Except Error (List Event) :=
  match loads document with
  | some data => ((recordsOf source data).mapM (convert unicode shortest source)).map List.flatten
  | none => .error (.contract (.python .valueError))

def collect (source : Source) (files : List File) : Except Error (List Event) :=
  match source with
  | .zeek =>
    let yielded := ZeekEvents.events unicode shortest files
    match yielded.raised with
    | some e => .error (.contract e)
    | none => .ok yielded.items
  | source => ((files.flatMap (documents source)).mapM
      (readDocument unicode shortest loads source)).map List.flatten

def send (sink : Sink) (events : List Event) : Except Error Sent :=
  match sink with
  | .jsonl => .ok (.lines (toJsonl events))
  | .loki =>
    match events.mapM contractOf with
    | some contracts => ((LokiSink.toLokiStreams unicode.isPrintable clock contracts).map
        .streams).mapError fun e => .contract (.python e)
    | none => .error (.contract .keyError)

/-- `main` with the files that the patterns expand to. -/
def main (source : Source) (sink : Sink) (files : List File) : Except Error Output := do
  let events ← collect unicode shortest loads source files
  let sent ← send unicode clock sink events
  .ok ⟨events, sent, if events.all (accepts unicode) then 0 else 1⟩

end Run

/-! ## Runs -/

def passedThrough (source : Source) (record : PyValue) : List (Check × PyValue) :=
  match source with
  | .zeek => []
  | .suricata => suricataPassed record
  | .netflow => netflowPassed record
  | .snmp => snmpPassed record

/-- The schema accepts what the events of a record pass through. -/
def Fits (unicode : Unicode) (source : Source) (record : PyValue) : Prop :=
  ∀ entry ∈ passedThrough source record, Passed unicode entry.1 entry.2

/-- The record is one of a file. -/
def Reads (loads : List Char → Option PyValue) (source : Source) (files : List File)
    (record : PyValue) : Prop :=
  ∃ file ∈ files, ∃ document ∈ documents source file, ∃ data, loads document = some data ∧
    record ∈ recordsOf source data

section Runs

variable {unicode : Unicode} {shortest : Double → PyFloat} {loads : List Char → Option PyValue}
  {source : Source}

theorem allMade_convert {record : PyValue} {events : List Event}
    (ran : convert unicode shortest source record = .ok events) :
    AllMade unicode (passedThrough source record) events := by
  cases source with
  | zeek =>
    obtain rfl := Except.ok.inj ran
    exact AllMade.none
  | suricata => exact allMade_suricata ran
  | netflow =>
    obtain ⟨made, built, rfl⟩ := map_eq_ok_iff.mp ran
    exact AllMade.single (made_netflow built)
  | snmp =>
    obtain ⟨made, built, rfl⟩ := map_eq_ok_iff.mp ran
    exact AllMade.single (made_snmp built)

theorem allMade_flatten {α : Type*} {read : α → Except Error (List Event)} {items : List α}
    {passed : α → List (Check × PyValue)}
    (each : ∀ item ∈ items, ∀ events, read item = .ok events → AllMade unicode (passed item) events)
    {events : List Event} (ran : (items.mapM read).map List.flatten = .ok events) :
    AllMade unicode (items.flatMap passed) events := by
  obtain ⟨made, each_ran, rfl⟩ := map_eq_ok_iff.mp ran
  have pairs := mapM_eq_ok_iff.mp each_ran
  clear ran each_ran
  induction pairs with
  | nil => exact AllMade.none
  | cons first _ ih =>
    rw [List.forall_mem_cons] at each
    exact (each.1 _ first).append (ih each.2)

def passedIn (loads : List Char → Option PyValue) (source : Source) (document : List Char) :
    List (Check × PyValue) :=
  (loads document).elim [] fun data => (recordsOf source data).flatMap (passedThrough source)

theorem allMade_readDocument {document : List Char} {events : List Event}
    (ran : readDocument unicode shortest loads source document = .ok events) :
    AllMade unicode (passedIn loads source document) events := by
  rw [readDocument] at ran
  rw [passedIn]
  split at ran
  · rename_i data read
    rw [read]
    exact allMade_flatten (fun record _ made => allMade_convert) ran
  · cases ran

theorem forall_passedIn_iff {files : List File} {P : Check × PyValue → Prop} :
    (∀ entry ∈ (files.flatMap (documents source)).flatMap (passedIn loads source), P entry) ↔
      ∀ record, Reads loads source files record → ∀ entry ∈ passedThrough source record, P entry := by
  constructor
  · rintro all record ⟨file, named, document, part, data, read, inside⟩ entry mem
    refine all entry (List.mem_flatMap.mpr ⟨document, List.mem_flatMap.mpr ⟨file, named, part⟩, ?_⟩)
    rw [passedIn, read]
    exact List.mem_flatMap.mpr ⟨record, inside, mem⟩
  · intro all entry mem
    obtain ⟨document, part, mem⟩ := List.mem_flatMap.mp mem
    obtain ⟨file, named, part⟩ := List.mem_flatMap.mp part
    rw [passedIn] at mem
    cases read : loads document with
    | none =>
      rw [read] at mem
      cases mem
    | some data =>
      rw [read] at mem
      obtain ⟨record, inside, mem⟩ := List.mem_flatMap.mp mem
      exact all record ⟨file, named, document, part, data, read, inside⟩ entry mem

theorem made_convertAll {kind : ZeekEvents.Kind} {raised : Option PyError} (rows : List ZeekLog.Row) :
    ∀ made ∈ (ZeekEvents.convertAll (ZeekEvents.convert unicode shortest kind) raised rows).items,
      Made unicode [] made := by
  induction rows with
  | nil => exact List.forall_mem_nil _
  | cons row rows ih =>
    rw [ZeekEvents.convertAll]
    cases ran : ZeekEvents.convert unicode shortest kind row with
    | error e => exact List.forall_mem_nil _
    | ok given =>
      refine List.forall_mem_append.mpr ⟨fun made mem => ?_, ih⟩
      exact made_zeek ran made (Option.mem_toList.mp mem)

theorem made_fileEvents (name : Text) (file : List Char) :
    ∀ made ∈ (ZeekEvents.fileEvents unicode shortest name file).items, Made unicode [] made := by
  rw [ZeekEvents.fileEvents]
  cases ZeekEvents.kindOf name with
  | some kind => exact made_convertAll _
  | none => exact List.forall_mem_nil _

theorem made_zeekEvents (files : List File) :
    ∀ made ∈ (ZeekEvents.events unicode shortest files).items, Made unicode [] made := by
  induction files with
  | nil => exact List.forall_mem_nil _
  | cons file files ih =>
    obtain ⟨name, file⟩ := file
    rw [ZeekEvents.events]
    cases raised : (ZeekEvents.fileEvents unicode shortest name file).raised with
    | some e => exact made_fileEvents name file
    | none => exact List.forall_mem_append.mpr ⟨made_fileEvents name file, ih⟩

theorem allMade_collect {files : List File} {events : List Event}
    (ran : collect unicode shortest loads source files = .ok events) :
    (∀ event ∈ events, Routed unicode event) ∧ ((∀ event ∈ events, accepts unicode event = true) ↔
      ∀ record, Reads loads source files record → Fits unicode source record) := by
  by_cases zeek : source = .zeek
  · subst zeek
    rw [collect] at ran
    split at ran
    · cases ran
    · obtain rfl := Except.ok.inj ran
      have made := @made_zeekEvents unicode shortest files
      exact ⟨fun event mem => (made event mem).1, iff_of_true
        (fun event mem => (made event mem).2.mpr (List.forall_mem_nil _))
        fun record _ => List.forall_mem_nil _⟩
  · have ran : ((files.flatMap (documents source)).mapM
        (readDocument unicode shortest loads source)).map List.flatten = .ok events := by
      cases source with
      | zeek => exact absurd rfl zeek
      | suricata | netflow | snmp => exact ran
    obtain ⟨routed, accepted⟩ := allMade_flatten (fun document _ made => allMade_readDocument) ran
    exact ⟨routed, accepted.trans forall_passedIn_iff⟩

/-- Whatever the sensors report, the events of a run can be routed; the command fails exactly when a
record passes a value through that the schema does not take, which no row of Zeek's does. -/
theorem main_status_iff {clock : LokiSink.Clock} {sink : Sink} {files : List File} {output : Output}
    (ran : main unicode shortest loads clock source sink files = .ok output) :
    (∀ event ∈ output.events, Routed unicode event) ∧
      (output.status = 0 ↔ ∀ record, Reads loads source files record → Fits unicode source record) ∧
      (source = .zeek → output.status = 0) := by
  obtain ⟨events, collected, ran⟩ := bind_eq_ok_iff.mp ran
  obtain ⟨sent, -, same⟩ := bind_eq_ok_iff.mp ran
  obtain rfl := Except.ok.inj same
  obtain ⟨routed, accepted⟩ := allMade_collect collected
  have status : (if events.all (accepts unicode) then 0 else 1) = 0 ↔
      ∀ event ∈ events, accepts unicode event = true := by
    rw [← List.all_eq_true]
    split_ifs with all
    · exact iff_of_true rfl all
    · exact iff_of_false id all
  refine ⟨routed, status.trans accepted, ?_⟩
  rintro rfl
  exact (status.trans accepted).mpr fun record _ => List.forall_mem_nil _

end Runs

/-! A write request that Suricata reports with a truth value for its data. -/

def writeFile : File := (codes "eve.json", String.toList
  "\x7b\"event_type\": \"modbus\", \"timestamp\": 5, \"modbus\": \x7b\"request\": \x7b\"write\": \x7b\"data\": true\x7d\x7d\x7d\x7d\n")

def writeRecord : PyValue :=
  .dict [(codes "event_type", .str (codes "modbus")), (codes "timestamp", .int 5),
    (codes "modbus", .dict [(codes "request",
      .dict [(codes "write", .dict [(codes "data", .bool true)])])])]

theorem main_status_iff_write : ∃ output, main noTables (fun _ => .nan) (fun _ => some writeRecord)
      LokiSink.dawnClock .suricata .jsonl [writeFile] = .ok output ∧ output.status ≠ 0 := by
  have returns : (main noTables (fun _ => .nan) (fun _ => some writeRecord)
      LokiSink.dawnClock .suricata .jsonl [writeFile]).isOk = true := by decide +kernel
  cases ran : main noTables (fun _ => .nan) (fun _ => some writeRecord) LokiSink.dawnClock .suricata
    .jsonl [writeFile] with
  | error e =>
    rw [ran] at returns
    cases returns
  | ok output =>
    obtain ⟨document, part⟩ := List.exists_mem_of_ne_nil (documents .suricata writeFile)
      (by decide +kernel)
    refine ⟨output, rfl, fun status => ?_⟩
    have fits := (main_status_iff ran).2.1.mp status writeRecord
      ⟨writeFile, List.mem_singleton_self _, document, part, writeRecord, rfl,
        List.mem_singleton_self _⟩
    have passed : passedThrough .suricata writeRecord = [(.integer, .none), (.integer, .none),
        (.string, .none), (.string, .none), (.integer, .none), (.integer, .bool true)] := rfl
    rw [Fits, passed] at fits
    rcases fits (.integer, .bool true) (by simp) with none | integer
    · cases none
    · cases integer

end OtDetection.Collector
