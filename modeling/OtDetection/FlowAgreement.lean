import OtDetection.Netflow
import OtDetection.ZeekOmission

/-! One flow by both adapters. Zeek's row has its numbers as text and its totals in two parts,
the NetFlow record has each value under one of two keys; the events agree unless a value is
passed over or a count is too long to be read. -/

namespace OtDetection.FlowAgreement
open PyText PyNumber NumberText FieldLookup Correlation IsoTime ContractEvent ZeekLog ZeekEvents
open Netflow (Spelled Dropped either)

/-- A flow that starts at a whole second of the years 1 to 9999. -/
structure Flow where
  start : ℤ
  source : Text
  destination : Text
  sourcePort : ℕ
  destinationPort : ℕ
  proto : Text
  bytes : ℕ
  packets : ℕ
  early : 0 ≤ epochWall + start * 1000000
  late : epochWall + start * 1000000 < wallEnd
  isPort : sourcePort ≤ 65535 ∧ destinationPort ≤ 65535
  some_proto : proto ≠ []

namespace Flow

variable (flow : Flow)

def moment : DateTime := ⟨epochWall + flow.start * 1000000, some 0, flow.early, flow.late⟩

theorem small : flow.start.natAbs < 2 ^ 53 := by
  have early := flow.early
  have late := flow.late
  unfold epochWall at early late
  unfold wallEnd at late
  omega

end Flow

/-- A total in the columns of the originator and of the responder. -/
structure Halves (row : Row) (originator responder : String) (orig resp total : ℕ) : Prop where
  sent : get row originator = some (natText orig)
  received : get row responder = some (natText resp)
  whole : orig + resp = total

/-- The row of the flow in `conn.log`. -/
structure IsRow (flow : Flow) (row : Row) (origBytes respBytes origPkts respPkts : ℕ) : Prop where
  start : ∃ zeros, get row "ts" = some (intText flow.start ++ 0x2E :: List.replicate zeros 0x30)
  source : get row "id.orig_h" = some flow.source
  destination : get row "id.resp_h" = some flow.destination
  sourcePort : get row "id.orig_p" = some (natText flow.sourcePort)
  destinationPort : get row "id.resp_p" = some (natText flow.destinationPort)
  proto : get row "proto" = some flow.proto
  bytes : Halves row "orig_bytes" "resp_bytes" origBytes respBytes flow.bytes
  packets : Halves row "orig_pkts" "resp_pkts" origPkts respPkts flow.packets

inductive IsStart (flow : Flow) : PyValue → Prop
  | int : IsStart flow (.int flow.start)
  | float (f : PyFloat) (same : doubleOfFloat f = .finite (flow.start : ℚ)) :
      IsStart flow (.float f)
  | text (r : Rendering) (same : r.instant = flow.moment.wall) : IsStart flow (.str r.text)

/-- The NetFlow record of the flow, with each value under either key. -/
structure IsRecord (flow : Flow) (record : Event) : Prop where
  start : ∃ value, record.lookup (codes "timestamp") = some value ∧ IsStart flow value
  source : Spelled record "src_ip" "srcaddr" (.str flow.source)
  destination : Spelled record "dst_ip" "dstaddr" (.str flow.destination)
  sourcePort : Spelled record "src_port" "srcport" (.int flow.sourcePort)
  destinationPort : Spelled record "dst_port" "dstport" (.int flow.destinationPort)
  proto : Spelled record "proto" "protocol" (.str flow.proto)
  bytes : Spelled record "bytes" "bytes_total" (.int flow.bytes)
  packets : Spelled record "packets" "pkts" (.int flow.packets)

def sharedFields : List Text :=
  ["timestamp", "src_ip", "dst_ip", "src_port", "dst_port", "proto", "bytes", "packets"].map codes

/-- Both have an event, and all shared fields are there with one value. -/
def Agree (zeek : Except Error (Option Event)) (netflow : Except Error Event) : Prop :=
  ∃ z n, zeek = .ok (some z) ∧ netflow = .ok n ∧
    ∀ name ∈ sharedFields, ∃ value, z.lookup name = some value ∧ n.lookup name = some value

def Short (n : ℕ) : Prop := (natText n).length ≤ 4300

instance (n : ℕ) : Decidable (Short n) := inferInstanceAs (Decidable (_ ≤ _))

/-- The exact condition: nothing is passed over, every count can be read, and a duration that is
an integer is in the range of floats. -/
structure Readable (record : Event) (origBytes respBytes origPkts respPkts : ℕ) : Prop where
  kept : ∀ primary ∈ ["src_ip", "dst_ip", "src_port", "dst_port", "bytes", "packets"],
    ¬ Dropped record primary
  bytes : Short origBytes ∧ Short respBytes
  packets : Short origPkts ∧ Short respPkts
  duration : ∀ n, record.lookup (codes "duration") = some (.int n) → (roundDouble n).isSome

/-! ## Zeek -/

section Zeek

variable {unicode : Unicode} {shortest : Double → PyFloat}

theorem int_port {port : ℕ} (small : port ≤ 65535) :
    ZeekEvents.int unicode (some (natText port)) = .int port := by
  have short := (@length_natText_le_iff port 20 (by decide)).mpr (by omega)
  rw [ZeekEvents.int, Option.bind_some, intOfText_natText, if_pos (by omega)]

theorem read_count (n : ℕ) :
    intOfText unicode (natText n) = if Short n then some (n : ℤ) else none :=
  intOfText_natText unicode n

theorem sum_long {orig resp : ℕ} :
    sum unicode [some (natText orig), some (natText resp)] =
      if Short orig then (if Short resp then .int (orig + resp : ℕ) else .int orig)
      else if Short resp then .int resp else .none := by
  simp only [sum, List.map_cons, List.map_nil, Option.bind_some, read_count]
  by_cases first : Short orig
  · rw [if_pos first, if_pos first]
    by_cases second : Short resp
    · rw [if_pos second, if_pos second]
      simp
    · rw [if_neg second, if_neg second]
      simp
  · rw [if_neg first, if_neg first]
    by_cases second : Short resp
    · rw [if_pos second, if_pos second]
      simp
    · rw [if_neg second, if_neg second]
      rfl

theorem pos_of_long {n : ℕ} (long : ¬ Short n) : 0 < n := by
  rw [Nat.pos_iff_ne_zero]
  rintro rfl
  exact long (by decide)

theorem sum_eq_iff {orig resp total : ℕ} (whole : orig + resp = total) :
    sum unicode [some (natText orig), some (natText resp)] = .int total ↔
      Short orig ∧ Short resp := by
  rw [sum_long]
  by_cases first : Short orig
  · by_cases second : Short resp
    · rw [if_pos first, if_pos second, whole]
      exact iff_of_true rfl ⟨first, second⟩
    · have missed := pos_of_long second
      rw [if_pos first, if_neg second]
      refine iff_of_false (fun same => ?_) fun short => second short.2
      have number : (orig : ℤ) = total := PyValue.int.inj same
      omega
  · have missed := pos_of_long first
    rw [if_neg first]
    refine iff_of_false (fun same => ?_) fun short => first short.1
    split at same
    · have number : (resp : ℤ) = total := PyValue.int.inj same
      omega
    · cases same

end Zeek

/-! ## The time of the start -/

section Start

variable {unicode : Unicode} {flow : Flow}

theorem fromtimestamp_start : fromtimestamp (.finite flow.start) = some flow.moment := by
  rw [fromtimestamp_intCast]
  exact dif_pos ⟨flow.early, flow.late⟩

theorem dated_row {row : Row} {a b c d : ℕ} (isRow : IsRow flow row a b c d) :
    Dated unicode row (stamp flow.moment) := by
  obtain ⟨zeros, found⟩ := isRow.start
  refine ⟨.finite flow.start, flow.moment, ?_, fromtimestamp_start, rfl⟩
  rw [seconds, found]
  dsimp only
  rw [floatOfText_whole unicode flow.small zeros]

theorem normalizeSeconds_start :
    normalizeSeconds (.finite flow.start) = .ok (stamp flow.moment) := by
  rw [normalizeSeconds, fromtimestamp_start]

theorem normalize_start {value : PyValue} (start : IsStart flow value) :
    normalize unicode value = .ok (stamp flow.moment) := by
  cases start with
  | int =>
    have fits : floatOfInt flow.start = .ok (.finite flow.start) := by
      rw [floatOfInt, roundDouble_intCast flow.small]
    rw [normalize_int fits]
    exact normalizeSeconds_start
  | float f same =>
    change normalizeSeconds (doubleOfFloat f) = _
    rw [same]
    exact normalizeSeconds_start
  | text r same =>
    have moment : r.moment = flow.moment := by
      simp only [Rendering.moment, Flow.moment, same]
    refine normalize_str ?_
    rw [normalizeTimestamp, r.contractMoment_text, moment]
    rfl

end Start

/-! ## NetFlow -/

structure Taken (out : Prop) (value taken : PyValue) : Prop where
  passed : out → taken = .none
  kept : ¬ out → taken = value

theorem Taken.agree_iff {out : Prop} {value taken other : PyValue}
    (is_taken : Taken out value taken) (some_value : given value = true) {P : Prop}
    (read : other = value ↔ P) :
    other = taken ∧ given other = true ↔ P ∧ ¬ out := by
  by_cases gone : out
  · rw [is_taken.passed gone]
    refine iff_of_false ?_ fun both => both.2 gone
    rintro ⟨rfl, some_other⟩
    cases some_other
  · rw [is_taken.kept gone, ← read]
    refine ⟨fun both => ⟨both.1, gone⟩, fun both => ⟨both.1, ?_⟩⟩
    rw [both.1]
    exact some_value

section Netflow

variable {unicode : Unicode} {shortest : Double → PyFloat} {record : Event}
  {primary alternative : String}

theorem taken_either {value : PyValue} (spelled : Spelled record primary alternative value) :
    Taken (Dropped record primary) value (either record primary alternative) :=
  ⟨Netflow.either_dropped spelled, Netflow.either_kept spelled⟩

theorem taken_int {n : ℤ} (spelled : Spelled record primary alternative (.int n)) :
    ∃ taken, Netflow.int unicode (either record primary alternative) = .ok taken ∧
      Taken (Dropped record primary) (.int n) taken := by
  by_cases dropped : Dropped record primary
  · refine ⟨.none, ?_, fun _ => rfl, fun kept => absurd dropped kept⟩
    rw [Netflow.either_dropped spelled dropped]
    rfl
  · refine ⟨.int n, ?_, fun out => absurd out dropped, fun _ => rfl⟩
    rw [Netflow.either_kept spelled dropped]
    rfl

theorem taken_string {text : Text} (spelled : Spelled record primary alternative (.str text)) :
    Taken (Dropped record primary) (.str text)
      (Netflow.string unicode (either record primary alternative)) := by
  constructor
  · intro dropped
    rw [Netflow.either_dropped spelled dropped]
    rfl
  · intro kept
    rw [Netflow.either_kept spelled kept]
    rfl

theorem float_returns_iff (value : PyValue) :
    (∃ taken, Netflow.float unicode shortest value = .ok taken) ↔
      ∀ n, value = .int n → (roundDouble n).isSome := by
  cases value with
  | int n =>
    rw [Netflow.float, floatOfInt]
    cases range : roundDouble n with
    | some q =>
      refine iff_of_true ⟨_, rfl⟩ fun m same => ?_
      rw [← PyValue.int.inj same, range]
      rfl
    | none =>
      refine iff_of_false (fun ⟨_, returned⟩ => nomatch returned) fun inside => ?_
      have out := inside n rfl
      rw [range] at out
      cases out
  | str text =>
    refine iff_of_true ?_ nofun
    rw [Netflow.float]
    split
    · exact ⟨_, rfl⟩
    · exact ⟨_, rfl⟩
  | none | bool b | float f | list items | dict items => exact iff_of_true ⟨_, rfl⟩ nofun

def netflowFields (source destination sourcePort destinationPort proto bytes packets duration
    state : PyValue) : List (Text × PyValue) :=
  [(codes "src_ip", source), (codes "dst_ip", destination), (codes "src_port", sourcePort),
    (codes "dst_port", destinationPort), (codes "proto", proto), (codes "bytes", bytes),
    (codes "packets", packets), (codes "duration", duration), (codes "flow_state", state)]

theorem record_taken {flow : Flow} (isRecord : IsRecord flow record) :
    ∃ sourcePort destinationPort bytes packets,
      Taken (Dropped record "src_port") (.int flow.sourcePort) sourcePort ∧
      Taken (Dropped record "dst_port") (.int flow.destinationPort) destinationPort ∧
      Taken (Dropped record "bytes") (.int flow.bytes) bytes ∧
      Taken (Dropped record "packets") (.int flow.packets) packets ∧
      Netflow.record unicode shortest record =
        (Netflow.float unicode shortest (eventGet record "duration")).map fun duration =>
          event "ot_flow" "flow" (stamp flow.moment)
            (netflowFields (either record "src_ip" "srcaddr") (either record "dst_ip" "dstaddr")
              sourcePort destinationPort
              (Netflow.string unicode (either record "proto" "protocol")) bytes packets duration
              (Netflow.string unicode (eventGet record "flow_state"))) := by
  obtain ⟨sourcePort, first, taken_source⟩ := @taken_int unicode _ _ _ _ isRecord.sourcePort
  obtain ⟨destinationPort, second, taken_destination⟩ :=
    @taken_int unicode _ _ _ _ isRecord.destinationPort
  obtain ⟨bytes, third, taken_bytes⟩ := @taken_int unicode _ _ _ _ isRecord.bytes
  obtain ⟨packets, fourth, taken_packets⟩ := @taken_int unicode _ _ _ _ isRecord.packets
  obtain ⟨value, found, start⟩ := isRecord.start
  refine ⟨sourcePort, destinationPort, bytes, packets, taken_source, taken_destination,
    taken_bytes, taken_packets, ?_⟩
  rw [Netflow.record, found, Netflow.fields, first, second, third, fourth]
  cases Netflow.float unicode shortest (eventGet record "duration") with
  | ok duration =>
    change (normalize unicode value).bind _ = _
    rw [normalize_start start]
    rfl
  | error e => rfl

end Netflow

/-! ## Agreement -/

theorem field_iff {f g : List (Text × PyValue)} (distinct_f : (f.map Prod.fst).Nodup)
    (distinct_g : (g.map Prod.fst).Nodup) (timestamp name : Text)
    (other : name ∉ ["product", "service", "timestamp"].map codes) {value read taken : PyValue}
    (found : f.lookup name = some read) (found' : g.lookup name = some taken) {P out : Prop}
    (is_taken : Taken out value taken) (reads : read = value ↔ P)
    (some_value : given value = true) :
    (∃ shared, (event "ot_flow" "flow" timestamp f).lookup name = some shared ∧
      (event "ot_flow" "flow" timestamp g).lookup name = some shared) ↔ P ∧ ¬ out := by
  rw [← is_taken.agree_iff some_value reads, lookup_event distinct_f other,
    lookup_event distinct_g other, found, found']
  simp only [Option.filter_eq_some_iff, Option.some.injEq]
  constructor
  · rintro ⟨shared, ⟨rfl, some_read⟩, rfl, -⟩
    exact ⟨rfl, some_read⟩
  · rintro ⟨rfl, some_read⟩
    exact ⟨read, ⟨rfl, some_read⟩, rfl, some_read⟩

theorem nodup_netflowFields (source destination sourcePort destinationPort proto bytes packets
    duration state : PyValue) : ((netflowFields source destination sourcePort destinationPort
      proto bytes packets duration state).map Prod.fst).Nodup := by
  simp only [netflowFields, List.map_cons, List.map_nil]
  decide

theorem proto_kept {flow : Flow} {record : Event} (isRecord : IsRecord flow record) :
    ¬ Dropped record "proto" := by
  rw [Netflow.dropped_iff isRecord.proto]
  rintro ⟨-, falsy⟩
  have proto := flow.some_proto
  cases text : flow.proto with
  | nil => exact proto text
  | cons c rest =>
    rw [text] at falsy
    cases falsy

theorem duration_iff {record : Event} :
    (∀ n, eventGet record "duration" = .int n → (roundDouble n).isSome) ↔
      ∀ n, record.lookup (codes "duration") = some (.int n) → (roundDouble n).isSome := by
  rw [eventGet]
  cases record.lookup (codes "duration") with
  | none =>
    refine iff_of_true (fun n same => ?_) fun n same => ?_
    · cases same
    · cases same
  | some value => simp only [Option.getD_some, Option.some.injEq]

theorem forall_shared {P : Text → Prop} : (∀ name ∈ sharedFields, P name) ↔
    P (codes "timestamp") ∧ P (codes "src_ip") ∧ P (codes "dst_ip") ∧ P (codes "src_port") ∧
      P (codes "dst_port") ∧ P (codes "proto") ∧ P (codes "bytes") ∧ P (codes "packets") := by
  simp only [sharedFields, List.map_cons, List.map_nil, List.forall_mem_cons, List.not_mem_nil,
    false_implies, implies_true, and_true]

section Shared

variable {unicode : Unicode} {shortest : Double → PyFloat} {flow : Flow} {row : Row}
  {record : Event} {a b c d : ℕ}

theorem shared_iff (isRow : IsRow flow row a b c d) (isRecord : IsRecord flow record)
    {sourcePort destinationPort bytes packets : PyValue} (timestamp : Text)
    (taken_source : Taken (Dropped record "src_port") (.int flow.sourcePort) sourcePort)
    (taken_destination :
      Taken (Dropped record "dst_port") (.int flow.destinationPort) destinationPort)
    (taken_bytes : Taken (Dropped record "bytes") (.int flow.bytes) bytes)
    (taken_packets : Taken (Dropped record "packets") (.int flow.packets) packets)
    (duration state : PyValue) :
    (∀ name ∈ sharedFields, ∃ value,
      (event "ot_flow" "flow" timestamp (connFields unicode shortest row)).lookup name =
        some value ∧
      (event "ot_flow" "flow" timestamp (netflowFields (either record "src_ip" "srcaddr")
        (either record "dst_ip" "dstaddr") sourcePort destinationPort
        (Netflow.string unicode (either record "proto" "protocol")) bytes packets duration
        state)).lookup name = some value) ↔
      (∀ primary ∈ ["src_ip", "dst_ip", "src_port", "dst_port", "bytes", "packets"],
        ¬ Dropped record primary) ∧ (Short a ∧ Short b) ∧ Short c ∧ Short d := by
  have distinct := @nodup_connFields unicode shortest row
  have distinct' := nodup_netflowFields (either record "src_ip" "srcaddr")
    (either record "dst_ip" "dstaddr") sourcePort destinationPort
    (Netflow.string unicode (either record "proto" "protocol")) bytes packets duration state
  have text {column : String} {text : Text} (found : get row column = some text) :
      raw (get row column) = .str text ↔ True := by
    rw [found]
    exact iff_true_intro rfl
  have port {column : String} {port : ℕ} (found : get row column = some (natText port))
      (small : port ≤ 65535) : ZeekEvents.int unicode (get row column) = .int port ↔ True := by
    rw [found]
    exact iff_true_intro (int_port small)
  have proto : orNone (get row "proto") = .str flow.proto ↔ True := by
    have given := flow.some_proto
    rw [isRow.proto]
    cases text : flow.proto with
    | nil => exact absurd text given
    | cons c rest => exact iff_true_intro rfl
  have total {first second : String} {m n total : ℕ} (halves : Halves row first second m n total) :
      sum unicode [get row first, get row second] = .int total ↔ Short m ∧ Short n := by
    rw [halves.sent, halves.received]
    exact sum_eq_iff halves.whole
  have field := field_iff distinct distinct' timestamp
  have source := field (codes "src_ip") (by decide) rfl rfl (taken_either isRecord.source)
    (text isRow.source) rfl
  have destination := field (codes "dst_ip") (by decide) rfl rfl
    (taken_either isRecord.destination) (text isRow.destination) rfl
  have first := field (codes "src_port") (by decide) rfl rfl taken_source
    (port isRow.sourcePort flow.isPort.1) rfl
  have second := field (codes "dst_port") (by decide) rfl rfl taken_destination
    (port isRow.destinationPort flow.isPort.2) rfl
  have named := field (codes "proto") (by decide) rfl rfl (taken_string isRecord.proto) proto rfl
  have third := field (codes "bytes") (by decide) rfl rfl taken_bytes (total isRow.bytes) rfl
  have fourth := field (codes "packets") (by decide) rfl rfl taken_packets
    (total isRow.packets) rfl
  rw [forall_shared, and_iff_right ⟨.str timestamp, rfl, rfl⟩]
  refine (and_congr source (and_congr destination (and_congr first (and_congr second
    (and_congr named (and_congr third fourth)))))).trans ?_
  simp only [List.forall_mem_cons, List.not_mem_nil, false_implies, implies_true, and_true,
    true_and]
  constructor
  · rintro ⟨source, destination, first, second, -, ⟨bytes, third⟩, packets, fourth⟩
    exact ⟨⟨source, destination, first, second, third, fourth⟩, bytes, packets⟩
  · rintro ⟨⟨source, destination, first, second, third, fourth⟩, bytes, packets⟩
    exact ⟨source, destination, first, second, proto_kept isRecord, ⟨bytes, third⟩, packets,
      fourth⟩

end Shared

section Agreement

variable {unicode : Unicode} {shortest : Double → PyFloat} {flow : Flow} {row : Row}
  {record : Event} {a b c d : ℕ}

theorem readable_of_agree (isRow : IsRow flow row a b c d) (isRecord : IsRecord flow record)
    (agree : Agree (ZeekEvents.conn unicode shortest row)
      (Netflow.record unicode shortest record)) : Readable record a b c d := by
  obtain ⟨sourcePort, destinationPort, bytes, packets, taken_source, taken_destination,
    taken_bytes, taken_packets, recorded⟩ := @record_taken unicode shortest _ _ isRecord
  have zeek : ZeekEvents.conn unicode shortest row = _ := eventAt_dated (dated_row isRow) _ _ _
  rw [zeek, recorded] at agree
  obtain ⟨z, n, same, returned, shared⟩ := agree
  cases converted : Netflow.float unicode shortest (eventGet record "duration") with
  | error e =>
    rw [converted] at returned
    cases returned
  | ok duration =>
    rw [converted] at returned
    cases same
    cases returned
    obtain ⟨kept, bytes, packets⟩ := (shared_iff isRow isRecord _ taken_source taken_destination
      taken_bytes taken_packets _ _).mp shared
    have inside := (float_returns_iff (eventGet record "duration")).mp ⟨duration, converted⟩
    exact ⟨kept, bytes, packets, duration_iff.mp inside⟩

theorem agree_of_readable (isRow : IsRow flow row a b c d) (isRecord : IsRecord flow record)
    (readable : Readable record a b c d) :
    Agree (ZeekEvents.conn unicode shortest row) (Netflow.record unicode shortest record) := by
  obtain ⟨sourcePort, destinationPort, bytes, packets, taken_source, taken_destination,
    taken_bytes, taken_packets, recorded⟩ := @record_taken unicode shortest _ _ isRecord
  obtain ⟨duration, converted⟩ := (@float_returns_iff unicode shortest _).mpr
    (duration_iff.mpr readable.duration)
  rw [recorded, converted]
  exact ⟨_, _, eventAt_dated (dated_row isRow) _ _ _, rfl,
    (shared_iff isRow isRecord _ taken_source taken_destination taken_bytes taken_packets _ _).mpr
      ⟨readable.kept, readable.bytes, readable.packets⟩⟩

end Agreement

/-- The adapters agree on a flow exactly when its record is readable. -/
theorem flows_agree_iff (unicode : Unicode) (shortest : Double → PyFloat) {flow : Flow}
    {row : Row} {record : Event} {a b c d : ℕ} (isRow : IsRow flow row a b c d)
    (isRecord : IsRecord flow record) :
    Agree (ZeekEvents.conn unicode shortest row) (Netflow.record unicode shortest record) ↔
      Readable record a b c d :=
  ⟨readable_of_agree isRow isRecord, agree_of_readable isRow isRecord⟩

/-! ## A Modbus flow -/

def modbusFlow (sourcePort : ℕ) (small : sourcePort ≤ 65535) : Flow where
  start := 5
  source := codes "172.24.0.10"
  destination := codes "172.24.0.20"
  sourcePort := sourcePort
  destinationPort := 502
  proto := codes "tcp"
  bytes := 300
  packets := 5
  early := by decide
  late := by decide
  isPort := ⟨small, by decide⟩
  some_proto := by decide

def modbusRow (sourcePort : ℕ) : Row :=
  [(codes "ts", intText 5 ++ codes ".000000"), (codes "id.orig_h", codes "172.24.0.10"),
    (codes "id.orig_p", natText sourcePort), (codes "id.resp_h", codes "172.24.0.20"),
    (codes "id.resp_p", natText 502), (codes "proto", codes "tcp"),
    (codes "orig_bytes", natText 100), (codes "resp_bytes", natText 200),
    (codes "orig_pkts", natText 5), (codes "resp_pkts", natText 0)]

def modbusRecord (sourcePort : ℕ) : Event :=
  [(codes "timestamp", .int 5), (codes "src_ip", .str (codes "172.24.0.10")),
    (codes "dstaddr", .str (codes "172.24.0.20")), (codes "src_port", .int sourcePort),
    (codes "dstport", .int 502), (codes "proto", .str (codes "tcp")),
    (codes "bytes_total", .int 300), (codes "packets", .int 5)]

theorem modbus_row (sourcePort : ℕ) (small : sourcePort ≤ 65535) :
    IsRow (modbusFlow sourcePort small) (modbusRow sourcePort) 100 200 5 0 :=
  ⟨⟨6, rfl⟩, rfl, rfl, rfl, rfl, rfl, ⟨rfl, rfl, rfl⟩, ⟨rfl, rfl, rfl⟩⟩

theorem modbus_record (sourcePort : ℕ) (small : sourcePort ≤ 65535) :
    IsRecord (modbusFlow sourcePort small) (modbusRecord sourcePort) :=
  ⟨⟨_, rfl, .int⟩, .inl ⟨rfl, rfl⟩, .inr ⟨rfl, rfl⟩, .inl ⟨rfl, rfl⟩, .inr ⟨rfl, rfl⟩,
    .inl ⟨rfl, rfl⟩, .inr ⟨rfl, rfl⟩, .inl ⟨rfl, rfl⟩⟩

theorem modbus_readable : Readable (modbusRecord 50000) 100 200 5 0 := by
  have kept : ∀ field ∈ modbusRecord 50000, truthy field.2 = true := by decide
  refine ⟨?_, by decide, by decide, nofun⟩
  rintro primary - ⟨value, found, falsy⟩
  rw [kept _ (mem_of_lookup found)] at falsy
  cases falsy

theorem flows_agree_modbus :
    Agree (ZeekEvents.conn noTables (fun _ => .nan) (modbusRow 50000))
      (Netflow.record noTables (fun _ => .nan) (modbusRecord 50000)) :=
  (flows_agree_iff noTables (fun _ => .nan) (modbus_row 50000 (by decide))
    (modbus_record 50000 (by decide))).mpr modbus_readable

/-- A flow from port zero has no source port in the NetFlow event. -/
theorem flows_disagree : ¬ ∀ (flow : Flow) (row : Row) (record : Event) (a b c d : ℕ),
    IsRow flow row a b c d → IsRecord flow record →
    Agree (ZeekEvents.conn noTables (fun _ => .nan) row)
      (Netflow.record noTables (fun _ => .nan) record) := by
  intro all
  have row := modbus_row 0 (by decide)
  have record := modbus_record 0 (by decide)
  have readable := readable_of_agree row record (all _ _ _ _ _ _ _ row record)
  exact readable.kept "src_port" (by decide) ⟨.int 0, rfl, rfl⟩

end OtDetection.FlowAgreement
