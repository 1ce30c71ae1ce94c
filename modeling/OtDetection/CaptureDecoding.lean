import OtDetection.CaptureSessions
import OtDetection.Steps
import OtDetection.OpcuaMessage

/-! What the captures hold. The payloads of a session are requests of one protocol; the
decoders, given the octets that an observer of the connection has put together, find these
requests and nothing else. -/

namespace OtDetection.CaptureDecoding
open Octets LengthFraming CaptureSessions
open Dnp3Builder (PyError pyBytes dnp3Frame dnp3Frame_eq)
open Dnp3Link (encodeFrame)
open Dnp3Message (dnp3Application dnp3Application_eq event_message reports_eventOf message)
open Dnp3Application (isResponse)
open S7commMessage (toBytesBig s7commJob s7commJob_eq event_octets frameOctets frameOctets_length)

/-! ## Addresses and payloads -/

def HMI : String := "172.21.0.20"

def ATTACKER : String := "172.24.0.10"

def MODBUS_PLC : String := "172.21.0.10"

def DNP3_OUTSTATION : String := "172.31.0.10"

def OPCUA_SERVER : String := "172.31.0.10"

def S7_PLC : String := "172.21.0.10"

def CROB : List U8 := [12, 1, 0x17, 0, 0, 0, 0, 3]

def BINARY_INPUT_READ : List U8 := [1, 0, 0x06]

def DEVICE_ATTRIBUTE_READ : List U8 := [0, 0, 0x06]

def sourceOf (attacker : Bool) : String := if attacker then ATTACKER else HMI

def modbusRequest (transaction unit function : ℕ) (data : List U8) :
    Except PyError (List U8) := do
  let code ← pyBytes [function]
  let pdu := code ++ data
  let transactionBytes ← toBytesBig transaction
  let length ← toBytesBig (pdu.length + 1)
  let header := transactionBytes ++ [0x00#8, 0x00#8] ++ length
  let unitBytes ← pyBytes [unit]
  .ok (header ++ unitBytes ++ pdu)

def modbusExchange (source : String) (port transaction function : ℕ) (request reply : List U8) :
    Except PyError Session := do
  let sent ← modbusRequest transaction 1 function request
  let answered ← modbusRequest transaction 1 function reply
  .ok ⟨⟨source, port⟩, ⟨MODBUS_PLC, 502⟩, [sent], [answered]⟩

def modbusSessions (attacker : Bool) : Except PyError (List Session) := do
  let source := sourceOf attacker
  let register ← modbusExchange source 41000 1 6 [0x04, 0x00, 0x00, 0x01] [0x04, 0x00, 0x00, 0x01]
  let registers ← modbusExchange source 41001 2 16 [0x01, 0x00, 0x00, 0x01, 0x02, 0x00, 0x01]
    [0x01, 0x00, 0x00, 0x01]
  if !attacker then
    let read ← modbusExchange source 41002 3 3 [0x00, 0x00, 0x00, 0x0A]
      ([0x14] ++ List.replicate 20 0x00)
    .ok [register, registers, read]
  else
    let high ← modbusExchange source 41010 200 6 [0xC3, 0x50, 0x00, 0x01] [0xC3, 0x50, 0x00, 0x01]
    .ok [register, registers, high]

/-- The payloads of a DNP3 session: first all messages, then their frames. -/
def dnp3Payloads (linkSource : ℕ) (requests : List (ℕ × List U8)) :
    Except PyError (List (List U8)) := do
  let functions ← requests.mapM fun request => dnp3Application request.1 request.2 none
  functions.mapM (dnp3Frame 0x44 1 linkSource)

def dnp3Requests (attacker : Bool) : List (ℕ × List U8) :=
  if attacker then
    [(3, CROB), (4, CROB), (5, CROB), (6, CROB), (2, [10, 2, 0x17, 0, 0, 0, 0, 1]),
      (1, DEVICE_ATTRIBUTE_READ), (21, []), (13, []), (14, [])]
  else [(1, BINARY_INPUT_READ)]

def dnp3Sessions (attacker : Bool) : Except PyError (List Session) := do
  let payloads ← dnp3Payloads (if attacker then 7 else 1) (dnp3Requests attacker)
  .ok [⟨⟨sourceOf attacker, 42000⟩, ⟨DNP3_OUTSTATION, 20000⟩, payloads, []⟩]

/-- `to_bytes(4, "little")`, which the two lengths here always fit. -/
def toBytesLittle4 (n : ℕ) : List U8 :=
  [BitVec.ofNat 8 n, BitVec.ofNat 8 (n / 256), BitVec.ofNat 8 (n / 65536),
    BitVec.ofNat 8 (n / 16777216)]

def opcuaSessions (attacker : Bool) : List Session :=
  let hel := [0x48#8, 0x45#8, 0x4C#8] ++ [0x46#8] ++ toBytesLittle4 28 ++ List.replicate 20 0x00#8
  let opn := [0x4F#8, 0x50#8, 0x4E#8] ++ [0x46#8] ++ toBytesLittle4 24 ++ List.replicate 16 0x00#8
  [⟨⟨sourceOf attacker, 43000⟩, ⟨OPCUA_SERVER, 4840⟩, [hel, opn], []⟩]

def s7commFunctions (attacker : Bool) : List ℕ :=
  if attacker then [0x1A, 0x1B, 0x1C, 0x1D, 0x1E, 0x1F, 0x28, 0x29, 0x05] else [0xF0, 0x04]

def s7commPayloads (jobs : List (ℕ × List U8 × List U8)) : Except PyError (List (List U8)) :=
  jobs.mapM fun job => s7commJob job.1 job.2.1 job.2.2

def s7commSessions (attacker : Bool) : Except PyError (List Session) := do
  let payloads ← s7commPayloads ((s7commFunctions attacker).map fun function => (function, [], []))
  .ok [⟨⟨sourceOf attacker, 44000⟩, ⟨S7_PLC, 102⟩, payloads, []⟩]

def buildCaptures : Except PyError (List (String × List Packet)) := do
  let modbusBenign ← modbusSessions false
  let modbusAttack ← modbusSessions true
  let dnp3Benign ← dnp3Sessions false
  let dnp3Attack ← dnp3Sessions true
  let s7commBenign ← s7commSessions false
  let s7commAttack ← s7commSessions true
  .ok [("modbus_benign.pcap", capture modbusBenign), ("modbus_attack.pcap", capture modbusAttack),
    ("dnp3_benign.pcap", capture dnp3Benign), ("dnp3_attack.pcap", capture dnp3Attack),
    ("opcua_benign.pcap", capture (opcuaSessions false)),
    ("opcua_attack.pcap", capture (opcuaSessions true)),
    ("s7comm_benign.pcap", capture s7commBenign), ("s7comm_attack.pcap", capture s7commAttack)]

/-- The sessions of the Modbus attack, each found whole in their capture. -/
theorem capture_conversations_modbus :
    ∃ sessions, modbusSessions true = .ok sessions ∧ sessions.length = 3 ∧
      ∀ session ∈ sessions, Conversation session.client session.server (capture sessions)
        session.clientPayloads.flatten session.serverPayloads.flatten :=
  ⟨_, rfl, rfl, capture_conversations
    (by simp only [List.pairwise_cons, List.forall_mem_cons]; simp [Session.Apart, sourceOf,
      ATTACKER, MODBUS_PLC])
    (by simp only [List.forall_mem_cons]; simp [sourceOf, ATTACKER, MODBUS_PLC])⟩

/-! ## Decoding a session -/

section Decoding

variable {ε φ : Type} {needed : ε → Option ℕ} {parse : List U8 → Except ε (φ × ℕ)}

theorem decodes_conversation (laws : Incremental needed parse) (progress : Progress parse)
    {sessions : List Session} (apart : sessions.Pairwise Session.Apart) {session : Session}
    (mem : session ∈ sessions) (distinct : session.client ≠ session.server) {frames : List φ}
    (each : List.Forall₂ (fun payload frame => parse payload = .ok (frame, payload.length))
      session.clientPayloads frames) :
    ∃ stream, Conversation session.client session.server (capture sessions) stream
        session.serverPayloads.flatten ∧ streamOf parse stream = some (frames.map .ok) := by
  obtain ⟨conn, followed, complete⟩ := conversation_tcpSession distinct
    session.clientPayloads session.serverPayloads
  refine ⟨_, ⟨conn, ?_, complete⟩, streamOf_flatten laws progress each⟩
  rw [flow_capture apart mem]
  exact followed

end Decoding

/-! ## DNP3 -/

/-- A request that fits a frame. -/
structure Dnp3Request where
  function : U8
  objects : List U8
  request : ¬ isResponse function
  short : objects.length ≤ 247

def Dnp3Request.arguments (request : Dnp3Request) : ℕ × List U8 :=
  (request.function.toNat, request.objects)

def Dnp3Request.message (request : Dnp3Request) : List U8 :=
  Dnp3Message.message 0xC0#8 0xC0#8 request.function 0 request.objects

theorem Dnp3Request.message_length (request : Dnp3Request) : request.message.length ≤ 250 := by
  have short := request.short
  rw [message, Dnp3Message.message, Dnp3Message.indications, if_neg request.request]
  simp only [List.nil_append, List.length_cons]
  omega

def Dnp3Request.frame (linkSource : U16) (request : Dnp3Request) : Dnp3Link.LinkFrame :=
  ⟨Dnp3Link.Control.fromOctet 0x44#8, 1, linkSource, request.message⟩

def Dnp3Request.octets (linkSource : U16) (request : Dnp3Request) : List U8 :=
  encodeFrame 0x44#8 1 linkSource request.message

theorem Dnp3Request.application_eq (request : Dnp3Request) :
    dnp3Application request.function.toNat request.objects none = .ok request.message := by
  have built := dnp3Application_eq request.function 0 request.objects
  rw [if_neg request.request] at built
  exact built

theorem dnp3Payloads_eq (linkSource : U16) (requests : List Dnp3Request) :
    dnp3Payloads linkSource.toNat (requests.map Dnp3Request.arguments) =
      .ok (requests.map (Dnp3Request.octets linkSource)) := by
  have functions : (requests.map Dnp3Request.arguments).mapM
      (fun request => dnp3Application request.1 request.2 none) =
        .ok (requests.map Dnp3Request.message) := by
    refine ExceptSteps.mapM_eq_ok_iff.mpr ?_
    rw [List.forall₂_map_left_iff, List.forall₂_map_right_iff, List.forall₂_same]
    exact fun request _ => request.application_eq
  have frames : (requests.map Dnp3Request.message).mapM (dnp3Frame 0x44 1 linkSource.toNat) =
      .ok (requests.map (Dnp3Request.octets linkSource)) := by
    refine ExceptSteps.mapM_eq_ok_iff.mpr ?_
    rw [List.forall₂_map_left_iff, List.forall₂_map_right_iff, List.forall₂_same]
    exact fun request _ => dnp3Frame_eq 0x44#8 1 linkSource request.message_length
  rw [dnp3Payloads, functions]
  exact frames

theorem Dnp3Request.parseFrame_octets (linkSource : U16) (request : Dnp3Request) :
    Dnp3Link.parseFrame (request.octets linkSource) =
      .ok (request.frame linkSource, (request.octets linkSource).length) :=
  Dnp3Link.parseFrame_eq_ok_iff.mpr ⟨0x44#8, 1, linkSource, request.message, [],
    request.message_length, (List.append_nil _).symm, rfl, rfl⟩

theorem Dnp3Request.event_frame (linkSource : U16) (request : Dnp3Request) :
    ∃ e, Dnp3Application.event (request.frame linkSource) = some e ∧
      Dnp3Message.Reports 1 linkSource 0xC0#8 0xC0#8 request.function 0 request.objects e := by
  have yields := @event_message (request.frame linkSource) _ _ _ _ _ rfl
  rw [if_neg (by decide)] at yields
  exact ⟨_, yields, reports_eventOf (request.frame linkSource) 0xC0#8 0xC0#8 request.function 0
    request.objects⟩

/-- The DNP3 decoder finds the requests of a capture: one event for each request, in
their order and about that request, whatever other sessions the capture holds. -/
theorem dnp3_capture_decodes (linkSource : U16) (requests : List Dnp3Request) :
    ∃ payloads, dnp3Payloads linkSource.toNat (requests.map Dnp3Request.arguments) = .ok payloads ∧
      ∀ (sessions : List Session) (session : Session), sessions.Pairwise Session.Apart →
        session ∈ sessions → session.client ≠ session.server →
        session.clientPayloads = payloads →
        ∃ stream frames, Conversation session.client session.server (capture sessions) stream
            session.serverPayloads.flatten ∧
          Dnp3Application.parseStream stream = some (frames.map .ok) ∧
          List.Forall₂ (fun request frame => ∃ e, Dnp3Application.event frame = some e ∧
            Dnp3Message.Reports 1 linkSource 0xC0#8 0xC0#8 request.function 0 request.objects e)
            requests frames := by
  refine ⟨_, dnp3Payloads_eq linkSource requests, ?_⟩
  intro sessions session apart mem distinct sent
  have each : List.Forall₂
      (fun payload frame => Dnp3Link.parseFrame payload = .ok (frame, payload.length))
      session.clientPayloads (requests.map (Dnp3Request.frame linkSource)) := by
    rw [sent, List.forall₂_map_left_iff, List.forall₂_map_right_iff, List.forall₂_same]
    exact fun request _ => request.parseFrame_octets linkSource
  obtain ⟨stream, carried, decoded⟩ := decodes_conversation Dnp3Link.incremental
    Dnp3Link.progress apart mem distinct each
  refine ⟨stream, _, carried, decoded, ?_⟩
  rw [List.forall₂_map_right_iff, List.forall₂_same]
  exact fun request _ => request.event_frame linkSource

def attackRequests : List Dnp3Request :=
  [⟨3, CROB, by decide, by decide⟩, ⟨4, CROB, by decide, by decide⟩,
    ⟨5, CROB, by decide, by decide⟩, ⟨6, CROB, by decide, by decide⟩,
    ⟨2, [10, 2, 0x17, 0, 0, 0, 0, 1], by decide, by decide⟩,
    ⟨1, DEVICE_ATTRIBUTE_READ, by decide, by decide⟩, ⟨21, [], by decide, by decide⟩,
    ⟨13, [], by decide, by decide⟩, ⟨14, [], by decide, by decide⟩]

theorem dnp3_capture_decodes_attack :
    ∃ session, dnp3Sessions true = .ok [session] ∧ ∃ stream frames,
      Conversation session.client session.server (capture [session]) stream [] ∧
      Dnp3Application.parseStream stream = some (frames.map .ok) ∧
      List.Forall₂ (fun request frame => ∃ e, Dnp3Application.event frame = some e ∧
        Dnp3Message.Reports 1 7 0xC0#8 0xC0#8 request.function 0 request.objects e)
        attackRequests frames := by
  obtain ⟨payloads, built, decodes⟩ := dnp3_capture_decodes 7 attackRequests
  have sent : dnp3Payloads 7 (dnp3Requests true) = .ok payloads := built
  let session : Session := ⟨⟨ATTACKER, 42000⟩, ⟨DNP3_OUTSTATION, 20000⟩, payloads, []⟩
  refine ⟨session, ?_, decodes [session] session (List.pairwise_singleton _ _)
    List.mem_cons_self ?_ rfl⟩
  · rw [dnp3Sessions, if_pos rfl, sent]
    rfl
  · simp [session, ATTACKER, DNP3_OUTSTATION]

/-! ## S7comm -/

/-- A job that fits a TPKT frame. -/
structure S7commRequest where
  function : U8
  extraParams : List U8
  data : List U8
  fits : 18 + extraParams.length + data.length ≤ 65535

def S7commRequest.job (request : S7commRequest) : S7commMessage.Pdu :=
  S7commMessage.job request.function request.extraParams request.data

theorem S7commRequest.job_request (request : S7commRequest) :
    ¬ S7commMessage.Acknowledges request.job.rosctr := by
  change ¬ S7commMessage.Acknowledges 0x01#8
  decide

theorem S7commRequest.job_length (request : S7commRequest) :
    (frameOctets request.job.octets).length ≤ 65535 := by
  have fits := request.fits
  rw [frameOctets_length, S7commMessage.Pdu.octets_length, if_neg request.job_request,
    S7commMessage.Pdu.parameterLength]
  change 7 + (10 + 0 + (request.extraParams.length + 1) + request.data.length) ≤ 65535
  omega

def S7commRequest.arguments (request : S7commRequest) : ℕ × List U8 × List U8 :=
  (request.function.toNat, request.extraParams, request.data)

theorem s7commPayloads_eq (requests : List S7commRequest) :
    s7commPayloads (requests.map S7commRequest.arguments) =
      .ok (requests.map fun request => frameOctets request.job.octets) := by
  refine ExceptSteps.mapM_eq_ok_iff.mpr ?_
  rw [List.forall₂_map_left_iff, List.forall₂_map_right_iff, List.forall₂_same]
  exact fun request _ => s7commJob_eq request.function request.extraParams request.data request.fits

theorem S7commRequest.exists_frame (request : S7commRequest) :
    ∃ frame, S7comm.parseFrame (frameOctets request.job.octets) =
        .ok (frame, (frameOctets request.job.octets).length) ∧
      ∃ e, S7comm.event frame = some e ∧ S7commMessage.Reports request.job e := by
  obtain ⟨frame, e, parsed, yields, -, -, code, direction, reference, parameter, data⟩ :=
    event_octets request.job_length
  rw [if_neg request.job_request] at code
  refine ⟨frame, ?_, e, yields, code, direction, reference, parameter, data⟩
  have whole := parsed []
  rwa [List.append_nil] at whole

/-- The S7comm decoder finds the jobs of a capture: one event for each job, in their order
and about that job. -/
theorem s7comm_capture_decodes (requests : List S7commRequest) :
    ∃ payloads, s7commPayloads (requests.map S7commRequest.arguments) = .ok payloads ∧
      ∀ (sessions : List Session) (session : Session), sessions.Pairwise Session.Apart →
        session ∈ sessions → session.client ≠ session.server →
        session.clientPayloads = payloads →
        ∃ stream frames, Conversation session.client session.server (capture sessions) stream
            session.serverPayloads.flatten ∧
          S7comm.parseStream stream = some (frames.map .ok) ∧
          List.Forall₂ (fun request frame => ∃ e, S7comm.event frame = some e ∧
            S7commMessage.Reports request.job e) requests frames := by
  refine ⟨_, s7commPayloads_eq requests, ?_⟩
  intro sessions session apart mem distinct sent
  have decodable : ∀ jobs : List S7commRequest, ∃ frames, List.Forall₂ (fun request frame =>
      S7comm.parseFrame (frameOctets request.job.octets) =
          .ok (frame, (frameOctets request.job.octets).length) ∧
        ∃ e, S7comm.event frame = some e ∧ S7commMessage.Reports request.job e) jobs frames := by
    intro jobs
    induction jobs with
    | nil => exact ⟨[], .nil⟩
    | cons job jobs ih =>
      obtain ⟨frame, one⟩ := job.exists_frame
      obtain ⟨frames, rest⟩ := ih
      exact ⟨frame :: frames, .cons one rest⟩
  obtain ⟨frames, each⟩ := decodable requests
  have parsed : List.Forall₂
      (fun payload frame => S7comm.parseFrame payload = .ok (frame, payload.length))
      session.clientPayloads frames := by
    rw [sent, List.forall₂_map_left_iff]
    exact each.imp fun _ _ both => both.1
  obtain ⟨stream, carried, decoded⟩ := decodes_conversation S7comm.incremental
    S7comm.progress apart mem distinct parsed
  exact ⟨stream, frames, carried, decoded, each.imp fun _ _ both => both.2⟩

def benignJobs : List S7commRequest := [⟨0xF0, [], [], by decide⟩, ⟨0x04, [], [], by decide⟩]

def attackJobs : List S7commRequest :=
  [⟨0x1A, [], [], by decide⟩, ⟨0x1B, [], [], by decide⟩, ⟨0x1C, [], [], by decide⟩,
    ⟨0x1D, [], [], by decide⟩, ⟨0x1E, [], [], by decide⟩, ⟨0x1F, [], [], by decide⟩,
    ⟨0x28, [], [], by decide⟩, ⟨0x29, [], [], by decide⟩, ⟨0x05, [], [], by decide⟩]

theorem s7comm_capture_decodes_benign :
    ∃ session, s7commSessions false = .ok [session] ∧ ∃ stream frames,
      Conversation session.client session.server (capture [session]) stream [] ∧
      S7comm.parseStream stream = some (frames.map .ok) ∧
      List.Forall₂ (fun request frame => ∃ e, S7comm.event frame = some e ∧
        S7commMessage.Reports request.job e) benignJobs frames := by
  obtain ⟨payloads, built, decodes⟩ := s7comm_capture_decodes benignJobs
  have sent : s7commPayloads ((s7commFunctions false).map fun function => (function, [], [])) =
      .ok payloads := built
  let session : Session := ⟨⟨HMI, 44000⟩, ⟨S7_PLC, 102⟩, payloads, []⟩
  refine ⟨session, ?_, decodes [session] session (List.pairwise_singleton _ _)
    List.mem_cons_self ?_ rfl⟩
  · rw [s7commSessions, sent]
    rfl
  · simp [session, HMI, S7_PLC]

/-! ## OPC UA -/

/-- The events of the two messages, of which the second has no more of its conversation than a
part of the headers. -/
def opcuaEvents : List OpcuaEvent.Event :=
  [⟨"HEL".toList, ['F'], none, none, none, none, none, none, none, none⟩,
    ⟨"OPN".toList, ['F'], none, none, none, none, none, none, none, none⟩]

theorem opcua_capture_decodes (attacker : Bool) {sessions : List Session} {session : Session}
    (apart : sessions.Pairwise Session.Apart) (mem : session ∈ sessions)
    (own : session ∈ opcuaSessions attacker) :
    ∃ stream, ∃ frames : List OpcuaMessage.OpcUaFrame,
      Conversation session.client session.server (capture sessions) stream [] ∧
        OpcuaMessage.parseStream stream = some (frames.map .ok) ∧
        frames.map OpcuaEvent.event = opcuaEvents := by
  obtain rfl := List.mem_singleton.mp own
  have distinct : (⟨sourceOf attacker, 43000⟩ : Endpoint) ≠ ⟨OPCUA_SERVER, 4840⟩ := by simp
  obtain ⟨stream, carried, decoded⟩ := decodes_conversation OpcuaMessage.incremental
    OpcuaMessage.progress apart mem distinct (.cons rfl (.cons rfl .nil))
  exact ⟨stream, _, carried, decoded, by decide +kernel⟩

/-! ## All captures -/

/-- Sessions of different connections, each between two endpoints. -/
structure Separate (sessions : List Session) : Prop where
  apart : sessions.Pairwise Session.Apart
  distinct : ∀ session ∈ sessions, session.client ≠ session.server

theorem separate_singleton {session : Session} (distinct : session.client ≠ session.server) :
    Separate [session] :=
  ⟨List.pairwise_singleton _ _, List.forall_mem_singleton.mpr distinct⟩

theorem separate_modbus (attacker : Bool) :
    ∃ sessions, modbusSessions attacker = .ok sessions ∧ Separate sessions := by
  cases attacker with
  | false =>
    refine ⟨_, rfl, ?_, ?_⟩
    · simp [Session.Apart]
    · simp
  | true =>
    refine ⟨_, rfl, ?_, ?_⟩
    · simp [Session.Apart]
    · simp

theorem separate_dnp3 (attacker : Bool) :
    ∃ sessions, dnp3Sessions attacker = .ok sessions ∧ Separate sessions := by
  obtain ⟨payloads, built⟩ : ∃ payloads,
      dnp3Payloads (if attacker then 7 else 1) (dnp3Requests attacker) = .ok payloads := by
    cases attacker with
    | false => exact ⟨_, dnp3Payloads_eq 1 [⟨1, BINARY_INPUT_READ, by decide, by decide⟩]⟩
    | true => exact ⟨_, dnp3Payloads_eq 7 attackRequests⟩
  have distinct : (⟨sourceOf attacker, 42000⟩ : Endpoint) ≠ ⟨DNP3_OUTSTATION, 20000⟩ := by simp
  exact ⟨[⟨_, _, payloads, []⟩], by rw [dnp3Sessions, built]; rfl, separate_singleton distinct⟩

theorem separate_s7comm (attacker : Bool) :
    ∃ sessions, s7commSessions attacker = .ok sessions ∧ Separate sessions := by
  have functions : ∃ requests : List S7commRequest, requests.map S7commRequest.arguments =
      (s7commFunctions attacker).map fun function => (function, [], []) := by
    cases attacker with
    | false => exact ⟨benignJobs, rfl⟩
    | true => exact ⟨attackJobs, rfl⟩
  obtain ⟨requests, same⟩ := functions
  have built := s7commPayloads_eq requests
  rw [same] at built
  have distinct : (⟨sourceOf attacker, 44000⟩ : Endpoint) ≠ ⟨S7_PLC, 102⟩ := by simp
  exact ⟨[⟨_, _, _, []⟩], by rw [s7commSessions, built]; rfl, separate_singleton distinct⟩

/-- Every capture is built, and an observer finds each of its sessions whole. -/
theorem buildCaptures_conversations :
    ∃ captures, buildCaptures = .ok captures ∧ ∀ entry ∈ captures, ∃ sessions : List Session,
      entry.2 = capture sessions ∧ ∀ session ∈ sessions,
        Conversation session.client session.server entry.2 session.clientPayloads.flatten
          session.serverPayloads.flatten := by
  have whole {sessions : List Session} (separate : Separate sessions) :
      ∃ those : List Session, capture sessions = capture those ∧ ∀ session ∈ those,
        Conversation session.client session.server (capture sessions)
          session.clientPayloads.flatten session.serverPayloads.flatten :=
    ⟨sessions, rfl, capture_conversations separate.apart separate.distinct⟩
  obtain ⟨modbusBenign, modbus, benign⟩ := separate_modbus false
  obtain ⟨modbusAttack, modbus', attack⟩ := separate_modbus true
  obtain ⟨dnp3Benign, dnp3, benignDnp3⟩ := separate_dnp3 false
  obtain ⟨dnp3Attack, dnp3', attackDnp3⟩ := separate_dnp3 true
  obtain ⟨s7commBenign, s7comm, benignS7comm⟩ := separate_s7comm false
  obtain ⟨s7commAttack, s7comm', attackS7comm⟩ := separate_s7comm true
  have opcua (attacker : Bool) : Separate (opcuaSessions attacker) := separate_singleton (by simp)
  refine ⟨_, by rw [buildCaptures, modbus, modbus', dnp3, dnp3', s7comm, s7comm']; rfl, ?_⟩
  simp only [List.forall_mem_cons]
  exact ⟨whole benign, whole attack, whole benignDnp3, whole attackDnp3, whole (opcua false),
    whole (opcua true), whole benignS7comm, whole attackS7comm, List.forall_mem_nil _⟩

end OtDetection.CaptureDecoding
