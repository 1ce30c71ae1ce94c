import OtDetection.S7commMessage
import OtDetection.Dnp3Message
import OtDetection.TcpFlow

/-! The captures that the native rules are validated with. Each session is a TCP connection
from its first SYN to its last acknowledgement; several of them follow one another in a
capture, and each is told by its two endpoints. -/

namespace OtDetection.CaptureSessions
open Octets TcpFlow
open Dnp3Builder (PyError pyBytes dnp3Frame)
open Dnp3Message (dnp3Application)
open S7commMessage (toBytesBig s7commJob)

/-! ## Packets -/

structure Endpoint where
  address : String
  port : ℕ
  deriving DecidableEq, Repr

/-- The flags that a session uses. -/
inductive Flags
  | s
  | sa
  | a
  | pa
  | fa
  deriving DecidableEq, Repr

structure Packet where
  srcMac : String
  dstMac : String
  src : Endpoint
  dst : Endpoint
  flags : Flags
  seq : ℕ
  ack : ℕ
  payload : List U8
  deriving DecidableEq, Repr

def clientMac : String := "02:00:00:00:00:01"

def serverMac : String := "02:00:00:00:00:02"

def add (client src dst : Endpoint) (flags : Flags) (seq ack : ℕ) (payload : List U8) : Packet where
  srcMac := if src.address = client.address then clientMac else serverMac
  dstMac := if src.address = client.address then serverMac else clientMac
  src := src
  dst := dst
  flags := flags
  seq := seq
  ack := ack
  payload := payload

/-- The packets so far, and the numbers that come next. -/
structure Transcript where
  packets : List Packet
  ackC : ℕ
  ackS : ℕ

section Session

variable (client server : Endpoint)

def opening : Transcript where
  packets := [add client client server .s 1000 0 [],
    add client server client .sa 5000 (1000 + 1) [],
    add client client server .a (1000 + 1) (5000 + 1) []]
  ackC := 1000 + 1
  ackS := 5000 + 1

def Transcript.sendClient (t : Transcript) (payload : List U8) : Transcript where
  packets := t.packets ++ [add client client server .pa t.ackC t.ackS payload,
    add client server client .a t.ackS (t.ackC + payload.length) []]
  ackC := t.ackC + payload.length
  ackS := t.ackS

def Transcript.sendServer (t : Transcript) (payload : List U8) : Transcript where
  packets := t.packets ++ [add client server client .pa t.ackS t.ackC payload,
    add client client server .a t.ackC (t.ackS + payload.length) []]
  ackC := t.ackC
  ackS := t.ackS + payload.length

def Transcript.close (t : Transcript) : List Packet :=
  t.packets ++ [add client client server .fa t.ackC t.ackS [],
    add client server client .fa t.ackS (t.ackC + 1) [],
    add client client server .a (t.ackC + 1) (t.ackS + 1) []]

def tcpSession (clientPayloads serverPayloads : List (List U8)) : List Packet :=
  let requested := clientPayloads.foldl (Transcript.sendClient client server)
    (opening client server)
  let answered := serverPayloads.foldl (Transcript.sendServer client server) requested
  answered.close client server

/-! ## Packets as the segments of a connection -/

def Flags.syn : Flags → Bool
  | s | sa => true
  | a | pa | fa => false

def Flags.ack : Flags → Bool
  | s => false
  | sa | a | pa | fa => true

def Flags.fin : Flags → Bool
  | fa => true
  | s | sa | a | pa => false

def Packet.segment (packet : Packet) : Segment U8 where
  syn := packet.flags.syn
  ack := packet.flags.ack
  fin := packet.flags.fin
  sequence := packet.seq
  acknowledged := packet.ack
  payload := packet.payload

def sideOf (packet : Packet) : Option Side :=
  if packet.src = client ∧ packet.dst = server then some .client
  else if packet.src = server ∧ packet.dst = client then some .server
  else none

def flow (packets : List Packet) : List (Side × Segment U8) :=
  packets.filterMap fun packet => (sideOf client server packet).map (·, packet.segment)

/-- The capture has the whole connection, with these octets from either side. -/
structure Conversation (packets : List Packet) (requests replies : List U8) : Prop where
  complete : ∃ conn, follow Connection.start (flow client server packets) = some conn ∧
    conn.Complete ∧ conn.client.sent = requests ∧ conn.server.sent = replies

end Session

section Follows

variable {client server : Endpoint}

theorem flow_append (first second : List Packet) :
    flow client server (first ++ second) = flow client server first ++ flow client server second :=
  List.filterMap_append

theorem flow_client (flags : Flags) (seq ack : ℕ) (payload : List U8) (packets : List Packet) :
    flow client server (add client client server flags seq ack payload :: packets) =
      (.client, ⟨flags.syn, flags.ack, flags.fin, seq, ack, payload⟩) ::
        flow client server packets := by
  rw [flow, List.filterMap_cons, sideOf, if_pos ⟨rfl, rfl⟩]
  rfl

theorem flow_server (distinct : client ≠ server) (flags : Flags) (seq ack : ℕ)
    (payload : List U8) (packets : List Packet) :
    flow client server (add client server client flags seq ack payload :: packets) =
      (.server, ⟨flags.syn, flags.ack, flags.fin, seq, ack, payload⟩) ::
        flow client server packets := by
  rw [flow, List.filterMap_cons, sideOf, if_neg fun own => distinct own.1.symm,
    if_pos ⟨rfl, rfl⟩]
  rfl

theorem flow_nil : flow client server [] = [] := rfl

/-- The connection is open, with the numbers of the transcript. -/
def Tracks (client server : Endpoint) (t : Transcript) (requests replies : List U8) : Prop :=
  ∃ conn, follow Connection.start (flow client server t.packets) = some conn ∧
    conn.IsOpen (Side.pick t.ackC t.ackS) (Side.pick requests replies)

theorem tracks_opening (distinct : client ≠ server) :
    Tracks client server (opening client server) [] [] := by
  obtain ⟨conn, followed, isOpen⟩ := @follow_handshake U8 _ 1000 5000
  refine ⟨conn, ?_, isOpen⟩
  rw [opening, flow_client, flow_server distinct, flow_client, flow_nil]
  exact followed

theorem Tracks.sendClient (distinct : client ≠ server) {t : Transcript} {requests replies : List U8}
    (tracks : Tracks client server t requests replies) (payload : List U8) :
    Tracks client server (t.sendClient client server payload) (requests ++ payload) replies := by
  obtain ⟨conn, followed, isOpen⟩ := tracks
  obtain ⟨conn', exchanged, after⟩ := isOpen.exchange .client payload
  refine ⟨conn', ?_, ?_⟩
  · rw [Transcript.sendClient, flow_append, flow_client, flow_server distinct, flow_nil,
      follow_append, followed]
    exact exchanged
  · rw [Side.update_client, Side.update_client] at after
    exact after

theorem Tracks.sendServer (distinct : client ≠ server) {t : Transcript} {requests replies : List U8}
    (tracks : Tracks client server t requests replies) (payload : List U8) :
    Tracks client server (t.sendServer client server payload) requests (replies ++ payload) := by
  obtain ⟨conn, followed, isOpen⟩ := tracks
  obtain ⟨conn', exchanged, after⟩ := isOpen.exchange .server payload
  refine ⟨conn', ?_, ?_⟩
  · rw [Transcript.sendServer, flow_append, flow_server distinct, flow_client, flow_nil,
      follow_append, followed]
    exact exchanged
  · rw [Side.update_server, Side.update_server] at after
    exact after

theorem Tracks.foldl_sendClient (distinct : client ≠ server) {t : Transcript}
    {requests replies : List U8} (tracks : Tracks client server t requests replies)
    (payloads : List (List U8)) :
    Tracks client server (payloads.foldl (Transcript.sendClient client server) t)
      (requests ++ payloads.flatten) replies := by
  induction payloads generalizing t requests with
  | nil => simpa using tracks
  | cons payload payloads ih =>
    rw [List.foldl_cons, List.flatten_cons, ← List.append_assoc]
    exact ih (tracks.sendClient distinct payload)

theorem Tracks.foldl_sendServer (distinct : client ≠ server) {t : Transcript}
    {requests replies : List U8} (tracks : Tracks client server t requests replies)
    (payloads : List (List U8)) :
    Tracks client server (payloads.foldl (Transcript.sendServer client server) t)
      requests (replies ++ payloads.flatten) := by
  induction payloads generalizing t replies with
  | nil => simpa using tracks
  | cons payload payloads ih =>
    rw [List.foldl_cons, List.flatten_cons, ← List.append_assoc]
    exact ih (tracks.sendServer distinct payload)

theorem Tracks.close (distinct : client ≠ server) {t : Transcript} {requests replies : List U8}
    (tracks : Tracks client server t requests replies) :
    Conversation client server (t.close client server) requests replies := by
  obtain ⟨conn, followed, isOpen⟩ := tracks
  obtain ⟨conn', closed, complete, sent⟩ := isOpen.close .client
  refine ⟨conn', ?_, complete, sent .client, sent .server⟩
  rw [Transcript.close, flow_append, flow_client, flow_server distinct, flow_client, flow_nil,
    follow_append, followed]
  exact closed

theorem conversation_tcpSession (distinct : client ≠ server)
    (clientPayloads serverPayloads : List (List U8)) :
    Conversation client server (tcpSession client server clientPayloads serverPayloads)
      clientPayloads.flatten serverPayloads.flatten :=
  (((tracks_opening distinct).foldl_sendClient distinct clientPayloads).foldl_sendServer distinct
    serverPayloads).close distinct

/-- A packet of the connection between the two endpoints. -/
def Between (client server : Endpoint) (packet : Packet) : Prop :=
  packet.src = client ∧ packet.dst = server ∨ packet.src = server ∧ packet.dst = client

theorem between_add (flags : Flags) (seq ack : ℕ) (payload : List U8) :
    Between client server (add client client server flags seq ack payload) ∧
      Between client server (add client server client flags seq ack payload) :=
  ⟨.inl ⟨rfl, rfl⟩, .inr ⟨rfl, rfl⟩⟩

theorem between_tcpSession (clientPayloads serverPayloads : List (List U8)) :
    ∀ packet ∈ tcpSession client server clientPayloads serverPayloads,
      Between client server packet := by
  let own (t : Transcript) : Prop := ∀ packet ∈ t.packets, Between client server packet
  have opened : own (opening client server) := by
    simp [own, opening, between_add]
  have requested : own (clientPayloads.foldl (Transcript.sendClient client server)
      (opening client server)) := by
    refine List.foldlRecOn _ _ opened fun t kept payload _ => ?_
    simp only [own, Transcript.sendClient, List.forall_mem_append]
    exact ⟨kept, by simp [between_add]⟩
  have answered : own (serverPayloads.foldl (Transcript.sendServer client server)
      (clientPayloads.foldl (Transcript.sendClient client server) (opening client server))) := by
    refine List.foldlRecOn _ _ requested fun t kept payload _ => ?_
    simp only [own, Transcript.sendServer, List.forall_mem_append]
    exact ⟨kept, by simp [between_add]⟩
  rw [tcpSession, Transcript.close, List.forall_mem_append]
  exact ⟨answered, by simp [between_add]⟩

end Follows

/-! ## Captures of several sessions -/

structure Session where
  client : Endpoint
  server : Endpoint
  clientPayloads : List (List U8)
  serverPayloads : List (List U8)

def Session.packets (session : Session) : List Packet :=
  tcpSession session.client session.server session.clientPayloads session.serverPayloads

/-- The two sessions are different connections. -/
def Session.Apart (session other : Session) : Prop :=
  ¬ (session.client = other.client ∧ session.server = other.server) ∧
    ¬ (session.client = other.server ∧ session.server = other.client)

def capture (sessions : List Session) : List Packet := sessions.flatMap Session.packets

theorem flow_apart {session other : Session} (apart : session.Apart other) :
    flow session.client session.server other.packets = [] := by
  refine List.filterMap_eq_nil_iff.mpr fun packet mem => ?_
  have between := between_tcpSession _ _ packet mem
  rw [Option.map_eq_none_iff, sideOf]
  obtain ⟨src, dst⟩ | ⟨src, dst⟩ := between
  · rw [src, dst, if_neg fun same => apart.1 ⟨same.1.symm, same.2.symm⟩,
      if_neg fun same => apart.2 ⟨same.2.symm, same.1.symm⟩]
  · rw [src, dst, if_neg fun same => apart.2 ⟨same.1.symm, same.2.symm⟩,
      if_neg fun same => apart.1 ⟨same.2.symm, same.1.symm⟩]

theorem Session.Apart.symm {session other : Session} (apart : session.Apart other) :
    other.Apart session :=
  ⟨fun same => apart.1 ⟨same.1.symm, same.2.symm⟩, fun same => apart.2 ⟨same.2.symm, same.1.symm⟩⟩

theorem flow_capture {sessions : List Session} (apart : sessions.Pairwise Session.Apart)
    {session : Session} (mem : session ∈ sessions) :
    flow session.client session.server (capture sessions) =
      flow session.client session.server session.packets := by
  induction sessions with
  | nil => cases mem
  | cons first sessions ih =>
    obtain ⟨head, rest⟩ := List.pairwise_cons.mp apart
    rw [capture, List.flatMap_cons, flow_append, ← capture]
    rcases List.mem_cons.mp mem with rfl | later
    · have others : flow session.client session.server (capture sessions) = [] := by
        rw [flow, capture, List.filterMap_flatMap, List.flatMap_eq_nil_iff]
        exact fun other at_other => flow_apart (head other at_other)
      rw [others, List.append_nil]
    · rw [flow_apart (head session later).symm, List.nil_append, ih rest later]

/-- A capture holds whole conversations: an observer that knows nothing of the sessions
sees each connection open, carry all octets of both sides in order, and end on both sides. -/
theorem capture_conversations {sessions : List Session}
    (apart : sessions.Pairwise Session.Apart)
    (distinct : ∀ session ∈ sessions, session.client ≠ session.server) :
    ∀ session ∈ sessions, Conversation session.client session.server (capture sessions)
      session.clientPayloads.flatten session.serverPayloads.flatten := by
  intro session mem
  obtain ⟨conn, followed, complete⟩ := conversation_tcpSession (distinct session mem)
    session.clientPayloads session.serverPayloads
  refine ⟨conn, ?_, complete⟩
  rw [flow_capture apart mem]
  exact followed

end OtDetection.CaptureSessions
