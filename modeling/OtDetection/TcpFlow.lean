import Mathlib.Data.Nat.Notation
import Mathlib.Logic.Function.Basic
import Mathlib.Tactic.Common

/-! A TCP connection as an observer between its sides follows it: a handshake in three steps,
then octets of either side in order, and an end of either side. A segment is current when it
starts where its side has stopped and acknowledges all that the other side has sent; the
observer gives up at the first one that is not. -/

namespace OtDetection.TcpFlow

inductive Side
  | client
  | server
  deriving DecidableEq, Repr

def Side.peer : Side → Side
  | client => server
  | server => client

theorem Side.eq_or_peer (side other : Side) : other = side ∨ other = side.peer := by
  cases side <;> cases other <;> simp [peer]

@[simp] theorem Side.peer_peer (side : Side) : side.peer.peer = side := by cases side <;> rfl

theorem Side.peer_ne (side : Side) : side.peer ≠ side := by cases side <;> simp [peer]

def Side.pick {β : Sort*} (client server : β) : Side → β
  | .client => client
  | .server => server

theorem Side.update_client {β : Type*} (client server other : β) :
    Function.update (Side.pick client server) .client other = Side.pick other server := by
  funext side
  cases side <;> rfl

theorem Side.update_server {β : Type*} (client server other : β) :
    Function.update (Side.pick client server) .server other = Side.pick client other := by
  funext side
  cases side <;> rfl

structure Segment (α : Type*) where
  syn : Bool
  ack : Bool
  fin : Bool
  sequence : ℕ
  acknowledged : ℕ
  payload : List α
  deriving DecidableEq, Repr

/-- What one side has sent, and up to where the other side has acknowledged it. -/
structure Half (α : Type*) where
  next : ℕ
  acknowledged : ℕ
  sent : List α
  finished : Bool
  deriving DecidableEq, Repr

inductive Phase
  | closed
  | synSent
  | synReceived
  | established
  deriving DecidableEq, Repr

structure Connection (α : Type*) where
  phase : Phase
  client : Half α
  server : Half α
  deriving DecidableEq, Repr

section Observer

variable {α : Type*}

def Half.opened (sequence : ℕ) : Half α := ⟨sequence + 1, sequence, [], false⟩

def Half.extend (half : Half α) (fin : Bool) (payload : List α) : Half α where
  next := half.next + payload.length + fin.toNat
  acknowledged := half.acknowledged
  sent := half.sent ++ payload
  finished := half.finished || fin

def Half.acknowledge (half : Half α) : Half α := { half with acknowledged := half.next }

namespace Connection

def start : Connection α := ⟨.closed, .opened 0, .opened 0⟩

def half (conn : Connection α) : Side → Half α
  | .client => conn.client
  | .server => conn.server

/-- One side goes on, and what the other side has sent is acknowledged. -/
def accept (conn : Connection α) (phase : Phase) (side : Side) (own : Half α) : Connection α :=
  match side with
  | .client => ⟨phase, own, conn.server.acknowledge⟩
  | .server => ⟨phase, conn.client.acknowledge, own⟩

/-- The segment that a side sends in order. -/
def current (conn : Connection α) (side : Side) (fin : Bool) (payload : List α) : Segment α where
  syn := false
  ack := true
  fin := fin
  sequence := (conn.half side).next
  acknowledged := (conn.half side.peer).next
  payload := payload

/-- Both sides have ended, and each knows of the end of the other. -/
def Complete (conn : Connection α) : Prop :=
  conn.phase = .established ∧ ∀ side,
    (conn.half side).finished = true ∧ (conn.half side).acknowledged = (conn.half side).next

/-- Neither side has ended; these are its next number and what it has sent. -/
structure IsOpen (conn : Connection α) (next : Side → ℕ) (sent : Side → List α) : Prop where
  established : conn.phase = .established
  next : ∀ side, (conn.half side).next = next side
  sent : ∀ side, (conn.half side).sent = sent side
  unfinished : ∀ side, (conn.half side).finished = false

@[simp] theorem phase_accept (conn : Connection α) (phase : Phase) (side : Side) (own : Half α) :
    (conn.accept phase side own).phase = phase := by cases side <;> rfl

@[simp] theorem half_accept (conn : Connection α) (phase : Phase) (side : Side) (own : Half α) :
    (conn.accept phase side own).half side = own := by cases side <;> rfl

theorem half_accept_of_ne (conn : Connection α) (phase : Phase) {side other : Side}
    (h : other ≠ side) (own : Half α) :
    (conn.accept phase side own).half other = (conn.half other).acknowledge := by
  cases side <;> cases other <;> first | rfl | exact absurd rfl h

end Connection

variable [DecidableEq α]

/-- One segment; an end is the last that a side says except for acknowledgements. -/
def observe (conn : Connection α) : Side × Segment α → Option (Connection α)
  | (side, segment) =>
    match conn.phase, side with
    | .closed, .client =>
      if segment = ⟨true, false, false, segment.sequence, segment.acknowledged, []⟩ then
        some ⟨.synSent, .opened segment.sequence, conn.server⟩
      else none
    | .synSent, .server =>
      if segment = ⟨true, true, false, segment.sequence, conn.client.next, []⟩ then
        some (conn.accept .synReceived .server (.opened segment.sequence))
      else none
    | .synReceived, .client =>
      if segment = conn.current .client false [] then
        some (conn.accept .established .client conn.client)
      else none
    | .established, side =>
      if segment = conn.current side segment.fin segment.payload ∧
          ((conn.half side).finished → segment.fin = false ∧ segment.payload = []) then
        some (conn.accept .established side ((conn.half side).extend segment.fin segment.payload))
      else none
    | _, _ => none

def follow (conn : Connection α) (segments : List (Side × Segment α)) : Option (Connection α) :=
  segments.foldlM observe conn

theorem follow_append (conn : Connection α) (first second : List (Side × Segment α)) :
    follow conn (first ++ second) = (follow conn first).bind (follow · second) := by
  rw [follow, List.foldlM_append]
  rfl

theorem follow_cons (conn : Connection α) (segment : Side × Segment α)
    (segments : List (Side × Segment α)) :
    follow conn (segment :: segments) = (observe conn segment).bind (follow · segments) := rfl

@[simp] theorem follow_nil (conn : Connection α) : follow conn [] = some conn := rfl

def handshake (client server : ℕ) : List (Side × Segment α) :=
  [(.client, ⟨true, false, false, client, 0, []⟩),
    (.server, ⟨true, true, false, server, client + 1, []⟩),
    (.client, ⟨false, true, false, client + 1, server + 1, []⟩)]

theorem follow_handshake (client server : ℕ) :
    ∃ conn, follow (Connection.start : Connection α) (handshake client server) = some conn ∧
      conn.IsOpen (Side.pick (client + 1) (server + 1)) (Side.pick [] []) := by
  refine ⟨⟨.established, (Half.opened client).acknowledge, (Half.opened server).acknowledge⟩,
    ?_, rfl, ?_, ?_, ?_⟩
  · simp [handshake, follow_cons, observe, Connection.start, Connection.accept,
      Connection.current, Connection.half, Side.peer, Half.opened, Half.acknowledge]
  · rintro (_ | _) <;> rfl
  · rintro (_ | _) <;> rfl
  · rintro (_ | _) <;> rfl

theorem observe_current {conn : Connection α} (established : conn.phase = .established)
    {side : Side} {fin : Bool} {payload : List α}
    (allowed : (conn.half side).finished = true → fin = false ∧ payload = []) :
    observe conn (side, conn.current side fin payload) =
      some (conn.accept .established side ((conn.half side).extend fin payload)) := by
  obtain ⟨phase, client, server⟩ := conn
  obtain rfl : phase = .established := established
  cases side <;> exact if_pos ⟨rfl, allowed⟩

theorem Connection.IsOpen.observe {conn : Connection α} {next : Side → ℕ} {sent : Side → List α}
    (isOpen : conn.IsOpen next sent) (side : Side) (payload : List α) :
    ∃ conn', TcpFlow.observe conn
        (side, ⟨false, true, false, next side, next side.peer, payload⟩) = some conn' ∧
      conn'.IsOpen (Function.update next side (next side + payload.length))
        (Function.update sent side (sent side ++ payload)) := by
  have current : conn.current side false payload =
      ⟨false, true, false, next side, next side.peer, payload⟩ := by
    rw [Connection.current, isOpen.next, isOpen.next]
  have accepted : TcpFlow.observe conn (side, conn.current side false payload) =
      some (conn.accept .established side ((conn.half side).extend false payload)) :=
    observe_current isOpen.established
      fun ended => absurd ended (by rw [isOpen.unfinished side]; decide)
  rw [current] at accepted
  refine ⟨_, accepted, Connection.phase_accept .., fun other => ?_, fun other => ?_,
    fun other => ?_⟩ <;> by_cases same : other = side
  · subst same
    simp [Half.extend, isOpen.next]
  · rw [Connection.half_accept_of_ne _ _ same, Function.update_of_ne same, ← isOpen.next]
    rfl
  · subst same
    simp [Half.extend, isOpen.sent]
  · rw [Connection.half_accept_of_ne _ _ same, Function.update_of_ne same, ← isOpen.sent]
    rfl
  · subst same
    simp [Half.extend, isOpen.unfinished]
  · rw [Connection.half_accept_of_ne _ _ same, ← isOpen.unfinished other]
    rfl

theorem Connection.IsOpen.exchange {conn : Connection α} {next : Side → ℕ} {sent : Side → List α}
    (isOpen : conn.IsOpen next sent) (side : Side) (payload : List α) :
    ∃ conn', follow conn
        [(side, ⟨false, true, false, next side, next side.peer, payload⟩),
          (side.peer, ⟨false, true, false, next side.peer, next side + payload.length, []⟩)] =
        some conn' ∧
      conn'.IsOpen (Function.update next side (next side + payload.length))
        (Function.update sent side (sent side ++ payload)) := by
  obtain ⟨data, first, after⟩ := isOpen.observe side payload
  obtain ⟨conn', second, again⟩ := after.observe side.peer []
  have apart : side.peer ≠ side := side.peer_ne
  rw [Side.peer_peer, Function.update_of_ne apart, Function.update_self] at second
  refine ⟨conn', ?_, ?_⟩
  · rw [follow_cons, first, Option.bind_some, follow_cons, second]
    rfl
  · simpa using again

theorem Connection.IsOpen.close {conn : Connection α} {next : Side → ℕ} {sent : Side → List α}
    (isOpen : conn.IsOpen next sent) (side : Side) :
    ∃ conn', follow conn
        [(side, ⟨false, true, true, next side, next side.peer, []⟩),
          (side.peer, ⟨false, true, true, next side.peer, next side + 1, []⟩),
          (side, ⟨false, true, false, next side + 1, next side.peer + 1, []⟩)] =
        some conn' ∧
      conn'.Complete ∧ ∀ other, (conn'.half other).sent = sent other := by
  have apart : side.peer ≠ side := side.peer_ne
  have unfinished : ∀ other, (conn.half other).finished ≠ true := fun other => by
    rw [isOpen.unfinished other]
    decide
  let ended := conn.accept .established side ((conn.half side).extend true [])
  let both := ended.accept .established side.peer ((ended.half side.peer).extend true [])
  let last := both.accept .established side ((both.half side).extend false [])
  have own : ended.half side = (conn.half side).extend true [] := Connection.half_accept ..
  have other : ended.half side.peer = (conn.half side.peer).acknowledge :=
    Connection.half_accept_of_ne _ _ apart _
  have own' : both.half side = (ended.half side).acknowledge :=
    Connection.half_accept_of_ne _ _ apart.symm _
  have other' : both.half side.peer = (ended.half side.peer).extend true [] :=
    Connection.half_accept ..
  have own'' : last.half side = (both.half side).extend false [] := Connection.half_accept ..
  have other'' : last.half side.peer = (both.half side.peer).acknowledge :=
    Connection.half_accept_of_ne _ _ apart _
  have first : TcpFlow.observe conn (side, conn.current side true []) = some ended :=
    observe_current isOpen.established fun stopped => absurd stopped (unfinished side)
  have second : TcpFlow.observe ended (side.peer, ended.current side.peer true []) = some both :=
    observe_current (Connection.phase_accept ..) fun stopped => by
      rw [other] at stopped
      exact absurd stopped (unfinished side.peer)
  have third : TcpFlow.observe both (side, both.current side false []) = some last :=
    observe_current (Connection.phase_accept ..) fun _ => ⟨rfl, rfl⟩
  simp only [Connection.current, own', other', own, other, Side.peer_peer, Half.extend,
    Half.acknowledge, isOpen.next, List.length_nil, Nat.add_zero, Bool.toNat_true]
    at first second third
  refine ⟨last, ?_, ⟨Connection.phase_accept .., fun which => ?_⟩, fun which => ?_⟩
  · rw [follow_cons, first, Option.bind_some, follow_cons, second, Option.bind_some, follow_cons,
      third]
    rfl
  · rcases side.eq_or_peer which with rfl | rfl
    · simp [own'', own', own, Half.extend, Half.acknowledge]
    · simp [other'', other', other, Half.extend, Half.acknowledge]
  · rcases side.eq_or_peer which with rfl | rfl
    · simp [own'', own', own, Half.extend, Half.acknowledge, isOpen.sent]
    · simp [other'', other', other, Half.extend, Half.acknowledge, isOpen.sent]

end Observer

end OtDetection.TcpFlow
