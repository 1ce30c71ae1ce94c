import OtDetection.OpcuaEncoder
import OtDetection.OpcuaMessage

/-! MSG and CLO messages of a channel that encrypts. The decoder keeps no state of a channel
and looks for a service in the ciphertext; it finds one in every ciphertext that starts
like a numeric NodeId. -/

namespace OtDetection.OpcuaCiphertext
open Octets Utf8Lossy OpcuaMessage OpcuaEncoder OpcuaEvent

inductive Kind
  | msg
  | clo

/-- A message under `SignAndEncrypt`, as long as its size field can say. -/
structure Encrypted where
  kind : Kind
  chunk : Chunk
  secureChannelId : U32
  tokenId : U32
  sequenceNumber : U32
  requestId : U32
  ciphertext : List U8
  fits : 24 + ciphertext.length < 2 ^ 32

namespace Encrypted

variable (encrypted : Encrypted)

def security : Security :=
  match encrypted.kind with
  | .msg => .msg encrypted.tokenId
  | .clo => .clo encrypted.tokenId

def message : Message where
  chunk := encrypted.chunk
  secureChannelId := encrypted.secureChannelId
  security := encrypted.security
  sequenceNumber := encrypted.sequenceNumber
  requestId := encrypted.requestId
  body := encrypted.ciphertext

def payload : List U8 :=
  u32ToLe encrypted.secureChannelId ++ (u32ToLe encrypted.tokenId ++
    (u32ToLe encrypted.sequenceNumber ++ (u32ToLe encrypted.requestId ++ encrypted.ciphertext)))

def octets : List U8 :=
  encrypted.security.messageType ++ encrypted.chunk.octet ::
    (u32ToLe (BitVec.ofNat 32 (headerLen + encrypted.payload.length)) ++ encrypted.payload)

def typeText : List Char :=
  match encrypted.kind with
  | .msg => "MSG".toList
  | .clo => "CLO".toList

def chunkText : List Char :=
  match encrypted.chunk with
  | .final => ['F']
  | .intermediate => ['C']
  | .abort => ['A']

def withheld : Event where
  messageType := encrypted.typeText
  chunkType := encrypted.chunkText
  secureChannelId := some encrypted.secureChannelId
  securityPolicyUri := none
  tokenId := some encrypted.tokenId
  sequenceNumber := some encrypted.sequenceNumber
  requestId := some encrypted.requestId
  serviceId := none
  opcuaService := none
  direction := none

end Encrypted

/-- A numeric NodeId in one of the three encodings is as long as its first octet asks. -/
def StartsNodeId (octets : List U8) : Prop :=
  (octets.head? = some 0 ∧ 2 ≤ octets.length) ∨ (octets.head? = some 1 ∧ 4 ≤ octets.length) ∨
    (octets.head? = some 2 ∧ 7 ≤ octets.length)

theorem getSlice_isSome_iff (bytes : List U8) {first last : ℕ} (ordered : first ≤ last) :
    (getSlice bytes first last).isSome ↔ last ≤ bytes.length := by
  rw [getSlice]
  split
  · rename_i inside
    exact iff_of_true rfl inside.2
  · rename_i outside
    exact iff_of_false Bool.false_ne_true fun inside => outside ⟨ordered, inside⟩

theorem isSome_bind_bind {α β γ : Type*} (x : Option α) (y : Option β) (f : α → β → γ) :
    (x.bind fun a => y.bind fun b => some (f a b)).isSome ↔ x.isSome ∧ y.isSome := by
  cases x <;> cases y <;> simp

theorem parseNodeId_isSome_iff (bytes : List U8) :
    (parseNodeId bytes).isSome ↔ StartsNodeId bytes := by
  cases bytes with
  | nil => simp [parseNodeId, StartsNodeId]
  | cons first rest =>
    have index := getSlice_isSome_iff (first :: rest) (show 1 ≤ 3 by decide)
    have word := getSlice_isSome_iff (first :: rest) (show 2 ≤ 4 by decide)
    have wide := getSlice_isSome_iff (first :: rest) (show 3 ≤ 7 by decide)
    have second : (first :: rest)[1]?.isSome ↔ 2 ≤ (first :: rest).length := by
      cases rest <;> simp
    have values : (0 : U8).toNat = 0 ∧ (1 : U8).toNat = 1 ∧ (2 : U8).toNat = 2 := by decide
    simp only [StartsNodeId, List.head?_cons, Option.some.injEq, ← BitVec.toNat_inj, values]
    simp only [parseNodeId, List.getElem?_cons_zero, Option.bind_eq_bind, Option.bind_some]
    split
    · rename_i zero
      cases rest <;> simp [zero]
    · rename_i one
      rw [isSome_bind_bind, second, word, one]
      omega
    · rename_i two
      rw [isSome_bind_bind, index, wide, two]
      omega
    · rename_i zero one two
      refine iff_of_false Bool.false_ne_true ?_
      rintro (⟨first, -⟩ | ⟨first, -⟩ | ⟨first, -⟩)
      · exact zero first
      · exact one first
      · exact two first

section Events

variable (encrypted : Encrypted)

theorem encode_message : encrypted.message.encode = some encrypted.octets := by
  cases kind : encrypted.kind <;>
    simp [Message.encode, Message.payload, Security.encode, Encrypted.message, Encrypted.octets,
      Encrypted.security, Encrypted.payload, kind]

theorem octets_length : encrypted.octets.length = 24 + encrypted.ciphertext.length := by
  simp only [Encrypted.octets, Encrypted.payload, List.length_append, List.length_cons,
    messageType_length, u32ToLe_length]
  omega

theorem parseFrame_octets (trailing : List U8) : parseFrame (encrypted.octets ++ trailing) =
    .ok (encrypted.message.frame encrypted.octets.length, encrypted.octets.length) := by
  have size : encrypted.octets.length < 2 ^ 32 := by
    rw [octets_length]
    exact encrypted.fits
  exact (parseFrame_encode encrypted.message (encode_message encrypted) size trailing).1

theorem typeStr_message (size : ℕ) :
    (encrypted.message.frame size).header.typeStr = encrypted.typeText := by
  have written : encrypted.security.messageType = encrypted.typeText.flatMap encodeChar := by
    cases kind : encrypted.kind
    all_goals
      simp only [Encrypted.security, Encrypted.typeText, kind, Security.messageType]
      decide
  rw [MessageHeader.typeStr, ← fromUtf8Lossy_encode encrypted.typeText, ← written]
  rfl

theorem chunkText_message : [Char.ofNat encrypted.chunk.octet.toNat] = encrypted.chunkText := by
  rw [Encrypted.chunkText]
  cases encrypted.chunk <;> rfl

theorem event_frame (size : ℕ) : event (encrypted.message.frame size) =
    { encrypted.withheld with
      serviceId := (parseNodeId encrypted.ciphertext).map ServiceNodeId.identifier
      opcuaService := (serviceOf (encrypted.message.frame size)).map String.toList
      direction := (serviceOf (encrypted.message.frame size)).map fun name =>
        (OpcuaMessage.direction name).toList } := by
  have uri : encrypted.security.uri = none := by
    rw [Encrypted.security]
    cases encrypted.kind <;> rfl
  have token : encrypted.security.tokenId = some encrypted.tokenId := by
    rw [Encrypted.security]
    cases encrypted.kind <;> rfl
  rw [event, typeStr_message, Encrypted.withheld, ← chunkText_message, ← uri, ← token]
  rfl

/-- An encrypted message is decoded without a service exactly when its ciphertext does not
start like a NodeId. -/
theorem event_withheld_iff (trailing : List U8) :
    (∃ frame consumed, parseFrame (encrypted.octets ++ trailing) = .ok (frame, consumed) ∧
      event frame = encrypted.withheld) ↔ ¬ StartsNodeId encrypted.ciphertext := by
  rw [parseFrame_octets, ← parseNodeId_isSome_iff]
  constructor
  · rintro ⟨frame, consumed, decoded, same⟩ starts
    obtain ⟨rfl, -⟩ := Prod.mk.inj (Except.ok.inj decoded)
    rw [event_frame] at same
    have absent := congrArg Event.serviceId same
    rw [Encrypted.withheld, Option.map_eq_none_iff] at absent
    rw [absent] at starts
    exact Bool.false_ne_true starts
  · intro sealed
    have absent : parseNodeId encrypted.ciphertext = none := Option.not_isSome_iff_eq_none.mp sealed
    have unnamed : serviceOf (encrypted.message.frame encrypted.octets.length) = none := by
      rw [serviceOf, Message.frame]
      simp only [Encrypted.message, absent]
      rfl
    refine ⟨_, _, rfl, ?_⟩
    rw [event_frame, absent, unnamed]
    rfl

end Events

def chance : Encrypted where
  kind := .msg
  chunk := .final
  secureChannelId := 1
  tokenId := 1
  sequenceNumber := 2
  requestId := 2
  ciphertext := [0x01, 0x00, 0xA1, 0x02, 0x9C, 0x3E]
  fits := by decide

/-- The event names a service that nobody asked for. -/
theorem event_reveals : (∃ frame, parseFrame chance.octets = .ok (frame, 30) ∧
      event frame = { chance.withheld with
        serviceId := some 673
        opcuaService := some "WriteRequest".toList
        direction := some "request".toList }) ∧
    ¬ ∃ frame consumed, parseFrame chance.octets = .ok (frame, consumed) ∧
      event frame = chance.withheld := by
  have decoded := parseFrame_octets chance []
  rw [List.append_nil, octets_length] at decoded
  rw [decoded]
  constructor
  · refine ⟨_, rfl, ?_⟩
    rw [event_frame]
    rfl
  · rintro ⟨frame, consumed, same, event_eq⟩
    obtain ⟨rfl, -⟩ := Prod.mk.inj (Except.ok.inj same)
    rw [event_frame] at event_eq
    exact Option.some_ne_none _ (congrArg Event.serviceId event_eq)

end OtDetection.OpcuaCiphertext
