import OtDetection.OpcuaMessage

/-! The encoder of OPC UA conversation messages, and that decoding undoes it. A string
has a signed length of 32 bits in front, so that one of 2 ^ 31 octets or more has no
encoding. -/

namespace OtDetection.OpcuaEncoder
open Octets LengthFraming Utf8Lossy OpcuaMessage

/-! ## The format -/

/-- Every negative length stands for null. -/
inductive ByteString
  | null (length : U32) (negative : length.toInt < 0)
  | octets (value : List U8)

def lengthPrefixed (value : List U8) : Option (List U8) :=
  if value.length < 2 ^ 31 then some (u32ToLe (BitVec.ofNat 32 value.length) ++ value) else none

def ByteString.encode : ByteString → Option (List U8)
  | .null length _ => some (u32ToLe length)
  | .octets value => lengthPrefixed value

/-- What stands between the channel id and the sequence header. -/
inductive Security
  | opn (uri : List Char) (certificate thumbprint : ByteString)
  | msg (tokenId : U32)
  | clo (tokenId : U32)

namespace Security

def messageType : Security → List U8
  | .opn .. => ascii "OPN"
  | .msg _ => ascii "MSG"
  | .clo _ => ascii "CLO"

def encode : Security → Option (List U8)
  | .opn uri certificate thumbprint => do
    let uri ← lengthPrefixed (uri.flatMap encodeChar)
    let certificate ← certificate.encode
    let thumbprint ← thumbprint.encode
    some (uri ++ (certificate ++ thumbprint))
  | .msg tokenId => some (u32ToLe tokenId)
  | .clo tokenId => some (u32ToLe tokenId)

def uri : Security → Option (List Char)
  | .opn uri _ _ => some uri
  | _ => none

def tokenId : Security → Option U32
  | .opn .. => none
  | .msg tokenId => some tokenId
  | .clo tokenId => some tokenId

end Security

inductive Chunk
  | final
  | intermediate
  | abort

def Chunk.octet : Chunk → U8
  | .final => chunkFinal
  | .intermediate => chunkIntermediate
  | .abort => chunkAbort

structure Message where
  chunk : Chunk
  secureChannelId : U32
  security : Security
  sequenceNumber : U32
  requestId : U32
  body : List U8

namespace Message

def payload (message : Message) : Option (List U8) := do
  let security ← message.security.encode
  some (u32ToLe message.secureChannelId ++ (security ++
    (u32ToLe message.sequenceNumber ++ (u32ToLe message.requestId ++ message.body))))

def encode (message : Message) : Option (List U8) := do
  let payload ← message.payload
  some (message.security.messageType ++ message.chunk.octet ::
    (u32ToLe (BitVec.ofNat 32 (headerLen + payload.length)) ++ payload))

def conversation (message : Message) : ConversationHeader where
  secureChannelId := message.secureChannelId
  securityPolicyUri := message.security.uri
  tokenId := message.security.tokenId
  sequenceNumber := message.sequenceNumber
  requestId := message.requestId
  body := message.body

/-- What a decoder is to make of `size` octets of the message. -/
def frame (message : Message) (size : ℕ) : OpcUaFrame where
  header := ⟨message.security.messageType, message.chunk.octet, BitVec.ofNat 32 size⟩
  conversation := some message.conversation
  service := parseNodeId message.body

end Message

/-- The three numeric encodings of a NodeId. -/
inductive NodeId
  | twoOctet (identifier : U8)
  | fourOctet (namespaceIndex : U8) (identifier : U16)
  | numeric (namespaceIndex : U16) (identifier : U32)

namespace NodeId

def encode : NodeId → List U8
  | .twoOctet identifier => [0, identifier]
  | .fourOctet namespaceIndex identifier => 1 :: namespaceIndex :: u16ToLe identifier
  | .numeric namespaceIndex identifier => 2 :: (u16ToLe namespaceIndex ++ u32ToLe identifier)

def service : NodeId → ServiceNodeId
  | .twoOctet identifier => ⟨0, identifier.setWidth 32⟩
  | .fourOctet namespaceIndex identifier =>
    ⟨namespaceIndex.setWidth 16, identifier.setWidth 32⟩
  | .numeric namespaceIndex identifier => ⟨namespaceIndex, identifier⟩

theorem parseNodeId_encode (node : NodeId) (rest : List U8) :
    parseNodeId (node.encode ++ rest) = some node.service := by
  cases node with
  | twoOctet identifier => rfl
  | fourOctet namespaceIndex identifier =>
    simp [parseNodeId, encode, service, getSlice, slice, u16ToLe, octet]
  | numeric namespaceIndex identifier =>
    simp [parseNodeId, encode, service, getSlice, slice, u16ToLe, u32ToLe, octet]

end NodeId

/-! ## The reader between what it has read and what it has not -/

def between (front rest : List U8) : Reader := ⟨front ++ rest, front.length⟩

theorem take_between (front value rest : List U8) :
    (between front (value ++ rest)).take value.length =
      some (value, between (front ++ value) rest) := by
  have inside : getSlice (front ++ (value ++ rest)) front.length (front.length + value.length) =
      some value := by
    rw [getSlice, if_pos ⟨by omega, by simp⟩, slice, List.drop_left, Nat.add_sub_cancel_left,
      List.take_left]
  simp only [Reader.take, between, inside, Option.map_some, List.append_assoc, List.length_append]

theorem u32_between (front : List U8) (word : U32) (rest : List U8) :
    (between front (u32ToLe word ++ rest)).u32 =
      some (word, between (front ++ u32ToLe word) rest) := by
  have taken := take_between front (u32ToLe word) rest
  rw [u32ToLe_length] at taken
  simp only [Reader.u32, taken, Option.bind_eq_bind, Option.bind_some]
  simp [u32ToLe, octet]

theorem lengthPrefixed_eq_some {value encoded : List U8}
    (h : lengthPrefixed value = some encoded) : value.length < 2 ^ 31 ∧
      encoded = u32ToLe (BitVec.ofNat 32 value.length) ++ value := by
  rw [lengthPrefixed] at h
  split at h
  · rename_i fits
    exact ⟨fits, (Option.some.inj h).symm⟩
  · cases h

theorem toInt_length {n : ℕ} (h : n < 2 ^ 31) :
    ¬ (BitVec.ofNat 32 n).toInt < 0 ∧ (BitVec.ofNat 32 n).toNat = n := by
  have value : (BitVec.ofNat 32 n).toNat = n := by
    rw [BitVec.toNat_ofNat, Nat.mod_eq_of_lt (by omega)]
  refine ⟨?_, value⟩
  rw [BitVec.toInt_eq_toNat_cond, value, if_pos (by omega)]
  omega

theorem string_between (front : List U8) {text : List Char} {encoded : List U8}
    (h : lengthPrefixed (text.flatMap encodeChar) = some encoded) (rest : List U8) :
    (between front (encoded ++ rest)).string = some (text, between (front ++ encoded) rest) := by
  obtain ⟨fits, rfl⟩ := lengthPrefixed_eq_some h
  obtain ⟨positive, value⟩ := toInt_length fits
  simp only [Reader.string, List.append_assoc, u32_between, Option.bind_eq_bind, Option.bind_some,
    if_neg positive, value]
  rw [take_between, Option.bind_some, fromUtf8Lossy_encode, List.append_assoc]

theorem byteString_between (front : List U8) {value : ByteString} {encoded : List U8}
    (h : value.encode = some encoded) (rest : List U8) :
    (between front (encoded ++ rest)).byteString = some (between (front ++ encoded) rest) := by
  cases value with
  | null length negative =>
    obtain rfl := Option.some.inj h
    simp only [Reader.byteString, u32_between, Option.bind_eq_bind, Option.bind_some,
      if_pos negative]
  | octets value =>
    obtain ⟨fits, rfl⟩ := lengthPrefixed_eq_some h
    obtain ⟨positive, size⟩ := toInt_length fits
    simp only [Reader.byteString, List.append_assoc, u32_between, Option.bind_eq_bind,
      Option.bind_some, if_neg positive, size]
    rw [take_between, Option.bind_some, List.append_assoc]

theorem rest_between (front rest : List U8) : (between front rest).rest = rest := by
  rw [between, Reader.rest, List.drop_left]

/-! ## The round trip -/

theorem securityHeader_between (front : List U8) {security : Security} {encoded : List U8}
    (h : security.encode = some encoded) (rest : List U8) :
    securityHeader security.messageType (between front (encoded ++ rest)) =
      some (security.uri, security.tokenId, between (front ++ encoded) rest) := by
  cases security with
  | opn uri certificate thumbprint =>
    obtain ⟨first, text, h⟩ := Option.bind_eq_some_iff.mp h
    obtain ⟨second, sender, h⟩ := Option.bind_eq_some_iff.mp h
    obtain ⟨third, receiver, h⟩ := Option.bind_eq_some_iff.mp h
    obtain rfl := Option.some.inj h
    rw [Security.messageType, securityHeader, if_pos rfl]
    simp only [List.append_assoc, string_between front text, Option.bind_eq_bind, Option.bind_some,
      byteString_between _ sender, byteString_between _ receiver]
    rfl
  | msg tokenId =>
    obtain rfl := Option.some.inj h
    have other : ascii "MSG" ≠ ascii "OPN" := by decide
    rw [Security.messageType, securityHeader, if_neg other, if_pos (.inl rfl), u32_between]
    rfl
  | clo tokenId =>
    obtain rfl := Option.some.inj h
    have other : ascii "CLO" ≠ ascii "OPN" := by decide
    rw [Security.messageType, securityHeader, if_neg other, if_pos (.inr rfl), u32_between]
    rfl

theorem conversationParse_payload {message : Message} {payload : List U8}
    (h : message.payload = some payload) :
    conversationParse message.security.messageType payload = some message.conversation := by
  obtain ⟨security, header, h⟩ := Option.bind_eq_some_iff.mp h
  obtain rfl := Option.some.inj h
  have start : ∀ bytes, (⟨bytes, 0⟩ : Reader) = between [] bytes := fun _ => rfl
  simp only [conversationParse, start, u32_between, Option.bind_eq_bind, Option.bind_some,
    securityHeader_between _ header, rest_between]
  rfl

theorem isConversation_messageType (security : Security) :
    isConversation security.messageType := by
  cases security with
  | opn uri certificate thumbprint => exact .inl rfl
  | msg tokenId => exact .inr (.inl rfl)
  | clo tokenId => exact .inr (.inr rfl)

theorem isMessageType_messageType (security : Security) :
    isMessageType security.messageType := by
  rcases isConversation_messageType security with type | type | type <;> rw [type] <;> decide

theorem isChunk_octet (chunk : Chunk) : isChunk chunk.octet := by
  cases chunk with
  | final => decide
  | intermediate => decide
  | abort => decide

theorem header_fields (security : Security) (chunk : U8) (size : U32) (rest : List U8) :
    messageTypeOf (security.messageType ++ chunk :: (u32ToLe size ++ rest)) =
        security.messageType ∧
      octet (security.messageType ++ chunk :: (u32ToLe size ++ rest)) 3 = chunk ∧
      sizeField (security.messageType ++ chunk :: (u32ToLe size ++ rest)) = size ∧
      (security.messageType ++ chunk :: (u32ToLe size ++ rest)).drop headerLen = rest := by
  have word := u32FromLe_extract size
  cases security with
  | opn uri certificate thumbprint => exact ⟨rfl, rfl, word, rfl⟩
  | msg tokenId => exact ⟨rfl, rfl, word, rfl⟩
  | clo tokenId => exact ⟨rfl, rfl, word, rfl⟩

theorem messageType_length (security : Security) : security.messageType.length = 3 := by
  cases security <;> rfl

/-- Decoding undoes encoding, whatever follows: the header and conversation fields, the
body and the size are those of the message, and a numeric NodeId in front of the
body is the service. -/
theorem parseFrame_encode (message : Message) {encoded : List U8}
    (h : message.encode = some encoded) (size : encoded.length < 2 ^ 32) (trailing : List U8) :
    parseFrame (encoded ++ trailing) =
        .ok (message.frame encoded.length, encoded.length) ∧
      ∀ (node : NodeId) (rest : List U8), message.body = node.encode ++ rest →
        (message.frame encoded.length).service = some node.service := by
  obtain ⟨payload, whole, h⟩ := Option.bind_eq_some_iff.mp h
  obtain rfl := Option.some.inj h
  have total : (message.security.messageType ++ message.chunk.octet ::
      (u32ToLe (BitVec.ofNat 32 (headerLen + payload.length)) ++ payload)).length =
        headerLen + payload.length := by
    simp only [List.length_append, List.length_cons, messageType_length, u32ToLe_length, headerLen]
    omega
  rw [total] at size ⊢
  have announced : (BitVec.ofNat 32 (headerLen + payload.length)).toNat =
      headerLen + payload.length := by
    rw [BitVec.toNat_ofNat, Nat.mod_eq_of_lt size]
  refine ⟨?_, fun node rest starts => ?_⟩
  · rw [parseFrame_eq_ok_iff]
    refine ⟨?_, ?_, ?_, ?_⟩
    · rw [List.length_append, total]
      omega
    · obtain ⟨type, chunk, field, -⟩ := header_fields message.security message.chunk.octet
        (BitVec.ofNat 32 (headerLen + payload.length)) (payload ++ trailing)
      rw [List.append_assoc, List.cons_append, List.append_assoc, messageTotal, type, chunk, field,
        announced, if_neg (not_not.mpr (isMessageType_messageType _)),
        if_neg (not_not.mpr (isChunk_octet _)), if_neg (by omega)]
    · rw [List.length_append, total]
      omega
    · obtain ⟨type, chunk, field, rest⟩ := header_fields message.security message.chunk.octet
        (BitVec.ofNat 32 (headerLen + payload.length)) payload
      rw [List.take_left' total, messageBody, type, chunk, field, rest, frameOf,
        if_pos (isConversation_messageType _), conversationParse_payload whole]
      rfl
  · rw [Message.frame, starts]
    exact node.parseNodeId_encode rest

/-- A WriteRequest in an OPN message with a null certificate, and one octet of the next
message. -/
theorem parseFrame_encode_write :
    parseFrame ((⟨.final, 1, .opn ['N'] (.null (-1) (by decide)) (.octets [7]), 2, 3,
        (NodeId.fourOctet 0 673).encode⟩ : Message).encode.getD [] ++ [0x48]) =
      .ok ((⟨.final, 1, .opn ['N'] (.null (-1) (by decide)) (.octets [7]), 2, 3,
        (NodeId.fourOctet 0 673).encode⟩ : Message).frame 38, 38) :=
  (parseFrame_encode ⟨.final, 1, .opn ['N'] (.null (-1) (by decide)) (.octets [7]), 2, 3,
    (NodeId.fourOctet 0 673).encode⟩ rfl (by decide) [0x48]).1

end OtDetection.OpcuaEncoder
