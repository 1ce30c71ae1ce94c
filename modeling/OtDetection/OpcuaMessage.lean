import OtDetection.EventText
import OtDetection.LengthFraming
import OtDetection.Utf8Lossy

/-! OPC UA TCP messages and the headers inside them. The eight octets of the
message header determine the size of a message; the secure conversation header
and the service NodeId are read from its body and never make it fail. -/

namespace OtDetection.OpcuaMessage
open Octets LengthFraming Utf8Lossy

/-- A byte string literal. -/
def ascii (text : String) : List U8 := text.toList.map (fun c => BitVec.ofNat 8 c.toNat)

def headerLen : ℕ := 8

def messageTypes : List (List U8) :=
  [ascii "HEL", ascii "ACK", ascii "ERR", ascii "RHE", ascii "OPN", ascii "MSG", ascii "CLO"]

def isMessageType (messageType : List U8) : Prop := messageType ∈ messageTypes

instance (messageType : List U8) : Decidable (isMessageType messageType) :=
  inferInstanceAs (Decidable (_ ∈ _))

def chunkFinal : U8 := 0x46#8
def chunkIntermediate : U8 := 0x43#8
def chunkAbort : U8 := 0x41#8

def isChunk (chunk : U8) : Prop :=
  chunk = chunkFinal ∨ chunk = chunkIntermediate ∨ chunk = chunkAbort

instance (chunk : U8) : Decidable (isChunk chunk) := inferInstanceAs (Decidable (_ ∨ _))

structure MessageHeader where
  messageType : List U8
  chunkType : U8
  size : U32
  deriving DecidableEq, Repr

def MessageHeader.typeStr (header : MessageHeader) : List Char := fromUtf8Lossy header.messageType

inductive MessageError
  | incomplete (needed : ℕ)
  | badType
  | badChunk (chunk : U8)
  | badSize (size : U32)
  deriving DecidableEq, Repr

def MessageError.needed : MessageError → Option ℕ
  | .incomplete needed => some needed
  | _ => none

def messageTypeOf (bytes : List U8) : List U8 := [octet bytes 0, octet bytes 1, octet bytes 2]

def sizeField (bytes : List U8) : U32 :=
  u32FromLe (octet bytes 4) (octet bytes 5) (octet bytes 6) (octet bytes 7)

def messageParse (bytes : List U8) : Except MessageError (MessageHeader × List U8) :=
  if bytes.length < headerLen then .error (.incomplete headerLen)
  else if ¬ isMessageType (messageTypeOf bytes) then .error .badType
  else if ¬ isChunk (octet bytes 3) then .error (.badChunk (octet bytes 3))
  else if (sizeField bytes).toNat < headerLen then .error (.badSize (sizeField bytes))
  else
    let total := (sizeField bytes).toNat
    if bytes.length < total then .error (.incomplete total)
    else .ok (⟨messageTypeOf bytes, octet bytes 3, sizeField bytes⟩, slice bytes headerLen total)

/-! ## Secure conversation headers -/

structure ConversationHeader where
  secureChannelId : U32
  securityPolicyUri : Option (List Char)
  tokenId : Option U32
  sequenceNumber : U32
  requestId : U32
  body : List U8
  deriving DecidableEq, Repr

structure Reader where
  bytes : List U8
  offset : ℕ
  deriving DecidableEq, Repr

/-- `checked_add`, `get`, then the new offset. An offset that would not fit a machine
word is past the end of every slice, so that `get` fails there too. -/
def Reader.take (reader : Reader) (length : ℕ) : Option (List U8 × Reader) :=
  (getSlice reader.bytes reader.offset (reader.offset + length)).map
    fun value => (value, { reader with offset := reader.offset + length })

def Reader.u32 (reader : Reader) : Option (U32 × Reader) := do
  let (value, reader) ← reader.take 4
  some (u32FromLe (octet value 0) (octet value 1) (octet value 2) (octet value 3), reader)

def Reader.string (reader : Reader) : Option (List Char × Reader) := do
  let (length, reader) ← reader.u32
  if length.toInt < 0 then some ([], reader)
  else
    let (value, reader) ← reader.take length.toNat
    some (fromUtf8Lossy value, reader)

def Reader.byteString (reader : Reader) : Option Reader := do
  let (length, reader) ← reader.u32
  if length.toInt < 0 then some reader
  else
    let (_, reader) ← reader.take length.toNat
    some reader

/-- `get(offset..)`, empty past the end. -/
def Reader.rest (reader : Reader) : List U8 := reader.bytes.drop reader.offset

/-- The security header: a policy URI on OPN, a token id on MSG and CLO. -/
def securityHeader (messageType : List U8) (reader : Reader) :
    Option (Option (List Char) × Option U32 × Reader) :=
  if messageType = ascii "OPN" then do
    let (uri, reader) ← reader.string
    let reader ← reader.byteString
    let reader ← reader.byteString
    some (some uri, none, reader)
  else if messageType = ascii "MSG" ∨ messageType = ascii "CLO" then do
    let (token, reader) ← reader.u32
    some (none, some token, reader)
  else some (none, none, reader)

def conversationParse (messageType payload : List U8) : Option ConversationHeader := do
  let (secureChannelId, reader) ← Reader.u32 ⟨payload, 0⟩
  let (securityPolicyUri, tokenId, reader) ← securityHeader messageType reader
  let (sequenceNumber, reader) ← reader.u32
  let (requestId, reader) ← reader.u32
  some { secureChannelId, securityPolicyUri, tokenId, sequenceNumber, requestId,
         body := reader.rest }

/-! ## Services -/

structure ServiceNodeId where
  namespaceIndex : U16
  identifier : U32
  deriving DecidableEq, Repr

/-- Decode a numeric NodeId from the start of `bytes`. -/
def parseNodeId (bytes : List U8) : Option ServiceNodeId := do
  let encoding ← bytes[0]?
  match encoding.toNat with
  | 0 =>
    let identifier ← bytes[1]?
    some ⟨0#16, identifier.setWidth 32⟩
  | 1 =>
    let index ← bytes[1]?
    let word ← getSlice bytes 2 4
    some ⟨index.setWidth 16, (u16FromLe (octet word 0) (octet word 1)).setWidth 32⟩
  | 2 =>
    let index ← getSlice bytes 1 3
    let word ← getSlice bytes 3 7
    some ⟨u16FromLe (octet index 0) (octet index 1),
      u32FromLe (octet word 0) (octet word 1) (octet word 2) (octet word 3)⟩
  | _ => none

def serviceName (identifier : U32) : Option String :=
  match identifier.toNat with
  | 422 => some "FindServersRequest"
  | 425 => some "FindServersResponse"
  | 428 => some "GetEndpointsRequest"
  | 431 => some "GetEndpointsResponse"
  | 461 => some "CreateSessionRequest"
  | 464 => some "CreateSessionResponse"
  | 467 => some "ActivateSessionRequest"
  | 470 => some "ActivateSessionResponse"
  | 473 => some "CloseSessionRequest"
  | 476 => some "CloseSessionResponse"
  | 488 => some "AddNodesRequest"
  | 491 => some "AddNodesResponse"
  | 494 => some "AddReferencesRequest"
  | 497 => some "AddReferencesResponse"
  | 500 => some "DeleteNodesRequest"
  | 503 => some "DeleteNodesResponse"
  | 506 => some "DeleteReferencesRequest"
  | 509 => some "DeleteReferencesResponse"
  | 527 => some "BrowseRequest"
  | 530 => some "BrowseResponse"
  | 533 => some "BrowseNextRequest"
  | 536 => some "BrowseNextResponse"
  | 554 => some "TranslateBrowsePathsToNodeIdsRequest"
  | 557 => some "TranslateBrowsePathsToNodeIdsResponse"
  | 560 => some "RegisterNodesRequest"
  | 563 => some "RegisterNodesResponse"
  | 566 => some "UnregisterNodesRequest"
  | 569 => some "UnregisterNodesResponse"
  | 631 => some "ReadRequest"
  | 634 => some "ReadResponse"
  | 664 => some "HistoryReadRequest"
  | 667 => some "HistoryReadResponse"
  | 673 => some "WriteRequest"
  | 676 => some "WriteResponse"
  | 712 => some "CallRequest"
  | 715 => some "CallResponse"
  | 787 => some "CreateSubscriptionRequest"
  | 790 => some "CreateSubscriptionResponse"
  | 826 => some "PublishRequest"
  | 829 => some "PublishResponse"
  | _ => none

/-- Direction of a service, inferred from the suffix of its name. -/
def direction (name : String) : String :=
  if "Request".toList <:+ name.toList then "request"
  else if "Response".toList <:+ name.toList then "response"
  else "unknown"

/-! ## The whole frame -/

inductive ParseError
  | message (error : MessageError)
  deriving DecidableEq, Repr

def ParseError.needed : ParseError → Option ℕ
  | .message error => error.needed

structure OpcUaFrame where
  header : MessageHeader
  conversation : Option ConversationHeader
  service : Option ServiceNodeId
  deriving DecidableEq, Repr

/-- OPN, MSG and CLO messages carry a conversation. -/
def isConversation (messageType : List U8) : Prop :=
  messageType = ascii "OPN" ∨ messageType = ascii "MSG" ∨ messageType = ascii "CLO"

instance (messageType : List U8) : Decidable (isConversation messageType) :=
  inferInstanceAs (Decidable (_ ∨ _))

def frameOf (header : MessageHeader) (body : List U8) : OpcUaFrame :=
  let conversation :=
    if isConversation header.messageType then conversationParse header.messageType body else none
  { header, conversation, service := conversation.bind fun c => parseNodeId c.body }

def parseFrame (bytes : List U8) : Except ParseError (OpcUaFrame × ℕ) :=
  match messageParse bytes with
  | .error e => .error (.message e)
  | .ok (header, body) => .ok (frameOf header body, header.size.toNat)

/-- Decode every complete message in `bytes`, stopping at the first error. -/
def parseStream (bytes : List U8) : Option (List (Except ParseError OpcUaFrame)) :=
  streamOf parseFrame bytes

/-! ## The checks, stage by stage -/

def messageTotal (header : List U8) : Except ParseError ℕ :=
  if ¬ isMessageType (messageTypeOf header) then .error (.message .badType)
  else if ¬ isChunk (octet header 3) then .error (.message (.badChunk (octet header 3)))
  else if (sizeField header).toNat < headerLen then .error (.message (.badSize (sizeField header)))
  else .ok (sizeField header).toNat

def messageBody (bytes : List U8) : OpcUaFrame :=
  frameOf ⟨messageTypeOf bytes, octet bytes 3, sizeField bytes⟩ (bytes.drop headerLen)

theorem messageTypeOf_take (bytes : List U8) {n : ℕ} (h : headerLen ≤ n) :
    messageTypeOf (bytes.take n) = messageTypeOf bytes := by
  simp only [headerLen] at h
  simp only [messageTypeOf]
  rw [octet_take _ (by omega), octet_take _ (by omega), octet_take _ (by omega)]

theorem sizeField_take (bytes : List U8) {n : ℕ} (h : headerLen ≤ n) :
    sizeField (bytes.take n) = sizeField bytes := by
  simp only [headerLen] at h
  simp only [sizeField]
  rw [octet_take _ (by omega), octet_take _ (by omega), octet_take _ (by omega),
    octet_take _ (by omega)]

theorem messageTotal_take (bytes : List U8) :
    messageTotal (bytes.take headerLen) = messageTotal bytes := by
  simp only [messageTotal]
  rw [messageTypeOf_take _ (Nat.le_refl _), sizeField_take _ (Nat.le_refl _),
    octet_take _ (by decide)]

theorem parseFrame_eq_framed (bytes : List U8) :
    parseFrame bytes = framed (fun needed => .message (.incomplete needed)) headerLen messageTotal
      (fun frame => .ok (messageBody frame)) bytes := by
  unfold parseFrame framed messageParse
  by_cases short : bytes.length < headerLen
  · rw [if_pos short, if_pos short]
  · rw [if_neg short, if_neg short, messageTotal_take, messageTotal]
    by_cases unknown : ¬ isMessageType (messageTypeOf bytes)
    · rw [if_pos unknown, if_pos unknown]
    · rw [if_neg unknown, if_neg unknown]
      by_cases chunk : ¬ isChunk (octet bytes 3)
      · rw [if_pos chunk, if_pos chunk]
      · rw [if_neg chunk, if_neg chunk]
        by_cases small : (sizeField bytes).toNat < headerLen
        · rw [if_pos small, if_pos small]
        · have least := Nat.not_lt.mp small
          rw [if_neg small, if_neg small]
          by_cases shortBody : bytes.length < (sizeField bytes).toNat
          · simp only [shortBody, if_true]
          · simp only [shortBody, if_false, messageBody]
            rw [messageTypeOf_take _ least, sizeField_take _ least,
              octet_take _ (Nat.lt_of_lt_of_le (by decide) least), List.drop_take, ← slice]

theorem shape : Shape ParseError.needed (fun needed => .message (.incomplete needed)) headerLen
    messageTotal (fun frame => .ok (messageBody frame)) where
  headerLen_pos := by decide
  needed_incomplete _ := rfl
  le_total := by
    intro header size h
    simp only [messageTotal] at h
    split_ifs at h with unknown chunk small
    cases h
    exact Nat.not_lt.mp small
  total_final := by
    intro header e h
    simp only [messageTotal] at h
    split_ifs at h <;> cases h <;> rfl
  body_final := by
    intro bytes e h
    cases h

theorem parseFrame_framed : parseFrame =
    framed (fun needed => .message (.incomplete needed)) headerLen messageTotal
      (fun frame => .ok (messageBody frame)) :=
  funext parseFrame_eq_framed

theorem incremental : Incremental ParseError.needed parseFrame := by
  rw [parseFrame_framed]
  exact framed_incremental shape

theorem progress : Progress parseFrame := by
  rw [parseFrame_framed]
  exact framed_progress shape

theorem parseFrame_eq_ok_iff {bytes : List U8} {frame : OpcUaFrame} {n : ℕ} :
    parseFrame bytes = .ok (frame, n) ↔
      headerLen ≤ bytes.length ∧ messageTotal bytes = .ok n ∧ n ≤ bytes.length ∧
        messageBody (bytes.take n) = frame := by
  rw [parseFrame_eq_framed, framed_eq_ok_iff, messageTotal_take, Except.ok.injEq]

end OtDetection.OpcuaMessage

/-! The event of an OPC UA message. Every text in it is a word of the protocol, except the security
policy URI, which the sender of an OPN message chooses. -/

namespace OtDetection.OpcuaEvent
open Octets OpcuaMessage EventText

structure Event where
  messageType : List Char
  chunkType : List Char
  secureChannelId : Option U32
  securityPolicyUri : Option (List Char)
  tokenId : Option U32
  sequenceNumber : Option U32
  requestId : Option U32
  serviceId : Option U32
  opcuaService : Option (List Char)
  direction : Option (List Char)
  deriving DecidableEq, Repr

/-- The service of a frame, when its NodeId is in the standard namespace. -/
def serviceOf (frame : OpcUaFrame) : Option String :=
  frame.service.bind fun node =>
    if node.namespaceIndex = 0#16 then serviceName node.identifier else none

def event (frame : OpcUaFrame) : Event where
  messageType := frame.header.typeStr
  chunkType := [Char.ofNat frame.header.chunkType.toNat]
  secureChannelId := frame.conversation.map ConversationHeader.secureChannelId
  securityPolicyUri := frame.conversation.bind ConversationHeader.securityPolicyUri
  tokenId := frame.conversation.bind ConversationHeader.tokenId
  sequenceNumber := frame.conversation.map ConversationHeader.sequenceNumber
  requestId := frame.conversation.map ConversationHeader.requestId
  serviceId := frame.service.map ServiceNodeId.identifier
  opcuaService := (serviceOf frame).map String.toList
  direction := (serviceOf frame).map fun name => (OpcuaMessage.direction name).toList

def numberOf (name : String) (value : U32) : List Char := numberField name value.toNat

def Event.toJson (event : Event) : List Char :=
  joinFields <|
    [textField "message_type" event.messageType, textField "chunk_type" event.chunkType] ++
    optionalField (numberOf "secure_channel_id") event.secureChannelId ++
    optionalField (textField "security_policy_uri") event.securityPolicyUri ++
    optionalField (numberOf "token_id") event.tokenId ++
    optionalField (numberOf "sequence_number") event.sequenceNumber ++
    optionalField (numberOf "request_id") event.requestId ++
    optionalField (numberOf "service_id") event.serviceId ++
    optionalField (textField "opcua_service") event.opcuaService ++
    optionalField (textField "direction") event.direction

end OtDetection.OpcuaEvent
