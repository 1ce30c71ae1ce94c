import OtDetection.CheckedRust
import OtDetection.OpcuaMessage

/-! The OPC UA decoder with its panics. The reader of the conversation header adds
with `checked_add` and slices with `get`, so that a length an attacker chooses
ends the header instead of the program. -/

namespace OtDetection.CheckedOpcua
open Octets CheckedRust OpcuaMessage

def messageParse (maxUsize : ℕ) (bytes : List U8) :
    Checked (Except MessageError (MessageHeader × List U8)) := do
  if bytes.length < headerLen then pure (.error (.incomplete headerLen))
  else
    let a ← index bytes 0
    let b ← index bytes 1
    let c ← index bytes 2
    if ¬ isMessageType [a, b, c] then pure (.error .badType)
    else
      let chunk ← index bytes 3
      if ¬ isChunk chunk then pure (.error (.badChunk chunk))
      else
        let d ← index bytes 4
        let e ← index bytes 5
        let f ← index bytes 6
        let g ← index bytes 7
        let size := u32FromLe d e f g
        if size.toNat < headerLen then pure (.error (.badSize size))
        else
          let total := asUsize maxUsize size.toNat
          if bytes.length < total then pure (.error (.incomplete total))
          else
            let body ← sliceRange bytes headerLen total
            pure (.ok (⟨[a, b, c], chunk, size⟩, body))

theorem messageParse_eq {maxUsize : ℕ} (word : 2 ^ 32 ≤ maxUsize + 1) (bytes : List U8) :
    messageParse maxUsize bytes = .ok (OpcuaMessage.messageParse bytes) := by
  unfold messageParse OpcuaMessage.messageParse
  by_cases short : bytes.length < headerLen
  · rw [if_pos short, if_pos short]
    rfl
  · have octets : ∀ i, i < headerLen → index bytes i = .ok (octet bytes i) :=
      fun i hi => index_eq (by omega)
    have bound := (sizeField bytes).isLt
    have total : asUsize maxUsize (sizeField bytes).toNat = (sizeField bytes).toNat :=
      asUsize_eq (by omega)
    have typeField : [octet bytes 0, octet bytes 1, octet bytes 2] = messageTypeOf bytes := rfl
    have size : u32FromLe (octet bytes 4) (octet bytes 5) (octet bytes 6) (octet bytes 7) =
      sizeField bytes := rfl
    simp only [if_neg short, octets 0 (by decide), octets 1 (by decide), octets 2 (by decide),
      octets 3 (by decide), octets 4 (by decide), octets 5 (by decide), octets 6 (by decide),
      octets 7 (by decide), ok_bind, pure_eq_ok, total, typeField, size]
    split
    · rfl
    · split
      · rfl
      · by_cases small : (sizeField bytes).toNat < headerLen
        · simp only [small, if_true]
        · by_cases shortBody : bytes.length < (sizeField bytes).toNat
          · simp only [small, shortBody, if_true, if_false]
          · simp only [small, shortBody, if_false, ok_bind,
              sliceRange_eq (Nat.not_lt.mp small) (Nat.not_lt.mp shortBody)]

/-! ## The reader -/

section Reader

variable (maxUsize : ℕ)

/-- `self.bytes.get(self.offset..self.offset.checked_add(length)?)?`, then the new offset. -/
def readerTake (reader : Reader) (length : ℕ) : OptionT Checked (List U8 × Reader) := do
  let last ← OptionT.mk (pure (checkedAdd maxUsize reader.offset length))
  let value ← OptionT.mk (pure (getSlice reader.bytes reader.offset last))
  pure (value, { reader with offset := last })

def readerU32 (reader : Reader) : OptionT Checked (U32 × Reader) := do
  let (value, reader) ← readerTake maxUsize reader 4
  let word ← OptionT.lift (u32FromSlice value)
  pure (word, reader)

def readerString (reader : Reader) : OptionT Checked (List Char × Reader) := do
  let (length, reader) ← readerU32 maxUsize reader
  if length.toInt < 0 then pure ([], reader)
  else
    let (value, reader) ← readerTake maxUsize reader (asUsize maxUsize length.toNat)
    pure (Utf8Lossy.fromUtf8Lossy value, reader)

def readerByteString (reader : Reader) : OptionT Checked Reader := do
  let (length, reader) ← readerU32 maxUsize reader
  if length.toInt < 0 then pure reader
  else
    let (_, reader) ← readerTake maxUsize reader (asUsize maxUsize length.toNat)
    pure reader

def securityHeader (messageType : List U8) (reader : Reader) :
    OptionT Checked (Option (List Char) × Option U32 × Reader) :=
  if messageType = ascii "OPN" then do
    let (uri, reader) ← readerString maxUsize reader
    let reader ← readerByteString maxUsize reader
    let reader ← readerByteString maxUsize reader
    pure (some uri, none, reader)
  else if messageType = ascii "MSG" ∨ messageType = ascii "CLO" then do
    let (token, reader) ← readerU32 maxUsize reader
    pure (none, some token, reader)
  else pure (none, none, reader)

def conversationParse (messageType payload : List U8) : OptionT Checked ConversationHeader := do
  let (secureChannelId, reader) ← readerU32 maxUsize ⟨payload, 0⟩
  let (securityPolicyUri, tokenId, reader) ← securityHeader maxUsize messageType reader
  let (sequenceNumber, reader) ← readerU32 maxUsize reader
  let (requestId, reader) ← readerU32 maxUsize reader
  pure { secureChannelId, securityPolicyUri, tokenId, sequenceNumber, requestId,
         body := reader.rest }

end Reader

/-- A reader whose slice has a length that fits a machine word. -/
def Fits (maxUsize : ℕ) (reader : Reader) : Prop := reader.bytes.length ≤ maxUsize

theorem readerTake_eq {maxUsize : ℕ} {reader : Reader} (fits : Fits maxUsize reader) (length : ℕ) :
    readerTake maxUsize reader length = OptionT.mk (.ok (reader.take length)) := by
  unfold readerTake Reader.take
  rw [← checkedAdd_bind_getSlice fits, pure_eq_ok, bind_mk_ok]
  by_cases inside : reader.offset + length ≤ maxUsize
  · rw [checkedAdd, if_pos inside]
    simp only [pure_eq_ok, Option.bind_some, bind_mk_ok]
    cases getSlice reader.bytes reader.offset (reader.offset + length) <;> rfl
  · rw [checkedAdd, if_neg inside]
    rfl

theorem take_fits {maxUsize : ℕ} {reader next : Reader} {length : ℕ} {value : List U8}
    (fits : Fits maxUsize reader) (h : reader.take length = some (value, next)) :
    Fits maxUsize next := by
  obtain ⟨part, -, same⟩ := Option.map_eq_some_iff.mp h
  cases same
  exact fits

theorem readerU32_eq {maxUsize : ℕ} {reader : Reader} (fits : Fits maxUsize reader) :
    readerU32 maxUsize reader = OptionT.mk (.ok reader.u32) := by
  unfold readerU32 Reader.u32
  rw [readerTake_eq fits, bind_mk_ok]
  cases taken : reader.take 4 with
  | none => rfl
  | some p =>
    obtain ⟨part, found, same⟩ := Option.map_eq_some_iff.mp taken
    have four := getSlice_length found
    cases same
    simp only [u32FromSlice_eq (show part.length = 4 by omega)]
    rfl

theorem u32_fits {maxUsize : ℕ} {reader next : Reader} {value : U32}
    (fits : Fits maxUsize reader) (h : reader.u32 = some (value, next)) : Fits maxUsize next := by
  obtain ⟨p, taken, rest⟩ := Option.bind_eq_some_iff.mp h
  cases rest
  exact take_fits fits taken

theorem asUsize_length {maxUsize : ℕ} (word : 2 ^ 32 ≤ maxUsize + 1) (length : U32) :
    asUsize maxUsize length.toNat = length.toNat := by
  have bound := length.isLt
  exact asUsize_eq (by omega)

/-- A read behind its length, for what is made of it and of a negative length. -/
theorem lengthPrefixed_eq {α : Type} (null : Reader → α) (made : List U8 × Reader → α) {maxUsize : ℕ}
    (word : 2 ^ 32 ≤ maxUsize + 1) {reader : Reader} (fits : Fits maxUsize reader) :
    (do
      let (length, reader) ← readerU32 maxUsize reader
      if length.toInt < 0 then pure (null reader)
      else
        let read ← readerTake maxUsize reader (asUsize maxUsize length.toNat)
        pure (made read)) =
      OptionT.mk (.ok (do
        let (length, reader) ← reader.u32
        if length.toInt < 0 then pure (null reader)
        else
          let read ← reader.take length.toNat
          pure (made read))) := by
  rw [readerU32_eq fits, bind_mk_ok]
  cases read : reader.u32 with
  | none => rfl
  | some p =>
    obtain ⟨length, next⟩ := p
    simp only [asUsize_length word, readerTake_eq (u32_fits fits read), Option.bind_eq_bind,
      Option.bind_some, bind_mk_ok]
    split
    · rfl
    · cases next.take length.toNat <;> rfl

theorem readerString_eq {maxUsize : ℕ} (word : 2 ^ 32 ≤ maxUsize + 1) {reader : Reader}
    (fits : Fits maxUsize reader) :
    readerString maxUsize reader = OptionT.mk (.ok reader.string) :=
  lengthPrefixed_eq (fun reader => ([], reader))
    (fun read => (Utf8Lossy.fromUtf8Lossy read.1, read.2)) word fits

theorem readerByteString_eq {maxUsize : ℕ} (word : 2 ^ 32 ≤ maxUsize + 1) {reader : Reader}
    (fits : Fits maxUsize reader) :
    readerByteString maxUsize reader = OptionT.mk (.ok reader.byteString) :=
  lengthPrefixed_eq id Prod.snd word fits

/-- The reader behind such a read is on the same slice. -/
theorem lengthPrefixed_fits {α : Type} {null : Reader → α} {made : List U8 × Reader → α}
    {after : α → Reader} (on_null : ∀ reader, after (null reader) = reader)
    (on_made : ∀ read, after (made read) = read.2) {maxUsize : ℕ} {reader : Reader} {result : α}
    (fits : Fits maxUsize reader)
    (h : (do
      let (length, reader) ← reader.u32
      if length.toInt < 0 then pure (null reader)
      else
        let read ← reader.take length.toNat
        pure (made read)) = some result) :
    Fits maxUsize (after result) := by
  obtain ⟨⟨length, middle⟩, read, rest⟩ := Option.bind_eq_some_iff.mp h
  have inside := u32_fits fits read
  simp only at rest
  split at rest
  · cases rest
    rw [on_null]
    exact inside
  · obtain ⟨p, taken, same⟩ := Option.bind_eq_some_iff.mp rest
    cases same
    rw [on_made]
    exact take_fits inside taken

theorem string_fits {maxUsize : ℕ} {reader next : Reader} {value : List Char}
    (fits : Fits maxUsize reader) (h : reader.string = some (value, next)) :
    Fits maxUsize next :=
  @lengthPrefixed_fits _ (fun reader => ([], reader))
    (fun read => (Utf8Lossy.fromUtf8Lossy read.1, read.2)) Prod.snd (fun _ => rfl) (fun _ => rfl)
    _ _ _ fits h

theorem byteString_fits {maxUsize : ℕ} {reader next : Reader}
    (fits : Fits maxUsize reader) (h : reader.byteString = some next) : Fits maxUsize next :=
  @lengthPrefixed_fits _ id Prod.snd id (fun _ => rfl) (fun _ => rfl) _ _ _ fits h

theorem securityHeader_eq {maxUsize : ℕ} (word : 2 ^ 32 ≤ maxUsize + 1) (messageType : List U8)
    {reader : Reader} (fits : Fits maxUsize reader) :
    securityHeader maxUsize messageType reader =
      OptionT.mk (.ok (OpcuaMessage.securityHeader messageType reader)) := by
  unfold securityHeader OpcuaMessage.securityHeader
  split
  · rw [readerString_eq word fits, bind_mk_ok]
    cases read : reader.string with
    | none => rfl
    | some p =>
      obtain ⟨uri, second⟩ := p
      have secondFits := string_fits fits read
      simp only [readerByteString_eq word secondFits, bind_mk_ok, Option.bind_eq_bind,
        Option.bind_some]
      cases certificate : second.byteString with
      | none => rfl
      | some third =>
        simp only [readerByteString_eq word (byteString_fits secondFits certificate), bind_mk_ok,
          Option.bind_some]
        cases third.byteString <;> rfl
  · split
    · rw [readerU32_eq fits, bind_mk_ok]
      cases reader.u32 <;> rfl
    · rfl

theorem securityHeader_fits {maxUsize : ℕ} {messageType : List U8} {reader next : Reader}
    {uri : Option (List Char)} {token : Option U32} (fits : Fits maxUsize reader)
    (h : OpcuaMessage.securityHeader messageType reader = some (uri, token, next)) :
    Fits maxUsize next := by
  unfold OpcuaMessage.securityHeader at h
  split at h
  · obtain ⟨p, read, h⟩ := Option.bind_eq_some_iff.mp h
    obtain ⟨second, certificate, h⟩ := Option.bind_eq_some_iff.mp h
    obtain ⟨third, thumbprint, h⟩ := Option.bind_eq_some_iff.mp h
    cases h
    exact byteString_fits (byteString_fits (string_fits fits read) certificate) thumbprint
  · split at h
    · obtain ⟨p, read, h⟩ := Option.bind_eq_some_iff.mp h
      cases h
      exact u32_fits fits read
    · cases h
      exact fits

theorem conversationParse_eq {maxUsize : ℕ} (word : 2 ^ 32 ≤ maxUsize + 1)
    (messageType : List U8) {payload : List U8} (fits : payload.length ≤ maxUsize) :
    conversationParse maxUsize messageType payload =
      OptionT.mk (.ok (OpcuaMessage.conversationParse messageType payload)) := by
  have first : Fits maxUsize ⟨payload, 0⟩ := fits
  unfold conversationParse OpcuaMessage.conversationParse
  rw [readerU32_eq first, bind_mk_ok]
  cases channel : Reader.u32 ⟨payload, 0⟩ with
  | none => rfl
  | some p =>
    obtain ⟨secureChannelId, second⟩ := p
    have secondFits := u32_fits first channel
    simp only [securityHeader_eq word messageType secondFits, bind_mk_ok, Option.bind_eq_bind,
      Option.bind_some]
    cases security : OpcuaMessage.securityHeader messageType second with
    | none => rfl
    | some q =>
      obtain ⟨uri, token, third⟩ := q
      have thirdFits := securityHeader_fits secondFits security
      simp only [readerU32_eq thirdFits, bind_mk_ok, Option.bind_some]
      cases number : third.u32 with
      | none => rfl
      | some r =>
        simp only [readerU32_eq (u32_fits thirdFits number), bind_mk_ok, Option.bind_some]
        cases r.2.u32 <;> rfl

/-! ## Services and the whole frame -/

def parseNodeId (bytes : List U8) : OptionT Checked ServiceNodeId := do
  let encoding ← OptionT.mk (pure bytes[0]?)
  match encoding.toNat with
  | 0 =>
    let identifier ← OptionT.mk (pure bytes[1]?)
    pure ⟨0#16, identifier.setWidth 32⟩
  | 1 =>
    let index ← OptionT.mk (pure bytes[1]?)
    let part ← OptionT.mk (pure (getSlice bytes 2 4))
    let word ← OptionT.lift (u16FromSlice part)
    pure ⟨index.setWidth 16, word.setWidth 32⟩
  | 2 =>
    let part ← OptionT.mk (pure (getSlice bytes 1 3))
    let index ← OptionT.lift (u16FromSlice part)
    let part ← OptionT.mk (pure (getSlice bytes 3 7))
    let word ← OptionT.lift (u32FromSlice part)
    pure ⟨index, word⟩
  | _ => failure

theorem parseNodeId_eq (bytes : List U8) :
    parseNodeId bytes = OptionT.mk (.ok (OpcuaMessage.parseNodeId bytes)) := by
  unfold parseNodeId OpcuaMessage.parseNodeId
  rw [pure_eq_ok, bind_mk_ok]
  cases bytes[0]? with
  | none => rfl
  | some encoding =>
    simp only [Option.bind_eq_bind, Option.bind_some, pure_eq_ok, bind_mk_ok]
    generalize encoding.toNat = kind
    rcases kind with _ | _ | _ | kind
    · cases bytes[1]? <;> rfl
    · cases bytes[1]? with
      | none => rfl
      | some index =>
        cases found : getSlice bytes 2 4 with
        | none => rfl
        | some part =>
          simp only [u16FromSlice_eq (getSlice_length found)]
          rfl
    · cases found : getSlice bytes 1 3 with
      | none => rfl
      | some part =>
        simp only [u16FromSlice_eq (getSlice_length found)]
        cases found' : getSlice bytes 3 7 with
        | none => rfl
        | some part' =>
          simp only [u32FromSlice_eq (getSlice_length found')]
          rfl
    · rfl

def frameOf (maxUsize : ℕ) (header : MessageHeader) (body : List U8) : Checked OpcUaFrame := do
  let conversation ←
    if isConversation header.messageType then
      (conversationParse maxUsize header.messageType body).run
    else pure none
  match conversation with
  | none => pure { header, conversation := none, service := none }
  | some found =>
    let service ← (parseNodeId found.body).run
    pure { header, conversation := some found, service }

def parseFrame (maxUsize : ℕ) (bytes : List U8) :
    Checked (Except ParseError (OpcUaFrame × ℕ)) := do
  match ← messageParse maxUsize bytes with
  | .error e => pure (.error (.message e))
  | .ok (header, body) =>
    let frame ← frameOf maxUsize header body
    pure (.ok (frame, asUsize maxUsize header.size.toNat))

theorem frameOf_eq {maxUsize : ℕ} (word : 2 ^ 32 ≤ maxUsize + 1) (header : MessageHeader)
    {body : List U8} (fits : body.length ≤ maxUsize) :
    frameOf maxUsize header body = .ok (OpcuaMessage.frameOf header body) := by
  unfold frameOf OpcuaMessage.frameOf
  simp only [conversationParse_eq word _ fits, OptionT.run_mk, pure_eq_ok]
  split
  · cases OpcuaMessage.conversationParse header.messageType body with
    | none => rfl
    | some found => simp only [ok_bind, parseNodeId_eq, OptionT.run_mk, Option.bind_some]
  · rfl

theorem messageParse_body_le {bytes body : List U8} {header : MessageHeader}
    (h : OpcuaMessage.messageParse bytes = .ok (header, body)) : body.length ≤ bytes.length := by
  unfold OpcuaMessage.messageParse at h
  split at h
  · cases h
  · split at h
    · cases h
    · split at h
      · cases h
      · split at h
        · cases h
        · simp only at h
          split at h
          · cases h
          · rename_i fits
            cases h
            rw [slice_length bytes (Nat.not_lt.mp fits)]
            omega

theorem parseFrame_eq {maxUsize : ℕ} (word : 2 ^ 32 ≤ maxUsize + 1) {bytes : List U8}
    (fits : bytes.length ≤ maxUsize) :
    parseFrame maxUsize bytes = .ok (OpcuaMessage.parseFrame bytes) := by
  unfold parseFrame OpcuaMessage.parseFrame
  rw [messageParse_eq word, ok_bind]
  cases parsed : OpcuaMessage.messageParse bytes with
  | error e => rfl
  | ok p =>
    obtain ⟨header, body⟩ := p
    have inside := messageParse_body_le parsed
    simp only [frameOf_eq word header (show body.length ≤ maxUsize by omega), ok_bind,
      asUsize_length word, pure_eq_ok]

/-- `parse_stream`, then `event` and `to_json` on every decoded frame. -/
def inspect (maxUsize : ℕ) (bytes : List U8) :
    Checked (List (Except ParseError (OpcuaEvent.Event × List Char))) := do
  let frames ← streamOf maxUsize (parseFrame maxUsize) bytes
  pure (frames.map (Except.map fun frame =>
    (OpcuaEvent.event frame, (OpcuaEvent.event frame).toJson)))

theorem inspect_eq {maxUsize : ℕ} (word : 2 ^ 32 ≤ maxUsize + 1) {bytes : List U8}
    (fits : bytes.length ≤ maxUsize) :
    ∃ frames, parseStream bytes = some frames ∧ inspect maxUsize bytes =
      .ok (frames.map (Except.map fun frame =>
        (OpcuaEvent.event frame, (OpcuaEvent.event frame).toJson))) := by
  obtain ⟨frames, checked, plain⟩ := streamOf_eq OpcuaMessage.progress fits
    (fun bytes fits => parseFrame_eq word fits)
  exact ⟨frames, plain, by rw [inspect, checked]; rfl⟩

end OtDetection.CheckedOpcua
