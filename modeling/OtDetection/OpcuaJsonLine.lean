import OtDetection.OpcuaMessage
import Mathlib.Data.List.Infix

/-! The JSON line of an OPC UA event. Every text in it but one is a word of the
protocol that a string literal carries as it is; the security policy URI is
copied without any escape. So the line is faithful exactly when the octets of
that URI need no escape. -/

namespace OtDetection.OpcuaJsonLine
open Octets LengthFraming Utf8Lossy OpcuaMessage OpcuaEvent EventText JsonText PyLines

/-! ## What a faithful line is -/

def codes (text : List Char) : List ℕ := text.map Char.toNat

def numberMember (name : String) (value : U32) : List ℕ × Json :=
  (codes name.toList, .number (value.toNat : ℚ))

def textMember (name : String) (value : List Char) : List ℕ × Json :=
  (codes name.toList, .string (codes value))

def members (event : Event) : List (List ℕ × Json) :=
  [textMember "message_type" event.messageType, textMember "chunk_type" event.chunkType] ++
  (event.secureChannelId.map (numberMember "secure_channel_id")).toList ++
  (event.securityPolicyUri.map (textMember "security_policy_uri")).toList ++
  (event.tokenId.map (numberMember "token_id")).toList ++
  (event.sequenceNumber.map (numberMember "sequence_number")).toList ++
  (event.requestId.map (numberMember "request_id")).toList ++
  (event.serviceId.map (numberMember "service_id")).toList ++
  (event.opcuaService.map (textMember "opcua_service")).toList ++
  (event.direction.map (textMember "direction")).toList

/-- The line is a JSON object without raw control characters, and reading it gives
back exactly the fields of the event, each name once. -/
structure Faithful (event : Event) (line : List Char) : Prop where
  no_control : ∀ c ∈ line, 0x20 ≤ c.toNat
  reads : loads line = some (.object (members event))
  distinct : ((members event).map Prod.fst).Nodup

/-- The consumer, which splits what the decoder prints into lines, gets the line whole. -/
structure FaithfulLine (event : Event) (line : List Char) : Prop extends Faithful event line where
  one_line : splitlines (line ++ ['\n']) = [line]

/-! ## The octets of the URI -/

def stringOctets (reader : Reader) : Option (List U8 × Reader) := do
  let (length, reader) ← reader.u32
  if length.toInt < 0 then some ([], reader) else reader.take length.toNat

def policyUriOctets (message : List U8) : Option (List U8) :=
  if messageTypeOf message = ascii "OPN" then do
    let (_, reader) ← Reader.u32 ⟨message.drop headerLen, 0⟩
    let (octets, reader) ← stringOctets reader
    let reader ← reader.byteString
    let reader ← reader.byteString
    let (_, reader) ← reader.u32
    let _ ← reader.u32
    some octets
  else none

/-- No octet of the URI is a control character, a quote or a backslash. -/
def NeedsNoEscape (octets : List U8) : Prop :=
  ∀ o ∈ octets, 0x20 ≤ o.toNat ∧ o ≠ 0x22#8 ∧ o ≠ 0x5C#8

/-- No U+0085, U+2028 or U+2029 is encoded in the URI. -/
def HasNoBreak (octets : List U8) : Prop :=
  ¬ [0xC2#8, 0x85#8] <:+: octets ∧ ¬ [0xE2#8, 0x80#8, 0xA8#8] <:+: octets ∧
    ¬ [0xE2#8, 0x80#8, 0xA9#8] <:+: octets

theorem string_eq (reader : Reader) :
    reader.string = (stringOctets reader).map fun p => (fromUtf8Lossy p.1, p.2) := by
  unfold Reader.string stringOctets
  cases reader.u32 with
  | none => rfl
  | some p =>
    simp only [Option.bind_eq_bind, Option.bind_some]
    split
    · rw [Option.map_some, fromUtf8Lossy]
    · cases p.2.take p.1.toNat <;> rfl

theorem policyUri_other {messageType body : List U8} (other : messageType ≠ ascii "OPN") :
    (conversationParse messageType body).bind ConversationHeader.securityPolicyUri = none := by
  have security : ∀ reader p, securityHeader messageType reader = some p → p.1 = none := by
    intro reader p h
    rw [securityHeader, if_neg other] at h
    split at h
    · obtain ⟨token, -, last⟩ := Option.bind_eq_some_iff.mp h
      cases last
      rfl
    · cases h
      rfl
  refine Option.bind_eq_none_iff.mpr fun c h => ?_
  obtain ⟨channel, -, h⟩ := Option.bind_eq_some_iff.mp h
  obtain ⟨found, header, h⟩ := Option.bind_eq_some_iff.mp h
  obtain ⟨sequence, -, h⟩ := Option.bind_eq_some_iff.mp h
  obtain ⟨request, -, h⟩ := Option.bind_eq_some_iff.mp h
  cases h
  exact security _ _ header

theorem securityPolicyUri_eq (message : List U8) :
    (event (messageBody message)).securityPolicyUri =
      (policyUriOctets message).map fromUtf8Lossy := by
  simp only [event, messageBody, frameOf, policyUriOctets]
  by_cases opn : messageTypeOf message = ascii "OPN"
  · rw [if_pos (.inl opn), if_pos opn, opn]
    simp only [conversationParse, securityHeader, if_true, string_eq, Option.bind_eq_bind]
    cases Reader.u32 ⟨message.drop headerLen, 0⟩ with
    | none => rfl
    | some p =>
      simp only [Option.bind_some]
      cases stringOctets p.2 with
      | none => rfl
      | some q =>
        simp only [Option.map_some, Option.bind_some]
        cases q.2.byteString with
        | none => rfl
        | some second =>
          simp only [Option.bind_some]
          cases second.byteString with
          | none => rfl
          | some third =>
            simp only [Option.bind_some]
            cases third.u32 with
            | none => rfl
            | some r =>
              simp only [Option.bind_some]
              cases r.2.u32 <;> rfl
  · rw [if_neg opn, Option.map_none]
    split
    · exact policyUri_other opn
    · rfl

theorem encodeChar_ascii {c : Char} (h : c.toNat < 0x80) :
    encodeChar c = [BitVec.ofNat 8 c.toNat] := if_pos h

theorem mem_fromUtf8Lossy_ascii {c : Char} (h : c.toNat < 0x80) (octets : List U8) :
    c ∈ fromUtf8Lossy octets ↔ BitVec.ofNat 8 c.toNat ∈ octets := by
  have other : c ≠ replacement := by
    rintro rfl
    exact absurd h (by decide)
  rw [mem_fromUtf8Lossy_iff other, encodeChar_ascii h, List.singleton_infix_iff]

theorem plain_fromUtf8Lossy_iff (octets : List U8) :
    (∀ c ∈ fromUtf8Lossy octets, isPlain c) ↔ NeedsNoEscape octets := by
  constructor
  · intro plain o ho
    by_contra bad
    have small : o.toNat < 0x80 := by
      by_contra big
      refine bad ⟨by omega, ?_, ?_⟩ <;> rintro rfl <;> exact big (by decide)
    have value : (Char.ofNat o.toNat).toNat = o.toNat := toNat_ofNat (by omega)
    have mem := (mem_fromUtf8Lossy_ascii (c := Char.ofNat o.toNat) (by omega) octets).mpr
      (by rw [value, BitVec.ofNat_toNat, BitVec.setWidth_eq]; exact ho)
    obtain ⟨quote, backslash, control⟩ := plain _ mem
    refine bad ⟨by omega, ?_, ?_⟩
    · rintro rfl
      exact quote rfl
    · rintro rfl
      exact backslash rfl
  · intro clean c hc
    by_cases small : c.toNat < 0x80
    · obtain ⟨control, quote, backslash⟩ := clean _ ((mem_fromUtf8Lossy_ascii small octets).mp hc)
      rw [BitVec.toNat_ofNat, Nat.mod_eq_of_lt (by omega)] at control
      refine ⟨?_, ?_, control⟩
      · rintro rfl
        exact quote rfl
      · rintro rfl
        exact backslash rfl
    · refine ⟨?_, ?_, by omega⟩ <;> rintro rfl <;> exact small (by decide)

theorem unbroken_fromUtf8Lossy_iff {octets : List U8}
    (clean : ∀ c ∈ fromUtf8Lossy octets, isPlain c) :
    (∀ c ∈ fromUtf8Lossy octets, ¬ isLineBreak c) ↔ HasNoBreak octets := by
  have next : Char.ofNat 0x85 ∈ fromUtf8Lossy octets ↔ [0xC2#8, 0x85#8] <:+: octets :=
    mem_fromUtf8Lossy_iff (by decide) octets
  have line : Char.ofNat 0x2028 ∈ fromUtf8Lossy octets ↔ [0xE2#8, 0x80#8, 0xA8#8] <:+: octets :=
    mem_fromUtf8Lossy_iff (by decide) octets
  have paragraph :
      Char.ofNat 0x2029 ∈ fromUtf8Lossy octets ↔ [0xE2#8, 0x80#8, 0xA9#8] <:+: octets :=
    mem_fromUtf8Lossy_iff (by decide) octets
  rw [HasNoBreak, ← next, ← line, ← paragraph]
  constructor
  · intro unbroken
    refine ⟨fun h => unbroken _ h (by decide), fun h => unbroken _ h (by decide),
      fun h => unbroken _ h (by decide)⟩
  · rintro ⟨noNext, noLine, noParagraph⟩ c hc broken
    have visible := (clean c hc).2.2
    simp only [isLineBreak, List.mem_cons, List.not_mem_nil, or_false] at broken
    have self := Char.ofNat_toNat c
    rcases broken with h | h | h | h | h | h | h | h | h | h
    · omega
    · omega
    · omega
    · omega
    · omega
    · omega
    · omega
    · rw [h] at self
      exact noNext (self ▸ hc)
    · rw [h] at self
      exact noLine (self ▸ hc)
    · rw [h] at self
      exact noParagraph (self ▸ hc)

/-! ## Words of the protocol -/

/-- Every text of an event but the URI is a word. -/
structure ProtocolWords (event : Event) : Prop where
  message_type : ∀ c ∈ event.messageType, isWord c
  chunk_type : ∀ c ∈ event.chunkType, isWord c
  opcua_service : ∀ text ∈ event.opcuaService, ∀ c ∈ text, isWord c
  direction : ∀ text ∈ event.direction, ∀ c ∈ text, isWord c

theorem fromUtf8Lossy_ascii {octets : List U8} (h : ∀ o ∈ octets, o.toNat < 0x80) :
    fromUtf8Lossy octets = octets.map fun o => Char.ofNat o.toNat := by
  induction octets with
  | nil => rw [fromUtf8Lossy]; rfl
  | cons a rest ih =>
    have one : lossyStep a.toNat rest = (Char.ofNat a.toNat, 0) := if_pos (h a List.mem_cons_self)
    rw [fromUtf8Lossy_cons, one, List.drop_zero, ih fun o ho => h o (List.mem_cons_of_mem _ ho)]
    rfl

theorem typeStr_word {octets : List U8} (h : octets ∈ messageTypes) :
    ∀ c ∈ fromUtf8Lossy octets, isWord c := by
  have small : ∀ type ∈ messageTypes, ∀ o ∈ type, o.toNat < 0x80 := by decide +kernel
  have words : ∀ type ∈ messageTypes,
      ((type.map fun o => Char.ofNat o.toNat).all fun c => decide (isWord c)) = true := by
    decide +kernel
  rw [fromUtf8Lossy_ascii (small octets h)]
  exact forall_of_all (words octets h)

theorem chunk_word {chunk : U8} (h : isChunk chunk) : ∀ c ∈ [Char.ofNat chunk.toNat], isWord c := by
  rcases h with rfl | rfl | rfl <;> exact forall_of_all (by decide)

theorem serviceName_word {identifier : U32} {name : String}
    (h : serviceName identifier = some name) : ∀ c ∈ name.toList, isWord c := by
  unfold serviceName at h
  split at h <;> cases h <;> exact forall_of_all (by decide +kernel)

theorem direction_word (name : String) : ∀ c ∈ (OpcuaMessage.direction name).toList, isWord c := by
  unfold OpcuaMessage.direction
  split
  · exact forall_of_all (by decide)
  · split <;> exact forall_of_all (by decide)

theorem serviceOf_word {frame : OpcUaFrame} {name : String} (h : serviceOf frame = some name) :
    ∀ c ∈ name.toList, isWord c := by
  obtain ⟨node, -, named⟩ := Option.bind_eq_some_iff.mp h
  split at named
  · exact serviceName_word named
  · cases named

theorem protocolWords {bytes : List U8} {frame : OpcUaFrame} {n : ℕ}
    (h : parseFrame bytes = .ok (frame, n)) : ProtocolWords (event frame) := by
  obtain ⟨-, total, -, rfl⟩ := parseFrame_eq_ok_iff.mp h
  have known : messageTypeOf bytes ∈ messageTypes ∧ isChunk (octet bytes 3) ∧ headerLen ≤ n := by
    unfold messageTotal at total
    split_ifs at total with unknown chunk small
    cases total
    exact ⟨unknown, chunk, Nat.not_lt.mp small⟩
  obtain ⟨type, chunk, least⟩ := known
  constructor
  · have same : (messageBody (bytes.take n)).header.messageType = messageTypeOf bytes :=
      messageTypeOf_take bytes least
    simp only [event, MessageHeader.typeStr, same]
    exact typeStr_word type
  · have same : (messageBody (bytes.take n)).header.chunkType = octet bytes 3 :=
      octet_take bytes (Nat.lt_of_lt_of_le (by decide) least)
    simp only [event, same]
    exact chunk_word chunk
  · rintro text ht
    obtain ⟨name, named, rfl⟩ := Option.map_eq_some_iff.mp ht
    exact serviceOf_word named
  · rintro text ht
    obtain ⟨name, -, rfl⟩ := Option.map_eq_some_iff.mp ht
    exact direction_word name

/-! ## The fields of a line -/

def fields (event : Event) : List (List Char) :=
  [textField "message_type" event.messageType, textField "chunk_type" event.chunkType] ++
  optionalField (numberOf "secure_channel_id") event.secureChannelId ++
  optionalField (textField "security_policy_uri") event.securityPolicyUri ++
  optionalField (numberOf "token_id") event.tokenId ++
  optionalField (numberOf "sequence_number") event.sequenceNumber ++
  optionalField (numberOf "request_id") event.requestId ++
  optionalField (numberOf "service_id") event.serviceId ++
  optionalField (textField "opcua_service") event.opcuaService ++
  optionalField (textField "direction") event.direction

theorem toJson_eq (event : Event) : event.toJson = joinFields (fields event) := rfl

theorem fieldReads_number {name : String} (h : ∀ c ∈ name.toList, isPlain c) (value : U32) :
    FieldReads (numberOf name value) (numberMember name value) :=
  fun depth => readsAs_member h (readsAs_number depth value.toNat)

theorem fieldReads_text {name : String} (h : ∀ c ∈ name.toList, isPlain c) {value : List Char}
    (hv : ∀ c ∈ value, isPlain c) : FieldReads (textField name value) (textMember name value) :=
  fun depth => readsAs_member h (readsAs_string depth hv)

theorem fields_read {event : Event} (words : ProtocolWords event)
    (uri : ∀ text ∈ event.securityPolicyUri, ∀ c ∈ text, isPlain c) :
    List.Forall₂ FieldReads (fields event) (members event) := by
  have word : ∀ text : List Char, (∀ c ∈ text, isWord c) → ∀ c ∈ text, isPlain c :=
    fun text h c hc => (h c hc).plain
  unfold fields members
  repeat' apply List.rel_append
  · exact .cons (fieldReads_text (forall_of_all (by decide)) (word _ words.message_type))
      (.cons (fieldReads_text (forall_of_all (by decide)) (word _ words.chunk_type)) .nil)
  · exact forall₂_optional fun a _ => fieldReads_number (forall_of_all (by decide)) a
  · exact forall₂_optional fun a ha => fieldReads_text (forall_of_all (by decide)) (uri a ha)
  · exact forall₂_optional fun a _ => fieldReads_number (forall_of_all (by decide)) a
  · exact forall₂_optional fun a _ => fieldReads_number (forall_of_all (by decide)) a
  · exact forall₂_optional fun a _ => fieldReads_number (forall_of_all (by decide)) a
  · exact forall₂_optional fun a _ => fieldReads_number (forall_of_all (by decide)) a
  · exact forall₂_optional fun a ha =>
      fieldReads_text (forall_of_all (by decide)) (word a (words.opcua_service a ha))
  · exact forall₂_optional fun a ha =>
      fieldReads_text (forall_of_all (by decide)) (word a (words.direction a ha))

theorem fields_quoted (event : Event) :
    (List.intercalate [','] (fields event)).head? = some '"' := rfl

theorem loads_toJson {event : Event} (words : ProtocolWords event)
    (uri : ∀ text ∈ event.securityPolicyUri, ∀ c ∈ text, isPlain c) :
    loads event.toJson = some (.object (members event)) :=
  loads_object (fun depth => (fields_read words uri).imp fun _ _ reads => reads depth)
    (by simp) (fields_quoted event)

theorem optional_names {α : Type} {member : α → List ℕ × Json} {name : List ℕ}
    (h : ∀ a, (member a).1 = name) (value : Option α) :
    (((value.map member).toList).map Prod.fst).Sublist [name] := by
  cases value with
  | none => exact List.nil_sublist _
  | some a =>
    rw [Option.map_some, Option.toList_some, List.map_singleton, h]

theorem members_distinct (event : Event) : ((members event).map Prod.fst).Nodup := by
  have names : ([codes "message_type".toList, codes "chunk_type".toList] ++
      [codes "secure_channel_id".toList] ++ [codes "security_policy_uri".toList] ++
      [codes "token_id".toList] ++ [codes "sequence_number".toList] ++
      [codes "request_id".toList] ++ [codes "service_id".toList] ++
      [codes "opcua_service".toList] ++ [codes "direction".toList]).Nodup := by decide
  refine names.sublist ?_
  simp only [members, List.map_append]
  repeat' apply List.Sublist.append
  · exact List.Sublist.refl _
  all_goals exact optional_names (by intro a; rfl) _

/-! ## The characters of a line -/

theorem toJson_char {event : Event} (words : ProtocolWords event) {c : Char}
    (h : c ∈ event.toJson) : isVisible c ∨ ∃ uri ∈ event.securityPolicyUri, c ∈ uri := by
  have word : ∀ text : List Char, (∀ c ∈ text, isWord c) → c ∈ text → isVisible c :=
    fun text h hc => ⟨(h c hc).1, (h c hc).2.1⟩
  have number : ∀ (name : String) (value : Option U32), (∀ c ∈ name.toList, isVisible c) →
      (∃ text ∈ optionalField (numberOf name) value, c ∈ text) → isVisible c := by
    rintro name value hn ⟨text, ht, hc⟩
    obtain ⟨a, -, rfl⟩ := Option.map_eq_some_iff.mp (Option.mem_toList.mp ht)
    exact numberField_char hn hc
  have optional : ∀ (name : String) (value : Option (List Char)), (∀ c ∈ name.toList, isVisible c) →
      (∃ text ∈ optionalField (textField name) value, c ∈ text) →
      isVisible c ∨ ∃ text ∈ value, c ∈ text := by
    rintro name value hn ⟨text, ht, hc⟩
    obtain ⟨a, ha, rfl⟩ := Option.map_eq_some_iff.mp (Option.mem_toList.mp ht)
    rcases textField_char hn hc with visible | inside
    · exact .inl visible
    · exact .inr ⟨a, ha, inside⟩
  rw [toJson_eq, joinFields, List.mem_cons, List.mem_append, List.mem_singleton] at h
  rcases h with rfl | h | rfl
  · exact .inl (by decide)
  · rcases mem_intercalate h with rfl | ⟨text, ht, hc⟩
    · exact .inl (by decide)
    · simp only [fields, List.mem_append, List.mem_cons, List.not_mem_nil, or_false] at ht
      rcases ht with ((((((((rfl | rfl) | h) | h) | h) | h) | h) | h) | h) | h
      · rcases textField_char (forall_of_all (by decide)) hc with visible | inside
        · exact .inl visible
        · exact .inl (word _ words.message_type inside)
      · rcases textField_char (forall_of_all (by decide)) hc with visible | inside
        · exact .inl visible
        · exact .inl (word _ words.chunk_type inside)
      · exact .inl (number _ _ (forall_of_all (by decide)) ⟨text, h, hc⟩)
      · exact optional _ _ (forall_of_all (by decide)) ⟨text, h, hc⟩
      · exact .inl (number _ _ (forall_of_all (by decide)) ⟨text, h, hc⟩)
      · exact .inl (number _ _ (forall_of_all (by decide)) ⟨text, h, hc⟩)
      · exact .inl (number _ _ (forall_of_all (by decide)) ⟨text, h, hc⟩)
      · exact .inl (number _ _ (forall_of_all (by decide)) ⟨text, h, hc⟩)
      · rcases optional _ _ (forall_of_all (by decide)) ⟨text, h, hc⟩ with visible | ⟨a, ha, inside⟩
        · exact .inl visible
        · exact .inl (word a (words.opcua_service a ha) inside)
      · rcases optional _ _ (forall_of_all (by decide)) ⟨text, h, hc⟩ with visible | ⟨a, ha, inside⟩
        · exact .inl visible
        · exact .inl (word a (words.direction a ha) inside)
  · exact .inl (by decide)

theorem mem_toJson_of_uri {event : Event} {uri : List Char}
    (hu : event.securityPolicyUri = some uri)
    {c : Char} (hc : c ∈ uri) : c ∈ event.toJson := by
  have field : textField "security_policy_uri" uri ∈ fields event := by
    simp [fields, optionalField, hu]
  rw [toJson_eq, joinFields]
  refine List.mem_cons_of_mem _ (List.mem_append_left _ (mem_intercalate_of_mem field ?_))
  simp [textField, hc]

/-! ## When the line is faithful -/

def afterUri (event : Event) : List (List Char) :=
  optionalField (numberOf "token_id") event.tokenId ++
  optionalField (numberOf "sequence_number") event.sequenceNumber ++
  optionalField (numberOf "request_id") event.requestId ++
  optionalField (numberOf "service_id") event.serviceId ++
  optionalField (textField "opcua_service") event.opcuaService ++
  optionalField (textField "direction") event.direction

theorem afterUri_quoted {frame : OpcUaFrame} {conversation : ConversationHeader}
    (hc : frame.conversation = some conversation) :
    ∃ next later, afterUri (event frame) = ('"' :: next) :: later := by
  obtain ⟨header, conversation', service⟩ := frame
  cases hc
  obtain ⟨channel, uri, token, sequence, request, body⟩ := conversation
  cases token with
  | none => exact ⟨_, _, rfl⟩
  | some token => exact ⟨_, _, rfl⟩

theorem plain_of_reads {frame : OpcUaFrame} {uri : List Char} (words : ProtocolWords (event frame))
    (hu : (event frame).securityPolicyUri = some uri)
    (reads : loads (event frame).toJson = some (.object (members (event frame)))) :
    ∀ c ∈ uri, isPlain c := by
  obtain ⟨conversation, hc, hu'⟩ := Option.bind_eq_some_iff.mp hu
  have word : ∀ text : List Char, (∀ c ∈ text, isWord c) → ∀ c ∈ text, isPlain c :=
    fun text h c hc => (h c hc).plain
  obtain ⟨next, later, after⟩ := afterUri_quoted hc
  have channel : (event frame).secureChannelId = some conversation.secureChannelId := by
    simp [event, hc]
  have split : fields (event frame) =
      [textField "message_type" (event frame).messageType,
        textField "chunk_type" (event frame).chunkType,
        numberOf "secure_channel_id" conversation.secureChannelId] ++
      textField "security_policy_uri" uri :: ('"' :: next) :: later := by
    rw [← after]
    simp [fields, afterUri, channel, hu, optionalField]
  rw [toJson_eq, joinFields, loads_brace _ (by rw [List.head?_append, fields_quoted]; rfl)] at reads
  obtain ⟨p, items, reads⟩ := Option.bind_eq_some_iff.mp reads
  have same : p.1 = members (event frame) := by
    split at reads
    · exact Json.object.inj (Option.some.inj reads)
    · cases reads
  rw [List.length_append, List.length_singleton, split] at items
  obtain ⟨a, rest, item, third⟩ := readItems_middle
    (.cons (fieldReads_text (forall_of_all (by decide)) (word _ words.message_type) _)
      (.cons (fieldReads_text (forall_of_all (by decide)) (word _ words.chunk_type) _)
        (.cons (fieldReads_number (forall_of_all (by decide)) _ _) .nil))) (by simp) items
  have value : a = textMember "security_policy_uri" uri := by
    rw [same] at third
    simpa [members, channel, hu] using third.symm
  obtain ⟨more, quoted⟩ : ∃ more,
      List.intercalate [','] (('"' :: next) :: later) ++ ['\x7d'] = '"' :: more := by
    cases later <;> exact ⟨_, rfl⟩
  have shape : textField "security_policy_uri" uri ++ ',' :: '"' :: more =
      '"' :: ("security_policy_uri".toList ++ '"' :: ':' :: '"' ::
        (uri ++ '"' :: ',' :: '"' :: more)) := by simp [textField]
  rw [quoted, shape, readMember_quote (forall_of_all (by decide)), readValue_quote] at item
  obtain ⟨q, literal, found⟩ := Option.map_eq_some_iff.mp item
  obtain ⟨r, text, rfl⟩ := Option.map_eq_some_iff.mp literal
  rw [value] at found
  simp only [textMember, Prod.mk.injEq, Json.string.injEq] at found
  have literally : r.1 = uri.map Char.toNat := found.1.2
  have again : readChars (uri ++ '"' :: ',' :: '"' :: more) = some (uri.map Char.toNat, r.2) := by
    rw [text, ← literally]
  exact plain_of_readChars again

theorem faithful_iff {frame : OpcUaFrame} (words : ProtocolWords (event frame)) :
    Faithful (event frame) (event frame).toJson ↔
      ∀ uri ∈ (event frame).securityPolicyUri, ∀ c ∈ uri, isPlain c := by
  constructor
  · intro faithful uri hu
    exact plain_of_reads words hu faithful.reads
  · intro plain
    refine ⟨fun c hc => ?_, loads_toJson words plain, members_distinct _⟩
    rcases toJson_char words hc with visible | ⟨uri, hu, inside⟩
    · exact visible.1
    · exact (plain uri hu c inside).2.2

theorem faithfulLine_iff {frame : OpcUaFrame} (words : ProtocolWords (event frame)) :
    FaithfulLine (event frame) (event frame).toJson ↔
      ∀ uri ∈ (event frame).securityPolicyUri,
        (∀ c ∈ uri, isPlain c) ∧ ∀ c ∈ uri, ¬ isLineBreak c := by
  constructor
  · intro faithful uri hu
    refine ⟨(faithful_iff words).mp faithful.toFaithful uri hu, fun c hc => ?_⟩
    exact (splitlines_newline_iff _).mp faithful.one_line c (mem_toJson_of_uri hu hc)
  · intro plain
    refine ⟨(faithful_iff words).mpr fun uri hu => (plain uri hu).1, ?_⟩
    refine (splitlines_newline_iff _).mpr fun c hc => ?_
    rcases toJson_char words hc with visible | ⟨uri, hu, inside⟩
    · exact visible.unbroken
    · exact (plain uri hu).2 c inside

/-- The line is faithful exactly when the URI needs no escape, and one line for
the consumer exactly when the URI also has none of the wider line breaks. -/
theorem toJson_faithful_iff {bytes : List U8} {frame : OpcUaFrame} {n : ℕ}
    (h : parseFrame bytes = .ok (frame, n)) :
    (Faithful (event frame) (event frame).toJson ↔
      ∀ octets ∈ policyUriOctets (bytes.take n), NeedsNoEscape octets) ∧
    (FaithfulLine (event frame) (event frame).toJson ↔
      ∀ octets ∈ policyUriOctets (bytes.take n), NeedsNoEscape octets ∧ HasNoBreak octets) := by
  have words := protocolWords h
  obtain ⟨-, -, -, rfl⟩ := parseFrame_eq_ok_iff.mp h
  rw [faithful_iff words, faithfulLine_iff words, securityPolicyUri_eq]
  cases policyUriOctets (bytes.take n) with
  | none => simp
  | some octets =>
    simp only [Option.map_some, Option.mem_def, Option.some.injEq, forall_eq']
    refine ⟨plain_fromUtf8Lossy_iff octets, ?_⟩
    rw [← plain_fromUtf8Lossy_iff octets]
    exact and_congr_right unbroken_fromUtf8Lossy_iff

def openMessage (uri : List U8) : List U8 :=
  ascii "OPNF" ++ [BitVec.ofNat 8 (32 + uri.length), 0, 0, 0] ++ [1, 0, 0, 0] ++
    [BitVec.ofNat 8 uri.length, 0, 0, 0] ++ uri ++ [0xFF, 0xFF, 0xFF, 0xFF] ++
    [0xFF, 0xFF, 0xFF, 0xFF] ++ [1, 0, 0, 0] ++ [1, 0, 0, 0]

theorem toJson_faithful_none :
    (Faithful (event (messageBody (openMessage (ascii "None"))))
        (event (messageBody (openMessage (ascii "None")))).toJson ↔
      ∀ octets ∈ policyUriOctets ((openMessage (ascii "None")).take 36), NeedsNoEscape octets) ∧
    (FaithfulLine (event (messageBody (openMessage (ascii "None"))))
        (event (messageBody (openMessage (ascii "None")))).toJson ↔
      ∀ octets ∈ policyUriOctets ((openMessage (ascii "None")).take 36),
        NeedsNoEscape octets ∧ HasNoBreak octets) :=
  toJson_faithful_iff (show parseFrame (openMessage (ascii "None")) =
    .ok (messageBody (openMessage (ascii "None")), 36) by decide +kernel)

/-- The URI `x","product":"plc` adds a member that the consumer merges over its own. -/
theorem toJson_injects_product :
    parseFrame (openMessage (ascii "x\",\"product\":\"plc")) =
      .ok (messageBody (openMessage (ascii "x\",\"product\":\"plc")), 49) ∧
    (loads (event (messageBody (openMessage
        (ascii "x\",\"product\":\"plc")))).toJson).map Json.names =
      some (["message_type", "chunk_type", "secure_channel_id", "security_policy_uri", "product",
        "sequence_number", "request_id"].map fun name => codes name.toList) ∧
    ¬ Faithful (event (messageBody (openMessage (ascii "x\",\"product\":\"plc"))))
      (event (messageBody (openMessage (ascii "x\",\"product\":\"plc")))).toJson := by
  have names : (loads (event (messageBody (openMessage
      (ascii "x\",\"product\":\"plc")))).toJson).map Json.names =
      some (["message_type", "chunk_type", "secure_channel_id", "security_policy_uri", "product",
        "sequence_number", "request_id"].map fun name => codes name.toList) := by decide +kernel
  refine ⟨by decide +kernel, names, fun faithful => ?_⟩
  rw [faithful.reads] at names
  exact absurd names (by decide +kernel)

end OtDetection.OpcuaJsonLine
