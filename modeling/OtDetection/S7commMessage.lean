import OtDetection.Dnp3Builder
import OtDetection.S7comm

/-! S7comm messages in COTP data PDUs and TPKT. A job or a userdata PDU has a header of
ten octets, an acknowledgement one of twelve; the decoder takes every header for ten
octets and the lengths in it for what is there. -/

namespace OtDetection.S7commMessage
open Octets EventText S7comm
open Dnp3Builder (PyError pyBytes)

/-! ## Frames -/

def u16ToBe (w : U16) : List U8 := [w.extractLsb' 8 8, w.extractLsb' 0 8]

@[simp] theorem u16FromBe_extract (w : U16) :
    u16FromBe (w.extractLsb' 8 8) (w.extractLsb' 0 8) = w := u16FromLe_extract w

def frameOctets (s7 : List U8) : List U8 :=
  [0x03#8, 0x00#8] ++
    (u16ToBe (BitVec.ofNat 16 (7 + s7.length)) ++ ([0x02#8, 0xF0#8, 0x80#8] ++ s7))

theorem frameOctets_length (s7 : List U8) : (frameOctets s7).length = 7 + s7.length := by
  simp only [frameOctets, u16ToBe, List.length_append, List.length_cons, List.length_nil]
  omega

theorem parseFrame_frameOctets {s7 : List U8} (fits : 7 + s7.length ≤ 65535) (tail : List U8) :
    parseFrame (frameOctets s7 ++ tail) =
      .ok (⟨BitVec.ofNat 16 (7 + s7.length), pduDt, s7Parse s7⟩, 7 + s7.length) := by
  have word : (BitVec.ofNat 16 (7 + s7.length)).toNat = 7 + s7.length := by
    rw [BitVec.toNat_ofNat]
    omega
  have length : u16FromBe (octet (frameOctets s7 ++ tail) 2) (octet (frameOctets s7 ++ tail) 3) =
      BitVec.ofNat 16 (7 + s7.length) := u16FromBe_extract _
  have whole : (frameOctets s7 ++ tail).length = 7 + s7.length + tail.length := by
    rw [List.length_append, frameOctets_length]
  have payload : slice (frameOctets s7 ++ tail) tpktHeaderLen (7 + s7.length) =
      0x02#8 :: 0xF0#8 :: 0x80#8 :: s7 := by
    have rest : (frameOctets s7 ++ tail).drop tpktHeaderLen =
        (0x02#8 :: 0xF0#8 :: 0x80#8 :: s7) ++ tail := rfl
    rw [slice, rest, List.take_left']
    simp only [tpktHeaderLen, List.length_cons]
    omega
  have first : octet (frameOctets s7 ++ tail) 0 = tpktVersion := rfl
  have tpkt : tpktParse (frameOctets s7 ++ tail) =
      .ok (⟨BitVec.ofNat 16 (7 + s7.length)⟩, 0x02#8 :: 0xF0#8 :: 0x80#8 :: s7) := by
    rw [tpktParse, if_neg (by simp only [whole, tpktHeaderLen]; omega),
      if_neg (by rw [first]; exact fun h => h rfl)]
    simp only [length, word, payload]
    rw [if_neg (by simp only [minLength]; omega), if_neg (by omega)]
  have cotp : cotpParse (0x02#8 :: 0xF0#8 :: 0x80#8 :: s7) = some ⟨pduDt, 3⟩ := by
    simp [cotpParse, octet, pduDt]
  rw [parseFrame, tpkt]
  simp only [cotp, word]
  rfl

/-! ## Jobs -/

def toBytesBig (n : ℕ) : Except PyError (List U8) :=
  if n < 65536 then .ok [BitVec.ofNat 8 (n / 256), BitVec.ofNat 8 (n % 256)]
  else .error .overflowError

def s7commJob (function : ℕ) (extraParams data : List U8) : Except PyError (List U8) := do
  let code ← pyBytes [function]
  let params := code ++ extraParams
  let fixed ← pyBytes [0x32, 0x01, 0x00, 0x00, 0x00, 0x01]
  let paramsLength ← toBytesBig params.length
  let dataLength ← toBytesBig data.length
  let s7 := fixed ++ paramsLength ++ dataLength ++ params ++ data
  let cotp ← pyBytes [0x02, 0xF0, 0x80]
  let total := 4 + cotp.length + s7.length
  let version ← pyBytes [0x03, 0x00]
  let length ← toBytesBig total
  .ok (version ++ length ++ cotp ++ s7)

theorem toBytesBig_eq {n : ℕ} (h : n < 65536) :
    toBytesBig n = .ok (u16ToBe (BitVec.ofNat 16 n)) := by
  rw [toBytesBig, if_pos h, u16ToBe]
  congr 2
  · apply BitVec.eq_of_toNat_eq
    simp only [BitVec.toNat_ofNat, BitVec.extractLsb'_toNat, Nat.shiftRight_eq_div_pow]
    omega
  · congr 1
    apply BitVec.eq_of_toNat_eq
    simp only [BitVec.toNat_ofNat, BitVec.extractLsb'_toNat, Nat.shiftRight_eq_div_pow]
    omega

/-! ## PDUs -/

def Acknowledges (rosctr : U8) : Prop := rosctr = 0x02#8 ∨ rosctr = 0x03#8

instance (rosctr : U8) : Decidable (Acknowledges rosctr) := inferInstanceAs (Decidable (_ ∨ _))

/-- A PDU of classic S7comm with a parameter block. -/
structure Pdu where
  rosctr : U8
  redundancy : U16
  pduReference : U16
  errorClass : U8
  errorCode : U8
  function : U8
  parameters : List U8
  data : List U8
  is_classic : rosctr = 0x01#8 ∨ rosctr = 0x02#8 ∨ rosctr = 0x03#8 ∨ rosctr = 0x07#8

namespace Pdu

variable (pdu : Pdu)

def parameterLength : ℕ := pdu.parameters.length + 1

def body : List U8 :=
  (if Acknowledges pdu.rosctr then [pdu.errorClass, pdu.errorCode] else []) ++
    (pdu.function :: pdu.parameters ++ pdu.data)

def octets : List U8 :=
  [protocolId, pdu.rosctr] ++ (u16ToBe pdu.redundancy ++ (u16ToBe pdu.pduReference ++
    (u16ToBe (BitVec.ofNat 16 pdu.parameterLength) ++
      (u16ToBe (BitVec.ofNat 16 pdu.data.length) ++ pdu.body))))

theorem octets_length : pdu.octets.length =
    10 + (if Acknowledges pdu.rosctr then 2 else 0) + pdu.parameterLength + pdu.data.length := by
  have header : pdu.octets.length = 10 + pdu.body.length := by
    simp only [octets, u16ToBe, List.length_append, List.length_cons, List.length_nil]
    omega
  rw [header, body, parameterLength]
  split
  · simp only [List.length_append, List.length_cons, List.length_nil]
    omega
  · simp only [List.length_append, List.length_cons, List.length_nil]
    omega

theorem s7Parse_octets : s7Parse pdu.octets = some {
    rosctr := pdu.rosctr
    pduReference := pdu.pduReference
    parameterLength := BitVec.ofNat 16 pdu.parameterLength
    dataLength := BitVec.ofNat 16 pdu.data.length
    function := if Acknowledges pdu.rosctr then pdu.errorClass else pdu.function } := by
  have long : ¬ (pdu.octets.length ≤ headerLen ∨ octet pdu.octets 0 ≠ protocolId) := by
    have length := pdu.octets_length
    have some : 0 < pdu.parameterLength := Nat.succ_pos _
    rintro (short | other)
    · simp only [headerLen] at short
      omega
    · exact other rfl
  have function : octet pdu.octets headerLen =
      if Acknowledges pdu.rosctr then pdu.errorClass else pdu.function := by
    change octet pdu.body 0 = _
    rw [body]
    split <;> rfl
  rw [s7Parse, if_neg long, function]
  congr 2
  · exact u16FromBe_extract _
  · exact u16FromBe_extract _
  · exact u16FromBe_extract _

end Pdu

structure Reports (pdu : Pdu) (event : Event) : Prop where
  function : event.functionCode = pdu.function
  direction : event.direction = .response ↔ Acknowledges pdu.rosctr
  pduReference : event.pduReference = pdu.pduReference
  parameterLength : event.parameterLength.toNat = pdu.parameterLength
  dataLength : event.dataLength.toNat = pdu.data.length

theorem event_octets {pdu : Pdu} (fits : (frameOctets pdu.octets).length ≤ 65535) :
    ∃ frame e, (∀ tail, parseFrame (frameOctets pdu.octets ++ tail) =
        .ok (frame, (frameOctets pdu.octets).length)) ∧
      event frame = some e ∧ e.rosctr = pdu.rosctr ∧ e.cotpType = pduDt ∧
      e.functionCode = (if Acknowledges pdu.rosctr then pdu.errorClass else pdu.function) ∧
      (e.direction = .response ↔ Acknowledges pdu.rosctr) ∧ e.pduReference = pdu.pduReference ∧
      e.parameterLength.toNat = pdu.parameterLength ∧ e.dataLength.toNat = pdu.data.length := by
  rw [frameOctets_length] at fits ⊢
  have length := pdu.octets_length
  have parsed := parseFrame_frameOctets fits
  rw [pdu.s7Parse_octets] at parsed
  refine ⟨_, _, parsed, rfl, rfl, rfl, rfl, ?_, rfl, ?_, ?_⟩
  · change (if Acknowledges pdu.rosctr then Direction.response else .request) = .response ↔ _
    split
    · simp_all
    · simp_all
  · exact Nat.mod_eq_of_lt (by omega)
  · exact Nat.mod_eq_of_lt (by omega)

/-- Exactly when a PDU is reported as it is: the decoder takes the error class of an
acknowledgement for its function. -/
theorem event_reports_iff (pdu : Pdu) (fits : (frameOctets pdu.octets).length ≤ 65535)
    (tail : List U8) :
    (∃ frame n e, parseFrame (frameOctets pdu.octets ++ tail) = .ok (frame, n) ∧
      event frame = some e ∧ Reports pdu e) ↔
      (Acknowledges pdu.rosctr → pdu.errorClass = pdu.function) := by
  obtain ⟨frame, e, parsed, yields, -, -, function, direction, reference, parameter, data⟩ :=
    event_octets fits
  have reported : e.functionCode = pdu.function ↔
      (Acknowledges pdu.rosctr → pdu.errorClass = pdu.function) := by
    rw [function]
    split
    · simp_all
    · simp_all
  rw [← reported]
  constructor
  · rintro ⟨_, _, _, decoded, yields', reports⟩
    rw [parsed tail] at decoded
    obtain ⟨rfl, -⟩ := Prod.mk.inj (Except.ok.inj decoded)
    rw [yields] at yields'
    obtain rfl := Option.some.inj yields'
    exact reports.function
  · intro same
    exact ⟨frame, _, e, parsed tail, yields, same, direction, reference, parameter, data⟩

def readVar (rosctr : U8)
    (h : rosctr = 0x01#8 ∨ rosctr = 0x02#8 ∨ rosctr = 0x03#8 ∨ rosctr = 0x07#8) : Pdu :=
  ⟨rosctr, 0x0000, 0x026B, 0x00, 0x00, 0x04, [0x01], [], h⟩

theorem event_reports_request :
    ∃ frame n e, parseFrame (frameOctets (readVar 0x01 (.inl rfl)).octets ++ []) = .ok (frame, n) ∧
      event frame = some e ∧ Reports (readVar 0x01 (.inl rfl)) e :=
  (event_reports_iff _ (by decide) []).mpr fun acknowledges => absurd acknowledges (by decide)

theorem event_misreports_answer :
    ∃ frame n e, parseFrame (frameOctets (readVar 0x03 (.inr (.inr (.inl rfl)))).octets ++ []) =
        .ok (frame, n) ∧
      event frame = some e ∧ e.functionCode = 0x00 ∧ e.functionName = "CPU Services" ∧
      ¬ Reports (readVar 0x03 (.inr (.inr (.inl rfl)))) e := by
  refine ⟨_, _, _, rfl, rfl, rfl, rfl, fun reports => ?_⟩
  exact absurd reports.function (by decide)

/-! ## Jobs of the builder -/

def job (function : U8) (extraParams data : List U8) : Pdu :=
  ⟨0x01#8, 0x0000#16, 0x0001#16, 0x00#8, 0x00#8, function, extraParams, data, .inl rfl⟩

theorem s7commJob_eq (function : U8) (extraParams data : List U8)
    (fits : 18 + extraParams.length + data.length ≤ 65535) :
    s7commJob function.toNat extraParams data =
      .ok (frameOctets (job function extraParams data).octets) := by
  have code : pyBytes [function.toNat] = .ok [function] := by
    have small := function.isLt
    simp [pyBytes, small, bind, Except.bind]
  have fixed : pyBytes [0x32, 0x01, 0x00, 0x00, 0x00, 0x01] =
      .ok [0x32#8, 0x01#8, 0x00#8, 0x00#8, 0x00#8, 0x01#8] := rfl
  have cotp : pyBytes [0x02, 0xF0, 0x80] = .ok [0x02#8, 0xF0#8, 0x80#8] := rfl
  have version : pyBytes [0x03, 0x00] = .ok [0x03#8, 0x00#8] := rfl
  have length := (job function extraParams data).octets_length
  have parameterLength : (job function extraParams data).parameterLength =
      extraParams.length + 1 := rfl
  have request : ¬ Acknowledges (job function extraParams data).rosctr := by
    change ¬ Acknowledges 0x01#8
    decide
  rw [parameterLength, if_neg request] at length
  change _ = 10 + 0 + (extraParams.length + 1) + data.length at length
  have s7 : ([0x32#8, 0x01#8, 0x00#8, 0x00#8, 0x00#8, 0x01#8] ++
      u16ToBe (BitVec.ofNat 16 ([function] ++ extraParams).length) ++
      u16ToBe (BitVec.ofNat 16 data.length) ++ ([function] ++ extraParams) ++ data) =
        (job function extraParams data).octets := by
    have redundancy : u16ToBe (job function extraParams data).redundancy = [0x00#8, 0x00#8] := by
      change u16ToBe 0x0000#16 = _
      decide
    have reference : u16ToBe (job function extraParams data).pduReference = [0x00#8, 0x01#8] := by
      change u16ToBe 0x0001#16 = _
      decide
    simp only [List.append_assoc]
    rw [Pdu.octets, Pdu.body, if_neg request, List.nil_append, parameterLength, redundancy,
      reference, List.length_append, Nat.add_comm _ extraParams.length]
    rfl
  simp only [s7commJob, code, fixed, cotp, version, bind, Except.bind]
  rw [toBytesBig_eq (by simp only [List.length_append, List.length_cons, List.length_nil]; omega),
    toBytesBig_eq (by omega)]
  simp only [s7]
  rw [toBytesBig_eq (by simp only [List.length_cons, List.length_nil]; omega)]
  simp only [frameOctets, List.append_assoc]
  rfl

/-- The decoder undoes the builder, whatever follows the job. -/
theorem parseFrame_s7commJob (function : U8) (extraParams data : List U8)
    (fits : 18 + extraParams.length + data.length ≤ 65535) :
    ∃ encoded frame e, s7commJob function.toNat extraParams data = .ok encoded ∧
      (∀ tail, parseFrame (encoded ++ tail) =
        .ok (frame, 18 + extraParams.length + data.length)) ∧
      event frame = some e ∧ e.direction = .request ∧ e.functionCode = function ∧
      e.rosctr = 0x01#8 ∧ e.pduReference = 0x0001#16 ∧
      e.parameterLength.toNat = 1 + extraParams.length ∧ e.dataLength.toNat = data.length ∧
      e.cotpType = 0xF0#8 := by
  have request : ¬ Acknowledges (job function extraParams data).rosctr := by
    change ¬ Acknowledges 0x01#8
    decide
  have length : (frameOctets (job function extraParams data).octets).length =
      18 + extraParams.length + data.length := by
    rw [frameOctets_length, Pdu.octets_length, if_neg request, Pdu.parameterLength]
    change 7 + (10 + 0 + (extraParams.length + 1) + data.length) = _
    omega
  obtain ⟨frame, e, parsed, yields, rosctr, cotp, code, direction, reference, parameter, block⟩ :=
    @event_octets (job function extraParams data) (by omega)
  rw [if_neg request] at code
  rw [length] at parsed
  refine ⟨_, frame, e, s7commJob_eq function extraParams data fits, parsed, yields, ?_, code,
    rosctr, reference, ?_, block, cotp⟩
  · cases sent : e.direction with
    | request => rfl
    | response => exact absurd (direction.mp sent) request
  · rw [parameter, Pdu.parameterLength, Nat.add_comm]
    rfl

theorem parseFrame_s7commJob_write :
    ∃ encoded frame e, s7commJob 0x05 [0x01] [0x00, 0x04, 0x00, 0x01] = .ok encoded ∧
      (∀ tail, parseFrame (encoded ++ tail) = .ok (frame, 23)) ∧
      event frame = some e ∧ e.direction = .request ∧ e.functionCode = 0x05 ∧
      e.rosctr = 0x01 ∧ e.pduReference = 0x0001 ∧
      e.parameterLength.toNat = 2 ∧ e.dataLength.toNat = 4 ∧ e.cotpType = 0xF0 :=
  parseFrame_s7commJob 0x05 [0x01] [0x00, 0x04, 0x00, 0x01] (by decide)

/-! ## Parts of a PDU -/

def s7Payload (bytes : List U8) : List U8 :=
  slice bytes (5 + (octet bytes 4).toNat) (u16FromBe (octet bytes 2) (octet bytes 3)).toNat

/-- A whole TPKT frame with a COTP data PDU, and in it a header of classic S7comm with
something behind it. -/
structure CarriesS7 (bytes : List U8) : Prop where
  whole : 4 ≤ bytes.length ∧
    (u16FromBe (octet bytes 2) (octet bytes 3)).toNat ≤ bytes.length
  version : octet bytes 0 = tpktVersion
  least : minLength ≤ (u16FromBe (octet bytes 2) (octet bytes 3)).toNat
  indicator : 2 ≤ (octet bytes 4).toNat ∧
    5 + (octet bytes 4).toNat ≤ (u16FromBe (octet bytes 2) (octet bytes 3)).toNat
  data : octet bytes 5 &&& 0xF0#8 = pduDt
  classic : 10 < (s7Payload bytes).length ∧ octet (s7Payload bytes) 0 = protocolId

def declaredParameters (payload : List U8) : ℕ :=
  (u16FromBe (octet payload 6) (octet payload 7)).toNat

def declaredData (payload : List U8) : ℕ := (u16FromBe (octet payload 8) (octet payload 9)).toNat

/-- The header declares a parameter block and no more than there is. -/
structure Consistent (payload : List U8) : Prop where
  parameters : 0 < declaredParameters payload
  fits : 10 + declaredParameters payload + declaredData payload ≤ payload.length

/-- The event is about blocks that are there. -/
structure Present (payload : List U8) (event : Event) : Prop where
  nonempty : 1 ≤ event.parameterLength.toNat
  fits : 10 + event.parameterLength.toNat + event.dataLength.toNat ≤ payload.length
  function : ((payload.drop 10).take event.parameterLength.toNat).head? = some event.functionCode

theorem drop_slice {α : Type*} (items : List α) (first last n : ℕ) :
    (slice items first last).drop n = slice items (first + n) last := by
  rw [slice, slice, List.drop_take, List.drop_drop, Nat.sub_sub]

theorem octet_slice (bytes : List U8) {first last i : ℕ} (h : i < last - first) :
    octet (slice bytes first last) i = octet bytes (first + i) := by
  rw [slice, octet_take _ h, octet_drop]

theorem cotpParse_slice {bytes : List U8} {last : ℕ} (least : minLength ≤ last)
    (whole : last ≤ bytes.length) :
    cotpParse (slice bytes tpktHeaderLen last) =
      if (octet bytes 4).toNat < 2 ∨ last < 5 + (octet bytes 4).toNat then none
      else some ⟨octet bytes 5 &&& 0xF0#8, 1 + (octet bytes 4).toNat⟩ := by
  simp only [minLength] at least
  have length : (slice bytes tpktHeaderLen last).length = last - tpktHeaderLen :=
    slice_length bytes whole
  simp only [tpktHeaderLen] at length ⊢
  have first : (slice bytes 4 last).head? = some (octet bytes 4) := by
    rw [List.head?_eq_getElem?, getElem?_eq_octet (by omega), octet_slice _ (by omega)]
  simp only [cotpParse, first, length, octet_slice bytes (show 1 < last - 4 by omega)]
  by_cases small : (octet bytes 4).toNat < 2
  · rw [if_pos small, if_pos (.inl small)]
  · by_cases cut : last < 5 + (octet bytes 4).toNat
    · rw [if_neg small, if_pos (by omega), if_pos (.inr cut)]
    · rw [if_neg small, if_neg (by omega), if_neg (by omega)]

theorem drop_payload (bytes : List U8) :
    (slice bytes tpktHeaderLen (u16FromBe (octet bytes 2) (octet bytes 3)).toNat).drop
      (1 + (octet bytes 4).toNat) = s7Payload bytes := by
  rw [drop_slice, s7Payload, ← Nat.add_assoc]
  rfl

theorem parseFrame_carries {bytes : List U8} (carries : CarriesS7 bytes) :
    parseFrame bytes = .ok (⟨u16FromBe (octet bytes 2) (octet bytes 3), pduDt,
      s7Parse (s7Payload bytes)⟩, (u16FromBe (octet bytes 2) (octet bytes 3)).toNat) := by
  obtain ⟨⟨header, whole⟩, version, least, ⟨two, inside⟩, data, -⟩ := carries
  have tpkt : tpktParse bytes = .ok (⟨u16FromBe (octet bytes 2) (octet bytes 3)⟩,
      slice bytes tpktHeaderLen (u16FromBe (octet bytes 2) (octet bytes 3)).toNat) := by
    rw [tpktParse, if_neg (by simp only [tpktHeaderLen]; omega), if_neg (not_not.mpr version)]
    simp only []
    rw [if_neg (by omega), if_neg (by omega)]
  have cotp := cotpParse_slice least whole
  rw [if_neg (by omega), data] at cotp
  rw [parseFrame, tpkt]
  simp only [cotp, CotpHeader.isData, beq_self_eq_true, if_true, drop_payload]

theorem carries_of_event {bytes : List U8} {frame : S7CommFrame} {n : ℕ} {e : Event}
    (parsed : parseFrame bytes = .ok (frame, n)) (yields : event frame = some e) :
    CarriesS7 bytes := by
  simp only [parseFrame, tpktParse] at parsed
  split_ifs at parsed with short version least cut
  rw [not_not] at version
  rw [Nat.not_lt] at least cut
  simp only [cotpParse_slice least cut] at parsed
  split_ifs at parsed with refused
  simp only [drop_payload, CotpHeader.isData, beq_iff_eq] at parsed
  obtain ⟨rfl, -⟩ := Prod.mk.inj (Except.ok.inj parsed)
  have data : octet bytes 5 &&& 0xF0#8 = pduDt := by
    by_contra other
    simp only [event, if_neg other] at yields
    cases yields
  have classic : ¬ ((s7Payload bytes).length ≤ headerLen ∨
      octet (s7Payload bytes) 0 ≠ protocolId) := by
    intro none
    simp only [event, if_pos data, s7Parse, if_pos none] at yields
    cases yields
  simp only [tpktHeaderLen] at short
  simp only [headerLen] at classic
  exact ⟨⟨by omega, cut⟩, version, least, by omega, data, by omega,
    by_contra fun other => classic (.inr other)⟩

theorem event_payload {bytes : List U8} (carries : CarriesS7 bytes) (length : U16) :
    ∃ e, event ⟨length, pduDt, s7Parse (s7Payload bytes)⟩ = some e ∧
      e.parameterLength.toNat = declaredParameters (s7Payload bytes) ∧
      e.dataLength.toNat = declaredData (s7Payload bytes) ∧
      e.functionCode = octet (s7Payload bytes) 10 := by
  have classic : ¬ ((s7Payload bytes).length ≤ headerLen ∨
      octet (s7Payload bytes) 0 ≠ protocolId) := by
    have long := carries.classic.1
    rintro (short | other)
    · simp only [headerLen] at short
      omega
    · exact other carries.classic.2
  rw [s7Parse, if_neg classic]
  exact ⟨_, rfl, rfl, rfl, rfl⟩

/-- Exactly when every event of a frame is about blocks that are there: the decoder does
not compare the declared lengths with what it has. -/
theorem event_present_iff (bytes : List U8) :
    (∀ frame n e, parseFrame bytes = .ok (frame, n) → event frame = some e →
      Present (s7Payload bytes) e) ↔
      (CarriesS7 bytes → Consistent (s7Payload bytes)) := by
  constructor
  · intro present carries
    obtain ⟨e, yields, parameters, data, -⟩ := event_payload carries _
    obtain ⟨nonempty, fits, -⟩ := present _ _ e (parseFrame_carries carries) yields
    rw [parameters] at nonempty
    rw [parameters, data] at fits
    exact ⟨nonempty, fits⟩
  · intro consistent frame n e parsed yields
    have carries := carries_of_event parsed yields
    obtain ⟨nonempty, fits⟩ := consistent carries
    rw [parseFrame_carries carries] at parsed
    obtain ⟨rfl, -⟩ := Prod.mk.inj (Except.ok.inj parsed)
    obtain ⟨_, yields', parameters, data, function⟩ := event_payload carries _
    rw [yields] at yields'
    obtain rfl := Option.some.inj yields'
    refine ⟨by rwa [parameters], by rwa [parameters, data], ?_⟩
    rw [parameters, function, List.head?_take, if_neg (by omega), List.head?_drop,
      getElem?_eq_octet carries.classic.1]

theorem event_of_data :
    ∃ frame n e, parseFrame [0x03, 0x00, 0x00, 0x13, 0x02, 0xF0, 0x80,
        0x32, 0x01, 0x00, 0x00, 0x00, 0x01, 0x00, 0x00, 0x00, 0x02, 0x29, 0x00] = .ok (frame, n) ∧
      event frame = some e ∧ e.functionName = "PLC Stop" ∧ e.parameterLength.toNat = 0 ∧
      ¬ Present (s7Payload [0x03, 0x00, 0x00, 0x13, 0x02, 0xF0, 0x80,
        0x32, 0x01, 0x00, 0x00, 0x00, 0x01, 0x00, 0x00, 0x00, 0x02, 0x29, 0x00]) e := by
  refine ⟨_, _, _, rfl, rfl, rfl, rfl, fun present => ?_⟩
  exact absurd present.nonempty (by decide)

end OtDetection.S7commMessage
