import OtDetection.Octets
import OtDetection.LengthFraming
import OtDetection.EventText

/-! S7comm over TPKT and COTP. The TPKT header determines the size of a frame;
the COTP header that follows may still be refused, and a data PDU carries an S7
header when its payload is classic S7comm. -/

namespace OtDetection.S7comm
open Octets LengthFraming EventText

/-! ## TPKT -/

def tpktVersion : U8 := 0x03#8
def tpktHeaderLen : ℕ := 4
def minLength : ℕ := 7

structure TpktHeader where
  length : U16
  deriving DecidableEq, Repr

inductive TpktError
  | incomplete (needed : ℕ)
  | badVersion (version : U8)
  | badLength (length : U16)
  deriving DecidableEq, Repr

/-- The TPKT header and the COTP payload. -/
def tpktParse (bytes : List U8) : Except TpktError (TpktHeader × List U8) :=
  if bytes.length < tpktHeaderLen then .error (.incomplete tpktHeaderLen)
  else if octet bytes 0 ≠ tpktVersion then .error (.badVersion (octet bytes 0))
  else
    let length := u16FromBe (octet bytes 2) (octet bytes 3)
    if length.toNat < minLength then .error (.badLength length)
    else
      let total := length.toNat
      if bytes.length < total then .error (.incomplete total)
      else .ok (⟨length⟩, slice bytes tpktHeaderLen total)

/-! ## COTP -/

def pduDt : U8 := 0xF0#8

structure CotpHeader where
  pduType : U8
  headerLen : ℕ
  deriving DecidableEq, Repr

def CotpHeader.isData (cotp : CotpHeader) : Bool := cotp.pduType == pduDt

def cotpParse (bytes : List U8) : Option CotpHeader :=
  match bytes.head? with
  | none => none
  | some first =>
    let indicator := first.toNat
    if indicator < 2 then none
    else
      let headerLen := 1 + indicator
      if bytes.length < headerLen then none
      else some ⟨octet bytes 1 &&& 0xF0#8, headerLen⟩

/-! ## S7 -/

def protocolId : U8 := 0x32#8
def headerLen : ℕ := 10

structure S7Header where
  rosctr : U8
  pduReference : U16
  parameterLength : U16
  dataLength : U16
  function : U8
  deriving DecidableEq, Repr

def functionName (function : U8) : String :=
  match function.toNat with
  | 0x00 => "CPU Services"
  | 0x04 => "Read Var"
  | 0x05 => "Write Var"
  | 0x1A => "Request Download"
  | 0x1B => "Download Block"
  | 0x1C => "Download Ended"
  | 0x1D => "Start Upload"
  | 0x1E => "Upload"
  | 0x1F => "End Upload"
  | 0x28 => "PLC Control"
  | 0x29 => "PLC Stop"
  | 0xF0 => "Setup Communication"
  | _ => "Unknown"

/-- The function code is the first octet of the parameter block, after the fixed header. -/
def s7Parse (bytes : List U8) : Option S7Header :=
  if bytes.length ≤ headerLen ∨ octet bytes 0 ≠ protocolId then none
  else some {
    rosctr := octet bytes 1
    pduReference := u16FromBe (octet bytes 4) (octet bytes 5)
    parameterLength := u16FromBe (octet bytes 6) (octet bytes 7)
    dataLength := u16FromBe (octet bytes 8) (octet bytes 9)
    function := octet bytes headerLen }

/-! ## The whole frame -/

inductive ParseError
  | tpkt (error : TpktError)
  | cotp
  deriving DecidableEq, Repr

def ParseError.needed : ParseError → Option ℕ
  | .tpkt (.incomplete needed) => some needed
  | _ => none

structure S7CommFrame where
  tpktLength : U16
  cotpType : U8
  s7 : Option S7Header
  deriving DecidableEq, Repr

def parseFrame (bytes : List U8) : Except ParseError (S7CommFrame × ℕ) :=
  match tpktParse bytes with
  | .error e => .error (.tpkt e)
  | .ok (tpkt, payload) =>
    match cotpParse payload with
    | none => .error .cotp
    | some cotp =>
      let s7 := if cotp.isData then s7Parse (payload.drop cotp.headerLen) else none
      .ok (⟨tpkt.length, cotp.pduType, s7⟩, tpkt.length.toNat)

structure Event where
  direction : Direction
  functionCode : U8
  functionName : String
  rosctr : U8
  pduReference : U16
  parameterLength : U16
  dataLength : U16
  cotpType : U8
  deriving DecidableEq, Repr

def event (frame : S7CommFrame) : Option Event :=
  match frame.s7 with
  | none => none
  | some s7 =>
    some {
      direction := if s7.rosctr = 0x02#8 ∨ s7.rosctr = 0x03#8 then .response else .request
      functionCode := s7.function
      functionName := functionName s7.function
      rosctr := s7.rosctr
      pduReference := s7.pduReference
      parameterLength := s7.parameterLength
      dataLength := s7.dataLength
      cotpType := frame.cotpType }

def Event.toJson (event : Event) : List Char :=
  joinFields
    [textField "direction" event.direction.asStr.toList,
      numberField "function_code" event.functionCode.toNat,
      textField "function_name" event.functionName.toList,
      numberField "rosctr" event.rosctr.toNat,
      numberField "pdu_reference" event.pduReference.toNat,
      numberField "parameter_length" event.parameterLength.toNat,
      numberField "data_length" event.dataLength.toNat,
      numberField "cotp_type" event.cotpType.toNat]

/-- Decode every complete frame in `bytes`, stopping at the first error. -/
def parseStream (bytes : List U8) : Option (List (Except ParseError S7CommFrame)) :=
  streamOf parseFrame bytes

/-! ## The checks, stage by stage -/

/-- The size the TPKT header announces, or what is wrong with it. -/
def tpktTotal (header : List U8) : Except ParseError ℕ :=
  if octet header 0 ≠ tpktVersion then .error (.tpkt (.badVersion (octet header 0)))
  else
    let length := u16FromBe (octet header 2) (octet header 3)
    if length.toNat < minLength then .error (.tpkt (.badLength length)) else .ok length.toNat

/-- The COTP and S7 headers, on exactly the octets of one frame. -/
def cotpBody (bytes : List U8) : Except ParseError S7CommFrame :=
  let payload := bytes.drop tpktHeaderLen
  match cotpParse payload with
  | none => .error .cotp
  | some cotp =>
    let s7 := if cotp.isData then s7Parse (payload.drop cotp.headerLen) else none
    .ok ⟨u16FromBe (octet bytes 2) (octet bytes 3), cotp.pduType, s7⟩

theorem tpktTotal_take (bytes : List U8) :
    tpktTotal (bytes.take tpktHeaderLen) = tpktTotal bytes := by
  simp only [tpktTotal, tpktHeaderLen, octet_take _ (show 0 < 4 by omega),
    octet_take _ (show 2 < 4 by omega), octet_take _ (show 3 < 4 by omega)]

theorem parseFrame_eq_framed (bytes : List U8) :
    parseFrame bytes = framed (fun needed => .tpkt (.incomplete needed)) tpktHeaderLen tpktTotal
      cotpBody bytes := by
  unfold parseFrame framed tpktParse
  by_cases short : bytes.length < tpktHeaderLen
  · rw [if_pos short, if_pos short]
  · rw [if_neg short, if_neg short, tpktTotal_take, tpktTotal]
    by_cases version : octet bytes 0 ≠ tpktVersion
    · rw [if_pos version, if_pos version]
    · rw [if_neg version, if_neg version]
      by_cases small : (u16FromBe (octet bytes 2) (octet bytes 3)).toNat < minLength
      · simp only [small, if_true]
      · by_cases shortBody : bytes.length < (u16FromBe (octet bytes 2) (octet bytes 3)).toNat
        · simp only [small, shortBody, if_true, if_false]
        · have least : 3 < (u16FromBe (octet bytes 2) (octet bytes 3)).toNat := by
            simp only [minLength] at small; omega
          simp only [small, shortBody, if_false, cotpBody]
          rw [octet_take _ (by omega), octet_take _ (by omega), List.drop_take, ← slice]
          cases cotpParse (slice bytes tpktHeaderLen _) <;> rfl

theorem shape : Shape ParseError.needed (fun needed => .tpkt (.incomplete needed)) tpktHeaderLen
    tpktTotal cotpBody where
  headerLen_pos := by decide
  needed_incomplete _ := rfl
  le_total := by
    intro header size h
    simp only [tpktTotal] at h
    split_ifs at h with version small
    cases h
    simp only [minLength] at small
    simp only [tpktHeaderLen]
    omega
  total_final := by
    intro header e h
    simp only [tpktTotal] at h
    split_ifs at h <;> cases h <;> rfl
  body_final := by
    intro bytes e h
    simp only [cotpBody] at h
    split at h <;> cases h
    rfl

theorem parseFrame_framed : parseFrame =
    framed (fun needed => .tpkt (.incomplete needed)) tpktHeaderLen tpktTotal cotpBody :=
  funext parseFrame_eq_framed

theorem incremental : Incremental ParseError.needed parseFrame := by
  rw [parseFrame_framed]
  exact framed_incremental shape

theorem progress : Progress parseFrame := by
  rw [parseFrame_framed]
  exact framed_progress shape

end OtDetection.S7comm
