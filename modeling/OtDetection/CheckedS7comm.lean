import OtDetection.CheckedRust
import OtDetection.S7comm

/-! The S7comm decoder with its panics. The TPKT length bounds the payload, and the
COTP length indicator is compared with the payload before the S7 header is cut
off behind it. -/

namespace OtDetection.CheckedS7comm
open Octets CheckedRust S7comm EventText

def tpktParse (bytes : List U8) : Checked (Except TpktError (TpktHeader × List U8)) := do
  if bytes.length < tpktHeaderLen then pure (.error (.incomplete tpktHeaderLen))
  else
    let version ← index bytes 0
    if version ≠ tpktVersion then pure (.error (.badVersion version))
    else
      let high ← index bytes 2
      let low ← index bytes 3
      let length := u16FromBe high low
      if length.toNat < minLength then pure (.error (.badLength length))
      else
        let total := length.toNat
        if bytes.length < total then pure (.error (.incomplete total))
        else
          let payload ← sliceRange bytes tpktHeaderLen total
          pure (.ok (⟨length⟩, payload))

def cotpParse (maxUsize : ℕ) (bytes : List U8) : Checked (Option CotpHeader) := do
  match bytes.head? with
  | none => pure none
  | some first =>
    let indicator := first.toNat
    if indicator < 2 then pure none
    else
      let headerLen ← add maxUsize 1 indicator
      if bytes.length < headerLen then pure none
      else
        let second ← index bytes 1
        pure (some ⟨second &&& 0xF0#8, headerLen⟩)

def s7Parse (bytes : List U8) : Checked (Option S7Header) := do
  if bytes.length ≤ headerLen then pure none
  else
    let protocol ← index bytes 0
    if protocol ≠ protocolId then pure none
    else
      let rosctr ← index bytes 1
      let referenceHigh ← index bytes 4
      let referenceLow ← index bytes 5
      let parameterHigh ← index bytes 6
      let parameterLow ← index bytes 7
      let dataHigh ← index bytes 8
      let dataLow ← index bytes 9
      let function ← index bytes headerLen
      pure (some {
        rosctr := rosctr
        pduReference := u16FromBe referenceHigh referenceLow
        parameterLength := u16FromBe parameterHigh parameterLow
        dataLength := u16FromBe dataHigh dataLow
        function := function })

def parseFrame (maxUsize : ℕ) (bytes : List U8) :
    Checked (Except ParseError (S7CommFrame × ℕ)) := do
  match ← tpktParse bytes with
  | .error e => pure (.error (.tpkt e))
  | .ok (tpkt, payload) =>
    match ← cotpParse maxUsize payload with
    | none => pure (.error .cotp)
    | some cotp =>
      if cotp.isData then
        let rest ← sliceFrom payload cotp.headerLen
        let s7 ← s7Parse rest
        pure (.ok (⟨tpkt.length, cotp.pduType, s7⟩, tpkt.length.toNat))
      else pure (.ok (⟨tpkt.length, cotp.pduType, none⟩, tpkt.length.toNat))

theorem tpktParse_eq (bytes : List U8) : tpktParse bytes = .ok (S7comm.tpktParse bytes) := by
  unfold tpktParse S7comm.tpktParse
  by_cases short : bytes.length < tpktHeaderLen
  · rw [if_pos short, if_pos short]
    rfl
  · have octets : ∀ i, i < tpktHeaderLen → index bytes i = .ok (octet bytes i) :=
      fun i hi => index_eq (by omega)
    simp only [if_neg short, octets 0 (by decide), octets 2 (by decide), octets 3 (by decide),
      ok_bind, pure_eq_ok]
    split
    · rfl
    · by_cases small : (u16FromBe (octet bytes 2) (octet bytes 3)).toNat < minLength
      · simp only [small, if_true]
      · by_cases shortBody : bytes.length < (u16FromBe (octet bytes 2) (octet bytes 3)).toNat
        · simp only [small, shortBody, if_true, if_false]
        · have order : tpktHeaderLen ≤ (u16FromBe (octet bytes 2) (octet bytes 3)).toNat := by
            simp only [minLength] at small
            simp only [tpktHeaderLen]
            omega
          simp only [small, shortBody, if_false, sliceRange_eq order (Nat.not_lt.mp shortBody),
            ok_bind]

theorem cotpParse_eq {maxUsize : ℕ} (word : 2 ^ 32 ≤ maxUsize + 1) (bytes : List U8) :
    cotpParse maxUsize bytes = .ok (S7comm.cotpParse bytes) := by
  unfold cotpParse S7comm.cotpParse
  cases bytes.head? with
  | none => rfl
  | some first =>
    have bound := first.isLt
    by_cases small : first.toNat < 2
    · simp only [small, if_true, pure_eq_ok]
    · simp only [small, if_false, add_eq (show 1 + first.toNat ≤ maxUsize by omega), ok_bind]
      by_cases short : bytes.length < 1 + first.toNat
      · simp only [short, if_true, pure_eq_ok]
      · simp only [short, if_false, index_eq (show 1 < bytes.length by omega), ok_bind, pure_eq_ok]

theorem s7Parse_eq (bytes : List U8) : s7Parse bytes = .ok (S7comm.s7Parse bytes) := by
  unfold s7Parse S7comm.s7Parse
  by_cases short : bytes.length ≤ headerLen
  · rw [if_pos short, if_pos (.inl short)]
    rfl
  · have octets : ∀ i, i ≤ headerLen → index bytes i = .ok (octet bytes i) :=
      fun i hi => index_eq (by omega)
    simp only [octets 0 (by decide), octets 1 (by decide), octets 4 (by decide),
      octets 5 (by decide), octets 6 (by decide), octets 7 (by decide), octets 8 (by decide),
      octets 9 (by decide), octets headerLen (Nat.le_refl _), ok_bind, pure_eq_ok, short, false_or,
      if_false]
    split <;> rfl

theorem cotpParse_headerLen_le {bytes : List U8} {cotp : CotpHeader}
    (h : S7comm.cotpParse bytes = some cotp) : cotp.headerLen ≤ bytes.length := by
  unfold S7comm.cotpParse at h
  split at h
  · cases h
  · simp only at h
    split at h
    · cases h
    · split at h
      · cases h
      · rename_i fits
        cases h
        exact Nat.not_lt.mp fits

theorem parseFrame_eq {maxUsize : ℕ} (word : 2 ^ 32 ≤ maxUsize + 1) (bytes : List U8) :
    parseFrame maxUsize bytes = .ok (S7comm.parseFrame bytes) := by
  unfold parseFrame S7comm.parseFrame
  rw [tpktParse_eq, ok_bind]
  cases S7comm.tpktParse bytes with
  | error e => rfl
  | ok p =>
    obtain ⟨tpkt, payload⟩ := p
    simp only [cotpParse_eq word, ok_bind]
    cases header : S7comm.cotpParse payload with
    | none => rfl
    | some cotp =>
      simp only [sliceFrom_eq (cotpParse_headerLen_le header), ok_bind, s7Parse_eq, pure_eq_ok]
      split <;> rfl

/-- `parse_stream`, then `event` and `to_json` on every decoded frame. -/
def inspect (maxUsize : ℕ) (bytes : List U8) :
    Checked (List (Except ParseError (Option Event × Option (List Char)))) := do
  let frames ← streamOf maxUsize (parseFrame maxUsize) bytes
  pure (frames.map (Except.map fun frame => (event frame, (event frame).map Event.toJson)))

theorem inspect_eq {maxUsize : ℕ} (word : 2 ^ 32 ≤ maxUsize + 1) {bytes : List U8}
    (fits : bytes.length ≤ maxUsize) :
    ∃ frames, parseStream bytes = some frames ∧ inspect maxUsize bytes =
      .ok (frames.map (Except.map fun frame => (event frame, (event frame).map Event.toJson))) := by
  obtain ⟨frames, checked, plain⟩ := streamOf_eq S7comm.progress fits
    (fun bytes _ => parseFrame_eq word bytes)
  exact ⟨frames, plain, by rw [inspect, checked]; rfl⟩

end OtDetection.CheckedS7comm
