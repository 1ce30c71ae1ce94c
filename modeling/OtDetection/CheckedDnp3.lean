import OtDetection.CheckedRust
import OtDetection.Dnp3Application

/-! The DNP3 decoder with its panics, function by function. Each one succeeds and
returns what the plain definition returns. -/

namespace OtDetection.CheckedDnp3
open Octets CheckedRust Dnp3Link Dnp3Application EventText

/-! ## CRC -/

def crcShift (crc : U16) : Checked U16 := do
  if crc &&& 1#16 ≠ 0#16 then
    let half ← shiftRight crc 1
    pure (half ^^^ Dnp3Crc.polynomialReflected)
  else shiftRight crc 1

def crcByte (crc : U16) (byte : U8) : Checked U16 :=
  (List.range 8).foldlM (fun crc _ => crcShift crc) (crc ^^^ byte.setWidth 16)

def crc16 (data : List U8) : Checked U16 := do
  let crc ← data.foldlM crcByte 0#16
  pure (~~~crc)

theorem crcShift_eq (crc : U16) : crcShift crc = .ok (Dnp3Crc.crcShift crc) := by
  unfold crcShift Dnp3Crc.crcShift
  rw [shiftRight_eq (by decide)]
  split <;> rfl

theorem crc16_eq (data : List U8) : crc16 data = .ok (Dnp3Crc.crc16 data) := by
  have byte : ∀ crc byte, crcByte crc byte = .ok (Dnp3Crc.crcByte crc byte) :=
    fun crc byte => foldlM_ok (fun crc _ => crcShift_eq crc) _ _
  rw [crc16, foldlM_ok byte]
  rfl

/-! ## Link layer -/

def dataLoop (maxUsize : ℕ) (bytes : List U8) :
    (fuel offset remaining block : ℕ) → List U8 → Checked (Except LinkError (List U8))
  | 0, _, _, _, _ => .error .diverged
  | fuel + 1, offset, remaining, block, userData =>
    if remaining > 0 then do
      let blockLen := min remaining maxBlock
      let last ← add maxUsize offset blockLen
      let data ← sliceRange bytes offset last
      let low ← index bytes last
      let next ← add maxUsize last 1
      let high ← index bytes next
      let crc ← crc16 data
      if crc ≠ u16FromLe low high then pure (.error (.dataCrc block))
      else
        let step ← add maxUsize blockLen 2
        let offset ← add maxUsize offset step
        let remaining ← sub remaining blockLen
        let block ← add maxUsize block 1
        dataLoop maxUsize bytes fuel offset remaining block (userData ++ data)
    else pure (.ok userData)

def parseFrame (maxUsize : ℕ) (bytes : List U8) : Checked (Except LinkError (LinkFrame × ℕ)) := do
  if bytes.length < headerLen + 2 then pure (.error (.incomplete (headerLen + 2)))
  else
    let first ← index bytes 0
    let second ← index bytes 1
    if first ≠ octet start 0 ∨ second ≠ octet start 1 then pure (.error .badStart)
    else
      let lengthOctet ← index bytes 2
      let length := lengthOctet.toNat
      if length < minLength then pure (.error (.badLength lengthOctet))
      else
        let userDataLen ← sub length minLength
        let blocks ← checkedDivCeil maxUsize userDataLen maxBlock
        let header ← add maxUsize headerLen 2
        let withData ← add maxUsize header userDataLen
        let crcs ← mul maxUsize blocks 2
        let total ← add maxUsize withData crcs
        if bytes.length < total then pure (.error (.incomplete total))
        else
          let crcLow ← index bytes 8
          let crcHigh ← index bytes 9
          let fixed ← sliceRange bytes 0 headerLen
          let crc ← crc16 fixed
          if crc ≠ u16FromLe crcLow crcHigh then pure (.error .headerCrc)
          else
            match ← dataLoop maxUsize bytes (userDataLen + 1) header userDataLen 0 [] with
            | .error e => pure (.error e)
            | .ok userData =>
              let control ← index bytes 3
              let destinationLow ← index bytes 4
              let destinationHigh ← index bytes 5
              let sourceLow ← index bytes 6
              let sourceHigh ← index bytes 7
              pure (.ok ({ control := Control.fromOctet control
                           destination := u16FromLe destinationLow destinationHigh
                           source := u16FromLe sourceLow sourceHigh
                           userData := userData }, total))

theorem dataLoop_eq {maxUsize : ℕ} {bytes : List U8} (fits : bytes.length ≤ maxUsize)
    {fuel offset remaining block : ℕ} (userData : List U8) (enough : remaining < fuel)
    (inside : offset + blocksLen remaining ≤ bytes.length) (few : block + remaining ≤ maxUsize) :
    dataLoop maxUsize bytes fuel offset remaining block userData =
      .ok (Dnp3Link.dataLoop bytes offset remaining block userData) := by
  induction fuel generalizing offset remaining block userData with
  | zero => omega
  | succ fuel ih =>
    rw [dataLoop, Dnp3Link.dataLoop]
    by_cases pos : remaining > 0
    · have step := blocksLen_step pos
      have least : 0 < min remaining maxBlock := by simp only [maxBlock]; omega
      rw [if_pos pos, if_pos pos]
      simp only [add_eq (show offset + min remaining maxBlock ≤ maxUsize by omega), ok_bind,
        sliceRange_eq (show offset ≤ offset + min remaining maxBlock by omega)
          (show offset + min remaining maxBlock ≤ bytes.length by omega),
        index_eq (show offset + min remaining maxBlock < bytes.length by omega),
        add_eq (show offset + min remaining maxBlock + 1 ≤ maxUsize by omega),
        index_eq (show offset + min remaining maxBlock + 1 < bytes.length by omega), crc16_eq,
        add_eq (show min remaining maxBlock + 2 ≤ maxUsize by omega),
        add_eq (show offset + (min remaining maxBlock + 2) ≤ maxUsize by omega),
        sub_eq (show min remaining maxBlock ≤ remaining by omega),
        add_eq (show block + 1 ≤ maxUsize by omega), pure_eq_ok]
      rw [ih _ (by omega) (by omega) (by omega)]
      split <;> rfl
    · rw [if_neg pos, if_neg pos]
      rfl

/-- Nothing in the link layer panics: every index is below the header length or the
total, and the total is at most 292 octets. -/
theorem parseFrame_eq {maxUsize : ℕ} (word : 2 ^ 32 ≤ maxUsize + 1) {bytes : List U8}
    (fits : bytes.length ≤ maxUsize) :
    parseFrame maxUsize bytes = .ok (Dnp3Link.parseFrame bytes) := by
  unfold parseFrame Dnp3Link.parseFrame
  by_cases short : bytes.length < headerLen + 2
  · rw [if_pos short, if_pos short]
    rfl
  · have octets : ∀ i, i < headerLen + 2 → index bytes i = .ok (octet bytes i) :=
      fun i hi => index_eq (by omega)
    rw [if_neg short, if_neg short, octets 0 (by decide), octets 1 (by decide), ok_bind, ok_bind]
    by_cases bad : octet bytes 0 ≠ octet start 0 ∨ octet bytes 1 ≠ octet start 1
    · rw [if_pos bad, if_pos bad]
      rfl
    · rw [if_neg bad, if_neg bad, octets 2 (by decide), ok_bind]
      by_cases small : (octet bytes 2).toNat < minLength
      · simp only [small, if_true, pure_eq_ok]
      · have bound := (octet bytes 2).isLt
        generalize hn : (octet bytes 2).toNat - minLength = n at *
        have most : n ≤ 250 := by simp only [minLength] at *; omega
        have ceil : checkedDivCeil maxUsize n maxBlock = .ok (Dnp3Link.divCeil n maxBlock) := by
          unfold checkedDivCeil Dnp3Link.divCeil
          rw [if_neg (by decide), add_eq (by simp only [maxBlock]; omega)]
          split <;> rfl
        have blocks : Dnp3Link.divCeil n maxBlock ≤ 16 := by
          rw [divCeil_maxBlock]; omega
        have eight : headerLen = 8 := rfl
        simp only [small, if_false, sub_eq (Nat.not_lt.mp small), hn, ok_bind, ceil,
          add_eq (show headerLen + 2 ≤ maxUsize by omega),
          add_eq (show headerLen + 2 + n ≤ maxUsize by omega),
          mul_eq (show Dnp3Link.divCeil n maxBlock * 2 ≤ maxUsize by omega),
          add_eq (show headerLen + 2 + n + Dnp3Link.divCeil n maxBlock * 2 ≤ maxUsize by omega)]
        by_cases shortBody : bytes.length < headerLen + 2 + n + Dnp3Link.divCeil n maxBlock * 2
        · rw [if_pos shortBody, if_pos shortBody]
          rfl
        · rw [if_neg shortBody, if_neg shortBody]
          have loop : dataLoop maxUsize bytes (n + 1) (headerLen + 2) n 0 [] =
              .ok (Dnp3Link.dataLoop bytes (headerLen + 2) n 0 []) :=
            dataLoop_eq fits [] (by omega) (by simp only [blocksLen]; omega) (by omega)
          simp only [octets 8 (by decide), octets 9 (by decide), ok_bind,
            sliceRange_eq (Nat.zero_le headerLen) (show headerLen ≤ bytes.length by omega),
            crc16_eq, loop, octets 3 (by decide), octets 4 (by decide), octets 5 (by decide),
            octets 6 (by decide), octets 7 (by decide), pure_eq_ok]
          split
          · rfl
          · cases Dnp3Link.dataLoop bytes (headerLen + 2) n 0 [] <;> rfl

/-! ## Application layer -/

def objectCount (qualifier : U8) (bytes : List U8) : Checked (Option U32 × List U8) := do
  let kind ← shiftRight qualifier 4
  match kind.toNat with
  | 0 =>
    if bytes.length ≥ 2 then
      let first ← index bytes 0
      let last ← index bytes 1
      let rest ← sliceFrom bytes 2
      pure (some (rangeCount (first.setWidth 32) (last.setWidth 32)), rest)
    else pure (none, bytes)
  | 1 =>
    if bytes.length ≥ 4 then
      let a ← index bytes 0
      let b ← index bytes 1
      let c ← index bytes 2
      let d ← index bytes 3
      let rest ← sliceFrom bytes 4
      pure (some (rangeCount ((u16FromLe a b).setWidth 32) ((u16FromLe c d).setWidth 32)), rest)
    else pure (none, bytes)
  | 2 =>
    if bytes.length ≥ 8 then
      let a ← index bytes 0
      let b ← index bytes 1
      let c ← index bytes 2
      let d ← index bytes 3
      let e ← index bytes 4
      let f ← index bytes 5
      let g ← index bytes 6
      let h ← index bytes 7
      let rest ← sliceFrom bytes 8
      pure (some (rangeCount (u32FromLe a b c d) (u32FromLe e f g h)), rest)
    else pure (none, bytes)
  | 3 =>
    if bytes.length ≠ 0 then
      let value ← index bytes 0
      let rest ← sliceFrom bytes 1
      pure (some (value.setWidth 32), rest)
    else pure (none, bytes)
  | 4 =>
    if bytes.length ≥ 2 then
      let a ← index bytes 0
      let b ← index bytes 1
      let rest ← sliceFrom bytes 2
      pure (some ((u16FromLe a b).setWidth 32), rest)
    else pure (none, bytes)
  | 5 =>
    if bytes.length ≥ 4 then
      let a ← index bytes 0
      let b ← index bytes 1
      let c ← index bytes 2
      let d ← index bytes 3
      let rest ← sliceFrom bytes 4
      pure (some (u32FromLe a b c d), rest)
    else pure (none, bytes)
  | 6 => pure (some 0#32, bytes)
  | _ => pure (none, bytes)

def parseObjects (bytes : List U8) : Checked (List ObjectHeader × Option U8) := do
  if bytes.length < 3 then pure ([], none)
  else
    let group ← index bytes 0
    let variation ← index bytes 1
    let qualifier ← index bytes 2
    let bytes ← sliceFrom bytes 3
    let (count, rest) ← objectCount qualifier bytes
    let controlCode := if group = 12#8 then rest.head? else none
    pure ([⟨group, variation, qualifier, count⟩], controlCode)

def parse (bytes : List U8) : Checked (Option ApplicationHeader) := do
  if bytes.length < 2 then pure none
  else
    let control ← index bytes 0
    let function ← index bytes 1
    if isResponse function then
      if bytes.length < 4 then pure none
      else
        let low ← index bytes 2
        let high ← index bytes 3
        let rest ← sliceFrom bytes 4
        let objects ← parseObjects rest
        pure (some (header control function (some (u16FromLe low high)) objects))
    else
      let rest ← sliceFrom bytes 2
      let objects ← parseObjects rest
      pure (some (header control function none objects))

def application (frame : LinkFrame) : Checked (Option ApplicationHeader) := do
  match transport frame with
  | none => pure none
  | some transport =>
    if ¬ transport.fir then pure none
    else
      let rest ← sliceFrom frame.userData 1
      parse rest

def event (frame : LinkFrame) : Checked (Option Event) := do
  match transport frame with
  | none => pure none
  | some transport =>
    match ← application frame with
    | none => pure none
    | some application => pure (some (eventOf frame transport application))

/-- Every arm reads only below the length its guard has checked. -/
theorem objectCount_eq (qualifier : U8) (bytes : List U8) :
    objectCount qualifier bytes = .ok (Dnp3Application.objectCount qualifier bytes) := by
  unfold objectCount Dnp3Application.objectCount
  rw [shiftRight_eq (by decide), ok_bind]
  match (qualifier >>> 4).toNat with
  | 0 =>
    by_cases long : bytes.length ≥ 2
    · simp only [if_pos long, index_eq (show 0 < bytes.length by omega),
        index_eq (show 1 < bytes.length by omega), sliceFrom_eq long, ok_bind, pure_eq_ok]
    · simp only [if_neg long, pure_eq_ok]
  | 1 =>
    by_cases long : bytes.length ≥ 4
    · simp only [if_pos long, index_eq (show 0 < bytes.length by omega),
        index_eq (show 1 < bytes.length by omega), index_eq (show 2 < bytes.length by omega),
        index_eq (show 3 < bytes.length by omega), sliceFrom_eq long, ok_bind, pure_eq_ok]
    · simp only [if_neg long, pure_eq_ok]
  | 2 =>
    by_cases long : bytes.length ≥ 8
    · simp only [if_pos long, index_eq (show 0 < bytes.length by omega),
        index_eq (show 1 < bytes.length by omega), index_eq (show 2 < bytes.length by omega),
        index_eq (show 3 < bytes.length by omega), index_eq (show 4 < bytes.length by omega),
        index_eq (show 5 < bytes.length by omega), index_eq (show 6 < bytes.length by omega),
        index_eq (show 7 < bytes.length by omega), sliceFrom_eq long, ok_bind, pure_eq_ok]
    · simp only [if_neg long, pure_eq_ok]
  | 3 =>
    by_cases nonempty : bytes.length ≠ 0
    · simp only [if_pos nonempty, index_eq (show 0 < bytes.length by omega),
        sliceFrom_eq (show 1 ≤ bytes.length by omega), ok_bind, pure_eq_ok]
    · simp only [if_neg nonempty, pure_eq_ok]
  | 4 =>
    by_cases long : bytes.length ≥ 2
    · simp only [if_pos long, index_eq (show 0 < bytes.length by omega),
        index_eq (show 1 < bytes.length by omega), sliceFrom_eq long, ok_bind, pure_eq_ok]
    · simp only [if_neg long, pure_eq_ok]
  | 5 =>
    by_cases long : bytes.length ≥ 4
    · simp only [if_pos long, index_eq (show 0 < bytes.length by omega),
        index_eq (show 1 < bytes.length by omega), index_eq (show 2 < bytes.length by omega),
        index_eq (show 3 < bytes.length by omega), sliceFrom_eq long, ok_bind, pure_eq_ok]
    · simp only [if_neg long, pure_eq_ok]
  | 6 => rfl
  | _ + 7 => rfl

theorem parseObjects_eq (bytes : List U8) :
    parseObjects bytes = .ok (Dnp3Application.parseObjects bytes) := by
  unfold parseObjects Dnp3Application.parseObjects
  by_cases short : bytes.length < 3
  · rw [if_pos short, if_pos short]
    rfl
  · simp only [if_neg short, index_eq (show 0 < bytes.length by omega),
      index_eq (show 1 < bytes.length by omega), index_eq (show 2 < bytes.length by omega),
      sliceFrom_eq (show 3 ≤ bytes.length by omega), objectCount_eq, ok_bind, pure_eq_ok]

theorem parse_eq (bytes : List U8) : parse bytes = .ok (Dnp3Application.parse bytes) := by
  unfold parse Dnp3Application.parse
  by_cases short : bytes.length < 2
  · rw [if_pos short, if_pos short]
    rfl
  · simp only [if_neg short, index_eq (show 0 < bytes.length by omega),
      index_eq (show 1 < bytes.length by omega), ok_bind,
      sliceFrom_eq (show 2 ≤ bytes.length by omega), parseObjects_eq, pure_eq_ok]
    by_cases response : isResponse (octet bytes 1)
    · by_cases shortIin : bytes.length < 4
      · simp only [if_pos response, if_pos shortIin]
      · simp only [if_pos response, if_neg shortIin, index_eq (show 2 < bytes.length by omega),
          index_eq (show 3 < bytes.length by omega), ok_bind,
          sliceFrom_eq (show 4 ≤ bytes.length by omega)]
    · simp only [if_neg response]

theorem application_eq (frame : LinkFrame) :
    application frame = .ok (Dnp3Application.application frame) := by
  unfold application Dnp3Application.application
  cases found : transport frame with
  | none => rfl
  | some transport =>
    have nonempty : 1 ≤ frame.userData.length := by
      cases hd : frame.userData with
      | nil => rw [Dnp3Application.transport, hd] at found; cases found
      | cons b rest => simp
    simp only [sliceFrom_eq nonempty, ok_bind, parse_eq, pure_eq_ok]
    split <;> rfl

theorem event_eq (frame : LinkFrame) : event frame = .ok (Dnp3Application.event frame) := by
  unfold event Dnp3Application.event
  cases transport frame with
  | none => rfl
  | some transport =>
    simp only [application_eq, ok_bind]
    cases Dnp3Application.application frame <;> rfl

/-! ## The whole run -/

/-- `parse_stream`, then `application`, `event` and `to_json` on every decoded frame. -/
def inspect (maxUsize : ℕ) (bytes : List U8) :
    Checked (List (Except LinkError (Option ApplicationHeader × Option Event × Option (List Char)))) := do
  let frames ← streamOf maxUsize (parseFrame maxUsize) bytes
  frames.mapM fun frame => do
    match frame with
    | .error e => pure (.error e)
    | .ok frame =>
      let application ← application frame
      let event ← event frame
      pure (.ok (application, event, event.map Event.toJson))

/-- What the plain definitions yield for a frame. -/
def report (frame : Except LinkError LinkFrame) :
    Except LinkError (Option ApplicationHeader × Option Event × Option (List Char)) :=
  frame.map fun frame => (Dnp3Application.application frame, Dnp3Application.event frame,
    (Dnp3Application.event frame).map Event.toJson)

theorem inspect_eq {maxUsize : ℕ} (word : 2 ^ 32 ≤ maxUsize + 1) {bytes : List U8}
    (fits : bytes.length ≤ maxUsize) :
    ∃ frames, parseStream bytes = some frames ∧
      inspect maxUsize bytes = .ok (frames.map report) := by
  obtain ⟨frames, checked, plain⟩ := streamOf_eq Dnp3Link.progress fits
    (fun bytes fits => parseFrame_eq word fits)
  refine ⟨frames, plain, ?_⟩
  rw [inspect, checked, ok_bind]
  refine mapM_ok (fun frame => ?_) frames
  cases frame with
  | error e => rfl
  | ok frame =>
    simp only [application_eq, event_eq, ok_bind, pure_eq_ok, report, Except.map]

end OtDetection.CheckedDnp3
