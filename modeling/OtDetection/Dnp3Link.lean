import OtDetection.Dnp3Crc
import OtDetection.LengthFraming

/-! DNP3 link layer. A frame is `05 64 | length | control | destination(2) |
source(2) | crc(2)` followed by user data in blocks of up to 16 octets, each
with its own CRC. `parseFrame` is the Rust decoder; `encodeFrame` is the layout
it accepts, and `parseFrame_eq_ok_iff` says that it accepts nothing else. -/

namespace OtDetection.Dnp3Link
open Octets Dnp3Crc LengthFraming

def start : List U8 := [0x05#8, 0x64#8]
def headerLen : ℕ := 8
def maxBlock : ℕ := 16
def minLength : ℕ := 5

inductive LinkError
  | incomplete (needed : ℕ)
  | badStart
  | badLength (length : U8)
  | headerCrc
  | dataCrc (block : ℕ)
  deriving DecidableEq, Repr

def LinkError.needed : LinkError → Option ℕ
  | .incomplete needed => some needed
  | _ => none

/-- Link layer control octet. -/
structure Control where
  fromOutstation : Bool
  primary : Bool
  fcb : Bool
  fcv : Bool
  function : U8
  deriving DecidableEq, Repr

def Control.fromOctet (octet : U8) : Control where
  fromOutstation := octet &&& 0x80#8 != 0#8
  primary := octet &&& 0x40#8 != 0#8
  fcb := octet &&& 0x20#8 != 0#8
  fcv := octet &&& 0x10#8 != 0#8
  function := octet &&& 0x0F#8

def Control.functionName (control : Control) : String :=
  match control.function.toNat with
  | 0 => "Confirm"
  | 1 => "Read"
  | 2 => "Write"
  | 3 => "Select"
  | 4 => "Operate"
  | 5 => "Direct Operate"
  | 6 => "Direct Operate No Ack"
  | 9 => "Request Link Status"
  | 11 => "Unsolicited Response"
  | 15 => "Not Supported"
  | _ => "Reserved"

/-- The octet a control field came from, bit by bit. -/
def Control.toOctet (control : Control) : U8 :=
  (if control.fromOutstation then 0x80#8 else 0#8) |||
  (if control.primary then 0x40#8 else 0#8) |||
  (if control.fcb then 0x20#8 else 0#8) |||
  (if control.fcv then 0x10#8 else 0#8) ||| control.function

theorem Control.toOctet_fromOctet : ∀ octet : U8, (Control.fromOctet octet).toOctet = octet := by
  decide +kernel

structure LinkFrame where
  control : Control
  destination : U16
  source : U16
  userData : List U8
  deriving DecidableEq, Repr

/-- `usize::div_ceil`. -/
def divCeil (n d : ℕ) : ℕ := if n % d > 0 then n / d + 1 else n / d

def dataLoop (bytes : List U8) (offset remaining block : ℕ) (userData : List U8) :
    Except LinkError (List U8) :=
  if remaining > 0 then
    let blockLen := min remaining maxBlock
    let data := slice bytes offset (offset + blockLen)
    let expected := u16FromLe (octet bytes (offset + blockLen)) (octet bytes (offset + blockLen + 1))
    if crc16 data ≠ expected then .error (.dataCrc block)
    else
      dataLoop bytes (offset + (blockLen + 2)) (remaining - blockLen) (block + 1) (userData ++ data)
  else .ok userData
termination_by remaining
decreasing_by simp only [maxBlock]; omega

/-- Decode one link frame from `bytes`, with how many octets it consumed. -/
def parseFrame (bytes : List U8) : Except LinkError (LinkFrame × ℕ) :=
  if bytes.length < headerLen + 2 then .error (.incomplete (headerLen + 2))
  else if octet bytes 0 ≠ octet start 0 ∨ octet bytes 1 ≠ octet start 1 then .error .badStart
  else
    let length := (octet bytes 2).toNat
    if length < minLength then .error (.badLength (octet bytes 2))
    else
      let userDataLen := length - minLength
      let blocks := divCeil userDataLen maxBlock
      let total := headerLen + 2 + userDataLen + blocks * 2
      if bytes.length < total then .error (.incomplete total)
      else if crc16 (slice bytes 0 headerLen) ≠ u16FromLe (octet bytes 8) (octet bytes 9) then
        .error .headerCrc
      else
        match dataLoop bytes (headerLen + 2) userDataLen 0 [] with
        | .error e => .error e
        | .ok userData =>
          .ok ({ control := Control.fromOctet (octet bytes 3)
                 destination := u16FromLe (octet bytes 4) (octet bytes 5)
                 source := u16FromLe (octet bytes 6) (octet bytes 7)
                 userData := userData }, total)

/-! ## The layout of a frame -/

/-- User data in blocks, each followed by its CRC. -/
def encodeBlocks (data : List U8) : List U8 :=
  if data = [] then []
  else data.take maxBlock ++ u16ToLe (crc16 (data.take maxBlock)) ++
    encodeBlocks (data.drop maxBlock)
termination_by data.length
decreasing_by
  rename_i nonempty
  have := List.length_pos_of_ne_nil nonempty
  simp only [List.length_drop, maxBlock]
  omega

def encodeHeader (control : U8) (destination source : U16) (dataLen : ℕ) : List U8 :=
  octet start 0 :: octet start 1 :: BitVec.ofNat 8 (minLength + dataLen) :: control ::
    (u16ToLe destination ++ u16ToLe source)

def encodeFrame (control : U8) (destination source : U16) (data : List U8) : List U8 :=
  encodeHeader control destination source data.length ++
    u16ToLe (crc16 (encodeHeader control destination source data.length)) ++ encodeBlocks data

/-- Octets that `n` octets of user data take in blocks. -/
def blocksLen (n : ℕ) : ℕ := n + divCeil n maxBlock * 2

theorem divCeil_maxBlock (n : ℕ) : divCeil n maxBlock = (n + 15) / 16 := by
  unfold divCeil maxBlock
  split <;> omega

theorem blocksLen_step {n : ℕ} (h : 0 < n) :
    blocksLen n = min n maxBlock + 2 + blocksLen (n - min n maxBlock) := by
  simp only [blocksLen, divCeil_maxBlock]
  simp only [maxBlock]
  omega

theorem encodeBlocks_length (data : List U8) :
    (encodeBlocks data).length = blocksLen data.length := by
  induction data using encodeBlocks.induct with
  | case1 => simp [encodeBlocks, blocksLen, divCeil]
  | case2 data nonempty ih =>
    have pos := List.length_pos_of_ne_nil nonempty
    rw [encodeBlocks, if_neg nonempty, List.length_append, List.length_append, ih, u16ToLe_length,
      List.length_take, List.length_drop, blocksLen_step pos, Nat.min_comm]
    congr 2
    omega

@[simp] theorem encodeHeader_length (control : U8) (destination source : U16) (n : ℕ) :
    (encodeHeader control destination source n).length = headerLen := rfl

theorem encodeFrame_length (control : U8) (destination source : U16) (data : List U8) :
    (encodeFrame control destination source data).length =
      headerLen + 2 + blocksLen data.length := by
  simp only [encodeFrame, List.length_append, encodeHeader_length, u16ToLe_length,
    encodeBlocks_length]

/-! ## The block loop -/

theorem dataLoop_step {bytes : List U8} {offset remaining : ℕ} (block : ℕ) (userData : List U8)
    {data rest : List U8} {low high : U8} (pos : 0 < remaining)
    (hlen : data.length = min remaining maxBlock)
    (front : bytes.drop offset = data ++ low :: high :: rest) :
    dataLoop bytes offset remaining block userData =
      if crc16 data ≠ u16FromLe low high then .error (.dataCrc block)
      else dataLoop bytes (offset + (data.length + 2)) (remaining - data.length) (block + 1)
        (userData ++ data) := by
  have read : slice bytes offset (offset + data.length) = data := by
    rw [slice, front, Nat.add_sub_cancel_left, List.take_left]
  have lowOctet : octet bytes (offset + data.length) = low := by
    rw [← octet_drop, front]
    simp [octet]
  have highOctet : octet bytes (offset + data.length + 1) = high := by
    rw [Nat.add_assoc, ← octet_drop, front]
    simp [octet, List.getD_eq_getElem?_getD]
  rw [dataLoop, if_pos pos, ← hlen]
  simp only [read, lowOctet, highOctet]

theorem exists_block {bytes : List U8} {offset n : ℕ} (h : offset + (n + 2) ≤ bytes.length) :
    ∃ data low high, data.length = n ∧
      bytes.drop offset = data ++ low :: high :: bytes.drop (offset + (n + 2)) := by
  refine ⟨(bytes.drop offset).take n, octet bytes (offset + n), octet bytes (offset + n + 1),
    ?_, ?_⟩
  · simp only [List.length_take, List.length_drop]
    omega
  · conv => lhs; rw [← List.take_append_drop n (bytes.drop offset), List.drop_drop]
    rw [drop_eq_octet_cons (i := offset + n) (by omega),
      drop_eq_octet_cons (i := offset + n + 1) (by omega)]
    rfl

theorem encodeBlocks_of_pos {data : List U8} (h : 0 < data.length) :
    encodeBlocks data = data.take maxBlock ++
      (u16ToLe (crc16 (data.take maxBlock)) ++ encodeBlocks (data.drop maxBlock)) := by
  rw [encodeBlocks, if_neg (List.ne_nil_of_length_pos h), List.append_assoc]

theorem encodeBlocks_append {head tail : List U8} (pos : 0 < head.length)
    (hlen : head.length = min (head ++ tail).length maxBlock) :
    encodeBlocks (head ++ tail) = head ++ (u16ToLe (crc16 head) ++ encodeBlocks tail) := by
  rw [List.length_append] at hlen
  have split : (head ++ tail).take maxBlock = head ∧ (head ++ tail).drop maxBlock = tail := by
    rcases Nat.le_total maxBlock (head.length + tail.length) with h | h
    · rw [Nat.min_eq_right h] at hlen
      rw [← hlen]
      exact ⟨List.take_left, List.drop_left⟩
    · rw [Nat.min_eq_left h] at hlen
      have empty : tail = [] := List.eq_nil_of_length_eq_zero (by omega)
      subst empty
      simp only [List.length_nil, Nat.add_zero] at h
      rw [List.append_nil]
      exact ⟨List.take_of_length_le h, List.drop_eq_nil_of_le h⟩
  rw [encodeBlocks_of_pos (by rw [List.length_append]; omega), split.1, split.2]

theorem encodeBlocks_nil : encodeBlocks [] = [] := by rw [encodeBlocks, if_pos rfl]

theorem eq_encodeBlocks_append_iff {data head rest tail : List U8} {low high : U8}
    (pos : 0 < data.length) (hlen : head.length = min data.length maxBlock) :
    head ++ low :: high :: rest = encodeBlocks data ++ tail ↔
      data.take maxBlock = head ∧ crc16 head = u16FromLe low high ∧
        rest = encodeBlocks (data.drop maxBlock) ++ tail := by
  have headLen : head.length = (data.take maxBlock).length := by
    rw [hlen, List.length_take, Nat.min_comm]
  rw [encodeBlocks_of_pos pos, List.append_assoc, List.append_assoc]
  constructor
  · intro h
    obtain ⟨rfl, crcRest⟩ := List.append_inj h headLen
    obtain ⟨crc, tailEq⟩ := List.append_inj
      (show [low, high] ++ rest = _ ++ (encodeBlocks (data.drop maxBlock) ++ tail) from crcRest) rfl
    refine ⟨rfl, ?_, tailEq⟩
    rw [← u16ToLe_fromLe low high] at crc
    exact (u16ToLe_inj crc).symm
  · rintro ⟨rfl, crc, rfl⟩
    rw [crc, u16ToLe_fromLe]
    rfl

theorem dataLoop_eq_ok_iff {bytes : List U8} {offset remaining : ℕ} (block : ℕ)
    (userData out : List U8) (fits : offset + blocksLen remaining ≤ bytes.length) :
    dataLoop bytes offset remaining block userData = .ok out ↔
      ∃ data, data.length = remaining ∧ out = userData ++ data ∧
        bytes.drop offset = encodeBlocks data ++ bytes.drop (offset + blocksLen remaining) := by
  induction remaining using Nat.strong_induction_on generalizing offset block userData with
  | _ remaining ih =>
    rcases Nat.eq_zero_or_pos remaining with rfl | pos
    · rw [dataLoop, if_neg (by omega)]
      constructor
      · rintro ⟨⟩
        exact ⟨[], rfl, (List.append_nil _).symm, by rw [encodeBlocks_nil]; rfl⟩
      · rintro ⟨data, empty, rfl, -⟩
        rw [List.eq_nil_of_length_eq_zero empty, List.append_nil]
    · have step := blocksLen_step pos
      have least : 0 < min remaining maxBlock := by simp only [maxBlock]; omega
      obtain ⟨head, low, high, hlen, front⟩ :=
        exists_block (show offset + (min remaining maxBlock + 2) ≤ bytes.length by omega)
      have headPos : 0 < head.length := by omega
      have total : min remaining maxBlock + (remaining - min remaining maxBlock) = remaining := by
        omega
      have left : remaining - maxBlock = remaining - min remaining maxBlock := by omega
      have inside : offset + (min remaining maxBlock + 2) +
          blocksLen (remaining - min remaining maxBlock) ≤ bytes.length := by omega
      have rest := ih (remaining - min remaining maxBlock) (by omega) (block + 1)
        (userData ++ head) inside
      have stop : offset + (min remaining maxBlock + 2) +
          blocksLen (remaining - min remaining maxBlock) = offset + blocksLen remaining := by omega
      rw [stop] at rest
      rw [dataLoop_step block userData pos hlen front, hlen, front]
      by_cases good : crc16 head = u16FromLe low high
      · rw [if_neg (by simpa using good), rest]
        constructor
        · rintro ⟨data, dataLen, rfl, tail⟩
          have whole : (head ++ data).length = remaining := by
            rw [List.length_append, hlen, dataLen, total]
          have encoded := encodeBlocks_append headPos (by rw [whole, hlen])
          refine ⟨head ++ data, whole, List.append_assoc .., ?_⟩
          rw [encoded, good, u16ToLe_fromLe, tail]
          simp
        · rintro ⟨data, dataLen, rfl, here⟩
          obtain ⟨rfl, -, tail⟩ :=
            (eq_encodeBlocks_append_iff (by rwa [dataLen]) (by rw [dataLen, hlen])).mp here
          refine ⟨data.drop maxBlock, ?_, ?_, tail⟩
          · rw [List.length_drop, dataLen, left]
          · rw [List.append_assoc, List.take_append_drop]
      · rw [if_pos (by simpa using good)]
        simp only [reduceCtorEq, false_iff, not_exists, not_and]
        rintro data dataLen - here
        exact good ((eq_encodeBlocks_append_iff (by rwa [dataLen])
          (by rw [dataLen, hlen])).mp here).2.1

/-! ## The checks, stage by stage -/

/-- The size the header announces, or what is wrong with it. -/
def linkTotal (header : List U8) : Except LinkError ℕ :=
  if octet header 0 ≠ octet start 0 ∨ octet header 1 ≠ octet start 1 then .error .badStart
  else if (octet header 2).toNat < minLength then .error (.badLength (octet header 2))
  else .ok (headerLen + 2 + blocksLen ((octet header 2).toNat - minLength))

/-- Both CRC checks, on octets that hold the whole frame. -/
def linkBody (bytes : List U8) : Except LinkError LinkFrame :=
  if crc16 (slice bytes 0 headerLen) ≠ u16FromLe (octet bytes 8) (octet bytes 9) then
    .error .headerCrc
  else
    match dataLoop bytes (headerLen + 2) ((octet bytes 2).toNat - minLength) 0 [] with
    | .error e => .error e
    | .ok userData =>
      .ok ⟨Control.fromOctet (octet bytes 3), u16FromLe (octet bytes 4) (octet bytes 5),
        u16FromLe (octet bytes 6) (octet bytes 7), userData⟩

theorem dataLoop_take {bytes : List U8} {offset remaining n : ℕ} (block : ℕ) (userData : List U8)
    (h : offset + blocksLen remaining ≤ n) :
    dataLoop (bytes.take n) offset remaining block userData =
      dataLoop bytes offset remaining block userData := by
  induction remaining using Nat.strong_induction_on generalizing offset block userData with
  | _ remaining ih =>
    rw [dataLoop, dataLoop]
    by_cases pos : remaining > 0
    · have step := blocksLen_step pos
      have least : 0 < min remaining maxBlock := by simp only [maxBlock]; omega
      simp only [if_pos pos]
      rw [slice_take _ (by omega), octet_take _ (by omega), octet_take _ (by omega)]
      rw [ih (remaining - min remaining maxBlock) (by omega) _ _ (by omega)]
    · rw [if_neg pos, if_neg pos]

theorem linkTotal_le {header : List U8} {n : ℕ} (h : linkTotal header = .ok n) :
    headerLen + 2 ≤ n := by
  unfold linkTotal at h
  split at h
  · cases h
  · split at h <;> cases h
    omega

theorem linkTotal_take {bytes : List U8} {n : ℕ} (h : headerLen + 2 ≤ n) :
    linkTotal (bytes.take n) = linkTotal bytes := by
  have octets : ∀ i, i < headerLen + 2 → octet (bytes.take n) i = octet bytes i :=
    fun i hi => octet_take _ (by omega)
  simp only [linkTotal, octets 0 (by decide), octets 1 (by decide), octets 2 (by decide)]

theorem linkBody_take {bytes : List U8} {n : ℕ}
    (h : headerLen + 2 + blocksLen ((octet bytes 2).toNat - minLength) ≤ n) :
    linkBody (bytes.take n) = linkBody bytes := by
  have octets : ∀ i, i < headerLen + 2 → octet (bytes.take n) i = octet bytes i :=
    fun i hi => octet_take _ (by omega)
  have header : slice (bytes.take n) 0 headerLen = slice bytes 0 headerLen :=
    slice_take _ (by omega)
  simp only [linkBody, header, octets 2 (by decide), octets 3 (by decide), octets 4 (by decide),
    octets 5 (by decide), octets 6 (by decide), octets 7 (by decide), octets 8 (by decide),
    octets 9 (by decide), dataLoop_take _ _ h]

theorem parseFrame_eq_framed (bytes : List U8) :
    parseFrame bytes = framed .incomplete (headerLen + 2) linkTotal linkBody bytes := by
  unfold parseFrame framed
  by_cases short : bytes.length < headerLen + 2
  · rw [if_pos short, if_pos short]
  · rw [if_neg short, if_neg short, linkTotal_take (Nat.le_refl _), linkTotal]
    by_cases bad : octet bytes 0 ≠ octet start 0 ∨ octet bytes 1 ≠ octet start 1
    · rw [if_pos bad, if_pos bad]
    · rw [if_neg bad, if_neg bad]
      by_cases small : (octet bytes 2).toNat < minLength
      · simp only [small, if_true]
      · simp only [small, if_false]
        rw [Nat.add_assoc _ (_ - minLength), ← blocksLen, linkBody_take (Nat.le_refl _), linkBody]
        split
        · rfl
        · split
          · rfl
          · cases dataLoop bytes (headerLen + 2) ((octet bytes 2).toNat - minLength) 0 [] <;> rfl

theorem dataLoop_final {bytes : List U8} {offset remaining block : ℕ} {userData : List U8}
    {e : LinkError} (h : dataLoop bytes offset remaining block userData = .error e) :
    e.needed = none := by
  induction remaining using Nat.strong_induction_on generalizing offset block userData with
  | _ remaining ih =>
    rw [dataLoop] at h
    by_cases pos : remaining > 0
    · have least : 0 < min remaining maxBlock := by simp only [maxBlock]; omega
      simp only [if_pos pos] at h
      split at h
      · cases h
        rfl
      · exact ih _ (by omega) h
    · rw [if_neg pos] at h
      cases h

theorem shape : Shape LinkError.needed .incomplete (headerLen + 2) linkTotal linkBody where
  headerLen_pos := by decide
  needed_incomplete _ := rfl
  le_total _ _ := linkTotal_le
  total_final := by
    intro header e h
    unfold linkTotal at h
    split at h
    · cases h
      rfl
    · split at h <;> cases h
      rfl
  body_final := by
    intro bytes e h
    unfold linkBody at h
    split at h
    · cases h
      rfl
    · split at h
      · rename_i bad
        cases h
        exact dataLoop_final bad
      · cases h

theorem parseFrame_framed : parseFrame =
    framed .incomplete (headerLen + 2) linkTotal linkBody :=
  funext parseFrame_eq_framed

theorem incremental : Incremental LinkError.needed parseFrame := by
  rw [parseFrame_framed]
  exact framed_incremental shape

theorem progress : Progress parseFrame := by
  rw [parseFrame_framed]
  exact framed_progress shape

theorem linkTotal_eq_ok_iff {header : List U8} {n : ℕ} :
    linkTotal header = .ok n ↔ octet header 0 = octet start 0 ∧ octet header 1 = octet start 1 ∧
      minLength ≤ (octet header 2).toNat ∧
      n = headerLen + 2 + blocksLen ((octet header 2).toNat - minLength) := by
  unfold linkTotal
  by_cases bad : octet header 0 ≠ octet start 0 ∨ octet header 1 ≠ octet start 1
  · rw [if_pos bad]
    simp only [reduceCtorEq, false_iff, not_and]
    intro zero one
    exact absurd bad (by simp [zero, one])
  · rw [if_neg bad]
    simp only [not_or, ne_eq, not_not] at bad
    by_cases small : (octet header 2).toNat < minLength
    · simp [small, Nat.not_le.mpr small]
    · simp [small, bad, Nat.not_lt.mp small, eq_comm]

theorem linkBody_eq_ok_iff {bytes : List U8} {frame : LinkFrame} :
    linkBody bytes = .ok frame ↔
      crc16 (slice bytes 0 headerLen) = u16FromLe (octet bytes 8) (octet bytes 9) ∧
      dataLoop bytes (headerLen + 2) ((octet bytes 2).toNat - minLength) 0 [] =
        .ok frame.userData ∧
      frame.control = Control.fromOctet (octet bytes 3) ∧
      frame.destination = u16FromLe (octet bytes 4) (octet bytes 5) ∧
      frame.source = u16FromLe (octet bytes 6) (octet bytes 7) := by
  unfold linkBody
  by_cases good : crc16 (slice bytes 0 headerLen) = u16FromLe (octet bytes 8) (octet bytes 9)
  · rw [if_neg (by simpa using good)]
    cases dataLoop bytes (headerLen + 2) ((octet bytes 2).toNat - minLength) 0 [] with
    | error e => simp
    | ok userData =>
      cases frame
      simp only [Except.ok.injEq, LinkFrame.mk.injEq, good, true_and]
      constructor
      · rintro ⟨rfl, rfl, rfl, rfl⟩
        exact ⟨rfl, rfl, rfl, rfl⟩
      · rintro ⟨rfl, rfl, rfl, rfl⟩
        exact ⟨rfl, rfl, rfl, rfl⟩
  · simp [good]

/-! ## The whole frame -/

theorem slice_header {bytes : List U8} (h : headerLen + 2 ≤ bytes.length) :
    slice bytes 0 headerLen = [octet bytes 0, octet bytes 1, octet bytes 2, octet bytes 3,
      octet bytes 4, octet bytes 5, octet bytes 6, octet bytes 7] := by
  match bytes, h with
  | _ :: _ :: _ :: _ :: _ :: _ :: _ :: _ :: _ :: _ :: _, _ => rfl

theorem eq_header_append {bytes : List U8} (h : headerLen + 2 ≤ bytes.length) :
    bytes = slice bytes 0 headerLen ++ ([octet bytes 8, octet bytes 9] ++
      bytes.drop (headerLen + 2)) := by
  match bytes, h with
  | _ :: _ :: _ :: _ :: _ :: _ :: _ :: _ :: _ :: _ :: _, _ => rfl

theorem encodeFrame_eq (control : U8) (destination source : U16) (data : List U8) :
    encodeFrame control destination source data =
      encodeHeader control destination source data.length ++
        (u16ToLe (crc16 (encodeHeader control destination source data.length)) ++
          encodeBlocks data) := List.append_assoc ..

theorem linkTotal_encodeFrame (control : U8) (destination source : U16) (data tail : List U8)
    (short : data.length ≤ 250) :
    linkTotal (encodeFrame control destination source data ++ tail) =
      .ok (encodeFrame control destination source data).length := by
  have length : (BitVec.ofNat 8 (minLength + data.length)).toNat = minLength + data.length := by
    rw [BitVec.toNat_ofNat, minLength]; omega
  have third : octet (encodeFrame control destination source data ++ tail) 2 =
      BitVec.ofNat 8 (minLength + data.length) := rfl
  rw [linkTotal_eq_ok_iff, third, length, encodeFrame_length]
  exact ⟨rfl, rfl, by omega, by rw [Nat.add_sub_cancel_left]⟩

theorem linkBody_encodeFrame (control : U8) (destination source : U16) (data tail : List U8)
    (short : data.length ≤ 250) :
    linkBody (encodeFrame control destination source data ++ tail) =
      .ok ⟨Control.fromOctet control, destination, source, data⟩ := by
  have length : (BitVec.ofNat 8 (minLength + data.length)).toNat = minLength + data.length := by
    rw [BitVec.toNat_ofNat, minLength]; omega
  have third : octet (encodeFrame control destination source data ++ tail) 2 =
      BitVec.ofNat 8 (minLength + data.length) := rfl
  have blocks : (encodeFrame control destination source data ++ tail).drop (headerLen + 2) =
      encodeBlocks data ++ tail := rfl
  have total := encodeFrame_length control destination source data
  rw [linkBody_eq_ok_iff, third, length, Nat.add_sub_cancel_left]
  refine ⟨?_, ?_, rfl, ?_, ?_⟩
  · exact (u16FromLe_extract _).symm
  · rw [dataLoop_eq_ok_iff _ _ _ (by rw [List.length_append]; omega)]
    refine ⟨data, rfl, rfl, ?_⟩
    rw [blocks, ← total, List.drop_left]
  · exact (u16FromLe_extract _).symm
  · exact (u16FromLe_extract _).symm

theorem parseFrame_eq_ok_iff {bytes : List U8} {frame : LinkFrame} {n : ℕ} :
    parseFrame bytes = .ok (frame, n) ↔
      ∃ (control : U8) (destination source : U16) (data tail : List U8), data.length ≤ 250 ∧
        bytes = encodeFrame control destination source data ++ tail ∧
        frame = ⟨Control.fromOctet control, destination, source, data⟩ ∧
        n = (encodeFrame control destination source data).length := by
  rw [parseFrame_eq_framed, framed_eq_ok_iff]
  constructor
  · rintro ⟨long, size, fits, body⟩
    rw [linkTotal_take (Nat.le_refl _)] at size
    obtain ⟨zero, one, least, rfl⟩ := linkTotal_eq_ok_iff.mp size
    rw [linkBody_take (Nat.le_refl _)] at body
    obtain ⟨headerCrc, loop, control, destination, source⟩ := linkBody_eq_ok_iff.mp body
    obtain ⟨data, dataLen, userData, blocks⟩ := (dataLoop_eq_ok_iff 0 [] _ fits).mp loop
    have lengthBound := (octet bytes 2).isLt
    have length : minLength + data.length = (octet bytes 2).toNat := by omega
    have header : slice bytes 0 headerLen =
        encodeHeader (octet bytes 3) frame.destination frame.source data.length := by
      rw [slice_header long, encodeHeader, length, destination, source, u16ToLe_fromLe,
        u16ToLe_fromLe, zero, one, BitVec.ofNat_toNat, BitVec.setWidth_eq]
      rfl
    refine ⟨octet bytes 3, frame.destination, frame.source, data,
      bytes.drop (headerLen + 2 + blocksLen data.length), ?_, ?_, ?_, ?_⟩
    · simp only [minLength] at dataLen; omega
    · rw [encodeFrame_eq, ← header, headerCrc, u16ToLe_fromLe, List.append_assoc,
        List.append_assoc, dataLen, ← blocks]
      exact eq_header_append long
    · rw [← control]
      rw [List.nil_append] at userData
      rw [← userData]
    · rw [encodeFrame_length, dataLen]
  · rintro ⟨control, destination, source, data, tail, short, rfl, rfl, rfl⟩
    have total := encodeFrame_length control destination source data
    refine ⟨?_, ?_, ?_, ?_⟩
    · rw [List.length_append]; omega
    · rw [linkTotal_take (Nat.le_refl _)]
      exact linkTotal_encodeFrame control destination source data tail short
    · rw [List.length_append]; omega
    · rw [List.take_left]
      simpa using linkBody_encodeFrame control destination source data [] short

end OtDetection.Dnp3Link
