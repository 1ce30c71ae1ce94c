import OtDetection.Dnp3Link

/-! The Python capture builder of DNP3 frames. `dnp3Frame` computes each CRC with
`crcDnp` and raises where `bytes` or `to_bytes` would; within the 250 octets a
length field can announce it builds `encodeFrame`, so the Rust decoder and the
Python builder are inverse to each other. -/

namespace OtDetection.Dnp3Builder
open Octets Dnp3Crc Dnp3Link

inductive PyError
  | valueError
  | overflowError
  deriving DecidableEq, Repr

def pyBytes : List ℕ → Except PyError (List U8)
  | [] => .ok []
  | n :: ns =>
    if n < 256 then do
      let rest ← pyBytes ns
      .ok (BitVec.ofNat 8 n :: rest)
    else .error .valueError

def toBytesLittle (n : ℕ) : Except PyError (List U8) :=
  if n < 65536 then .ok [BitVec.ofNat 8 (n % 256), BitVec.ofNat 8 (n / 256)]
  else .error .overflowError

def pyRange (stop step : ℕ) : List ℕ := (List.range ((stop + step - 1) / step)).map (· * step)

def addBlock (userData frame : List U8) (index : ℕ) : Except PyError (List U8) := do
  let block := slice userData index (index + 16)
  let crc ← toBytesLittle (crcDnp block)
  .ok (frame ++ block ++ crc)

def dnp3Frame (control destination source : ℕ) (userData : List U8) :
    Except PyError (List U8) := do
  let fixed ← pyBytes [0x05, 0x64, 5 + userData.length, control]
  let destinationBytes ← toBytesLittle destination
  let sourceBytes ← toBytesLittle source
  let header := fixed ++ destinationBytes ++ sourceBytes
  let headerCrc ← toBytesLittle (crcDnp header)
  (pyRange userData.length 16).foldlM (addBlock userData) (header ++ headerCrc)

theorem toBytesLittle_toNat (w : U16) : toBytesLittle w.toNat = .ok (u16ToLe w) := by
  have bound := w.isLt
  rw [toBytesLittle, if_pos bound, u16ToLe]
  congr 2
  · apply BitVec.eq_of_toNat_eq
    simp [BitVec.extractLsb'_toNat]
  · congr 1
    apply BitVec.eq_of_toNat_eq
    simp [BitVec.extractLsb'_toNat, Nat.shiftRight_eq_div_pow]

theorem addBlock_eq (userData frame : List U8) (index : ℕ) :
    addBlock userData frame index =
      .ok (frame ++ (slice userData index (index + 16) ++
        u16ToLe (crc16 (slice userData index (index + 16))))) := by
  rw [addBlock, crcDnp_eq_crc16, toBytesLittle_toNat, ← List.append_assoc]
  rfl

theorem foldlM_addBlock (userData : List U8) (m k : ℕ) (frame : List U8)
    (count : m = (userData.length - k * 16 + 15) / 16) :
    ((List.range' k m).map (· * 16)).foldlM (addBlock userData) frame =
      .ok (frame ++ encodeBlocks (userData.drop (k * 16))) := by
  induction m generalizing k frame with
  | zero =>
    rw [List.drop_eq_nil_of_le (by omega), encodeBlocks_nil, List.append_nil]
    rfl
  | succ m ih =>
    have pos : 0 < (userData.drop (k * 16)).length := by rw [List.length_drop]; omega
    rw [List.range'_succ, List.map_cons, List.foldlM_cons, addBlock_eq]
    change ((List.range' (k + 1) m).map (· * 16)).foldlM (addBlock userData) _ = _
    rw [ih (k + 1) _ (by omega), encodeBlocks_of_pos pos, List.drop_drop, slice,
      Nat.add_sub_cancel_left, Nat.add_mul, List.append_assoc, List.append_assoc]
    rfl

theorem dnp3Frame_eq (control : U8) (destination source : U16) {userData : List U8}
    (h : userData.length ≤ 250) :
    dnp3Frame control.toNat destination.toNat source.toNat userData =
      .ok (encodeFrame control destination source userData) := by
  have fixed : pyBytes [0x05, 0x64, 5 + userData.length, control.toNat] =
      .ok [octet start 0, octet start 1, BitVec.ofNat 8 (minLength + userData.length), control] := by
    have small := control.isLt
    simp only [pyBytes, show 5 + userData.length < 256 by omega, small, if_true]
    simp [bind, Except.bind, start, octet, minLength]
  have header : [octet start 0, octet start 1, BitVec.ofNat 8 (minLength + userData.length),
      control] ++ u16ToLe destination ++ u16ToLe source =
        encodeHeader control destination source userData.length := by
    rw [List.append_assoc]
    rfl
  have blocks := foldlM_addBlock userData ((userData.length + 15) / 16) 0
    (encodeHeader control destination source userData.length ++
      u16ToLe (crc16 (encodeHeader control destination source userData.length))) (by omega)
  rw [← List.range_eq_range', Nat.zero_mul, List.drop_zero] at blocks
  rw [dnp3Frame, fixed, toBytesLittle_toNat, toBytesLittle_toNat]
  simp only [bind, Except.bind, header, crcDnp_eq_crc16, toBytesLittle_toNat]
  exact blocks

/-- Framing is a bijection between frames and the octet strings the builder makes. -/
theorem parseFrame_dnp3Frame :
    (∀ (control : U8) (destination source : U16) (userData tail : List U8),
      userData.length ≤ 250 →
      ∃ encoded, dnp3Frame control.toNat destination.toNat source.toNat userData = .ok encoded ∧
        parseFrame (encoded ++ tail) =
          .ok (⟨Control.fromOctet control, destination, source, userData⟩, encoded.length)) ∧
    ∀ (bytes : List U8) (frame : LinkFrame) (n : ℕ), parseFrame bytes = .ok (frame, n) →
      n ≤ bytes.length ∧
      dnp3Frame frame.control.toOctet.toNat frame.destination.toNat frame.source.toNat
        frame.userData = .ok (bytes.take n) := by
  constructor
  · intro control destination source userData tail short
    refine ⟨_, dnp3Frame_eq control destination source short, ?_⟩
    exact parseFrame_eq_ok_iff.mpr
      ⟨control, destination, source, userData, tail, short, rfl, rfl, rfl⟩
  · intro bytes frame n h
    obtain ⟨control, destination, source, data, tail, short, rfl, rfl, rfl⟩ :=
      parseFrame_eq_ok_iff.mp h
    refine ⟨by rw [List.length_append]; omega, ?_⟩
    rw [List.take_left, Control.toOctet_fromOctet]
    exact dnp3Frame_eq control destination source short

/-- A direct operate request of eleven octets, with two octets of the next frame. -/
theorem parseFrame_dnp3Frame_request :
    (∃ encoded, dnp3Frame 0x44 1 3
        [0xC0, 0xC0, 0x05, 0x0C, 0x01, 0x17, 0x00, 0x00, 0x00, 0x00, 0x03] = .ok encoded ∧
      parseFrame (encoded ++ [0x05, 0x64]) = .ok (⟨Control.fromOctet 0x44, 1, 3,
        [0xC0, 0xC0, 0x05, 0x0C, 0x01, 0x17, 0x00, 0x00, 0x00, 0x00, 0x03]⟩, encoded.length)) ∧
    10 ≤ (encodeFrame 0x44 1 3 []).length ∧
    dnp3Frame (Control.fromOctet 0x44).toOctet.toNat 1 3 [] =
      .ok ((encodeFrame 0x44 1 3 []).take 10) :=
  ⟨parseFrame_dnp3Frame.1 0x44 1 3
      [0xC0, 0xC0, 0x05, 0x0C, 0x01, 0x17, 0x00, 0x00, 0x00, 0x00, 0x03] [0x05, 0x64] (by decide),
    parseFrame_dnp3Frame.2 (encodeFrame 0x44 1 3 []) ⟨Control.fromOctet 0x44, 1, 3, []⟩ 10
      (by decide +kernel)⟩

end OtDetection.Dnp3Builder
