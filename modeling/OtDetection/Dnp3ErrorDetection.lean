import OtDetection.Dnp3Link

/-! Error detection of the DNP3 link layer. A frame is protected in units: the
header with its CRC, then each block of at most 16 octets with its CRC. On a
unit the polynomial `0xA6BC` sees every pattern of at most five flipped bits and
every burst of at most 16, so a frame damaged by such patterns is refused. The
header is the first unit: only when it is intact are the blocks where the
decoder looks for them. -/

namespace OtDetection.Dnp3ErrorDetection
open Octets ShiftRegister Dnp3Crc Dnp3Link

def blockUnits (bytes : List U8) : List (List U8) :=
  if bytes = [] then []
  else bytes.take (maxBlock + 2) :: blockUnits (bytes.drop (maxBlock + 2))
termination_by bytes.length
decreasing_by
  rename_i nonempty
  have := List.length_pos_of_ne_nil nonempty
  simp only [List.length_drop, maxBlock]
  omega

def crcUnits (bytes : List U8) : List (List U8) :=
  bytes.take (headerLen + 2) :: blockUnits (bytes.drop (headerLen + 2))

/-- At most five flipped bits, or a burst of at most sixteen, in transmission order. -/
def Confined (flips : List U8) : Prop :=
  (transmitted flips).count true ≤ 5 ∨ Burst 16 (transmitted flips)

def corrupt (bytes pattern : List U8) : List U8 := List.zipWith (· ^^^ ·) bytes pattern

@[simp] theorem corrupt_length (bytes pattern : List U8) :
    (corrupt bytes pattern).length = min bytes.length pattern.length := List.length_zipWith

theorem corrupt_append {a b e f : List U8} (h : a.length = e.length) :
    corrupt (a ++ b) (e ++ f) = corrupt a e ++ corrupt b f := List.zipWith_append h

/-! ## The polynomial -/

theorem polynomial_top : polynomialReflected.getLsbD (16 - 1) = true := by decide

theorem polynomial_parity : parity polynomialReflected = 1 := by decide +kernel

theorem polynomial_independent : Independent polynomialReflected 144 :=
  independent_of_check (by decide) (by decide +kernel)

/-! ## One unit -/

theorem transmitted_corrupt {bytes pattern : List U8} (h : bytes.length = pattern.length) :
    transmitted (corrupt bytes pattern) =
      List.zipWith (· ^^ ·) (transmitted bytes) (transmitted pattern) := by
  induction bytes generalizing pattern with
  | nil =>
    rw [List.eq_nil_of_length_eq_zero h.symm]
    rfl
  | cons b bytes ih =>
    cases pattern with
    | nil => cases h
    | cons e pattern =>
      have octets : octetBits (b ^^^ e) = List.zipWith (· ^^ ·) (octetBits b) (octetBits e) := by
        simp [octetBits, List.zipWith_map, List.zipWith_self]
      rw [corrupt, List.zipWith_cons_cons, transmitted_cons, transmitted_cons, transmitted_cons,
        List.zipWith_append (by simp), octets]
      exact congrArg _ (ih (by simpa using h))

theorem word_u16ToLe (w : U16) : word (transmitted (u16ToLe w)) = w := by
  apply BitVec.eq_of_getLsbD_eq
  intro i hi
  have bits : transmitted (u16ToLe w) =
      octetBits (w.extractLsb' 0 8) ++ octetBits (w.extractLsb' 8 8) := by
    simp [u16ToLe, transmitted]
  rw [word_getLsbD, bits, decide_eq_true hi, Bool.true_and]
  by_cases low : i < 8
  · rw [List.getD_append _ _ _ _ (by simpa using low), octetBits_getD, BitVec.getLsbD_extractLsb']
    simp [low]
  · rw [List.getD_append_right _ _ _ _ (by simpa using Nat.not_lt.mp low), octetBits_getD,
      octetBits_length, BitVec.getLsbD_extractLsb']
    simp [show i - 8 < 8 by omega, show 8 + (i - 8) = i by omega]

theorem xor_not_self (r : U16) : r ^^^ ~~~r = BitVec.allOnes 16 := by
  apply BitVec.eq_of_getLsbD_eq
  intro i hi
  rw [BitVec.getLsbD_xor, BitVec.getLsbD_not, BitVec.getLsbD_allOnes, decide_eq_true hi,
    Bool.true_and, Bool.xor_not_self]

theorem feed_unit (data : List U8) :
    feed polynomialReflected 0#16 (transmitted (data ++ u16ToLe (crc16 data))) =
      shifts polynomialReflected 16 (BitVec.allOnes 16) := by
  rw [transmitted_append, feed_append, feed_eq_shifts_word _ _ (by simp), word_u16ToLe,
    crc16_eq_feed, xor_not_self]
  simp

theorem eq_zero_of_not_mem {flips : List U8} (h : true ∉ transmitted flips) :
    ∀ o ∈ flips, o = 0#8 := by
  intro o ho
  apply BitVec.eq_of_getLsbD_eq
  intro i hi
  rw [BitVec.getLsbD_zero]
  by_contra set
  apply h
  rw [transmitted, List.mem_flatMap]
  refine ⟨o, ho, ?_⟩
  rw [octetBits, List.mem_map]
  exact ⟨i, by simpa using hi, by simpa using set⟩

theorem unit_intact {data data' flips : List U8} (small : flips.length ≤ 18)
    (length : data.length + 2 = flips.length) (confined : Confined flips)
    (h : data' ++ u16ToLe (crc16 data') = corrupt (data ++ u16ToLe (crc16 data)) flips) :
    ∀ o ∈ flips, o = 0#8 := by
  have same : (data ++ u16ToLe (crc16 data)).length = flips.length := by
    rw [List.length_append, u16ToLe_length, length]
  have residue := feed_unit data'
  have linear := feed_xor polynomialReflected 0#16 0#16
    (a := transmitted (data ++ u16ToLe (crc16 data))) (b := transmitted flips) (by simp [same])
  rw [BitVec.xor_self] at linear
  rw [h, transmitted_corrupt same, linear, feed_unit data] at residue
  have zero : feed polynomialReflected 0#16 (transmitted flips) = 0#16 := by
    have cancel := congrArg (shifts polynomialReflected 16 (BitVec.allOnes 16) ^^^ ·) residue
    simpa only [← BitVec.xor_assoc, BitVec.xor_self, BitVec.zero_xor] using cancel
  have bits : (transmitted flips).length ≤ 144 := by rw [transmitted_length]; omega
  apply eq_zero_of_not_mem
  intro hne
  rcases confined with few | burst
  · exact feed_ne_zero_of_count_le polynomial_top polynomial_parity (by decide)
      polynomial_independent (by decide) bits hne few zero
  · exact feed_ne_zero_of_burst polynomial_top hne burst zero

/-! ## The blocks behind an intact header -/

theorem blockUnits_eq_cons {flips : List U8} {n : ℕ} (pos : 0 < n)
    (length : flips.length = blocksLen n) :
    blockUnits flips = flips.take (min n maxBlock + 2) ::
      blockUnits (flips.drop (min n maxBlock + 2)) := by
  have step := blocksLen_step pos
  rw [blockUnits, if_neg (List.ne_nil_of_length_pos (by omega))]
  rcases Nat.le_total maxBlock n with full | last
  · rw [Nat.min_eq_right full]
  · -- The last block is short: one unit takes everything.
    rw [Nat.min_eq_left last]
    rw [Nat.min_eq_left last, Nat.sub_self, show blocksLen 0 = 0 by rfl] at step
    rw [List.take_of_length_le (by omega), List.take_of_length_le (by omega),
      List.drop_eq_nil_of_le (by omega), List.drop_eq_nil_of_le (by omega)]

theorem blocks_intact {data data' flips : List U8} (same : data'.length = data.length)
    (length : flips.length = blocksLen data.length)
    (confined : ∀ unit ∈ blockUnits flips, Confined unit)
    (h : encodeBlocks data' = corrupt (encodeBlocks data) flips) : ∀ o ∈ flips, o = 0#8 := by
  induction hn : data.length using Nat.strong_induction_on generalizing data data' flips with
  | _ n ih =>
    subst hn
    rcases Nat.eq_zero_or_pos data.length with empty | pos
    · rw [empty, show blocksLen 0 = 0 by rfl] at length
      rw [List.eq_nil_of_length_eq_zero length]
      simp
    · have step := blocksLen_step pos
      have headLen : (data.take maxBlock).length = min data.length maxBlock := by
        rw [List.length_take, Nat.min_comm]
      have headLen' : (data'.take maxBlock).length = min data.length maxBlock := by
        rw [List.length_take, same, Nat.min_comm]
      have left : data.length - min data.length maxBlock = data.length - maxBlock := by omega
      have unitLen : (flips.take (min data.length maxBlock + 2)).length =
          min data.length maxBlock + 2 := by rw [List.length_take]; omega
      rw [blockUnits_eq_cons pos length] at confined
      rw [encodeBlocks_of_pos pos, encodeBlocks_of_pos (by omega), ← List.append_assoc,
        ← List.append_assoc, ← List.take_append_drop (min data.length maxBlock + 2) flips,
        corrupt_append (by rw [List.length_append, headLen, unitLen]; rfl)] at h
      obtain ⟨headEq, tailEq⟩ := List.append_inj h (by simp; omega)
      have first := unit_intact (by rw [unitLen, maxBlock]; omega) (by rw [headLen, unitLen])
        (confined _ List.mem_cons_self) headEq
      have rest := ih (data.drop maxBlock).length (by simp [maxBlock]; omega) (by simp [same])
        (by rw [List.length_drop, List.length_drop, length, step, Nat.add_sub_cancel_left, left])
        (fun unit hunit => confined unit (List.mem_cons_of_mem _ hunit)) tailEq rfl
      intro o ho
      rw [← List.take_append_drop (min data.length maxBlock + 2) flips, List.mem_append] at ho
      exact ho.elim (first o) (rest o)

theorem corrupt_zero {bytes flips : List U8} (length : bytes.length = flips.length)
    (zero : ∀ o ∈ flips, o = 0#8) : corrupt bytes flips = bytes := by
  induction bytes generalizing flips with
  | nil => rfl
  | cons b bytes ih =>
    cases flips with
    | nil => cases length
    | cons o flips =>
      rw [corrupt, List.zipWith_cons_cons, zero o List.mem_cons_self, BitVec.xor_zero]
      exact congrArg _ (ih (by simpa using length) fun o ho => zero o (List.mem_cons_of_mem _ ho))

theorem encodeHeader_dataLen {control control' : U8} {destination source destination' source' : U16}
    {n n' : ℕ} (short : n ≤ 250) (short' : n' ≤ 250)
    (h : encodeHeader control destination source n =
      encodeHeader control' destination' source' n') :
    n = n' := by
  have third := congrArg (fun bytes => (octet bytes 2).toNat) h
  change (BitVec.ofNat 8 (minLength + n)).toNat = (BitVec.ofNat 8 (minLength + n')).toNat at third
  simp only [BitVec.toNat_ofNat, minLength] at third
  omega

/-- Corruption is detected: confined flips in every unit of an accepted frame never
give an accepted frame. -/
theorem parseFrame_corrupt (bytes flips : List U8) (frame : LinkFrame)
    (accepted : parseFrame bytes = .ok (frame, bytes.length))
    (length : flips.length = bytes.length) (nonzero : ∃ o ∈ flips, o ≠ 0#8)
    (confined : ∀ unit ∈ crcUnits flips, Confined unit) :
    ∃ e, parseFrame (corrupt bytes flips) = .error e := by
  cases hp : parseFrame (corrupt bytes flips) with
  | error e => exact ⟨e, rfl⟩
  | ok result =>
    exfalso
    obtain ⟨frame', m⟩ := result
    obtain ⟨control, destination, source, data, tail, short, whole, -, total⟩ :=
      parseFrame_eq_ok_iff.mp accepted
    obtain ⟨control', destination', source', data', tail', short', whole', -, -⟩ :=
      parseFrame_eq_ok_iff.mp hp
    have size := encodeFrame_length control destination source data
    have noTail : tail = [] := by
      have lengths := congrArg List.length whole
      rw [List.length_append] at lengths
      exact List.eq_nil_of_length_eq_zero (by omega)
    rw [noTail, List.append_nil, encodeFrame_eq, ← List.append_assoc] at whole
    rw [whole, ← List.take_append_drop (headerLen + 2) flips, encodeFrame_eq, ← List.append_assoc,
      List.append_assoc (_ ++ _)] at whole'
    have unitLen : (flips.take (headerLen + 2)).length = headerLen + 2 := by
      rw [List.length_take]; omega
    rw [corrupt_append (by rw [List.length_append, unitLen]; rfl)] at whole'
    obtain ⟨headEq, blocksEq⟩ := List.append_inj whole' (by simp; omega)
    -- The header is the first unit, so it is intact, and with it the length octet.
    have first := unit_intact (by rw [unitLen]; decide) (by rw [unitLen]; rfl)
      (confined _ List.mem_cons_self) headEq.symm
    rw [corrupt_zero (by rw [List.length_append, unitLen]; rfl) first] at headEq
    have sameLen := encodeHeader_dataLen short short' (List.append_inj headEq rfl).1
    have flipsLen : (flips.drop (headerLen + 2)).length = blocksLen data.length := by
      rw [List.length_drop]; omega
    have noTail' : tail' = [] := by
      have lengths := congrArg List.length blocksEq
      rw [corrupt_length, List.length_append, encodeBlocks_length, encodeBlocks_length, flipsLen,
        ← sameLen] at lengths
      exact List.eq_nil_of_length_eq_zero (by omega)
    rw [noTail', List.append_nil] at blocksEq
    have rest := blocks_intact sameLen.symm flipsLen
      (fun unit hunit => confined unit (List.mem_cons_of_mem _ hunit)) blocksEq.symm
    obtain ⟨o, ho, hne⟩ := nonzero
    rw [← List.take_append_drop (headerLen + 2) flips, List.mem_append] at ho
    exact hne (ho.elim (first o) (rest o))

/-- A link status request whose length octet is hit by a burst. -/
theorem parseFrame_corrupt_length :
    ∃ e, parseFrame (corrupt (encodeFrame 0xC9 1 3 []) [0, 0, 0xFF, 0x03, 0, 0, 0, 0, 0, 0]) =
      .error e :=
  parseFrame_corrupt (encodeFrame 0xC9 1 3 []) [0, 0, 0xFF, 0x03, 0, 0, 0, 0, 0, 0]
    ⟨Control.fromOctet 0xC9, 1, 3, []⟩ (by decide +kernel) (by decide +kernel)
    ⟨0xFF, by decide, by decide⟩ (by
      have units : crcUnits [0, 0, 0xFF, 0x03, 0, 0, 0, 0, 0, 0] =
          [[0, 0, 0xFF, 0x03, 0, 0, 0, 0, 0, 0]] := by decide +kernel
      rw [units]
      intro unit hunit
      rw [List.mem_singleton.mp hunit]
      refine .inr ⟨16, fun i hi => ?_⟩
      have bound := (List.getElem?_eq_some_iff.mp hi).1
      rw [transmitted_length] at bound
      revert hi
      have small : i < 80 := bound
      clear bound
      revert i
      decide +kernel)

end OtDetection.Dnp3ErrorDetection
