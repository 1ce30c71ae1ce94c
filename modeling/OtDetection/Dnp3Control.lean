import OtDetection.Dnp3Message

/-! Control requests as IEEE 1815 lays them out: the low nibble of a qualifier is its
range specifier and the bits above are the prefix of each object. The decoder takes the
high nibble for a range specifier and knows no prefix, so what it reports of a request is
read from other octets than the standard says. -/

namespace OtDetection.Dnp3Control
open Octets Dnp3Link Dnp3Application Dnp3Message

/-! ## The standard -/

def standardField (qualifier : U8) : RangeField :=
  match (qualifier &&& 0x0F#8).toNat with
  | 0 => .startStop 1
  | 1 => .startStop 2
  | 2 => .startStop 4
  | 7 => .count 1
  | 8 => .count 2
  | 9 => .count 4
  | _ => .none

def indexWidth (qualifier : U8) : ℕ :=
  match ((qualifier >>> 4) &&& 0x07#8).toNat with
  | 1 => 1
  | 2 => 2
  | _ => 0

def littleOctets : ℕ → ℕ → List U8
  | 0, _ => []
  | width + 1, n => BitVec.ofNat 8 n :: littleOctets width (n / 256)

structure Crob where
  octets : List U8
  length_eq : octets.length = 11

def Crob.controlCode (block : Crob) : U8 := octet block.octets 0

/-- A block with the index of the point that it controls. -/
structure Point where
  index : ℕ
  block : Crob

/-- The field holds its range or count, and a prefix its index. -/
def Holds (qualifier : U8) (points : List Point) : Prop :=
  match standardField qualifier with
  | .startStop width => ∃ start, points.map Point.index = List.range' start points.length ∧
      start + points.length ≤ 256 ^ width
  | .count width => points.length < 256 ^ width ∧
      ∀ point ∈ points, point.index < 256 ^ indexWidth qualifier
  | .none => False

/-- A request for group 12 variation 1. -/
structure ControlRequest where
  function : U8
  qualifier : U8
  first : Point
  others : List Point
  is_control : 3 ≤ function.toNat ∧ function.toNat ≤ 6
  is_standard : qualifier = 0x00#8 ∨ qualifier = 0x01#8 ∨ qualifier = 0x17#8 ∨ qualifier = 0x28#8
  holds : Holds qualifier (first :: others)

namespace ControlRequest

variable (request : ControlRequest)

def points : List Point := request.first :: request.others

def size : ℕ := request.points.length

def stop : ℕ := request.first.index + request.others.length

def fieldOctets : List U8 :=
  match standardField request.qualifier with
  | .startStop width => littleOctets width request.first.index ++ littleOctets width request.stop
  | .count width => littleOctets width request.size
  | .none => []

def pointOctets (point : Point) : List U8 :=
  littleOctets (indexWidth request.qualifier) point.index ++ point.block.octets

def objects : List U8 :=
  0x0C#8 :: 0x01#8 :: request.qualifier ::
    (request.fieldOctets ++ request.points.flatMap request.pointOctets)

def userData (transport control : U8) : List U8 :=
  transport :: control :: request.function :: request.objects

theorem userData_eq_message (transport control : U8) :
    request.userData transport control =
      message transport control request.function 0#16 request.objects := by
  have request_function : ¬ isResponse request.function := by
    have bound := request.is_control.2
    rintro (response | response)
    · rw [response] at bound
      exact absurd bound (by decide)
    · rw [response] at bound
      exact absurd bound (by decide)
  rw [message, indications, if_neg request_function, List.nil_append]
  rfl

end ControlRequest

@[simp] theorem littleOctets_length (width n : ℕ) : (littleOctets width n).length = width := by
  induction width generalizing n with
  | zero => rfl
  | succ width ih => rw [littleOctets, List.length_cons, ih]

theorem littleEndian_littleOctets {width n : ℕ} (h : n < 256 ^ width) :
    littleEndian (littleOctets width n) = n := by
  induction width generalizing n with
  | zero =>
    rw [pow_zero] at h
    rw [littleOctets, littleEndian_nil]
    omega
  | succ width ih =>
    have rest : n / 256 < 256 ^ width := by
      rw [pow_succ] at h
      omega
    rw [littleOctets, littleEndian_cons, ih rest, BitVec.toNat_ofNat]
    omega

theorem littleEndian_append (low high : List U8) :
    littleEndian (low ++ high) = littleEndian low + 256 ^ low.length * littleEndian high := by
  rw [littleEndian, List.map_append, Nat.ofDigits_append, List.length_map]
  rfl

/-! ## The decoder -/

theorem first_of_unfragmented :
    ∀ transport : U8, transport &&& 0xC0#8 = 0xC0#8 → transport &&& 0x40#8 ≠ 0#8 := by
  decide +kernel

theorem event_range {frame : LinkFrame} {transport control function qualifier : U8}
    {start stop rest : List U8} {width : ℕ} (named : rangeField qualifier = .startStop width)
    (startLength : start.length = width) (stopLength : stop.length = width)
    (unfragmented : transport &&& 0xC0#8 = 0xC0#8)
    (carried : frame.userData = message transport control function 0#16
      (0x0C#8 :: 0x01#8 :: qualifier :: (start ++ (stop ++ rest)))) :
    ∃ e n, event frame = some e ∧ e.objectGroup = some 0x0C#8 ∧ e.objectVariation = some 0x01#8 ∧
      e.objectCount = some n ∧
      n.toNat = min (littleEndian stop - littleEndian start + 1) (2 ^ 32 - 1) ∧
      e.controlCode = rest.head? := by
  have complete : width + width ≤ (start ++ (stop ++ rest)).length := by
    simp only [List.length_append]
    omega
  obtain ⟨low, high, counted, lowValue, highValue⟩ := (objectCount_startStop named _).1 complete
  have behind : (objectCount qualifier (start ++ (stop ++ rest))).2 = rest := by
    have size : (rangeField qualifier).size = width + width := by rw [named]; rfl
    rw [objectCount_rest, size, if_pos complete, ← List.append_assoc, List.drop_left']
    rw [List.length_append, startLength, stopLength]
  have startSlice : slice (start ++ (stop ++ rest)) 0 (0 + width) = start := by
    rw [slice, List.drop_zero, Nat.add_sub_cancel_left, List.take_left' startLength]
  have stopSlice : slice (start ++ (stop ++ rest)) width (width + width) = stop := by
    rw [slice, Nat.add_sub_cancel_left, List.drop_left' startLength, List.take_left' stopLength]
  have yields := event_message carried
  rw [if_neg (first_of_unfragmented transport unfragmented), parseObjects_cons, if_pos rfl,
    counted, behind] at yields
  refine ⟨_, rangeCount low high, yields, rfl, rfl, rfl, ?_, rfl⟩
  rw [rangeCount_toNat, ← lowValue, ← highValue, startSlice, stopSlice]

/-- The event tells the blocks, their number and what the first one asks for. -/
structure Tells (request : ControlRequest) (event : Event) : Prop where
  group : event.objectGroup = some 0x0C#8
  variation : event.objectVariation = some 0x01#8
  count : event.objectCount.map BitVec.toNat = some request.size
  controlCode : event.controlCode = some request.first.block.controlCode

/-- The octets that the decoder reads agree with the standard's: always for a range of
octets, else only when others happen to have the right values. -/
structure Coincides (request : ControlRequest) : Prop where
  range : request.qualifier = 0x01#8 →
    request.first.index / 256 - request.first.index % 256 + 1 = request.size ∧
    request.stop % 256 = request.first.block.controlCode.toNat
  count : request.qualifier = 0x17#8 →
    littleEndian (request.first.block.octets.take 2) - (request.size + 256 * request.first.index)
      + 1 = request.size ∧
    octet request.first.block.octets 2 = request.first.block.controlCode
  wideCount : request.qualifier = 0x28#8 →
    littleEndian (request.first.block.octets.take 4) - (request.size + 65536 * request.first.index)
      + 1 = request.size ∧
    octet request.first.block.octets 4 = request.first.block.controlCode

theorem tells_of_range {request : ControlRequest} {frame : LinkFrame} {transport control : U8}
    {start stop rest : List U8} {width : ℕ}
    (named : rangeField request.qualifier = .startStop width) (startLength : start.length = width)
    (stopLength : stop.length = width) (unfragmented : transport &&& 0xC0#8 = 0xC0#8)
    (small : request.size < 2 ^ 32 - 1)
    (apart : request.fieldOctets ++ request.points.flatMap request.pointOctets =
      start ++ (stop ++ rest))
    (carried : frame.userData = message transport control request.function 0#16 request.objects) :
    (∃ e, event frame = some e ∧ Tells request e) ↔
      littleEndian stop - littleEndian start + 1 = request.size ∧
        rest.head? = some request.first.block.controlCode := by
  rw [ControlRequest.objects, apart] at carried
  obtain ⟨e, n, yields, group, variation, count, value, code⟩ :=
    event_range named startLength stopLength unfragmented carried
  rw [yields, ← code]
  constructor
  · rintro ⟨_, ⟨⟩, tells⟩
    have counted := tells.count
    rw [count, Option.map_some, Option.some.injEq, value] at counted
    exact ⟨by omega, tells.controlCode⟩
  · rintro ⟨counted, controlled⟩
    refine ⟨e, rfl, group, variation, ?_, controlled⟩
    rw [count, Option.map_some, value]
    congr 1
    omega

theorem length_le_flatMap {α β : Type*} {f : α → List β} (items : List α)
    (some : ∀ item, 0 < (f item).length) : items.length ≤ (items.flatMap f).length := by
  induction items with
  | nil => exact Nat.le_refl 0
  | cons item items ih =>
    have here := some item
    rw [List.flatMap_cons, List.length_append, List.length_cons]
    omega

theorem size_le (request : ControlRequest) : request.size ≤ request.objects.length := by
  have blocks := length_le_flatMap (f := request.pointOctets) request.points fun point => by
    rw [ControlRequest.pointOctets, List.length_append, point.block.length_eq]
    omega
  rw [ControlRequest.objects, List.length_cons, List.length_cons, List.length_cons,
    List.length_append, ControlRequest.size]
  omega

theorem stop_lt (request : ControlRequest) {width : ℕ}
    (field : standardField request.qualifier = .startStop width) : request.stop < 256 ^ width := by
  have holds := request.holds
  rw [Holds, field] at holds
  obtain ⟨start, indices, bound⟩ := holds
  rw [List.length_cons] at indices bound
  have first : request.first.index = start := (List.cons.inj indices).1
  rw [ControlRequest.stop, first]
  omega

theorem count_lt (request : ControlRequest) {width : ℕ}
    (field : standardField request.qualifier = .count width) :
    request.size < 256 ^ width ∧ request.first.index < 256 ^ indexWidth request.qualifier := by
  have holds := request.holds
  rw [Holds, field] at holds
  exact ⟨holds.1, holds.2 _ List.mem_cons_self⟩

theorem blocks_eq (request : ControlRequest) : request.points.flatMap request.pointOctets =
    littleOctets (indexWidth request.qualifier) request.first.index ++
      (request.first.block.octets ++ request.others.flatMap request.pointOctets) := by
  rw [ControlRequest.points, List.flatMap_cons, ControlRequest.pointOctets, List.append_assoc]

theorem Crob.head?_drop (block : Crob) {n : ℕ} (inside : n < 11) (rest : List U8) :
    (block.octets.drop n ++ rest).head? = some (octet block.octets n) := by
  have length := block.length_eq
  rw [List.head?_append, List.head?_drop, getElem?_eq_octet (by omega), Option.some_or]

theorem tells_of_count (request : ControlRequest) {frame : LinkFrame} {transport control : U8}
    {width : ℕ} (named : rangeField request.qualifier = .startStop (width + width))
    (field : standardField request.qualifier = .count width)
    (indexed : indexWidth request.qualifier = width) (short : width + width < 11)
    (unfragmented : transport &&& 0xC0#8 = 0xC0#8) (small : request.size < 2 ^ 32 - 1)
    (carried : frame.userData = message transport control request.function 0#16 request.objects) :
    (∃ e, event frame = some e ∧ Tells request e) ↔
      littleEndian (request.first.block.octets.take (width + width)) -
          (request.size + 256 ^ width * request.first.index) + 1 = request.size ∧
        octet request.first.block.octets (width + width) = request.first.block.controlCode := by
  have apart : request.fieldOctets ++ request.points.flatMap request.pointOctets =
      (littleOctets width request.size ++ littleOctets width request.first.index) ++
        (request.first.block.octets.take (width + width) ++
          (request.first.block.octets.drop (width + width) ++
            request.others.flatMap request.pointOctets)) := by
    rw [blocks_eq, indexed, ControlRequest.fieldOctets, field, ← List.append_assoc (List.take _ _),
      List.take_append_drop, List.append_assoc]
  have startLength : (littleOctets width request.size ++
      littleOctets width request.first.index).length = width + width := by
    rw [List.length_append, littleOctets_length, littleOctets_length]
  have stopLength : (request.first.block.octets.take (width + width)).length = width + width := by
    rw [List.length_take, request.first.block.length_eq]
    omega
  obtain ⟨counted, index⟩ := count_lt request field
  rw [indexed] at index
  rw [tells_of_range named startLength stopLength unfragmented small apart carried,
    littleEndian_append, littleEndian_littleOctets counted, littleEndian_littleOctets index,
    littleOctets_length, Crob.head?_drop _ short, Option.some.injEq]

theorem head?_blocks (request : ControlRequest) :
    (request.first.block.octets ++ request.others.flatMap request.pointOctets).head? =
      some request.first.block.controlCode :=
  @Crob.head?_drop request.first.block 0 (by decide) _

theorem stop_eq (request : ControlRequest) :
    request.stop = request.first.index + request.size - 1 := rfl

theorem size_pos (request : ControlRequest) : 0 < request.size := Nat.succ_pos _

theorem tells_of_startStop (request : ControlRequest) {frame : LinkFrame} {transport control : U8}
    (named : rangeField request.qualifier = .startStop 1)
    (field : standardField request.qualifier = .startStop 1)
    (width : indexWidth request.qualifier = 0)
    (unfragmented : transport &&& 0xC0#8 = 0xC0#8) (small : request.size < 2 ^ 32 - 1)
    (carried : frame.userData = message transport control request.function 0#16 request.objects) :
    ∃ e, event frame = some e ∧ Tells request e := by
  have apart : request.fieldOctets ++ request.points.flatMap request.pointOctets =
      littleOctets 1 request.first.index ++ (littleOctets 1 request.stop ++
        (request.first.block.octets ++ request.others.flatMap request.pointOctets)) := by
    rw [blocks_eq, width, ControlRequest.fieldOctets, field]
    rfl
  have last := stop_lt request field
  have size := stop_eq request
  have positive := size_pos request
  rw [tells_of_range named rfl rfl unfragmented small apart carried, head?_blocks,
    littleEndian_littleOctets last, littleEndian_littleOctets (by omega)]
  exact ⟨by omega, rfl⟩

theorem tells_of_wideStartStop (request : ControlRequest) {frame : LinkFrame}
    {transport control : U8}
    (named : rangeField request.qualifier = .startStop 1)
    (field : standardField request.qualifier = .startStop 2)
    (width : indexWidth request.qualifier = 0)
    (unfragmented : transport &&& 0xC0#8 = 0xC0#8) (small : request.size < 2 ^ 32 - 1)
    (carried : frame.userData = message transport control request.function 0#16 request.objects) :
    (∃ e, event frame = some e ∧ Tells request e) ↔
      request.first.index / 256 - request.first.index % 256 + 1 = request.size ∧
        request.stop % 256 = request.first.block.controlCode.toNat := by
  have apart : request.fieldOctets ++ request.points.flatMap request.pointOctets =
      [BitVec.ofNat 8 request.first.index] ++ ([BitVec.ofNat 8 (request.first.index / 256)] ++
        (littleOctets 2 request.stop ++ (request.first.block.octets ++
          request.others.flatMap request.pointOctets))) := by
    rw [blocks_eq, width, ControlRequest.fieldOctets, field]
    rfl
  have last := stop_lt request field
  have size := stop_eq request
  have positive := size_pos request
  have high : littleEndian [BitVec.ofNat 8 (request.first.index / 256)] =
      request.first.index / 256 := by
    rw [littleEndian_cons, littleEndian_nil, BitVec.toNat_ofNat]
    omega
  have low : littleEndian [BitVec.ofNat 8 request.first.index] = request.first.index % 256 := by
    rw [littleEndian_cons, littleEndian_nil, BitVec.toNat_ofNat]
    omega
  have first : (littleOctets 2 request.stop ++ (request.first.block.octets ++
      request.others.flatMap request.pointOctets)).head? =
        some request.first.block.controlCode ↔
      request.stop % 256 = request.first.block.controlCode.toNat := by
    rw [littleOctets, List.cons_append, List.head?_cons, Option.some.injEq, ← BitVec.toNat_inj,
      BitVec.toNat_ofNat]
  rw [tells_of_range named rfl rfl unfragmented small apart carried, high, low, first]

theorem tells_iff (request : ControlRequest) {frame : LinkFrame} {transport control : U8}
    (unfragmented : transport &&& 0xC0#8 = 0xC0#8) (small : request.size < 2 ^ 32 - 1)
    (carried : frame.userData = message transport control request.function 0#16 request.objects) :
    (∃ e, event frame = some e ∧ Tells request e) ↔ Coincides request := by
  rcases request.is_standard with standard | standard | standard | standard
  · refine iff_of_true (@tells_of_startStop request frame transport control
      (by rw [standard]; rfl) (by rw [standard]; rfl) (by rw [standard]; rfl) unfragmented small
      carried) ⟨?_, ?_, ?_⟩
    all_goals exact fun other => absurd (standard.symm.trans other) (by decide)
  · rw [@tells_of_wideStartStop request frame transport control (by rw [standard]; rfl)
      (by rw [standard]; rfl) (by rw [standard]; rfl) unfragmented small carried]
    refine ⟨fun same => ⟨fun _ => same, ?_, ?_⟩, fun coincides => coincides.range standard⟩
    all_goals exact fun other => absurd (standard.symm.trans other) (by decide)
  · -- A count and an index of one octet each, and of two octets each.
    rw [@tells_of_count request frame transport control 1 (by rw [standard]; rfl)
      (by rw [standard]; rfl) (by rw [standard]; rfl) (by decide) unfragmented small carried]
    refine ⟨fun same => ⟨?_, fun _ => same, ?_⟩, fun coincides => coincides.count standard⟩
    all_goals exact fun other => absurd (standard.symm.trans other) (by decide)
  · rw [@tells_of_count request frame transport control 2 (by rw [standard]; rfl)
      (by rw [standard]; rfl) (by rw [standard]; rfl) (by decide) unfragmented small carried]
    refine ⟨fun same => ⟨?_, ?_, fun _ => same⟩, fun coincides => coincides.wideCount standard⟩
    all_goals exact fun other => absurd (standard.symm.trans other) (by decide)

/-- Exactly when a control request in one link frame is decoded as it is laid out. -/
theorem event_tells_iff (request : ControlRequest) (linkControl : U8) (destination source : U16)
    {transport control : U8} (unfragmented : transport &&& 0xC0#8 = 0xC0#8)
    (short : (request.userData transport control).length ≤ 250) :
    (∃ frame n e, parseFrame (encodeFrame linkControl destination source
        (request.userData transport control)) = .ok (frame, n) ∧
      event frame = some e ∧ Tells request e) ↔ Coincides request := by
  have small : request.size < 2 ^ 32 - 1 := by
    have fewer := size_le request
    simp only [ControlRequest.userData, List.length_cons] at short
    omega
  let frame : LinkFrame := ⟨Control.fromOctet linkControl, destination, source,
    request.userData transport control⟩
  have parsed : parseFrame (encodeFrame linkControl destination source frame.userData) =
      .ok (frame, (encodeFrame linkControl destination source frame.userData).length) :=
    parseFrame_eq_ok_iff.mpr ⟨linkControl, destination, source, frame.userData, [], short,
      (List.append_nil _).symm, rfl, rfl⟩
  have carried : frame.userData =
      message transport control request.function 0#16 request.objects :=
    request.userData_eq_message transport control
  rw [← tells_iff request unfragmented small carried]
  constructor
  · rintro ⟨_, _, e, decoded, yields, tells⟩
    rw [parsed] at decoded
    obtain ⟨rfl, -⟩ := Prod.mk.inj (Except.ok.inj decoded)
    exact ⟨e, yields, tells⟩
  · rintro ⟨e, yields, tells⟩
    exact ⟨frame, _, e, parsed, yields, tells⟩

/-! A pulse of 100 milliseconds to point 0. -/

def pulse : Point := ⟨0, ⟨[0x03, 0x01, 0x64, 0x00, 0x00, 0x00, 0x64, 0x00, 0x00, 0x00, 0x00], rfl⟩⟩

def pulseRange : ControlRequest :=
  ⟨5, 0x00, pulse, [], by decide, .inl rfl, 0, rfl, by decide⟩

def pulseCount : ControlRequest :=
  ⟨5, 0x17, pulse, [], by decide, .inr (.inr (.inl rfl)), by decide, by decide⟩

theorem event_tells_range :
    ∃ frame n e,
      parseFrame (encodeFrame 0x44 1 3 (pulseRange.userData 0xC0 0xC0)) = .ok (frame, n) ∧
      event frame = some e ∧ Tells pulseRange e := by
  refine (event_tells_iff pulseRange 0x44 1 3 (by decide) (by decide)).mpr ⟨?_, ?_, ?_⟩
  all_goals exact fun other => absurd other (by decide)

/-- The one block with code 3 is reported as 259 blocks with code 100. -/
theorem event_mistells_count :
    ∃ frame n e,
      parseFrame (encodeFrame 0x44 1 3 (pulseCount.userData 0xC0 0xC0)) = .ok (frame, n) ∧
      event frame = some e ∧ pulseCount.size = 1 ∧ pulseCount.first.block.controlCode = 0x03 ∧
      e.objectCount = some 259 ∧ e.controlCode = some 0x64 ∧ ¬ Tells pulseCount e := by
  refine ⟨⟨Control.fromOctet 0x44, 1, 3, pulseCount.userData 0xC0 0xC0⟩, _, _,
    parseFrame_eq_ok_iff.mpr ⟨0x44, 1, 3, pulseCount.userData 0xC0 0xC0, [], by decide,
      (List.append_nil _).symm, rfl, rfl⟩, rfl, rfl, rfl, rfl, rfl, fun tells => ?_⟩
  exact absurd tells.controlCode (by decide)

end OtDetection.Dnp3Control
