import OtDetection.Dnp3Application
import OtDetection.Dnp3Builder
import Mathlib.Data.Nat.Digits.Defs

/-! Application messages in link frames. A first fragment carries a transport octet, an
application header and its objects; the event of the frame says what these say. Of the
objects only the first header is decoded, with the range or count that its qualifier
announces to the decoder. -/

namespace OtDetection.Dnp3Message
open Octets Dnp3Link Dnp3Application Dnp3Builder EventText

/-! ## Messages -/

def dnp3Application (function : ℕ) (objects : List U8) (responseIin : Option ℕ) :
    Except PyError (List U8) := do
  let transport := 0xC0
  let application := 0xC0
  let body ← pyBytes [application, function]
  let iin ← (responseIin.map toBytesLittle).getD (.ok [])
  let first ← pyBytes [transport]
  .ok (first ++ (body ++ iin) ++ objects)

def indications (function : U8) (iin : U16) : List U8 :=
  if isResponse function then u16ToLe iin else []

def message (transport control function : U8) (iin : U16) (objects : List U8) : List U8 :=
  transport :: control :: function :: (indications function iin ++ objects)

theorem dnp3Application_eq (function : U8) (iin : U16) (objects : List U8) :
    dnp3Application function.toNat objects (if isResponse function then some iin.toNat else none) =
      .ok (message 0xC0#8 0xC0#8 function iin objects) := by
  have small := function.isLt
  by_cases response : isResponse function
  · simp [dnp3Application, pyBytes, small, response, toBytesLittle_toNat, message, indications,
      bind, Except.bind]
  · simp [dnp3Application, pyBytes, small, response, message, indications, bind, Except.bind]

theorem parse_message (control function : U8) (iin : U16) (objects : List U8) :
    parse (control :: function :: (indications function iin ++ objects)) =
      some (header control function (if isResponse function then some iin else none)
        (parseObjects objects)) := by
  by_cases response : isResponse function
  · simp [parse, indications, response, octet, u16ToLe]
  · simp [parse, indications, response, octet]

theorem event_message {frame : LinkFrame} {transport control function : U8} {iin : U16}
    {objects : List U8}
    (carried : frame.userData = message transport control function iin objects) :
    event frame =
      if transport &&& 0x40#8 = 0#8 then none
      else some (eventOf frame (TransportHeader.fromOctet transport)
        (header control function (if isResponse function then some iin else none)
          (parseObjects objects))) := by
  have first : Dnp3Application.transport frame = some (TransportHeader.fromOctet transport) := by
    rw [Dnp3Application.transport, carried]
    rfl
  rw [event, application, first, carried]
  by_cases fir : transport &&& 0x40#8 = 0#8
  · simp [TransportHeader.fromOctet, fir]
  · have parsed := parse_message control function iin objects
    simp [TransportHeader.fromOctet, fir, message, parsed]

theorem fromOctet_sequence (octet : U8) :
    (TransportHeader.fromOctet octet).sequence.toNat = octet.toNat % 64 := by
  rw [TransportHeader.fromOctet, BitVec.toNat_and]
  exact Nat.and_two_pow_sub_one_eq_mod octet.toNat 6

theorem header_sequence (control function : U8) (iin : Option U16)
    (objects : List ObjectHeader × Option U8) :
    (header control function iin objects).sequence.toNat = control.toNat % 16 := by
  rw [header, BitVec.toNat_and]
  exact Nat.and_two_pow_sub_one_eq_mod control.toNat 4

theorem parseObjects_of_short {objects : List U8} (short : objects.length < 3) :
    parseObjects objects = ([], none) := if_pos short

theorem parseObjects_cons (group variation qualifier : U8) (rest : List U8) :
    parseObjects (group :: variation :: qualifier :: rest) =
      ([⟨group, variation, qualifier, (objectCount qualifier rest).1⟩],
        if group = 12#8 then (objectCount qualifier rest).2.head? else none) := by
  simp [parseObjects, octet]

/-- The event says what the frame and its message say. -/
structure Reports (destination source : U16) (transport control function : U8) (iin : U16)
    (objects : List U8) (event : Event) : Prop where
  linkDestination : event.linkDestination = destination
  linkSource : event.linkSource = source
  functionCode : event.functionCode = function
  direction : event.direction = .response ↔ function = 129#8 ∨ function = 130#8
  indications : event.iin = if function = 129#8 ∨ function = 130#8 then some iin else none
  transportSequence : event.transportSequence.toNat = transport.toNat % 64
  applicationSequence : event.applicationSequence.toNat = control.toNat % 16
  object : 3 ≤ objects.length →
    event.objectGroup = objects[0]? ∧ event.objectVariation = objects[1]?
  noObject : objects.length < 3 → event.objectGroup = none ∧ event.objectVariation = none ∧
    event.objectCount = none ∧ event.controlCode = none

theorem reports_eventOf (frame : LinkFrame) (transport control function : U8) (iin : U16)
    (objects : List U8) :
    Reports frame.destination frame.source transport control function iin objects
      (eventOf frame (TransportHeader.fromOctet transport)
        (header control function (if isResponse function then some iin else none)
          (parseObjects objects))) where
  linkDestination := rfl
  linkSource := rfl
  functionCode := rfl
  direction := by
    change (if isResponse function then Direction.response else .request) = .response ↔
      isResponse function
    split
    · simp_all
    · simp_all
  indications := rfl
  transportSequence := fromOctet_sequence transport
  applicationSequence := header_sequence control function none ([], none)
  object := by
    intro long
    obtain ⟨group, variation, qualifier, rest, rfl⟩ : ∃ group variation qualifier rest,
        objects = group :: variation :: qualifier :: rest := by
      rcases objects with _ | ⟨group, _ | ⟨variation, _ | ⟨qualifier, rest⟩⟩⟩
      · simp at long
      · simp at long
      · simp at long
      · exact ⟨group, variation, qualifier, rest, rfl⟩
    rw [parseObjects_cons]
    exact ⟨rfl, rfl⟩
  noObject := by
    intro short
    rw [parseObjects_of_short short]
    exact ⟨rfl, rfl, rfl, rfl⟩

/-- A frame yields exactly the message it carries, whatever follows it. -/
theorem event_dnp3Frame (linkControl : U8) (destination source : U16)
    (transport control function : U8) (iin : U16) (objects tail : List U8)
    (short : (message transport control function iin objects).length ≤ 250) :
    ∃ encoded frame, dnp3Frame linkControl.toNat destination.toNat source.toNat
        (message transport control function iin objects) = .ok encoded ∧
      parseFrame (encoded ++ tail) = .ok (frame, encoded.length) ∧
      (transport &&& 0x40#8 = 0#8 → event frame = none) ∧
      (transport &&& 0x40#8 ≠ 0#8 → ∃ e, event frame = some e ∧
        Reports destination source transport control function iin objects e) := by
  let frame : LinkFrame := ⟨Control.fromOctet linkControl, destination, source,
    message transport control function iin objects⟩
  have yields := @event_message frame _ _ _ _ _ rfl
  refine ⟨_, frame, dnp3Frame_eq linkControl destination source short, ?_, ?_, ?_⟩
  · exact parseFrame_eq_ok_iff.mpr
      ⟨linkControl, destination, source, _, tail, short, rfl, rfl, rfl⟩
  · intro continued
    rw [yields, if_pos continued]
  · intro fir
    rw [yields, if_neg fir]
    exact ⟨_, rfl, reports_eventOf frame transport control function iin objects⟩

/-- A response with clear indications, as the builders make it. -/
theorem event_dnp3Frame_response :
    ∃ encoded frame, (dnp3Application 129 [] (some 0) >>= dnp3Frame 0xC4 3 1) = .ok encoded ∧
      parseFrame (encoded ++ []) = .ok (frame, encoded.length) ∧
      ∃ e, event frame = some e ∧ Reports 3 1 0xC0 0xC0 129 0 [] e := by
  obtain ⟨encoded, frame, built, parsed, -, yields⟩ :=
    event_dnp3Frame 0xC4 3 1 0xC0 0xC0 129 0 [] [] (by decide)
  have carried : dnp3Application 129 [] (some 0) = .ok (message 0xC0 0xC0 129 0 []) :=
    dnp3Application_eq 129 0 []
  refine ⟨encoded, frame, ?_, parsed, yields (by decide)⟩
  rw [carried]
  exact built

/-! ## The range or count of a qualifier -/

inductive RangeField
  | startStop (width : ℕ)
  | count (width : ℕ)
  | none
  deriving DecidableEq

def RangeField.size : RangeField → ℕ
  | startStop width => width + width
  | count width => width
  | none => 0

def rangeField (qualifier : U8) : RangeField :=
  match (qualifier >>> 4).toNat with
  | 0 => .startStop 1
  | 1 => .startStop 2
  | 2 => .startStop 4
  | 3 => .count 1
  | 4 => .count 2
  | 5 => .count 4
  | _ => .none

def littleEndian (octets : List U8) : ℕ := Nat.ofDigits 256 (octets.map BitVec.toNat)

@[simp] theorem littleEndian_nil : littleEndian [] = 0 := rfl

@[simp] theorem littleEndian_cons (first : U8) (octets : List U8) :
    littleEndian (first :: octets) = first.toNat + 256 * littleEndian octets := by
  rw [littleEndian, List.map_cons, Nat.ofDigits_cons]
  rfl

theorem littleEndian_slice {bytes : List U8} {i : ℕ} (width : ℕ) (inside : i < bytes.length) :
    littleEndian (slice bytes i (i + (width + 1))) =
      (octet bytes i).toNat + 256 * littleEndian (slice bytes (i + 1) (i + 1 + width)) := by
  rw [slice, drop_eq_octet_cons inside, Nat.add_sub_cancel_left, List.take_succ_cons,
    littleEndian_cons, slice, Nat.add_sub_cancel_left]

@[simp] theorem littleEndian_slice_self (bytes : List U8) (i : ℕ) :
    littleEndian (slice bytes i i) = 0 := by
  rw [slice, Nat.sub_self, List.take_zero, littleEndian_nil]

theorem rangeCount_toNat (start stop : U32) :
    (rangeCount start stop).toNat = min (stop.toNat - start.toNat + 1) (2 ^ 32 - 1) := by
  have startBound := start.isLt
  have stopBound := stop.isLt
  have difference : (saturatingSub stop start).toNat = stop.toNat - start.toNat := by
    unfold saturatingSub
    split
    · rw [BitVec.toNat_sub]
      omega
    · simp only [BitVec.toNat_ofNat]
      omega
  rw [rangeCount, saturatingAdd, difference]
  split
  · rw [BitVec.toNat_add, difference]
    simp only [BitVec.toNat_ofNat] at *
    omega
  · simp only [BitVec.toNat_ofNat, BitVec.toNat_allOnes] at *
    omega

theorem objectCount_rest (qualifier : U8) (bytes : List U8) :
    (objectCount qualifier bytes).2 =
      if (rangeField qualifier).size ≤ bytes.length then bytes.drop (rangeField qualifier).size
      else bytes := by
  unfold objectCount rangeField
  rcases (qualifier >>> 4).toNat with _ | _ | _ | _ | _ | _ | _ | n
  all_goals simp only [RangeField.size, ge_iff_le, Nat.reduceAdd]
  · split <;> rfl
  · split <;> rfl
  · split <;> rfl
  · by_cases empty : bytes.length = 0
    · rw [if_neg (by omega), if_neg (by omega)]
    · rw [if_pos empty, if_pos (by omega)]
  · split <;> rfl
  · split <;> rfl
  · rfl
  · rfl

theorem littleEndian_slice_one {bytes : List U8} {i : ℕ} (inside : i + 1 ≤ bytes.length) :
    littleEndian (slice bytes i (i + 1)) = ((octet bytes i).setWidth 32).toNat := by
  rw [littleEndian_slice 0 inside, Nat.add_zero, littleEndian_slice_self]
  simp only [BitVec.toNat_setWidth]
  omega

theorem littleEndian_slice_two {bytes : List U8} {i : ℕ} (inside : i + 2 ≤ bytes.length) :
    littleEndian (slice bytes i (i + 2)) =
      ((u16FromLe (octet bytes i) (octet bytes (i + 1))).setWidth 32).toNat := by
  rw [littleEndian_slice 1 (by omega), littleEndian_slice 0 (by omega), Nat.add_zero,
    littleEndian_slice_self, BitVec.toNat_setWidth, u16FromLe_toNat]
  omega

theorem littleEndian_slice_four {bytes : List U8} {i : ℕ} (inside : i + 4 ≤ bytes.length) :
    littleEndian (slice bytes i (i + 4)) =
      (u32FromLe (octet bytes i) (octet bytes (i + 1)) (octet bytes (i + 2))
        (octet bytes (i + 3))).toNat := by
  rw [littleEndian_slice 3 (by omega), littleEndian_slice 2 (by omega),
    littleEndian_slice 1 (by omega), littleEndian_slice 0 (by omega), Nat.add_zero,
    littleEndian_slice_self, u32FromLe_toNat]
  rfl

theorem range_read {bytes : List U8} {width : ℕ} {start stop : U32}
    (reads : width + width ≤ bytes.length →
      littleEndian (slice bytes 0 (0 + width)) = start.toNat ∧
      littleEndian (slice bytes width (width + width)) = stop.toNat)
    {counted : Option U32 × List U8}
    (branch : counted = if bytes.length ≥ width + width then
      (some (rangeCount start stop), bytes.drop (width + width)) else (none, bytes)) :
    (width + width ≤ bytes.length → ∃ start stop, counted.1 = some (rangeCount start stop) ∧
      littleEndian (slice bytes 0 (0 + width)) = start.toNat ∧
      littleEndian (slice bytes width (width + width)) = stop.toNat) ∧
    (bytes.length < width + width → counted.1 = none) := by
  subst branch
  constructor
  · intro complete
    exact ⟨start, stop, by rw [if_pos complete], reads complete⟩
  · intro cut
    rw [if_neg (by omega)]

theorem objectCount_startStop {qualifier : U8} {width : ℕ}
    (named : rangeField qualifier = .startStop width) (bytes : List U8) :
    (width + width ≤ bytes.length → ∃ start stop,
      (objectCount qualifier bytes).1 = some (rangeCount start stop) ∧
      littleEndian (slice bytes 0 (0 + width)) = start.toNat ∧
      littleEndian (slice bytes width (width + width)) = stop.toNat) ∧
    (bytes.length < width + width → (objectCount qualifier bytes).1 = none) := by
  unfold rangeField at named
  unfold objectCount
  generalize (qualifier >>> 4).toNat = form at named ⊢
  rcases form with _ | _ | _ | _ | _ | _ | _ | n
  · obtain rfl : 1 = width := RangeField.startStop.inj named
    refine range_read (fun complete => ?_) rfl
    exact ⟨littleEndian_slice_one (by omega), littleEndian_slice_one complete⟩
  · obtain rfl : 2 = width := RangeField.startStop.inj named
    refine range_read (fun complete => ?_) rfl
    exact ⟨littleEndian_slice_two (by omega), littleEndian_slice_two complete⟩
  · obtain rfl : 4 = width := RangeField.startStop.inj named
    refine range_read (fun complete => ?_) rfl
    exact ⟨littleEndian_slice_four (by omega), littleEndian_slice_four complete⟩
  all_goals cases named

/-! ## What an object header says -/

def objectOctets (bytes : List U8) : List U8 :=
  bytes.drop (if isResponse (octet bytes 1) then 4 else 2)

def rangeStart (objects : List U8) (width : ℕ) : ℕ := littleEndian (slice objects 3 (3 + width))

def rangeStop (objects : List U8) (width : ℕ) : ℕ :=
  littleEndian (slice objects (3 + width) (3 + (width + width)))

/-- A count is that of the points of its range, and a control code stands behind a
complete field of a control object. -/
structure Genuine (objects : List U8) (object : ObjectHeader) (controlCode : Option U8) :
    Prop where
  counted : ∀ width, rangeField object.qualifier = .startStop width → ∀ n ∈ object.count,
    (rangeStart objects width ≤ rangeStop objects width →
      n.toNat = min (rangeStop objects width - rangeStart objects width + 1) (2 ^ 32 - 1)) ∧
    (rangeStop objects width < rangeStart objects width → n.toNat = 0)
  controlled : ∀ code ∈ controlCode, object.group = 12#8 ∧
    3 + (rangeField object.qualifier).size ≤ objects.length ∧
    objects[3 + (rangeField object.qualifier).size]? = some code

/-- A range in order, and no octet of a cut field in the place of a control code. -/
structure Sound (objects : List U8) : Prop where
  ordered : ∀ width, rangeField (octet objects 2) = .startStop width →
    3 + (width + width) ≤ objects.length → rangeStart objects width ≤ rangeStop objects width
  complete : octet objects 0 = 12#8 → 3 < objects.length →
    3 + (rangeField (octet objects 2)).size ≤ objects.length

theorem slice_drop {α : Type*} (items : List α) (n first last : ℕ) :
    slice (items.drop n) first last = slice items (n + first) (n + last) := by
  rw [slice, slice, List.drop_drop, Nat.add_sub_add_left]

theorem counted_iff {qualifier : U8} {width : ℕ} (named : rangeField qualifier = .startStop width)
    (rest : List U8) :
    (∀ n ∈ (objectCount qualifier rest).1,
      (littleEndian (slice rest 0 (0 + width)) ≤ littleEndian (slice rest width (width + width)) →
        n.toNat = min (littleEndian (slice rest width (width + width)) -
          littleEndian (slice rest 0 (0 + width)) + 1) (2 ^ 32 - 1)) ∧
      (littleEndian (slice rest width (width + width)) < littleEndian (slice rest 0 (0 + width)) →
        n.toNat = 0)) ↔
      (width + width ≤ rest.length →
        littleEndian (slice rest 0 (0 + width)) ≤
          littleEndian (slice rest width (width + width))) := by
  obtain ⟨whole, cut⟩ := objectCount_startStop named rest
  by_cases complete : width + width ≤ rest.length
  · obtain ⟨start, stop, counted, startValue, stopValue⟩ := whole complete
    rw [counted, startValue, stopValue]
    have points := rangeCount_toNat start stop
    constructor
    · intro h _
      obtain ⟨-, inverted⟩ := h _ rfl
      by_contra order
      have none := inverted (by omega)
      omega
    · rintro order n ⟨⟩
      have ascending := order complete
      exact ⟨fun _ => points, fun inverted => by omega⟩
  · rw [cut (by omega)]
    simp [complete]

theorem controlled_iff {group qualifier : U8} {rest : List U8} :
    (∀ code ∈ if group = 12#8 then (objectCount qualifier rest).2.head? else none,
      group = 12#8 ∧ (rangeField qualifier).size ≤ rest.length ∧
        rest[(rangeField qualifier).size]? = some code) ↔
      (group = 12#8 → rest ≠ [] → (rangeField qualifier).size ≤ rest.length) := by
  rw [objectCount_rest]
  by_cases control : group = 12#8
  · by_cases complete : (rangeField qualifier).size ≤ rest.length
    · simp [control, complete]
    · rw [if_neg complete]
      cases rest with
      | nil => simp
      | cons first rest => simpa [control] using fun fits => absurd fits complete
  · simp [control]

theorem genuine_iff {group variation qualifier : U8} {rest : List U8} :
    Genuine (group :: variation :: qualifier :: rest)
        ⟨group, variation, qualifier, (objectCount qualifier rest).1⟩
        (if group = 12#8 then (objectCount qualifier rest).2.head? else none) ↔
      Sound (group :: variation :: qualifier :: rest) := by
  have start : ∀ width, rangeStart (group :: variation :: qualifier :: rest) width =
      littleEndian (slice rest 0 (0 + width)) := fun width => by
    rw [rangeStart, Nat.zero_add, ← Nat.add_zero 3, Nat.add_assoc, ← slice_drop _ 3 0]
    simp
  have stop : ∀ width, rangeStop (group :: variation :: qualifier :: rest) width =
      littleEndian (slice rest width (width + width)) := fun width => by
    rw [rangeStop, ← slice_drop _ 3 width (width + width)]
    rfl
  have behind : ∀ size, (group :: variation :: qualifier :: rest)[3 + size]? = rest[size]? :=
    fun size => by rw [Nat.add_comm 3]; rfl
  have long : ∀ size, 3 + size ≤ (group :: variation :: qualifier :: rest).length ↔
      size ≤ rest.length := fun size => by simp only [List.length_cons]; omega
  have more : 3 < (group :: variation :: qualifier :: rest).length ↔ rest ≠ [] := by
    rw [← List.length_pos_iff]
    simp only [List.length_cons]
    omega
  constructor
  · rintro ⟨counted, controlled⟩
    refine ⟨fun width named => ?_, fun control present => ?_⟩
    · have range := counted width named
      rw [start, stop] at range ⊢
      rw [long]
      exact (counted_iff named rest).mp range
    · simp only [behind, long] at controlled
      exact (long _).mpr (controlled_iff.mp controlled control (more.mp present))
  · rintro ⟨ordered, complete⟩
    refine ⟨fun width named => ?_, ?_⟩
    · have range := ordered width named
      rw [start, stop] at range ⊢
      rw [long] at range
      exact (counted_iff named rest).mpr range
    · simp only [behind, long]
      exact controlled_iff.mpr fun control present =>
        (long _).mp (complete control (more.mpr present))

/-- Exactly when the decoder fabricates nothing: the range that it reads is in order and
the field before a control code is not cut off. -/
theorem parse_genuine_iff {bytes : List U8} {header : ApplicationHeader} {object : ObjectHeader}
    (parsed : parse bytes = some header) (mem : object ∈ header.objects) :
    Genuine (objectOctets bytes) object header.controlCode ↔ Sound (objectOctets bytes) := by
  obtain ⟨control, function, iin, rfl⟩ : ∃ control function iin,
      header = Dnp3Application.header control function iin (parseObjects (objectOctets bytes)) := by
    rw [objectOctets]
    simp only [parse] at parsed
    split_ifs at parsed with short response cut
    · exact ⟨_, _, _, by rw [if_pos response, Option.some.inj parsed]⟩
    · exact ⟨_, _, _, by rw [if_neg response, Option.some.inj parsed]⟩
  change object ∈ (parseObjects (objectOctets bytes)).1 at mem
  change Genuine _ object (parseObjects (objectOctets bytes)).2 ↔ _
  generalize objectOctets bytes = objects at mem ⊢
  rcases objects with _ | ⟨group, _ | ⟨variation, _ | ⟨qualifier, rest⟩⟩⟩
  · cases mem
  · cases mem
  · cases mem
  · rw [parseObjects_cons] at mem ⊢
    obtain rfl := List.mem_singleton.mp mem
    exact genuine_iff

theorem parse_genuine_latch :
    Genuine [0x0C, 0x01, 0x00, 0x00, 0x00, 0x03] ⟨0x0C, 0x01, 0x00, some 1⟩ (some 0x03) := by
  have parsed : parse [0xC0, 0x05, 0x0C, 0x01, 0x00, 0x00, 0x00, 0x03] =
      some (header 0xC0 0x05 none ([⟨0x0C, 0x01, 0x00, some 1⟩], some 0x03)) := rfl
  refine (parse_genuine_iff parsed (List.mem_singleton_self _)).mpr ⟨fun width named _ => ?_, ?_⟩
  · obtain rfl : 1 = width := RangeField.startStop.inj named
    decide
  · decide

/-- The points from 5 to 3 are counted as one, and the only octet of a range of two
words is reported as a control code. -/
theorem parse_fabricates :
    (parse [0xC0, 0x05, 0x0C, 0x01, 0x00, 0x05, 0x03] =
        some (header 0xC0 0x05 none ([⟨0x0C, 0x01, 0x00, some 1⟩], none)) ∧
      ¬ Genuine [0x0C, 0x01, 0x00, 0x05, 0x03] ⟨0x0C, 0x01, 0x00, some 1⟩ none) ∧
    parse [0xC0, 0x05, 0x0C, 0x01, 0x10, 0x07] =
        some (header 0xC0 0x05 none ([⟨0x0C, 0x01, 0x10, none⟩], some 0x07)) ∧
      ¬ Genuine [0x0C, 0x01, 0x10, 0x07] ⟨0x0C, 0x01, 0x10, none⟩ (some 0x07) := by
  refine ⟨⟨rfl, fun genuine => ?_⟩, rfl, fun genuine => ?_⟩
  · have counted := (genuine.counted 1 rfl 1 rfl).2 (by decide)
    cases counted
  · have complete := (genuine.controlled 0x07 rfl).2.1
    exact absurd complete (by decide)

end OtDetection.Dnp3Message
