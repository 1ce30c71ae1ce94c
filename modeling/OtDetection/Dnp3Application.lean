import OtDetection.Dnp3Link
import OtDetection.EventText

/-! DNP3 transport and application layers and the event of a link frame. The
user data starts with a transport octet, an application header and at most one
object header; only that first object header is decoded. -/

namespace OtDetection.Dnp3Application
open Octets LengthFraming Dnp3Link EventText

structure TransportHeader where
  fin : Bool
  fir : Bool
  sequence : U8
  deriving DecidableEq, Repr

def TransportHeader.fromOctet (octet : U8) : TransportHeader where
  fin := octet &&& 0x80#8 != 0#8
  fir := octet &&& 0x40#8 != 0#8
  sequence := octet &&& 0x3F#8

def functionResponse : U8 := 129#8
def functionUnsolicitedResponse : U8 := 130#8

structure ObjectHeader where
  group : U8
  variation : U8
  qualifier : U8
  count : Option U32
  deriving DecidableEq, Repr

structure ApplicationHeader where
  fin : Bool
  fir : Bool
  con : Bool
  uns : Bool
  sequence : U8
  function : U8
  iin : Option U16
  objects : List ObjectHeader
  controlCode : Option U8
  deriving DecidableEq, Repr

def functionName (function : U8) : String :=
  match function.toNat with
  | 0 => "Confirm"
  | 1 => "Read"
  | 2 => "Write"
  | 3 => "Select"
  | 4 => "Operate"
  | 5 => "Direct Operate"
  | 6 => "Direct Operate No Ack"
  | 7 => "Immediate Freeze"
  | 8 => "Immediate Freeze No Ack"
  | 9 => "Freeze and Clear"
  | 10 => "Freeze and Clear No Ack"
  | 11 => "Freeze with Time"
  | 12 => "Freeze with Time No Ack"
  | 13 => "Cold Restart"
  | 14 => "Warm Restart"
  | 15 => "Initialize Data"
  | 16 => "Initialize Application"
  | 17 => "Start Application"
  | 18 => "Stop Application"
  | 19 => "Save Configuration"
  | 20 => "Enable Unsolicited"
  | 21 => "Disable Unsolicited"
  | 22 => "Assign Class"
  | 23 => "Delay Measure"
  | 24 => "Record Current Time"
  | 25 => "Open File"
  | 26 => "Close File"
  | 27 => "Delete File"
  | 28 => "Get File Info"
  | 29 => "Authenticate File"
  | 30 => "Abort File"
  | 129 => "Response"
  | 130 => "Unsolicited Response"
  | _ => "Reserved"

/-- `u32::saturating_sub`. -/
def saturatingSub (a b : U32) : U32 := if b.toNat ≤ a.toNat then a - b else 0#32

/-- `u32::saturating_add`. -/
def saturatingAdd (a b : U32) : U32 :=
  if a.toNat + b.toNat < 2 ^ 32 then a + b else BitVec.allOnes 32

def rangeCount (start stop : U32) : U32 := saturatingAdd (saturatingSub stop start) 1#32

def objectCount (qualifier : U8) (bytes : List U8) : Option U32 × List U8 :=
  match (qualifier >>> 4).toNat with
  | 0 =>
    if bytes.length ≥ 2 then
      (some (rangeCount ((octet bytes 0).setWidth 32) ((octet bytes 1).setWidth 32)), bytes.drop 2)
    else (none, bytes)
  | 1 =>
    if bytes.length ≥ 4 then
      (some (rangeCount ((u16FromLe (octet bytes 0) (octet bytes 1)).setWidth 32)
        ((u16FromLe (octet bytes 2) (octet bytes 3)).setWidth 32)), bytes.drop 4)
    else (none, bytes)
  | 2 =>
    if bytes.length ≥ 8 then
      (some (rangeCount (u32FromLe (octet bytes 0) (octet bytes 1) (octet bytes 2) (octet bytes 3))
        (u32FromLe (octet bytes 4) (octet bytes 5) (octet bytes 6) (octet bytes 7))), bytes.drop 8)
    else (none, bytes)
  | 3 =>
    if bytes.length ≠ 0 then (some ((octet bytes 0).setWidth 32), bytes.drop 1) else (none, bytes)
  | 4 =>
    if bytes.length ≥ 2 then
      (some ((u16FromLe (octet bytes 0) (octet bytes 1)).setWidth 32), bytes.drop 2)
    else (none, bytes)
  | 5 =>
    if bytes.length ≥ 4 then
      (some (u32FromLe (octet bytes 0) (octet bytes 1) (octet bytes 2) (octet bytes 3)), bytes.drop 4)
    else (none, bytes)
  | 6 => (some 0#32, bytes)
  | _ => (none, bytes)

def parseObjects (bytes : List U8) : List ObjectHeader × Option U8 :=
  if bytes.length < 3 then ([], none)
  else
    let group := octet bytes 0
    let variation := octet bytes 1
    let qualifier := octet bytes 2
    let (count, rest) := objectCount qualifier (bytes.drop 3)
    let controlCode := if group = 12#8 then rest.head? else none
    ([⟨group, variation, qualifier, count⟩], controlCode)

def isResponse (function : U8) : Prop :=
  function = functionResponse ∨ function = functionUnsolicitedResponse

instance (function : U8) : Decidable (isResponse function) := inferInstanceAs (Decidable (_ ∨ _))

/-- The header of `parse` once its internal indications are read. -/
def header (control function : U8) (iin : Option U16) (objects : List ObjectHeader × Option U8) :
    ApplicationHeader where
  fin := control &&& 0x40#8 != 0#8
  fir := control &&& 0x80#8 != 0#8
  con := control &&& 0x20#8 != 0#8
  uns := control &&& 0x10#8 != 0#8
  sequence := control &&& 0x0F#8
  function := function
  iin := iin
  objects := objects.1
  controlCode := objects.2

def parse (bytes : List U8) : Option ApplicationHeader :=
  if bytes.length < 2 then none
  else
    let control := octet bytes 0
    let function := octet bytes 1
    if isResponse function then
      if bytes.length < 4 then none
      else some (header control function (some (u16FromLe (octet bytes 2) (octet bytes 3)))
        (parseObjects (bytes.drop 4)))
    else some (header control function none (parseObjects (bytes.drop 2)))

/-! ## The event of a frame -/

def transport (frame : LinkFrame) : Option TransportHeader :=
  frame.userData.head?.map TransportHeader.fromOctet

def application (frame : LinkFrame) : Option ApplicationHeader :=
  match transport frame with
  | none => none
  | some transport => if ¬ transport.fir then none else parse (frame.userData.drop 1)

structure Event where
  direction : Direction
  functionCode : U8
  functionName : String
  linkSource : U16
  linkDestination : U16
  linkFunction : U8
  linkFunctionName : String
  objectGroup : Option U8
  objectVariation : Option U8
  objectCount : Option U32
  controlCode : Option U8
  iin : Option U16
  transportSequence : U8
  applicationSequence : U8
  deriving DecidableEq, Repr

def eventOf (frame : LinkFrame) (transport : TransportHeader) (application : ApplicationHeader) :
    Event where
  direction := if isResponse application.function then .response else .request
  functionCode := application.function
  functionName := functionName application.function
  linkSource := frame.source
  linkDestination := frame.destination
  linkFunction := frame.control.function
  linkFunctionName := frame.control.functionName
  objectGroup := application.objects.head?.map ObjectHeader.group
  objectVariation := application.objects.head?.map ObjectHeader.variation
  objectCount := application.objects.head?.bind ObjectHeader.count
  controlCode := application.controlCode
  iin := application.iin
  transportSequence := transport.sequence
  applicationSequence := application.sequence

def event (frame : LinkFrame) : Option Event := do
  let transport ← transport frame
  let application ← application frame
  some (eventOf frame transport application)

def Event.toJson (event : Event) : List Char :=
  joinFields <|
    [textField "direction" event.direction.asStr.toList,
      numberField "function_code" event.functionCode.toNat,
      textField "function_name" event.functionName.toList,
      numberField "link_source" event.linkSource.toNat,
      numberField "link_destination" event.linkDestination.toNat,
      numberField "link_function" event.linkFunction.toNat,
      textField "link_function_name" event.linkFunctionName.toList,
      numberField "transport_sequence" event.transportSequence.toNat,
      numberField "application_sequence" event.applicationSequence.toNat] ++
    optionalField (fun group => numberField "object_group" group.toNat) event.objectGroup ++
    optionalField (fun variation => numberField "object_variation" variation.toNat)
      event.objectVariation ++
    optionalField (fun count => numberField "object_count" count.toNat) event.objectCount ++
    optionalField (fun code => numberField "control_code" code.toNat) event.controlCode ++
    optionalField (fun iin => numberField "iin" iin.toNat) event.iin

/-- Decode every complete frame in `bytes`, stopping at the first error. -/
def parseStream (bytes : List U8) : Option (List (Except LinkError LinkFrame)) :=
  streamOf parseFrame bytes

end OtDetection.Dnp3Application
