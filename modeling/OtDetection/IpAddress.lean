import OtDetection.PyNumber
import Mathlib.Data.Nat.Bitwise

/-! Addresses and networks as `ipaddress` reads them. An address is an integer of the
width of its version; a network is a prefix without host bits. -/

namespace OtDetection.IpAddress
open PyText PyNumber

inductive Version
  | four
  | six
  deriving DecidableEq, Repr

def Version.width : Version → ℕ
  | .four => 32
  | .six => 128

structure Address where
  version : Version
  number : ℕ
  deriving DecidableEq, Repr

structure Network where
  version : Version
  number : ℕ
  prefixLength : ℕ
  deriving DecidableEq, Repr

def Network.contains (network : Network) (address : Address) : Bool :=
  address.version = network.version ∧
    address.number >>> (network.version.width - network.prefixLength) =
      network.number >>> (network.version.width - network.prefixLength)

/-! ## Addresses -/

/-- A part of a dotted quad: no leading zero, at most 255. -/
def octet4 (text : Text) : Option ℕ :=
  if text ≠ [] ∧ text.all isDigit ∧ text.length ≤ 3 ∧ (text = codes "0" ∨ text.head? ≠ some 0x30) ∧
    digitsValue text ≤ 255 then some (digitsValue text) else none

def number4 (text : Text) : Option ℕ := do
  let octets ← (text.splitOn 0x2E).mapM octet4
  if octets.length = 4 then some (octets.foldl (fun n octet => n * 256 + octet) 0) else none

def hexDigitValue (c : ℕ) : Option ℕ :=
  if 0x30 ≤ c ∧ c ≤ 0x39 then some (c - 0x30)
  else if 0x41 ≤ c ∧ c ≤ 0x46 then some (c - 0x37)
  else if 0x61 ≤ c ∧ c ≤ 0x66 then some (c - 0x57)
  else none

def hextet (text : Text) : Option ℕ := do
  let digits ← text.mapM hexDigitValue
  if digits ≠ [] ∧ digits.length ≤ 4 then some (digits.foldl (fun n digit => n * 16 + digit) 0)
  else none

def parts6 (text : Text) : Option (List Text) :=
  let parts := text.splitOn 0x3A
  if parts.length < 3 then none
  else
    let last := parts.getLastD []
    if 0x2E ∈ last then
      (number4 last).map fun quad =>
        parts.dropLast ++ [hexText 4 (quad / 0x10000), hexText 4 (quad % 0x10000)]
    else some parts

/-- The number of eight hextets, with zeros for the ones that `::` skips. -/
def number6 (text : Text) : Option ℕ := do
  let parts ← parts6 text
  let inner := (parts.drop 1).dropLast
  let ends ← if parts.length > 9 ∨ inner.count [] > 1 then none
    else if inner.count [] = 1 then
      let high := parts.take (inner.idxOf [] + 1)
      let low := parts.drop (inner.idxOf [] + 2)
      -- An empty part at an end is one half of a `::` there.
      if (high.head? = some [] ∧ high.length > 1) ∨ (low.getLast? = some [] ∧ low.length > 1) then
        none
      else some (high.filter (· ≠ []), low.filter (· ≠ []))
    else if parts.length = 8 then some (parts, [])
    else none
  let (high, low) := ends
  if inner.count [] = 1 ∧ high.length + low.length > 7 then none
  let high ← high.mapM hextet
  let low ← low.mapM hextet
  let hextets := high ++ List.replicate (8 - (high.length + low.length)) 0 ++ low
  some (hextets.foldl (fun n part => n * 0x10000 + part) 0)

def splitScope (text : Text) : Option Text :=
  match text.splitOn 0x25 with
  | [address] => some address
  | [address, scope] => if scope = [] then none else some address
  | _ => none

def ipAddress (text : Text) : Option Address :=
  match number4 text with
  | some number => some ⟨.four, number⟩
  | none =>
    if 0x2F ∈ text then none
    else ((splitScope text).bind number6).map fun number => ⟨.six, number⟩

/-! ## Networks -/

def prefixOfText (version : Version) (text : Text) : Option ℕ :=
  if text ≠ [] ∧ text.all isDigit ∧ digitsValue text ≤ version.width ∧ text.length ≤ 4300 then
    some (digitsValue text)
  else none

def prefixOfMask (mask : ℕ) : Option ℕ :=
  match (List.range 33).find? fun length => mask = 2 ^ 32 - 2 ^ (32 - length) with
  | some length => some length
  | none => (List.range 33).find? fun length => 2 ^ 32 - 1 - mask = 2 ^ 32 - 2 ^ (32 - length)

def prefixLength (version : Version) (text : Text) : Option ℕ :=
  match prefixOfText version text with
  | some length => some length
  | none => if version = .four then (number4 text).bind prefixOfMask else none

/-- `ip_network(text)`, which refuses host bits. -/
def ipNetwork (text : Text) : Option Network := do
  let (address, mask) ← match text.splitOn 0x2F with
    | [address] => some (address, none)
    | [address, mask] => some (address, some mask)
    | _ => none
  let ⟨version, number⟩ ← ipAddress address
  let length ← match mask with
    | none => some version.width
    | some mask => prefixLength version mask
  if number % 2 ^ (version.width - length) = 0 then some ⟨version, number, length⟩ else none

end OtDetection.IpAddress
