import OtDetection.PyText
import Mathlib.Data.Int.Log
import Mathlib.Data.Rat.Floor
import Mathlib.Data.List.Basic

/-! Field lookup by dotted path, and what Python's sets and dicts tell apart: numbers
go by their exact value, whichever of bool, int and float they are. -/

namespace OtDetection.FieldLookup
open PyText

/-! ## Lookup -/

def descend : PyValue → List Text → PyValue
  | node, [] => node
  | .dict items, part :: parts =>
    match items.lookup part with
    | some next => descend next parts
    | none => .none
  | _, _ :: _ => .none

def lookupField (event : Event) (field : Text) : PyValue :=
  match event.lookup field with
  | some value => value
  | none => if 0x2E ∈ field then descend (.dict event) (field.splitOn 0x2E) else .none

/-- `event.get(field)`. -/
def eventGet (event : Event) (field : String) : PyValue := (event.lookup (codes field)).getD .none

theorem mem_of_lookup {β : Type*} {entries : List (Text × β)} {name : Text} {value : β}
    (found : entries.lookup name = some value) : (name, value) ∈ entries := by
  obtain ⟨before, after, rfl, -⟩ := List.lookup_eq_some_iff.mp found
  exact List.mem_append_right before List.mem_cons_self

/-! ## Hash keys -/

def roundHalfEven (q : ℚ) : ℤ :=
  if q - ⌊q⌋ < 1 / 2 then ⌊q⌋
  else if 1 / 2 < q - ⌊q⌋ then ⌊q⌋ + 1
  else if ⌊q⌋ % 2 = 0 then ⌊q⌋ else ⌊q⌋ + 1

def nearestDouble (q : ℚ) : ℚ :=
  let ulp : ℚ := 2 ^ max (Int.log 2 q - 52) (-1074)
  roundHalfEven (q / ulp) * ulp

/-- What equality of numbers compares: the number itself, not its type. -/
inductive HashKey
  | none
  | nan
  | inf (negative : Bool)
  | number (q : ℚ)
  | str (s : Text)
  deriving DecidableEq, Repr

def floatKey : PyFloat → HashKey
  | .nan => .nan
  | .inf negative => .inf negative
  | .finite negative digits point =>
    let size : ℕ := digits.foldl (fun n d => 10 * n + d.val) 0
    let magnitude := if size = 0 then 0 else nearestDouble (size * 10 ^ (point - digits.length))
    .number (if negative then -magnitude else magnitude)

def hashKey : PyValue → Option HashKey
  | .none => some .none
  | .bool b => some (.number (if b then 1 else 0))
  | .int n => some (.number n)
  | .float f => some (floatKey f)
  | .str s => some (.str s)
  | .list _ => none
  | .dict _ => none

def truthy : PyValue → Bool
  | .none => false
  | .bool b => b
  | .int n => n ≠ 0
  | .float f => floatKey f ≠ .number 0
  | .str s => s ≠ []
  | .list items => !items.isEmpty
  | .dict items => !items.isEmpty

end OtDetection.FieldLookup
