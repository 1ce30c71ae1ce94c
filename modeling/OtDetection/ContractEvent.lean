import OtDetection.NumberText
import OtDetection.TimestampRenderings

/-! The contract's builder of events. A timestamp is the seconds of an epoch or a text, and a
field that is `None` is left out. -/

namespace OtDetection.ContractEvent
open PyText PyNumber FieldLookup Correlation IsoTime

inductive Error
  | keyError
  | python (e : PyError)
  | timestamp
  deriving DecidableEq

def epochWall : ℤ := 719162 * 86400000000

/-- `datetime.fromtimestamp(seconds, tz=UTC)`, which rounds the fraction to microseconds. -/
def fromtimestamp : Double → Option DateTime
  | .finite q =>
    let micro := (roundDouble ((q - truncate q) * 1000000)).getD 0
    ofWall (epochWall + truncate q * 1000000 + roundHalfEven micro) (some 0)
  | _ => none

def stamp (moment : DateTime) : Text :=
  replaceFrom (codes "+00:00") (codes "Z") 0 (isoformat moment)

def normalizeSeconds (seconds : Double) : Except Error Text :=
  match fromtimestamp seconds with
  | some moment => .ok (stamp moment)
  | none => .error .timestamp

def normalize (unicode : Unicode) : PyValue → Except Error Text
  | .bool b => normalizeSeconds (.finite (if b then 1 else 0))
  | .int n =>
    match floatOfInt n with
    | .ok seconds => normalizeSeconds seconds
    | .error e => .error (.python e)
  | .float f => normalizeSeconds (doubleOfFloat f)
  | value =>
    match normalizeTimestamp unicode (pyStr unicode.isPrintable value) with
    | some text => .ok text
    | none => .error .timestamp

theorem normalize_int {unicode : Unicode} {n : ℤ} {seconds : Double}
    (read : floatOfInt n = .ok seconds) :
    normalize unicode (.int n) = normalizeSeconds seconds := by
  change (match floatOfInt n with
    | .ok seconds => normalizeSeconds seconds
    | .error e => .error (.python e)) = _
  rw [read]

theorem normalize_str {unicode : Unicode} {text normal : Text}
    (read : normalizeTimestamp unicode text = some normal) :
    normalize unicode (.str text) = .ok normal := by
  change (match normalizeTimestamp unicode text with
    | some text => Except.ok text
    | none => .error Error.timestamp) = _
  rw [read]

/-- `value is not None`. -/
def given : PyValue → Bool
  | .none => false
  | _ => true

def event (product service : String) (timestamp : Text) (fields : List (Text × PyValue)) : Event :=
  (codes "product", .str (codes product)) :: (codes "service", .str (codes service)) ::
    (codes "timestamp", .str timestamp) :: fields.filter fun field => given field.2

/-! ## Lookup -/

theorem lookup_filter {fields : List (Text × PyValue)} (distinct : (fields.map Prod.fst).Nodup)
    (name : Text) :
    (fields.filter fun field => given field.2).lookup name = (fields.lookup name).filter given := by
  induction fields with
  | nil => rfl
  | cons field fields ih =>
    obtain ⟨key, value⟩ := field
    rw [List.map_cons, List.nodup_cons] at distinct
    have rest := ih distinct.2
    rw [List.filter_cons, List.lookup_cons]
    by_cases here : name = key
    · have missing : fields.lookup name = none := by
        rw [List.lookup_eq_none_iff]
        intro other mem
        rw [bne_iff_ne]
        intro same
        refine distinct.1 (List.mem_map.mpr ⟨other, mem, ?_⟩)
        rw [← same, here]
      rw [here, beq_self_eq_true, ← here]
      cases kept : given value with
      | true => simp only [if_true, List.lookup_cons, here, beq_self_eq_true, Option.filter, kept]
      | false => simp only [Bool.false_eq_true, if_false, rest, missing, Option.filter, kept]
    · have other : (name == key) = false := beq_eq_false_iff_ne.mpr here
      rw [other]
      cases given value with
      | true => simp only [if_true, List.lookup_cons, other, rest]
      | false => simp only [Bool.false_eq_true, if_false, rest]

theorem lookup_event {product service : String} {timestamp : Text}
    {fields : List (Text × PyValue)} (distinct : (fields.map Prod.fst).Nodup) {name : Text}
    (other : name ∉ ["product", "service", "timestamp"].map codes) :
    (event product service timestamp fields).lookup name = (fields.lookup name).filter given := by
  simp only [List.map_cons, List.map_nil, List.mem_cons, List.not_mem_nil, or_false, not_or]
    at other
  have apart {key : Text} (ne : name ≠ key) : (name == key) = false := beq_eq_false_iff_ne.mpr ne
  rw [event, List.lookup_cons, apart other.1, List.lookup_cons, apart other.2.1, List.lookup_cons,
    apart other.2.2, lookup_filter distinct]

/-! ## Whole seconds -/

theorem truncate_intCast (n : ℤ) : truncate n = n := by
  rw [truncate, Int.ceil_intCast, Int.floor_intCast, ite_self]

theorem fromtimestamp_intCast (n : ℤ) :
    fromtimestamp (.finite n) = ofWall (epochWall + n * 1000000) (some 0) := by
  have zero : roundDouble 0 = some 0 := if_pos rfl
  rw [fromtimestamp, truncate_intCast, sub_self, zero_mul, zero, Option.getD_some,
    show ((0 : ℚ)) = ((0 : ℤ) : ℚ) from rfl, NumberText.roundHalfEven_intCast, add_zero]

end OtDetection.ContractEvent
