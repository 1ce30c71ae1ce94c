import OtDetection.ZeekEvents

/-! NetFlow records as contract events. Each value is under one of two keys, and the first is
passed over when its value is false; a value that is not a number gives no field. -/

namespace OtDetection.Netflow
open PyText PyNumber FieldLookup ContractEvent

def either (record : Event) (primary alternative : String) : PyValue :=
  if truthy (eventGet record primary) then eventGet record primary
  else eventGet record alternative

section Convert

variable (unicode : Unicode) (shortest : Double → PyFloat)

/-- `_int`; an infinite number is not caught. -/
def int (value : PyValue) : Except Error PyValue :=
  match intOf unicode value with
  | .ok n => .ok (.int n)
  | .error .overflowError => .error (.python .overflowError)
  | .error _ => .ok .none

def float : PyValue → Except Error PyValue
  | .bool b => .ok (.float (shortest (.finite (if b then 1 else 0))))
  | .int n =>
    match floatOfInt n with
    | .ok d => .ok (.float (shortest d))
    | .error e => .error (.python e)
  | .float f => .ok (.float f)
  | .str text =>
    match floatOfText unicode text with
    | some d => .ok (.float (shortest d))
    | none => .ok .none
  | _ => .ok .none

def string : PyValue → PyValue
  | .none => .none
  | value => .str (pyStr unicode.isPrintable value)

def fields (record : Event) : Except Error (List (Text × PyValue)) := do
  let sourcePort ← int unicode (either record "src_port" "srcport")
  let destinationPort ← int unicode (either record "dst_port" "dstport")
  let bytes ← int unicode (either record "bytes" "bytes_total")
  let packets ← int unicode (either record "packets" "pkts")
  let duration ← float unicode shortest (eventGet record "duration")
  .ok [(codes "src_ip", either record "src_ip" "srcaddr"),
    (codes "dst_ip", either record "dst_ip" "dstaddr"), (codes "src_port", sourcePort),
    (codes "dst_port", destinationPort),
    (codes "proto", string unicode (either record "proto" "protocol")), (codes "bytes", bytes),
    (codes "packets", packets), (codes "duration", duration),
    (codes "flow_state", string unicode (eventGet record "flow_state"))]

def record (record : Event) : Except Error Event := do
  let timestamp ← match record.lookup (codes "timestamp") with
    | some value => .ok value
    | none => .error .keyError
  let given ← fields unicode shortest record
  let normalized ← normalize unicode timestamp
  .ok (event "ot_flow" "flow" normalized given)

end Convert

/-! ## A value under one of two keys -/

def Spelled (record : Event) (primary alternative : String) (value : PyValue) : Prop :=
  record.lookup (codes primary) = some value ∧ record.lookup (codes alternative) = none ∨
    record.lookup (codes primary) = none ∧ record.lookup (codes alternative) = some value

/-- The value is passed over: it is false and under the first key. -/
def Dropped (record : Event) (primary : String) : Prop :=
  ∃ value, record.lookup (codes primary) = some value ∧ truthy value = false

variable {record : Event} {primary alternative : String} {value : PyValue}

theorem either_dropped (spelled : Spelled record primary alternative value)
    (dropped : Dropped record primary) : either record primary alternative = .none := by
  obtain ⟨given, found, falsy⟩ := dropped
  rcases spelled with ⟨-, other⟩ | ⟨missing, -⟩
  · rw [either, eventGet, found, Option.getD_some, falsy, eventGet, other]
    rfl
  · rw [missing] at found
    cases found

theorem either_kept (spelled : Spelled record primary alternative value)
    (kept : ¬ Dropped record primary) : either record primary alternative = value := by
  rcases spelled with ⟨found, -⟩ | ⟨missing, found⟩
  · have holds : truthy value = true := by
      by_contra falsy
      exact kept ⟨value, found, Bool.eq_false_iff.mpr falsy⟩
    rw [either, eventGet, found, Option.getD_some, if_pos holds]
  · rw [either, eventGet, missing, Option.getD_none, eventGet, found]
    rfl

theorem dropped_iff (spelled : Spelled record primary alternative value) :
    Dropped record primary ↔ record.lookup (codes primary) ≠ none ∧ truthy value = false := by
  rcases spelled with ⟨found, -⟩ | ⟨missing, -⟩
  · constructor
    · rintro ⟨given, same, falsy⟩
      rw [found, Option.some.injEq] at same
      rw [same]
      exact ⟨by rw [found]; exact nofun, falsy⟩
    · rintro ⟨-, falsy⟩
      exact ⟨value, found, falsy⟩
  · refine iff_of_false ?_ fun none => none.1 missing
    rintro ⟨given, same, -⟩
    rw [missing] at same
    cases same

end OtDetection.Netflow
