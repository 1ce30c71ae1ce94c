import OtDetection.JsonText
import OtDetection.PyText
import Mathlib.Data.List.Nodup

/-! The Python values of JSON, and dicts as they are built: an assignment to a name that is
there keeps its place, and one to a new name comes last. -/

namespace OtDetection.JsonValues
open PyText JsonText

def assign (name : Text) (value : PyValue) : Event → Event
  | [] => [(name, value)]
  | item :: items =>
    if item.1 = name then (name, value) :: items else item :: assign name value items

def update (event items : Event) : Event :=
  items.foldl (fun event item => assign item.1 item.2 event) event

/-- A number with a fractional value is a float, which no decoder prints: it has no value
here. -/
def integerValue (q : ℚ) : Option PyValue := if q.den = 1 then some (.int q.num) else none

mutual

/-- The value that `json.loads` makes. -/
def valueOf : Json → Option PyValue
  | .null => some .none
  | .bool b => some (.bool b)
  | .number q => integerValue q
  | .string s => some (.str s)
  | .array items => (valuesOf items).map .list
  | .object members => (itemsOf members).map fun items => .dict (update [] items)

def valuesOf : List Json → Option (List PyValue)
  | [] => some []
  | item :: items => do
    let value ← valueOf item
    let values ← valuesOf items
    some (value :: values)

def itemsOf : List (List ℕ × Json) → Option Event
  | [] => some []
  | member :: members => do
    let value ← valueOf member.2
    let items ← itemsOf members
    some ((member.1, value) :: items)

end

theorem assign_of_fresh {name : Text} {event : Event} (fresh : name ∉ event.map Prod.fst)
    (value : PyValue) : assign name value event = event ++ [(name, value)] := by
  induction event with
  | nil => rfl
  | cons item event ih =>
    rw [List.map_cons, List.mem_cons, not_or] at fresh
    rw [assign, if_neg (Ne.symm fresh.1), ih fresh.2, List.cons_append]

theorem lookup_assign (event : Event) (key : Text) (value : PyValue) (name : Text) :
    (assign key value event).lookup name = if name = key then some value else event.lookup name := by
  induction event with
  | nil =>
    rw [assign, List.lookup_cons]
    by_cases same : name = key
    · rw [beq_iff_eq.mpr same, if_pos same]
    · rw [beq_eq_false_iff_ne.mpr same, if_neg same]
  | cons entry event ih =>
    rw [assign]
    by_cases here : entry.1 = key
    · rw [if_pos here, List.lookup_cons, List.lookup_cons, here]
      by_cases same : name = key
      · rw [beq_iff_eq.mpr same, if_pos same]
      · rw [beq_eq_false_iff_ne.mpr same, if_neg same]
    · rw [if_neg here, List.lookup_cons, List.lookup_cons, ih]
      cases found : name == entry.1 with
      | true =>
        have apart : name ≠ key := fun same => here ((eq_of_beq found).symm.trans same)
        simp only [if_neg apart]
      | false => rfl

theorem mem_assign {event : Event} {key : Text} {value : PyValue} {item : Text × PyValue}
    (mem : item ∈ assign key value event) : item ∈ event ∨ item = (key, value) := by
  induction event with
  | nil => exact .inr (List.mem_singleton.mp mem)
  | cons entry event ih =>
    rw [assign] at mem
    split_ifs at mem with here
    · rcases List.mem_cons.mp mem with rfl | later
      · exact .inr rfl
      · exact .inl (List.mem_cons_of_mem _ later)
    · rcases List.mem_cons.mp mem with rfl | later
      · exact .inl List.mem_cons_self
      · exact (ih later).imp_left (List.mem_cons_of_mem _)

theorem names_assign (event : Event) (key : Text) (value : PyValue) :
    (assign key value event).map Prod.fst = event.map Prod.fst ∨
      key ∉ event.map Prod.fst ∧
        (assign key value event).map Prod.fst = event.map Prod.fst ++ [key] := by
  by_cases fresh : key ∉ event.map Prod.fst
  · refine .inr ⟨fresh, ?_⟩
    rw [assign_of_fresh fresh, List.map_append]
    rfl
  · refine .inl ?_
    induction event with
    | nil => exact absurd List.not_mem_nil fresh
    | cons entry event ih =>
      rw [assign]
      by_cases here : entry.1 = key
      · rw [if_pos here, List.map_cons, List.map_cons, here]
      · rw [List.map_cons, List.mem_cons, not_or, not_and, not_not] at fresh
        rw [if_neg here, List.map_cons, List.map_cons, ih (not_not.mpr (fresh (Ne.symm here)))]

theorem nodup_assign {event : Event} (distinct : (event.map Prod.fst).Nodup) (key : Text)
    (value : PyValue) : ((assign key value event).map Prod.fst).Nodup := by
  rcases names_assign event key value with kept | ⟨fresh, added⟩
  · rwa [kept]
  · rw [added]
    exact List.nodup_append.mpr ⟨distinct, List.nodup_singleton key, fun name mem other last => by
      rw [List.mem_singleton.mp last]
      exact fun same => fresh (same ▸ mem)⟩

theorem update_of_distinct {event items : Event}
    (distinct : ((event ++ items).map Prod.fst).Nodup) : update event items = event ++ items := by
  induction items generalizing event with
  | nil => rw [List.append_nil]; rfl
  | cons item items ih =>
    have split : event ++ item :: items = event ++ [item] ++ items := by simp
    have fresh : item.1 ∉ event.map Prod.fst := by
      rw [List.map_append, List.nodup_append] at distinct
      intro mem
      exact distinct.2.2 item.1 mem item.1 (by simp) rfl
    rw [update, List.foldl_cons, assign_of_fresh fresh, ← update, split]
    exact ih (by rwa [← split])

end OtDetection.JsonValues
