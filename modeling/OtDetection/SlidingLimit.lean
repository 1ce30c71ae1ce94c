import Mathlib.Algebra.Order.Group.Defs
import Mathlib.Algebra.Order.Sub.Unbundled.Basic
import Mathlib.Algebra.Order.Monoid.Unbundled.Basic
import Mathlib.Data.List.Induction
import Mathlib.Data.Int.Notation
import Mathlib.Order.Basic

/-! A limit on the admitted calls of each key within a sliding window, as a log that
decides every call by what it holds already. -/

namespace OtDetection.SlidingLimit

/-- A call with its answer. -/
structure Entry (κ τ : Type*) where
  key : κ
  time : τ
  admitted : Bool
  deriving DecidableEq, Repr

variable {κ τ : Type*} [DecidableEq κ] [AddCommGroup τ] [LinearOrder τ]

def recent (window : τ) (log : List (Entry κ τ)) (key : κ) (now : τ) : ℕ :=
  log.countP fun e => e.key = key ∧ e.admitted ∧ now - e.time < window

def record (limit : ℤ) (window : τ) (log : List (Entry κ τ)) (call : κ × τ) : List (Entry κ τ) :=
  log ++ [⟨call.1, call.2, decide (recent window log call.1 call.2 < limit)⟩]

def logOf (limit : ℤ) (window : τ) (calls : List (κ × τ)) : List (Entry κ τ) :=
  calls.foldl (record limit window) []

variable {limit : ℤ} {window : τ}

theorem logOf_snoc (calls : List (κ × τ)) (call : κ × τ) :
    logOf limit window (calls ++ [call]) = record limit window (logOf limit window calls) call := by
  rw [logOf, List.foldl_append]
  rfl

theorem admitted_iff {calls : List (κ × τ)} {earlier later : List (Entry κ τ)} {e : Entry κ τ}
    (h : logOf limit window calls = earlier ++ e :: later) :
    e.admitted = true ↔ recent window earlier e.key e.time < limit := by
  induction calls using List.reverseRecOn generalizing later with
  | nil => simp [logOf] at h
  | append_singleton calls call ih =>
    rw [logOf_snoc, record] at h
    rcases List.eq_nil_or_concat later with rfl | ⟨front, last, rfl⟩
    · obtain ⟨same, tail⟩ := List.append_inj' h rfl
      obtain rfl := List.singleton_inj.mp tail
      rw [← same]
      exact decide_eq_true_iff
    · rw [List.concat_eq_append, ← List.cons_append, ← List.append_assoc] at h
      exact ih (List.append_inj' h rfl).1

/-- No window of the length has more admitted calls of a key than the limit. -/
def WithinLimit (limit : ℤ) (window : τ) (log : List (Entry κ τ)) : Prop :=
  ∀ key start, ((log.countP fun e => e.key = key ∧ e.admitted ∧ start ≤ e.time ∧
    e.time < start + window : ℕ) : ℤ) ≤ limit

theorem withinLimit_nil (nonneg : 0 ≤ limit) :
    WithinLimit limit window ([] : List (Entry κ τ)) := fun _ _ => nonneg

theorem WithinLimit.snoc [IsOrderedAddMonoid τ] {log : List (Entry κ τ)}
    (within : WithinLimit limit window log) {e : Entry κ τ}
    (room : e.admitted → recent window log e.key e.time < limit) :
    WithinLimit limit window (log ++ [e]) := by
  intro key start
  rw [List.countP_append, List.countP_singleton]
  by_cases inside : e.key = key ∧ e.admitted ∧ start ≤ e.time ∧ e.time < start + window
  · -- The last call saw all of the others in this window as recent.
    obtain ⟨rfl, admitted, -, before⟩ := inside
    have below := room admitted
    have seen : (log.countP fun d => d.key = e.key ∧ d.admitted ∧ start ≤ d.time ∧
        d.time < start + window) ≤ recent window log e.key e.time := by
      refine List.countP_mono_left fun d _ counted => ?_
      obtain ⟨key, admitted, later, -⟩ := of_decide_eq_true counted
      refine decide_eq_true ⟨key, admitted, ?_⟩
      exact sub_lt_iff_lt_add'.mpr (before.trans_le (add_le_add_left later window))
    split <;> omega
  · have skipped : ¬ decide (e.key = key ∧ e.admitted ∧ start ≤ e.time ∧
        e.time < start + window) = true := by
      simpa using inside
    rw [if_neg skipped, Nat.add_zero]
    exact within key start

theorem logOf_withinLimit [IsOrderedAddMonoid τ] (nonneg : 0 ≤ limit) (calls : List (κ × τ)) :
    WithinLimit limit window (logOf limit window calls) := by
  induction calls using List.reverseRecOn with
  | nil => exact withinLimit_nil nonneg
  | append_singleton calls call ih =>
    rw [logOf_snoc]
    exact ih.snoc of_decide_eq_true

theorem recent_append (log more : List (Entry κ τ)) (key : κ) (now : τ) :
    recent window (log ++ more) key now = recent window log key now + recent window more key now :=
  List.countP_append

theorem recent_filter (log : List (Entry κ τ)) (key : κ) (now : τ) :
    recent window (log.filter (·.key = key)) key now = recent window log key now := by
  rw [recent, recent, List.countP_filter]
  refine List.countP_congr fun e _ => ?_
  simp only [Bool.and_eq_true, decide_eq_true_eq]
  tauto

theorem logOf_filter (calls : List (κ × τ)) (key : κ) :
    (logOf limit window calls).filter (·.key = key) =
      logOf limit window (calls.filter (·.1 = key)) := by
  induction calls using List.reverseRecOn with
  | nil => rfl
  | append_singleton calls call ih =>
    rw [logOf_snoc, record, List.filter_append, List.filter_append, ih]
    by_cases same : call.1 = key
    · subst same
      have own : [call].filter (·.1 = call.1) = [call] := by simp
      rw [own, logOf_snoc, record, ← ih, recent_filter]
      simp
    · simp [same]

theorem foldl_record_congr (calls : List (κ × τ)) {log log' : List (Entry κ τ)}
    (h : ∀ key now, recent window log key now = recent window log' key now) :
    ∃ rest, calls.foldl (record limit window) log = log ++ rest ∧
      calls.foldl (record limit window) log' = log' ++ rest := by
  induction calls generalizing log log' with
  | nil => exact ⟨[], (List.append_nil _).symm, (List.append_nil _).symm⟩
  | cons call calls ih =>
    have next : ∀ key now, recent window (record limit window log call) key now =
        recent window (record limit window log' call) key now := by
      intro key now
      rw [record, record, recent_append, recent_append, h key now, h call.1 call.2]
    obtain ⟨rest, left, right⟩ := ih next
    have answers : record limit window log' call =
        log' ++ [⟨call.1, call.2, decide (recent window log call.1 call.2 < limit)⟩] := by
      rw [record, h]
    refine ⟨⟨call.1, call.2, decide (recent window log call.1 call.2 < limit)⟩ :: rest, ?_, ?_⟩
    · rw [List.foldl_cons, left, record, List.append_assoc]
      rfl
    · rw [List.foldl_cons, right, answers, List.append_assoc]
      rfl

theorem logOf_rejected {before : List (κ × τ)} {call : κ × τ} (after : List (κ × τ))
    (rejected : ¬ recent window (logOf limit window before) call.1 call.2 < limit) :
    ∃ rest, logOf limit window (before ++ after) = logOf limit window before ++ rest ∧
      logOf limit window (before ++ call :: after) =
        logOf limit window before ++ ⟨call.1, call.2, false⟩ :: rest := by
  have logged : record limit window (logOf limit window before) call =
      logOf limit window before ++ [⟨call.1, call.2, false⟩] := by
    rw [record, decide_eq_false rejected]
  have same : ∀ key now, recent window (logOf limit window before) key now =
      recent window (record limit window (logOf limit window before) call) key now := by
    intro key now
    rw [logged, recent_append]
    simp [recent]
  obtain ⟨rest, without, withCall⟩ := foldl_record_congr after same
  refine ⟨rest, ?_, ?_⟩
  · rw [← without, logOf, List.foldl_append]
    rfl
  · rw [logOf, List.foldl_append, List.foldl_cons, ← logOf, withCall, logged, List.append_assoc]
    rfl

end OtDetection.SlidingLimit
