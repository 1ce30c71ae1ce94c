import OtDetection.KeyedMaps
import Mathlib.Algebra.BigOperators.Group.List.Basic
import Mathlib.Algebra.Order.Ring.Nat

/-! Labels put into buckets by a key and pulled out again by a list of keys. What comes out is
counted once for each label whose key is in the list; the others are lost. -/

namespace OtDetection.LabelBuckets
open InsertionGroups

variable {α κ : Type*} [DecidableEq κ]

def bucketsBy (key : α → κ) (labels : List α) : List (κ × List α) :=
  labels.foldl (fun buckets label => push buckets (key label) label) []

/-- `buckets.get(key, [])`. -/
def bucket (buckets : List (κ × List α)) (key : κ) : List α := (buckets.lookup key).getD []

theorem bucket_push (buckets : List (κ × List α)) (key other : κ) (label : α) :
    bucket (push buckets key label) other =
      bucket buckets other ++ if key = other then [label] else [] := by
  induction buckets with
  | nil =>
    by_cases same : key = other
    · subst same
      simp [push, bucket]
    · simp [push, bucket, List.lookup_cons, beq_eq_false_iff_ne.mpr (Ne.symm same), same]
  | cons first buckets ih =>
    rw [push]
    rw [bucket, bucket] at ih ⊢
    by_cases here : first.1 = key
    · rw [if_pos here, List.lookup_cons, List.lookup_cons]
      by_cases same : key = other
      · simp [here, same]
      · rw [here, beq_eq_false_iff_ne.mpr (Ne.symm same), if_neg same, List.append_nil]
    · rw [if_neg here, List.lookup_cons, List.lookup_cons]
      cases found : other == first.1 with
      | true =>
        have apart : key ≠ other := fun same => here ((eq_of_beq found).symm.trans same.symm)
        rw [if_neg apart, List.append_nil]
      | false => exact ih

theorem bucket_bucketsBy (key : α → κ) (labels : List α) (k : κ) :
    bucket (bucketsBy key labels) k = labels.filter fun label => key label = k := by
  have run : ∀ buckets : List (κ × List α),
      bucket (labels.foldl (fun buckets label => push buckets (key label) label) buckets) k =
        bucket buckets k ++ labels.filter fun label => key label = k := by
    induction labels with
    | nil => exact fun buckets => (List.append_nil _).symm
    | cons label labels ih =>
      intro buckets
      rw [List.foldl_cons, ih, bucket_push, List.append_assoc, List.filter_cons]
      by_cases same : key label = k
      · simp [same]
      · simp [same]
  exact run []

theorem sum_length_filter {keys : List κ} (nodup : keys.Nodup) (key : α → κ) (labels : List α) :
    (keys.map fun k => (labels.filter fun label => key label = k).length).sum =
      labels.countP fun label => key label ∈ keys := by
  induction keys with
  | nil => simp
  | cons first keys ih =>
    obtain ⟨fresh, nodup⟩ := List.nodup_cons.mp nodup
    rw [List.map_cons, List.sum_cons, ih nodup, ← List.countP_eq_length_filter]
    clear ih
    simp only [List.mem_cons]
    induction labels with
    | nil => rfl
    | cons label labels ih =>
      simp only [List.countP_cons, decide_eq_true_eq]
      by_cases same : key label = first
      · have old : key label ∉ keys := same ▸ fresh
        simp only [if_pos same, if_neg old, if_pos (Or.inl same)]
        omega
      · simp only [same, false_or, if_false]
        omega

theorem sum_length_filter_eq_iff {keys : List κ} (nodup : keys.Nodup) (key : α → κ)
    (labels : List α) :
    (keys.map fun k => (labels.filter fun label => key label = k).length).sum = labels.length ↔
      ∀ label ∈ labels, key label ∈ keys := by
  rw [sum_length_filter nodup, List.countP_eq_length]
  simp only [decide_eq_true_eq]

end OtDetection.LabelBuckets
