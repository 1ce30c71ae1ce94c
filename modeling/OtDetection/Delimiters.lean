import Mathlib.Data.List.Infix
import Mathlib.Tactic.Common

/-! Delimited text over an arbitrary alphabet: when does a tag occur in a text that
an encoder put together? A symbol that the tag does not have separates the
text, an encoder that leaves the symbols of the tag alone neither makes nor hides
a tag, and a tag whose first symbol occurs once is found where it was put. -/

namespace OtDetection.Delimiters

variable {α : Type*}

theorem prefix_append_sep_iff {tag a b : List α} {sep : α} (h : sep ∉ tag) :
    tag <+: a ++ sep :: b ↔ tag <+: a := by
  induction a generalizing tag with
  | nil =>
    cases tag with
    | nil => simp
    | cons t tag =>
      have other : t ≠ sep := fun same => h (same ▸ List.mem_cons_self)
      simp [List.cons_prefix_cons, other]
  | cons x a ih =>
    cases tag with
    | nil => simp
    | cons t tag =>
      rw [List.cons_append, List.cons_prefix_cons, List.cons_prefix_cons,
        ih fun inside => h (List.mem_cons_of_mem _ inside)]

theorem infix_append_sep_iff {tag a b : List α} {sep : α} (h : sep ∉ tag) :
    tag <:+: a ++ sep :: b ↔ tag <:+: a ∨ tag <:+: b := by
  induction a with
  | nil =>
    have front := prefix_append_sep_iff (a := []) (b := b) h
    rw [List.nil_append] at front
    rw [List.nil_append, List.infix_cons_iff, front, List.prefix_nil, List.infix_nil]
  | cons x a ih =>
    have front := prefix_append_sep_iff (a := x :: a) (b := b) h
    rw [List.cons_append] at front
    rw [List.cons_append, List.infix_cons_iff, front, ih, List.infix_cons_iff, or_assoc]

theorem infix_append_iff_of_not_mem {start : α} {tail a b : List α} (h : start ∉ a) :
    start :: tail <:+: a ++ b ↔ start :: tail <:+: b := by
  induction a with
  | nil => rw [List.nil_append]
  | cons x a ih =>
    have other : start ≠ x := fun same => h (same ▸ List.mem_cons_self)
    rw [List.cons_append, List.infix_cons_iff, List.cons_prefix_cons,
      ih fun inside => h (List.mem_cons_of_mem _ inside)]
    simp [other]

theorem not_infix_of_not_mem {start : α} {tail a : List α} (h : start ∉ a) :
    ¬ start :: tail <:+: a := fun inside => h (inside.subset List.mem_cons_self)

/-! ## Encoders -/

/-- Plain symbols stand for themselves, any other one becomes an escape without the
first symbol of the tag. -/
structure Escapes (encode : α → List α) (plain : α → Prop) (escape start : α) : Prop where
  plain_self : ∀ a, plain a → encode a = [a]
  escaped : ∀ a, ¬ plain a → ∃ rest, encode a = escape :: rest ∧ start ∉ escape :: rest

section Escaping

variable {encode : α → List α} {plain : α → Prop} {escape start : α}

theorem prefix_flatMap_iff (laws : Escapes encode plain escape start) {tag : List α}
    (h : ∀ t ∈ tag, plain t ∧ t ≠ escape) (s : List α) :
    tag <+: s.flatMap encode ↔ tag <+: s := by
  induction tag generalizing s with
  | nil => simp
  | cons t tag ih =>
    obtain ⟨plainT, other⟩ := h t List.mem_cons_self
    have later := ih fun u hu => h u (List.mem_cons_of_mem _ hu)
    cases s with
    | nil => rw [List.flatMap_nil]
    | cons a s =>
      rw [List.flatMap_cons, List.cons_prefix_cons]
      by_cases plainA : plain a
      · rw [laws.plain_self a plainA, List.singleton_append, List.cons_prefix_cons, later]
      · obtain ⟨rest, encoded, -⟩ := laws.escaped a plainA
        have differ : t ≠ a := fun same => plainA (same ▸ plainT)
        rw [encoded, List.cons_append, List.cons_prefix_cons]
        simp [other, differ]

theorem infix_flatMap_iff (laws : Escapes encode plain escape start) {tail : List α}
    (h : ∀ t ∈ start :: tail, plain t ∧ t ≠ escape) (s : List α) :
    start :: tail <:+: s.flatMap encode ↔ start :: tail <:+: s := by
  induction s with
  | nil => rw [List.flatMap_nil]
  | cons a s ih =>
    by_cases plainA : plain a
    · have front := prefix_flatMap_iff laws h (a :: s)
      rw [List.flatMap_cons, laws.plain_self a plainA, List.singleton_append] at front
      rw [List.flatMap_cons, laws.plain_self a plainA, List.singleton_append, List.infix_cons_iff,
        front, ih, List.infix_cons_iff]
    · obtain ⟨rest, encoded, absent⟩ := laws.escaped a plainA
      have differ : start ≠ a := fun same => plainA (same ▸ (h start List.mem_cons_self).1)
      rw [List.flatMap_cons, encoded, infix_append_iff_of_not_mem absent, ih, List.infix_cons_iff,
        List.cons_prefix_cons]
      simp [differ]

end Escaping

theorem prefix_map_iff {f : α → α} {tag : List α} (h : ∀ t ∈ tag, ∀ a, t = f a ↔ t = a)
    (s : List α) : tag <+: s.map f ↔ tag <+: s := by
  induction tag generalizing s with
  | nil => simp
  | cons t tag ih =>
    cases s with
    | nil => simp
    | cons a s =>
      rw [List.map_cons, List.cons_prefix_cons, List.cons_prefix_cons, h t List.mem_cons_self a,
        ih fun u hu => h u (List.mem_cons_of_mem _ hu)]

theorem infix_map_iff {f : α → α} {tag : List α} (h : ∀ t ∈ tag, ∀ a, t = f a ↔ t = a)
    (s : List α) : tag <:+: s.map f ↔ tag <:+: s := by
  induction s with
  | nil => rw [List.map_nil]
  | cons a s ih =>
    have front := prefix_map_iff h (a :: s)
    rw [List.map_cons] at front
    rw [List.map_cons, List.infix_cons_iff, front, ih, List.infix_cons_iff]

/-! ## Cutting at the first tag -/

variable [DecidableEq α]

/-- What stands before and behind the first occurrence of `tag`. -/
def cutFirst (tag : List α) : List α → Option (List α × List α)
  | [] => if tag = [] then some ([], []) else none
  | a :: rest =>
    if tag <+: a :: rest then some ([], (a :: rest).drop tag.length)
    else (cutFirst tag rest).map fun p => (a :: p.1, p.2)

theorem cutFirst_append {start : α} {tail : List α} (once : start ∉ tail) {a : List α}
    (h : ¬ start :: tail <:+: a) (rest : List α) :
    cutFirst (start :: tail) (a ++ (start :: tail ++ rest)) = some (a, rest) := by
  induction a with
  | nil =>
    have here : start :: tail <+: start :: (tail ++ rest) := by simp [List.cons_prefix_cons]
    rw [List.nil_append, List.cons_append, cutFirst, if_pos here]
    simp
  | cons x a ih =>
    have later : ¬ start :: tail <:+: a := fun inside => h (List.infix_cons_iff.mpr (.inr inside))
    have here : ¬ start :: tail <+: x :: (a ++ (start :: tail ++ rest)) := by
      rw [← List.cons_append]
      rintro ⟨behind, occurs⟩
      rcases List.append_eq_append_iff.mp occurs with ⟨more, inside, -⟩ | ⟨more, split, overlap⟩
      · exact h ⟨[], more, by rw [List.nil_append, inside]⟩
      · -- The occurrence would reach into the tag that follows and find its first symbol again.
        cases more with
        | nil =>
          rw [List.append_nil] at split
          exact h (split ▸ List.infix_rfl)
        | cons m more =>
          rw [List.cons_append, List.cons_append, List.cons.injEq] at overlap
          rw [List.cons_append, List.cons.injEq] at split
          refine once (split.2 ▸ List.mem_append_right _ ?_)
          rw [overlap.1]
          exact List.mem_cons_self
    rw [List.cons_append, cutFirst, if_neg here, ih later]
    rfl

end OtDetection.Delimiters
