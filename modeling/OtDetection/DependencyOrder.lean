import Mathlib.Data.Fintype.Card
import Mathlib.Data.Set.Finite.List
import Mathlib.Order.WellFounded

/-! Lists in which everything stands behind what it needs. A batch whose needs are met goes
behind the rest, and as long as nothing leads to a cycle or out of what there is, some
element can always go next. -/

namespace OtDetection.DependencyOrder
open Relation

variable {α : Type*} (needs : α → α → Prop)

def Ordered (order : List α) : Prop :=
  ∀ front a back, order = front ++ a :: back → ∀ b, needs a b → b ∈ front

/-- The element leads to a cycle, or out of what there is. -/
def Stuck (available : List α) (a : α) : Prop :=
  ∃ b, ReflTransGen needs a b ∧ (b ∉ available ∨ TransGen needs b b)

variable {needs}

theorem ordered_nil : Ordered needs [] := by
  intro front a back split
  exact absurd split.symm (List.append_ne_nil_of_right_ne_nil _ (List.cons_ne_nil a back))

theorem Ordered.append {order batch : List α} (ordered : Ordered needs order)
    (ready : ∀ a ∈ batch, ∀ b, needs a b → b ∈ order) : Ordered needs (order ++ batch) := by
  intro front a back split b need
  rcases List.append_eq_append_iff.mp split with ⟨more, rfl, inside⟩ | ⟨more, rfl, inside⟩
  · have mem : a ∈ batch := by
      rw [inside]
      exact List.mem_append_right _ List.mem_cons_self
    exact List.mem_append_left _ (ready a mem b need)
  · cases more with
    | nil =>
      rw [List.append_nil] at ready
      refine ready a ?_ b need
      rw [← inside.trans (List.nil_append batch)]
      exact List.mem_cons_self
    | cons first more =>
      rw [List.cons_append, List.cons.injEq] at inside
      obtain ⟨rfl, -⟩ := inside
      exact ordered front a more rfl b need

theorem Ordered.idxOf_lt [DecidableEq α] {order : List α} (ordered : Ordered needs order)
    {a b : α} (mem : a ∈ order) (need : needs a b) :
    b ∈ order ∧ order.idxOf b < order.idxOf a := by
  have split : order = order.take (order.idxOf a) ++ a :: order.drop (order.idxOf a + 1) := by
    have position := List.idxOf_lt_length_of_mem mem
    have rest := List.drop_eq_getElem_cons position
    rw [List.getElem_idxOf position] at rest
    rw [← rest, List.take_append_drop]
  have front := ordered _ a _ split b need
  have first : order.idxOf b = (order.take (order.idxOf a)).idxOf b := by
    conv_lhs => rw [split]
    rw [List.idxOf_append, if_pos front]
  have inside := List.idxOf_lt_length_of_mem front
  rw [List.length_take] at inside
  exact ⟨List.mem_of_mem_take front, by omega⟩

theorem Ordered.not_stuck {order : List α} (ordered : Ordered needs order) {a : α}
    (mem : a ∈ order) : ¬ Stuck needs order a := by
  classical
  have reached {a b : α} (mem : a ∈ order) (path : ReflTransGen needs a b) : b ∈ order := by
    induction path with
    | refl => exact mem
    | tail _ need ih => exact (ordered.idxOf_lt ih need).1
  have descends {a b : α} (mem : a ∈ order) (path : TransGen needs a b) :
      order.idxOf b < order.idxOf a := by
    induction path with
    | single need => exact (ordered.idxOf_lt mem need).2
    | tail path need ih =>
      exact (ordered.idxOf_lt (reached mem path.to_reflTransGen) need).2.trans ih
  rintro ⟨b, path, outside | cycle⟩
  · exact outside (reached mem path)
  · exact (descends (reached mem path) cycle).false

theorem exists_ready {available placed pending : List α} (some_pending : pending ≠ [])
    (covers : ∀ a ∈ available, a ∈ placed ∨ a ∈ pending)
    (free : ∀ a ∈ pending, ¬ Stuck needs available a) :
    ∃ a ∈ pending, ∀ b, needs a b → b ∈ placed := by
  let later (b a : {a // a ∈ pending}) : Prop := TransGen needs a.1 b.1
  have trans : IsTrans _ later := ⟨fun _ _ _ first second => second.trans first⟩
  have irrefl : Std.Irrefl later := ⟨fun a cycle => free a.1 a.2 ⟨a.1, .refl, .inr cycle⟩⟩
  have finite : Finite {a // a ∈ pending} := (List.finite_toSet pending).to_subtype
  have wellFounded : WellFounded later := Finite.wellFounded_of_trans_of_irrefl later
  obtain ⟨first, mem⟩ := List.exists_mem_of_ne_nil pending some_pending
  obtain ⟨least, -, minimal⟩ := wellFounded.has_min Set.univ ⟨⟨first, mem⟩, trivial⟩
  refine ⟨least.1, least.2, fun b need => ?_⟩
  have inside : b ∈ available := by
    by_contra outside
    exact free least.1 least.2 ⟨b, .single need, .inl outside⟩
  rcases covers b inside with placed | pending
  · exact placed
  · exact absurd (TransGen.single need) (minimal ⟨b, pending⟩ trivial)

end OtDetection.DependencyOrder
