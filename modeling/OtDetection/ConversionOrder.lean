import OtDetection.DependencyOrder
import OtDetection.PyText

/-! The order in which rules are converted. A pass takes the pending rules whose references
are all placed, puts them behind the ones before and removes them from the pending
ones; a pass that finds none ends in an error. -/

namespace OtDetection.ConversionOrder
open PyText DependencyOrder

/-- A loaded ruleset. Rule objects differ by their identity and are compared by `eq`; a
reference that is not resolved is `none`. -/
structure Ruleset (Rule : Type) where
  rules : List Rule
  referencedRules : Rule → List (Option Rule)
  eq : Rule → Rule → Bool

inductive Error
  | conversionError (message : Text)
  | valueError
  deriving DecidableEq

section Order

variable {Rule : Type} [DecidableEq Rule] (ruleset : Ruleset Rule)

def isReady (placed : List Rule) (rule : Rule) : Bool :=
  (ruleset.referencedRules rule).all fun reference => reference.all (· ∈ placed)

def remove (pending : List Rule) (rule : Rule) : Option (List Rule) :=
  match pending with
  | [] => none
  | other :: rest =>
    if other = rule ∨ ruleset.eq other rule then some rest
    else (remove rest rule).map (other :: ·)

theorem length_remove {pending rest : List Rule} {rule : Rule}
    (h : remove ruleset pending rule = some rest) : rest.length + 1 = pending.length := by
  induction pending generalizing rest with
  | nil => cases h
  | cons other pending ih =>
    rw [remove] at h
    split_ifs at h
    · rw [← Option.some.inj h, List.length_cons]
    · obtain ⟨shorter, removed, rfl⟩ := Option.map_eq_some_iff.mp h
      rw [List.length_cons, List.length_cons, ih removed]

def removeAll (pending ready : List Rule) : Option (List Rule) :=
  ready.foldlM (remove ruleset) pending

theorem length_removeAll {pending ready rest : List Rule}
    (h : removeAll ruleset pending ready = some rest) :
    rest.length + ready.length = pending.length := by
  induction ready generalizing pending with
  | nil => rw [← Option.some.inj h, List.length_nil, Nat.add_zero]
  | cons rule ready ih =>
    obtain ⟨middle, removed, later⟩ := Option.bind_eq_some_iff.mp h
    rw [List.length_cons, ← Nat.add_assoc, ih later, length_remove ruleset removed]

def passes (pending ordered placed : List Rule) : Except Error (List Rule) :=
  if pending = [] then .ok ordered
  else if _ready : pending.filter (isReady ruleset placed) = [] then
    .error (.conversionError (codes
      "cannot order rules for conversion: a correlation references a rule that " ++ codes
      "is not in the ruleset, or the references form a cycle"))
  else
    match _removed : removeAll ruleset pending (pending.filter (isReady ruleset placed)) with
    | none => .error .valueError
    | some rest =>
      passes rest (ordered ++ pending.filter (isReady ruleset placed))
        (placed ++ pending.filter (isReady ruleset placed))
termination_by pending.length
decreasing_by
  have shorter := length_removeAll ruleset _removed
  have some_ready := List.length_pos_iff.mpr _ready
  omega

def conversionOrder : Except Error (List Rule) := passes ruleset ruleset.rules [] []

end Order

/-! ## What the order is -/

section Sorted

variable {Rule : Type} [DecidableEq Rule] {ruleset : Ruleset Rule}

/-- The rule has a resolved reference to the other. -/
def References (ruleset : Ruleset Rule) (rule other : Rule) : Prop :=
  some other ∈ ruleset.referencedRules rule

theorem isReady_iff {placed : List Rule} {rule : Rule} :
    isReady ruleset placed rule = true ↔
      ∀ other, References ruleset rule other → other ∈ placed := by
  rw [isReady, List.all_eq_true]
  constructor
  · intro all other resolved
    simpa using all (some other) resolved
  · intro all reference mem
    cases reference with
    | none => rfl
    | some other => simpa using all other mem

theorem remove_append {front : List Rule} {rule : Rule}
    (other : ∀ a ∈ front, a ≠ rule ∧ ruleset.eq a rule = false) (pending : List Rule) :
    remove ruleset (front ++ rule :: pending) rule = some (front ++ pending) := by
  induction front with
  | nil => exact if_pos (.inl rfl)
  | cons a front ih =>
    obtain ⟨here, later⟩ := List.forall_mem_cons.mp other
    rw [List.cons_append, remove, if_neg (by simp [here]), ih later]
    rfl

theorem removeAll_filter {chosen : Rule → Bool} {front pending : List Rule}
    (alike : ∀ a ∈ front ++ pending, ∀ b ∈ pending, ruleset.eq a b = true → chosen a = chosen b)
    (passed : ∀ a ∈ front, chosen a = false) :
    removeAll ruleset (front ++ pending) (pending.filter chosen) =
      some (front ++ pending.filter fun rule => !chosen rule) := by
  induction pending generalizing front with
  | nil => rfl
  | cons rule pending ih =>
    cases taken : chosen rule with
    | true =>
      have first : remove ruleset (front ++ rule :: pending) rule = some (front ++ pending) := by
        refine remove_append (fun a mem => ?_) pending
        have left := passed a mem
        constructor
        · rintro rfl
          rw [taken] at left
          cases left
        · by_contra equal
          have same := alike a (List.mem_append_left _ mem) rule List.mem_cons_self
            (by simpa using equal)
          rw [left, taken] at same
          cases same
      rw [List.filter_cons_of_pos taken, List.filter_cons_of_neg (by simp [taken]), removeAll,
        List.foldlM_cons, first]
      refine ih (fun a mem b inside => ?_) passed
      refine alike a ?_ b (List.mem_cons_of_mem _ inside)
      rcases List.mem_append.mp mem with left | right
      · exact List.mem_append_left _ left
      · exact List.mem_append_right _ (List.mem_cons_of_mem _ right)
    | false =>
      have regroup (rest : List Rule) : front ++ rule :: rest = (front ++ [rule]) ++ rest := by
        rw [List.append_assoc, List.singleton_append]
      rw [List.filter_cons_of_neg (by simp [taken]), List.filter_cons_of_pos (by simp [taken]),
        regroup pending, regroup (pending.filter _)]
      refine ih (fun a mem b inside => ?_) fun a mem => ?_
      · rw [← regroup] at mem
        exact alike a mem b (List.mem_cons_of_mem _ inside)
      · rcases List.mem_append.mp mem with left | here
        · exact passed a left
        · rw [List.mem_singleton.mp here]
          exact taken

/-- Equal rules of the collection have references to the same objects. -/
def Consistent (ruleset : Ruleset Rule) : Prop :=
  ∀ a ∈ ruleset.rules, ∀ b ∈ ruleset.rules, ruleset.eq a b = true →
    ∀ other, References ruleset a other ↔ References ruleset b other

structure Progress (ruleset : Ruleset Rule) (pending ordered : List Rule) : Prop where
  perm : (ordered ++ pending).Perm ruleset.rules
  ordered : Ordered (References ruleset) ordered

theorem removeAll_ready (consistent : Consistent ruleset) {pending ordered : List Rule}
    (progress : Progress ruleset pending ordered) :
    removeAll ruleset pending (pending.filter (isReady ruleset ordered)) =
      some (pending.filter fun rule => !isReady ruleset ordered rule) := by
  have inside : ∀ a ∈ pending, a ∈ ruleset.rules := fun a mem =>
    progress.perm.mem_iff.mp (List.mem_append_right _ mem)
  refine @removeAll_filter Rule _ ruleset (isReady ruleset ordered) [] pending ?_ (by simp)
  intro a mem b there equal
  have same := consistent a (inside a mem) b (inside b there) equal
  rw [Bool.eq_iff_iff, isReady_iff, isReady_iff]
  exact forall_congr' fun other => imp_congr (same other) Iff.rfl

theorem Progress.pass {pending ordered : List Rule}
    (progress : Progress ruleset pending ordered) :
    Progress ruleset (pending.filter fun rule => !isReady ruleset ordered rule)
      (ordered ++ pending.filter (isReady ruleset ordered)) := by
  constructor
  · rw [List.append_assoc]
    exact ((List.filter_append_perm _ pending).append_left ordered).trans progress.perm
  · refine progress.ordered.append fun a mem => ?_
    exact isReady_iff.mp (List.mem_filter.mp mem).2

theorem Progress.stuck {pending ordered : List Rule} (progress : Progress ruleset pending ordered)
    (some_pending : pending ≠ []) (unready : pending.filter (isReady ruleset ordered) = []) :
    ∃ rule ∈ ruleset.rules, Stuck (References ruleset) ruleset.rules rule := by
  by_contra free
  have inside : ∀ a ∈ pending, a ∈ ruleset.rules := fun a mem =>
    progress.perm.mem_iff.mp (List.mem_append_right _ mem)
  obtain ⟨rule, mem, ready⟩ := exists_ready some_pending
    (fun a mem => List.mem_append.mp (progress.perm.mem_iff.mpr mem))
    (fun a mem stuck => free ⟨a, inside a mem, stuck⟩)
  have found := List.mem_filter.mpr ⟨mem, isReady_iff.mpr ready⟩
  rw [unready] at found
  cases found

theorem Progress.passes (consistent : Consistent ruleset) {pending ordered : List Rule}
    (progress : Progress ruleset pending ordered) :
    (∃ result, ConversionOrder.passes ruleset pending ordered ordered = .ok result ∧
      result.Perm ruleset.rules ∧ Ordered (References ruleset) result) ∨
    ((∃ message, ConversionOrder.passes ruleset pending ordered ordered =
        .error (.conversionError message)) ∧
      ∃ rule ∈ ruleset.rules, Stuck (References ruleset) ruleset.rules rule) := by
  induction size : pending.length using Nat.strong_induction_on generalizing pending ordered with
  | _ size ih =>
  subst size
  rw [ConversionOrder.passes]
  by_cases none : pending = []
  · subst none
    have perm := progress.perm
    rw [List.append_nil] at perm
    exact .inl ⟨ordered, if_pos rfl, perm, progress.ordered⟩
  · rw [if_neg none]
    by_cases unready : pending.filter (isReady ruleset ordered) = []
    · rw [dif_pos unready]
      exact .inr ⟨⟨_, rfl⟩, progress.stuck none unready⟩
    · have removed := removeAll_ready consistent progress
      have shorter := length_removeAll ruleset removed
      have some_ready := List.length_pos_iff.mpr unready
      rw [dif_neg unready]
      split
      · rename_i failed
        rw [failed] at removed
        cases removed
      · rename_i rest left
        obtain rfl := Option.some.inj (left.symm.trans removed)
        exact ih _ (by omega) progress.pass rfl

/-- The order of conversion ends, has every rule once behind its references, and is refused
exactly for a rule that leads to a cycle or out of the collection. -/
theorem conversionOrder_sorts (consistent : Consistent ruleset) :
    ((∃ result, conversionOrder ruleset = .ok result) ∨
      ∃ message, conversionOrder ruleset = .error (.conversionError message)) ∧
    (∀ result, conversionOrder ruleset = .ok result →
      result.Perm ruleset.rules ∧ (ruleset.rules.Nodup → result.Nodup) ∧
        Ordered (References ruleset) result) ∧
    ((∃ message, conversionOrder ruleset = .error (.conversionError message)) ↔
      ∃ rule ∈ ruleset.rules, Stuck (References ruleset) ruleset.rules rule) := by
  have start : Progress ruleset ruleset.rules [] := ⟨.refl _, ordered_nil⟩
  rcases start.passes consistent with ⟨sorted, returns, perm, ordered⟩ | ⟨⟨message, raises⟩, stuck⟩
  · have ends : conversionOrder ruleset = .ok sorted := returns
    refine ⟨.inl ⟨sorted, ends⟩, fun result same => ?_, ?_⟩
    · obtain rfl := Except.ok.inj (ends.symm.trans same)
      exact ⟨perm, perm.nodup_iff.mpr, ordered⟩
    · refine iff_of_false ?_ ?_
      · rintro ⟨message, raises⟩
        cases ends.symm.trans raises
      · rintro ⟨rule, mem, b, path, leads⟩
        refine ordered.not_stuck (perm.mem_iff.mpr mem) ⟨b, path, ?_⟩
        rwa [perm.mem_iff]
  · have ends : conversionOrder ruleset = .error (.conversionError message) := raises
    refine ⟨.inr ⟨message, ends⟩, fun result same => ?_, iff_of_true ⟨message, ends⟩ stuck⟩
    cases ends.symm.trans same

end Sorted

/-! A correlation of two equal rules, and one that refers to itself. -/

def burst (own : Bool) : Ruleset ℕ where
  rules := [0, 1, 2]
  referencedRules rule := if rule = 0 then [some 1, none, some (if own then 0 else 2)] else []
  eq a b := a = 1 ∧ b = 2

theorem conversionOrder_sorts_burst :
    (∃ message, conversionOrder (burst true) = .error (.conversionError message)) ∧
      ¬ ∃ message, conversionOrder (burst false) = .error (.conversionError message) := by
  have consistent (own : Bool) : Consistent (burst own) := by
    intro a _ b _ equal other
    obtain ⟨rfl, rfl⟩ : a = 1 ∧ b = 2 := by simpa [burst] using equal
    exact Iff.rfl
  refine ⟨(conversionOrder_sorts (consistent true)).2.2.mpr ⟨0, by decide, 0, .refl, .inr ?_⟩, ?_⟩
  · exact .single (by decide : some 0 ∈ (burst true).referencedRules 0)
  · rw [(conversionOrder_sorts (consistent false)).2.2]
    rintro ⟨rule, mem, stuck⟩
    have sorted : Ordered (References (burst false)) [1, 2, 0] := by
      have placed : Ordered (References (burst false)) ([] ++ [1, 2]) := by
        refine ordered_nil.append fun a mem b need => ?_
        have unreferring : ∀ a ∈ [1, 2], (burst false).referencedRules a = [] := by decide
        rw [References, unreferring a mem] at need
        cases need
      refine @Ordered.append _ _ _ [0] placed fun a mem b need => ?_
      rw [List.mem_singleton.mp mem] at need
      have referenced : some b ∈ [some 1, none, some 2] := need
      simpa using referenced
    have perm : [1, 2, 0].Perm (burst false).rules := by decide
    obtain ⟨b, path, leads⟩ := stuck
    refine sorted.not_stuck (perm.mem_iff.mpr mem) ⟨b, path, ?_⟩
    rwa [perm.mem_iff]

end OtDetection.ConversionOrder
