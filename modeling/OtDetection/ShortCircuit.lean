import Mathlib.Data.List.Basic
import Mathlib.Tactic.Common

/-! Boolean expressions over leaves that may fail, evaluated from left to right. A
conjunction stops at its first false argument and a disjunction at its first true
one, so that a leaf behind it is not reached. -/

namespace OtDetection.ShortCircuit

inductive Formula (α : Type*)
  | leaf (a : α)
  | all (args : List (Formula α))
  | any (args : List (Formula α))
  | not (arg : Formula α)

variable {α ε : Type*}

@[elab_as_elim, induction_eliminator]
theorem Formula.induction {P : Formula α → Prop} (leaf : ∀ a, P (.leaf a))
    (all : ∀ args, (∀ t ∈ args, P t) → P (.all args))
    (any : ∀ args, (∀ t ∈ args, P t) → P (.any args))
    (not : ∀ arg, P arg → P (.not arg)) : ∀ t, P t
  | .leaf a => leaf a
  | .all args => all args fun t _ => Formula.induction leaf all any not t
  | .any args => any args fun t _ => Formula.induction leaf all any not t
  | .not arg => not arg (Formula.induction leaf all any not arg)

mutual

def Formula.eval (f : α → Except ε Bool) : Formula α → Except ε Bool
  | .leaf a => f a
  | .all args => evalAll f args
  | .any args => evalAny f args
  | .not arg => do return !(← arg.eval f)

def evalAll (f : α → Except ε Bool) : List (Formula α) → Except ε Bool
  | [] => .ok true
  | arg :: args => do if ← arg.eval f then evalAll f args else return false

def evalAny (f : α → Except ε Bool) : List (Formula α) → Except ε Bool
  | [] => .ok false
  | arg :: args => do if ← arg.eval f then return true else evalAny f args

end

/-- The leaves of a formula. -/
inductive Formula.Has : Formula α → α → Prop
  | leaf (a : α) : Has (.leaf a) a
  | all {args : List (Formula α)} {t : Formula α} {a : α} : t ∈ args → Has t a → Has (.all args) a
  | any {args : List (Formula α)} {t : Formula α} {a : α} : t ∈ args → Has t a → Has (.any args) a
  | not {arg : Formula α} {a : α} : Has arg a → Has (.not arg) a

/-! ## What the leaves decide -/

/-- The leaves decide a formula as soon as an argument settles it. -/
inductive Decides (f : α → Except ε Bool) : Formula α → Bool → Prop
  | leaf {a : α} {b : Bool} : f a = .ok b → Decides f (.leaf a) b
  | all {args : List (Formula α)} : (∀ t ∈ args, Decides f t true) → Decides f (.all args) true
  | fails {before after : List (Formula α)} {t : Formula α} : (∀ s ∈ before, Decides f s true) →
      Decides f t false → Decides f (.all (before ++ t :: after)) false
  | holds {before after : List (Formula α)} {t : Formula α} : (∀ s ∈ before, Decides f s false) →
      Decides f t true → Decides f (.any (before ++ t :: after)) true
  | any {args : List (Formula α)} : (∀ t ∈ args, Decides f t false) → Decides f (.any args) false
  | not {arg : Formula α} {b : Bool} : Decides f arg b → Decides f (.not arg) (!b)

/-- No earlier argument of a conjunction or disjunction on the way settles it. -/
inductive Reaches (f : α → Except ε Bool) : Formula α → α → Prop
  | leaf (a : α) : Reaches f (.leaf a) a
  | all {before after : List (Formula α)} {t : Formula α} {a : α} : (∀ s ∈ before, Decides f s true) →
      Reaches f t a → Reaches f (.all (before ++ t :: after)) a
  | any {before after : List (Formula α)} {t : Formula α} {a : α} : (∀ s ∈ before, Decides f s false) →
      Reaches f t a → Reaches f (.any (before ++ t :: after)) a
  | not {arg : Formula α} {a : α} : Reaches f arg a → Reaches f (.not arg) a

variable {f g : α → Except ε Bool}

theorem Reaches.has {t : Formula α} {a : α} (h : Reaches f t a) : t.Has a := by
  induction h with
  | leaf a => exact .leaf a
  | all _ _ ih => exact .all (List.mem_append_right _ List.mem_cons_self) ih
  | any _ _ ih => exact .any (List.mem_append_right _ List.mem_cons_self) ih
  | not _ ih => exact .not ih

theorem Reaches.any_cons {t : Formula α} {after : List (Formula α)} {a : α} (h : Reaches f t a) :
    Reaches f (.any (t :: after)) a := by
  have passed : ∀ s ∈ ([] : List (Formula α)), Decides f s false := by simp
  exact .any passed h

/-! ## Evaluation -/

section Arguments

theorem evalAll_append {before : List (Formula α)} (h : ∀ t ∈ before, t.eval f = .ok true)
    (args : List (Formula α)) : evalAll f (before ++ args) = evalAll f args := by
  induction before with
  | nil => rfl
  | cons t before ih =>
    have first := h t List.mem_cons_self
    rw [List.cons_append, evalAll, first]
    exact ih fun s mem => h s (List.mem_cons_of_mem t mem)

theorem evalAny_append {before : List (Formula α)} (h : ∀ t ∈ before, t.eval f = .ok false)
    (args : List (Formula α)) : evalAny f (before ++ args) = evalAny f args := by
  induction before with
  | nil => rfl
  | cons t before ih =>
    have first := h t List.mem_cons_self
    rw [List.cons_append, evalAny, first]
    exact ih fun s mem => h s (List.mem_cons_of_mem t mem)

theorem evalAll_cons_ne {t : Formula α} (h : t.eval f ≠ .ok true) (args : List (Formula α)) :
    evalAll f (t :: args) = t.eval f := by
  rw [evalAll]
  cases value : t.eval f with
  | error e => rfl
  | ok b =>
    cases b with
    | true => exact absurd value h
    | false => rfl

theorem evalAny_cons_ne {t : Formula α} (h : t.eval f ≠ .ok false) (args : List (Formula α)) :
    evalAny f (t :: args) = t.eval f := by
  rw [evalAny]
  cases value : t.eval f with
  | error e => rfl
  | ok b =>
    cases b with
    | true => rfl
    | false => exact absurd value h

theorem forall_or_first {β : Type*} (P : β → Prop) (items : List β) :
    (∀ x ∈ items, P x) ∨
      ∃ before x after, items = before ++ x :: after ∧ (∀ y ∈ before, P y) ∧ ¬ P x := by
  induction items with
  | nil => simp
  | cons x items ih =>
    by_cases first : P x
    · rcases ih with rest | ⟨before, y, after, rfl, rest, stops⟩
      · exact .inl (List.forall_mem_cons.mpr ⟨first, rest⟩)
      · exact .inr ⟨x :: before, y, after, rfl, List.forall_mem_cons.mpr ⟨first, rest⟩, stops⟩
    · exact .inr ⟨[], x, items, rfl, by simp, first⟩

theorem evalAll_cases (f : α → Except ε Bool) (args : List (Formula α)) :
    ((∀ t ∈ args, t.eval f = .ok true) ∧ evalAll f args = .ok true) ∨
      ∃ before t after, args = before ++ t :: after ∧ (∀ s ∈ before, s.eval f = .ok true) ∧
        t.eval f ≠ .ok true ∧ evalAll f args = t.eval f := by
  rcases forall_or_first (fun t : Formula α => t.eval f = .ok true) args with
    all | ⟨before, t, after, rfl, passed, stops⟩
  · have result := evalAll_append all []
    rw [List.append_nil] at result
    exact .inl ⟨all, result⟩
  · exact .inr ⟨before, t, after, rfl, passed, stops,
      (evalAll_append passed _).trans (evalAll_cons_ne stops after)⟩

/-- The arguments are all false, or a first one is not and settles the result. -/
theorem evalAny_cases (f : α → Except ε Bool) (args : List (Formula α)) :
    ((∀ t ∈ args, t.eval f = .ok false) ∧ evalAny f args = .ok false) ∨
      ∃ before t after, args = before ++ t :: after ∧ (∀ s ∈ before, s.eval f = .ok false) ∧
        t.eval f ≠ .ok false ∧ evalAny f args = t.eval f := by
  rcases forall_or_first (fun t : Formula α => t.eval f = .ok false) args with
    all | ⟨before, t, after, rfl, passed, stops⟩
  · have result := evalAny_append all []
    rw [List.append_nil] at result
    exact .inl ⟨all, result⟩
  · exact .inr ⟨before, t, after, rfl, passed, stops,
      (evalAny_append passed _).trans (evalAny_cons_ne stops after)⟩

end Arguments

theorem eval_not (f : α → Except ε Bool) (arg : Formula α) :
    (Formula.not arg).eval f = (arg.eval f).map (! ·) := by
  rw [Formula.eval]
  cases arg.eval f <;> rfl

theorem decides_of_eval {t : Formula α} : ∀ {b : Bool}, t.eval f = .ok b → Decides f t b := by
  induction t with
  | leaf a => exact fun h => .leaf h
  | all args ih =>
    intro b h
    rcases evalAll_cases f args with ⟨passed, result⟩ | ⟨before, t, after, rfl, passed, stops, result⟩
    · obtain rfl : true = b := Except.ok.inj (result.symm.trans h)
      exact .all fun t mem => ih t mem (passed t mem)
    · have value : t.eval f = .ok b := result.symm.trans h
      obtain rfl : b = false := by
        cases b with
        | true => exact absurd value stops
        | false => rfl
      exact .fails (fun s mem => ih s (List.mem_append_left _ mem) (passed s mem))
        (ih t (List.mem_append_right _ List.mem_cons_self) value)
  | any args ih =>
    intro b h
    rcases evalAny_cases f args with ⟨passed, result⟩ | ⟨before, t, after, rfl, passed, stops, result⟩
    · obtain rfl : false = b := Except.ok.inj (result.symm.trans h)
      exact .any fun t mem => ih t mem (passed t mem)
    · have value : t.eval f = .ok b := result.symm.trans h
      obtain rfl : b = true := by
        cases b with
        | true => rfl
        | false => exact absurd value stops
      exact .holds (fun s mem => ih s (List.mem_append_left _ mem) (passed s mem))
        (ih t (List.mem_append_right _ List.mem_cons_self) value)
  | not arg ih =>
    intro b h
    rw [eval_not] at h
    cases value : arg.eval f with
    | error e =>
      rw [value] at h
      cases h
    | ok c =>
      rw [value] at h
      obtain rfl : (!c) = b := Except.ok.inj h
      exact .not (ih value)

theorem eval_of_decides {t : Formula α} {b : Bool} (h : Decides f t b) : t.eval f = .ok b := by
  induction h with
  | leaf h => exact h
  | all _ ih =>
    have result := evalAll_append ih []
    rw [List.append_nil] at result
    exact result
  | fails _ _ passed value =>
    have stops := value.trans_ne (by simp : (Except.ok false : Except ε Bool) ≠ .ok true)
    exact (evalAll_append passed _).trans ((evalAll_cons_ne stops _).trans value)
  | holds _ _ passed value =>
    have stops := value.trans_ne (by simp : (Except.ok true : Except ε Bool) ≠ .ok false)
    exact (evalAny_append passed _).trans ((evalAny_cons_ne stops _).trans value)
  | any _ ih =>
    have result := evalAny_append ih []
    rw [List.append_nil] at result
    exact result
  | not _ ih =>
    rw [eval_not, ih]
    rfl

theorem reaches_of_eval {t : Formula α} {e : ε} :
    t.eval f = .error e → ∃ a, Reaches f t a ∧ f a = .error e := by
  induction t with
  | leaf a => exact fun h => ⟨a, .leaf a, h⟩
  | all args ih =>
    intro h
    rcases evalAll_cases f args with ⟨-, result⟩ | ⟨before, t, after, rfl, passed, -, result⟩
    · cases result.symm.trans h
    · obtain ⟨a, reached, fails⟩ :=
        ih t (List.mem_append_right _ List.mem_cons_self) (result.symm.trans h)
      exact ⟨a, .all (fun s mem => decides_of_eval (passed s mem)) reached, fails⟩
  | any args ih =>
    intro h
    rcases evalAny_cases f args with ⟨-, result⟩ | ⟨before, t, after, rfl, passed, -, result⟩
    · cases result.symm.trans h
    · obtain ⟨a, reached, fails⟩ :=
        ih t (List.mem_append_right _ List.mem_cons_self) (result.symm.trans h)
      exact ⟨a, .any (fun s mem => decides_of_eval (passed s mem)) reached, fails⟩
  | not arg ih =>
    intro h
    rw [eval_not] at h
    cases value : arg.eval f with
    | ok b =>
      rw [value] at h
      cases h
    | error e' =>
      rw [value] at h
      obtain rfl : e' = e := Except.error.inj h
      obtain ⟨a, reached, fails⟩ := ih value
      exact ⟨a, .not reached, fails⟩

theorem eval_of_reaches {t : Formula α} {a : α} {e : ε} (reached : Reaches f t a)
    (fails : f a = .error e) : t.eval f = .error e := by
  induction reached with
  | leaf a => exact fails
  | all passed _ ih =>
    have value := ih fails
    have stops := value.trans_ne (by simp : (Except.error e : Except ε Bool) ≠ .ok true)
    exact (evalAll_append (fun s mem => eval_of_decides (passed s mem)) _).trans
      ((evalAll_cons_ne stops _).trans value)
  | any passed _ ih =>
    have value := ih fails
    have stops := value.trans_ne (by simp : (Except.error e : Except ε Bool) ≠ .ok false)
    exact (evalAny_append (fun s mem => eval_of_decides (passed s mem)) _).trans
      ((evalAny_cons_ne stops _).trans value)
  | not _ ih =>
    rw [eval_not, ih fails]
    rfl

theorem eval_eq_error_iff {t : Formula α} {e : ε} :
    t.eval f = .error e ↔ ∃ a, Reaches f t a ∧ f a = .error e :=
  ⟨reaches_of_eval, fun ⟨_, reached, fails⟩ => eval_of_reaches reached fails⟩

theorem eval_congr {t : Formula α} (h : ∀ a, t.Has a → f a = g a) : t.eval f = t.eval g := by
  induction t with
  | leaf a => exact h a (.leaf a)
  | all args ih =>
    have each : ∀ t ∈ args, t.eval f = t.eval g :=
      fun t mem => ih t mem fun a has => h a (.all mem has)
    simp only [Formula.eval]
    clear ih h
    induction args with
    | nil => rfl
    | cons t args ih =>
      rw [evalAll, evalAll, each t List.mem_cons_self,
        ih fun s mem => each s (List.mem_cons_of_mem t mem)]
  | any args ih =>
    have each : ∀ t ∈ args, t.eval f = t.eval g :=
      fun t mem => ih t mem fun a has => h a (.any mem has)
    simp only [Formula.eval]
    clear ih h
    induction args with
    | nil => rfl
    | cons t args ih =>
      rw [evalAny, evalAny, each t List.mem_cons_self,
        ih fun s mem => each s (List.mem_cons_of_mem t mem)]
  | not arg ih =>
    rw [eval_not, eval_not, ih fun a has => h a (.not has)]

end OtDetection.ShortCircuit
