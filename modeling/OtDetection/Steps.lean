import Mathlib.Data.List.Forall2
import Mathlib.Tactic.Common

/-! Computations that may end in an error, taken apart: what has a result had one at every
step. -/

namespace OtDetection.ExceptSteps

variable {α β σ ε : Type*}

theorem bind_eq_ok_iff {x : Except ε α} {f : α → Except ε β} {b : β} :
    x.bind f = .ok b ↔ ∃ a, x = .ok a ∧ f a = .ok b := by
  cases x with
  | error e => simp [Except.bind]
  | ok a => simp [Except.bind]

theorem bind_eq_error_iff {x : Except ε α} {f : α → Except ε β} {e : ε} :
    x.bind f = .error e ↔ x = .error e ∨ ∃ a, x = .ok a ∧ f a = .error e := by
  cases x with
  | error e' => simp [Except.bind]
  | ok a => simp [Except.bind]

theorem map_eq_ok_iff {x : Except ε α} {f : α → β} {b : β} :
    x.map f = .ok b ↔ ∃ a, x = .ok a ∧ f a = b := by
  cases x with
  | error e => simp [Except.map]
  | ok a => simp [Except.map]

theorem map_returns_iff {x : Except ε α} {f : α → β} :
    (∃ b, x.map f = .ok b) ↔ ∃ a, x = .ok a := by
  cases x <;> simp [Except.map]

theorem map_eq_error_iff {x : Except ε α} {f : α → β} {e : ε} :
    x.map f = .error e ↔ x = .error e := by
  cases x <;> simp [Except.map]

theorem mapError_eq_ok_iff {ε' : Type*} {x : Except ε α} {f : ε → ε'} {a : α} :
    x.mapError f = .ok a ↔ x = .ok a := by
  cases x <;> simp [Except.mapError]

theorem foldlM_cons_eq_ok_iff {step : σ → α → Except ε σ} {s next : σ} {a : α} {elements : List α} :
    (a :: elements).foldlM step s = .ok next ↔
      ∃ middle, step s a = .ok middle ∧ elements.foldlM step middle = .ok next := by
  rw [List.foldlM_cons]
  exact bind_eq_ok_iff

theorem foldlM_returns {step : σ → α → Except ε σ} {elements : List α}
    (returns : ∀ s, ∀ a ∈ elements, ∃ next, step s a = .ok next) (s : σ) :
    ∃ next, elements.foldlM step s = .ok next := by
  induction elements generalizing s with
  | nil => exact ⟨s, rfl⟩
  | cons a elements ih =>
    obtain ⟨middle, first⟩ := returns s a List.mem_cons_self
    obtain ⟨next, rest⟩ := ih (fun s b mem => returns s b (List.mem_cons_of_mem a mem)) middle
    exact ⟨next, foldlM_cons_eq_ok_iff.mpr ⟨middle, first, rest⟩⟩

theorem mapM_eq_ok_iff {f : α → Except ε β} {elements : List α} {results : List β} :
    elements.mapM f = .ok results ↔ List.Forall₂ (fun a b => f a = .ok b) elements results := by
  induction elements generalizing results with
  | nil =>
    rw [List.mapM_nil, List.forall₂_nil_left_iff]
    exact ⟨fun same => (Except.ok.inj same).symm, fun same => congrArg Except.ok same.symm⟩
  | cons a elements ih =>
    rw [List.mapM_cons]
    refine bind_eq_ok_iff.trans ⟨?_, ?_⟩
    · rintro ⟨b, first, rest⟩
      obtain ⟨others, later, same⟩ := bind_eq_ok_iff.mp rest
      obtain rfl := Except.ok.inj same
      exact .cons first (ih.mp later)
    · rintro (_ | ⟨first, later⟩)
      exact ⟨_, first, bind_eq_ok_iff.mpr ⟨_, ih.mpr later, rfl⟩⟩

theorem mem_mapM_iff {f : α → Except ε β} {elements : List α} {results : List β}
    (run : elements.mapM f = .ok results) (b : β) :
    b ∈ results ↔ ∃ a ∈ elements, f a = .ok b := by
  have each := mapM_eq_ok_iff.mp run
  clear run
  induction each with
  | nil => simp
  | cons first _ ih =>
    simp only [List.mem_cons, exists_eq_or_imp, ih, first, Except.ok.injEq]
    exact or_congr_left eq_comm

theorem mapM_eq_filterMap {f : α → Except ε β} {elements : List α} {results : List β}
    (run : elements.mapM f = .ok results) :
    results = elements.filterMap fun a => (f a).toOption := by
  induction elements generalizing results with
  | nil => exact (Except.ok.inj run).symm
  | cons a elements ih =>
    rw [List.mapM_cons] at run
    obtain ⟨b, first, run⟩ := bind_eq_ok_iff.mp run
    obtain ⟨rest, others, run⟩ := bind_eq_ok_iff.mp run
    obtain rfl := Except.ok.inj run
    rw [ih others, List.filterMap_cons, first]
    rfl

theorem map_eq_of_mapM {γ : Type*} {f : α → Except ε β} {elements : List α} {results : List β}
    (run : elements.mapM f = .ok results) {g : β → γ} {h : α → γ}
    (same : ∀ a b, f a = .ok b → g b = h a) : results.map g = elements.map h := by
  have each := mapM_eq_ok_iff.mp run
  clear run
  induction each with
  | nil => rfl
  | cons first _ ih => rw [List.map_cons, List.map_cons, same _ _ first, ih]

theorem mapM_error {f : α → Except ε β} {elements : List α} {e : ε}
    (run : elements.mapM f = .error e) : ∃ a ∈ elements, f a = .error e := by
  induction elements with
  | nil => exact nomatch run
  | cons a elements ih =>
    rw [List.mapM_cons] at run
    cases first : f a with
    | error other =>
      rw [first] at run
      obtain rfl := Except.error.inj run
      exact ⟨a, List.mem_cons_self, first⟩
    | ok b =>
      cases later : elements.mapM f with
      | error other =>
        rw [first, later] at run
        obtain rfl := Except.error.inj run
        obtain ⟨c, mem, failed⟩ := ih later
        exact ⟨c, List.mem_cons_of_mem a mem, failed⟩
      | ok results =>
        rw [first, later] at run
        exact nomatch run

theorem mapM_returns_iff {f : α → Except ε β} {elements : List α} :
    (∃ results, elements.mapM f = .ok results) ↔ ∀ a ∈ elements, ∃ b, f a = .ok b := by
  simp only [mapM_eq_ok_iff]
  induction elements with
  | nil => exact iff_of_true ⟨[], .nil⟩ (List.forall_mem_nil _)
  | cons a elements ih =>
    rw [List.forall_mem_cons, ← ih]
    constructor
    · rintro ⟨_, _ | ⟨first, later⟩⟩
      exact ⟨⟨_, first⟩, _, later⟩
    · rintro ⟨⟨b, first⟩, results, later⟩
      exact ⟨b :: results, .cons first later⟩

theorem foldlM_map_eq (read : α → Except ε β) (add : σ → β → σ) (elements : List α) (s : σ) :
    elements.foldlM (fun s a => (read a).map (add s)) s =
      (elements.mapM read).map fun values => values.foldl add s := by
  induction elements generalizing s with
  | nil => rfl
  | cons a elements ih =>
    rw [List.foldlM_cons, List.mapM_cons]
    cases read a with
    | error e => rfl
    | ok value =>
      have rest := ih (add s value)
      cases values : elements.mapM read with
      | error e =>
        rw [values] at rest
        exact rest
      | ok values =>
        rw [values] at rest
        exact rest

end OtDetection.ExceptSteps

/-! Machines that answer each of their inputs. What a step keeps a run keeps, and where other
inputs leave the part of the state that decides some answers, these are as without them. -/

namespace OtDetection.MachineRuns

variable {σ ι ω ν : Type*} (step : σ → ι → ω × σ)

/-- The inputs with their answers, one after another. -/
def run (state : σ) : List ι → List (ι × ω)
  | [] => []
  | input :: inputs => (input, (step state input).1) :: run (step state input).2 inputs

variable {step}

theorem run_invariant {P : σ → Prop} {Q : ι → ω → Prop} {inputs : List ι}
    (kept : ∀ state, ∀ input ∈ inputs, P state →
      Q input (step state input).1 ∧ P (step state input).2)
    {state : σ} (start : P state) : ∀ answer ∈ run step state inputs, Q answer.1 answer.2 := by
  induction inputs generalizing state with
  | nil => exact List.forall_mem_nil _
  | cons input inputs ih =>
    obtain ⟨here, next⟩ := kept state input List.mem_cons_self start
    exact List.forall_mem_cons.mpr
      ⟨here, ih (fun state other mem => kept state other (List.mem_cons_of_mem input mem)) next⟩

/-- The answers to some inputs depend on a part of the state, which these inputs move by itself and
which the others leave. -/
structure Separates (step : σ → ι → ω × σ) (view : σ → ν) (own : ι → Bool) : Prop where
  answers : ∀ {input} {state state' : σ}, own input = true → view state = view state' →
    (step state input).1 = (step state' input).1
  moves : ∀ {input} {state state' : σ}, own input = true → view state = view state' →
    view (step state input).2 = view (step state' input).2
  leaves : ∀ {input} (state : σ), own input = false → view (step state input).2 = view state

/-- The inputs of its own are answered as if there were no others. -/
theorem Separates.run_filter {view : σ → ν} {own : ι → Bool} (separates : Separates step view own)
    {state state' : σ} (same : view state = view state') (inputs : List ι) :
    (run step state inputs).filter (fun answer => own answer.1) =
      run step state' (inputs.filter own) := by
  induction inputs generalizing state state' with
  | nil => rfl
  | cons input inputs ih =>
    cases mine : own input with
    | true =>
      have later := ih (separates.moves mine same)
      rw [List.filter_cons_of_pos mine, run, run]
      refine (List.filter_cons_of_pos (p := fun answer : ι × ω => own answer.1) mine).trans ?_
      rw [later, separates.answers mine same]
    | false =>
      have foreign : ¬ own input = true := by simp [mine]
      rw [List.filter_cons_of_neg foreign, run]
      refine (List.filter_cons_of_neg (p := fun answer : ι × ω => own answer.1) foreign).trans ?_
      exact ih ((separates.leaves state mine).trans same)

end OtDetection.MachineRuns
