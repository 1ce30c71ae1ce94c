import OtDetection.RateLimiter

/-! The rate limiter under calls that overlap. A call reads the clock before it takes
the lock, so that it may enter with a reading that is older than those of calls before
it. The limit stands as long as no admission has been evicted that the reading still
has to count. -/

namespace OtDetection.ConcurrentLimiter
open SlidingLimit

/-- A call waits once it has read the clock; the log has the calls that have left the
locked section, in the order in which they held the lock. -/
structure State (κ τ : Type*) where
  clock : τ
  waiting : List (κ × τ)
  limiter : RateLimiter κ τ
  log : List (Entry κ τ)

inductive Action (κ τ : Type*)
  | tick (later : τ)
  | read (key : κ)
  | enter (index : ℕ)

variable {κ τ : Type*} [DecidableEq κ] [AddCommGroup τ] [LinearOrder τ]

namespace State

def start (limit : ℤ) (windowSeconds clock : τ) : State κ τ :=
  ⟨clock, [], RateLimiter.fresh limit windowSeconds, []⟩

def locked (state : State κ τ) (call : κ × τ) : State κ τ :=
  { state with
    limiter := (state.limiter.allow call.1 call.2).2
    log := state.log ++ [⟨call.1, call.2, (state.limiter.allow call.1 call.2).1⟩] }

def step (state : State κ τ) : Action κ τ → Option (State κ τ)
  | .tick later => if state.clock ≤ later then some { state with clock := later } else none
  | .read key => some { state with waiting := state.waiting ++ [(key, state.clock)] }
  | .enter index => state.waiting[index]?.map fun call =>
      { state.locked call with waiting := state.waiting.eraseIdx index }

/-- The queue still holds every admission younger than the window at the reading. -/
def Covers (state : State κ τ) (call : κ × τ) : Prop :=
  recent state.limiter.windowSeconds state.log call.1 call.2 ≤
    (state.limiter.hits call.1).countP fun hit => call.2 - hit < state.limiter.windowSeconds

def InOrder (state : State κ τ) (call : κ × τ) : Prop :=
  ∀ e ∈ state.log, e.key = call.1 → e.time ≤ call.2

end State

def Entering (meets : State κ τ → κ × τ → Prop) (state : State κ τ) : Action κ τ → Prop
  | .enter index => ∀ call ∈ state.waiting[index]?, meets state call
  | _ => True

/-- The states of the runs whose steps are all allowed. -/
inductive Reachable (allowed : State κ τ → Action κ τ → Prop) (limit : ℤ) (windowSeconds : τ) :
    State κ τ → Prop
  | start (clock : τ) : Reachable allowed limit windowSeconds (.start limit windowSeconds clock)
  | next {state next : State κ τ} {action : Action κ τ} :
      Reachable allowed limit windowSeconds state → allowed state action →
      state.step action = some next → Reachable allowed limit windowSeconds next

variable {allowed : State κ τ → Action κ τ → Prop} {limit : ℤ} {windowSeconds : τ}
  {state next : State κ τ} {action : Action κ τ}

theorem step_cases (h : state.step action = some next) :
    (next.limiter = state.limiter ∧ next.log = state.log) ∨
      ∃ index call, action = .enter index ∧ state.waiting[index]? = some call ∧
        next.limiter = (state.limiter.allow call.1 call.2).2 ∧
        next.log = state.log ++ [⟨call.1, call.2, (state.limiter.allow call.1 call.2).1⟩] := by
  cases action with
  | tick later =>
    rw [State.step] at h
    split at h
    · obtain rfl := Option.some.inj h
      exact .inl ⟨rfl, rfl⟩
    · cases h
  | read key =>
    obtain rfl := Option.some.inj h
    exact .inl ⟨rfl, rfl⟩
  | enter index =>
    obtain ⟨call, found, rfl⟩ := Option.map_eq_some_iff.mp h
    exact .inr ⟨index, call, rfl, found, rfl, rfl⟩

theorem Reachable.invariant {P : RateLimiter κ τ → List (Entry κ τ) → Prop}
    (reached : Reachable allowed limit windowSeconds state)
    (initial : P (RateLimiter.fresh limit windowSeconds) [])
    (kept : ∀ state index call, allowed state (.enter index) → state.waiting[index]? = some call →
      P state.limiter state.log → P (state.limiter.allow call.1 call.2).2
        (state.log ++ [⟨call.1, call.2, (state.limiter.allow call.1 call.2).1⟩])) :
    P state.limiter state.log := by
  induction reached with
  | start clock => exact initial
  | next _ meets step ih =>
    rcases step_cases step with ⟨limiter, log⟩ | ⟨index, call, rfl, found, limiter, log⟩
    · rwa [limiter, log]
    · rw [limiter, log]
      exact kept _ index call meets found ih

theorem Reachable.parameters (reached : Reachable allowed limit windowSeconds state) :
    state.limiter.limit = limit ∧ state.limiter.windowSeconds = windowSeconds := by
  refine reached.invariant (P := fun limiter _ => limiter.limit = limit ∧
    limiter.windowSeconds = windowSeconds) ⟨rfl, rfl⟩ fun state _ call _ _ same => ?_
  rw [RateLimiter.limit_allow, RateLimiter.windowSeconds_allow]
  exact same

/-! ## What the limiter still guarantees -/

theorem countP_evict (windowSeconds now : τ) (hits : List τ) :
    (hits.countP fun hit => now - hit < windowSeconds) ≤
      (RateLimiter.evict windowSeconds now hits).length := by
  obtain ⟨dropped, split, old⟩ := RateLimiter.evict_split windowSeconds now hits
  have none : (dropped.countP fun hit => now - hit < windowSeconds) = 0 :=
    List.countP_eq_zero.mpr fun hit mem young =>
      absurd (old hit mem) (not_le.mpr (of_decide_eq_true young))
  calc (hits.countP fun hit => now - hit < windowSeconds)
      = ((dropped ++ RateLimiter.evict windowSeconds now hits).countP fun hit =>
          now - hit < windowSeconds) := by rw [← split]
    _ = (RateLimiter.evict windowSeconds now hits).countP fun hit => now - hit < windowSeconds := by
        rw [List.countP_append, none, Nat.zero_add]
    _ ≤ (RateLimiter.evict windowSeconds now hits).length := List.countP_le_length

theorem State.Covers.room {call : κ × τ} (covers : state.Covers call)
    (admitted : (state.limiter.allow call.1 call.2).1 = true) :
    (recent state.limiter.windowSeconds state.log call.1 call.2 : ℤ) < state.limiter.limit := by
  have counted := covers.trans (countP_evict _ call.2 (state.limiter.hits call.1))
  rcases state.limiter.allow_cases call.1 call.2 with ⟨-, rejects⟩ | ⟨below, -⟩
  · rw [rejects] at admitted
    cases admitted
  · omega

/-- The limit holds in every run in which no call enters after the eviction of an
admission that is younger than the window at its reading. -/
theorem reachable_withinLimit [IsOrderedAddMonoid τ] (nonneg : 0 ≤ limit)
    (reached : Reachable (Entering State.Covers) limit windowSeconds state) :
    WithinLimit limit windowSeconds state.log := by
  induction reached with
  | start clock => exact withinLimit_nil nonneg
  | @next before after action reached meets step ih =>
    obtain ⟨same, window⟩ := reached.parameters
    rcases step_cases step with ⟨-, log⟩ | ⟨index, call, rfl, found, -, log⟩
    · rwa [log]
    · have covers : before.Covers call := meets call found
      rw [log]
      refine ih.snoc fun admitted => ?_
      have room := covers.room admitted
      rwa [same, window] at room

/-! ## Two runs -/

instance (state : State κ τ) (call : κ × τ) : Decidable (state.Covers call) :=
  inferInstanceAs (Decidable (_ ≤ _))

instance (state : State κ τ) (action : Action κ τ) :
    Decidable (Entering State.Covers state action) :=
  match action with
  | .enter index => decidable_of_iff (state.waiting[index]?.all (state.Covers ·) = true) (by
      cases found : state.waiting[index]? <;> simp [Entering, found])
  | .tick _ => isTrue trivial
  | .read _ => isTrue trivial

def run (allowed : State κ τ → Action κ τ → Prop) [∀ state action, Decidable (allowed state action)]
    (state : State κ τ) : List (Action κ τ) → Option (State κ τ)
  | [] => some state
  | action :: actions =>
    if allowed state action then (state.step action).bind fun next => run allowed next actions
    else none

theorem Reachable.run [∀ state action, Decidable (allowed state action)]
    (reached : Reachable allowed limit windowSeconds state) {actions : List (Action κ τ)}
    (h : run allowed state actions = some next) : Reachable allowed limit windowSeconds next := by
  induction actions generalizing state with
  | nil => exact Option.some.inj h ▸ reached
  | cons action actions ih =>
    rw [ConcurrentLimiter.run] at h
    split at h
    · rename_i meets
      obtain ⟨after, step, h⟩ := Option.bind_eq_some_iff.mp h
      exact ih (reached.next meets step) h
    · cases h

def overtaken : List (Action ℕ ℤ) := [.read 0, .tick 3, .read 0, .enter 1, .enter 0]

theorem reachable_withinLimit_overtaken :
    ∃ state : State ℕ ℤ, state.log = [⟨0, 3, true⟩, ⟨0, 0, true⟩] ∧
      WithinLimit 2 10 state.log := by
  have log : (run (Entering State.Covers) (State.start 2 10 0) overtaken).map State.log =
      some [⟨0, 3, true⟩, ⟨0, 0, true⟩] := by decide
  obtain ⟨state, h, log⟩ := Option.map_eq_some_iff.mp log
  exact ⟨state, log, reachable_withinLimit (by decide) ((Reachable.start 0).run h)⟩

def delayed : List (Action ℕ ℤ) :=
  [.read 0, .enter 0, .tick 1, .read 0, .enter 0, .tick 5, .read 0, .tick 11, .read 0, .enter 1,
    .enter 0]

theorem reachable_exceeds_delayed :
    ∃ state : State ℕ ℤ, Reachable (fun _ _ => True) 2 10 state ∧
      state.log = [⟨0, 0, true⟩, ⟨0, 1, true⟩, ⟨0, 11, true⟩, ⟨0, 5, true⟩] ∧
      ¬ WithinLimit 2 10 state.log := by
  have log : (run (fun _ _ => True) (State.start 2 10 0) delayed).map State.log =
      some [⟨0, 0, true⟩, ⟨0, 1, true⟩, ⟨0, 11, true⟩, ⟨0, 5, true⟩] := by decide
  obtain ⟨state, h, log⟩ := Option.map_eq_some_iff.mp log
  refine ⟨state, (Reachable.start 0).run h, log, fun within => ?_⟩
  have three := within 0 0
  rw [log] at three
  exact absurd three (by decide)

/-! ## Calls in the order of their readings -/

def admissions (log : List (Entry κ τ)) (key : κ) : List τ :=
  (log.filter fun e => e.key = key ∧ e.admitted).map (·.time)

/-- The queue is what is left of the admissions once some calls have evicted the front. -/
def Evicted (limiter : RateLimiter κ τ) (log : List (Entry κ τ)) : Prop :=
  ∀ key, ∃ dropped, admissions log key = dropped ++ limiter.hits key ∧
    ∀ hit ∈ dropped, ∃ e ∈ log, e.key = key ∧ limiter.windowSeconds ≤ e.time - hit

theorem recent_eq_countP (log : List (Entry κ τ)) (key : κ) (now : τ) :
    recent windowSeconds log key now =
      (admissions log key).countP fun hit => now - hit < windowSeconds := by
  rw [recent, admissions, List.countP_map, List.countP_filter]
  refine List.countP_congr fun e _ => ?_
  simp only [Function.comp_apply, Bool.and_eq_true, decide_eq_true_eq]
  tauto

theorem Evicted.allow {limiter : RateLimiter κ τ} {log : List (Entry κ τ)}
    (evicted : Evicted limiter log) (key : κ) (now : τ) :
    Evicted (limiter.allow key now).2 (log ++ [⟨key, now, (limiter.allow key now).1⟩]) := by
  intro client
  rw [RateLimiter.windowSeconds_allow]
  obtain ⟨dropped, split, old⟩ := evicted client
  by_cases same : client = key
  · subst same
    obtain ⟨more, queue, expired⟩ :=
      RateLimiter.evict_split limiter.windowSeconds now (limiter.hits client)
    have gone : ∀ answer, ∀ hit ∈ dropped ++ more, ∃ e ∈ log ++ [⟨client, now, answer⟩],
        e.key = client ∧ limiter.windowSeconds ≤ e.time - hit := by
      intro answer hit mem
      rcases List.mem_append.mp mem with before | now
      · obtain ⟨e, logged, own⟩ := old hit before
        exact ⟨e, List.mem_append_left _ logged, own⟩
      · exact ⟨_, List.mem_append_right _ List.mem_cons_self, rfl, expired hit now⟩
    rcases limiter.allow_cases client now with ⟨-, rejects⟩ | ⟨-, admits⟩
    · rw [rejects]
      refine ⟨dropped ++ more, ?_, gone false⟩
      rw [RateLimiter.hits_setHits_self, List.append_assoc, ← queue, ← split]
      simp [admissions]
    · rw [admits]
      refine ⟨dropped ++ more, ?_, gone true⟩
      rw [RateLimiter.hits_setHits_self, List.append_assoc, ← List.append_assoc more, ← queue,
        ← List.append_assoc, ← split]
      simp [admissions]
  · refine ⟨dropped, ?_, fun hit mem => ?_⟩
    · have hits : (limiter.allow key now).2.hits client = limiter.hits client := by
        rcases limiter.allow_cases key now with ⟨-, rejects⟩ | ⟨-, admits⟩
        · rw [rejects, RateLimiter.hits_setHits_of_ne _ same]
        · rw [admits, RateLimiter.hits_setHits_of_ne _ same]
      rw [hits, ← split]
      simp [admissions, Ne.symm same]
    · obtain ⟨e, logged, own⟩ := old hit mem
      exact ⟨e, List.mem_append_left _ logged, own⟩

theorem Reachable.evicted (reached : Reachable allowed limit windowSeconds state) :
    Evicted state.limiter state.log :=
  reached.invariant (fun _ => ⟨[], rfl, by simp⟩) fun _ _ call _ _ ih => ih.allow call.1 call.2

/-- As long as the clients enter in the order of their readings the queue covers them. -/
theorem Reachable.covers_of_inOrder [IsOrderedAddMonoid τ]
    (reached : Reachable allowed limit windowSeconds state) {call : κ × τ}
    (order : state.InOrder call) : state.Covers call := by
  obtain ⟨dropped, split, old⟩ := reached.evicted call.1
  have none : (dropped.countP fun hit => call.2 - hit < state.limiter.windowSeconds) = 0 := by
    refine List.countP_eq_zero.mpr fun hit mem young => ?_
    obtain ⟨e, logged, own, expired⟩ := old hit mem
    have later := sub_le_sub_right (order e logged own) hit
    exact absurd (expired.trans later) (not_le.mpr (of_decide_eq_true young))
  rw [State.Covers, recent_eq_countP, split, List.countP_append, none, Nat.zero_add]

theorem Reachable.of_inOrder [IsOrderedAddMonoid τ]
    (reached : Reachable (Entering State.InOrder) limit windowSeconds state) :
    Reachable (Entering State.Covers) limit windowSeconds state := by
  induction reached with
  | start clock => exact .start clock
  | @next before after action _ meets step ih =>
    refine ih.next ?_ step
    cases action with
    | tick later => trivial
    | read key => trivial
    | enter index => exact fun call found => ih.covers_of_inOrder (meets call found)

end OtDetection.ConcurrentLimiter
