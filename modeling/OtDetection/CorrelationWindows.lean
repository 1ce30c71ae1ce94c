import OtDetection.CorrelationSearch
import Mathlib.Data.Real.Basic

/-! The declared meaning of a correlation is a window over all instants. The search
finds every such window when the condition can only be reached by more events, and
not otherwise. -/

namespace OtDetection.Correlation
open PyText FieldLookup SlidingWindow

section Windows

variable {Rule ε : Type} (matchRule : Rule → Event → Except ε Bool) (isPrintable : ℕ → Bool)
  (fromisoformat : Text → Option DateTime) (rule : CorrelationRule Rule) (condition : Condition)

/-- The declared meaning: in some window of the timespan, from whichever instant on,
some group has an event and a count that satisfies the condition. -/
def Fires (seconds : ℤ) (events : List Event) : Prop :=
  ∃ s : ℝ, ∃ g : List HashKey, Meets (fun o : Observed => (o.moment : ℝ)) (·.key)
    (Satisfies rule.type condition)
    (observed matchRule isPrintable fromisoformat rule condition events)
    s (s + seconds * 1000000) g

variable {matchRule isPrintable fromisoformat rule condition}

theorem meets_cast (satisfied : List Observed → Prop) (entries : List Observed) (start stop : ℤ)
    (g : List HashKey) :
    Meets (fun o : Observed => (o.moment : ℝ)) (·.key) satisfied entries start stop g ↔
      Meets Observed.moment (·.key) satisfied entries start stop g := by
  rw [Meets, Meets, within_strictMono (Int.cast_strictMono (R := ℝ))]

theorem meets_from (satisfied : List Observed → Prop) (entries : List Observed)
    (moment seconds : ℤ) (g : List HashKey) :
    Meets (fun o : Observed => (o.moment : ℝ)) (·.key) satisfied entries moment
        (moment + seconds * 1000000) g ↔
      Meets Observed.moment (·.key) satisfied entries moment (moment + seconds * 1000000) g := by
  rw [← meets_cast]
  push_cast
  rfl

theorem meets_until (satisfied : List Observed → Prop) (entries : List Observed)
    (moment seconds : ℤ) (g : List HashKey) :
    Meets (fun o : Observed => (o.moment : ℝ)) (·.key) satisfied entries
        (moment - seconds * 1000000) moment g ↔
      Meets Observed.moment (·.key) satisfied entries (moment - seconds * 1000000) moment g := by
  rw [← meets_cast]
  push_cast
  rfl

theorem count_mono (type : CorrelationType) {few many : List Observed} (h : few.Subperm many) :
    count type few ≤ count type many := by
  unfold count
  split
  · refine Finset.card_le_card fun value inside => ?_
    have mapped : (few.map (·.value)) ⊆ many.map (·.value) := List.map_subset _ h.subset
    exact List.mem_toFinset.mpr (mapped (List.mem_toFinset.mp inside))
  · exact h.length_le

theorem satisfies_grows (type : CorrelationType) {condition : Condition}
    (h : condition.op = .gt ∨ condition.op = .gte) : Grows (Satisfies type condition) := by
  intro few many sub
  have more := count_mono type sub
  unfold Satisfies
  rcases h with op | op
  · simp only [op, ConditionOperator.compare, decide_eq_true_eq]
    omega
  · simp only [op, ConditionOperator.compare, decide_eq_true_eq]
    omega

theorem fires_iff_anchored (h : condition.op = .gt ∨ condition.op = .gte) (seconds : ℤ)
    (events : List Event) :
    Fires (ε := ε) matchRule isPrintable fromisoformat rule condition seconds events ↔
      ∃ o ∈ observed matchRule isPrintable fromisoformat rule condition events, ∃ g,
        Meets (·.moment) (·.key) (Satisfies rule.type condition)
          (observed matchRule isPrintable fromisoformat rule condition events)
          o.moment (o.moment + seconds * 1000000) g := by
  rw [Fires, exists_meets_iff_of_grows (satisfies_grows rule.type h)]
  exact exists_congr fun o => and_congr_right fun _ => exists_congr fun g => meets_from _ _ _ _ g

theorem observed_subperm {few many : List Event} (h : few.Subperm many) :
    (observed (ε := ε) matchRule isPrintable fromisoformat rule condition few).Subperm
      (observed matchRule isPrintable fromisoformat rule condition many) := by
  obtain ⟨same, perm, sub⟩ := h
  exact ⟨_, perm.filterMap _, sub.filterMap _⟩

theorem Suitable.perm {events other : List Event} (h : events.Perm other)
    (suitable : Suitable matchRule isPrintable fromisoformat rule condition events) :
    Suitable matchRule isPrintable fromisoformat rule condition other :=
  ⟨fun e mem => suitable.evaluated e (h.mem_iff.mpr mem),
    fun e mem => suitable.timed e (h.mem_iff.mpr mem),
    fun e mem => suitable.grouped e (h.mem_iff.mpr mem),
    fun e mem => suitable.counted e (h.mem_iff.mpr mem)⟩

theorem InRange.perm {seconds : ℤ} {events other : List Event} (h : events.Perm other)
    (room : InRange (ε := ε) matchRule isPrintable fromisoformat rule condition seconds events) :
    InRange (ε := ε) matchRule isPrintable fromisoformat rule condition seconds other :=
  fun o mem => room o ((observed_subperm h.symm.subperm).subset mem)

theorem Fires.subperm (h : condition.op = .gt ∨ condition.op = .gte) {seconds : ℤ}
    {few many : List Event} (sub : few.Subperm many)
    (fires : Fires (ε := ε) matchRule isPrintable fromisoformat rule condition seconds few) :
    Fires matchRule isPrintable fromisoformat rule condition seconds many := by
  obtain ⟨s, g, meets⟩ := fires
  exact ⟨s, g, meets.subperm (satisfies_grows rule.type h) (observed_subperm sub)⟩

end Windows

/-! A rule with one equality, and three events in two seconds. -/

def equals (selection : Text × Text) (event : Event) : Except Text Bool :=
  .ok (decide (hashKey (lookupField event selection.1) = some (.str selection.2)))

def ten : DateTime := ⟨63913226400000000, some 0, by decide⟩

def tenAndOne : DateTime := ⟨63913226401000000, some 0, by decide⟩

def tenOClock (text : Text) : Option DateTime :=
  [(codes "2026-05-01T10:00:00+00:00", ten), (codes "2026-05-01T10:00:01+00:00", tenAndOne)].lookup
    text

def flood (op : ConditionOperator) (count : ℤ) : CorrelationRule (Text × Text) :=
  { title := codes "flood"
    type := .eventCount
    referencedRules := [some (codes "service", codes "modbus")]
    condition := some ⟨op, count, none⟩
    groupBy := some [codes "src_ip"]
    timespan := some 10 }

def floodEvent (time : String) : Event :=
  [("timestamp", time), ("service", "modbus"), ("src_ip", "172.24.0.10")].map
    fun field => (codes field.1, .str (codes field.2))

def floodEvents : List Event :=
  [floodEvent "2026-05-01T10:00:00Z", floodEvent "2026-05-01T10:00:01Z",
    floodEvent "2026-05-01T10:00:01Z"]

theorem flood_resolved (op : ConditionOperator) (count : ℤ) :
    Resolved (flood op count) ⟨op, count, none⟩ 10 :=
  ⟨.inr rfl, by simp [flood], by simp [flood], rfl, by simp [flood], rfl⟩

theorem flood_suitable (op : ConditionOperator) (count : ℤ) :
    Suitable equals (fun _ => true) tenOClock (flood op count) ⟨op, count, none⟩ floodEvents := by
  have members : ∀ event ∈ floodEvents, event = floodEvent "2026-05-01T10:00:00Z" ∨
      event = floodEvent "2026-05-01T10:00:01Z" := by
    simp [floodEvents]
  refine ⟨fun event mem => ?_, fun event mem _ => ?_, fun event mem _ => ?_, fun event mem _ => ?_⟩
  · rcases members event mem with rfl | rfl
    · exact ⟨true, rfl⟩
    · exact ⟨true, rfl⟩
  · rcases members event mem with rfl | rfl
    · exact ⟨_, rfl, by decide⟩
    · exact ⟨_, rfl, by decide⟩
  · rcases members event mem with rfl | rfl
    · exact ⟨_, rfl⟩
    · exact ⟨_, rfl⟩
  · exact ⟨_, rfl⟩

theorem flood_observed (op : ConditionOperator) (count : ℤ) :
    observed equals (fun _ => true) tenOClock (flood op count) ⟨op, count, none⟩ floodEvents =
      [⟨ten, [.str (codes "172.24.0.10")], .none⟩, ⟨tenAndOne, [.str (codes "172.24.0.10")], .none⟩,
        ⟨tenAndOne, [.str (codes "172.24.0.10")], .none⟩] := rfl

theorem flood_inRange (op : ConditionOperator) (count : ℤ) :
    InRange equals (fun _ => true) tenOClock (flood op count) ⟨op, count, none⟩ 10 floodEvents := by
  rw [InRange, flood_observed]
  decide

section Windows

variable {Rule ε : Type} {matchRule : Rule → Event → Except ε Bool} {isPrintable : ℕ → Bool}
  {fromisoformat : Text → Option DateTime} {rule : CorrelationRule Rule} {condition : Condition}

/-- Above a threshold the evaluator finds every window there is: its answer is that
of the declared meaning, whatever the order of the events, and more events never
take an alert back. -/
theorem matchCorrelation_above {seconds : ℤ} {events : List Event}
    (resolved : Resolved rule condition seconds) (above : condition.op = .gt ∨ condition.op = .gte)
    (h : Suitable matchRule isPrintable fromisoformat rule condition events)
    (room : InRange (ε := ε) matchRule isPrintable fromisoformat rule condition seconds events) :
    (∃ b, matchCorrelation matchRule isPrintable fromisoformat rule events = .ok b ∧
      (b = true ↔ Fires matchRule isPrintable fromisoformat rule condition seconds events)) ∧
    (∀ other, events.Perm other →
      matchCorrelation matchRule isPrintable fromisoformat rule other =
        matchCorrelation matchRule isPrintable fromisoformat rule events) ∧
    ∀ more, events.Subperm more →
      Suitable matchRule isPrintable fromisoformat rule condition more →
      InRange (ε := ε) matchRule isPrintable fromisoformat rule condition seconds more →
      matchCorrelation matchRule isPrintable fromisoformat rule events = .ok true →
      matchCorrelation matchRule isPrintable fromisoformat rule more = .ok true := by
  have decides : ∀ events, Suitable matchRule isPrintable fromisoformat rule condition events →
      InRange (ε := ε) matchRule isPrintable fromisoformat rule condition seconds events →
      ∃ b, matchCorrelation matchRule isPrintable fromisoformat rule events = .ok b ∧
        (b = true ↔ Fires matchRule isPrintable fromisoformat rule condition seconds events) := by
    intro events suitable room
    obtain ⟨b, evaluates⟩ := matchCorrelation_returns resolved suitable room
    have finds := matchCorrelation_eq_true_iff resolved suitable
    rw [evaluates, Except.ok.injEq, found_iff_of_room _ _ room] at finds
    exact ⟨b, evaluates, finds.trans (fires_iff_anchored above seconds events).symm⟩
  obtain ⟨b, evaluates, finds⟩ := decides events h room
  refine ⟨⟨b, evaluates, finds⟩, fun other perm => ?_, fun more sub suitable inside fired => ?_⟩
  · obtain ⟨b', evaluates', finds'⟩ := decides other (h.perm perm) (room.perm perm)
    have same : b' = true ↔ b = true := by
      rw [finds, finds']
      exact ⟨Fires.subperm above perm.symm.subperm, Fires.subperm above perm.subperm⟩
    rw [evaluates, evaluates', Bool.eq_iff_iff.mpr same]
  · obtain ⟨b', evaluates', finds'⟩ := decides more suitable inside
    obtain rfl : true = b := by rwa [fired, Except.ok.injEq] at evaluates
    rw [evaluates', finds'.mpr (Fires.subperm above sub (finds.mp rfl))]

theorem matchCorrelation_above_flood :
    Fires equals (fun _ => true) tenOClock (flood .gte 3) ⟨.gte, 3, none⟩ 10 floodEvents ∧
      matchCorrelation equals (fun _ => true) tenOClock (flood .gte 3) floodEvents.reverse =
        .ok true := by
  obtain ⟨⟨b, evaluates, finds⟩, order, -⟩ :=
    matchCorrelation_above (flood_resolved .gte 3) (.inr rfl) (flood_suitable .gte 3)
      (flood_inRange .gte 3)
  have run : matchCorrelation equals (fun _ => true) tenOClock (flood .gte 3) floodEvents =
      .ok true := rfl
  obtain rfl : true = b := by rwa [run, Except.ok.injEq] at evaluates
  exact ⟨finds.mp rfl, by rw [order _ floodEvents.reverse_perm.symm, run]⟩

/-- For any operator the evaluator agrees with the declared meaning exactly when it
finds some window as soon as one shows that starts at an event, or ends right before
one, of its own key. -/
theorem matchCorrelation_agrees_iff {seconds : ℤ} {events : List Event}
    (resolved : Resolved rule condition seconds)
    (h : Suitable matchRule isPrintable fromisoformat rule condition events) :
    (matchCorrelation matchRule isPrintable fromisoformat rule events = .ok true ↔
        Fires matchRule isPrintable fromisoformat rule condition seconds events) ↔
      ∀ o ∈ observed matchRule isPrintable fromisoformat rule condition events,
        Meets Observed.moment (·.key) (Satisfies rule.type condition)
            (observed matchRule isPrintable fromisoformat rule condition events)
            o.moment (o.moment + seconds * 1000000) o.key ∨
          Meets Observed.moment (·.key) (Satisfies rule.type condition)
            (observed matchRule isPrintable fromisoformat rule condition events)
            (o.moment - seconds * 1000000) o.moment o.key →
        Found rule.type condition (seconds * 1000000)
          (observed matchRule isPrintable fromisoformat rule condition events) := by
  rw [matchCorrelation_eq_true_iff resolved h, Fires, exists_meets_iff]
  constructor
  · rintro agrees o mem (after | before)
    · exact agrees.mpr (.inl ⟨o, mem, (meets_from _ _ _ _ _).mpr after⟩)
    · exact agrees.mpr (.inr ⟨o, mem, (meets_until _ _ _ _ _).mpr before⟩)
  · intro covered
    constructor
    · rintro ⟨first, -, ⟨g, holds⟩, -⟩
      exact exists_meets_iff _ _ |>.mp ⟨first.moment, g, (meets_from _ _ _ _ g).mpr holds⟩
    · rintro (⟨o, mem, holds⟩ | ⟨o, mem, holds⟩)
      · exact covered o mem (.inl ((meets_from _ _ _ _ _).mp holds))
      · exact covered o mem (.inr ((meets_until _ _ _ _ _).mp holds))

theorem matchCorrelation_agrees_flood :
    matchCorrelation equals (fun _ => true) tenOClock (flood .lte 2) floodEvents = .ok true ↔
      Fires equals (fun _ => true) tenOClock (flood .lte 2) ⟨.lte, 2, none⟩ 10 floodEvents := by
  refine (matchCorrelation_agrees_iff (flood_resolved .lte 2) (flood_suitable .lte 2)).mpr ?_
  have found := (found_iff_of_room .eventCount ⟨.lte, 2, none⟩ (flood_inRange .lte 2)).mpr
  rw [flood_observed] at found ⊢
  exact fun _ _ _ => found ⟨_, List.mem_cons_of_mem _ List.mem_cons_self,
    [.str (codes "172.24.0.10")], by decide⟩

/-- One event in the ten seconds before 10:00:01, and three or two in those from an
event on. -/
theorem matchCorrelation_misses_flood :
    matchCorrelation equals (fun _ => true) tenOClock (flood .lt 2) floodEvents = .ok false ∧
      Fires equals (fun _ => true) tenOClock (flood .lt 2) ⟨.lt, 2, none⟩ 10 floodEvents := by
  refine ⟨rfl, ?_⟩
  rw [Fires, flood_observed]
  refine ⟨(tenAndOne.utc : ℝ) - (10 : ℤ) * 1000000, [.str (codes "172.24.0.10")], ?_⟩
  rw [sub_add_cancel, meets_until]
  decide

end Windows

end OtDetection.Correlation
