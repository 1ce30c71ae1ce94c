import OtDetection.Correlation

/-! What a correlation sees of a list of events, and the evaluator as a search over
the windows that start at a matched event: in ascending order, until one satisfies
the condition or the end of one leaves the range of datetimes. -/

namespace OtDetection.Correlation
open PyText FieldLookup SlidingWindow

/-- What a correlation sees of a matched event. -/
structure Observed where
  time : DateTime
  key : List HashKey
  value : HashKey

def Observed.moment (o : Observed) : ℤ := o.time.utc

def count (type : CorrelationType) (window : List Observed) : ℕ :=
  if type = .valueCount then (window.map (·.value)).toFinset.card else window.length

def Satisfies (type : CorrelationType) (condition : Condition) (window : List Observed) : Prop :=
  condition.op.compare (count type window) condition.count = true

instance (type : CorrelationType) (condition : Condition) :
    DecidablePred (Satisfies type condition) :=
  fun _ => inferInstanceAs (Decidable (_ = true))

/-- A rule that the evaluator does not reject. -/
structure Resolved {Rule : Type} (rule : CorrelationRule Rule) (condition : Condition)
    (seconds : ℤ) : Prop where
  implemented : rule.type = .valueCount ∨ rule.type = .eventCount
  referenced : rule.referencedRules ≠ []
  resolved : ∀ reference ∈ rule.referencedRules, reference.isSome
  conditioned : rule.condition = some condition
  counting : rule.type = .valueCount → condition.fieldref.getD [] ≠ []
  bounded : rule.timespan = some seconds

section Windows

variable {Rule ε : Type} (matchRule : Rule → Event → Except ε Bool) (isPrintable : ℕ → Bool)
  (fromisoformat : Text → Option DateTime) (rule : CorrelationRule Rule) (condition : Condition)

def isMatched (event : Event) : Except ε Bool :=
  anyMatch matchRule event (rule.referencedRules.filterMap id)

def countedValue (event : Event) : Except (Error ε) HashKey :=
  if rule.type = .valueCount then asKey (lookupField event (condition.fieldref.getD []))
  else .ok .none

def observe (event : Event) : Except (Error ε) Observed := do
  let moment ← eventTime isPrintable fromisoformat rule.title event
  let key ← groupKey (rule.groupBy.getD []) event
  let value ← countedValue rule condition event
  return ⟨moment, key, value⟩

def observed (events : List Event) : List Observed :=
  events.filterMap fun event =>
    match isMatched matchRule rule event with
    | .ok true => (observe (ε := ε) isPrintable fromisoformat rule condition event).toOption
    | _ => none

/-- Single rules can be evaluated, and the matched events have an aware time and
hashable fields. -/
structure Suitable (events : List Event) : Prop where
  evaluated : ∀ event ∈ events, ∃ b, isMatched matchRule rule event = .ok b
  timed : ∀ event ∈ events, isMatched matchRule rule event = .ok true →
    ∃ moment, eventTime (ε := ε) isPrintable fromisoformat rule.title event = .ok moment ∧
      moment.isAware
  grouped : ∀ event ∈ events, isMatched matchRule rule event = .ok true →
    ∃ key, groupKey (ε := ε) (rule.groupBy.getD []) event = .ok key
  counted : ∀ event ∈ events, isMatched matchRule rule event = .ok true →
    ∃ value, countedValue (ε := ε) rule condition event = .ok value

/-- The timespan from any matched event on stays in the range of datetimes. -/
def InRange (seconds : ℤ) (events : List Event) : Prop :=
  ∀ o ∈ observed (ε := ε) matchRule isPrintable fromisoformat rule condition events,
    (o.time.add? (seconds * 1000000)).isSome

/-! ## The search -/

/-- The first listed event of a moment still has the span in range behind it. -/
def Fits (span : ℤ) (entries : List Observed) (moment : ℤ) : Prop :=
  ∀ o ∈ entries.find? (·.moment = moment), (o.time.add? span).isSome

/-- The search meets a window from an event on before it runs out of range. -/
def Found (type : CorrelationType) (condition : Condition) (span : ℤ) (entries : List Observed) :
    Prop :=
  ∃ first ∈ entries,
    (∃ g, Meets Observed.moment (·.key) (Satisfies type condition) entries first.moment
      (first.moment + span) g) ∧
    ∀ o ∈ entries, o.moment ≤ first.moment → Fits span entries o.moment

structure Sees (pair : DateTime × Event) (o : Observed) : Prop where
  time : pair.1 = o.time
  key : groupKey (ε := ε) (rule.groupBy.getD []) pair.2 = .ok o.key
  value : countedValue (ε := ε) rule condition pair.2 = .ok o.value

variable {matchRule isPrintable fromisoformat rule condition}

theorem matchedEvents_ok {events : List Event}
    (h : Suitable matchRule isPrintable fromisoformat rule condition events) :
    ∃ matched, matchedEvents matchRule isPrintable fromisoformat rule.title
        (rule.referencedRules.filterMap id) events = .ok matched ∧
      List.Forall₂ (Sees (ε := ε) rule condition) matched
        (observed matchRule isPrintable fromisoformat rule condition events) ∧
      ∀ pair ∈ matched, pair.1.isAware := by
  induction events with
  | nil => exact ⟨[], rfl, .nil, List.forall_mem_nil _⟩
  | cons event events ih =>
    have here : event ∈ event :: events := List.mem_cons_self
    obtain ⟨b, evaluated⟩ := h.evaluated event here
    obtain ⟨matched, later, sees, awares⟩ := ih ⟨fun e mem => h.evaluated e (List.mem_cons_of_mem _ mem),
      fun e mem => h.timed e (List.mem_cons_of_mem _ mem),
      fun e mem => h.grouped e (List.mem_cons_of_mem _ mem),
      fun e mem => h.counted e (List.mem_cons_of_mem _ mem)⟩
    have search : anyMatch matchRule event (rule.referencedRules.filterMap id) = .ok b := evaluated
    cases b with
    | false =>
      refine ⟨matched, ?_, ?_, awares⟩
      · rw [matchedEvents, search]
        exact later
      · rw [observed, List.filterMap_cons, evaluated]
        exact sees
    | true =>
      obtain ⟨moment, timed, aware⟩ := h.timed event here evaluated
      obtain ⟨key, grouped⟩ := h.grouped event here evaluated
      obtain ⟨value, counted⟩ := h.counted event here evaluated
      have observes : observe (ε := ε) isPrintable fromisoformat rule condition event =
          .ok ⟨moment, key, value⟩ := by
        rw [observe, timed, grouped, counted]
        rfl
      refine ⟨(moment, event) :: matched, ?_, ?_, List.forall_mem_cons.mpr ⟨aware, awares⟩⟩
      · rw [matchedEvents, search, timed, later]
        rfl
      · rw [observed, List.filterMap_cons, evaluated, observes]
        exact .cons ⟨rfl, grouped, counted⟩ sees

/-! ## One span -/

theorem DateTime.utc_add {start stop : DateTime} {span : ℤ} (h : start.add? span = some stop) :
    stop.utc = start.utc + span := by
  unfold DateTime.add? at h
  split at h
  · obtain rfl := Option.some.inj h
    simp only [DateTime.utc]
    omega
  · cases h

theorem inSpan_ok {start : DateTime} {span : ℤ} (room : (start.add? span).isSome)
    (moment : DateTime) : inSpan (ε := ε) start span moment =
      .ok (decide (start.utc ≤ moment.utc ∧ moment.utc < start.utc + span)) := by
  obtain ⟨stop, sum⟩ := Option.isSome_iff_exists.mp room
  rw [inSpan, sum, ← DateTime.utc_add sum]
  by_cases reached : start.utc ≤ moment.utc
  · simp [reached]
  · simp [reached]

def steps {σ : Type} (changed : Observed → σ → σ) (start stop : ℤ) (entries : List Observed) :
    List (List HashKey × (σ → σ)) :=
  (entries.filter fun o => start ≤ o.moment ∧ o.moment < stop).map fun o => (o.key, changed o)

theorem countSpan_ok {σ : Type} {fresh : σ} {change : Event → Except (Error ε) (σ → σ)}
    {changed : Observed → σ → σ} {start : DateTime} {span : ℤ} (room : (start.add? span).isSome)
    {matched : List (DateTime × Event)} {entries : List Observed}
    (sees : List.Forall₂ (Sees (ε := ε) rule condition) matched entries)
    (changes : ∀ pair o, Sees (ε := ε) rule condition pair o →
      change pair.2 = .ok (changed o))
    (counted : AList fun _ : List HashKey => σ) :
    countSpan fresh change (rule.groupBy.getD []) start span matched counted =
      .ok ((steps changed start.utc (start.utc + span) entries).foldl (bump fresh) counted) := by
  induction sees generalizing counted with
  | nil => rfl
  | @cons pair o matched entries here later ih =>
    obtain ⟨moment, event⟩ := pair
    have place : moment.utc = o.moment := congrArg DateTime.utc here.time
    rw [countSpan, inSpan_ok room, place]
    by_cases inside : start.utc ≤ o.moment ∧ o.moment < start.utc + span
    · have key : groupKey (rule.groupBy.getD []) event = .ok o.key := here.key
      have first : steps changed start.utc (start.utc + span) (o :: entries) =
          (o.key, changed o) :: steps changed start.utc (start.utc + span) entries := by
        simp [steps, inside]
      rw [decide_eq_true inside, key, changes _ _ here, first]
      exact ih _
    · have skipped : steps changed start.utc (start.utc + span) (o :: entries) =
          steps changed start.utc (start.utc + span) entries := by
        simp [steps, inside]
      rw [decide_eq_false inside, skipped]
      exact ih _

theorem any_steps_iff {σ : Type} (fresh : σ) (changed : Observed → σ → σ) (start stop : ℤ)
    (entries : List Observed) (p : σ → Bool) :
    (((steps changed start stop entries).foldl (bump fresh) ∅).entries.any fun entry => p entry.2) =
        true ↔
      ∃ g, within Observed.moment (·.key) entries start stop g ≠ [] ∧
        p ((within Observed.moment (·.key) entries start stop g).foldl (fun v o => changed o v)
          fresh) = true := by
  have of_key : ∀ g, (steps changed start stop entries).filter (·.1 = g) =
      (within Observed.moment (·.key) entries start stop g).map fun o => (o.key, changed o) := by
    intro g
    rw [steps, List.filter_map, within, List.filter_filter]
    congr 1
    refine List.filter_congr fun o _ => ?_
    rw [Function.comp_apply, ← Bool.decide_and, decide_eq_decide]
    exact and_comm
  rw [any_tally_iff]
  simp only [total, of_key, List.foldl_map, ne_eq, List.map_eq_nil_iff]

theorem spanMeets_ok {start : DateTime} {span : ℤ} (room : (start.add? span).isSome)
    {matched : List (DateTime × Event)} {entries : List Observed}
    (sees : List.Forall₂ (Sees (ε := ε) rule condition) matched entries) :
    ∃ b, spanMeets (ε := ε) condition rule.type (rule.groupBy.getD []) matched span start = .ok b ∧
      (b = true ↔ ∃ g, Meets Observed.moment (·.key) (Satisfies rule.type condition) entries
        start.utc (start.utc + span) g) := by
  by_cases counts : rule.type = .valueCount
  · have changes : ∀ pair o, Sees (ε := ε) rule condition pair o →
        addValue (ε := ε) (condition.fieldref.getD []) pair.2 =
          .ok (fun values => values.insert o.value) := by
      intro pair o here
      have value := here.value
      rw [countedValue, if_pos counts] at value
      rw [addValue, value]
      rfl
    have distinct : ∀ window : List Observed,
        (window.foldl (fun values o => values.insert o.value) []).length =
          count rule.type window := by
      intro window
      rw [count, if_pos counts, ← length_foldl_insert, List.foldl_map]
    refine ⟨((steps (fun o values => values.insert o.value) start.utc (start.utc + span)
      entries).foldl (bump []) ∅).entries.any
        fun entry => condition.op.compare entry.2.length condition.count, ?_, ?_⟩
    · rw [spanMeets, if_pos counts, countSpan_ok room sees changes]
      rfl
    · refine (any_steps_iff [] _ _ _ entries fun values : List HashKey =>
        condition.op.compare values.length condition.count).trans ?_
      simp only [distinct, Meets, Satisfies]
  · have changes : ∀ pair o, Sees (ε := ε) rule condition pair o →
        (fun _ : Event => (.ok (· + 1) : Except (Error ε) (ℕ → ℕ))) pair.2 =
          .ok ((fun (_ : Observed) n => n + 1) o) := fun _ _ _ => rfl
    have events : ∀ (window : List Observed), window.foldl (fun n _ => n + 1) 0 =
        count rule.type window := by
      intro window
      rw [count, if_neg counts, List.foldl_add_const, zero_add, one_mul]
    refine ⟨((steps (fun _ n => n + 1) start.utc (start.utc + span) entries).foldl (bump 0)
      ∅).entries.any fun entry => condition.op.compare (entry.2 : ℕ) condition.count, ?_, ?_⟩
    · rw [spanMeets, if_neg counts, countSpan_ok room sees changes]
      rfl
    · refine (any_steps_iff 0 _ _ _ entries fun n : ℕ =>
        condition.op.compare n condition.count).trans ?_
      simp only [events, Meets, Satisfies]

theorem countSpan_overflow {σ : Type} {fresh : σ} {change : Event → Except (Error ε) (σ → σ)}
    {groups : List Text} {start : DateTime} {span : ℤ} (out : start.add? span = none)
    {matched : List (DateTime × Event)} (reached : ∃ pair ∈ matched, start.utc ≤ pair.1.utc)
    (counted : AList fun _ : List HashKey => σ) :
    countSpan fresh change groups start span matched counted = .error .overflowError := by
  induction matched with
  | nil => obtain ⟨pair, mem, -⟩ := reached; cases mem
  | cons pair matched ih =>
    obtain ⟨moment, event⟩ := pair
    rw [countSpan]
    by_cases le : start.utc ≤ moment.utc
    · have raises : inSpan (ε := ε) start span moment = .error .overflowError := by
        rw [inSpan, if_pos le, out]
      rw [raises]
      rfl
    · have skips : inSpan (ε := ε) start span moment = .ok false := by
        rw [inSpan, if_neg le]
      rw [skips]
      obtain ⟨other, mem, le'⟩ := reached
      rcases List.mem_cons.mp mem with rfl | inside
      · exact absurd le' le
      · exact ih ⟨other, inside, le'⟩

theorem spanMeets_overflow {start : DateTime} {span : ℤ} (out : start.add? span = none)
    {matched : List (DateTime × Event)} (listed : start ∈ matched.map Prod.fst)
    (type : CorrelationType) (groups : List Text) :
    spanMeets (ε := ε) condition type groups matched span start = .error .overflowError := by
  obtain ⟨pair, mem, rfl⟩ := List.mem_map.mp listed
  rw [spanMeets]
  split
  · rw [countSpan_overflow out ⟨pair, mem, le_rfl⟩]
    rfl
  · rw [countSpan_overflow out ⟨pair, mem, le_rfl⟩]
    rfl

/-! ## All spans -/

theorem distinctMoments_snoc (moments : List DateTime) (moment : DateTime) :
    distinctMoments (moments ++ [moment]) =
      if ∃ other ∈ distinctMoments moments, other.utc = moment.utc then distinctMoments moments
      else distinctMoments moments ++ [moment] := by
  rw [distinctMoments, List.foldl_append]
  rfl

theorem distinctMoments_covers {moments : List DateTime} {m : DateTime} (mem : m ∈ moments) :
    ∃ start ∈ distinctMoments moments, start.utc = m.utc := by
  induction moments using List.reverseRecOn with
  | nil => cases mem
  | append_singleton moments moment ih =>
    rw [distinctMoments_snoc]
    by_cases known : ∃ other ∈ distinctMoments moments, other.utc = moment.utc
    · rw [if_pos known]
      rcases List.mem_append.mp mem with earlier | now
      · exact ih earlier
      · rwa [List.mem_singleton.mp now]
    · rw [if_neg known]
      rcases List.mem_append.mp mem with earlier | now
      · obtain ⟨start, at_start, same⟩ := ih earlier
        exact ⟨start, List.mem_append_left _ at_start, same⟩
      · exact ⟨m, List.mem_append_right _ now, rfl⟩

theorem distinctMoments_first {moments : List DateTime} {start : DateTime}
    (mem : start ∈ distinctMoments moments) :
    moments.find? (·.utc = start.utc) = some start := by
  induction moments using List.reverseRecOn with
  | nil => cases mem
  | append_singleton moments moment ih =>
    rw [distinctMoments_snoc] at mem
    rw [List.find?_append]
    by_cases known : ∃ other ∈ distinctMoments moments, other.utc = moment.utc
    · rw [if_pos known] at mem
      rw [ih mem]
      rfl
    · rw [if_neg known] at mem
      rcases List.mem_append.mp mem with earlier | now
      · rw [ih earlier]
        rfl
      · obtain rfl := List.mem_singleton.mp now
        have new : moments.find? (·.utc = start.utc) = none := by
          refine List.find?_eq_none.mpr fun m inside same => known ?_
          obtain ⟨other, at_other, equal⟩ := distinctMoments_covers inside
          exact ⟨other, at_other, equal.trans (of_decide_eq_true same)⟩
        rw [new]
        simp

theorem distinctMoments_distinct (moments : List DateTime) :
    (distinctMoments moments).Pairwise (·.utc ≠ ·.utc) := by
  induction moments using List.reverseRecOn with
  | nil => exact List.Pairwise.nil
  | append_singleton moments moment ih =>
    rw [distinctMoments_snoc]
    by_cases known : ∃ other ∈ distinctMoments moments, other.utc = moment.utc
    · rwa [if_pos known]
    · rw [if_neg known]
      refine List.pairwise_append.mpr
        ⟨ih, List.pairwise_singleton _ _, fun other mem last now => ?_⟩
      rw [List.mem_singleton.mp now]
      exact fun same => known ⟨other, mem, same⟩

/-- For each moment the first listed datetime, in ascending order. -/
structure Starts (moments starts : List DateTime) : Prop where
  first : ∀ start ∈ starts, moments.find? (·.utc = start.utc) = some start
  covers : ∀ m ∈ moments, ∃ start ∈ starts, start.utc = m.utc
  ascending : starts.Pairwise (·.utc < ·.utc)

/-- A naive moment beside an aware one: no order compares the two. -/
def Mixed (moments : List DateTime) : Prop :=
  (∃ a ∈ moments, a.isAware) ∧ ∃ a ∈ moments, ¬ a.isAware

theorem sortedMoments_of_not_mixed {moments : List DateTime} (uniform : ¬ Mixed moments) :
    ∃ starts, sortedMoments (ε := ε) moments = .ok starts ∧ Starts moments starts := by
  have perm := List.perm_insertionSort (fun a b : DateTime => a.utc ≤ b.utc)
    (distinctMoments moments)
  have ordered : ((distinctMoments moments).insertionSort fun a b => a.utc ≤ b.utc).Pairwise
      (·.utc ≤ ·.utc) := by
    have total : Std.Total fun a b : DateTime => a.utc ≤ b.utc := ⟨fun a b => le_total a.utc b.utc⟩
    have trans : IsTrans DateTime fun a b => a.utc ≤ b.utc := ⟨fun a b c => le_trans⟩
    exact List.pairwise_insertionSort _ _
  have distinct := (perm.pairwise_iff fun h => Ne.symm h).mpr (distinctMoments_distinct moments)
  refine ⟨_, if_neg uniform, fun start mem => distinctMoments_first (perm.mem_iff.mp mem),
    fun m mem => ?_, (ordered.and distinct).imp fun h => lt_of_le_of_ne h.1 h.2⟩
  obtain ⟨start, at_start, same⟩ := distinctMoments_covers mem
  exact ⟨start, perm.mem_iff.mpr at_start, same⟩

theorem sortedMoments_ok {moments : List DateTime} (aware : ∀ m ∈ moments, m.isAware) :
    ∃ starts, sortedMoments (ε := ε) moments = .ok starts ∧ Starts moments starts := by
  refine sortedMoments_of_not_mixed ?_
  rintro ⟨-, a, mem, naive⟩
  exact naive (aware a mem)

theorem scanStarts_ok {meets : DateTime → Except (Error ε) Bool} {starts : List DateTime}
    (h : ∀ start ∈ starts, ∃ b, meets start = .ok b) : ∃ b, scanStarts meets starts = .ok b := by
  induction starts with
  | nil => exact ⟨false, rfl⟩
  | cons start starts ih =>
    obtain ⟨b, here⟩ := h start List.mem_cons_self
    rw [scanStarts, here]
    cases b with
    | true => exact ⟨true, rfl⟩
    | false => exact ih fun s mem => h s (List.mem_cons_of_mem _ mem)

theorem scanStarts_eq_true_iff {meets : DateTime → Except (Error ε) Bool} {error : Error ε}
    {P fits : DateTime → Prop} {starts : List DateTime}
    (ascending : starts.Pairwise (·.utc < ·.utc))
    (inside : ∀ start ∈ starts, fits start → ∃ b, meets start = .ok b ∧ (b = true ↔ P start))
    (outside : ∀ start ∈ starts, ¬ fits start → meets start = .error error) :
    scanStarts meets starts = .ok true ↔
      ∃ start ∈ starts, P start ∧ ∀ s ∈ starts, s.utc ≤ start.utc → fits s := by
  induction starts with
  | nil => simp [scanStarts]
  | cons start starts ih =>
    obtain ⟨before, later⟩ := List.pairwise_cons.mp ascending
    have rest := ih later (fun s mem => inside s (List.mem_cons_of_mem _ mem))
      fun s mem => outside s (List.mem_cons_of_mem _ mem)
    have least : ∀ s ∈ start :: starts, start.utc ≤ s.utc := by
      intro s mem
      rcases List.mem_cons.mp mem with rfl | inside
      · exact le_rfl
      · exact (before s inside).le
    rw [scanStarts]
    by_cases fit : fits start
    · obtain ⟨b, here, holds⟩ := inside start List.mem_cons_self fit
      rw [here]
      cases b with
      | true =>
        refine iff_of_true rfl ⟨start, List.mem_cons_self, holds.mp rfl, fun s mem le => ?_⟩
        rcases List.mem_cons.mp mem with rfl | inside
        · exact fit
        · exact absurd le (not_le.mpr (before s inside))
      | false =>
        have not_here : ¬ P start := fun p => Bool.false_ne_true (holds.mpr p)
        refine rest.trans ?_
        constructor
        · rintro ⟨s, mem, p, all⟩
          refine ⟨s, List.mem_cons_of_mem _ mem, p, fun s' mem' le => ?_⟩
          rcases List.mem_cons.mp mem' with rfl | inside
          · exact fit
          · exact all s' inside le
        · rintro ⟨s, mem, p, all⟩
          rcases List.mem_cons.mp mem with rfl | inside
          · exact absurd p not_here
          · exact ⟨s, inside, p, fun s' mem' => all s' (List.mem_cons_of_mem _ mem')⟩
    · rw [outside start List.mem_cons_self fit]
      refine iff_of_false (fun h => by cases h) ?_
      rintro ⟨s, mem, -, all⟩
      exact fit (all start List.mem_cons_self (least s mem))

theorem timedelta_ok {moment : DateTime} {seconds : ℤ}
    (room : (moment.add? (seconds * 1000000)).isSome) :
    timedelta (ε := ε) seconds = .ok (seconds * 1000000) := by
  have low := moment.in_range
  have sum : 0 ≤ moment.wall + seconds * 1000000 ∧
      moment.wall + seconds * 1000000 < wallEnd := by
    by_contra out
    rw [DateTime.add?, dif_neg out] at room
    cases room
  unfold wallEnd at low sum
  exact if_pos (by omega)

theorem exists_of_forall₂ {α β : Type*} {R : α → β → Prop} {as : List α} {bs : List β}
    (h : List.Forall₂ R as bs) : ∀ a ∈ as, ∃ b ∈ bs, R a b := by
  induction h with
  | nil => exact List.forall_mem_nil _
  | cons here _ ih =>
    refine List.forall_mem_cons.mpr ⟨⟨_, List.mem_cons_self, here⟩, fun a mem => ?_⟩
    obtain ⟨b, inside, related⟩ := ih a mem
    exact ⟨b, List.mem_cons_of_mem _ inside, related⟩

theorem matchCorrelation_eq {seconds : ℤ} (resolved : Resolved rule condition seconds)
    (events : List Event) :
    matchCorrelation matchRule isPrintable fromisoformat rule events = (do
      let matched ← matchedEvents matchRule isPrintable fromisoformat rule.title
        (rule.referencedRules.filterMap id) events
      if matched = [] then return false
      let span ← timedelta seconds
      let starts ← sortedMoments (matched.map Prod.fst)
      scanStarts (spanMeets condition rule.type (rule.groupBy.getD []) matched span) starts) := by
  have references : ¬ (rule.referencedRules = [] ∨ rule.referencedRules.any Option.isNone) := by
    rintro (none | unresolved)
    · exact resolved.referenced none
    · obtain ⟨reference, mem, absent⟩ := List.any_eq_true.mp unresolved
      have there := resolved.resolved reference mem
      rw [Option.isNone_iff_eq_none.mp absent] at there
      cases there
  rcases resolved.implemented with type | type
  · simp only [matchCorrelation, type, if_neg references, resolved.conditioned,
      resolved.counting type, and_false, if_false, resolved.bounded]
  · simp only [matchCorrelation, type, if_neg references, resolved.conditioned, reduceCtorEq,
      false_and, if_false, resolved.bounded]

theorem matchCorrelation_resolved {seconds : ℤ} {events : List Event}
    {matched : List (DateTime × Event)} (resolved : Resolved rule condition seconds)
    (found : matchedEvents matchRule isPrintable fromisoformat rule.title
      (rule.referencedRules.filterMap id) events = .ok matched) :
    matchCorrelation matchRule isPrintable fromisoformat rule events =
      if matched = [] then .ok false else (do
        let span ← timedelta seconds
        let starts ← sortedMoments (matched.map Prod.fst)
        scanStarts (spanMeets condition rule.type (rule.groupBy.getD []) matched span) starts) := by
  rw [matchCorrelation_eq resolved, found]
  cases matched <;> rfl

theorem times_eq {matched : List (DateTime × Event)} {entries : List Observed}
    (sees : List.Forall₂ (Sees (ε := ε) rule condition) matched entries) :
    matched.map Prod.fst = entries.map Observed.time := by
  induction sees with
  | nil => rfl
  | cons here _ ih => rw [List.map_cons, List.map_cons, here.time, ih]

theorem Starts.fits_iff {entries : List Observed} {starts : List DateTime} (span : ℤ)
    (h : Starts (entries.map Observed.time) starts) {start : DateTime} (mem : start ∈ starts) :
    Fits span entries start.utc ↔ (start.add? span).isSome := by
  have first := h.first start mem
  rw [List.find?_map] at first
  obtain ⟨o, found, rfl⟩ := Option.map_eq_some_iff.mp first
  have same : entries.find? (·.moment = o.time.utc) = some o := found
  rw [Fits, same]
  simp

theorem Starts.exists_iff {entries : List Observed} {starts : List DateTime}
    (h : Starts (entries.map Observed.time) starts) (P : ℤ → Prop) :
    (∃ start ∈ starts, P start.utc) ↔ ∃ o ∈ entries, P o.moment := by
  constructor
  · rintro ⟨start, mem, holds⟩
    obtain ⟨o, at_o, rfl⟩ := List.mem_map.mp (List.mem_of_find?_eq_some (h.first start mem))
    exact ⟨o, at_o, holds⟩
  · rintro ⟨o, mem, holds⟩
    obtain ⟨start, at_start, same⟩ := h.covers o.time (List.mem_map_of_mem mem)
    exact ⟨start, at_start, by rwa [same]⟩

theorem Starts.forall_iff {entries : List Observed} {starts : List DateTime}
    (h : Starts (entries.map Observed.time) starts) (P : ℤ → Prop) :
    (∀ start ∈ starts, P start.utc) ↔ ∀ o ∈ entries, P o.moment := by
  have dual := not_congr (h.exists_iff fun m => ¬ P m)
  simpa using dual

theorem matchCorrelation_scans {seconds : ℤ} {events : List Event}
    (resolved : Resolved rule condition seconds)
    (h : Suitable matchRule isPrintable fromisoformat rule condition events) :
    ∃ matched starts,
      List.Forall₂ (Sees (ε := ε) rule condition) matched
        (observed matchRule isPrintable fromisoformat rule condition events) ∧
      Starts ((observed matchRule isPrintable fromisoformat rule condition events).map
        Observed.time) starts ∧
      matchCorrelation matchRule isPrintable fromisoformat rule events =
        if matched = [] then .ok false else (do
          let span ← timedelta seconds
          scanStarts (spanMeets condition rule.type (rule.groupBy.getD []) matched span)
            starts) := by
  obtain ⟨matched, found, sees, awares⟩ := matchedEvents_ok h
  have aware : ∀ m ∈ matched.map Prod.fst, m.isAware := List.forall_mem_map.mpr awares
  obtain ⟨starts, sorted, ordered⟩ := sortedMoments_ok (ε := ε) aware
  rw [times_eq sees] at ordered
  refine ⟨matched, starts, sees, ordered, ?_⟩
  rw [matchCorrelation_resolved resolved found, sorted]
  rfl

theorem matchCorrelation_eq_true_iff {seconds : ℤ} {events : List Event}
    (resolved : Resolved rule condition seconds)
    (h : Suitable matchRule isPrintable fromisoformat rule condition events) :
    matchCorrelation matchRule isPrintable fromisoformat rule events = .ok true ↔
      Found rule.type condition (seconds * 1000000)
        (observed matchRule isPrintable fromisoformat rule condition events) := by
  obtain ⟨matched, starts, sees, ordered, evaluates⟩ := matchCorrelation_scans resolved h
  rw [evaluates]
  generalize observed matchRule isPrintable fromisoformat rule condition events = entries
    at sees ordered ⊢
  by_cases none : matched = []
  · subst none
    cases sees
    simp [Found]
  rw [if_neg none]
  have in_range : ∀ m, (∀ start ∈ starts, start.utc ≤ m →
      (start.add? (seconds * 1000000)).isSome) ↔
      ∀ o ∈ entries, o.moment ≤ m → Fits (seconds * 1000000) entries o.moment := by
    intro m
    rw [← ordered.forall_iff fun m' => m' ≤ m → Fits (seconds * 1000000) entries m']
    exact forall₂_congr fun start mem => by rw [ordered.fits_iff _ mem]
  have scans := scanStarts_eq_true_iff ordered.ascending
    (fun start _ (fit : (start.add? (seconds * 1000000)).isSome) => spanMeets_ok fit sees)
    fun start mem out => spanMeets_overflow (Option.not_isSome_iff_eq_none.mp out)
      (times_eq sees ▸ List.mem_of_find?_eq_some (ordered.first start mem)) _ _
  simp only [in_range] at scans
  by_cases small : timedelta (ε := ε) seconds = .ok (seconds * 1000000)
  · rw [small]
    exact scans.trans (ordered.exists_iff fun m =>
      (∃ g, Meets Observed.moment (·.key) (Satisfies rule.type condition) entries m
        (m + seconds * 1000000) g) ∧
      ∀ o ∈ entries, o.moment ≤ m → Fits (seconds * 1000000) entries o.moment)
  · have raises : timedelta (ε := ε) seconds = .error .overflowError := by
      unfold timedelta at small ⊢
      split at small
      · exact absurd rfl small
      · rename_i large
        exact if_neg large
    rw [raises]
    refine iff_of_false (fun h => by cases h) ?_
    rintro ⟨first, mem, -, fit⟩
    obtain ⟨start, at_start, same⟩ := ordered.covers first.time (List.mem_map_of_mem mem)
    have room := (in_range first.moment).mpr fit start at_start same.le
    exact small (timedelta_ok room)

theorem matchCorrelation_returns {seconds : ℤ} {events : List Event}
    (resolved : Resolved rule condition seconds)
    (h : Suitable matchRule isPrintable fromisoformat rule condition events)
    (room : InRange (ε := ε) matchRule isPrintable fromisoformat rule condition seconds events) :
    ∃ b, matchCorrelation matchRule isPrintable fromisoformat rule events = .ok b := by
  obtain ⟨matched, starts, sees, ordered, evaluates⟩ := matchCorrelation_scans resolved h
  rw [evaluates]
  by_cases none : matched = []
  · exact ⟨false, if_pos none⟩
  obtain ⟨pair, inside⟩ := List.exists_mem_of_ne_nil _ none
  obtain ⟨o, at_o, here⟩ := exists_of_forall₂ sees pair inside
  rw [if_neg none, timedelta_ok (room o at_o)]
  refine scanStarts_ok fun start mem => ?_
  obtain ⟨o, at_o, rfl⟩ := List.mem_map.mp (List.mem_of_find?_eq_some (ordered.first start mem))
  obtain ⟨b, evaluates, -⟩ := spanMeets_ok (room o at_o) sees
  exact ⟨b, evaluates⟩

theorem found_iff_of_room {span : ℤ} {entries : List Observed} (type : CorrelationType)
    (condition : Condition) (room : ∀ o ∈ entries, (o.time.add? span).isSome) :
    Found type condition span entries ↔ ∃ first ∈ entries, ∃ g, Meets Observed.moment (·.key)
      (Satisfies type condition) entries first.moment (first.moment + span) g := by
  constructor
  · rintro ⟨first, mem, holds, -⟩
    exact ⟨first, mem, holds⟩
  · rintro ⟨first, mem, holds⟩
    refine ⟨first, mem, holds, fun _ _ _ o found => room o ?_⟩
    exact List.mem_of_find?_eq_some found

end Windows

end OtDetection.Correlation
