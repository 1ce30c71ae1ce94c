import OtDetection.CorrelationWindows
import OtDetection.Steps

/-! Silence of a correlation, and how it fares when more events come. The evaluator is
silent when no window from a matched event on meets the condition, as long as it can
group the events and the windows end in range. An event without the counted field adds
a value of its own to the set of its group: the value that is not there. -/

namespace OtDetection.Correlation
open PyText FieldLookup SlidingWindow ExceptSteps

section Silence

variable {Rule ε : Type} (matchRule : Rule → Event → Except ε Bool) (isPrintable : ℕ → Bool)
  (fromisoformat : Text → Option DateTime) (rule : CorrelationRule Rule) (condition : Condition)

/-- An event that the single rules match or not, with an aware time if they do. -/
structure Timed (event : Event) : Prop where
  evaluated : ∃ b, isMatched matchRule rule event = .ok b
  timed : isMatched matchRule rule event = .ok true →
    ∃ moment, eventTime (ε := ε) isPrintable fromisoformat rule.title event = .ok moment ∧
      moment.isAware

/-- The evaluator can group the event and count its value. -/
def Keyed (event : Event) : Prop :=
  (∃ key, groupKey (ε := ε) (rule.groupBy.getD []) event = .ok key) ∧
    ∃ value, countedValue (ε := ε) rule condition event = .ok value

def matchedPairs (events : List Event) : List (DateTime × Event) :=
  events.filterMap fun event =>
    match isMatched matchRule rule event with
    | .ok true => (eventTime (ε := ε) isPrintable fromisoformat rule.title event).toOption.map
        fun moment => (moment, event)
    | _ => none

/-- The first listed of equal moments has the span in range behind it. -/
def Room (span : ℤ) (moments : List DateTime) : Prop :=
  ∀ m ∈ moments, ∀ first ∈ moments.find? (·.utc = m.utc), (first.add? span).isSome

variable {matchRule isPrintable fromisoformat rule condition}

theorem Starts.room_iff {moments starts : List DateTime} (h : Starts moments starts) (span : ℤ) :
    Room span moments ↔ ∀ start ∈ starts, (start.add? span).isSome := by
  constructor
  · intro room start mem
    have first := h.first start mem
    exact room start (List.mem_of_find?_eq_some first) start first
  · intro fits m mem first found
    obtain ⟨start, at_start, same⟩ := h.covers m mem
    have listed := h.first start at_start
    rw [same] at listed
    obtain rfl := Option.some.inj (listed.symm.trans found)
    exact fits start at_start

theorem mem_matchedPairs {events : List Event} {pair : DateTime × Event} :
    pair ∈ matchedPairs (ε := ε) matchRule isPrintable fromisoformat rule events ↔
      pair.2 ∈ events ∧ isMatched matchRule rule pair.2 = .ok true ∧
        eventTime (ε := ε) isPrintable fromisoformat rule.title pair.2 = .ok pair.1 := by
  have toOption_iff (event : Event) (moment : DateTime) :
      (eventTime (ε := ε) isPrintable fromisoformat rule.title event).toOption = some moment ↔
        eventTime (ε := ε) isPrintable fromisoformat rule.title event = .ok moment := by
    cases eventTime (ε := ε) isPrintable fromisoformat rule.title event <;> simp [Except.toOption]
  rw [matchedPairs, List.mem_filterMap]
  constructor
  · rintro ⟨event, mem, found⟩
    split at found
    · obtain ⟨moment, timed, rfl⟩ := Option.map_eq_some_iff.mp found
      exact ⟨mem, by assumption, (toOption_iff event moment).mp timed⟩
    · cases found
  · rintro ⟨mem, hit, timed⟩
    refine ⟨pair.2, mem, ?_⟩
    rw [hit]
    exact Option.map_eq_some_iff.mpr ⟨pair.1, (toOption_iff _ _).mpr timed, rfl⟩

theorem matchedEvents_timed {events : List Event}
    (h : ∀ event ∈ events, Timed matchRule isPrintable fromisoformat rule event) :
    matchedEvents matchRule isPrintable fromisoformat rule.title
        (rule.referencedRules.filterMap id) events =
      .ok (matchedPairs matchRule isPrintable fromisoformat rule events) := by
  induction events with
  | nil => rfl
  | cons event events ih =>
    obtain ⟨here, later⟩ := List.forall_mem_cons.mp h
    obtain ⟨b, evaluated⟩ := here.evaluated
    have search : anyMatch matchRule event (rule.referencedRules.filterMap id) = .ok b := evaluated
    rw [matchedEvents, search, ih later]
    simp only [matchedPairs, List.filterMap_cons, evaluated]
    cases b with
    | false => rfl
    | true =>
      obtain ⟨moment, timed, -⟩ := here.timed evaluated
      rw [timed]
      rfl

theorem evaluated_of_matchedEvents {title : Text} {events : List Event}
    {matched : List (DateTime × Event)}
    (h : matchedEvents matchRule isPrintable fromisoformat title
      (rule.referencedRules.filterMap id) events = .ok matched) :
    ∀ event ∈ events, ∃ b, isMatched matchRule rule event = .ok b := by
  induction events generalizing matched with
  | nil => simp
  | cons event events ih =>
    rw [matchedEvents] at h
    obtain ⟨b, search, rest⟩ := bind_eq_ok_iff.mp h
    have here : ∃ b, isMatched matchRule rule event = .ok b := by
      unfold isMatched
      cases found : anyMatch matchRule event (rule.referencedRules.filterMap id) with
      | ok b => exact ⟨b, rfl⟩
      | error e =>
        rw [found] at search
        cases search
    refine List.forall_mem_cons.mpr ⟨here, ?_⟩
    cases b with
    | false => exact ih rest
    | true =>
      obtain ⟨moment, -, rest⟩ := bind_eq_ok_iff.mp rest
      obtain ⟨others, later, -⟩ := bind_eq_ok_iff.mp rest
      exact ih later

theorem evaluated_of_matchCorrelation {seconds : ℤ} {events : List Event} {b : Bool}
    (resolved : Resolved rule condition seconds)
    (h : matchCorrelation matchRule isPrintable fromisoformat rule events = .ok b) :
    ∀ event ∈ events, ∃ b, isMatched matchRule rule event = .ok b := by
  rw [matchCorrelation_eq resolved] at h
  obtain ⟨matched, found, -⟩ := bind_eq_ok_iff.mp h
  exact evaluated_of_matchedEvents found

theorem scanStarts_eq_false_iff {meets : DateTime → Except (Error ε) Bool}
    {starts : List DateTime} :
    scanStarts meets starts = .ok false ↔ ∀ start ∈ starts, meets start = .ok false := by
  induction starts with
  | nil => simp [scanStarts]
  | cons start starts ih =>
    rw [List.forall_mem_cons, ← ih, scanStarts]
    cases here : meets start with
    | error e => simp [bind, Except.bind]
    | ok b => cases b <;> simp [bind, Except.bind, pure, Except.pure]

theorem eq_of_timedelta {seconds span : ℤ} (h : timedelta (ε := ε) seconds = .ok span) :
    span = seconds * 1000000 := by
  unfold timedelta at h
  split at h
  · exact (Except.ok.inj h).symm
  · cases h

/-! ## What a span that was searched says of its events -/

theorem countSpan_returns {σ : Type} {fresh : σ} {change : Event → Except (Error ε) (σ → σ)}
    {groups : List Text} {start : DateTime} {span : ℤ} {matched : List (DateTime × Event)}
    {counted next : AList fun _ : List HashKey => σ}
    (h : countSpan fresh change groups start span matched counted = .ok next) :
    ∀ pair ∈ matched, start.utc ≤ pair.1.utc → (start.add? span).isSome ∧
      (pair.1.utc < start.utc + span →
        (∃ key, groupKey (ε := ε) groups pair.2 = .ok key) ∧
          ∃ changed, change pair.2 = .ok changed) := by
  induction matched generalizing counted with
  | nil => simp
  | cons pair matched ih =>
    obtain ⟨moment, event⟩ := pair
    rw [countSpan] at h
    obtain ⟨inside, compared, rest⟩ := bind_eq_ok_iff.mp h
    have here : start.utc ≤ moment.utc → (start.add? span).isSome := by
      intro reached
      by_contra out
      rw [inSpan, if_pos reached, Option.not_isSome_iff_eq_none.mp out] at compared
      cases compared
    cases inside with
    | false =>
      refine List.forall_mem_cons.mpr ⟨fun reached => ⟨here reached, fun early => ?_⟩, ih rest⟩
      rw [inSpan_ok (here reached), Except.ok.injEq, decide_eq_false_iff_not] at compared
      exact absurd ⟨reached, early⟩ compared
    | true =>
      obtain ⟨key, grouped, rest⟩ := bind_eq_ok_iff.mp rest
      obtain ⟨changed, changes, rest⟩ := bind_eq_ok_iff.mp rest
      refine List.forall_mem_cons.mpr ⟨fun reached => ⟨here reached, fun _ => ?_⟩, ih rest⟩
      exact ⟨⟨key, grouped⟩, changed, changes⟩

theorem spanMeets_returns {matched : List (DateTime × Event)} {start : DateTime} {span : ℤ}
    {b : Bool}
    (h : spanMeets (ε := ε) condition rule.type (rule.groupBy.getD []) matched span start = .ok b) :
    ∀ pair ∈ matched, start.utc ≤ pair.1.utc → (start.add? span).isSome ∧
      (pair.1.utc < start.utc + span → Keyed (ε := ε) rule condition pair.2) := by
  unfold spanMeets at h
  intro pair mem reached
  split at h
  · rename_i counting
    obtain ⟨distinct, counts, -⟩ := bind_eq_ok_iff.mp h
    obtain ⟨room, keyed⟩ := countSpan_returns counts pair mem reached
    refine ⟨room, fun early => ?_⟩
    obtain ⟨grouped, changed, adds⟩ := keyed early
    obtain ⟨value, known, -⟩ := bind_eq_ok_iff.mp adds
    refine ⟨grouped, value, ?_⟩
    rwa [countedValue, if_pos counting]
  · rename_i counting
    obtain ⟨counts, counted, -⟩ := bind_eq_ok_iff.mp h
    obtain ⟨room, keyed⟩ := countSpan_returns counted pair mem reached
    refine ⟨room, fun early => ⟨(keyed early).1, .none, ?_⟩⟩
    rw [countedValue, if_neg counting]

theorem countSpan_empty {σ : Type} {fresh : σ} {change : Event → Except (Error ε) (σ → σ)}
    {groups : List Text} {start : DateTime} {span : ℤ} (room : (start.add? span).isSome)
    (short : span ≤ 0) (matched : List (DateTime × Event))
    (counted : AList fun _ : List HashKey => σ) :
    countSpan fresh change groups start span matched counted = .ok counted := by
  induction matched with
  | nil => rfl
  | cons pair matched ih =>
    obtain ⟨moment, event⟩ := pair
    have outside : ¬ (start.utc ≤ moment.utc ∧ moment.utc < start.utc + span) := by omega
    rw [countSpan, inSpan_ok room, decide_eq_false outside]
    exact ih

theorem spanMeets_empty {matched : List (DateTime × Event)} {start : DateTime} {span : ℤ}
    (room : (start.add? span).isSome) (short : span ≤ 0) (type : CorrelationType)
    (groups : List Text) :
    spanMeets (ε := ε) condition type groups matched span start = .ok false := by
  unfold spanMeets
  split
  · rw [countSpan_empty room short]
    rfl
  · rw [countSpan_empty room short]
    rfl

/-! ## Silence -/

theorem suitable_iff {events : List Event}
    (timed : ∀ event ∈ events, Timed (ε := ε) matchRule isPrintable fromisoformat rule event) :
    Suitable matchRule isPrintable fromisoformat rule condition events ↔
      ∀ event ∈ events, isMatched matchRule rule event = .ok true →
        Keyed (ε := ε) rule condition event := by
  constructor
  · intro suitable event mem hit
    exact ⟨suitable.grouped event mem hit, suitable.counted event mem hit⟩
  · intro keyed
    exact ⟨fun event mem => (timed event mem).evaluated, fun event mem => (timed event mem).timed,
      fun event mem hit => (keyed event mem hit).1, fun event mem hit => (keyed event mem hit).2⟩

theorem matched_of_mem_observed {events : List Event} {o : Observed}
    (mem : o ∈ observed (ε := ε) matchRule isPrintable fromisoformat rule condition events) :
    ∃ event ∈ events, isMatched matchRule rule event = .ok true ∧
      observe (ε := ε) isPrintable fromisoformat rule condition event = .ok o := by
  obtain ⟨event, inside, found⟩ := List.mem_filterMap.mp mem
  split at found
  · refine ⟨event, inside, by assumption, ?_⟩
    cases seen : observe (ε := ε) isPrintable fromisoformat rule condition event with
    | error e =>
      rw [seen] at found
      cases found
    | ok seen_o =>
      rw [seen] at found
      rw [Option.some.inj found]
  · cases found

def matchedMoments (matchRule : Rule → Event → Except ε Bool) (isPrintable : ℕ → Bool)
    (fromisoformat : Text → Option DateTime) (rule : CorrelationRule Rule)
    (events : List Event) : List DateTime :=
  (matchedPairs (ε := ε) matchRule isPrintable fromisoformat rule events).map Prod.fst

theorem exists_matchedPair {events : List Event}
    (timed : ∀ event ∈ events, Timed (ε := ε) matchRule isPrintable fromisoformat rule event)
    {event : Event} (mem : event ∈ events) (hit : isMatched matchRule rule event = .ok true) :
    ∃ moment, (moment, event) ∈
      matchedPairs (ε := ε) matchRule isPrintable fromisoformat rule events := by
  obtain ⟨moment, at_moment, -⟩ := (timed event mem).timed hit
  exact ⟨moment, mem_matchedPairs.mpr ⟨mem, hit, at_moment⟩⟩

theorem matchCorrelation_searches {seconds : ℤ} {events : List Event}
    (resolved : Resolved rule condition seconds)
    (timed : ∀ event ∈ events, Timed matchRule isPrintable fromisoformat rule event) :
    ∃ starts,
      Starts (matchedMoments (ε := ε) matchRule isPrintable fromisoformat rule events) starts ∧
      (matchCorrelation matchRule isPrintable fromisoformat rule events = .ok false ↔
        ∀ start ∈ starts, spanMeets (ε := ε) condition rule.type (rule.groupBy.getD [])
          (matchedPairs matchRule isPrintable fromisoformat rule events) (seconds * 1000000) start =
            .ok false) := by
  have aware : ∀ m ∈ matchedMoments (ε := ε) matchRule isPrintable fromisoformat rule events,
      m.isAware := by
    intro m mem
    obtain ⟨pair, inside, rfl⟩ := List.mem_map.mp mem
    obtain ⟨at_event, hit, at_time⟩ := mem_matchedPairs.mp inside
    obtain ⟨moment, same, aware⟩ := (timed pair.2 at_event).timed hit
    rwa [Except.ok.inj (at_time.symm.trans same)]
  obtain ⟨starts, sorted, ordered⟩ := sortedMoments_ok (ε := ε) aware
  refine ⟨starts, ordered, ?_⟩
  have evaluates : matchCorrelation matchRule isPrintable fromisoformat rule events =
      if matchedPairs (ε := ε) matchRule isPrintable fromisoformat rule events = [] then .ok false
      else (timedelta seconds).bind fun span => scanStarts (spanMeets condition rule.type
        (rule.groupBy.getD [])
        (matchedPairs matchRule isPrintable fromisoformat rule events) span) starts := by
    rw [matchCorrelation_eq resolved, matchedEvents_timed timed]
    change (if _ then _ else _) = _
    split
    · rfl
    · rw [matchedMoments] at sorted
      rw [sorted]
      rfl
  rw [evaluates]
  split
  · rename_i none
    refine iff_of_true rfl fun start mem => ?_
    obtain ⟨pair, inside, -⟩ :=
      List.mem_map.mp (List.mem_of_find?_eq_some (ordered.first start mem))
    rw [none] at inside
    cases inside
  · rename_i some
    rw [bind_eq_ok_iff]
    constructor
    · rintro ⟨span, small, scanned⟩
      rw [← eq_of_timedelta small]
      exact scanStarts_eq_false_iff.mp scanned
    · intro silent
      obtain ⟨pair, inside⟩ := List.exists_mem_of_ne_nil _ some
      obtain ⟨start, mem, same⟩ := ordered.covers pair.1 (List.mem_map_of_mem inside)
      obtain ⟨room, -⟩ := spanMeets_returns (silent start mem) pair inside same.le
      exact ⟨_, timedelta_ok room, scanStarts_eq_false_iff.mpr silent⟩

theorem not_meets_of_short {satisfied : List Observed → Prop} {entries : List Observed}
    {start span : ℤ} (short : span ≤ 0) (g : List HashKey) :
    ¬ Meets Observed.moment (·.key) satisfied entries start (start + span) g := by
  rintro ⟨some, -⟩
  obtain ⟨o, inside⟩ := List.exists_mem_of_ne_nil _ some
  obtain ⟨-, ⟨reached, early⟩, -⟩ := mem_within.mp inside
  omega

section Windows

variable {events : List Event} {starts : List DateTime} {span : ℤ}

theorem spanMeets_observed
    (timed : ∀ event ∈ events, Timed (ε := ε) matchRule isPrintable fromisoformat rule event)
    (keyed : ∀ event ∈ events, isMatched matchRule rule event = .ok true →
      Keyed (ε := ε) rule condition event) :
    (observed (ε := ε) matchRule isPrintable fromisoformat rule condition events).map
        Observed.time =
      matchedMoments (ε := ε) matchRule isPrintable fromisoformat rule events ∧
    ∀ start, (start.add? span).isSome →
      (spanMeets (ε := ε) condition rule.type (rule.groupBy.getD [])
        (matchedPairs matchRule isPrintable fromisoformat rule events) span start = .ok false ↔
          ∀ g, ¬ Meets Observed.moment (·.key) (Satisfies rule.type condition)
            (observed (ε := ε) matchRule isPrintable fromisoformat rule condition events)
            start.utc (start.utc + span) g) := by
  obtain ⟨matched, found, sees, -⟩ := matchedEvents_ok ((suitable_iff timed).mpr keyed)
  obtain rfl := Except.ok.inj ((matchedEvents_timed timed).symm.trans found)
  refine ⟨(times_eq sees).symm, fun start room => ?_⟩
  obtain ⟨b, evaluates, holds⟩ := spanMeets_ok room sees
  rw [evaluates, ← not_exists, ← holds, Except.ok.injEq, Bool.not_eq_true]

theorem keyed_of_silent
    (timed : ∀ event ∈ events, Timed (ε := ε) matchRule isPrintable fromisoformat rule event)
    (ordered : Starts (matchedMoments (ε := ε) matchRule isPrintable fromisoformat rule events)
      starts)
    (silent : ∀ start ∈ starts, spanMeets (ε := ε) condition rule.type (rule.groupBy.getD [])
      (matchedPairs matchRule isPrintable fromisoformat rule events) span start = .ok false)
    (positive : 0 < span) :
    ∀ event ∈ events, isMatched matchRule rule event = .ok true →
      Keyed (ε := ε) rule condition event := by
  intro event mem hit
  obtain ⟨moment, inside⟩ := exists_matchedPair timed mem hit
  obtain ⟨start, at_start, same⟩ := ordered.covers moment (List.mem_map_of_mem inside)
  have searched := spanMeets_returns (silent start at_start) _ inside same.le
  apply searched.2
  change moment.utc < start.utc + span
  omega

theorem room_of_silent
    (ordered : Starts (matchedMoments (ε := ε) matchRule isPrintable fromisoformat rule events)
      starts)
    (silent : ∀ start ∈ starts, spanMeets (ε := ε) condition rule.type (rule.groupBy.getD [])
      (matchedPairs matchRule isPrintable fromisoformat rule events) span start = .ok false) :
    ∀ start ∈ starts, (start.add? span).isSome := by
  intro start mem
  obtain ⟨pair, inside, rfl⟩ :=
    List.mem_map.mp (List.mem_of_find?_eq_some (ordered.first start mem))
  exact (spanMeets_returns (silent _ mem) pair inside le_rfl).1

end Windows

theorem matchCorrelation_eq_false_iff {seconds : ℤ} {events : List Event}
    (resolved : Resolved rule condition seconds)
    (timed : ∀ event ∈ events, Timed matchRule isPrintable fromisoformat rule event) :
    matchCorrelation matchRule isPrintable fromisoformat rule events = .ok false ↔
      (0 < seconds → ∀ event ∈ events, isMatched matchRule rule event = .ok true →
        Keyed (ε := ε) rule condition event) ∧
      Room (seconds * 1000000)
        (matchedMoments (ε := ε) matchRule isPrintable fromisoformat rule events) ∧
      ∀ o ∈ observed (ε := ε) matchRule isPrintable fromisoformat rule condition events, ∀ g,
        ¬ Meets Observed.moment (·.key) (Satisfies rule.type condition)
          (observed (ε := ε) matchRule isPrintable fromisoformat rule condition events)
          o.moment (o.moment + seconds * 1000000) g := by
  obtain ⟨starts, ordered, searches⟩ := matchCorrelation_searches resolved timed
  rw [searches, ordered.room_iff]
  constructor
  · intro silent
    have keyed (positive : 0 < seconds) := keyed_of_silent timed ordered silent (by omega)
    have room := room_of_silent ordered silent
    refine ⟨keyed, room, fun o mem g => ?_⟩
    by_cases positive : 0 < seconds
    · obtain ⟨times, agrees⟩ := spanMeets_observed timed (keyed positive)
      obtain ⟨start, at_start, same⟩ := ordered.covers o.time (times ▸ List.mem_map_of_mem mem)
      have never := (agrees start (room start at_start)).mp (silent start at_start) g
      rwa [same] at never
    · exact not_meets_of_short (by omega) g
  · rintro ⟨keyed, room, never⟩ start mem
    by_cases positive : 0 < seconds
    · obtain ⟨times, agrees⟩ := spanMeets_observed timed (keyed positive)
      rw [agrees start (room start mem)]
      have listed := List.mem_of_find?_eq_some (ordered.first start mem)
      rw [← times] at listed
      obtain ⟨o, at_o, rfl⟩ := List.mem_map.mp listed
      exact never o at_o
    · exact spanMeets_empty (room start mem) (by omega) _ _

/-! ## Events without the counted field -/

theorem observed_perm {events other : List Event} (h : events.Perm other) :
    (observed (ε := ε) matchRule isPrintable fromisoformat rule condition events).Perm
      (observed matchRule isPrintable fromisoformat rule condition other) :=
  h.filterMap _

theorem observed_append (events more : List Event) :
    observed (ε := ε) matchRule isPrintable fromisoformat rule condition (events ++ more) =
      observed matchRule isPrintable fromisoformat rule condition events ++
        observed matchRule isPrintable fromisoformat rule condition more :=
  List.filterMap_append

theorem within_append {entries others : List Observed} {start stop : ℤ} {g : List HashKey} :
    within Observed.moment (·.key) (entries ++ others) start stop g =
      within Observed.moment (·.key) entries start stop g ++
        within Observed.moment (·.key) others start stop g :=
  List.filter_append ..

theorem count_append {window further whole : List Observed} {value : HashKey}
    (some : further ≠ []) (same : ∀ o ∈ further, o.value = value)
    (perm : (window ++ further).Perm whole) :
    count .valueCount whole =
      if value ∈ window.map (·.value) then count .valueCount window
      else count .valueCount window + 1 := by
  have values : (whole.map (·.value)).toFinset =
      insert value (window.map (·.value)).toFinset := by
    ext v
    have moved : v ∈ whole.map (·.value) ↔ v ∈ (window ++ further).map (·.value) :=
      (perm.map _).mem_iff.symm
    have added : v ∈ further.map (·.value) ↔ v = value := by
      rw [List.mem_map]
      constructor
      · rintro ⟨o, mem, rfl⟩
        exact same o mem
      · rintro rfl
        obtain ⟨o, mem⟩ := List.exists_mem_of_ne_nil _ some
        exact ⟨o, mem, same o mem⟩
    rw [List.mem_toFinset, moved, List.map_append, List.mem_append, added, Finset.mem_insert,
      List.mem_toFinset, or_comm]
  simp only [count, if_true, values, Finset.card_insert_eq_ite, List.mem_toFinset]

theorem meets_more_iff {type : CorrelationType} (counting : type = .valueCount)
    (above : condition.op = .gt ∨ condition.op = .gte) {entries further whole : List Observed}
    {start stop : ℤ} {g : List HashKey}
    (silent : ¬ Meets Observed.moment (·.key) (Satisfies type condition) entries start stop g)
    (absent : ∀ o ∈ further, o.value = .none) (perm : (entries ++ further).Perm whole) :
    (¬ Meets Observed.moment (·.key) (Satisfies type condition) whole start stop g) ↔
      (within Observed.moment (·.key) further start stop g ≠ [] →
        HashKey.none ∈ (within Observed.moment (·.key) entries start stop g).map (·.value) ∨
          condition.op.compare
            (count .valueCount (within Observed.moment (·.key) entries start stop g) + 1)
            condition.count = false) := by
  subst counting
  have parts : (within Observed.moment (·.key) entries start stop g ++
      within Observed.moment (·.key) further start stop g).Perm
      (within Observed.moment (·.key) whole start stop g) :=
    within_append ▸ perm.filter _
  have none_value : ∀ o ∈ within Observed.moment (·.key) further start stop g, o.value = .none :=
    fun o mem => absent o (mem_within.mp mem).1
  rw [Meets] at silent
  rw [Meets]
  generalize within Observed.moment (·.key) entries start stop g = window at *
  generalize within Observed.moment (·.key) further start stop g = added at *
  generalize within Observed.moment (·.key) whole start stop g = all at *
  by_cases none : added = []
  · subst none
    rw [List.append_nil] at parts
    refine iff_of_true ?_ (fun some => absurd rfl some)
    rintro ⟨some, satisfied⟩
    exact silent ⟨ne_nil_of_subperm parts.symm.subperm some,
      satisfies_grows .valueCount above _ _ parts.symm.subperm satisfied⟩
  · have some : all ≠ [] :=
      ne_nil_of_subperm ((List.sublist_append_right window added).subperm.trans parts.subperm) none
    simp only [Satisfies, count_append none none_value parts, ne_eq, none, some, not_false_eq_true,
      true_and, forall_const]
    split
    · rename_i known
      have nonempty : window ≠ [] := by
        rintro rfl
        cases known
      simp only [Satisfies, ne_eq, nonempty, not_false_eq_true, true_and] at silent
      exact iff_of_true silent (.inl known)
    · rename_i unknown
      simp [unknown]

/-- An event that the rules match at an aware time and that does not carry the field. -/
structure Unseen (matchRule : Rule → Event → Except ε Bool) (isPrintable : ℕ → Bool)
    (fromisoformat : Text → Option DateTime) (rule : CorrelationRule Rule)
    (condition : Condition) (event : Event) : Prop where
  hit : isMatched matchRule rule event = .ok true
  timed : ∃ moment, eventTime (ε := ε) isPrintable fromisoformat rule.title event = .ok moment ∧
    moment.isAware
  absent : lookupField event (condition.fieldref.getD []) = .none

theorem Unseen.value_eq {more : List Event} (counting : rule.type = .valueCount)
    (unseen : ∀ event ∈ more,
      Unseen (ε := ε) matchRule isPrintable fromisoformat rule condition event)
    {o : Observed}
    (mem : o ∈ observed (ε := ε) matchRule isPrintable fromisoformat rule condition more) :
    o.value = .none := by
  obtain ⟨event, inside, -, observes⟩ := matched_of_mem_observed mem
  obtain ⟨moment, -, observes⟩ := bind_eq_ok_iff.mp observes
  obtain ⟨key, -, observes⟩ := bind_eq_ok_iff.mp observes
  obtain ⟨value, counted, observes⟩ := bind_eq_ok_iff.mp observes
  rw [countedValue, if_pos counting, (unseen event inside).absent] at counted
  rw [← Except.ok.inj observes, ← Except.ok.inj counted]

theorem Unseen.keyed_iff (counting : rule.type = .valueCount) {event : Event}
    (unseen : Unseen (ε := ε) matchRule isPrintable fromisoformat rule condition event) :
    Keyed (ε := ε) rule condition event ↔
      ∃ key, groupKey (ε := ε) (rule.groupBy.getD []) event = .ok key := by
  have counted : countedValue (ε := ε) rule condition event = .ok .none := by
    rw [countedValue, if_pos counting, unseen.absent]
    rfl
  exact and_iff_left ⟨_, counted⟩

theorem Unseen.all_keyed_iff (counting : rule.type = .valueCount) {positive : Prop}
    {events more combined : List Event}
    (unseen : ∀ event ∈ more,
      Unseen (ε := ε) matchRule isPrintable fromisoformat rule condition event)
    (perm : (events ++ more).Perm combined)
    (keyed : positive → ∀ event ∈ events, isMatched matchRule rule event = .ok true →
      Keyed (ε := ε) rule condition event) :
    (positive → ∀ event ∈ combined, isMatched matchRule rule event = .ok true →
      Keyed (ε := ε) rule condition event) ↔
    (positive → ∀ event ∈ more,
      ∃ key, groupKey (ε := ε) (rule.groupBy.getD []) event = .ok key) := by
  refine forall_congr' fun given => ?_
  constructor
  · intro all event mem
    exact ((unseen event mem).keyed_iff counting).mp
      (all event (perm.mem_iff.mp (List.mem_append_right _ mem)) (unseen event mem).hit)
  · intro grouped event mem hit
    rcases List.mem_append.mp (perm.mem_iff.mpr mem) with old | new
    · exact keyed given event old hit
    · exact ((unseen event new).keyed_iff counting).mpr (grouped event new)

/-- Further events have hashable group keys, and the windows end in range with them. Where
they come into a window of a group, one of the earlier events there has no value either, or
one more distinct value does not do. -/
structure StaysSilent (matchRule : Rule → Event → Except ε Bool) (isPrintable : ℕ → Bool)
    (fromisoformat : Text → Option DateTime) (rule : CorrelationRule Rule)
    (condition : Condition) (seconds : ℤ) (events more combined : List Event) : Prop where
  grouped : 0 < seconds → ∀ event ∈ more,
    ∃ key, groupKey (ε := ε) (rule.groupBy.getD []) event = .ok key
  room : Room (seconds * 1000000)
    (matchedMoments matchRule isPrintable fromisoformat rule combined)
  below : ∀ o ∈ observed matchRule isPrintable fromisoformat rule condition combined, ∀ g,
    within Observed.moment (·.key)
      (observed matchRule isPrintable fromisoformat rule condition more)
      o.moment (o.moment + seconds * 1000000) g ≠ [] →
    HashKey.none ∈ (within Observed.moment (·.key)
        (observed matchRule isPrintable fromisoformat rule condition events)
        o.moment (o.moment + seconds * 1000000) g).map (·.value) ∨
      condition.op.compare (count .valueCount (within Observed.moment (·.key)
        (observed matchRule isPrintable fromisoformat rule condition events)
        o.moment (o.moment + seconds * 1000000) g) + 1) condition.count = false

/-- Exactly when a silent list of events stays silent with further events that do not
carry the counted field. -/
theorem matchCorrelation_absent_iff {seconds : ℤ} {events more combined : List Event}
    (resolved : Resolved rule condition seconds) (counting : rule.type = .valueCount)
    (above : condition.op = .gt ∨ condition.op = .gte)
    (timed : ∀ event ∈ events, ∃ moment,
      eventTime (ε := ε) isPrintable fromisoformat rule.title event = .ok moment ∧ moment.isAware)
    (silent : matchCorrelation matchRule isPrintable fromisoformat rule events = .ok false)
    (unseen : ∀ event ∈ more, Unseen matchRule isPrintable fromisoformat rule condition event)
    (perm : (events ++ more).Perm combined) :
    matchCorrelation matchRule isPrintable fromisoformat rule combined = .ok false ↔
      StaysSilent matchRule isPrintable fromisoformat rule condition seconds events more
        combined := by
  have timed_events : ∀ event ∈ events,
      Timed matchRule isPrintable fromisoformat rule event := fun event mem =>
    ⟨evaluated_of_matchCorrelation resolved silent event mem, fun _ => timed event mem⟩
  have timed_combined : ∀ event ∈ combined,
      Timed matchRule isPrintable fromisoformat rule event := by
    intro event mem
    rcases List.mem_append.mp (perm.mem_iff.mpr mem) with old | new
    · exact timed_events event old
    · exact ⟨⟨true, (unseen event new).hit⟩, fun _ => (unseen event new).timed⟩
  obtain ⟨keyed, -, never⟩ := (matchCorrelation_eq_false_iff resolved timed_events).mp silent
  rw [matchCorrelation_eq_false_iff resolved timed_combined]
  have nowhere (start : ℤ) (g : List HashKey) :
      ¬ Meets Observed.moment (·.key) (Satisfies rule.type condition)
        (observed (ε := ε) matchRule isPrintable fromisoformat rule condition events)
        start (start + seconds * 1000000) g := by
    intro meets
    obtain ⟨o, mem, g, meets⟩ :=
      (exists_meets_iff_of_grows (satisfies_grows rule.type above) _ _).mp ⟨start, g, meets⟩
    exact never o mem g meets
  have keyed_iff := Unseen.all_keyed_iff counting unseen perm keyed
  have window_iff (start : ℤ) (g : List HashKey) :=
    meets_more_iff counting above (nowhere start g)
      (fun o mem => Unseen.value_eq counting unseen mem)
      (observed_append (ε := ε) events more ▸ observed_perm perm)
  constructor
  · rintro ⟨grouped, room, silences⟩
    exact ⟨keyed_iff.mp grouped, room, fun o mem g => (window_iff o.moment g).mp (silences o mem g)⟩
  · rintro ⟨grouped, room, below⟩
    exact ⟨keyed_iff.mpr grouped, room, fun o mem g => (window_iff o.moment g).mpr (below o mem g)⟩

end Silence

/-! A read of a register, and one by a sensor that does not see which. -/

def enumeration (count : ℤ) : CorrelationRule (Text × Text) :=
  { title := codes "register enumeration"
    type := .valueCount
    referencedRules := [some (codes "service", codes "modbus")]
    condition := some ⟨.gte, count, some (codes "register")⟩
    groupBy := some [codes "src_ip"]
    timespan := some 300 }

def readOf (register : ℤ) : Event :=
  (codes "register", .int register) :: floodEvent "2026-05-01T10:00:00Z"

def blindRead : Event := floodEvent "2026-05-01T10:00:01Z"

theorem enumeration_resolved (count : ℤ) :
    Resolved (enumeration count) ⟨.gte, count, some (codes "register")⟩ 300 :=
  ⟨.inl rfl, by simp [enumeration], by simp [enumeration], rfl,
    fun _ => (by decide : codes "register" ≠ []), rfl⟩

theorem blindRead_unseen (count : ℤ) :
    Unseen equals (fun _ => true) tenOClock (enumeration count)
      ⟨.gte, count, some (codes "register")⟩ blindRead :=
  ⟨rfl, ⟨_, rfl, by decide⟩, rfl⟩

theorem readOf_observed (count : ℤ) :
    observed equals (fun _ => true) tenOClock (enumeration count)
      ⟨.gte, count, some (codes "register")⟩ [readOf 5] =
        [⟨ten, [.str (codes "172.24.0.10")], .number 5⟩] := rfl

theorem matchCorrelation_absent_enumeration :
    matchCorrelation equals (fun _ => true) tenOClock (enumeration 3) ([readOf 5] ++ [blindRead]) =
      .ok false := by
  have timed : ∀ event ∈ [readOf 5], ∃ moment, eventTime (ε := Text) (fun _ => true) tenOClock
      (enumeration 3).title event = .ok moment ∧ moment.isAware := by
    rw [List.forall_mem_singleton]
    exact ⟨ten, rfl, rfl⟩
  have unseen : ∀ event ∈ [blindRead], Unseen equals (fun _ => true) tenOClock (enumeration 3)
      ⟨.gte, 3, some (codes "register")⟩ event :=
    List.forall_mem_singleton.mpr (blindRead_unseen 3)
  have stays : StaysSilent equals (fun _ => true) tenOClock (enumeration 3)
      ⟨.gte, 3, some (codes "register")⟩ 300 [readOf 5] [blindRead]
      ([readOf 5] ++ [blindRead]) := by
    refine ⟨fun _ => List.forall_mem_singleton.mpr ⟨_, rfl⟩, ?_, ?_⟩
    · have moments : matchedMoments equals (fun _ => true) tenOClock (enumeration 3)
          ([readOf 5] ++ [blindRead]) = [ten, tenAndOne] := rfl
      rw [moments]
      unfold Room
      decide
    · rw [readOf_observed]
      intro o mem g _
      right
      have few : count .valueCount (within Observed.moment (·.key)
          [⟨ten, [.str (codes "172.24.0.10")], .number 5⟩]
          o.moment (o.moment + 300 * 1000000) g) ≤ 1 :=
        count_mono .valueCount List.filter_sublist.subperm
      rw [ConditionOperator.compare, decide_eq_false_iff_not]
      change ¬ (count .valueCount _ : ℤ) + 1 ≥ 3
      omega
  exact (matchCorrelation_absent_iff (enumeration_resolved 3) rfl (.inr rfl) timed rfl unseen
    (List.Perm.refl _)).mpr stays

/-- Two values are counted where one is there. -/
theorem matchCorrelation_counts_absent :
    Resolved (enumeration 2) ⟨.gte, 2, some (codes "register")⟩ 300 ∧
      matchCorrelation equals (fun _ => true) tenOClock (enumeration 2) [readOf 5] = .ok false ∧
      Unseen equals (fun _ => true) tenOClock (enumeration 2)
        ⟨.gte, 2, some (codes "register")⟩ blindRead ∧
      matchCorrelation equals (fun _ => true) tenOClock (enumeration 2) [readOf 5, blindRead] =
        .ok true :=
  ⟨enumeration_resolved 2, rfl, blindRead_unseen 2, rfl⟩

end OtDetection.Correlation
