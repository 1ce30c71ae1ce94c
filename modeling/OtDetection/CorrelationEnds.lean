import OtDetection.CorrelationSilence

/-! How the evaluation of the matched events ends, whatever they are: at the earliest window that
runs out of range, that has an event which cannot be grouped or counted, or that meets the
condition. -/

namespace OtDetection.Correlation
open PyText FieldLookup SlidingWindow ExceptSteps

/-- What keeps the evaluator from the answer no. -/
inductive Stop
  | overflow
  | typeError
  | found
  deriving DecidableEq

section Ends

variable {Rule ε : Type} (rule : CorrelationRule Rule) (condition : Condition) (span : ℤ)
  (matched : List (DateTime × Event))

def Stop.result : Stop → Except (Error ε) Bool
  | overflow => .error .overflowError
  | typeError => .error .typeError
  | found => .ok true

def searchMatched (seconds : ℤ) : Except (Error ε) Bool :=
  if matched = [] then .ok false else do
    let span ← timedelta seconds
    let starts ← sortedMoments (matched.map Prod.fst)
    scanStarts (spanMeets condition rule.type (rule.groupBy.getD []) matched span) starts

/-- A matched event as an entry of the windows, unless it cannot be grouped or counted. -/
def entry (pair : DateTime × Event) : Except (Error ε) Observed := do
  let key ← groupKey (rule.groupBy.getD []) pair.2
  let value ← countedValue rule condition pair.2
  return ⟨pair.1, key, value⟩

def entries : List Observed :=
  matched.filterMap fun pair => (entry (ε := ε) rule condition pair).toOption

def inWindow (moment : ℤ) (pair : DateTime × Event) : Bool :=
  moment ≤ pair.1.utc ∧ pair.1.utc < moment + span

/-- The first listed event of the moment has the span in range behind it. -/
def HasRoom (moment : ℤ) : Prop :=
  ∀ first ∈ (matched.map Prod.fst).find? (·.utc = moment), (first.add? span).isSome

/-- The events of the window from the moment on can be grouped and counted. -/
def AllKeyed (moment : ℤ) : Prop :=
  ∀ pair ∈ matched, inWindow span moment pair = true → Keyed (ε := ε) rule condition pair.2

/-- What the window from a moment on stops the evaluation with. -/
def StopsAt (moment : ℤ) : Stop → Prop
  | .overflow => ¬ HasRoom span matched moment
  | .typeError => HasRoom span matched moment ∧ ¬ AllKeyed (ε := ε) rule condition span matched moment
  | .found => HasRoom span matched moment ∧ AllKeyed (ε := ε) rule condition span matched moment ∧
      ∃ g, Meets Observed.moment (·.key) (Satisfies rule.type condition)
        (entries (ε := ε) rule condition matched) moment (moment + span) g

/-- How the evaluation of the matched events ends, unless no window stops it. -/
inductive Ends (ε : Type) (rule : CorrelationRule Rule) (condition : Condition) (seconds : ℤ)
    (matched : List (DateTime × Event)) : Stop → Prop
  | long : matched ≠ [] → ¬ (timedelta (ε := ε) seconds).isOk →
      Ends ε rule condition seconds matched .overflow
  | mixed : (timedelta (ε := ε) seconds).isOk → Mixed (matched.map Prod.fst) →
      Ends ε rule condition seconds matched .typeError
  | window {pair : DateTime × Event} {stop : Stop} :
      (timedelta (ε := ε) seconds).isOk → ¬ Mixed (matched.map Prod.fst) → pair ∈ matched →
      StopsAt (ε := ε) rule condition (seconds * 1000000) matched pair.1.utc stop →
      (∀ earlier ∈ matched, earlier.1.utc < pair.1.utc → ∀ other,
        ¬ StopsAt (ε := ε) rule condition (seconds * 1000000) matched earlier.1.utc other) →
      Ends ε rule condition seconds matched stop

variable {rule condition span matched}

theorem Stop.result_injective {stop other : Stop}
    (same : stop.result (ε := ε) = other.result) : stop = other := by
  cases stop <;> cases other <;> first | rfl | cases same

theorem Stop.result_ne_false (stop : Stop) : stop.result (ε := ε) ≠ .ok false := by
  cases stop <;> simp [Stop.result]

/-! ## One window -/

theorem countSpan_filter {σ : Type} {fresh : σ} {change : Event → Except (Error ε) (σ → σ)}
    {groups : List Text} {start : DateTime} (room : (start.add? span).isSome)
    (matched : List (DateTime × Event)) (counted : AList fun _ : List HashKey => σ) :
    countSpan fresh change groups start span (matched.filter (inWindow span start.utc)) counted =
      countSpan fresh change groups start span matched counted := by
  induction matched generalizing counted with
  | nil => rfl
  | cons pair matched ih =>
    obtain ⟨moment, event⟩ := pair
    rw [List.filter_cons]
    by_cases inside : inWindow span start.utc (moment, event) = true
    · simp only [if_pos inside, countSpan, ih]
    · have outside : inSpan (ε := ε) start span moment = .ok false := by
        rw [inSpan_ok room]
        exact congrArg Except.ok (Bool.not_eq_true _ ▸ inside)
      rw [if_neg inside, ih, countSpan, outside]
      rfl

theorem spanMeets_filter {start : DateTime} (room : (start.add? span).isSome)
    (type : CorrelationType) (groups : List Text) :
    spanMeets (ε := ε) condition type groups (matched.filter (inWindow span start.utc)) span start =
      spanMeets condition type groups matched span start := by
  simp only [spanMeets, countSpan_filter room]

theorem asKey_error {value : PyValue} {e : Error ε} (raises : asKey value = .error e) :
    e = .typeError := by
  unfold asKey at raises
  cases hashed : hashKey value with
  | some key =>
    rw [hashed] at raises
    cases raises
  | none =>
    rw [hashed] at raises
    exact (Except.error.inj raises).symm

theorem groupKey_error {groups : List Text} {event : Event} {e : Error ε}
    (raises : groupKey groups event = .error e) : e = .typeError := by
  obtain ⟨group, -, fails⟩ := mapM_error raises
  exact asKey_error fails

theorem countSpan_error {σ : Type} {fresh : σ} {change : Event → Except (Error ε) (σ → σ)}
    (changes : ∀ event e, change event = .error e → e = .typeError)
    {groups : List Text} {start : DateTime} (room : (start.add? span).isSome)
    {counted : AList fun _ : List HashKey => σ} {e : Error ε}
    (raises : countSpan fresh change groups start span matched counted = .error e) :
    e = .typeError := by
  induction matched generalizing counted with
  | nil => cases raises
  | cons pair matched ih =>
    obtain ⟨moment, event⟩ := pair
    rw [countSpan, inSpan_ok room] at raises
    cases inside : decide (start.utc ≤ moment.utc ∧ moment.utc < start.utc + span) with
    | false =>
      rw [inside] at raises
      exact ih raises
    | true =>
      rw [inside] at raises
      replace raises : (groupKey groups event).bind (fun key => (change event).bind fun step =>
        countSpan fresh change groups start span matched (bump fresh counted (key, step))) =
          .error e := raises
      rcases bind_eq_error_iff.mp raises with key | ⟨key, -, raises⟩
      · exact groupKey_error key
      rcases bind_eq_error_iff.mp raises with changed | ⟨step, -, raises⟩
      · exact changes event e changed
      · exact ih raises

theorem addValue_error {field : Text} {event : Event} {e : Error ε}
    (raises : addValue field event = .error e) : e = .typeError := by
  rcases bind_eq_error_iff.mp raises with value | ⟨_, -, returns⟩
  · exact asKey_error value
  · cases returns

theorem spanMeets_error {start : DateTime} (room : (start.add? span).isSome)
    {type : CorrelationType} {groups : List Text} {e : Error ε}
    (raises : spanMeets condition type groups matched span start = .error e) : e = .typeError := by
  rw [spanMeets] at raises
  split at raises
  · rcases bind_eq_error_iff.mp raises with counts | ⟨_, -, returns⟩
    · exact countSpan_error (fun _ _ => addValue_error) room counts
    · cases returns
  · rcases bind_eq_error_iff.mp raises with counts | ⟨_, -, returns⟩
    · exact countSpan_error (fun _ _ raised => by cases raised) room counts
    · cases returns

theorem sees_entries (keyed : ∀ pair ∈ matched, Keyed (ε := ε) rule condition pair.2) :
    List.Forall₂ (Sees (ε := ε) rule condition) matched
      (entries (ε := ε) rule condition matched) := by
  induction matched with
  | nil => exact .nil
  | cons pair matched ih =>
    obtain ⟨⟨⟨key, grouped⟩, value, counted⟩, later⟩ := List.forall_mem_cons.mp keyed
    have here : entry (ε := ε) rule condition pair = .ok ⟨pair.1, key, value⟩ := by
      rw [entry, grouped, counted]
      rfl
    rw [entries, List.filterMap_cons, here]
    exact .cons ⟨rfl, grouped, counted⟩ (ih later)

theorem time_of_entry {pair : DateTime × Event} {o : Observed}
    (is : entry (ε := ε) rule condition pair = .ok o) : o.time = pair.1 := by
  obtain ⟨key, -, is⟩ := bind_eq_ok_iff.mp is
  obtain ⟨value, -, is⟩ := bind_eq_ok_iff.mp is
  exact congrArg Observed.time (Except.ok.inj is).symm

theorem within_entries (moment : ℤ) (g : List HashKey) :
    within Observed.moment (·.key) (entries (ε := ε) rule condition
        (matched.filter (inWindow span moment))) moment (moment + span) g =
      within Observed.moment (·.key) (entries (ε := ε) rule condition matched) moment
        (moment + span) g := by
  have own : entries (ε := ε) rule condition (matched.filter (inWindow span moment)) =
      (entries (ε := ε) rule condition matched).filter fun o =>
        moment ≤ o.moment ∧ o.moment < moment + span := by
    rw [entries, entries, List.filterMap_filter, List.filter_filterMap]
    refine List.filterMap_congr fun pair _ => ?_
    cases is : entry (ε := ε) rule condition pair with
    | error e => simp [Except.toOption]
    | ok o =>
      have same : inWindow span moment pair =
          decide (moment ≤ o.moment ∧ o.moment < moment + span) := by
        rw [Observed.moment, time_of_entry is]
        rfl
      rw [same]
      simp [Except.toOption, Option.filter]
  rw [own, within, within, List.filter_filter]
  refine List.filter_congr fun o _ => ?_
  rw [← Bool.decide_and, decide_eq_decide]
  exact ⟨And.left, fun inside => ⟨inside, inside.1⟩⟩

theorem spanMeets_keyed {start : DateTime} (room : (start.add? span).isSome)
    (keyed : AllKeyed (ε := ε) rule condition span matched start.utc) :
    ∃ b, spanMeets (ε := ε) condition rule.type (rule.groupBy.getD []) matched span start = .ok b ∧
      (b = true ↔ ∃ g, Meets Observed.moment (·.key) (Satisfies rule.type condition)
        (entries (ε := ε) rule condition matched) start.utc (start.utc + span) g) := by
  have sees : List.Forall₂ (Sees (ε := ε) rule condition)
      (matched.filter (inWindow span start.utc)) _ :=
    sees_entries fun pair mem => keyed pair (List.mem_filter.mp mem).1 (List.mem_filter.mp mem).2
  obtain ⟨b, evaluates, meets⟩ := spanMeets_ok room sees
  rw [spanMeets_filter room] at evaluates
  refine ⟨b, evaluates, meets.trans (exists_congr fun g => ?_)⟩
  rw [Meets, within_entries]
  exact Iff.rfl

theorem spanMeets_stops {start : DateTime}
    (listed : (matched.map Prod.fst).find? (·.utc = start.utc) = some start) :
    (∃ stop, StopsAt (ε := ε) rule condition span matched start.utc stop ∧
      spanMeets condition rule.type (rule.groupBy.getD []) matched span start =
        stop.result (ε := ε)) ∨
    ((∀ stop, ¬ StopsAt (ε := ε) rule condition span matched start.utc stop) ∧
      spanMeets (ε := ε) condition rule.type (rule.groupBy.getD []) matched span start =
        .ok false) := by
  have room_iff : HasRoom span matched start.utc ↔ (start.add? span).isSome := by
    rw [HasRoom, listed]
    simp
  by_cases room : (start.add? span).isSome
  · have has := room_iff.mpr room
    by_cases keyed : AllKeyed (ε := ε) rule condition span matched start.utc
    · obtain ⟨b, evaluates, meets⟩ := spanMeets_keyed room keyed
      cases b with
      | true => exact .inl ⟨.found, ⟨has, keyed, meets.mp rfl⟩, evaluates⟩
      | false =>
        refine .inr ⟨fun stop stops => ?_, evaluates⟩
        cases stop with
        | overflow => exact stops has
        | typeError => exact stops.2 keyed
        | found => exact Bool.false_ne_true (meets.mpr stops.2.2)
    · refine .inl ⟨.typeError, ⟨has, keyed⟩, ?_⟩
      cases evaluates : spanMeets (ε := ε) condition rule.type (rule.groupBy.getD []) matched span
          start with
      | error e => rw [spanMeets_error room evaluates, Stop.result]
      | ok b =>
        refine absurd (fun pair mem inside => ?_) keyed
        obtain ⟨reached, early⟩ := of_decide_eq_true inside
        exact (spanMeets_returns evaluates pair mem reached).2 early
  · refine .inl ⟨.overflow, fun has => room (room_iff.mp has), ?_⟩
    exact spanMeets_overflow (Option.not_isSome_iff_eq_none.mp room)
      (List.mem_of_find?_eq_some listed) _ _

/-! ## All windows -/

theorem scanStarts_stops {meets : DateTime → Except (Error ε) Bool} {stops : ℤ → Stop → Prop}
    {starts : List DateTime} (ascending : starts.Pairwise (·.utc < ·.utc))
    (each : ∀ start ∈ starts, (∃ stop, stops start.utc stop ∧ meets start = stop.result) ∨
      ((∀ stop, ¬ stops start.utc stop) ∧ meets start = .ok false)) :
    (∃ start ∈ starts, ∃ stop, stops start.utc stop ∧
      (∀ earlier ∈ starts, earlier.utc < start.utc → ∀ other, ¬ stops earlier.utc other) ∧
        scanStarts meets starts = stop.result) ∨
    ((∀ start ∈ starts, ∀ stop, ¬ stops start.utc stop) ∧
      scanStarts meets starts = .ok false) := by
  induction starts with
  | nil => exact .inr ⟨List.forall_mem_nil _, rfl⟩
  | cons start starts ih =>
    obtain ⟨before, later⟩ := List.pairwise_cons.mp ascending
    obtain ⟨here, others⟩ := List.forall_mem_cons.mp each
    rcases here with ⟨stop, stops_here, meets_here⟩ | ⟨passes, meets_here⟩
    · refine .inl ⟨start, List.mem_cons_self, stop, stops_here, ?_, ?_⟩
      · refine List.forall_mem_cons.mpr ⟨fun less => absurd less (lt_irrefl _), ?_⟩
        exact fun earlier mem less => absurd less (lt_asymm (before earlier mem))
      · rw [scanStarts, meets_here]
        cases stop <;> rfl
    · have skips : scanStarts meets (start :: starts) = scanStarts meets starts := by
        rw [scanStarts, meets_here]
        rfl
      rw [skips]
      rcases ih later others with ⟨first, mem, stop, stops_at, earliest, ends⟩ | ⟨none, ends⟩
      · refine .inl ⟨first, List.mem_cons_of_mem _ mem, stop, stops_at, ?_, ends⟩
        exact List.forall_mem_cons.mpr ⟨fun _ => passes, earliest⟩
      · exact .inr ⟨List.forall_mem_cons.mpr ⟨passes, none⟩, ends⟩

variable {seconds : ℤ}

theorem timedelta_isOk (fits : (timedelta (ε := ε) seconds).isOk) :
    timedelta (ε := ε) seconds = .ok (seconds * 1000000) := by
  cases small : timedelta (ε := ε) seconds with
  | error e =>
    rw [small] at fits
    cases fits
  | ok duration => rw [eq_of_timedelta small]

theorem timedelta_not_isOk (long : ¬ (timedelta (ε := ε) seconds).isOk) :
    timedelta (ε := ε) seconds = .error .overflowError := by
  unfold timedelta at long ⊢
  split at long
  · exact absurd rfl long
  · rename_i large
    exact if_neg large

theorem scanStarts_matched (uniform : ¬ Mixed (matched.map Prod.fst)) :
    ∃ starts, sortedMoments (ε := ε) (matched.map Prod.fst) = .ok starts ∧
      ((∃ pair ∈ matched, ∃ stop, StopsAt (ε := ε) rule condition span matched pair.1.utc stop ∧
        (∀ earlier ∈ matched, earlier.1.utc < pair.1.utc → ∀ other,
          ¬ StopsAt (ε := ε) rule condition span matched earlier.1.utc other) ∧
        scanStarts (spanMeets condition rule.type (rule.groupBy.getD []) matched span) starts =
          stop.result (ε := ε)) ∨
      ((∀ pair ∈ matched, ∀ stop, ¬ StopsAt (ε := ε) rule condition span matched pair.1.utc stop) ∧
        scanStarts (spanMeets (ε := ε) condition rule.type (rule.groupBy.getD []) matched span)
          starts = .ok false)) := by
  obtain ⟨starts, sorted, ordered⟩ := sortedMoments_of_not_mixed (ε := ε) uniform
  -- Every matched event has its moment among the starts.
  have at_start : ∀ pair ∈ matched, ∃ start ∈ starts, start.utc = pair.1.utc :=
    fun pair mem => ordered.covers pair.1 (List.mem_map_of_mem mem)
  refine ⟨starts, sorted, ?_⟩
  rcases scanStarts_stops ordered.ascending fun start mem =>
      @spanMeets_stops Rule ε rule condition span matched start (ordered.first start mem) with
    ⟨start, mem, stop, stops, earliest, ends⟩ | ⟨none, ends⟩
  · obtain ⟨pair, inside, rfl⟩ :=
      List.mem_map.mp (List.mem_of_find?_eq_some (ordered.first start mem))
    refine .inl ⟨pair, inside, stop, stops, fun earlier mem' less other => ?_, ends⟩
    obtain ⟨other_start, at_other, same⟩ := at_start earlier mem'
    rw [← same] at less ⊢
    exact earliest other_start at_other less other
  · refine .inr ⟨fun pair inside stop => ?_, ends⟩
    obtain ⟨start, mem, same⟩ := at_start pair inside
    rw [← same]
    exact none start mem stop

theorem searchMatched_ends :
    (∃ stop, Ends ε rule condition seconds matched stop ∧
      searchMatched rule condition matched seconds = stop.result (ε := ε)) ∨
    ((∀ stop, ¬ Ends ε rule condition seconds matched stop) ∧
      searchMatched (ε := ε) rule condition matched seconds = .ok false) := by
  by_cases none : matched = []
  · refine .inr ⟨fun stop ends => ?_, if_pos none⟩
    cases ends with
    | long some _ => exact some none
    | mixed _ mixed =>
      rw [none] at mixed
      simp [Mixed] at mixed
    | window _ _ mem _ _ =>
      rw [none] at mem
      cases mem
  rw [searchMatched, if_neg none]
  by_cases fits : (timedelta (ε := ε) seconds).isOk
  · rw [timedelta_isOk fits]
    by_cases mixed : Mixed (matched.map Prod.fst)
    · refine .inl ⟨.typeError, .mixed fits mixed, ?_⟩
      have sorts : sortedMoments (ε := ε) (matched.map Prod.fst) = .error .typeError :=
        if_pos mixed
      rw [sorts]
      rfl
    · obtain ⟨starts, sorted, ⟨pair, mem, stop, stops, earliest, ends⟩ | ⟨passes, ends⟩⟩ :=
        @scanStarts_matched Rule ε rule condition (seconds * 1000000) matched mixed
      · rw [sorted]
        exact .inl ⟨stop, .window fits mixed mem stops earliest, ends⟩
      · rw [sorted]
        refine .inr ⟨fun stop ended => ?_, ends⟩
        cases ended with
        | long _ long => exact long fits
        | mixed _ mixed' => exact mixed mixed'
        | window _ _ mem stops _ => exact passes _ mem _ stops
  · rw [timedelta_not_isOk fits]
    exact .inl ⟨.overflow, .long none fits, rfl⟩

theorem StopsAt.unique {moment : ℤ} {stop other : Stop}
    (stops : StopsAt (ε := ε) rule condition span matched moment stop)
    (stops' : StopsAt (ε := ε) rule condition span matched moment other) : stop = other := by
  cases stop with
  | overflow =>
    cases other with
    | overflow => rfl
    | typeError | found => exact absurd stops'.1 stops
  | typeError =>
    cases other with
    | overflow => exact absurd stops.1 stops'
    | typeError => rfl
    | found => exact absurd stops'.2.1 stops.2
  | found =>
    cases other with
    | overflow => exact absurd stops.1 stops'
    | typeError => exact absurd stops.2.1 stops'.2
    | found => rfl

theorem Ends.unique {stop other : Stop} (ends : Ends ε rule condition seconds matched stop)
    (ends' : Ends ε rule condition seconds matched other) : stop = other := by
  cases ends with
  | long _ long =>
    cases ends' with
    | long _ _ => rfl
    | mixed fits _ => exact absurd fits long
    | window fits _ _ _ _ => exact absurd fits long
  | mixed fits mixed =>
    cases ends' with
    | long _ long => exact absurd fits long
    | mixed _ _ => rfl
    | window _ uniform _ _ _ => exact absurd mixed uniform
  | @window pair _ fits uniform mem stops earliest =>
    cases ends' with
    | long _ long => exact absurd fits long
    | mixed _ mixed => exact absurd mixed uniform
    | @window pair' _ _ _ mem' stops' earliest' =>
      rcases lt_trichotomy pair.1.utc pair'.1.utc with before | same | after
      · exact absurd stops (earliest' pair mem before stop)
      · rw [← same] at stops'
        exact stops.unique stops'
      · exact absurd stops' (earliest pair' mem' after other)

theorem searchMatched_eq_result_iff {stop : Stop} :
    searchMatched rule condition matched seconds = stop.result (ε := ε) ↔
      Ends ε rule condition seconds matched stop := by
  rcases @searchMatched_ends Rule ε rule condition matched seconds with
    ⟨other, ends, evaluates⟩ | ⟨none, evaluates⟩
  · rw [evaluates]
    exact ⟨fun same => Stop.result_injective same ▸ ends, fun ends' => by rw [ends.unique ends']⟩
  · rw [evaluates]
    exact iff_of_false (Ne.symm stop.result_ne_false) (none stop)

theorem searchMatched_eq_iff {matched' : List (DateTime × Event)} :
    searchMatched (ε := ε) rule condition matched seconds =
        searchMatched rule condition matched' seconds ↔
      ∀ stop, Ends ε rule condition seconds matched stop ↔
        Ends ε rule condition seconds matched' stop := by
  constructor
  · intro same stop
    rw [← searchMatched_eq_result_iff, ← searchMatched_eq_result_iff, same]
  · intro alike
    rcases @searchMatched_ends Rule ε rule condition matched seconds with
      ⟨stop, ends, evaluates⟩ | ⟨none, evaluates⟩
    · rw [evaluates, searchMatched_eq_result_iff.mpr ((alike stop).mp ends)]
    · rcases @searchMatched_ends Rule ε rule condition matched' seconds with
        ⟨stop, ends, -⟩ | ⟨-, evaluates'⟩
      · exact absurd ((alike stop).mpr ends) (none stop)
      · rw [evaluates, evaluates']

end Ends

end OtDetection.Correlation
