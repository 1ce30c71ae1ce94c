import OtDetection.EvaluatorErrors
import Mathlib.Data.Finset.Insert

/-! The report on the use of the conduits beside the rule on undeclared paths. Both go by the
zones that a flow crosses; the report takes a zone without a name for none. -/

namespace OtDetection.ConduitPolicy
open PyText FieldLookup PyNumber ExceptSteps
open EvaluatorErrors (ValidPolicy zoneFor_returns matchConduit_silent)

section Report

variable (unicode : Unicode) (policy : Policy)

def observe (observed : Finset (Text × Text)) (source dest : Option Text) :
    Finset (Text × Text) :=
  match source, dest with
  | some source, some dest =>
    if source ≠ [] ∧ dest ≠ [] ∧ source ≠ dest then insert (source, dest) observed else observed
  | _, _ => observed

def observeEvent (observed : Finset (Text × Text)) (event : Event) :
    Except Error (Finset (Text × Text)) := do
  let source ← zoneFor unicode (eventGet event "src_ip") policy
  let dest ← zoneFor unicode (eventGet event "dst_ip") policy
  return observe observed source dest

def observedConduits (events : List Event) : Except Error (Finset (Text × Text)) :=
  events.foldlM (observeEvent unicode policy) ∅

def Conduit.pair (conduit : Conduit) : Text × Text := (conduit.fromZone, conduit.toZone)

def Conduit.names (conduit : Conduit) : List Text := [conduit.fromZone, conduit.toZone]

def unusedConduits (events : List Event) : Except Error (List (List Text)) := do
  let observed ← observedConduits unicode policy events
  return (policy.conduits.filter (·.pair ∉ observed)).map Conduit.names

end Report

/-! ## Flows between zones -/

structure Crosses (unicode : Unicode) (policy : Policy) (event : Event) (pair : Text × Text) :
    Prop where
  source : zoneFor unicode (eventGet event "src_ip") policy = .ok (some pair.1)
  dest : zoneFor unicode (eventGet event "dst_ip") policy = .ok (some pair.2)
  apart : pair.1 ≠ pair.2

def NamedZones (policy : Policy) : Prop := ∀ zone ∈ policy.zones, zone.name ≠ []

/-- What the reports and the rule on undeclared paths are to say of a list of events. -/
structure Consistent (unicode : Unicode) (title : PyValue) (policy : Policy) (events : List Event)
    (observed : Finset (Text × Text)) (unused : List (List Text)) : Prop where
  observed_iff : ∀ pair, pair ∈ observed ↔ ∃ event ∈ events, Crosses unicode policy event pair
  fires_iff : (∃ event ∈ events,
      matchConduit unicode ⟨title, some .undeclaredPath⟩ event policy = .ok true) ↔
    ∃ pair ∈ observed, declared policy pair.1 pair.2 = []
  unused_eq : unused = (policy.conduits.filter (·.pair ∉ observed)).map Conduit.names
  witnessed : ∀ conduit ∈ policy.conduits, conduit.names ∈ unused ∨
    ∃ event ∈ events, Crosses unicode policy event conduit.pair ∧
      matchConduit unicode ⟨title, some .undeclaredPath⟩ event policy = .ok false

variable {unicode : Unicode} {policy : Policy}

theorem mem_declared (source dest : Text) (conduit : Conduit) :
    conduit ∈ declared policy source dest ↔ conduit ∈ policy.conduits ∧
      conduit.pair = (source, dest) := by
  rw [declared, List.mem_filter, declares, decide_eq_true_iff, Conduit.pair, Prod.mk.injEq]

theorem name_of_findZone {zones : List Zone} {address : IpAddress.Address} {name : Text}
    (found : findZone address zones = .ok (some name)) : ∃ zone ∈ zones, zone.name = name := by
  induction zones with
  | nil => cases found
  | cons zone zones ih =>
    rw [findZone] at found
    split at found
    · cases found
    · split at found
      · exact ⟨zone, List.mem_cons_self, Option.some.inj (Except.ok.inj found)⟩
      · obtain ⟨later, mem, same⟩ := ih found
        exact ⟨later, List.mem_cons_of_mem zone mem, same⟩

theorem zoneFor_ne_nil (named : NamedZones policy) {address : PyValue} {name : Text}
    (found : zoneFor unicode address policy = .ok (some name)) : name ≠ [] := by
  rw [zoneFor] at found
  split at found
  · cases found
  · split at found
    · cases found
    · obtain ⟨zone, mem, rfl⟩ := name_of_findZone found
      exact named zone mem

theorem matchConduit_undeclaredPath (valid : ValidPolicy policy) (title : PyValue)
    (event : Event) :
    (∃ pair, Crosses unicode policy event pair ∧
      matchConduit unicode ⟨title, some .undeclaredPath⟩ event policy =
        .ok (decide (declared policy pair.1 pair.2 = []))) ∨
    ((∀ pair, ¬ Crosses unicode policy event pair) ∧
      matchConduit unicode ⟨title, some .undeclaredPath⟩ event policy = .ok false) := by
  obtain ⟨source, from_zone⟩ := zoneFor_returns unicode valid (eventGet event "src_ip")
  obtain ⟨dest, to_zone⟩ := zoneFor_returns unicode valid (eventGet event "dst_ip")
  by_cases apart : ∀ s ∈ source, ∀ d ∈ dest, s = d
  · refine .inr ⟨fun pair crosses => ?_, matchConduit_silent from_zone to_zone _ title apart⟩
    have first := Except.ok.inj (from_zone.symm.trans crosses.source)
    have second := Except.ok.inj (to_zone.symm.trans crosses.dest)
    exact crosses.apart (apart _ first _ second)
  · push Not at apart
    obtain ⟨s, rfl, d, rfl, differ⟩ := apart
    refine .inl ⟨(s, d), ⟨from_zone, to_zone, differ⟩, ?_⟩
    rw [matchConduit_between from_zone to_zone differ, judge]
    cases declared policy s d <;> rfl

theorem observeEvent_ok (valid : ValidPolicy policy) (named : NamedZones policy)
    (observed : Finset (Text × Text)) (event : Event) :
    ∃ next, observeEvent unicode policy observed event = .ok next ∧
      ∀ pair, pair ∈ next ↔ pair ∈ observed ∨ Crosses unicode policy event pair := by
  obtain ⟨source, from_zone⟩ := zoneFor_returns unicode valid (eventGet event "src_ip")
  obtain ⟨dest, to_zone⟩ := zoneFor_returns unicode valid (eventGet event "dst_ip")
  have crosses_iff : ∀ pair, Crosses unicode policy event pair ↔
      source = some pair.1 ∧ dest = some pair.2 ∧ pair.1 ≠ pair.2 := by
    intro pair
    constructor
    · intro crosses
      exact ⟨Except.ok.inj (from_zone.symm.trans crosses.source),
        Except.ok.inj (to_zone.symm.trans crosses.dest), crosses.apart⟩
    · rintro ⟨rfl, rfl, apart⟩
      exact ⟨from_zone, to_zone, apart⟩
  refine ⟨observe observed source dest, ?_, fun pair => ?_⟩
  · rw [observeEvent, from_zone, to_zone]
    rfl
  · rw [crosses_iff]
    cases source with
    | none => simp [observe]
    | some source =>
      cases dest with
      | none => simp [observe]
      | some dest =>
        have some_source := zoneFor_ne_nil named from_zone
        have some_dest := zoneFor_ne_nil named to_zone
        rw [observe]
        by_cases apart : source ≠ dest
        · rw [if_pos ⟨some_source, some_dest, apart⟩, Finset.mem_insert, Prod.ext_iff]
          grind
        · rw [if_neg fun all => apart all.2.2]
          grind

theorem foldlM_observeEvent (valid : ValidPolicy policy) (named : NamedZones policy)
    (events : List Event) (start : Finset (Text × Text)) :
    ∃ observed, events.foldlM (observeEvent unicode policy) start = .ok observed ∧
      ∀ pair, pair ∈ observed ↔
        pair ∈ start ∨ ∃ event ∈ events, Crosses unicode policy event pair := by
  induction events generalizing start with
  | nil => exact ⟨start, rfl, fun pair => by simp⟩
  | cons event events ih =>
    obtain ⟨middle, step, first⟩ := observeEvent_ok valid named start event
    obtain ⟨observed, run, rest⟩ := ih middle
    refine ⟨observed, foldlM_cons_eq_ok_iff.mpr ⟨middle, step, run⟩, fun pair => ?_⟩
    rw [rest, first, or_assoc]
    simp only [List.mem_cons, exists_eq_or_imp]

theorem consistent (valid : ValidPolicy policy) (title : PyValue) {events : List Event}
    {observed : Finset (Text × Text)}
    (seen : ∀ pair, pair ∈ observed ↔ ∃ event ∈ events, Crosses unicode policy event pair) :
    Consistent unicode title policy events observed
      ((policy.conduits.filter (·.pair ∉ observed)).map Conduit.names) where
  observed_iff := seen
  fires_iff := by
    constructor
    · rintro ⟨event, mem, fires⟩
      rcases matchConduit_undeclaredPath valid title event with ⟨pair, crosses, result⟩ |
        ⟨-, result⟩
      · rw [fires, Except.ok.injEq, eq_comm, decide_eq_true_iff] at result
        exact ⟨pair, (seen pair).mpr ⟨event, mem, crosses⟩, result⟩
      · rw [fires] at result
        cases result
    · rintro ⟨pair, inside, undeclared⟩
      obtain ⟨event, mem, crosses⟩ := (seen pair).mp inside
      refine ⟨event, mem, ?_⟩
      rw [matchConduit_between crosses.source crosses.dest crosses.apart, undeclared]
      rfl
  unused_eq := rfl
  witnessed := by
    intro conduit mem
    by_cases used : conduit.pair ∈ observed
    · obtain ⟨event, inside, crosses⟩ := (seen conduit.pair).mp used
      refine .inr ⟨event, inside, crosses, ?_⟩
      have known : conduit ∈ declared policy conduit.pair.1 conduit.pair.2 :=
        (mem_declared _ _ _).mpr ⟨mem, rfl⟩
      rw [matchConduit_between crosses.source crosses.dest crosses.apart, judge,
        List.head?_eq_some_head (List.ne_nil_of_mem known)]
      rfl
    · exact .inl (List.mem_map_of_mem (List.mem_filter.mpr ⟨mem, decide_eq_true used⟩))

theorem unusedConduits_ok {events : List Event} {observed : Finset (Text × Text)}
    (run : observedConduits unicode policy events = .ok observed) :
    unusedConduits unicode policy events =
      .ok ((policy.conduits.filter (·.pair ∉ observed)).map Conduit.names) := by
  rw [unusedConduits, run]
  rfl

/-- The reports are consistent with the rule, and more events observe more and leave less
unused. -/
theorem conduits_consistent (unicode : Unicode) (valid : ValidPolicy policy)
    (named : NamedZones policy) (title : PyValue) {events more : List Event}
    (added : ∀ event ∈ events, event ∈ more) :
    ∃ observed unused observedMore unusedMore,
      observedConduits unicode policy events = .ok observed ∧
      unusedConduits unicode policy events = .ok unused ∧
      observedConduits unicode policy more = .ok observedMore ∧
      unusedConduits unicode policy more = .ok unusedMore ∧
      Consistent unicode title policy events observed unused ∧
      observed ⊆ observedMore ∧ unusedMore.Sublist unused := by
  obtain ⟨observed, run, seen⟩ := @foldlM_observeEvent unicode policy valid named events ∅
  obtain ⟨observedMore, runMore, seenMore⟩ := @foldlM_observeEvent unicode policy valid named more ∅
  simp only [Finset.notMem_empty, false_or] at seen seenMore
  have grows : observed ⊆ observedMore := by
    intro pair inside
    obtain ⟨event, mem, crosses⟩ := (seen pair).mp inside
    exact (seenMore pair).mpr ⟨event, added event mem, crosses⟩
  have shrinks : (policy.conduits.filter (·.pair ∉ observedMore)).Sublist
      (policy.conduits.filter (·.pair ∉ observed)) := by
    apply List.monotone_filter_right
    intro conduit unused
    rw [decide_eq_true_iff] at unused ⊢
    exact fun inside => unused (grows inside)
  exact ⟨observed, _, observedMore, _, run, unusedConduits_ok run, runMore,
    unusedConduits_ok runMore, consistent valid title seen, grows, shrinks.map Conduit.names⟩

/-- A flow over a conduit of the plant, and an event without addresses after it. -/
theorem conduits_consistent_plant : ∃ observed unused observedMore unusedMore,
    observedConduits noTables plant [flow 502] = .ok observed ∧
    unusedConduits noTables plant [flow 502] = .ok unused ∧
    observedConduits noTables plant [flow 502, []] = .ok observedMore ∧
    unusedConduits noTables plant [flow 502, []] = .ok unusedMore ∧
    Consistent noTables .none plant [flow 502] observed unused ∧
    observed ⊆ observedMore ∧ unusedMore.Sublist unused :=
  conduits_consistent noTables (by unfold ValidPolicy; decide +kernel)
    (by unfold NamedZones; decide) .none (by simp)

end OtDetection.ConduitPolicy
