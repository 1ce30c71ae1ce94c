import OtDetection.BenignCorpus
import Mathlib.Data.List.GetD
import Mathlib.Data.List.Nodup

/-! When two benign corpora share an event: when their clocks meet at the same template. -/

namespace OtDetection.BenignCorpus
open PyText FieldLookup IsoTime
open Correlation (DateTime wallEnd)
open JsonValues (assign lookup_assign)

/-! ## What varies -/

theorem lookup_apply {variation : Variation} {key : Text} (other : key ≠ codes variation.key)
    (event : Event) (draws : Draws) :
    (variation.apply event draws).1.lookup key = event.lookup key := by
  rw [Variation.apply]
  split_ifs
  · change (assign (codes variation.key) (variation.value event draws).1 event).lookup key = _
    rw [lookup_assign, if_neg other]
  · rfl

theorem lookup_foldlM {list : List Variation} {key : Text}
    (other : ∀ variation ∈ list, key ≠ codes variation.key) (event : Event) (draws : Draws) :
    (list.foldlM Variation.apply event draws).1.lookup key = event.lookup key := by
  induction list generalizing event draws with
  | nil => rfl
  | cons variation list ih =>
    obtain ⟨here, later⟩ := List.forall_mem_cons.mp other
    rw [List.foldlM_cons]
    exact (ih later _ _).trans (lookup_apply here event draws)

theorem foldlM_draws {P : Draws → Prop} {list : List Variation}
    (each : ∀ variation ∈ list, ∀ event draws, P draws → P (variation.value event draws).2)
    (event : Event) {draws : Draws} (start : P draws) :
    P (list.foldlM Variation.apply event draws).2 := by
  induction list generalizing event draws with
  | nil => exact start
  | cons variation list ih =>
    obtain ⟨here, later⟩ := List.forall_mem_cons.mp each
    have kept : P (variation.apply event draws).2 := by
      rw [Variation.apply]
      split_ifs
      · exact here event draws start
      · exact start
    rw [List.foldlM_cons]
    exact ih later _ kept

/-- The fields that no variation assigns and that tell the templates apart. -/
def fixedKeys : List Text :=
  ["product", "service", "direction", "function_code", "message_type", "opcua_service",
    "src_zone", "dst_zone", "asset", "event_type", "dst_port"].map codes

theorem variations_cases {P : List Variation → Prop}
    (modbus : ∀ request, P (modbusVariations request))
    (dnp3 : ∀ request, P (dnp3Variations request))
    (s7comm : ∀ request, P (s7commVariations request)) (opcua : P opcuaVariations)
    (iptables : P iptablesVariations) (safetyMonitor : P safetyMonitorVariations)
    (flow : P flowVariations) (snmp : P snmpVariations) (other : P []) (event : Event) :
    P (variations event) := by
  rw [variations]
  split_ifs
  · exact modbus _
  · exact dnp3 _
  · exact s7comm _
  · exact opcua
  · exact iptables
  · exact safetyMonitor
  · exact flow
  · exact snmp
  · exact other

theorem fixed_of_variations (event : Event) :
    ∀ variation ∈ variations event, codes variation.key ∉ fixedKeys := by
  have keys : ∀ key ∈ (variations event).map fun variation => codes variation.key,
      key ∉ fixedKeys := by
    refine variations_cases (P := fun list => ∀ key ∈ list.map fun variation => codes variation.key,
      key ∉ fixedKeys) ?_ ?_ ?_ ?_ ?_ ?_ ?_ ?_ ?_ event
    all_goals decide +kernel
  exact fun variation mem => keys _ (List.mem_map_of_mem mem)

def zeros : Draws := fun _ => 0

theorem zeros_moveHost (event : Event) : (moveHost event zeros).2 = zeros := by
  rw [moveHost]
  rcases event.lookup (codes "dst_ip") with _ | value
  · rfl
  · cases value <;> rfl

theorem zeros_of_variations (event : Event) : ∀ variation ∈ variations event,
    ∀ varied : Event, (variation.value varied zeros).2 = zeros := by
  refine variations_cases (P := fun list => ∀ variation ∈ list, ∀ varied : Event,
    (variation.value varied zeros).2 = zeros) ?_ ?_ ?_ ?_ ?_ ?_ ?_ ?_ ?_ event
  · intro request
    simp only [modbusVariations, List.forall_mem_cons]
    exact ⟨fun _ => rfl, fun _ => rfl, fun _ => rfl, fun _ => rfl, fun _ => rfl, fun _ => rfl,
      List.forall_mem_nil _⟩
  · intro request
    rw [dnp3Variations]
    split_ifs <;> simp only [List.forall_mem_cons]
    · exact ⟨fun _ => rfl, fun _ => rfl, fun _ => rfl, fun _ => rfl, List.forall_mem_nil _⟩
    · exact ⟨fun _ => rfl, fun _ => rfl, List.forall_mem_nil _⟩
  · intro request
    simp only [s7commVariations, List.forall_mem_cons]
    exact ⟨fun _ => rfl, fun _ => rfl, List.forall_mem_nil _⟩
  · simp only [opcuaVariations, List.forall_mem_cons]
    exact ⟨fun _ => rfl, fun _ => rfl, List.forall_mem_nil _⟩
  · simp only [iptablesVariations, List.forall_mem_cons]
    exact ⟨zeros_moveHost, fun _ => rfl, List.forall_mem_nil _⟩
  · simp only [safetyMonitorVariations, List.forall_mem_cons]
    exact ⟨fun _ => rfl, fun _ => rfl, List.forall_mem_nil _⟩
  · simp only [flowVariations, List.forall_mem_cons]
    exact ⟨fun _ => rfl, fun _ => rfl, fun _ => rfl, fun _ => rfl, List.forall_mem_nil _⟩
  · simp only [snmpVariations, List.forall_mem_cons]
    exact ⟨fun _ => rfl, fun _ => rfl, fun _ => rfl, List.forall_mem_nil _⟩
  · exact List.forall_mem_nil _

theorem vary_zeros (event : Event) : (vary event zeros).2 = zeros := by
  refine foldlM_draws (P := (· = zeros)) ?_ event rfl
  rintro variation mem varied draws rfl
  exact zeros_of_variations event variation mem varied

/-! ## Templates -/

def signature (event : Event) : List (Option (Option HashKey)) :=
  fixedKeys.map fun key => (event.lookup key).map hashKey

theorem nodup_signatures : (templates.map signature).Nodup := by
  decide +kernel

theorem length_templates : templates.length = 33 := by decide

theorem templateAt_congr {i j : ℕ} (same : i % 33 = j % 33) : templateAt i = templateAt j := by
  rw [templateAt, templateAt, length_templates, same]

theorem signature_vary (event : Event) (draws : Draws) :
    signature (vary event draws).1 = signature event := by
  refine List.map_congr_left fun key fixed => ?_
  rw [vary, lookup_foldlM]
  intro variation mem same
  exact fixed_of_variations event variation mem (same ▸ fixed)

theorem signature_templateAt_iff {i j : ℕ} :
    signature (templateAt i) = signature (templateAt j) ↔ i % 33 = j % 33 := by
  have at_index (i : ℕ) : ∃ inside : i % 33 < (templates.map signature).length,
      signature (templateAt i) = (templates.map signature)[i % 33] := by
    have inside : i % 33 < templates.length := by
      rw [length_templates]
      exact Nat.mod_lt i (by decide)
    have period : i % templates.length = i % 33 := by rw [length_templates]
    refine ⟨by rwa [List.length_map], ?_⟩
    rw [List.getElem_map, templateAt, period, List.getD_eq_getElem _ _ inside]
  obtain ⟨first, left⟩ := at_index i
  obtain ⟨second, right⟩ := at_index j
  rw [left, right]
  exact nodup_signatures.getElem_inj_iff

/-! ## Events -/

def eventAt (index : ℕ) (draws : Draws) (moment : DateTime) : Event :=
  assign (codes "timestamp") (.str (stamp moment)) (vary (templateAt index) draws).1

/-- Two dicts are equal; none of their values is a list or a dict. -/
def SameEvent (event other : Event) : Prop :=
  ∀ key, (event.lookup key).map hashKey = (other.lookup key).map hashKey

theorem signature_eventAt (index : ℕ) (draws : Draws) (moment : DateTime) :
    signature (eventAt index draws moment) = signature (templateAt index) := by
  have free : codes "timestamp" ∉ fixedKeys := by decide
  refine Eq.trans (List.map_congr_left fun key fixed => ?_) (signature_vary _ draws)
  have other : key ≠ codes "timestamp" := fun same => free (same ▸ fixed)
  rw [eventAt, lookup_assign, if_neg other]

theorem stamp_inj {moment other : DateTime} (utc : moment.offset = some 0)
    (other_utc : other.offset = some 0) (same : stamp moment = stamp other) : moment = other := by
  have read := fromisoformat_normalized utc
  rw [← stamp, same, stamp, fromisoformat_normalized other_utc] at read
  exact (Option.some.inj read).symm

theorem sameEvent_eventAt {i j : ℕ} {draws others : Draws} {moment other : DateTime}
    (utc : moment.offset = some 0) (other_utc : other.offset = some 0)
    (same : SameEvent (eventAt i draws moment) (eventAt j others other)) :
    i % 33 = j % 33 ∧ moment = other := by
  constructor
  · rw [← signature_templateAt_iff, ← signature_eventAt i draws moment,
      ← signature_eventAt j others other]
    exact List.map_congr_left fun key _ => same key
  · have stamps := same (codes "timestamp")
    rw [eventAt, eventAt, lookup_assign, lookup_assign, if_pos rfl, if_pos rfl] at stamps
    simp only [Option.map_some, hashKey, Option.some.injEq, HashKey.str.injEq] at stamps
    exact stamp_inj utc other_utc stamps

/-! ## The clock -/

def stepsLeft : ℕ := 8387835840

theorem days_newYear : ymdToOrd 2026 1 1 - 1 = 739616 := by
  have before : daysBeforeMonth (isLeap 2026) 1 = 0 := rfl
  rw [ymdToOrd, daysBeforeYear, before]

theorem newYear_eq : newYear = 739616 * 86400000000 := by
  unfold newYear
  rw [days_newYear]

theorem momentOf_eq_some {seed index : ℕ} {moment : DateTime}
    (made : momentOf seed index = some moment) : moment.offset = some 0 ∧
      moment.wall = newYear + (seed % 10000 + index) * 30000000 := by
  rw [momentOf, ofWall] at made
  split_ifs at made
  obtain rfl := Option.some.inj made
  refine ⟨rfl, ?_⟩
  simp only [stepSeconds]
  push_cast
  ring

theorem momentOf_congr {s i t j : ℕ} (clocks : s % 10000 + i = t % 10000 + j) :
    momentOf s i = momentOf t j := by
  have seconds : s % 10000 * stepSeconds + stepSeconds * i =
      t % 10000 * stepSeconds + stepSeconds * j := by
    rw [Nat.mul_comm stepSeconds, Nat.mul_comm stepSeconds, ← Nat.add_mul, clocks, Nat.add_mul]
  rw [momentOf, momentOf, seconds]

theorem momentOf_isSome_iff {seed index : ℕ} :
    (momentOf seed index).isSome ↔ seed % 10000 + index < stepsLeft := by
  rw [momentOf, ofWall]
  split_ifs with range
  · refine iff_of_true rfl ?_
    unfold wallEnd at range
    rw [newYear_eq, stepSeconds] at range
    rw [stepsLeft]
    omega
  · refine iff_of_false Bool.false_ne_true ?_
    unfold wallEnd at range
    rw [newYear_eq, stepSeconds] at range
    rw [stepsLeft]
    omega

/-! ## The loop -/

theorem buildFrom_succ {seed index count : ℕ} {draws : Draws} {events : List Event} :
    buildFrom seed index (count + 1) draws = some events ↔
      ∃ moment, momentOf seed index = some moment ∧ ∃ rest,
        buildFrom seed (index + 1) count (vary (templateAt index) draws).2 = some rest ∧
          eventAt index draws moment :: rest = events := by
  change ((momentOf seed index).bind fun moment =>
    (buildFrom seed (index + 1) count (vary (templateAt index) draws).2).bind fun rest =>
      some (eventAt index draws moment :: rest)) = some events ↔ _
  simp only [Option.bind_eq_some_iff, Option.some.injEq]

theorem buildFrom_returns_iff {seed index count : ℕ} {draws : Draws} :
    (∃ events, buildFrom seed index count draws = some events) ↔
      ∀ k < count, (momentOf seed (index + k)).isSome := by
  induction count generalizing index draws with
  | zero => exact iff_of_true ⟨[], rfl⟩ fun k none => absurd none (Nat.not_lt_zero k)
  | succ count ih =>
    simp only [buildFrom_succ]
    constructor
    · rintro ⟨events, moment, here, rest, later, -⟩ k inside
      cases k with
      | zero => rw [Nat.add_zero, here, Option.isSome_some]
      | succ k =>
        have := ih.mp ⟨rest, later⟩ k (Nat.lt_of_succ_lt_succ inside)
        rwa [Nat.add_right_comm] at this
    · intro each
      obtain ⟨moment, here⟩ := Option.isSome_iff_exists.mp (each 0 (Nat.succ_pos count))
      have rest_in_time : ∀ k < count, (momentOf seed (index + 1 + k)).isSome := by
        intro k inside
        have := each (k + 1) (Nat.succ_lt_succ inside)
        rwa [← Nat.add_assoc, Nat.add_right_comm] at this
      obtain ⟨rest, later⟩ := ih.mpr rest_in_time
      exact ⟨_, moment, here, rest, later, rfl⟩

theorem mem_buildFrom {seed index count : ℕ} {draws : Draws} {events : List Event}
    (built : buildFrom seed index count draws = some events) {event : Event}
    (mem : event ∈ events) : ∃ k < count, ∃ others moment,
      momentOf seed (index + k) = some moment ∧ event = eventAt (index + k) others moment := by
  induction count generalizing index draws events with
  | zero =>
    rw [← Option.some.inj built] at mem
    exact absurd mem List.not_mem_nil
  | succ count ih =>
    obtain ⟨moment, here, rest, later, rfl⟩ := buildFrom_succ.mp built
    rcases List.mem_cons.mp mem with rfl | mem
    · exact ⟨0, Nat.succ_pos count, draws, moment, here, rfl⟩
    · obtain ⟨k, inside, others, moment, value, same⟩ := ih later mem
      rw [Nat.add_right_comm] at value same
      exact ⟨k + 1, Nat.succ_lt_succ inside, others, moment, value, same⟩

theorem eventAt_mem_buildFrom {P : Draws → Prop}
    (kept : ∀ event draws, P draws → P (vary event draws).2) {seed index count : ℕ}
    {draws : Draws} (start : P draws) {events : List Event}
    (built : buildFrom seed index count draws = some events) {k : ℕ} (inside : k < count) :
    ∃ others moment, P others ∧ momentOf seed (index + k) = some moment ∧
      eventAt (index + k) others moment ∈ events := by
  induction count generalizing index draws events k with
  | zero => exact absurd inside (Nat.not_lt_zero k)
  | succ count ih =>
    obtain ⟨moment, here, rest, later, rfl⟩ := buildFrom_succ.mp built
    cases k with
    | zero => exact ⟨draws, moment, start, here, List.mem_cons_self⟩
    | succ k =>
      obtain ⟨others, moment, holds, value, mem⟩ :=
        ih (kept _ _ start) later (Nat.lt_of_succ_lt_succ inside)
      rw [Nat.add_right_comm] at value mem
      exact ⟨others, moment, holds, value, List.mem_cons_of_mem _ mem⟩

/-! ## Two corpora -/

/-- An event of the one corpus equals an event of the other. -/
def Share (random : ℕ → Draws) (m s n t : ℕ) : Prop :=
  ∃ events others, build random m s = some events ∧ build random n t = some others ∧
    ∃ event ∈ events, ∃ other ∈ others, SameEvent event other

/-- The clocks of two corpora, which are not empty and end in time, meet at the same template. -/
structure Meet (m s n t : ℕ) : Prop where
  period : s % 10000 % 33 = t % 10000 % 33
  overlap : s % 10000 < t % 10000 + n ∧ t % 10000 < s % 10000 + m
  nonempty : 0 < m ∧ 0 < n
  inTime : s % 10000 + m ≤ stepsLeft ∧ t % 10000 + n ≤ stepsLeft

theorem build_returns_iff {random : ℕ → Draws} {count seed : ℕ} :
    (∃ events, build random count seed = some events) ↔
      count = 0 ∨ seed % 10000 + count ≤ stepsLeft := by
  simp only [build, buildFrom_returns_iff, Nat.zero_add, momentOf_isSome_iff]
  constructor
  · intro each
    rcases Nat.eq_zero_or_pos count with none | some
    · exact .inl none
    · have := each (count - 1) (by omega)
      exact .inr (by omega)
  · rintro (rfl | last) k inside
    · exact absurd inside (Nat.not_lt_zero k)
    · omega

theorem meet_of_share {random : ℕ → Draws} {m s n t : ℕ} (share : Share random m s n t) :
    Meet m s n t := by
  obtain ⟨events, others, built, other_built, event, mem, other, other_mem, same⟩ := share
  obtain ⟨i, first, draws, moment, made, rfl⟩ := mem_buildFrom built mem
  obtain ⟨j, second, other_draws, other_moment, other_made, rfl⟩ :=
    mem_buildFrom other_built other_mem
  rw [Nat.zero_add] at made same
  rw [Nat.zero_add] at other_made same
  obtain ⟨utc, wall⟩ := momentOf_eq_some made
  obtain ⟨other_utc, other_wall⟩ := momentOf_eq_some other_made
  obtain ⟨template, rfl⟩ := sameEvent_eventAt utc other_utc same
  have clocks : s % 10000 + i = t % 10000 + j := by omega
  have fits := build_returns_iff.mp ⟨_, built⟩
  have other_fits := build_returns_iff.mp ⟨_, other_built⟩
  exact ⟨by omega, by omega, by omega, by omega⟩

theorem share_of_meet {m s n t : ℕ} (meet : Meet m s n t) : Share (fun _ => zeros) m s n t := by
  obtain ⟨period, overlap, nonempty, inTime⟩ := meet
  obtain ⟨events, built⟩ : ∃ events, build (fun _ => zeros) m s = some events :=
    build_returns_iff.mpr (.inr inTime.1)
  obtain ⟨others, other_built⟩ : ∃ others, build (fun _ => zeros) n t = some others :=
    build_returns_iff.mpr (.inr inTime.2)
  have kept : ∀ event draws, draws = zeros → (vary event draws).2 = zeros := by
    rintro event draws rfl
    exact vary_zeros event
  have first : t % 10000 - s % 10000 < m := by omega
  have second : s % 10000 - t % 10000 < n := by omega
  have run : buildFrom s 0 m zeros = some events := built
  have other_run : buildFrom t 0 n zeros = some others := other_built
  obtain ⟨_, moment, rfl, made, mem⟩ := eventAt_mem_buildFrom kept rfl run first
  obtain ⟨_, other, rfl, other_made, other_mem⟩ := eventAt_mem_buildFrom kept rfl other_run second
  rw [Nat.zero_add] at made mem other_made other_mem
  have moments : momentOf s (t % 10000 - s % 10000) = momentOf t (s % 10000 - t % 10000) :=
    momentOf_congr (by omega)
  have template : templateAt (t % 10000 - s % 10000) = templateAt (s % 10000 - t % 10000) :=
    templateAt_congr (by omega)
  obtain rfl := Option.some.inj (made.symm.trans (moments.trans other_made))
  refine ⟨events, others, built, other_built, _, mem, _, other_mem, fun key => ?_⟩
  rw [eventAt, eventAt, template]

/-- No generator gives two corpora an event in common exactly when their clocks do not meet at the
same template. -/
theorem corpora_apart_iff (m s n t : ℕ) :
    (∀ random, ¬ Share random m s n t) ↔ ¬ Meet m s n t :=
  ⟨fun apart meet => apart _ (share_of_meet meet), fun apart _ share => apart (meet_of_share share)⟩

/-- Seeds that differ by 10000 share the event of a template that has nothing to vary, whatever the
generators give. -/
theorem seeds_share : ¬ ∃ random, ¬ Share random 14 0 14 10000 := by
  rintro ⟨random, apart⟩
  apply apart
  have template (draws : Draws) : (vary (templateAt 13) draws).1 = templateAt 13 := rfl
  obtain ⟨events, built⟩ : ∃ events, build random 14 0 = some events :=
    build_returns_iff.mpr (.inr (by decide))
  obtain ⟨others, other_built⟩ : ∃ others, build random 14 10000 = some others :=
    build_returns_iff.mpr (.inr (by decide))
  have last : 13 < 14 := by decide
  obtain ⟨draws, moment, -, made, mem⟩ :=
    eventAt_mem_buildFrom (P := fun _ => True) (fun _ _ _ => trivial) trivial built last
  obtain ⟨other_draws, other, -, other_made, other_mem⟩ :=
    eventAt_mem_buildFrom (P := fun _ => True) (fun _ _ _ => trivial) trivial other_built last
  have moments : momentOf 0 (0 + 13) = momentOf 10000 (0 + 13) := momentOf_congr (by decide)
  obtain rfl := Option.some.inj (made.symm.trans (moments.trans other_made))
  refine ⟨events, others, built, other_built, _, mem, _, other_mem, fun key => ?_⟩
  rw [Nat.zero_add, eventAt, eventAt, template, template]

end OtDetection.BenignCorpus
