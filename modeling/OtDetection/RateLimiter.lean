import OtDetection.SlidingLimit
import Mathlib.Algebra.Order.Group.Int
import Mathlib.Logic.Function.Basic
import Mathlib.Tactic.Common

/-! The rate limiter of the ingest service. It keeps a queue of admission times for each
client and drops the expired ones from the left when the client calls; as long as
the clock does not go back its answers are those of the log. -/

namespace OtDetection
open SlidingLimit

/-- A client without an entry has an empty queue. -/
structure RateLimiter (κ τ : Type*) where
  limit : ℤ
  windowSeconds : τ
  hits : κ → List τ

namespace RateLimiter

variable {κ τ : Type*} [DecidableEq κ]

def fresh (limit : ℤ) (windowSeconds : τ) : RateLimiter κ τ := ⟨limit, windowSeconds, fun _ => []⟩

def setHits (limiter : RateLimiter κ τ) (key : κ) (hits : List τ) : RateLimiter κ τ :=
  { limiter with hits := Function.update limiter.hits key hits }

@[simp] theorem hits_setHits_self (limiter : RateLimiter κ τ) (key : κ) (hits : List τ) :
    (limiter.setHits key hits).hits key = hits := Function.update_self ..

@[simp] theorem hits_setHits_of_ne (limiter : RateLimiter κ τ) {key other : κ} (h : other ≠ key)
    (hits : List τ) : (limiter.setHits key hits).hits other = limiter.hits other :=
  Function.update_of_ne h ..

variable [AddCommGroup τ] [LinearOrder τ]

def evict (windowSeconds now : τ) : List τ → List τ
  | [] => []
  | hit :: hits => if windowSeconds ≤ now - hit then evict windowSeconds now hits else hit :: hits

def allow (limiter : RateLimiter κ τ) (key : κ) (now : τ) : Bool × RateLimiter κ τ :=
  let hits := evict limiter.windowSeconds now (limiter.hits key)
  if limiter.limit ≤ hits.length then (false, limiter.setHits key hits)
  else (true, limiter.setHits key (hits ++ [now]))

theorem allow_cases (limiter : RateLimiter κ τ) (key : κ) (now : τ) :
    (limiter.limit ≤ (evict limiter.windowSeconds now (limiter.hits key)).length ∧
      limiter.allow key now =
        (false, limiter.setHits key (evict limiter.windowSeconds now (limiter.hits key)))) ∨
    ((evict limiter.windowSeconds now (limiter.hits key)).length < limiter.limit ∧
      limiter.allow key now =
        (true, limiter.setHits key (evict limiter.windowSeconds now (limiter.hits key) ++ [now]))) := by
  by_cases full : limiter.limit ≤ (evict limiter.windowSeconds now (limiter.hits key)).length
  · exact .inl ⟨full, if_pos full⟩
  · exact .inr ⟨not_le.mp full, if_neg full⟩

theorem evict_split (windowSeconds now : τ) (hits : List τ) :
    ∃ dropped, hits = dropped ++ evict windowSeconds now hits ∧
      ∀ hit ∈ dropped, windowSeconds ≤ now - hit := by
  induction hits with
  | nil => exact ⟨[], rfl, by simp⟩
  | cons hit hits ih =>
    rw [evict]
    by_cases expired : windowSeconds ≤ now - hit
    · obtain ⟨dropped, split, old⟩ := ih
      rw [if_pos expired]
      exact ⟨hit :: dropped, congrArg (hit :: ·) split, List.forall_mem_cons.mpr ⟨expired, old⟩⟩
    · rw [if_neg expired]
      exact ⟨[], rfl, by simp⟩

theorem limit_allow (limiter : RateLimiter κ τ) (key : κ) (now : τ) :
    (limiter.allow key now).2.limit = limiter.limit := by
  rw [allow]
  split <;> rfl

theorem windowSeconds_allow (limiter : RateLimiter κ τ) (key : κ) (now : τ) :
    (limiter.allow key now).2.windowSeconds = limiter.windowSeconds := by
  rw [allow]
  split <;> rfl

def answered (limiter : RateLimiter κ τ) : List (κ × τ) → List (Entry κ τ)
  | [] => []
  | call :: calls =>
    ⟨call.1, call.2, (limiter.allow call.1 call.2).1⟩ ::
      (limiter.allow call.1 call.2).2.answered calls

/-! ## The queues and the log -/

def live (windowSeconds : τ) (log : List (Entry κ τ)) (key : κ) (now : τ) : List τ :=
  (log.filter fun e => e.key = key ∧ e.admitted ∧ now - e.time < windowSeconds).map (·.time)

theorem length_live (windowSeconds : τ) (log : List (Entry κ τ)) (key : κ) (now : τ) :
    (live windowSeconds log key now).length = recent windowSeconds log key now := by
  rw [live, List.length_map, recent, List.countP_eq_length_filter]

theorem live_sorted (windowSeconds : τ) {log : List (Entry κ τ)} (key : κ) (now : τ)
    (sorted : log.Pairwise (·.time ≤ ·.time)) :
    (live windowSeconds log key now).Pairwise (· ≤ ·) :=
  List.pairwise_map.mpr (sorted.sublist List.filter_sublist)

theorem live_append_other (windowSeconds : τ) (log : List (Entry κ τ)) {e : Entry κ τ} {key : κ}
    (other : ¬ (e.key = key ∧ e.admitted)) (now : τ) :
    live windowSeconds (log ++ [e]) key now = live windowSeconds log key now := by
  have skipped : [e].filter (fun e => e.key = key ∧ e.admitted ∧ now - e.time < windowSeconds) =
      [] := List.filter_cons_of_neg fun kept => other (by
    obtain ⟨same, admitted, -⟩ := of_decide_eq_true kept
    exact ⟨same, admitted⟩)
  rw [live, List.filter_append, skipped, List.append_nil, live]

variable [IsOrderedAddMonoid τ] {limiter : RateLimiter κ τ} {log : List (Entry κ τ)}

theorem evict_eq_filter (windowSeconds now : τ) {hits : List τ} (sorted : hits.Pairwise (· ≤ ·)) :
    evict windowSeconds now hits = hits.filter fun hit => now - hit < windowSeconds := by
  induction hits with
  | nil => rfl
  | cons hit hits ih =>
    obtain ⟨first, rest⟩ := List.pairwise_cons.mp sorted
    rw [evict]
    by_cases expired : windowSeconds ≤ now - hit
    · rw [if_pos expired, ih rest]
      simp [expired]
    · have all : ∀ later ∈ hit :: hits, decide (now - later < windowSeconds) = true := by
        intro later mem
        have after : hit ≤ later := by
          rcases List.mem_cons.mp mem with rfl | inside
          · exact le_rfl
          · exact first later inside
        exact decide_eq_true ((sub_le_sub_left after now).trans_lt (not_le.mp expired))
      rw [if_neg expired, List.filter_eq_self.mpr all]

theorem evict_live (windowSeconds : τ) {key : κ} {now later : τ} (le : now ≤ later)
    (sorted : log.Pairwise (·.time ≤ ·.time)) :
    evict windowSeconds later (live windowSeconds log key now) =
      live windowSeconds log key later := by
  rw [evict_eq_filter _ _ (live_sorted windowSeconds key now sorted), live, live, List.filter_map,
    List.filter_filter]
  congr 1
  refine List.filter_congr fun e _ => ?_
  have younger : later - e.time < windowSeconds → now - e.time < windowSeconds :=
    fun young => (sub_le_sub_right le e.time).trans_lt young
  rw [Function.comp_apply, ← Bool.decide_and, decide_eq_decide]
  tauto

/-- Whenever the clock is past the log, eviction leaves of every queue what is live. -/
def Tracks (limiter : RateLimiter κ τ) (log : List (Entry κ τ)) : Prop :=
  ∀ key now, (∀ e ∈ log, e.time ≤ now) →
    evict limiter.windowSeconds now (limiter.hits key) = live limiter.windowSeconds log key now

theorem evict_live_append (windowSeconds : τ) {key : κ} {now later : τ} (le : now ≤ later)
    (sorted : log.Pairwise (·.time ≤ ·.time)) (past : ∀ e ∈ log, e.time ≤ now) :
    evict windowSeconds later (live windowSeconds log key now ++ [now]) =
      live windowSeconds (log ++ [⟨key, now, true⟩]) key later := by
  have times : (live windowSeconds log key now ++ [now]).Pairwise (· ≤ ·) := by
    refine List.pairwise_append.mpr ⟨live_sorted windowSeconds key now sorted,
      List.pairwise_singleton _ _, fun hit mem last at_last => ?_⟩
    obtain ⟨e, kept, rfl⟩ := List.mem_map.mp mem
    rw [List.mem_singleton.mp at_last]
    exact past e (List.mem_filter.mp kept).1
  have old : evict windowSeconds later (live windowSeconds log key now) =
      live windowSeconds log key later := evict_live windowSeconds le sorted
  rw [evict_eq_filter _ _ (live_sorted windowSeconds key now sorted)] at old
  rw [evict_eq_filter _ _ times, List.filter_append, old, live, live, List.filter_append,
    List.map_append]
  congr 1
  by_cases young : later - now < windowSeconds
  · simp [young]
  · simp [young]

theorem Tracks.allow (tracks : Tracks limiter log) (sorted : log.Pairwise (·.time ≤ ·.time))
    {key : κ} {now : τ} (past : ∀ e ∈ log, e.time ≤ now) :
    (limiter.allow key now).1 = decide (recent limiter.windowSeconds log key now < limiter.limit) ∧
      Tracks (limiter.allow key now).2
        (record limiter.limit limiter.windowSeconds log (key, now)) := by
  have queue := tracks key now past
  have full : limiter.limit ≤ (live limiter.windowSeconds log key now).length ↔
      ¬ (recent limiter.windowSeconds log key now : ℤ) < limiter.limit := by
    rw [length_live, not_lt]
  by_cases below : (recent limiter.windowSeconds log key now : ℤ) < limiter.limit
  · have admits : limiter.allow key now =
        (true, limiter.setHits key (live limiter.windowSeconds log key now ++ [now])) := by
      rw [RateLimiter.allow, queue]
      exact if_neg (mt full.mp (not_not.mpr below))
    rw [admits, record, decide_eq_true below]
    refine ⟨rfl, fun client later after => ?_⟩
    have reached : now ≤ later := after _ (List.mem_append_right _ List.mem_cons_self)
    by_cases same : client = key
    · subst same
      rw [hits_setHits_self]
      exact evict_live_append _ reached sorted past
    · rw [hits_setHits_of_ne _ same, live_append_other _ _ fun own => same own.1.symm]
      exact tracks client later fun e mem => after e (List.mem_append_left _ mem)
  · have rejects : limiter.allow key now =
        (false, limiter.setHits key (live limiter.windowSeconds log key now)) := by
      rw [RateLimiter.allow, queue]
      exact if_pos (full.mpr below)
    rw [rejects, record, decide_eq_false below]
    refine ⟨rfl, fun client later after => ?_⟩
    have reached : now ≤ later := after _ (List.mem_append_right _ List.mem_cons_self)
    rw [live_append_other _ _ fun own => Bool.false_ne_true own.2]
    by_cases same : client = key
    · subst same
      rw [hits_setHits_self]
      exact evict_live _ reached sorted
    · rw [hits_setHits_of_ne _ same]
      exact tracks client later fun e mem => after e (List.mem_append_left _ mem)

theorem Tracks.answered (tracks : Tracks limiter log) (sorted : log.Pairwise (·.time ≤ ·.time))
    {calls : List (κ × τ)} (clock : calls.Pairwise (·.2 ≤ ·.2))
    (past : ∀ e ∈ log, ∀ call ∈ calls, e.time ≤ call.2) :
    log ++ limiter.answered calls =
      calls.foldl (record limiter.limit limiter.windowSeconds) log := by
  induction calls generalizing limiter log with
  | nil => exact List.append_nil _
  | cons call calls ih =>
    obtain ⟨first, rest⟩ := List.pairwise_cons.mp clock
    obtain ⟨answer, next⟩ := tracks.allow sorted fun e mem => past e mem call List.mem_cons_self
    have last : ∀ e ∈ record limiter.limit limiter.windowSeconds log call,
        e ∈ log ∨ e.time = call.2 := by
      intro e mem
      rcases List.mem_append.mp mem with old | new
      · exact .inl old
      · exact .inr (by rw [List.mem_singleton.mp new])
    have ordered : (record limiter.limit limiter.windowSeconds log call).Pairwise
        (·.time ≤ ·.time) := by
      refine List.pairwise_append.mpr
        ⟨sorted, List.pairwise_singleton _ _, fun e mem new at_new => ?_⟩
      rw [List.mem_singleton.mp at_new]
      exact past e mem call List.mem_cons_self
    have before : ∀ e ∈ record limiter.limit limiter.windowSeconds log call, ∀ later ∈ calls,
        e.time ≤ later.2 := by
      intro e mem later at_later
      rcases last e mem with old | new
      · exact past e old later (List.mem_cons_of_mem _ at_later)
      · exact new ▸ first later at_later
    have continued := ih next ordered rest before
    rw [limit_allow, windowSeconds_allow] at continued
    rw [List.foldl_cons, ← continued, RateLimiter.answered, answer, record, List.append_assoc]
    rfl

theorem answered_fresh (limit : ℤ) (windowSeconds : τ) {calls : List (κ × τ)}
    (clock : calls.Pairwise (·.2 ≤ ·.2)) :
    (fresh limit windowSeconds).answered calls = logOf limit windowSeconds calls := by
  have empty : Tracks (fresh limit windowSeconds : RateLimiter κ τ) [] := fun _ _ _ => rfl
  exact empty.answered List.Pairwise.nil clock (by simp)

/-- The limiter is an exact sliding window for each client: a call is admitted when
fewer than the limit are recent, so no window admits more, a rejected call changes no
later answer, and neither does another client. -/
theorem allow_sliding_window (limit : ℤ) (windowSeconds : τ) {calls : List (κ × τ)}
    (clock : calls.Pairwise (·.2 ≤ ·.2)) :
    (∀ earlier e later,
      (fresh limit windowSeconds).answered calls = earlier ++ e :: later →
        (e.admitted = true ↔ ((earlier.countP fun d => d.key = e.key ∧ d.admitted ∧
          e.time - d.time < windowSeconds : ℕ) : ℤ) < limit)) ∧
    (0 ≤ limit → ∀ key start, ((((fresh limit windowSeconds).answered calls).countP fun e =>
      e.key = key ∧ e.admitted ∧ start ≤ e.time ∧ e.time < start + windowSeconds : ℕ) : ℤ) ≤
        limit) ∧
    (∀ before call after, calls = before ++ call :: after →
      (fresh limit windowSeconds).answered (before ++ [call]) =
        (fresh limit windowSeconds).answered before ++ [⟨call.1, call.2, false⟩] →
      ∃ rest, (fresh limit windowSeconds).answered (before ++ after) =
          (fresh limit windowSeconds).answered before ++ rest ∧
        (fresh limit windowSeconds).answered calls =
          (fresh limit windowSeconds).answered before ++ ⟨call.1, call.2, false⟩ :: rest) ∧
    ∀ key, ((fresh limit windowSeconds).answered calls).filter (·.key = key) =
      (fresh limit windowSeconds).answered (calls.filter (·.1 = key)) := by
  rw [answered_fresh limit windowSeconds clock]
  refine ⟨fun earlier e later split => admitted_iff split, fun nonneg key start =>
    logOf_withinLimit nonneg calls key start, ?_, fun key => ?_⟩
  · rintro before call after rfl rejected
    have kept : (before ++ after).Pairwise (·.2 ≤ ·.2) :=
      clock.sublist ((List.sublist_cons_self call after).append_left before)
    have start : before.Pairwise (·.2 ≤ ·.2) := (List.pairwise_append.mp clock).1
    have upto : (before ++ [call]).Pairwise (·.2 ≤ ·.2) := by
      rw [List.append_cons] at clock
      exact (List.pairwise_append.mp clock).1
    rw [answered_fresh limit windowSeconds upto, answered_fresh limit windowSeconds start,
      logOf_snoc, record, List.append_cancel_left_eq, List.singleton_inj,
      Entry.mk.injEq] at rejected
    rw [answered_fresh limit windowSeconds kept, answered_fresh limit windowSeconds start]
    exact logOf_rejected after (of_decide_eq_false rejected.2.2)
  · rw [logOf_filter, answered_fresh limit windowSeconds (clock.sublist List.filter_sublist)]

def twoClients : List (ℕ × ℤ) := [(0, 0), (1, 3), (0, 5), (0, 9), (0, 10)]

/-- Two calls in ten seconds: at nine there is no room, at ten there is again. -/
theorem allow_sliding_window_two :
    ((fresh 2 10).answered twoClients).filter (·.key = 0) =
      [⟨0, 0, true⟩, ⟨0, 5, true⟩, ⟨0, 9, false⟩, ⟨0, 10, true⟩] ∧
    (((fresh 2 10).answered twoClients).countP fun e =>
      e.key = 0 ∧ e.admitted ∧ 1 ≤ e.time ∧ e.time < 1 + 10 : ℤ) ≤ 2 := by
  have clock : twoClients.Pairwise (·.2 ≤ ·.2) := by decide
  obtain ⟨-, most, -, alone⟩ := allow_sliding_window 2 10 clock
  exact ⟨(alone 0).trans (by decide), most (by decide) 0 1⟩

end RateLimiter

end OtDetection
