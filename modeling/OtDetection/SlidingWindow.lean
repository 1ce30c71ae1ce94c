import Mathlib.Algebra.Order.Group.Defs
import Mathlib.Algebra.Order.Sub.Unbundled.Basic
import Mathlib.Data.Finset.Max
import Mathlib.Data.List.AList

/-! Entries with a time and a key, seen through a half-open window of fixed length.
Which windows meet a condition is decided by finitely many of them: the ones that
start at an entry or end right before one, and for a condition that survives more
entries the ones that start at an entry alone. -/

namespace OtDetection.SlidingWindow

section Windows

variable {α κ τ : Type*} [LinearOrder τ] [DecidableEq κ]

def within (time : α → τ) (key : α → κ) (entries : List α) (start stop : τ) (g : κ) : List α :=
  entries.filter fun e => (start ≤ time e ∧ time e < stop) ∧ key e = g

variable {time : α → τ} {key : α → κ} {condition : List α → Prop}

/-- The window has an entry of the key, and these entries meet the condition. -/
def Meets (time : α → τ) (key : α → κ) (condition : List α → Prop) (entries : List α)
    (start stop : τ) (g : κ) : Prop :=
  within time key entries start stop g ≠ [] ∧ condition (within time key entries start stop g)

instance [DecidablePred condition] (entries : List α) (start stop : τ) (g : κ) :
    Decidable (Meets time key condition entries start stop g) :=
  inferInstanceAs (Decidable (_ ∧ _))

/-- More entries in any order keep the condition. -/
def Grows (condition : List α → Prop) : Prop :=
  ∀ few many : List α, few.Subperm many → condition few → condition many

theorem mem_within {entries : List α} {start stop : τ} {g : κ} {e : α} :
    e ∈ within time key entries start stop g ↔
      e ∈ entries ∧ (start ≤ time e ∧ time e < stop) ∧ key e = g := by
  simp [within]

theorem within_congr {entries : List α} {start stop start' stop' : τ} {g : κ}
    (h : ∀ e ∈ entries, key e = g →
      (start ≤ time e ∧ time e < stop ↔ start' ≤ time e ∧ time e < stop')) :
    within time key entries start stop g = within time key entries start' stop' g := by
  refine List.filter_congr fun e mem => ?_
  by_cases same : key e = g
  · rw [decide_eq_decide, h e mem same]
  · simp [same]

theorem within_strictMono {σ : Type*} [LinearOrder σ] {f : τ → σ} (h : StrictMono f)
    (entries : List α) (start stop : τ) (g : κ) :
    within (fun e => f (time e)) key entries (f start) (f stop) g =
      within time key entries start stop g := by
  simp only [within, h.le_iff_le, h.lt_iff_lt]

theorem within_sublist {entries : List α} {start stop start' stop' : τ} {g : κ}
    (h : ∀ e ∈ entries, key e = g → start ≤ time e ∧ time e < stop →
      start' ≤ time e ∧ time e < stop') :
    (within time key entries start stop g).Sublist (within time key entries start' stop' g) := by
  have inner : within time key entries start stop g =
      (within time key entries start' stop' g).filter fun e => start ≤ time e ∧ time e < stop := by
    rw [within, within, List.filter_filter]
    refine List.filter_congr fun e mem => ?_
    rw [← Bool.decide_and, decide_eq_decide]
    exact ⟨fun inside => ⟨inside.1, h e mem inside.2 inside.1, inside.2⟩,
      fun inside => ⟨inside.1, inside.2.2⟩⟩
  exact inner ▸ List.filter_sublist

theorem within_subperm {few many : List α} (h : few.Subperm many) (start stop : τ) (g : κ) :
    (within time key few start stop g).Subperm (within time key many start stop g) :=
  h.filter _

theorem ne_nil_of_subperm {few many : List α} (h : few.Subperm many) (some : few ≠ []) :
    many ≠ [] := by
  rintro rfl
  exact some (List.subperm_nil.mp h)

theorem Meets.subperm (grows : Grows condition) {few many : List α} (h : few.Subperm many)
    {start stop : τ} {g : κ} (meets : Meets time key condition few start stop g) :
    Meets time key condition many start stop g := by
  have sub : (within time key few start stop g).Subperm (within time key many start stop g) :=
    within_subperm h start stop g
  exact ⟨ne_nil_of_subperm sub meets.1, grows _ _ sub meets.2⟩

theorem exists_first {times : List τ} {s t : τ} (mem : t ∈ times) (later : s ≤ t) :
    ∃ b ∈ times, s ≤ b ∧ ∀ c ∈ times, s ≤ c → b ≤ c := by
  obtain ⟨b, inside, first⟩ := Finset.exists_min_image (times.toFinset.filter (s ≤ ·)) id
    ⟨t, Finset.mem_filter.mpr ⟨List.mem_toFinset.mpr mem, later⟩⟩
  obtain ⟨at_b, low⟩ := Finset.mem_filter.mp inside
  refine ⟨b, List.mem_toFinset.mp at_b, low, fun c hc le => ?_⟩
  exact first c (Finset.mem_filter.mpr ⟨List.mem_toFinset.mpr hc, le⟩)

end Windows

section Sliding

variable {α κ τ : Type*} [AddCommGroup τ] [LinearOrder τ] [IsOrderedAddMonoid τ] [DecidableEq κ]
variable {time : α → τ} {key : α → κ} {condition : List α → Prop}

theorem exists_meets_iff_of_grows (grows : Grows condition) (entries : List α) (length : τ) :
    (∃ s g, Meets time key condition entries s (s + length) g) ↔
      ∃ e ∈ entries, ∃ g, Meets time key condition entries (time e) (time e + length) g := by
  constructor
  · rintro ⟨s, g, some, meets⟩
    obtain ⟨e, inside⟩ := List.exists_mem_of_ne_nil _ some
    obtain ⟨mem, ⟨later, -⟩, same⟩ := mem_within.mp inside
    have own : ∀ x ∈ entries, key x = g → time x ∈ (entries.filter (key · = g)).map time :=
      fun x hx hk => List.mem_map_of_mem (List.mem_filter.mpr ⟨hx, decide_eq_true hk⟩)
    obtain ⟨b, at_b, low, first⟩ := exists_first (own e mem same) later
    obtain ⟨anchor, anchored, rfl⟩ := List.mem_map.mp at_b
    have more : (within time key entries s (s + length) g).Subperm
        (within time key entries (time anchor) (time anchor + length) g) := by
      refine (within_sublist fun x hx hk => ?_).subperm
      rintro ⟨reached, early⟩
      exact ⟨first _ (own x hx hk) reached, early.trans_le (add_le_add_left low _)⟩
    exact ⟨anchor, (List.mem_filter.mp anchored).1, g, ne_nil_of_subperm more some,
      grows _ _ more meets⟩
  · rintro ⟨e, -, g, meets⟩
    exact ⟨time e, g, meets⟩

theorem exists_meets_iff (entries : List α) (length : τ) :
    (∃ s g, Meets time key condition entries s (s + length) g) ↔
      (∃ e ∈ entries, Meets time key condition entries (time e) (time e + length) (key e)) ∨
      ∃ e ∈ entries, Meets time key condition entries (time e - length) (time e) (key e) := by
  constructor
  · rintro ⟨s, g, some, meets⟩
    obtain ⟨e, inside⟩ := List.exists_mem_of_ne_nil _ some
    obtain ⟨mem, ⟨later, -⟩, same⟩ := mem_within.mp inside
    -- The breakpoints are the times at which an entry leaves and those at which one comes in.
    let own := entries.filter (key · = g)
    let leaving := own.map time
    let coming := own.map (time · - length)
    have kept : ∀ x ∈ entries, key x = g → x ∈ own :=
      fun x hx hk => List.mem_filter.mpr ⟨hx, decide_eq_true hk⟩
    have leaves : ∀ x ∈ entries, key x = g → time x ∈ leaving ++ coming :=
      fun x hx hk => List.mem_append_left _ (List.mem_map_of_mem (kept x hx hk))
    have comes : ∀ x ∈ entries, key x = g → time x - length ∈ leaving ++ coming :=
      fun x hx hk => List.mem_append_right _
        (List.mem_map_of_mem (f := (time · - length)) (kept x hx hk))
    obtain ⟨b, at_b, low, first⟩ := exists_first (leaves e mem same) later
    have slid : within time key entries s (s + length) g =
        within time key entries b (b + length) g := by
      refine within_congr fun x hx hk => ⟨?_, ?_⟩
      · rintro ⟨reached, early⟩
        exact ⟨first _ (leaves x hx hk) reached, early.trans_le (add_le_add_left low _)⟩
      · rintro ⟨reached, early⟩
        refine ⟨low.trans reached, not_le.mp fun late => ?_⟩
        have enters := first _ (comes x hx hk) (le_sub_iff_add_le.mpr late)
        exact absurd early (not_lt.mpr (le_sub_iff_add_le.mp enters))
    rw [slid] at some meets
    rcases List.mem_append.mp at_b with leaving_b | coming_b
    · obtain ⟨anchor, anchored, rfl⟩ := List.mem_map.mp leaving_b
      obtain ⟨anchor_mem, key_eq⟩ := List.mem_filter.mp anchored
      obtain rfl := of_decide_eq_true key_eq
      exact .inl ⟨anchor, anchor_mem, some, meets⟩
    · obtain ⟨anchor, anchored, rfl⟩ := List.mem_map.mp coming_b
      obtain ⟨anchor_mem, key_eq⟩ := List.mem_filter.mp anchored
      obtain rfl := of_decide_eq_true key_eq
      rw [sub_add_cancel] at some meets
      exact .inr ⟨anchor, anchor_mem, some, meets⟩
  · rintro (⟨e, -, meets⟩ | ⟨e, -, meets⟩)
    · exact ⟨time e, key e, meets⟩
    · exact ⟨time e - length, key e, by rwa [sub_add_cancel]⟩

end Sliding

/-! ## Counting by key -/

section Tally

variable {κ σ : Type*} [DecidableEq κ]

/-- One step changes the group of its key, from `fresh` when there is none. -/
def bump (fresh : σ) (groups : AList fun _ : κ => σ) (step : κ × (σ → σ)) : AList fun _ : κ => σ :=
  groups.insert step.1 (step.2 ((groups.lookup step.1).getD fresh))

def total (fresh : σ) (steps : List (κ × (σ → σ))) (g : κ) : σ :=
  (steps.filter (·.1 = g)).foldl (fun value step => step.2 value) fresh

theorem lookup_tally (fresh : σ) (steps : List (κ × (σ → σ))) (g : κ) :
    (steps.foldl (bump fresh) ∅).lookup g =
      if steps.filter (·.1 = g) = [] then none else some (total fresh steps g) := by
  induction steps using List.reverseRecOn with
  | nil => simp
  | append_singleton steps step ih =>
    rw [List.foldl_append, List.foldl_cons, List.foldl_nil, bump]
    by_cases same : step.1 = g
    · subst same
      have before : ((steps.foldl (bump fresh) ∅).lookup step.1).getD fresh =
          total fresh steps step.1 := by
        rw [ih]
        by_cases empty : steps.filter (·.1 = step.1) = []
        · simp [empty, total]
        · simp only [empty, if_false, Option.getD_some]
      rw [AList.lookup_insert, before]
      simp [total]
    · have others : (steps ++ [step]).filter (·.1 = g) = steps.filter (·.1 = g) := by
        simp [same]
      rw [AList.lookup_insert_ne (Ne.symm same), ih]
      simp only [total, others]

theorem any_tally_iff (fresh : σ) (steps : List (κ × (σ → σ))) (p : σ → Bool) :
    ((steps.foldl (bump fresh) ∅).entries.any fun entry => p entry.2) = true ↔
      ∃ g, steps.filter (·.1 = g) ≠ [] ∧ p (total fresh steps g) = true := by
  have entry_iff : ∀ g value, Sigma.mk g value ∈ (steps.foldl (bump fresh) ∅).entries ↔
      steps.filter (·.1 = g) ≠ [] ∧ total fresh steps g = value := by
    intro g value
    rw [← AList.mem_lookup_iff, lookup_tally]
    by_cases empty : steps.filter (·.1 = g) = []
    · simp [empty]
    · simp [empty]
  rw [List.any_eq_true]
  constructor
  · rintro ⟨⟨g, value⟩, mem, holds⟩
    obtain ⟨some, rfl⟩ := (entry_iff g value).mp mem
    exact ⟨g, some, holds⟩
  · rintro ⟨g, some, holds⟩
    exact ⟨⟨g, total fresh steps g⟩, (entry_iff g _).mpr ⟨some, rfl⟩, holds⟩

end Tally

theorem length_foldl_insert {β : Type*} [DecidableEq β] (values : List β) :
    (values.foldl (fun set value => set.insert value) []).length = values.toFinset.card := by
  have filled : (values.foldl (fun set value => set.insert value) []).Nodup ∧
      ∀ x, x ∈ values.foldl (fun set value => set.insert value) [] ↔ x ∈ values := by
    induction values using List.reverseRecOn with
    | nil => exact ⟨List.nodup_nil, fun x => Iff.rfl⟩
    | append_singleton values value ih =>
      rw [List.foldl_append, List.foldl_cons, List.foldl_nil]
      refine ⟨ih.1.insert, fun x => ?_⟩
      rw [List.mem_insert_iff, ih.2, List.mem_append, List.mem_singleton, or_comm]
  rw [← List.toFinset_card_of_nodup filled.1]
  congr 1
  ext x
  rw [List.mem_toFinset, List.mem_toFinset, filled.2]

end OtDetection.SlidingWindow
