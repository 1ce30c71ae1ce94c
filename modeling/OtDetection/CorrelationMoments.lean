import OtDetection.CorrelationSearch

/-! The evaluator sees a datetime through its moment and through whether a span from it on
ends in range. Two lists of matched events that agree in both, in the keys and in the
counted values are searched alike, error by error. -/

namespace OtDetection.Correlation
open PyText FieldLookup SlidingWindow

structure Alike (span : ℤ) (a b : DateTime) : Prop where
  moment : a.utc = b.utc
  room : (a.add? span).isSome = (b.add? span).isSome

section Alike

variable {Rule ε : Type} {rule : CorrelationRule Rule} {condition : Condition} {span : ℤ}

/-- Two matched events that the evaluator does not tell apart. -/
structure AlikePairs (ε : Type) (rule : CorrelationRule Rule) (condition : Condition) (span : ℤ)
    (p q : DateTime × Event) : Prop where
  time : Alike span p.1 q.1
  key : groupKey (ε := ε) (rule.groupBy.getD []) p.2 = groupKey (rule.groupBy.getD []) q.2
  value : countedValue (ε := ε) rule condition p.2 = countedValue rule condition q.2

theorem inSpan_congr {start other : DateTime} (h : Alike span start other) {a b : DateTime}
    (same : a.utc = b.utc) : inSpan (ε := ε) start span a = inSpan other span b := by
  unfold inSpan
  rw [h.moment, same]
  split
  · cases stop : start.add? span with
    | none =>
      have out := h.room
      rw [stop, Option.isSome_none, eq_comm, Option.isSome_eq_false_iff, Option.isNone_iff_eq_none]
        at out
      rw [out]
    | some first =>
      have inside := h.room
      rw [stop, Option.isSome_some, eq_comm, Option.isSome_iff_exists] at inside
      obtain ⟨second, stop'⟩ := inside
      rw [stop']
      simp only [DateTime.utc_add stop, DateTime.utc_add stop', h.moment]
  · rfl

theorem countSpan_congr {σ : Type} {fresh : σ} {change : Event → Except (Error ε) (σ → σ)}
    {start other : DateTime} (h : Alike span start other)
    (changes : ∀ p q, AlikePairs ε rule condition span p q → change p.2 = change q.2)
    {matched matched' : List (DateTime × Event)}
    (alike : List.Forall₂ (AlikePairs ε rule condition span) matched matched')
    (counted : AList fun _ : List HashKey => σ) :
    countSpan fresh change (rule.groupBy.getD []) start span matched counted =
      countSpan fresh change (rule.groupBy.getD []) other span matched' counted := by
  induction alike generalizing counted with
  | nil => rfl
  | @cons p q matched matched' here later ih =>
    obtain ⟨a, event⟩ := p
    obtain ⟨b, event'⟩ := q
    have key : groupKey (ε := ε) (rule.groupBy.getD []) event =
        groupKey (rule.groupBy.getD []) event' := here.key
    have change_eq : change event = change event' := changes _ _ here
    simp only [countSpan, inSpan_congr h here.time.moment, key, change_eq, ih]

theorem spanMeets_congr {start other : DateTime} (h : Alike span start other)
    {matched matched' : List (DateTime × Event)}
    (alike : List.Forall₂ (AlikePairs ε rule condition span) matched matched') :
    spanMeets (ε := ε) condition rule.type (rule.groupBy.getD []) matched span start =
      spanMeets condition rule.type (rule.groupBy.getD []) matched' span other := by
  unfold spanMeets
  split
  · rename_i counting
    have changes : ∀ p q, AlikePairs ε rule condition span p q →
        addValue (ε := ε) (condition.fieldref.getD []) p.2 =
          addValue (condition.fieldref.getD []) q.2 := by
      intro p q here
      have value := here.value
      simp only [countedValue, if_pos counting] at value
      rw [addValue, addValue, value]
    rw [countSpan_congr h changes alike]
  · rw [countSpan_congr h (fun _ _ _ => rfl) alike]

/-! ## The starts -/

theorem distinctMoments_congr {moments others : List DateTime}
    (h : List.Forall₂ (Alike span) moments others) :
    List.Forall₂ (Alike span) (distinctMoments moments) (distinctMoments others) := by
  refine List.rel_foldl (P := List.Forall₂ (Alike span)) ?_ .nil h
  intro set set' sets a b alike
  have known : (∃ other ∈ set, other.utc = a.utc) ↔ ∃ other ∈ set', other.utc = b.utc := by
    rw [alike.moment]
    induction sets with
    | nil => simp
    | cons here _ ih => simp only [List.exists_mem_cons_iff, here.moment, ih]
  simp only [known]
  split
  · exact sets
  · exact List.rel_append sets (.cons alike .nil)

theorem insertionSort_congr {moments others : List DateTime}
    (h : List.Forall₂ (Alike span) moments others) :
    List.Forall₂ (Alike span) (moments.insertionSort fun a b => a.utc ≤ b.utc)
      (others.insertionSort fun a b => a.utc ≤ b.utc) := by
  refine List.rel_foldr (P := List.Forall₂ (Alike span)) ?_ .nil h
  intro a b alike set set' sets
  induction sets with
  | nil => exact .cons alike .nil
  | @cons c d _ _ here later ih =>
    rw [List.orderedInsert_cons, List.orderedInsert_cons, alike.moment, here.moment]
    split
    · exact .cons alike (.cons here later)
    · exact .cons here ih

theorem scanStarts_congr {meets meets' : DateTime → Except (Error ε) Bool}
    {starts others : List DateTime} (h : List.Forall₂ (Alike span) starts others)
    (agree : ∀ a b, Alike span a b → meets a = meets' b) :
    scanStarts meets starts = scanStarts meets' others := by
  induction h with
  | nil => rfl
  | cons here _ ih => rw [scanStarts, scanStarts, agree _ _ here, ih]

end Alike

end OtDetection.Correlation
