import OtDetection.KeyedMaps
import Mathlib.Data.Finset.Image
import Mathlib.Data.List.Dedup
import Mathlib.Data.Set.Card

/-! Inverting a list of sources with their terms to the terms with their sources. An index has
each term once; the sum of the lengths of its entries counts pairs of a term and a source,
not sources. -/

namespace OtDetection.InvertedIndex
open InsertionGroups

variable {σ τ : Type*}

/-- The index lists a source under a term. -/
def Lists (index : List (τ × List σ)) (term : τ) (source : σ) : Prop :=
  ∃ entry ∈ index, entry.1 = term ∧ source ∈ entry.2

/-- Some of the sources has the term. -/
def Mentions (sources : List (σ × List τ)) (term : τ) (source : σ) : Prop :=
  ∃ entry ∈ sources, entry.1 = source ∧ term ∈ entry.2

/-- Each term once, and under none an empty list. -/
structure IsIndex (index : List (τ × List σ)) : Prop where
  nodup : (index.map Prod.fst).Nodup
  nonempty : ∀ entry ∈ index, entry.2 ≠ []

theorem isIndex_nil : IsIndex ([] : List (τ × List σ)) := ⟨List.nodup_nil, List.forall_mem_nil _⟩

theorem IsIndex.mem_keys_iff {index : List (τ × List σ)} (is_index : IsIndex index) (term : τ) :
    term ∈ index.map Prod.fst ↔ ∃ source, Lists index term source := by
  constructor
  · intro mem
    obtain ⟨entry, inside, rfl⟩ := List.mem_map.mp mem
    obtain ⟨source, listed⟩ := List.exists_mem_of_ne_nil _ (is_index.nonempty entry inside)
    exact ⟨source, entry, inside, rfl, listed⟩
  · rintro ⟨source, entry, inside, rfl, -⟩
    exact List.mem_map_of_mem inside

/-! ## Inverting -/

section Invert

variable [DecidableEq τ]

def credit (index : List (τ × List σ)) (source : σ) (terms : List τ) : List (τ × List σ) :=
  terms.foldl (fun index term => push index term source) index

def invert (sources : List (σ × List τ)) : List (τ × List σ) :=
  sources.foldl (fun index source => credit index source.1 source.2) []

theorem lists_push (index : List (τ × List σ)) (key : τ) (item : σ) (term : τ) (source : σ) :
    Lists (push index key item) term source ↔
      Lists index term source ∨ term = key ∧ source = item := by
  induction index with
  | nil => simp [push, Lists, eq_comm]
  | cons entry index ih =>
    rw [push]
    by_cases same : entry.1 = key
    · rw [if_pos same]
      simp only [Lists, List.exists_mem_cons_iff, List.mem_append, List.mem_singleton]
      grind
    · rw [if_neg same]
      simp only [Lists, List.exists_mem_cons_iff] at ih ⊢
      rw [ih, or_assoc]

theorem IsIndex.push {index : List (τ × List σ)} (is_index : IsIndex index) (key : τ) (item : σ) :
    IsIndex (push index key item) where
  nodup := by
    rw [keys_push]
    split_ifs with known
    · exact is_index.nodup
    · rw [← List.concat_eq_append]
      exact List.Nodup.concat known is_index.nodup
  nonempty entry mem := by
    rcases mem_push is_index.nodup mem with ⟨-, old⟩ | ⟨-, items, value, -⟩
    · exact is_index.nonempty entry old
    · rw [value]
      exact List.append_ne_nil_of_right_ne_nil items (List.cons_ne_nil item [])

theorem credit_spec {index : List (τ × List σ)} (is_index : IsIndex index) (source : σ)
    (terms : List τ) : IsIndex (credit index source terms) ∧ ∀ term other,
      Lists (credit index source terms) term other ↔
        Lists index term other ∨ other = source ∧ term ∈ terms := by
  induction terms generalizing index with
  | nil => exact ⟨is_index, fun term other => by simp [credit]⟩
  | cons first terms ih =>
    obtain ⟨kept, lists⟩ := ih (is_index.push first source)
    refine ⟨kept, fun term other => ?_⟩
    rw [credit, List.foldl_cons]
    rw [credit] at lists
    rw [lists, lists_push, List.mem_cons]
    tauto

theorem foldl_credit_spec {index : List (τ × List σ)} (is_index : IsIndex index)
    (sources : List (σ × List τ)) :
    IsIndex (sources.foldl (fun index source => credit index source.1 source.2) index) ∧
      ∀ term source,
        Lists (sources.foldl (fun index source => credit index source.1 source.2) index) term
          source ↔ Lists index term source ∨ Mentions sources term source := by
  induction sources generalizing index with
  | nil => exact ⟨is_index, fun term source => by simp [Mentions]⟩
  | cons first sources ih =>
    obtain ⟨credited, lists⟩ := credit_spec is_index first.1 first.2
    obtain ⟨kept, rest⟩ := ih credited
    refine ⟨kept, fun term source => ?_⟩
    rw [List.foldl_cons, rest, lists, or_assoc]
    simp only [Mentions, List.exists_mem_cons_iff, eq_comm]

theorem isIndex_invert (sources : List (σ × List τ)) : IsIndex (invert sources) :=
  (foldl_credit_spec isIndex_nil sources).1

theorem lists_invert (sources : List (σ × List τ)) (term : τ) (source : σ) :
    Lists (invert sources) term source ↔ Mentions sources term source := by
  rw [invert, (foldl_credit_spec isIndex_nil sources).2]
  simp [Lists]

end Invert

/-! ## Counting -/

theorem ncard_eq_length {α : Type*} {set : Set α} {elements : List α} (nodup : elements.Nodup)
    (same : ∀ a, a ∈ set ↔ a ∈ elements) : set.ncard = elements.length := by
  classical
  have coe : set = ↑elements.toFinset := by
    ext a
    rw [same, List.coe_toFinset, Set.mem_ofPred_eq]
  rw [coe, Set.ncard_coe_finset, List.toFinset_card_of_nodup nodup]

section Count

variable [DecidableEq τ] [DecidableEq σ]

def pairs (index : List (τ × List σ)) : Finset (τ × σ) :=
  (index.flatMap fun entry => entry.2.map (entry.1, ·)).toFinset

theorem mem_pairs {index : List (τ × List σ)} {pair : τ × σ} :
    pair ∈ pairs index ↔ Lists index pair.1 pair.2 := by
  rw [pairs, List.mem_toFinset, List.mem_flatMap]
  constructor
  · rintro ⟨entry, inside, mem⟩
    obtain ⟨source, listed, rfl⟩ := List.mem_map.mp mem
    exact ⟨entry, inside, rfl, listed⟩
  · rintro ⟨entry, inside, same, listed⟩
    exact ⟨entry, inside, List.mem_map.mpr ⟨pair.2, listed, by rw [same]⟩⟩

theorem sum_length_eq_card {index : List (τ × List σ)} (nodup : (index.map Prod.fst).Nodup)
    (distinct : ∀ entry ∈ index, entry.2.Nodup) :
    (index.map fun entry => entry.2.length).sum = (pairs index).card := by
  have all : (index.flatMap fun entry => entry.2.map (entry.1, ·)).Nodup := by
    refine List.nodup_flatMap.mpr ⟨fun entry mem => ?_, ?_⟩
    · exact (distinct entry mem).map fun _ _ same => (Prod.mk.inj same).2
    · refine (List.pairwise_map.mp nodup).imp fun {a b} apart => ?_
      intro pair first second
      obtain ⟨_, -, rfl⟩ := List.mem_map.mp first
      obtain ⟨_, -, same⟩ := List.mem_map.mp second
      exact apart (Prod.mk.inj same).1.symm
  rw [pairs, List.toFinset_card_of_nodup all, List.length_flatMap]
  simp only [List.length_map]

theorem card_sources_eq_iff (index : List (τ × List σ)) :
    (pairs index).card = ((pairs index).image Prod.snd).card ↔
      ∀ source term other, Lists index term source → Lists index other source → term = other := by
  rw [eq_comm, Finset.card_image_iff]
  constructor
  · intro injective source term other first second
    have here : (term, source) ∈ pairs index := mem_pairs.mpr first
    have there : (other, source) ∈ pairs index := mem_pairs.mpr second
    exact congrArg Prod.fst (injective here there rfl)
  · intro unique a here b there same
    have first := mem_pairs.mp (Finset.mem_coe.mp here)
    have second := mem_pairs.mp (Finset.mem_coe.mp there)
    rw [← same] at second
    exact Prod.ext (unique a.2 a.1 b.1 first second) same

end Count

end OtDetection.InvertedIndex
