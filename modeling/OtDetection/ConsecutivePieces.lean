import Mathlib.Algebra.GroupWithZero.Nat
import Mathlib.Data.List.Flatten
import Mathlib.Data.List.Forall2
import Mathlib.Tactic.Common

/-! Lists that split into consecutive pieces, one for each of a list of predicates. Items
may be split further one by one, and a measure that adds up over the pieces decides
whether the pieces can all be as small as their items allow. -/

namespace OtDetection.ConsecutivePieces

variable {α ι κ : Type*}

/-- The text is made of consecutive pieces, each of which fits its item. -/
def Splits (fits : ι → List α → Prop) (items : List ι) (text : List α) : Prop :=
  ∃ pieces, List.Forall₂ fits items pieces ∧ text = pieces.flatten

variable {fits : ι → List α → Prop} {items : List ι} {text : List α}

theorem splits_nil : Splits fits [] text ↔ text = [] := by
  simp [Splits]

theorem splits_cons {item : ι} :
    Splits fits (item :: items) text ↔
      ∃ piece rest, fits item piece ∧ Splits fits items rest ∧ text = piece ++ rest := by
  constructor
  · rintro ⟨_, _ | ⟨here, others⟩, rfl⟩
    exact ⟨_, _, here, ⟨_, others, rfl⟩, List.flatten_cons⟩
  · rintro ⟨piece, _, here, ⟨pieces, others, rfl⟩, rfl⟩
    exact ⟨piece :: pieces, .cons here others, List.flatten_cons.symm⟩

theorem splits_append {others : List ι} :
    Splits fits (items ++ others) text ↔
      ∃ front back, Splits fits items front ∧ Splits fits others back ∧ text = front ++ back := by
  induction items generalizing text with
  | nil => simp [splits_nil]
  | cons item items ih =>
    simp only [List.cons_append, splits_cons, ih]
    constructor
    · rintro ⟨piece, _, here, ⟨front, back, before, after, rfl⟩, rfl⟩
      exact ⟨piece ++ front, back, ⟨piece, front, here, before, rfl⟩, after,
        (List.append_assoc ..).symm⟩
    · rintro ⟨_, back, ⟨piece, front, here, before, rfl⟩, after, rfl⟩
      exact ⟨piece, front ++ back, here, ⟨front, back, before, after, rfl⟩,
        List.append_assoc ..⟩

theorem splits_flatMap {expand : κ → List ι} {wholes : List κ} :
    Splits fits (wholes.flatMap expand) text ↔
      Splits (fun whole => Splits fits (expand whole)) wholes text := by
  induction wholes generalizing text with
  | nil => simp [splits_nil]
  | cons whole wholes ih => simp only [List.flatMap_cons, splits_append, splits_cons, ih]

theorem splits_map {f : κ → ι} {sources : List κ} :
    Splits fits (sources.map f) text ↔ Splits (fun source => fits (f source)) sources text := by
  simp [Splits, List.forall₂_map_left_iff]

theorem Splits.imp {other : ι → List α → Prop} {P : α → Prop}
    (h : ∀ item ∈ items, ∀ piece, (∀ x ∈ piece, P x) → fits item piece → other item piece)
    (kind : ∀ x ∈ text, P x) (splits : Splits fits items text) : Splits other items text := by
  induction items generalizing text with
  | nil => rwa [splits_nil] at splits ⊢
  | cons item items ih =>
    obtain ⟨piece, rest, here, later, rfl⟩ := splits_cons.mp splits
    have front : ∀ x ∈ piece, P x := fun x mem => kind x (List.mem_append_left _ mem)
    have back : ∀ x ∈ rest, P x := fun x mem => kind x (List.mem_append_right _ mem)
    exact splits_cons.mpr ⟨piece, rest, h item List.mem_cons_self piece front here,
      ih (fun other mem => h other (List.mem_cons_of_mem _ mem)) back later, rfl⟩

theorem Splits.related {R : α → α → Prop} {text' : List α}
    (h : ∀ item piece piece', List.Forall₂ R piece piece' → fits item piece → fits item piece')
    (related : List.Forall₂ R text text') (splits : Splits fits items text) :
    Splits fits items text' := by
  induction items generalizing text text' with
  | nil =>
    rw [splits_nil] at splits ⊢
    subst splits
    exact List.forall₂_nil_left_iff.mp related
  | cons item items ih =>
    obtain ⟨piece, rest, here, later, rfl⟩ := splits_cons.mp splits
    obtain ⟨same, others⟩ := And.intro (List.forall₂_take piece.length related)
      (List.forall₂_drop piece.length related)
    rw [List.take_left] at same
    rw [List.drop_left] at others
    exact splits_cons.mpr ⟨_, _, h item _ _ same here, ih others later,
      (List.take_append_drop _ _).symm⟩

theorem splits_singletons_iff {same : ι → α → Prop}
    (one : ∀ item ∈ items, ∀ piece, fits item piece ↔ ∃ x, piece = [x] ∧ same item x) :
    Splits fits items text ↔ List.Forall₂ same items text := by
  induction items generalizing text with
  | nil => rw [splits_nil, List.forall₂_nil_left_iff]
  | cons item items ih =>
    have others : ∀ rest, Splits fits items rest ↔ List.Forall₂ same items rest :=
      fun rest => ih fun other mem => one other (List.mem_cons_of_mem _ mem)
    simp only [splits_cons, one item List.mem_cons_self, others, List.forall₂_cons_left_iff]
    constructor
    · rintro ⟨_, rest, ⟨x, rfl, here⟩, later, rfl⟩
      exact ⟨x, rest, here, later, rfl⟩
    · rintro ⟨x, rest, here, later, rfl⟩
      exact ⟨[x], rest, ⟨x, rfl, here⟩, later, rfl⟩

theorem splits_tight_iff {tight : ι → List α → Prop} {least : ι → ℕ} (measure : List α → ℕ)
    (empty : measure [] = 0)
    (append : ∀ front back, measure (front ++ back) = measure front + measure back)
    (bounded : ∀ item piece, fits item piece → least item ≤ measure piece)
    (exact : ∀ item piece, tight item piece ↔ fits item piece ∧ measure piece = least item) :
    Splits tight items text ↔ Splits fits items text ∧ measure text ≤ (items.map least).sum := by
  have more : ∀ {items : List ι} {text : List α}, Splits fits items text →
      (items.map least).sum ≤ measure text := by
    intro items
    induction items with
    | nil => simp [splits_nil]
    | cons item items ih =>
      intro text splits
      obtain ⟨piece, rest, here, later, rfl⟩ := splits_cons.mp splits
      rw [List.map_cons, List.sum_cons, append]
      exact Nat.add_le_add (bounded item piece here) (ih later)
  induction items generalizing text with
  | nil =>
    rw [splits_nil, splits_nil]
    constructor
    · rintro rfl
      exact ⟨rfl, by simp [empty]⟩
    · exact And.left
  | cons item items ih =>
    rw [splits_cons, splits_cons, List.map_cons, List.sum_cons]
    constructor
    · rintro ⟨piece, rest, here, later, rfl⟩
      obtain ⟨fit, size⟩ := (exact item piece).mp here
      obtain ⟨loose, small⟩ := ih.mp later
      refine ⟨⟨piece, rest, fit, loose, rfl⟩, ?_⟩
      rw [append, size]
      exact Nat.add_le_add_left small _
    · rintro ⟨⟨piece, rest, fit, loose, rfl⟩, small⟩
      have low := bounded item piece fit
      have lowRest := more loose
      rw [append] at small
      refine ⟨piece, rest, (exact item piece).mpr ⟨fit, by omega⟩, ih.mpr ⟨loose, by omega⟩, rfl⟩

/-- Whether a text splits, by trying every length of the first piece. -/
def splits (fits : ι → List α → Bool) : List ι → List α → Bool
  | [], text => text.isEmpty
  | item :: items, text => (List.range (text.length + 1)).any fun n =>
    fits item (text.take n) && splits fits items (text.drop n)

theorem splits_eq_true_iff {fits : ι → List α → Bool} {items : List ι} {text : List α} :
    splits fits items text = true ↔
      Splits (fun item piece => fits item piece = true) items text := by
  induction items generalizing text with
  | nil => rw [splits, splits_nil, List.isEmpty_iff]
  | cons item items ih =>
    simp only [splits, List.any_eq_true, List.mem_range, Bool.and_eq_true, ih, splits_cons]
    constructor
    · rintro ⟨n, -, here, later⟩
      exact ⟨text.take n, text.drop n, here, later, (List.take_append_drop n text).symm⟩
    · rintro ⟨piece, rest, here, later, rfl⟩
      refine ⟨piece.length, by rw [List.length_append]; omega, ?_, ?_⟩
      · rwa [List.take_left]
      · rwa [List.drop_left]

end OtDetection.ConsecutivePieces
