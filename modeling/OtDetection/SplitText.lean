import Mathlib.Data.List.Infix
import Mathlib.Tactic.Common

/-! A text split at a separator of any length, from the left and without overlaps. The pieces
and the separators between them have all the length of the text, and the first piece ends
where the separator first occurs. -/

namespace OtDetection.SplitText

variable {α : Type*}

theorem length_modifyHead_flatten (a : α) {pieces : List (List α)} (some_piece : pieces ≠ []) :
    (pieces.modifyHead (a :: ·)).flatten.length = pieces.flatten.length + 1 := by
  cases pieces with
  | nil => exact absurd rfl some_piece
  | cons piece pieces =>
    rw [List.modifyHead_cons, List.flatten_cons, List.flatten_cons, List.length_append,
      List.length_append, List.length_cons]
    omega

variable [DecidableEq α]

/-- The pieces behind the symbols of a separator that are still to skip. -/
def splitFrom (sep : List α) : ℕ → List α → List (List α)
  | _, [] => [[]]
  | skip + 1, _ :: rest => splitFrom sep skip rest
  | 0, a :: rest =>
    if sep <+: a :: rest then [] :: splitFrom sep (sep.length - 1) rest
    else (splitFrom sep 0 rest).modifyHead (a :: ·)

def split (sep text : List α) : List (List α) := splitFrom sep 0 text

theorem splitFrom_append {sep : List α} (skipped rest : List α) :
    splitFrom sep skipped.length (skipped ++ rest) = split sep rest := by
  induction skipped with
  | nil => rfl
  | cons a skipped ih => rw [List.length_cons, List.cons_append, splitFrom, ih]

theorem split_leading {sep : List α} (some_sep : sep ≠ []) (rest : List α) :
    split sep (sep ++ rest) = [] :: split sep rest := by
  cases sep with
  | nil => exact absurd rfl some_sep
  | cons a sep =>
    rw [split, List.cons_append, splitFrom, if_pos ⟨rest, rfl⟩, List.length_cons,
      Nat.add_sub_cancel, splitFrom_append]

theorem split_cons {sep : List α} {a : α} {rest : List α} (later : ¬ sep <+: a :: rest) :
    split sep (a :: rest) = (split sep rest).modifyHead (a :: ·) := by
  rw [split, splitFrom, if_neg later, split]

theorem split_of_absent {sep text : List α} (absent : ¬ sep <:+: text) :
    split sep text = [text] := by
  induction text with
  | nil => rfl
  | cons a text ih =>
    rw [List.infix_cons_iff, not_or] at absent
    rw [split_cons absent.1, ih absent.2]
    rfl

theorem split_append {s : α} {piece : List α} (absent : s ∉ piece) (rest : List α) :
    split [s] (piece ++ s :: rest) = piece :: split [s] rest := by
  induction piece with
  | nil => exact split_leading (List.cons_ne_nil s []) rest
  | cons a piece ih =>
    rw [List.mem_cons, not_or] at absent
    have later : ¬ [s] <+: a :: (piece ++ s :: rest) := fun here =>
      absent.1 (List.cons_prefix_cons.mp here).1
    rw [List.cons_append, split_cons later, ih absent.2]
    rfl

theorem split_head {sep text : List α} (occurs : sep <:+: text) :
    ∃ piece pieces, split sep text = piece :: pieces ∧ piece ++ sep <+: text := by
  induction text with
  | nil =>
    rw [List.infix_nil] at occurs
    rw [occurs]
    exact ⟨[], [], rfl, List.prefix_rfl⟩
  | cons a text ih =>
    by_cases here : sep <+: a :: text
    · refine ⟨[], splitFrom sep (sep.length - 1) text, ?_, here⟩
      rw [split, splitFrom, if_pos here]
    · obtain ⟨piece, pieces, found, before⟩ := ih ((List.infix_cons_iff.mp occurs).resolve_left here)
      refine ⟨a :: piece, pieces, ?_, List.cons_prefix_cons.mpr ⟨rfl, before⟩⟩
      rw [split_cons here, found]
      rfl

theorem split_ne_nil (sep text : List α) : split sep text ≠ [] := by
  by_cases occurs : sep <:+: text
  · obtain ⟨piece, pieces, found, -⟩ := split_head occurs
    rw [found]
    exact List.cons_ne_nil piece pieces
  · rw [split_of_absent occurs]
    exact List.cons_ne_nil text []

theorem length_splitFrom {sep : List α} (some_sep : sep ≠ []) {skip : ℕ} {text : List α}
    (inside : skip ≤ text.length) :
    (splitFrom sep skip text).flatten.length + sep.length * (splitFrom sep skip text).length +
      skip = text.length + sep.length := by
  have positive := List.length_pos_iff.mpr some_sep
  induction text generalizing skip with
  | nil =>
    rw [Nat.le_zero.mp inside, splitFrom]
    simp
  | cons a text ih =>
    cases skip with
    | succ skip =>
      have rest := @ih skip (Nat.le_of_succ_le_succ inside)
      rw [splitFrom, List.length_cons]
      omega
    | zero =>
      rw [splitFrom]
      split
      · rename_i here
        have room := here.length_le
        rw [List.length_cons] at room
        have rest := @ih (sep.length - 1) (by omega)
        rw [List.flatten_cons, List.nil_append, List.length_cons, List.length_cons, Nat.mul_succ]
        omega
      · have rest := @ih 0 (Nat.zero_le _)
        have some_piece : splitFrom sep 0 text ≠ [] := split_ne_nil sep text
        rw [length_modifyHead_flatten a some_piece, List.length_modifyHead,
          List.length_cons]
        omega

/-- The pieces and one separator less than there are pieces. -/
theorem length_split {sep : List α} (some_sep : sep ≠ []) (text : List α) :
    (split sep text).flatten.length + sep.length * (split sep text).length =
      text.length + sep.length :=
  length_splitFrom some_sep (Nat.zero_le text.length)

end OtDetection.SplitText
