import Mathlib.Data.Nat.Notation
import Mathlib.Tactic.Common

/-! Python's `str.splitlines`. The carriage return and line feed pair is one break,
and a final break starts no further line. -/

namespace OtDetection.PyLines

/-- The characters at which `splitlines` breaks. -/
def isLineBreak (c : Char) : Prop :=
  c.toNat ∈ [0x0A, 0x0B, 0x0C, 0x0D, 0x1C, 0x1D, 0x1E, 0x85, 0x2028, 0x2029]

instance (c : Char) : Decidable (isLineBreak c) := inferInstanceAs (Decidable (_ ∈ _))

/-- The lines of the rest of a text, with the current line so far. -/
def linesFrom (afterReturn : Bool) (line : List Char) : List Char → List (List Char)
  | [] => if line = [] then [] else [line]
  | c :: rest =>
    if afterReturn = true ∧ c = '\n' then linesFrom false line rest
    else if isLineBreak c then line :: linesFrom (c == '\r') [] rest
    else linesFrom false (line ++ [c]) rest

def splitlines (text : List Char) : List (List Char) := linesFrom false [] text

theorem linesFrom_clean (text : List Char) {line : List Char} (afterReturn : Bool)
    (h : ∀ c ∈ line, ¬ isLineBreak c) :
    ∀ part ∈ linesFrom afterReturn line text, ∀ c ∈ part, ¬ isLineBreak c := by
  induction text generalizing afterReturn line with
  | nil =>
    rw [linesFrom]
    split
    · simp
    · simpa using h
  | cons c rest ih =>
    rw [linesFrom]
    split
    · exact ih false h
    · split
      · intro part hp
        rcases List.mem_cons.mp hp with rfl | hp
        · exact h
        · exact ih _ (by simp) part hp
      · rename_i _ ordinary
        refine ih false fun d hd => ?_
        rcases List.mem_append.mp hd with hd | hd
        · exact h d hd
        · rw [List.mem_singleton.mp hd]
          exact ordinary

theorem linesFrom_append_newline {text line : List Char} (h : ∀ c ∈ text, ¬ isLineBreak c) :
    linesFrom false line (text ++ ['\n']) = [line ++ text] := by
  induction text generalizing line with
  | nil => simp [linesFrom, isLineBreak]
  | cons c rest ih =>
    rw [List.cons_append, linesFrom, if_neg (by simp), if_neg (h c List.mem_cons_self),
      ih fun d hd => h d (List.mem_cons_of_mem _ hd), List.append_assoc, List.singleton_append]

theorem splitlines_newline_iff (text : List Char) :
    splitlines (text ++ ['\n']) = [text] ↔ ∀ c ∈ text, ¬ isLineBreak c := by
  constructor
  · intro h
    have empty : ∀ c ∈ ([] : List Char), ¬ isLineBreak c := by simp
    exact linesFrom_clean (text ++ ['\n']) false empty text
      (by rw [← splitlines, h]; exact List.mem_singleton_self text)
  · intro h
    rw [splitlines, linesFrom_append_newline h, List.nil_append]

theorem linesFrom_line {text : List Char} (h : ∀ c ∈ text, ¬ isLineBreak c) (line rest : List Char) :
    linesFrom false line (text ++ '\n' :: rest) = (line ++ text) :: splitlines rest := by
  induction text generalizing line with
  | nil => rw [List.nil_append, linesFrom, if_neg (by simp), if_pos (by decide), List.append_nil]; rfl
  | cons c text ih =>
    rw [List.cons_append, linesFrom, if_neg (by simp), if_neg (h c List.mem_cons_self),
      ih fun d hd => h d (List.mem_cons_of_mem _ hd), List.append_assoc, List.singleton_append]

theorem splitlines_printed {texts : List (List Char)}
    (h : ∀ text ∈ texts, ∀ c ∈ text, ¬ isLineBreak c) :
    splitlines (texts.flatMap fun text => text ++ ['\n']) = texts := by
  induction texts with
  | nil => rfl
  | cons text texts ih =>
    obtain ⟨first, others⟩ := List.forall_mem_cons.mp h
    rw [List.flatMap_cons, List.append_assoc, List.singleton_append, splitlines,
      linesFrom_line first, ih others, List.nil_append]

def universalNewlines : List Char → List Char
  | [] => []
  | [c] => [if c = '\r' then '\n' else c]
  | c :: next :: rest =>
    if c = '\r' then
      if next = '\n' then '\n' :: universalNewlines rest
      else '\n' :: universalNewlines (next :: rest)
    else c :: universalNewlines (next :: rest)

theorem universalNewlines_eq_self {text : List Char} (h : '\r' ∉ text) :
    universalNewlines text = text := by
  induction text using universalNewlines.induct with
  | case1 => rfl
  | case2 c =>
    rw [List.mem_singleton] at h
    rw [universalNewlines, if_neg (Ne.symm h)]
  | case3 => exact absurd List.mem_cons_self h
  | case4 => exact absurd List.mem_cons_self h
  | case5 c next rest other ih =>
    rw [universalNewlines, if_neg other, ih fun mem => h (List.mem_cons_of_mem _ mem)]

end OtDetection.PyLines
