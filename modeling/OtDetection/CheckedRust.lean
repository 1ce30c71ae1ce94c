import OtDetection.Octets
import OtDetection.LengthFraming

/-! Rust with its panics. Indexing and slicing are partial, arithmetic on machine
words is checked, and a conversion that would fail counts as a failure too. A
lemma per operation says when it succeeds; the loop of a stream decoder is
carried over to this setting once, for any decoder. -/

namespace OtDetection.CheckedRust
open Octets LengthFraming

inductive Panic
  | indexOutOfBounds
  | sliceOutOfBounds
  | overflow
  | conversion
  | diverged
  deriving DecidableEq, Repr

abbrev Checked := Except Panic

variable {α β ε : Type}

/-! ## Operations -/

def index (bytes : List α) (i : ℕ) : Checked α :=
  match bytes[i]? with
  | some b => .ok b
  | none => .error .indexOutOfBounds

/-- `&bytes[first..last]`. -/
def sliceRange (bytes : List α) (first last : ℕ) : Checked (List α) :=
  match getSlice bytes first last with
  | some part => .ok part
  | none => .error .sliceOutOfBounds

/-- `&bytes[first..]`. -/
def sliceFrom (bytes : List α) (first : ℕ) : Checked (List α) :=
  if first ≤ bytes.length then .ok (bytes.drop first) else .error .sliceOutOfBounds

section Word

variable (maxUsize : ℕ)

def add (a b : ℕ) : Checked ℕ := if a + b ≤ maxUsize then .ok (a + b) else .error .overflow

def mul (a b : ℕ) : Checked ℕ := if a * b ≤ maxUsize then .ok (a * b) else .error .overflow

def sub (a b : ℕ) : Checked ℕ := if b ≤ a then .ok (a - b) else .error .overflow

/-- `usize::checked_add`. -/
def checkedAdd (a b : ℕ) : Option ℕ := if a + b ≤ maxUsize then some (a + b) else none

/-- `value as usize` keeps the low bits of a word. -/
def asUsize (value : ℕ) : ℕ := value % (maxUsize + 1)

def checkedDivCeil (n d : ℕ) : Checked ℕ :=
  if d = 0 then .error .overflow
  else if n % d > 0 then add maxUsize (n / d) 1
  else .ok (n / d)

end Word

def shiftRight {w : ℕ} (x : BitVec w) (n : ℕ) : Checked (BitVec w) :=
  if n < w then .ok (x >>> n) else .error .overflow

/-- `u16::from_le_bytes(part.try_into().ok()?)`. -/
def u16FromSlice (part : List U8) : Checked U16 :=
  match part with
  | [a, b] => .ok (u16FromLe a b)
  | _ => .error .conversion

/-- `u32::from_le_bytes(part.try_into().ok()?)`. -/
def u32FromSlice (part : List U8) : Checked U32 :=
  match part with
  | [a, b, c, d] => .ok (u32FromLe a b c d)
  | _ => .error .conversion

/-! ## When they succeed -/

@[simp] theorem ok_bind (a : α) (f : α → Checked β) : (Except.ok a : Checked α) >>= f = f a := rfl

@[simp] theorem pure_eq_ok (a : α) : (pure a : Checked α) = .ok a := rfl

theorem index_eq {bytes : List U8} {i : ℕ} (h : i < bytes.length) :
    index bytes i = .ok (octet bytes i) := by
  rw [index, getElem?_eq_octet h]

theorem sliceRange_eq {bytes : List α} {first last : ℕ} (order : first ≤ last)
    (fits : last ≤ bytes.length) : sliceRange bytes first last = .ok (slice bytes first last) := by
  rw [sliceRange, getSlice, if_pos ⟨order, fits⟩]

theorem sliceFrom_eq {bytes : List α} {first : ℕ} (h : first ≤ bytes.length) :
    sliceFrom bytes first = .ok (bytes.drop first) := if_pos h

theorem add_eq {maxUsize a b : ℕ} (h : a + b ≤ maxUsize) : add maxUsize a b = .ok (a + b) :=
  if_pos h

theorem mul_eq {maxUsize a b : ℕ} (h : a * b ≤ maxUsize) : mul maxUsize a b = .ok (a * b) :=
  if_pos h

theorem sub_eq {a b : ℕ} (h : b ≤ a) : sub a b = .ok (a - b) := if_pos h

theorem asUsize_eq {maxUsize value : ℕ} (h : value ≤ maxUsize) : asUsize maxUsize value = value :=
  Nat.mod_eq_of_lt (by omega)

theorem shiftRight_eq {w : ℕ} {x : BitVec w} {n : ℕ} (h : n < w) : shiftRight x n = .ok (x >>> n) :=
  if_pos h

theorem u16FromSlice_eq {part : List U8} (h : part.length = 2) :
    u16FromSlice part = .ok (u16FromLe (octet part 0) (octet part 1)) := by
  match part, h with
  | [_, _], _ => rfl

theorem u32FromSlice_eq {part : List U8} (h : part.length = 4) :
    u32FromSlice part =
      .ok (u32FromLe (octet part 0) (octet part 1) (octet part 2) (octet part 3)) := by
  match part, h with
  | [_, _, _, _], _ => rfl

theorem getSlice_length {bytes part : List α} {first last : ℕ}
    (h : getSlice bytes first last = some part) : part.length = last - first := by
  unfold getSlice at h
  split at h
  · rename_i fits
    cases h
    exact slice_length bytes fits.2
  · cases h

theorem checkedAdd_bind_getSlice {maxUsize a b : ℕ} {bytes : List α}
    (fits : bytes.length ≤ maxUsize) :
    (checkedAdd maxUsize a b).bind (getSlice bytes a) = getSlice bytes a (a + b) := by
  unfold checkedAdd
  split
  · rfl
  · rw [getSlice, if_neg (by omega)]
    rfl

theorem foldlM_ok {f : β → α → Checked β} {g : β → α → β}
    (h : ∀ b a, f b a = .ok (g b a)) (as : List α) (b : β) :
    as.foldlM f b = .ok (as.foldl g b) := by
  induction as generalizing b with
  | nil => rfl
  | cons a as ih => rw [List.foldlM_cons, h, ok_bind, ih, List.foldl_cons]

theorem mapM_ok {f : α → Checked β} {g : α → β} (h : ∀ a, f a = .ok (g a)) (as : List α) :
    as.mapM f = .ok (as.map g) := by
  induction as with
  | nil => rfl
  | cons a as ih => rw [List.mapM_cons, h, ok_bind, ih]; rfl

/-! ## The question mark -/

theorem bind_mk_ok (value : Option α) (f : α → OptionT Checked β) :
    (OptionT.mk (.ok value) : OptionT Checked α) >>= f =
      match value with
      | none => OptionT.mk (.ok none)
      | some a => f a := by
  cases value <;> rfl

/-! ## Decoding frame after frame -/

def streamLoop (maxUsize : ℕ) (parse : List α → Checked (Except ε (β × ℕ))) (bytes : List α) :
    (fuel offset : ℕ) → Checked (List (Except ε β))
  | 0, _ => .error .diverged
  | fuel + 1, offset =>
    if offset < bytes.length then do
      let rest ← sliceFrom bytes offset
      match ← parse rest with
      | .ok (frame, consumed) =>
        let offset ← add maxUsize offset consumed
        let later ← streamLoop maxUsize parse bytes fuel offset
        pure (.ok frame :: later)
      | .error e => pure [.error e]
    else pure []

def streamOf (maxUsize : ℕ) (parse : List α → Checked (Except ε (β × ℕ))) (bytes : List α) :
    Checked (List (Except ε β)) :=
  streamLoop maxUsize parse bytes (bytes.length + 1) 0

theorem streamLoop_eq {maxUsize : ℕ} {parse : List α → Checked (Except ε (β × ℕ))}
    {total : List α → Except ε (β × ℕ)} (progress : Progress total) {bytes : List α}
    (fits : bytes.length ≤ maxUsize)
    (agree : ∀ offset, parse (bytes.drop offset) = .ok (total (bytes.drop offset)))
    {fuel offset : ℕ} (enough : bytes.length - offset < fuel) :
    ∃ out, streamLoop maxUsize parse bytes fuel offset = .ok out ∧
      LengthFraming.streamLoop total bytes fuel offset = some out := by
  induction fuel generalizing offset with
  | zero => omega
  | succ fuel ih =>
    rw [streamLoop, LengthFraming.streamLoop]
    by_cases more : offset < bytes.length
    · rw [if_pos more, if_pos more, sliceFrom_eq (by omega), ok_bind, agree, ok_bind]
      cases result : total (bytes.drop offset) with
      | error e => exact ⟨_, rfl, rfl⟩
      | ok p =>
        obtain ⟨frame, consumed⟩ := p
        have moved := progress.pos _ _ _ result
        have inside := progress.le_length _ _ _ result
        rw [List.length_drop] at inside
        obtain ⟨out, checked, plain⟩ := ih (show bytes.length - (offset + consumed) < fuel by omega)
        refine ⟨.ok frame :: out, ?_, ?_⟩
        · simp only [add_eq (show offset + consumed ≤ maxUsize by omega), ok_bind, checked,
            pure_eq_ok]
        · simp only [plain, Option.map_some]
    · rw [if_neg more, if_neg more]
      exact ⟨[], rfl, rfl⟩

theorem streamOf_eq {maxUsize : ℕ} {parse : List α → Checked (Except ε (β × ℕ))}
    {total : List α → Except ε (β × ℕ)} (progress : Progress total) {bytes : List α}
    (fits : bytes.length ≤ maxUsize)
    (agree : ∀ bytes, bytes.length ≤ maxUsize → parse bytes = .ok (total bytes)) :
    ∃ out, streamOf maxUsize parse bytes = .ok out ∧
      LengthFraming.streamOf total bytes = some out :=
  streamLoop_eq progress fits
    (fun offset => agree _ (by rw [List.length_drop]; omega)) (by omega)

end OtDetection.CheckedRust
