import Mathlib.Data.List.Forall2
import Mathlib.Tactic.Common

/-! Length-framed decoding over an arbitrary alphabet. A decoder reads one frame
from the front of its input and says how many symbols it took, or fails; some
failures only ask for more input. `Incremental` states what a caller that reads
a growing buffer relies on, `framed` is the shape that guarantees it (a fixed
header that determines the size, then a body that sees exactly that many
symbols), and `streamLoop` is the loop that decodes frame after frame. -/

namespace OtDetection.LengthFraming

variable {α β ε : Type*}

/-- What a streaming caller relies on. `needed e` is the length a failure asks for,
or `none` when no further input can help. -/
structure Incremental (needed : ε → Option ℕ) (parse : List α → Except ε (β × ℕ)) : Prop where
  ok_append : ∀ b x f n, parse b = .ok (f, n) → parse (b ++ x) = .ok (f, n)
  error_append : ∀ b x e, parse b = .error e → needed e = none → parse (b ++ x) = .error e
  length_lt : ∀ b e k, parse b = .error e → needed e = some k → b.length < k
  still_incomplete : ∀ b x e k, parse b = .error e → needed e = some k →
    (b ++ x).length < k → ∃ e' k', parse (b ++ x) = .error e' ∧ needed e' = some k'
  needed_le : ∀ b x e k f n, parse b = .error e → needed e = some k →
    parse (b ++ x) = .ok (f, n) → k ≤ n

structure Progress (parse : List α → Except ε (β × ℕ)) : Prop where
  pos : ∀ b f n, parse b = .ok (f, n) → 0 < n
  le_length : ∀ b f n, parse b = .ok (f, n) → n ≤ b.length

/-! ## A header that determines the size -/

def framed (incomplete : ℕ → ε) (headerLen : ℕ) (total : List α → Except ε ℕ)
    (body : List α → Except ε β) (bytes : List α) : Except ε (β × ℕ) :=
  if bytes.length < headerLen then .error (incomplete headerLen)
  else
    match total (bytes.take headerLen) with
    | .error e => .error e
    | .ok size =>
      if bytes.length < size then .error (incomplete size)
      else
        match body (bytes.take size) with
        | .error e => .error e
        | .ok frame => .ok (frame, size)

/-- The side conditions under which `framed` is incremental: only the two length
checks ask for more input, and the size covers the header. -/
structure Shape (needed : ε → Option ℕ) (incomplete : ℕ → ε) (headerLen : ℕ)
    (total : List α → Except ε ℕ) (body : List α → Except ε β) : Prop where
  headerLen_pos : 0 < headerLen
  needed_incomplete : ∀ k, needed (incomplete k) = some k
  le_total : ∀ header size, total header = .ok size → headerLen ≤ size
  total_final : ∀ header e, total header = .error e → needed e = none
  body_final : ∀ bytes e, body bytes = .error e → needed e = none

section Framed

variable {needed : ε → Option ℕ} {incomplete : ℕ → ε} {headerLen : ℕ}
  {total : List α → Except ε ℕ} {body : List α → Except ε β}

theorem framed_eq_ok_iff {b : List α} {f : β} {n : ℕ} :
    framed incomplete headerLen total body b = .ok (f, n) ↔
      headerLen ≤ b.length ∧ total (b.take headerLen) = .ok n ∧ n ≤ b.length ∧
        body (b.take n) = .ok f := by
  unfold framed
  by_cases short : b.length < headerLen
  · simp [short, Nat.not_le.mpr short]
  · have long : headerLen ≤ b.length := Nat.not_lt.mp short
    rw [if_neg short]
    cases ht : total (b.take headerLen) with
    | error e => simp
    | ok size =>
      by_cases shortSize : b.length < size
      · simp only [shortSize, if_true, reduceCtorEq, false_iff, not_and]
        intro _ same fits
        cases same
        omega
      · simp only [shortSize, if_false, long, Except.ok.injEq, true_and]
        cases hb : body (b.take size) with
        | error e =>
          simp only [reduceCtorEq, false_iff, not_and]
          rintro rfl - h
          rw [hb] at h
          cases h
        | ok frame =>
          simp only [Except.ok.injEq, Prod.mk.injEq]
          constructor
          · rintro ⟨rfl, rfl⟩
            exact ⟨rfl, Nat.not_lt.mp shortSize, hb⟩
          · rintro ⟨rfl, -, h⟩
            rw [hb] at h
            exact ⟨Except.ok.inj h, rfl⟩

theorem framed_eq_error_iff {b : List α} {e : ε} :
    framed incomplete headerLen total body b = .error e ↔
      (b.length < headerLen ∧ incomplete headerLen = e) ∨
      (headerLen ≤ b.length ∧ total (b.take headerLen) = .error e) ∨
      (∃ n, headerLen ≤ b.length ∧ total (b.take headerLen) = .ok n ∧ b.length < n ∧
        incomplete n = e) ∨
      ∃ n, headerLen ≤ b.length ∧ total (b.take headerLen) = .ok n ∧ n ≤ b.length ∧
        body (b.take n) = .error e := by
  unfold framed
  by_cases short : b.length < headerLen
  · simp [short, Nat.not_le.mpr short]
  · have long : headerLen ≤ b.length := Nat.not_lt.mp short
    rw [if_neg short]
    simp only [short, long, false_and, false_or, true_and]
    cases ht : total (b.take headerLen) with
    | error e' => simp
    | ok size =>
      by_cases shortSize : b.length < size
      · simp [shortSize, Nat.not_le.mpr shortSize]
      · have longSize : size ≤ b.length := Nat.not_lt.mp shortSize
        cases hb : body (b.take size) <;> simp [shortSize, longSize, hb]

theorem framed_asks (shape : Shape needed incomplete headerLen total body) {b : List α} {e : ε}
    {k : ℕ} (h : framed incomplete headerLen total body b = .error e) (ask : needed e = some k) :
    b.length < k ∧ (k = headerLen ∨ headerLen ≤ b.length ∧ total (b.take headerLen) = .ok k) := by
  rcases framed_eq_error_iff.mp h with ⟨short, rfl⟩ | ⟨-, bad⟩ | ⟨n, long, size, short, rfl⟩ |
    ⟨n, -, -, -, bad⟩
  · rw [shape.needed_incomplete] at ask; cases ask
    exact ⟨short, .inl rfl⟩
  · rw [shape.total_final _ _ bad] at ask; cases ask
  · rw [shape.needed_incomplete] at ask; cases ask
    exact ⟨short, .inr ⟨long, size⟩⟩
  · rw [shape.body_final _ _ bad] at ask; cases ask

theorem framed_incremental (shape : Shape needed incomplete headerLen total body) :
    Incremental needed (framed incomplete headerLen total body) where
  ok_append := by
    intro b x f n h
    obtain ⟨long, size, fits, frame⟩ := framed_eq_ok_iff.mp h
    refine framed_eq_ok_iff.mpr ⟨?_, ?_, ?_, ?_⟩
    · simp only [List.length_append]; omega
    · rwa [List.take_append_of_le_length long]
    · simp only [List.length_append]; omega
    · rwa [List.take_append_of_le_length fits]
  error_append := by
    intro b x e h final
    rcases framed_eq_error_iff.mp h with ⟨-, rfl⟩ | ⟨long, bad⟩ | ⟨n, -, -, -, rfl⟩ |
      ⟨n, long, size, fits, bad⟩
    · rw [shape.needed_incomplete] at final; cases final
    · refine framed_eq_error_iff.mpr (.inr (.inl ⟨?_, ?_⟩))
      · simp only [List.length_append]; omega
      · rwa [List.take_append_of_le_length long]
    · rw [shape.needed_incomplete] at final; cases final
    · refine framed_eq_error_iff.mpr (.inr (.inr (.inr ⟨n, ?_, ?_, ?_, ?_⟩)))
      · simp only [List.length_append]; omega
      · rwa [List.take_append_of_le_length long]
      · simp only [List.length_append]; omega
      · rwa [List.take_append_of_le_length fits]
  length_lt := fun b e k h ask => (framed_asks shape h ask).1
  still_incomplete := by
    intro b x e k h ask less
    rcases (framed_asks shape h ask).2 with rfl | ⟨long, size⟩
    · exact ⟨_, _, framed_eq_error_iff.mpr (.inl ⟨less, rfl⟩), shape.needed_incomplete _⟩
    · refine ⟨_, _, framed_eq_error_iff.mpr (.inr (.inr (.inl ⟨k, ?_, ?_, less, rfl⟩))),
        shape.needed_incomplete _⟩
      · simp only [List.length_append]; omega
      · rwa [List.take_append_of_le_length long]
  needed_le := by
    intro b x e k f m h ask done
    obtain ⟨-, size', -, -⟩ := framed_eq_ok_iff.mp done
    rcases (framed_asks shape h ask).2 with rfl | ⟨long, size⟩
    · exact shape.le_total _ _ size'
    · -- The header is already complete, so the longer buffer announces the same size.
      rw [List.take_append_of_le_length long, size] at size'
      cases size'
      exact Nat.le_refl _

theorem framed_progress (shape : Shape needed incomplete headerLen total body) :
    Progress (framed incomplete headerLen total body) where
  pos := by
    intro b f n h
    obtain ⟨-, size, -, -⟩ := framed_eq_ok_iff.mp h
    exact Nat.lt_of_lt_of_le shape.headerLen_pos (shape.le_total _ _ size)
  le_length := by
    intro b f n h
    exact (framed_eq_ok_iff.mp h).2.2.1

end Framed

theorem parse_take {needed : ε → Option ℕ} {parse : List α → Except ε (β × ℕ)}
    (laws : Incremental needed parse) (progress : Progress parse) {b : List α} {f : β} {n : ℕ}
    (h : parse b = .ok (f, n)) : parse (b.take n) = .ok (f, n) := by
  have fits := progress.le_length b f n h
  have whole : b.take n ++ b.drop n = b := List.take_append_drop n b
  cases ht : parse (b.take n) with
  | ok p =>
    have again := laws.ok_append _ (b.drop n) p.1 p.2 ht
    rw [whole, h] at again
    cases again
    rfl
  | error e =>
    exfalso
    cases ask : needed e with
    | none =>
      have again := laws.error_append _ (b.drop n) e ht ask
      rw [whole, h] at again
      cases again
    | some k =>
      have less := laws.length_lt _ e k ht ask
      have enough := laws.needed_le _ (b.drop n) e k f n ht ask (by rw [whole, h])
      simp only [List.length_take] at less
      omega

/-! ## Decoding frame after frame -/

def streamLoop (parse : List α → Except ε (β × ℕ)) (bytes : List α) :
    (fuel offset : ℕ) → Option (List (Except ε β))
  | 0, _ => none
  | fuel + 1, offset =>
    if offset < bytes.length then
      match parse (bytes.drop offset) with
      | .ok (frame, consumed) =>
        (streamLoop parse bytes fuel (offset + consumed)).map (.ok frame :: ·)
      | .error e => some [.error e]
    else some []

/-- The same decoding as a relation between the octets left and what they yield. -/
inductive Decodes (parse : List α → Except ε (β × ℕ)) : List α → List (Except ε β) → Prop
  | done : Decodes parse [] []
  | frame {a : List α} {f : β} {n : ℕ} {out : List (Except ε β)} : a ≠ [] →
      parse a = .ok (f, n) → Decodes parse (a.drop n) out → Decodes parse a (.ok f :: out)
  | failed {a : List α} {e : ε} : a ≠ [] → parse a = .error e → Decodes parse a [.error e]

section Stream

variable {needed : ε → Option ℕ} {parse : List α → Except ε (β × ℕ)}

theorem streamLoop_decodes (bytes : List α) {fuel offset : ℕ} {out : List (Except ε β)}
    (h : streamLoop parse bytes fuel offset = some out) :
    Decodes parse (bytes.drop offset) out := by
  induction fuel generalizing offset out with
  | zero => cases h
  | succ fuel ih =>
    unfold streamLoop at h
    split at h
    · rename_i more
      have nonempty : bytes.drop offset ≠ [] := by
        rw [ne_eq, List.drop_eq_nil_iff]; omega
      split at h
      · rename_i frame consumed hp
        obtain ⟨rest, hrest, rfl⟩ := Option.map_eq_some_iff.mp h
        refine .frame nonempty hp ?_
        rw [List.drop_drop]
        exact ih hrest
      · rename_i e hp
        cases h
        exact .failed nonempty hp
    · rename_i atEnd
      cases h
      rw [List.drop_eq_nil_of_le (by omega)]
      exact .done

theorem streamLoop_terminates (progress : Progress parse) (bytes : List α) {fuel offset : ℕ}
    (h : bytes.length - offset < fuel) : ∃ out, streamLoop parse bytes fuel offset = some out := by
  induction fuel generalizing offset with
  | zero => omega
  | succ fuel ih =>
    unfold streamLoop
    by_cases more : offset < bytes.length
    · rw [if_pos more]
      cases hp : parse (bytes.drop offset) with
      | error e => exact ⟨_, rfl⟩
      | ok p =>
        have moved := progress.pos _ p.1 p.2 hp
        obtain ⟨out, hout⟩ := ih (show bytes.length - (offset + p.2) < fuel by omega)
        exact ⟨.ok p.1 :: out, by simp [hout]⟩
    · exact ⟨[], by rw [if_neg more]⟩

theorem Decodes.unique {a : List α} {out out' : List (Except ε β)} (h : Decodes parse a out)
    (h' : Decodes parse a out') : out = out' := by
  induction h generalizing out' with
  | done =>
    cases h' with
    | done => rfl
    | frame hne => exact absurd rfl hne
    | failed hne => exact absurd rfl hne
  | frame hne hp _ ih =>
    cases h' with
    | done => exact absurd rfl hne
    | frame _ hp' rest =>
      rw [hp] at hp'
      cases hp'
      rw [ih rest]
    | failed _ hp' =>
      rw [hp] at hp'
      cases hp'
  | failed hne hp =>
    cases h' with
    | done => exact absurd rfl hne
    | frame _ hp' =>
      rw [hp] at hp'
      cases hp'
    | failed _ hp' =>
      rw [hp] at hp'
      cases hp'
      rfl

theorem Decodes.of_ok {a : List α} {out : List (Except ε β)} {f : β} {n : ℕ}
    (h : Decodes parse a out) (hne : a ≠ []) (hp : parse a = .ok (f, n)) :
    ∃ rest, out = .ok f :: rest ∧ Decodes parse (a.drop n) rest := by
  cases h with
  | done => exact absurd rfl hne
  | failed _ bad => rw [hp] at bad; cases bad
  | frame _ again rest =>
    rw [hp] at again
    cases again
    exact ⟨_, rfl, rest⟩

def IsOutput (out : List (Except ε β)) (frames : List β) (failure : Option ε) : Prop :=
  out = frames.map Except.ok ++ failure.toList.map Except.error

theorem Decodes.split (laws : Incremental needed parse) (progress : Progress parse)
    {a : List α} {out : List (Except ε β)} (h : Decodes parse a out) :
    ∃ (chunks : List (List α)) (frames : List β) (tail : List α) (failure : Option ε),
      a = chunks.flatten ++ tail ∧ IsOutput out frames failure ∧
      List.Forall₂ (fun chunk frame => parse chunk = .ok (frame, chunk.length)) chunks frames ∧
      (tail = [] ↔ failure = none) := by
  induction h with
  | done => exact ⟨[], [], [], none, rfl, rfl, .nil, by simp⟩
  | @frame a f n out hne hp _ ih =>
    obtain ⟨chunks, frames, tail, failure, whole, hout, hframes, hend⟩ := ih
    have fits := progress.le_length _ _ _ hp
    refine ⟨a.take n :: chunks, f :: frames, tail, failure, ?_, ?_, .cons ?_ hframes, hend⟩
    · rw [List.flatten_cons, List.append_assoc, ← whole, List.take_append_drop]
    · rw [IsOutput, hout]; rfl
    · rw [List.length_take, Nat.min_eq_left fits]
      exact parse_take laws progress hp
  | @failed a e hne hp => exact ⟨[], [], a, some e, rfl, rfl, .nil, by simp [hne]⟩

theorem Decodes.append (laws : Incremental needed parse) (progress : Progress parse)
    {a b : List α} {out outAll : List (Except ε β)} (h : Decodes parse a out)
    (hall : Decodes parse (a ++ b) outAll) :
    (∀ (i : ℕ) (f : β), out[i]? = some (.ok f) → outAll[i]? = some (.ok f)) ∧
    ((∀ e, .error e ∉ out) → ∀ outB, Decodes parse b outB → outAll = out ++ outB) := by
  induction h generalizing outAll with
  | done => exact ⟨by simp, fun _ outB hb => hall.unique hb⟩
  | @frame a f n out hne hp _ ih =>
    have fits := progress.le_length _ _ _ hp
    have hp' := laws.ok_append a b f n hp
    have dropped : (a ++ b).drop n = a.drop n ++ b := List.drop_append_of_le_length fits
    obtain ⟨rest, rfl, hrest⟩ := hall.of_ok (by simp [hne]) hp'
    rw [dropped] at hrest
    obtain ⟨stable, whole⟩ := ih hrest
    constructor
    · intro i g hg
      cases i with
      | zero => simpa using hg
      | succ i => simpa using stable i g (by simpa using hg)
    · intro clean outB hb
      rw [whole (fun e he => clean e (List.mem_cons_of_mem _ he)) outB hb]
      rfl
  | @failed a e hne hp =>
    constructor
    · intro i f hf
      cases i <;> simp at hf
    · intro clean
      exact absurd (List.mem_singleton.mpr rfl) (clean e)

end Stream

/-! ## The laws of a stream decoder -/

/-- No frame is lost, duplicated or invented, whatever arrives later. -/
structure StreamLaws (parse : List α → Except ε (β × ℕ))
    (stream : List α → Option (List (Except ε β))) : Prop where
  terminates : ∀ a, ∃ out, stream a = some out
  covers : ∀ a out, stream a = some out →
    ∃ (chunks : List (List α)) (frames : List β) (tail : List α) (failure : Option ε),
      a = chunks.flatten ++ tail ∧ IsOutput out frames failure ∧
      List.Forall₂ (fun chunk frame => parse chunk = .ok (frame, chunk.length)) chunks frames ∧
      (tail = [] ↔ failure = none)
  stable : ∀ a b out outAll, stream a = some out → stream (a ++ b) = some outAll →
    ∀ (i : ℕ) (f : β), out[i]? = some (.ok f) → outAll[i]? = some (.ok f)
  append : ∀ a b out outB, stream a = some out → (∀ e, .error e ∉ out) →
    stream b = some outB → stream (a ++ b) = some (out ++ outB)

def streamOf (parse : List α → Except ε (β × ℕ)) (bytes : List α) :
    Option (List (Except ε β)) :=
  streamLoop parse bytes (bytes.length + 1) 0

theorem streamOf_decodes {parse : List α → Except ε (β × ℕ)} {a : List α}
    {out : List (Except ε β)} (h : streamOf parse a = some out) : Decodes parse a out :=
  streamLoop_decodes a h

theorem streamOf_terminates {parse : List α → Except ε (β × ℕ)} (progress : Progress parse)
    (a : List α) : ∃ out, streamOf parse a = some out :=
  streamLoop_terminates progress a (by omega)

theorem Decodes.flatten {needed : ε → Option ℕ} {parse : List α → Except ε (β × ℕ)}
    (laws : Incremental needed parse) (progress : Progress parse) {chunks : List (List α)}
    {frames : List β}
    (each : List.Forall₂ (fun chunk frame => parse chunk = .ok (frame, chunk.length))
      chunks frames) : Decodes parse chunks.flatten (frames.map .ok) := by
  induction each with
  | nil => exact .done
  | @cons chunk frame chunks frames parsed _ ih =>
    have nonempty : chunk ≠ [] := List.ne_nil_of_length_pos (progress.pos _ _ _ parsed)
    rw [List.flatten_cons, List.map_cons]
    refine .frame (by simp [nonempty]) (laws.ok_append _ chunks.flatten _ _ parsed) ?_
    rw [List.drop_left]
    exact ih

theorem streamOf_flatten {needed : ε → Option ℕ} {parse : List α → Except ε (β × ℕ)}
    (laws : Incremental needed parse) (progress : Progress parse) {chunks : List (List α)}
    {frames : List β}
    (each : List.Forall₂ (fun chunk frame => parse chunk = .ok (frame, chunk.length))
      chunks frames) : streamOf parse chunks.flatten = some (frames.map .ok) := by
  obtain ⟨out, decoded⟩ := streamOf_terminates progress chunks.flatten
  rw [decoded, (streamOf_decodes decoded).unique (.flatten laws progress each)]

theorem streamOf_laws {needed : ε → Option ℕ} {parse : List α → Except ε (β × ℕ)}
    (laws : Incremental needed parse) (progress : Progress parse) :
    StreamLaws parse (streamOf parse) where
  terminates := streamOf_terminates progress
  covers a out h := (streamOf_decodes h).split laws progress
  stable a b out outAll h hall :=
    ((streamOf_decodes h).append laws progress (streamOf_decodes hall)).1
  append a b out outB h clean hb := by
    obtain ⟨outAll, hall⟩ := streamOf_terminates progress (a ++ b)
    rw [hall, ((streamOf_decodes h).append laws progress (streamOf_decodes hall)).2 clean outB
      (streamOf_decodes hb)]

end OtDetection.LengthFraming
