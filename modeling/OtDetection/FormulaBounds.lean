import OtDetection.ShortCircuit

/-! What is known of a formula from what is known of its leaves. Of a test it may be known that it
does not fail, and also its answer. A conjunction and a disjunction join what is known of their
arguments in their order, since an argument behind one that may fail may not be reached. -/

namespace OtDetection.ShortCircuit

inductive Known
  | nothing
  | returns
  | answers (b : Bool)
  deriving DecidableEq

namespace Known

variable {ε : Type*} {x y : Except ε Bool}

def Holds : Known → Except ε Bool → Prop
  | nothing, _ => True
  | returns, x => ∃ b, x = .ok b
  | answers b, x => x = .ok b

/-- What is known of either of two tests. -/
def join : Known → Known → Known
  | nothing, _ | _, nothing => nothing
  | answers b, answers c => if b = c then answers b else returns
  | _, _ => returns

theorem holds_join_left {known other : Known} (holds : known.Holds x) : (known.join other).Holds x := by
  cases known with
  | nothing => trivial
  | returns =>
    cases other with
    | nothing => trivial
    | returns | answers _ => exact holds
  | answers b =>
    cases other with
    | nothing => trivial
    | returns => exact ⟨b, holds⟩
    | answers c =>
      rw [join]
      split_ifs
      · exact holds
      · exact ⟨b, holds⟩

theorem join_comm (known other : Known) : known.join other = other.join known := by
  cases known with
  | nothing => cases other <;> rfl
  | returns => cases other <;> rfl
  | answers b =>
    cases other with
    | nothing | returns => rfl
    | answers c =>
      rw [join, join]
      split_ifs with same other' other'
      · rw [same]
      · exact absurd same.symm other'
      · exact absurd other'.symm same
      · rfl

theorem holds_join_right {known other : Known} (holds : other.Holds x) :
    (known.join other).Holds x := join_comm other known ▸ holds_join_left holds

def joinAll : List Known → Known
  | [] => nothing
  | [known] => known
  | known :: others => known.join (joinAll others)

theorem holds_joinAll {known : Known} {list : List Known} (mem : known ∈ list)
    (holds : known.Holds x) : (joinAll list).Holds x := by
  induction list with
  | nil => cases mem
  | cons first list ih =>
    cases list with
    | nil => rwa [joinAll, ← List.mem_singleton.mp mem]
    | cons next list =>
      rw [joinAll]
      · rcases List.mem_cons.mp mem with rfl | later
        · exact holds_join_left holds
        · exact holds_join_right (ih later)
      · exact List.cons_ne_nil _ _

/-- A test behind one that goes on with `go`, as a conjunction goes on with true. -/
def andThen (go : Bool) : Known → Known → Known
  | nothing, _ => nothing
  | answers b, next => if b = go then next else answers b
  | returns, answers c => if c = go then returns else answers c
  | returns, returns => returns
  | returns, nothing => nothing

theorem holds_andThen {go : Bool} {known next : Known} (first : known.Holds x) (second : next.Holds y) :
    (known.andThen go next).Holds (do if (← x) = go then y else return !go) := by
  cases known with
  | nothing => trivial
  | answers b =>
    obtain rfl : x = .ok b := first
    rw [andThen]
    by_cases goes : b = go
    · rw [if_pos goes]
      change next.Holds (if b = go then y else .ok (!go))
      rwa [if_pos goes]
    · rw [if_neg goes]
      change (if b = go then y else .ok (!go)) = .ok b
      rw [if_neg goes, Bool.eq_not.mpr goes]
  | returns =>
    obtain ⟨b, rfl⟩ := first
    change (returns.andThen go next).Holds (if b = go then y else .ok (!go))
    cases next with
    | nothing => trivial
    | returns =>
      rw [andThen]
      split_ifs
      · exact second
      · exact ⟨_, rfl⟩
    | answers c =>
      obtain rfl : y = .ok c := second
      rw [andThen]
      by_cases same : c = go
      · rw [if_pos same]
        split_ifs
        · exact ⟨_, rfl⟩
        · exact ⟨_, rfl⟩
      · rw [if_neg same]
        split_ifs
        · rfl
        · change Except.ok (!go) = .ok c
          rw [Bool.eq_not.mpr same]

def not : Known → Known
  | answers b => answers (!b)
  | known => known

theorem holds_not {known : Known} (holds : known.Holds x) : known.not.Holds (do return !(← x)) := by
  cases known with
  | nothing => trivial
  | returns =>
    obtain ⟨b, rfl⟩ := holds
    exact ⟨!b, rfl⟩
  | answers b =>
    obtain rfl : x = .ok b := holds
    rfl

end Known

mutual

def Formula.known {α : Type*} (leaf : α → Known) : Formula α → Known
  | .leaf a => leaf a
  | .all args => knownAll leaf args
  | .any args => knownAny leaf args
  | .not arg => (arg.known leaf).not

def knownAll {α : Type*} (leaf : α → Known) : List (Formula α) → Known
  | [] => .answers true
  | arg :: args => (arg.known leaf).andThen true (knownAll leaf args)

def knownAny {α : Type*} (leaf : α → Known) : List (Formula α) → Known
  | [] => .answers false
  | arg :: args => (arg.known leaf).andThen false (knownAny leaf args)

end

variable {α ε : Type*} {leaf : α → Known} {f : α → Except ε Bool}

/-- What the leaves make known of a formula holds of it. -/
theorem holds_known {t : Formula α} (sound : ∀ a, (leaf a).Holds (f a)) :
    (t.known leaf).Holds (t.eval f) := by
  induction t with
  | leaf a => exact sound a
  | all args ih =>
    rw [Formula.known, Formula.eval]
    induction args with
    | nil => rfl
    | cons arg args later =>
      obtain ⟨first, others⟩ := List.forall_mem_cons.mp ih
      rw [knownAll, evalAll]
      exact Known.holds_andThen first (later others)
  | any args ih =>
    rw [Formula.known, Formula.eval]
    induction args with
    | nil => rfl
    | cons arg args later =>
      obtain ⟨first, others⟩ := List.forall_mem_cons.mp ih
      have goes : evalAny f (arg :: args) =
          (do if (← arg.eval f) = false then evalAny f args else return !false) := by
        rw [evalAny]
        cases arg.eval f with
        | error e => rfl
        | ok b =>
          cases b with
          | true => rfl
          | false => rfl
      rw [knownAny, goes]
      exact Known.holds_andThen first (later others)
  | not arg ih => exact Known.holds_not ih

end OtDetection.ShortCircuit
