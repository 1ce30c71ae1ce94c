import OtDetection.PyText
import Mathlib.Data.List.AList
import Mathlib.Data.List.Dedup
import Mathlib.Data.List.Lex
import Mathlib.Data.List.Sort

/-! The Loki stream of a rule, kept in the attributes of the rule object. A correlation gives
the stream to the rules that it references, which other correlations and their own
conversion share, so each call is followed on the attributes of all of them. -/

namespace OtDetection.LokiRouting
open PyText

/-- Rule objects by their identity: single-event rules with the service of their log source,
and correlations over them, with `none` for a reference that is not resolved. -/
structure Rules (Single Correlation : Type) where
  service : Single → Option Text
  title : Correlation → Text
  referencedRules : Correlation → List (Option Single)

inductive Rule (Single Correlation : Type)
  | single (rule : Single)
  | correlation (rule : Correlation)
  deriving DecidableEq

inductive Error
  | correlationLogsourceError (message : Text)
  deriving DecidableEq

abbrev Attributes (Single Correlation : Type) :=
  Rule Single Correlation → AList fun _ : Text => PyValue

def logsourceAttribute : Text := codes "logsource_loki_selection"

def selector (service : Text) : Text :=
  codes "\x7bjob=~\".+\", service=\"" ++ (service ++ codes "\"\x7d")

def serviceText (service : Option Text) : Text := service.getD (codes "None")

section Apply

variable {Single Correlation : Type} [DecidableEq Single] [DecidableEq Correlation]

def setSelector (service : Text) (attributes : Attributes Single Correlation) (rule : Single) :
    Attributes Single Correlation :=
  Function.update attributes (.single rule)
    ((attributes (.single rule)).insert logsourceAttribute (.str (selector service)))

variable (rules : Rules Single Correlation)

def unresolvedError (rule : Correlation) : Error :=
  .correlationLogsourceError (codes "correlation rule '" ++ (rules.title rule ++ (codes
    "' has unresolved rule references; " ++ codes
    "load the whole ruleset before converting so references resolve")))

def streamsError (rule : Correlation) (services : List (Option Text)) : Error :=
  let listed := join (codes ", ") ((services.map serviceText).insertionSort (· ≤ ·))
  .correlationLogsourceError (codes "correlation rule '" ++ (rules.title rule ++ (codes
    "' references " ++ (natText services.length ++ (codes " streams (" ++ (listed ++ (codes
    "); a Loki stream selector cannot be derived from more than one, " ++ codes
    "and guessing would let the subquery match every stream")))))))

def serviceError (rule : Correlation) : Error :=
  .correlationLogsourceError (codes "correlation rule '" ++ (rules.title rule ++ (codes
    "' references rules without a logsource " ++ codes
    "service, so no Loki stream selector can be derived")))

def applyToReferencedRules (attributes : Attributes Single Correlation) (rule : Correlation) :
    Attributes Single Correlation × Except Error Unit :=
  let referenced := rules.referencedRules rule
  if referenced = [] ∨ referenced.any Option.isNone then
    (attributes, .error (unresolvedError rules rule))
  else
    -- A set has each service once.
    match ((referenced.filterMap id).map rules.service).dedup with
    | [some service] =>
      if service = [] then (attributes, .error (serviceError rules rule))
      else ((referenced.filterMap id).foldl (setSelector service) attributes, .ok ())
    | [none] => (attributes, .error (serviceError rules rule))
    | services => (attributes, .error (streamsError rules rule services))

def apply (attributes : Attributes Single Correlation) :
    Rule Single Correlation → Attributes Single Correlation × Except Error Unit
  | .correlation rule => applyToReferencedRules rules attributes rule
  | .single rule =>
    match rules.service rule with
    | none => (attributes, .ok ())
    | some service =>
      if service = [] then (attributes, .ok ())
      else (setSelector service attributes rule, .ok ())

/-- The attributes after some calls, whether they raised or not. -/
def run (attributes : Attributes Single Correlation) (calls : List (Rule Single Correlation)) :
    Attributes Single Correlation :=
  calls.foldl (fun attributes rule => (apply rules attributes rule).1) attributes

end Apply

/-! ## What a call does -/

section Rules

variable {Single Correlation : Type} (rules : Rules Single Correlation)

/-- The references of the correlation share the service. -/
structure Shares (rule : Correlation) (service : Text) : Prop where
  references : rules.referencedRules rule ≠ []
  resolved : ∀ reference ∈ rules.referencedRules rule,
    ∃ single, reference = some single ∧ rules.service single = some service
  nonempty : service ≠ []

def Sets : Rule Single Correlation → Single → Prop
  | .single rule, single => single = rule ∧ ∃ service, rules.service rule = some service ∧ service ≠ []
  | .correlation rule, single =>
    some single ∈ rules.referencedRules rule ∧ ∃ service, Shares rules rule service

def routed (attributes : Attributes Single Correlation) (single : Single) :
    AList fun _ : Text => PyValue :=
  (attributes (.single single)).insert logsourceAttribute
    (.str (selector ((rules.service single).getD [])))

variable {rules}

theorem dedup_eq_singleton_iff {α : Type} [DecidableEq α] {items : List α} {a : α} :
    items.dedup = [a] ↔ items ≠ [] ∧ ∀ b ∈ items, b = a := by
  constructor
  · intro single
    refine ⟨?_, fun b mem => ?_⟩
    · rintro rfl
      cases single
    · rw [← List.mem_dedup, single] at mem
      exact List.mem_singleton.mp mem
  · rintro ⟨some, same⟩
    rw [List.eq_replicate_of_mem same, List.replicate_dedup]
    exact fun none => some (List.length_eq_zero_iff.mp none)

theorem Shares.services {rule : Correlation} {service : Text}
    (shares : Shares rules rule service) :
    (((rules.referencedRules rule).filterMap id).map rules.service).dedup = [some service] := by
  rw [dedup_eq_singleton_iff, List.forall_mem_map]
  constructor
  · obtain ⟨reference, mem⟩ := List.exists_mem_of_ne_nil _ shares.references
    obtain ⟨single, rfl, -⟩ := shares.resolved reference mem
    refine List.ne_nil_of_mem (List.mem_map_of_mem (a := single) ?_)
    exact List.mem_filterMap.mpr ⟨some single, mem, rfl⟩
  · intro single mem
    obtain ⟨reference, inside, rfl⟩ := List.mem_filterMap.mp mem
    obtain ⟨single', same, served⟩ := shares.resolved _ inside
    rw [Option.some.inj same, served]

theorem Sets.service {call : Rule Single Correlation} {single : Single}
    (set : Sets rules call single) :
    ∃ service, rules.service single = some service ∧ service ≠ [] := by
  cases call with
  | single rule =>
    obtain ⟨rfl, served⟩ := set
    exact served
  | correlation rule =>
    obtain ⟨mem, service, shares⟩ := set
    obtain ⟨single', same, own⟩ := shares.resolved _ mem
    rw [Option.some.inj same]
    exact ⟨service, own, shares.nonempty⟩

/-- Exactly the rules in the set got their own stream. -/
structure Routed (rules : Rules Single Correlation) (chosen : Single → Prop)
    (before after : Attributes Single Correlation) : Prop where
  given : ∀ single, chosen single → after (.single single) = routed rules before single
  kept : ∀ single, ¬ chosen single → after (.single single) = before (.single single)
  correlations : ∀ rule, after (.correlation rule) = before (.correlation rule)

theorem Routed.none {chosen : Single → Prop} (empty : ∀ single, ¬ chosen single)
    (attributes : Attributes Single Correlation) : Routed rules chosen attributes attributes where
  given single mem := absurd mem (empty single)
  kept _ _ := rfl
  correlations _ := rfl

theorem Routed.trans {first second : Single → Prop}
    {before middle after : Attributes Single Correlation}
    (left : Routed rules first before middle) (right : Routed rules second middle after) :
    Routed rules (fun single => first single ∨ second single) before after where
  given single mem := by
    by_cases later : second single
    · rw [right.given single later, routed, routed]
      by_cases earlier : first single
      · rw [left.given single earlier, routed, AList.insert_insert]
      · rw [left.kept single earlier]
    · rw [right.kept single later, left.given single (mem.resolve_right later)]
  kept single apart := by
    obtain ⟨earlier, later⟩ := not_or.mp apart
    rw [right.kept single later, left.kept single earlier]
  correlations rule := by rw [right.correlations, left.correlations]

theorem Routed.of_iff {first second : Single → Prop} (same : ∀ single, first single ↔ second single)
    {before after : Attributes Single Correlation} (calls : Routed rules first before after) :
    Routed rules second before after := by
  rwa [← funext fun single => propext (same single)]

end Rules

section Calls

variable {Single Correlation : Type} [DecidableEq Single] [DecidableEq Correlation]
variable {rules : Rules Single Correlation}

theorem apply_shared {rule : Correlation} {service : Text} (shares : Shares rules rule service)
    (attributes : Attributes Single Correlation) :
    apply rules attributes (.correlation rule) =
      (((rules.referencedRules rule).filterMap id).foldl (setSelector service) attributes,
        .ok ()) := by
  have resolved : ¬ (rules.referencedRules rule = [] ∨
      (rules.referencedRules rule).any Option.isNone = true) := by
    rw [List.any_eq_true]
    rintro (none | ⟨reference, mem, unresolved⟩)
    · exact shares.references none
    · obtain ⟨single, rfl, -⟩ := shares.resolved reference mem
      cases unresolved
  rw [apply, applyToReferencedRules, if_neg resolved, shares.services]
  exact if_neg shares.nonempty

theorem apply_refused {rule : Correlation} (apart : ¬ ∃ service, Shares rules rule service)
    (attributes : Attributes Single Correlation) :
    ∃ message, apply rules attributes (.correlation rule) =
      (attributes, .error (.correlationLogsourceError message)) := by
  rw [apply, applyToReferencedRules]
  split
  · exact ⟨_, rfl⟩
  · rename_i resolved
    rw [not_or, List.any_eq_true] at resolved
    split
    · rename_i service services
      by_cases unnamed : service = []
      · rw [if_pos unnamed]
        exact ⟨_, rfl⟩
      · refine absurd ⟨service, resolved.1, fun reference mem => ?_, unnamed⟩ apart
        cases reference with
        | none => exact absurd ⟨none, mem, rfl⟩ resolved.2
        | some single =>
          refine ⟨single, rfl, (dedup_eq_singleton_iff.mp services).2 _ (List.mem_map_of_mem ?_)⟩
          exact List.mem_filterMap.mpr ⟨some single, mem, rfl⟩
    · exact ⟨_, rfl⟩
    · exact ⟨_, rfl⟩

theorem setSelector_routed {single : Single} {service : Text}
    (own : rules.service single = some service) (attributes : Attributes Single Correlation) :
    Routed rules (· = single) attributes (setSelector service attributes single) where
  given other same := by
    subst same
    rw [setSelector, Function.update_self, routed, own]
    rfl
  kept other apart := by
    rw [setSelector, Function.update_of_ne fun same => apart (Rule.single.inj same)]
  correlations rule := by rw [setSelector, Function.update_of_ne (by rintro ⟨⟩)]

theorem foldl_setSelector_routed {service : Text} {singles : List Single}
    (own : ∀ single ∈ singles, rules.service single = some service)
    (attributes : Attributes Single Correlation) :
    Routed rules (· ∈ singles) attributes (singles.foldl (setSelector service) attributes) := by
  induction singles generalizing attributes with
  | nil => exact Routed.none (fun single => List.not_mem_nil) attributes
  | cons single singles ih =>
    rw [List.forall_mem_cons] at own
    refine Routed.of_iff (fun other => List.mem_cons.symm) ?_
    exact (setSelector_routed own.1 attributes).trans (ih own.2 _)

theorem apply_routed (rule : Rule Single Correlation)
    (attributes : Attributes Single Correlation) :
    Routed rules (Sets rules rule) attributes (apply rules attributes rule).1 := by
  cases rule with
  | single rule =>
    have unserved (empty : ∀ service, rules.service rule = some service → service = []) :
        Routed rules (Sets rules (.single rule)) attributes attributes := by
      refine Routed.none ?_ attributes
      rintro single ⟨rfl, service, own, some⟩
      exact some (empty service own)
    rw [apply]
    split
    · rename_i missing
      refine unserved fun service own => ?_
      rw [missing] at own
      cases own
    · rename_i service own
      by_cases empty : service = []
      · rw [if_pos empty]
        refine unserved fun service' own' => ?_
        rw [own] at own'
        rw [← Option.some.inj own', empty]
      · rw [if_neg empty]
        refine (setSelector_routed own attributes).of_iff fun single => ?_
        exact (and_iff_left ⟨service, own, empty⟩).symm
  | correlation rule =>
    by_cases shared : ∃ service, Shares rules rule service
    · obtain ⟨service, shares⟩ := shared
      rw [apply_shared shares]
      refine (foldl_setSelector_routed ?_ attributes).of_iff fun single => ?_
      · intro single mem
        obtain ⟨reference, inside, rfl⟩ := List.mem_filterMap.mp mem
        obtain ⟨single', same, own⟩ := shares.resolved _ inside
        rw [Option.some.inj same, own]
      · rw [Sets, and_iff_left ⟨service, shares⟩, List.mem_filterMap]
        simp only [id_eq, exists_eq_right]
    · obtain ⟨message, refused⟩ := apply_refused shared attributes
      rw [refused]
      exact Routed.none (fun single mem => shared mem.2) attributes

theorem run_routed (calls : List (Rule Single Correlation))
    (attributes : Attributes Single Correlation) :
    Routed rules (fun single => ∃ call ∈ calls, Sets rules call single) attributes
      (run rules attributes calls) := by
  induction calls generalizing attributes with
  | nil => exact Routed.none (fun single ⟨call, mem, _⟩ => List.not_mem_nil mem) attributes
  | cons call calls ih =>
    refine Routed.of_iff (fun single => List.exists_mem_cons_iff _ call calls |>.symm) ?_
    exact (apply_routed call attributes).trans (ih _)

/-- After any calls a rule has the stream of its own service if one of the calls sets it, and is
as it was otherwise. A correlation is accepted exactly when its references share a service, and
then they have its stream; it is refused with nothing changed otherwise. -/
theorem apply_never_crosses (rules : Rules Single Correlation)
    (attributes : Attributes Single Correlation) (calls : List (Rule Single Correlation)) :
    (∀ single, (∃ call ∈ calls, Sets rules call single) →
      ∃ service, rules.service single = some service ∧ service ≠ [] ∧
        run rules attributes calls (.single single) =
          (attributes (.single single)).insert logsourceAttribute (.str (selector service))) ∧
    (∀ single, (¬ ∃ call ∈ calls, Sets rules call single) →
      run rules attributes calls (.single single) = attributes (.single single)) ∧
    (∀ rule, run rules attributes calls (.correlation rule) = attributes (.correlation rule)) ∧
    ∀ rule, let called := apply rules (run rules attributes calls) (.correlation rule)
      (called.2 = .ok () ↔ ∃ service, Shares rules rule service) ∧
      (∀ service, Shares rules rule service →
        ∀ single, some single ∈ rules.referencedRules rule →
          (called.1 (.single single)).lookup logsourceAttribute = some (.str (selector service))) ∧
      ((¬ ∃ service, Shares rules rule service) → ∃ message,
        called = (run rules attributes calls, .error (.correlationLogsourceError message))) := by
  have routedAll := @run_routed _ _ _ _ rules calls attributes
  refine ⟨fun single set => ?_, routedAll.kept, routedAll.correlations, fun rule => ⟨?_, ?_, ?_⟩⟩
  · obtain ⟨call, mem, sets⟩ := set
    obtain ⟨service, own, nonempty⟩ := sets.service
    refine ⟨service, own, nonempty, ?_⟩
    rw [routedAll.given single ⟨call, mem, sets⟩, routed, own]
    rfl
  · constructor
    · intro accepted
      by_contra apart
      obtain ⟨message, refused⟩ := apply_refused apart (run rules attributes calls)
      rw [refused] at accepted
      cases accepted
    · rintro ⟨service, shares⟩
      rw [apply_shared shares]
  · intro service shares single mem
    obtain ⟨single', same, own⟩ := shares.resolved _ mem
    have set : Sets rules (.correlation rule) single := ⟨mem, service, shares⟩
    rw [(apply_routed _ _).given single set, routed, AList.lookup_insert,
      Option.some.inj same, own]
    rfl
  · intro apart
    exact apply_refused apart _

end Calls

end OtDetection.LokiRouting
