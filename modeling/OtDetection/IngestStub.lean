import OtDetection.IngestService

/-! The ingest service with its stub provider. The stub answers every event that the schema
accepts, and its answers are as the triage schema asks, so that no request fails in the service. -/

namespace OtDetection.IngestService
open PyText PyNumber FieldLookup
open Matcher (Interpreter)
open StubTriage (StubProvider)
open TelemetrySchema (accepts accepts_field mem_properties)
open TriagePrompt (sanitise)

def outputItems (output : StubTriage.Output) : List (Text × PyValue) :=
  [(codes "verdict", .str output.verdict.text), (codes "rationale", .str output.rationale),
    (codes "requires_human_review", .bool output.requiresHumanReview),
    (codes "model", .str output.model)]

def stubProvider (isPrintable : ℕ → Bool) (stub : StubProvider) (event : Event) :
    Except PyError PyValue :=
  (StubTriage.triage isPrintable stub event).map fun output => .dict (outputItems output)

/-! ## The output of the stub -/

theorem validTriage_outputItems {output : StubTriage.Output}
    (short : output.rationale.length ≤ maxRationale) (review : output.requiresHumanReview = true)
    (model : output.model.length ≤ maxModel) : validTriage (.dict (outputItems output)) = true := by
  have verdict : verdicts.contains output.verdict.text = true := by
    cases output.verdict <;> decide
  have fields : (outputItems output).all (fun item => outputFields.contains item.1) = true := rfl
  have checks : validTriage (.dict (outputItems output)) =
      ((outputItems output).all (fun item => outputFields.contains item.1) &&
        verdicts.contains output.verdict.text && decide (output.rationale.length ≤ maxRationale) &&
        output.requiresHumanReview && decide (output.model.length ≤ maxModel)) := rfl
  rw [checks, fields, verdict, review, decide_eq_true short, decide_eq_true model]
  rfl

section Stub

variable {py : Interpreter} {stub : StubProvider} {event : Event}

theorem length_text (verdict : StubTriage.Verdict) : verdict.text.length ≤ 10 := by
  cases verdict <;> decide

theorem length_service (valid : accepts py.toUnicode event = true) :
    (StubTriage.format (sanitise py.isPrintable
      ((event.lookup (codes "service")).getD (.str (codes "unknown"))))).length ≤
        TriagePrompt.maxFieldChars := by
  have named := @mem_properties (.enum TelemetrySchema.services) ["service"] "service"
    (by decide) (by decide)
  have cut : ∀ text : Text, (StubTriage.format (sanitise py.isPrintable (.str text))).length ≤
      TriagePrompt.maxFieldChars := fun text => List.length_take_le _ _
  cases found : event.lookup (codes "service") with
  | none => exact cut _
  | some value =>
    have checked := accepts_field valid named found
    cases value with
    | str text => exact cut text
    | none | bool b | int n | float f | list items | dict items => cases checked

theorem triage_accepted (valid : accepts py.toUnicode event = true) :
    ∃ output, StubTriage.triage py.isPrintable stub event = .ok output ∧
      output.rationale.length ≤ maxRationale ∧ output.requiresHumanReview = true ∧
      output.model = stub.model := by
  obtain ⟨found, type, -⟩ := StubTriage.inEvents_accepted valid
  have service := length_service valid
  refine ⟨_, by rw [StubTriage.triage, type]; rfl, ?_, rfl, rfl⟩
  have words : (codes " event classified from structured fields only; verdict ").length = 55 ∧
      (codes ".").length = 1 := by decide
  have verdict := length_text
    (if found || StubTriage.inFunctions (eventGet event "function_code") then .suspicious
      else .benign)
  have room : TriagePrompt.maxFieldChars = 120 ∧ maxRationale = 300 := ⟨rfl, rfl⟩
  simp only [List.length_append, words]
  omega

end Stub

/-! ## The service -/

section Service

variable {τ : Type*} {py : Interpreter} {app : App τ py.toUnicode} {stub : StubProvider}

/-- What the service needs so that it does not fail: the stub with a short name, and keys that
can be encoded. -/
structure Prepared (app : App τ py.toUnicode) (stub : StubProvider) (calls : List (Call τ)) : Prop where
  provider : app.provider = stubProvider py.isPrintable stub
  model : stub.model.length ≤ maxModel
  apiKey : app.settings.apiKey.all isScalarValue = true
  keys : ∀ call ∈ calls, ∀ key ∈ call.key, key.all isScalarValue = true

theorem keyMatches_ok {presented : Option Text} {expected : Text}
    (scalar : ∀ key ∈ presented, key.all isScalarValue = true)
    (wanted : expected.all isScalarValue = true) : ∃ known, keyMatches presented expected = .ok known := by
  cases presented with
  | none => exact ⟨false, rfl⟩
  | some key =>
    rw [keyMatches, encode, encode, if_pos (scalar key rfl), if_pos wanted]
    split_ifs
    · exact ⟨false, rfl⟩
    · exact ⟨_, rfl⟩

section Answers

variable {calls : List (Call τ)}

theorem triage_stub (prepared : Prepared app stub calls) (call : Call τ) {payload event : Event}
    (ready : Ready app payload event) :
    ∃ output, StubTriage.triage py.isPrintable stub event = .ok output ∧
      triage app call payload = decided call (outputItems output) := by
  obtain ⟨output, made, short, review, same⟩ := @triage_accepted py stub event ready.valid
  have valid := validTriage_outputItems short review (same ▸ prepared.model)
  refine ⟨output, made, ?_⟩
  rw [triage_of_ready app call ready, prepared.provider, stubProvider, made]
  exact if_pos valid

/-- The status of an error of the service. -/
def failures : List ℕ := [500, 502]

theorem status_admitted_stub (prepared : Prepared app stub calls) (call : Call τ) :
    (admitted app call).reply.status ∉ failures := by
  rw [admitted]
  cases call.endpoint with
  | healthz => exact (by decide : 200 ∉ failures)
  | events payload =>
    dsimp only
    rcases ingest_cases app call payload with ⟨-, answer⟩ | ⟨-, status⟩
    · rw [answer]
      exact (by decide : 200 ∉ failures)
    · rw [status]
      decide
  | triage payload =>
    dsimp only
    rcases triage_cases app call payload with (status | status) | ⟨event, ready, -⟩
    · rw [status]
      decide
    · rw [status]
      decide
    · obtain ⟨output, -, answer⟩ := triage_stub prepared call ready
      rw [answer]
      exact (by decide : 200 ∉ failures)

theorem status_unlimited_stub (prepared : Prepared app stub calls) {call : Call τ}
    (mem : call ∈ calls) : (unlimited app call).reply.status ∉ failures := by
  rw [unlimited]
  cases passes : RequestGuard.forwarded app.settings.maxBodyBytes call.request with
  | error response =>
    have refused : response.status = 400 ∨ response.status = 413 := status_refused app passes
    intro failed
    rw [failures, List.mem_cons, List.mem_singleton] at failed
    have status : response.status = 500 ∨ response.status = 502 := failed
    omega
  | ok passed =>
    have right : ∃ known, requireKey app call = .ok known := by
      rw [requireKey]
      cases call.endpoint with
      | healthz => exact ⟨true, rfl⟩
      | events payload | triage payload =>
        exact keyMatches_ok (prepared.keys call mem) prepared.apiKey
    obtain ⟨known, key⟩ := right
    rw [key]
    cases known with
    | false => exact (by decide : 401 ∉ failures)
    | true => exact status_admitted_stub prepared call

variable [AddCommGroup τ] [LinearOrder τ]

end Answers

end Service

/-! ## One request -/

def sampleStub : StubProvider := ⟨codes "stub-deterministic-v1"⟩

def sampleTriage : Call ℤ :=
  sampleCall 0 (.triage [(codes "event", .dict (StubTriage.codeEvent (.int 41)))])

end OtDetection.IngestService
