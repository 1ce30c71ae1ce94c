import OtDetection.HexText
import OtDetection.Steps
import OtDetection.PyJson
import OtDetection.RateLimiter
import OtDetection.RequestGuard
import OtDetection.StubTriage

/-! The ingest service: its endpoints behind the guard, the key and the rate limits. The requests
are answered one after another, each at a time of the limiters' clock. -/

namespace OtDetection.IngestService
open Octets PyText PyNumber FieldLookup
open HexText (utf8)
open JsonDumps (asChars)
open RequestGuard (Request forwarded)
open TelemetrySchema (accepts)

/-! ## The key -/

def isScalarValue (c : ℕ) : Bool := c < 0xD800 ∨ 0xDFFF < c ∧ c < 0x110000

def encode (text : Text) : Except PyError (List U8) :=
  if text.all isScalarValue then .ok (utf8 (asChars text)) else .error .valueError

def keyMatches (presented : Option Text) (expected : Text) : Except PyError Bool :=
  match presented with
  | none => .ok false
  | some key =>
    if key = [] then .ok false
    else do
      let given ← encode key
      let wanted ← encode expected
      return decide (given = wanted)

/-! ## The triage schema -/

def hasText (allowed : Text → Bool) : Option PyValue → Bool
  | some (.str text) => allowed text
  | _ => false

def verdicts : List Text := ["suspicious", "benign", "needs_review"].map codes

def maxRationale : ℕ := 300

def maxModel : ℕ := 64

def outputFields : List Text := ["verdict", "rationale", "requires_human_review", "model"].map codes

/-- `validate_triage(output)` is empty: all of the fields, each as the schema asks, and no
other. -/
def validTriage : PyValue → Bool
  | .dict output =>
    (output.all fun item => outputFields.contains item.1) &&
      hasText verdicts.contains (output.lookup (codes "verdict")) &&
      hasText (fun text => text.length ≤ maxRationale) (output.lookup (codes "rationale")) &&
      (match output.lookup (codes "requires_human_review") with
        | some (.bool review) => review
        | _ => false) &&
      hasText (fun text => text.length ≤ maxModel) (output.lookup (codes "model"))
  | _ => false

/-! ## Requests and answers -/

structure Settings (τ : Type*) where
  apiKey : Text
  maxBodyBytes : ℤ
  eventRateLimit : ℤ
  triageRateLimit : ℤ
  rateWindowSeconds : τ
  maxTriageChars : ℤ

/-- An endpoint, with the payload that the request has for it. -/
inductive Endpoint
  | healthz
  | events (payload : Event)
  | triage (payload : Event)

def Endpoint.path : Endpoint → Text
  | healthz => codes "/healthz"
  | events _ => codes "/events"
  | triage _ => codes "/triage"

structure Call (τ : Type*) where
  time : τ
  host : Option Text
  request : Request
  endpoint : Endpoint

def Call.client {τ : Type*} (call : Call τ) : Text := call.host.getD (codes "unknown")

def Call.key {τ : Type*} (call : Call τ) : Option Text :=
  call.request.headers.lookup (codes "x-api-key")

/-- What the guard answers, an `HTTPException` and a value of an endpoint. -/
inductive Reply
  | refused (response : RequestGuard.Response)
  | exception (status : ℕ) (detail : PyValue)
  | value (content : PyValue)

def Reply.status : Reply → ℕ
  | refused response => response.status
  | exception status _ => status
  | value _ => 200

def detail (status : ℕ) (text : String) : Reply := .exception status (.str (codes text))

inductive Record
  | authRejected (path client : Text)
  | unhandled (path : Text) (error : PyError)
  | eventRejected (client : Text) (errors : ℕ)
  | eventAccepted (client : Text) (product service : PyValue)
  | triageRejected (client : Text)
  | triageDecided (client : Text) (verdict model : PyValue)

/-- A reply with the records that were written on the way. -/
structure Answer where
  reply : Reply
  audit : List Record

/-- The service by its settings, the validator of the schema and the provider of triage. -/
structure App (τ : Type*) (unicode : Unicode) where
  settings : Settings τ
  errors : Event → List Text
  errors_iff : ∀ event, errors event = [] ↔ accepts unicode event = true
  provider : Event → Except PyError PyValue

structure State (τ : Type*) where
  eventLimiter : RateLimiter Text τ
  triageLimiter : RateLimiter Text τ

/-! ## The endpoints -/

section Endpoints

variable {τ : Type*} {unicode : Unicode} (app : App τ unicode) (call : Call τ)

def unhandled (error : PyError) : Answer :=
  ⟨detail 500 "internal error", [.unhandled call.endpoint.path error]⟩

def invalid (errors : List Text) : Reply :=
  .exception 422 (.dict [(codes "errors", .list (errors.map .str))])

def accepted : PyValue := .dict [(codes "accepted", .bool true)]

def ingest (payload : Event) : Answer :=
  match app.errors payload with
  | [] => ⟨.value accepted,
      [.eventAccepted call.client (eventGet payload "product") (eventGet payload "service")]⟩
  | errors => ⟨invalid errors, [.eventRejected call.client errors.length]⟩

def judge (output : PyValue) : Answer :=
  if validTriage output then
    match output with
    | .dict items => ⟨.value output,
        [.triageDecided call.client (eventGet items "verdict") (eventGet items "model")]⟩
    | _ => ⟨.value output, []⟩
  else ⟨detail 502 "triage output rejected", [.triageRejected call.client]⟩

/-- `triage` of a request that the limiter admits. -/
def triage (payload : Event) : Answer :=
  match payload.lookup (codes "event") with
  | some (.dict event) =>
    if app.settings.maxTriageChars < ((PyJson.dumps (.dict event)).length : ℤ) then
      ⟨detail 413 "event too large for triage", []⟩
    else
      match app.errors event with
      | [] =>
        match app.provider event with
        | .ok output => judge call output
        | .error e => unhandled call e
      | errors => ⟨invalid errors, []⟩
  | _ => ⟨detail 422 "event must be an object", []⟩

def limited : Answer := ⟨detail 429 "rate limit exceeded", []⟩

variable [AddCommGroup τ] [LinearOrder τ]

def endpoint (state : State τ) : Answer × State τ :=
  match call.endpoint with
  | .healthz => (⟨.value (.dict [(codes "status", .str (codes "ok"))]), []⟩, state)
  | .events payload =>
    let (admitted, limiter) := state.eventLimiter.allow call.client call.time
    (if admitted then ingest app call payload else limited, { state with eventLimiter := limiter })
  | .triage payload =>
    let (admitted, limiter) := state.triageLimiter.allow call.client call.time
    (if admitted then triage app call payload else limited, { state with triageLimiter := limiter })

/-- `require_key`, which only the health check does without. -/
def requireKey : Except PyError Bool :=
  match call.endpoint with
  | .healthz => .ok true
  | _ => keyMatches call.key app.settings.apiKey

def serve (state : State τ) : Answer × State τ :=
  match forwarded app.settings.maxBodyBytes call.request with
  | .error response => (⟨.refused response, []⟩, state)
  | .ok _ =>
    match requireKey app call with
    | .error e => (unhandled call e, state)
    | .ok false => (⟨detail 401 "invalid api key",
        [.authRejected call.endpoint.path call.client]⟩, state)
    | .ok true => endpoint app call state

def start : State τ where
  eventLimiter := .fresh app.settings.eventRateLimit app.settings.rateWindowSeconds
  triageLimiter := .fresh app.settings.triageRateLimit app.settings.rateWindowSeconds

def answers (calls : List (Call τ)) : List (Call τ × Answer) :=
  MachineRuns.run (fun state call => serve app call state) (start app) calls

end Endpoints

/-! ## The key decides -/

theorem char_ofNat_inj {c d : ℕ} (scalar : isScalarValue c = true) (scalar' : isScalarValue d = true)
    (same : Char.ofNat c = Char.ofNat d) : c = d := by
  rw [isScalarValue, decide_eq_true_eq] at scalar scalar'
  rw [← Utf8Lossy.toNat_ofNat scalar, same, Utf8Lossy.toNat_ofNat scalar']

theorem asChars_inj {a b : Text} (scalar : a.all isScalarValue = true)
    (scalar' : b.all isScalarValue = true) (same : asChars a = asChars b) : a = b := by
  induction a generalizing b with
  | nil =>
    cases b with
    | nil => rfl
    | cons d b => cases same
  | cons c a ih =>
    cases b with
    | nil => cases same
    | cons d b =>
      rw [List.all_cons, Bool.and_eq_true] at scalar scalar'
      obtain ⟨head, tail⟩ := List.cons.inj same
      rw [char_ofNat_inj scalar.1 scalar'.1 head, ih scalar.2 scalar'.2 tail]

theorem utf8_inj {a b : List Char} (same : utf8 a = utf8 b) : a = b := by
  rw [← Utf8Lossy.fromUtf8Lossy_encode a, ← Utf8Lossy.fromUtf8Lossy_encode b]
  exact congrArg Utf8Lossy.fromUtf8Lossy same

theorem keyMatches_iff {presented : Option Text} {expected : Text} :
    keyMatches presented expected = .ok true ↔
      presented = some expected ∧ expected ≠ [] ∧ expected.all isScalarValue = true := by
  cases presented with
  | none => exact iff_of_false nofun nofun
  | some key =>
    by_cases empty : key = []
    · rw [keyMatches, if_pos empty, empty]
      refine iff_of_false nofun ?_
      rintro ⟨same, some_key, -⟩
      exact some_key (Option.some.inj same).symm
    · rw [keyMatches, if_neg empty, encode, encode]
      by_cases scalar : key.all isScalarValue = true
      · by_cases scalar' : expected.all isScalarValue = true
        · rw [if_pos scalar, if_pos scalar']
          have value : (do
              let given ← (Except.ok (utf8 (asChars key)) : Except PyError (List U8))
              let wanted ← (Except.ok (utf8 (asChars expected)) : Except PyError (List U8))
              return decide (given = wanted)) =
              .ok (decide (utf8 (asChars key) = utf8 (asChars expected))) := rfl
          rw [value, Except.ok.injEq, decide_eq_true_eq]
          constructor
          · intro same
            obtain rfl := asChars_inj scalar scalar' (utf8_inj same)
            exact ⟨rfl, empty, scalar⟩
          · rintro ⟨same, -, -⟩
            rw [Option.some.inj same]
        · rw [if_pos scalar, if_neg scalar']
          exact iff_of_false nofun fun match_ => scalar' match_.2.2
      · rw [if_neg scalar]
        refine iff_of_false nofun ?_
        rintro ⟨same, -, scalar'⟩
        exact scalar (Option.some.inj same ▸ scalar')

/-! ## The two limiters -/

inductive Kind
  | events
  | triage
  deriving DecidableEq

def Endpoint.kind : Endpoint → Option Kind
  | healthz => none
  | events _ => some .events
  | triage _ => some .triage

section Limiters

variable {τ : Type*}

def State.limiter (state : State τ) : Kind → RateLimiter Text τ
  | .events => state.eventLimiter
  | .triage => state.triageLimiter

def State.setLimiter (state : State τ) (kind : Kind) (limiter : RateLimiter Text τ) : State τ :=
  match kind with
  | .events => { state with eventLimiter := limiter }
  | .triage => { state with triageLimiter := limiter }

@[simp] theorem limiter_setLimiter_self (state : State τ) (kind : Kind)
    (limiter : RateLimiter Text τ) : (state.setLimiter kind limiter).limiter kind = limiter := by
  cases kind <;> rfl

@[simp] theorem limiter_setLimiter_of_ne (state : State τ) {kind other : Kind} (h : other ≠ kind)
    (limiter : RateLimiter Text τ) :
    (state.setLimiter kind limiter).limiter other = state.limiter other := by
  cases kind <;> cases other <;> first | rfl | exact absurd rfl h

def Settings.limit (settings : Settings τ) : Kind → ℤ
  | .events => settings.eventRateLimit
  | .triage => settings.triageRateLimit

end Limiters

section Serve

variable {τ : Type*} {unicode : Unicode} (app : App τ unicode) (call : Call τ)

def charged : Option Kind :=
  match forwarded app.settings.maxBodyBytes call.request with
  | .error _ => none
  | .ok _ =>
    match requireKey app call with
    | .ok true => call.endpoint.kind
    | _ => none

def admitted : Answer :=
  match call.endpoint with
  | .healthz => ⟨.value (.dict [(codes "status", .str (codes "ok"))]), []⟩
  | .events payload => ingest app call payload
  | .triage payload => triage app call payload

/-- The answer to a call that asks no limiter. -/
def unlimited : Answer :=
  match forwarded app.settings.maxBodyBytes call.request with
  | .error response => ⟨.refused response, []⟩
  | .ok _ =>
    match requireKey app call with
    | .error e => unhandled call e
    | .ok false => ⟨detail 401 "invalid api key", [.authRejected call.endpoint.path call.client]⟩
    | .ok true => admitted app call

variable [AddCommGroup τ] [LinearOrder τ] {app call}

theorem serve_of_none (free : charged app call = none) (state : State τ) :
    serve app call state = (unlimited app call, state) := by
  rw [charged] at free
  rw [serve, unlimited]
  cases passes : forwarded app.settings.maxBodyBytes call.request with
  | error response => rfl
  | ok passed =>
    rw [passes] at free
    cases key : requireKey app call with
    | error e => rfl
    | ok known =>
      cases known with
      | false => rfl
      | true =>
        rw [key] at free
        dsimp only
        rw [endpoint, admitted]
        cases asked : call.endpoint with
        | healthz => rfl
        | events payload | triage payload =>
          rw [asked] at free
          cases free

theorem serve_of_some {kind : Kind} (asks : charged app call = some kind) (state : State τ) :
    serve app call state =
      (if ((state.limiter kind).allow call.client call.time).1 then admitted app call else limited,
        state.setLimiter kind ((state.limiter kind).allow call.client call.time).2) := by
  rw [charged] at asks
  rw [serve]
  cases passes : forwarded app.settings.maxBodyBytes call.request with
  | error response =>
    rw [passes] at asks
    cases asks
  | ok passed =>
    rw [passes] at asks
    cases key : requireKey app call with
    | error e =>
      rw [key] at asks
      cases asks
    | ok known =>
      rw [key] at asks
      cases known with
      | false => cases asks
      | true =>
        dsimp only
        rw [endpoint, admitted]
        cases asked : call.endpoint with
        | healthz =>
          rw [asked] at asks
          cases asks
        | events payload =>
          rw [asked] at asks
          cases asks
          rfl
        | triage payload =>
          rw [asked] at asks
          cases asks
          rfl

end Serve

/-! ## Clients are apart -/

section Apart

variable {τ : Type*} {unicode : Unicode} (app : App τ unicode)

def own (kind : Kind) (client : Text) (call : Call τ) : Bool :=
  charged app call = some kind ∧ call.client = client

def view (kind : Kind) (client : Text) (state : State τ) : ℤ × τ × List τ :=
  ((state.limiter kind).limit, (state.limiter kind).windowSeconds, (state.limiter kind).hits client)

variable [AddCommGroup τ] [LinearOrder τ]

theorem allow_congr {limiter limiter' : RateLimiter Text τ} {client : Text}
    (limit : limiter.limit = limiter'.limit) (window : limiter.windowSeconds = limiter'.windowSeconds)
    (hits : limiter.hits client = limiter'.hits client) (now : τ) :
    (limiter.allow client now).1 = (limiter'.allow client now).1 ∧
      (limiter.allow client now).2.hits client = (limiter'.allow client now).2.hits client := by
  rcases limiter.allow_cases client now with ⟨full, result⟩ | ⟨room, result⟩
  · rcases limiter'.allow_cases client now with ⟨-, result'⟩ | ⟨room', -⟩
    · rw [result, result', RateLimiter.hits_setHits_self, RateLimiter.hits_setHits_self, window,
        hits]
      exact ⟨rfl, rfl⟩
    · rw [limit, window, hits] at full
      omega
  · rcases limiter'.allow_cases client now with ⟨full', -⟩ | ⟨-, result'⟩
    · rw [limit, window, hits] at room
      omega
    · rw [result, result', RateLimiter.hits_setHits_self, RateLimiter.hits_setHits_self, window,
        hits]
      exact ⟨rfl, rfl⟩

theorem allow_other (limiter : RateLimiter Text τ) {client other : Text} (apart : other ≠ client)
    (now : τ) : (limiter.allow client now).2.hits other = limiter.hits other := by
  rcases limiter.allow_cases client now with ⟨-, result⟩ | ⟨-, result⟩
  · rw [result, RateLimiter.hits_setHits_of_ne _ apart]
  · rw [result, RateLimiter.hits_setHits_of_ne _ apart]

theorem separates (kind : Kind) (client : Text) :
    MachineRuns.Separates (fun state call => serve app call state) (view kind client)
      (own app kind client) := by
  refine ⟨?_, ?_, ?_⟩
  · intro call state state' mine same
    obtain ⟨asks, rfl⟩ := of_decide_eq_true mine
    rw [view, view, Prod.mk.injEq, Prod.mk.injEq] at same
    rw [serve_of_some asks, serve_of_some asks,
      (allow_congr same.1 same.2.1 same.2.2 call.time).1]
  · intro call state state' mine same
    obtain ⟨asks, rfl⟩ := of_decide_eq_true mine
    rw [view, view, Prod.mk.injEq, Prod.mk.injEq] at same
    rw [serve_of_some asks, serve_of_some asks, view, view, limiter_setLimiter_self,
      limiter_setLimiter_self, RateLimiter.limit_allow, RateLimiter.limit_allow,
      RateLimiter.windowSeconds_allow, RateLimiter.windowSeconds_allow, same.1, same.2.1,
      (allow_congr same.1 same.2.1 same.2.2 call.time).2]
  · intro call state foreign
    have apart : ¬ (charged app call = some kind ∧ call.client = client) :=
      of_decide_eq_false foreign
    cases asks : charged app call with
    | none => rw [serve_of_none asks]
    | some other =>
      rw [serve_of_some asks, view, view]
      by_cases here : kind = other
      · subst here
        rw [limiter_setLimiter_self, RateLimiter.limit_allow, RateLimiter.windowSeconds_allow,
          allow_other _ fun same => apart ⟨asks, same.symm⟩]
      · rw [limiter_setLimiter_of_ne _ here]

/-- The answers to a client at an endpoint are those without any other request, and a request that
is refused before the limiter is answered in the same way whatever was before. -/
theorem answers_apart (kind : Kind) (client : Text) (calls : List (Call τ)) :
    (answers app calls).filter (fun answer => own app kind client answer.1) =
        answers app (calls.filter (own app kind client)) ∧
      ∀ answer ∈ answers app calls, charged app answer.1 = none →
        answer.2 = unlimited app answer.1 := by
  refine ⟨(separates app kind client).run_filter rfl calls, ?_⟩
  have each := @MachineRuns.run_invariant _ _ _ (fun state call => serve app call state)
    (fun _ => True) (fun call answer => charged app call = none → answer = unlimited app call) calls
    (fun state call _ _ => ⟨fun free => by rw [serve_of_none free], trivial⟩) (start app) trivial
  exact each

end Apart

/-! ## What an endpoint does -/

section Cases

variable {τ : Type*} {unicode : Unicode} (app : App τ unicode) (call : Call τ)

def taken (payload : Event) : Answer :=
  ⟨.value accepted, [.eventAccepted call.client (eventGet payload "product")
    (eventGet payload "service")]⟩

def decided (items : List (Text × PyValue)) : Answer :=
  ⟨.value (.dict items), [.triageDecided call.client (eventGet items "verdict")
    (eventGet items "model")]⟩

theorem ingest_cases (payload : Event) :
    (accepts unicode payload = true ∧ ingest app call payload = taken call payload) ∨
      (accepts unicode payload = false ∧ (ingest app call payload).reply.status = 422) := by
  have valid := app.errors_iff payload
  rw [ingest]
  cases found : app.errors payload with
  | nil => exact .inl ⟨valid.mp found, rfl⟩
  | cons error errors =>
    refine .inr ⟨Bool.eq_false_iff.mpr fun accepted => ?_, rfl⟩
    rw [valid.mpr accepted] at found
    cases found

theorem judge_cases (output : PyValue) :
    (∃ items, output = .dict items ∧ validTriage output = true ∧
      judge call output = decided call items) ∨
      (validTriage output = false ∧ (judge call output).reply.status = 502) := by
  cases valid : validTriage output with
  | true =>
    cases output with
    | dict items =>
      rw [judge, if_pos valid]
      exact .inl ⟨items, rfl, rfl, rfl⟩
    | none | bool b | int n | float f | str s | list items => cases valid
  | false =>
    unfold judge
    rw [if_neg (Bool.eq_false_iff.mp valid)]
    exact .inr ⟨rfl, rfl⟩

/-- An event that is for the provider: within the size, and as the schema asks. -/
structure Ready (payload event : Event) : Prop where
  present : payload.lookup (codes "event") = some (.dict event)
  small : ((PyJson.dumps (.dict event)).length : ℤ) ≤ app.settings.maxTriageChars
  valid : accepts unicode event = true

theorem triage_of_ready {payload event : Event} (ready : Ready app payload event) :
    triage app call payload =
      match app.provider event with
      | .ok output => judge call output
      | .error e => unhandled call e := by
  have small : ¬ app.settings.maxTriageChars < ((PyJson.dumps (.dict event)).length : ℤ) :=
    not_lt.mpr ready.small
  rw [triage, ready.present]
  dsimp only
  rw [if_neg small, (app.errors_iff event).mpr ready.valid]

theorem triage_cases (payload : Event) :
    ((triage app call payload).reply.status = 413 ∨ (triage app call payload).reply.status = 422) ∨
      ∃ event, Ready app payload event ∧
        ((∃ e, app.provider event = .error e ∧ triage app call payload = unhandled call e) ∨
          ∃ output, app.provider event = .ok output ∧
            triage app call payload = judge call output) := by
  cases present : payload.lookup (codes "event") with
  | none =>
    rw [triage, present]
    exact .inl (.inr rfl)
  | some value =>
    cases value with
    | dict event =>
      by_cases large : app.settings.maxTriageChars < ((PyJson.dumps (.dict event)).length : ℤ)
      · rw [triage, present]
        dsimp only
        rw [if_pos large]
        exact .inl (.inl rfl)
      · cases found : app.errors event with
        | cons error errors =>
          rw [triage, present]
          dsimp only
          rw [if_neg large, found]
          exact .inl (.inr rfl)
        | nil =>
          have ready : Ready app payload event :=
            ⟨present, not_lt.mp large, (app.errors_iff event).mp found⟩
          refine .inr ⟨event, ready, ?_⟩
          rw [triage_of_ready app call ready]
          cases provided : app.provider event with
          | ok output => exact .inr ⟨output, rfl, rfl⟩
          | error e => exact .inl ⟨e, rfl, rfl⟩
    | none | bool b | int n | float f | str s | list items =>
      rw [triage, present]
      exact .inl (.inr rfl)

theorem status_admitted : (admitted app call).reply.status ≠ 429 := by
  rw [admitted]
  cases call.endpoint with
  | healthz => exact (by decide : 200 ≠ 429)
  | events payload =>
    dsimp only
    rcases ingest_cases app call payload with ⟨-, answer⟩ | ⟨-, status⟩
    · rw [answer]
      exact (by decide : 200 ≠ 429)
    · rw [status]
      decide
  | triage payload =>
    dsimp only
    rcases triage_cases app call payload with (status | status) | ⟨event, -, failed | provided⟩
    · rw [status]
      decide
    · rw [status]
      decide
    · obtain ⟨e, -, answer⟩ := failed
      rw [answer]
      exact (by decide : 500 ≠ 429)
    · obtain ⟨output, -, answer⟩ := provided
      rw [answer]
      rcases judge_cases call output with ⟨items, -, -, answer⟩ | ⟨-, status⟩
      · rw [answer]
        exact (by decide : 200 ≠ 429)
      · rw [status]
        decide

end Cases

/-! ## The limits -/

section Limits

variable {τ : Type*} {unicode : Unicode} (app : App τ unicode)

def asks (kind : Kind) (call : Call τ) : Bool := charged app call = some kind

def asked (kind : Kind) (answer : Call τ × Answer) : Bool := asks app kind answer.1

def through (answer : Call τ × Answer) : Bool := answer.2.reply.status ≠ 429

def entryOf (answer : Call τ × Answer) : SlidingLimit.Entry Text τ :=
  ⟨answer.1.client, answer.1.time, through answer⟩

def passes (kind : Kind) (client : Text) (answer : Call τ × Answer) : Bool :=
  asked app kind answer ∧ answer.1.client = client ∧ through answer

theorem countP_entries (kind : Kind) (client : Text) (inside : τ → Bool)
    (answered : List (Call τ × Answer)) :
    ((answered.filter (asked app kind)).map entryOf).countP
        (fun e => e.key = client ∧ e.admitted ∧ inside e.time) =
      answered.countP fun answer => passes app kind client answer ∧ inside answer.1.time := by
  rw [List.countP_map, List.countP_filter]
  refine List.countP_congr fun answer _ => ?_
  change (decide (answer.1.client = client ∧ through answer = true ∧
    inside answer.1.time = true) && asked app kind answer) = true ↔ _
  simp only [passes, Bool.and_eq_true, decide_eq_true_eq]
  tauto

variable [AddCommGroup τ] [LinearOrder τ]

theorem entries_answers (kind : Kind) (state : State τ) (calls : List (Call τ)) :
    ((MachineRuns.run (fun state call => serve app call state) state calls).filter
        (asked app kind)).map entryOf =
      (state.limiter kind).answered
        ((calls.filter (asks app kind)).map fun call => (call.client, call.time)) := by
  induction calls generalizing state with
  | nil => rfl
  | cons call calls ih =>
    rw [MachineRuns.run]
    cases mine : asks app kind call with
    | true =>
      have named : charged app call = some kind := of_decide_eq_true mine
      have answer := serve_of_some named state
      have later := ih (serve app call state).2
      have let_through : through (call, (serve app call state).1) =
          ((state.limiter kind).allow call.client call.time).1 := by
        rw [through, answer]
        cases ((state.limiter kind).allow call.client call.time).1 with
        | true => exact decide_eq_true (status_admitted app call)
        | false => rfl
      rw [List.filter_cons_of_pos mine, List.map_cons, RateLimiter.answered]
      refine (congrArg (List.map entryOf) (List.filter_cons_of_pos mine)).trans ?_
      rw [List.map_cons, later, entryOf, let_through, answer, limiter_setLimiter_self]
    | false =>
      have foreign : ¬ asks app kind call = true := by simp [mine]
      have same : (serve app call state).2.limiter kind = state.limiter kind := by
        cases named : charged app call with
        | none => rw [serve_of_none named]
        | some other =>
          rw [serve_of_some named]
          refine limiter_setLimiter_of_ne _ (fun equal => ?_) _
          rw [equal] at foreign
          exact foreign (decide_eq_true named)
      rw [List.filter_cons_of_neg foreign, ← same, ← ih]
      exact congrArg (List.map entryOf) (List.filter_cons_of_neg foreign)

variable [IsOrderedAddMonoid τ]

theorem entries_eq_log (kind : Kind) {calls : List (Call τ)}
    (clock : calls.Pairwise (·.time ≤ ·.time)) :
    ((answers app calls).filter (asked app kind)).map entryOf =
      SlidingLimit.logOf (app.settings.limit kind) app.settings.rateWindowSeconds
        ((calls.filter (asks app kind)).map fun call => (call.client, call.time)) := by
  have fresh : (start app).limiter kind =
      .fresh (app.settings.limit kind) app.settings.rateWindowSeconds := by
    cases kind <;> rfl
  have times : ((calls.filter (asks app kind)).map fun call => (call.client, call.time)).Pairwise
      (·.2 ≤ ·.2) := List.pairwise_map.mpr (clock.sublist List.filter_sublist)
  rw [← RateLimiter.answered_fresh _ _ times, ← fresh]
  exact entries_answers app kind (start app) calls

end Limits

/-! ## What an answer tells -/

section Sound

variable {τ : Type*} {unicode : Unicode} (app : App τ unicode)

/-- The request has the key, which is not empty, and declares no body beyond the cap. -/
structure Authentic (call : Call τ) : Prop where
  key : call.key = some app.settings.apiKey
  some_key : app.settings.apiKey ≠ []
  capped : RequestGuard.Admissible app.settings.maxBodyBytes call.request

/-- A value of an endpoint but the health check is for an authentic request with a valid event, and
a verdict is as the triage schema asks. Each is recorded. -/
def Sound (call : Call τ) (answer : Answer) : Prop :=
  answer.reply.status = 200 →
    match call.endpoint with
    | .healthz => True
    | .events payload =>
      Authentic app call ∧ accepts unicode payload = true ∧ answer = taken call payload
    | .triage payload =>
      Authentic app call ∧ ∃ event items, Ready app payload event ∧
        app.provider event = .ok (.dict items) ∧ validTriage (.dict items) = true ∧
          answer = decided call items

theorem sound_admitted {call : Call τ} (authentic : call.endpoint ≠ .healthz → Authentic app call) :
    Sound app call (admitted app call) := by
  intro status
  cases asked : call.endpoint with
  | healthz => trivial
  | events payload =>
    have key := authentic (by rw [asked]; exact nofun)
    rw [admitted, asked] at status ⊢
    dsimp only at status ⊢
    rcases ingest_cases app call payload with ⟨valid, answer⟩ | ⟨-, failed⟩
    · exact ⟨key, valid, answer⟩
    · rw [failed] at status
      cases status
  | triage payload =>
    have key := authentic (by rw [asked]; exact nofun)
    rw [admitted, asked] at status ⊢
    dsimp only at status ⊢
    rcases triage_cases app call payload with (failed | failed) | ⟨event, ready, failed | provided⟩
    · rw [failed] at status
      cases status
    · rw [failed] at status
      cases status
    · obtain ⟨e, -, answer⟩ := failed
      rw [answer] at status
      cases status
    · obtain ⟨output, made, answer⟩ := provided
      rw [answer] at status ⊢
      rcases judge_cases call output with ⟨items, rfl, valid, answer⟩ | ⟨-, failed⟩
      · exact ⟨key, event, items, ready, made, valid, answer⟩
      · rw [failed] at status
        cases status

theorem authentic_of_known {call : Call τ} {passed : Request}
    (passes : forwarded app.settings.maxBodyBytes call.request = .ok passed)
    (known : requireKey app call = .ok true) (other : call.endpoint ≠ .healthz) :
    Authentic app call := by
  have matched : keyMatches call.key app.settings.apiKey = .ok true := by
    rw [requireKey] at known
    cases asked : call.endpoint with
    | healthz => exact absurd asked other
    | events payload | triage payload => simpa only [asked] using known
  obtain ⟨key, some_key, -⟩ := keyMatches_iff.mp matched
  exact ⟨key, some_key, (RequestGuard.forwarded_eq_ok_iff.mp passes).2⟩

variable [AddCommGroup τ] [LinearOrder τ]

omit [AddCommGroup τ] [LinearOrder τ] in
theorem status_refused {request : Request} {response : RequestGuard.Response}
    (refused : forwarded app.settings.maxBodyBytes request = .error response) :
    response.status = 400 ∨ response.status = 413 := by
  rw [forwarded] at refused
  split at refused
  · cases refused
  · split at refused
    · rw [← Except.error.inj refused]
      exact .inl rfl
    · split_ifs at refused
      rw [← Except.error.inj refused]
      exact .inr rfl

omit [AddCommGroup τ] [LinearOrder τ] in
theorem sound_unlimited (call : Call τ) : Sound app call (unlimited app call) := by
  intro status
  rw [unlimited] at status
  cases passes : forwarded app.settings.maxBodyBytes call.request with
  | error response =>
    rw [passes] at status
    have refused : response.status = 200 := status
    have known := status_refused app passes
    omega
  | ok passed =>
    cases known : requireKey app call with
    | error e =>
      rw [passes, known] at status
      cases status
    | ok right =>
      rw [passes, known] at status
      cases right with
      | false => cases status
      | true =>
        have answer : unlimited app call = admitted app call := by
          rw [unlimited, passes, known]
        rw [answer]
        exact sound_admitted app (authentic_of_known app passes known) status

theorem sound_serve (state : State τ) (call : Call τ) : Sound app call (serve app call state).1 := by
  cases asks : charged app call with
  | none =>
    rw [serve_of_none asks]
    exact sound_unlimited app call
  | some kind =>
    rw [serve_of_some asks]
    split_ifs
    · refine sound_admitted app fun other => ?_
      rw [charged] at asks
      cases passes : forwarded app.settings.maxBodyBytes call.request with
      | error response =>
        rw [passes] at asks
        cases asks
      | ok passed =>
        rw [passes] at asks
        dsimp only at asks
        cases known : requireKey app call with
        | error e =>
          rw [known] at asks
          cases asks
        | ok right =>
          cases right with
          | false =>
            rw [known] at asks
            cases asks
          | true => exact authentic_of_known app passes known other
    · exact fun status => absurd status (by decide : 429 ≠ 200)

/-- Every value that the service gives, in whatever order its clients call, is for an authentic
request and a valid event, and every verdict is as the triage schema asks, whatever the provider
makes. -/
theorem answers_sound (calls : List (Call τ)) :
    ∀ answer ∈ answers app calls, Sound app answer.1 answer.2 :=
  MachineRuns.run_invariant (P := fun _ => True)
    (fun state call _ _ => ⟨sound_serve app state call, trivial⟩) trivial

end Sound

/-! ## Three requests -/

def sampleApp (provider : Event → Except PyError PyValue) : App ℤ noTables where
  settings := ⟨codes "test-key", 65536, 2, 30, 60, 4000⟩
  errors event := if accepts noTables event then [] else [codes "<root>: invalid"]
  errors_iff event := by
    cases accepts noTables event with
    | true => exact iff_of_true rfl rfl
    | false => exact iff_of_false nofun Bool.false_ne_true
  provider := provider

def sampleCall (time : ℤ) (endpoint : Endpoint) : Call ℤ :=
  ⟨time, some (codes "172.22.0.10"), ⟨[(codes "x-api-key", codes "test-key")], []⟩, endpoint⟩

def writeCall : Call ℤ := sampleCall 0 (.events (StubTriage.codeEvent (.int 41)))

theorem answers_sound_write : Authentic (sampleApp fun _ => .ok .none) writeCall ∧
    accepts noTables (StubTriage.codeEvent (.int 41)) = true ∧
    (serve (sampleApp fun _ => .ok .none) writeCall (start (sampleApp fun _ => .ok .none))).1 =
      taken writeCall (StubTriage.codeEvent (.int 41)) := by
  have status : (serve (sampleApp fun _ => .ok .none) writeCall
      (start (sampleApp fun _ => .ok .none))).1.reply.status = 200 := by decide +kernel
  exact answers_sound (sampleApp fun _ => .ok .none) [writeCall] (_, _)
    (List.mem_singleton_self _) status

end OtDetection.IngestService
