import OtDetection.Octets
import OtDetection.PyNumber
import Mathlib.Data.List.Induction

/-! The guard of the ingest service in front of its endpoints. It caps the body by what
the Content-Length header declares; a body that no header declares passes unread. -/

namespace OtDetection.RequestGuard
open Octets PyText PyNumber

/-- Header names are in lower case. The body comes in the chunks of the transfer. -/
structure Request where
  headers : List (Text × Text)
  chunks : List (List U8)

def Request.body (request : Request) : List U8 := request.chunks.flatten

structure Response where
  status : ℕ
  headers : List (Text × Text)
  body : Text

def detailResponse (detail : String) (status : ℕ) : Response where
  status := status
  headers := [(codes "content-length", natText (detail.length + 13)),
    (codes "content-type", codes "application/json")]
  body := codes "\x7b\"detail\":\"" ++ (codes detail ++ codes "\"\x7d")

def setHeader (name value : Text) : List (Text × Text) → List (Text × Text)
  | [] => [(name, value)]
  | header :: headers =>
    if header.1 = name then (name, value) :: headers.filter (·.1 ≠ name)
    else header :: setHeader name value headers

def securityHeaders : List (Text × Text) :=
  [("x-content-type-options", "nosniff"), ("x-frame-options", "DENY"),
    ("cache-control", "no-store"), ("content-security-policy", "default-src 'none'"),
    ("referrer-policy", "no-referrer")].map fun header => (codes header.1, codes header.2)

def latin1 : Unicode := noTables

def declaredLength (request : Request) : Option Text :=
  request.headers.lookup (codes "content-length")

def forwarded (maxBodyBytes : ℤ) (request : Request) : Except Response Request :=
  match declaredLength request with
  | none => .ok request
  | some length =>
    match intOfText latin1 length with
    | none => .error (detailResponse "invalid content-length" 400)
    | some size =>
      if size > maxBodyBytes then .error (detailResponse "request body too large" 413)
      else .ok request

def guard (maxBodyBytes : ℤ) (callNext : Request → Response) (request : Request) : Response :=
  match forwarded maxBodyBytes request with
  | .error response => response
  | .ok request =>
    let response := callNext request
    { response with
      headers := securityHeaders.foldl (fun headers header => setHeader header.1 header.2 headers)
        response.headers }

/-- What the server guarantees: a declared length is that of the body. -/
def Framed (request : Request) : Prop :=
  ∀ length ∈ declaredLength request, ∀ size ∈ intOfText latin1 length,
    (request.body.length : ℤ) = size

/-- A body that reaches an endpoint is within the cap. -/
def Capped (maxBodyBytes : ℤ) (request : Request) : Prop :=
  ∀ passed, forwarded maxBodyBytes request = .ok passed →
    (passed.body.length : ℤ) ≤ maxBodyBytes

theorem forwarded_eq_ok_iff {maxBodyBytes : ℤ} {request passed : Request} :
    forwarded maxBodyBytes request = .ok passed ↔ request = passed ∧
      ∀ length ∈ declaredLength request, ∃ size ∈ intOfText latin1 length, size ≤ maxBodyBytes := by
  unfold forwarded
  cases declaredLength request with
  | none => simp
  | some length =>
    cases read : intOfText latin1 length with
    | none => simp [read]
    | some size =>
      by_cases large : size > maxBodyBytes
      · simp [read, large, not_le.mpr large]
      · simp [read, large, not_lt.mp large]

/-- The cap holds of what reaches an endpoint exactly when the length is declared or the
body is within the cap anyway. -/
theorem forwarded_capped_iff (maxBodyBytes : ℤ) {request : Request} (framed : Framed request) :
    Capped maxBodyBytes request ↔
      (declaredLength request).isSome ∨ (request.body.length : ℤ) ≤ maxBodyBytes := by
  constructor
  · intro capped
    cases declared : declaredLength request with
    | none =>
      refine .inr (capped request (forwarded_eq_ok_iff.mpr ⟨rfl, ?_⟩))
      simp [declared]
    | some length => exact .inl rfl
  · intro covered passed passes
    obtain ⟨rfl, small⟩ := forwarded_eq_ok_iff.mp passes
    rcases covered with declared | within
    · obtain ⟨length, found⟩ := Option.isSome_iff_exists.mp declared
      obtain ⟨size, value, le⟩ := small length found
      rwa [framed length found size value]
    · exact within

def twoOctets : Request := ⟨[(codes "content-length", codes "2")], [[0x7B], [0x7D]]⟩

theorem forwarded_capped_two : Capped 2 twoOctets := by
  have framed : Framed twoOctets := by
    unfold Framed
    decide
  exact (forwarded_capped_iff 2 framed).mpr (.inl rfl)

def chunked (size : ℕ) : Request :=
  ⟨[(codes "transfer-encoding", codes "chunked")], [List.replicate size 0]⟩

theorem chunked_length (size : ℕ) : (chunked size).body.length = size := by
  rw [Request.body, chunked, List.flatten_singleton, List.length_replicate]

theorem forwarded_unbounded : Framed (chunked 65537) ∧
    forwarded 65536 (chunked 65537) = .ok (chunked 65537) ∧
    65536 < (chunked 65537).body.length := by
  have undeclared : ∀ size, declaredLength (chunked size) = none := fun _ => rfl
  refine ⟨?_, ?_, ?_⟩
  · rw [Framed, undeclared]
    simp
  · rw [forwarded, undeclared]
  · rw [chunked_length]
    decide

/-! ## Security headers -/

def Hardened (response : Response) : Prop :=
  ∀ header ∈ securityHeaders, response.headers.filter (·.1 = header.1) = [header]

def Admissible (maxBodyBytes : ℤ) (request : Request) : Prop :=
  ∀ length ∈ declaredLength request, ∃ size ∈ intOfText latin1 length, size ≤ maxBodyBytes

theorem filter_setHeader (name value other : Text) (headers : List (Text × Text)) :
    (setHeader name value headers).filter (·.1 = other) =
      if name = other then [(name, value)] else headers.filter (·.1 = other) := by
  induction headers with
  | nil => by_cases same : name = other <;> simp [setHeader, same]
  | cons header headers ih =>
    rw [setHeader]
    by_cases found : header.1 = name
    · rw [if_pos found]
      by_cases same : name = other
      · subst same
        rw [if_pos rfl, List.filter_cons_of_pos (by simp), List.filter_filter]
        simp
      · have apart : ¬ header.1 = other := found ▸ same
        rw [if_neg same, List.filter_cons_of_neg (by simpa using same), List.filter_filter,
          List.filter_cons_of_neg (by simpa using apart)]
        apply List.filter_congr
        intro kept _
        by_cases here : kept.1 = other
        · simp [here, Ne.symm same]
        · simp [here]
    · rw [if_neg found, List.filter_cons, List.filter_cons, ih]
      by_cases same : name = other
      · have apart : ¬ header.1 = other := same ▸ found
        simp [same, apart]
      · simp only [if_neg same]

theorem filter_foldl_setHeader {added : List (Text × Text)}
    (distinct : (added.map Prod.fst).Nodup) (headers : List (Text × Text)) {header : Text × Text}
    (mem : header ∈ added) :
    (added.foldl (fun headers header => setHeader header.1 header.2 headers) headers).filter
      (·.1 = header.1) = [header] := by
  induction added using List.reverseRecOn generalizing header with
  | nil => cases mem
  | append_singleton added last ih =>
    rw [List.foldl_append, List.foldl_cons, List.foldl_nil, filter_setHeader]
    rw [List.map_append, List.nodup_append] at distinct
    rcases List.mem_append.mp mem with before | here
    · have apart : ¬ last.1 = header.1 := fun same =>
        distinct.2.2 _ (List.mem_map_of_mem before) _ (List.mem_singleton_self _) same.symm
      rw [if_neg apart]
      exact ih distinct.1 before
    · rw [List.mem_singleton.mp here, if_pos rfl]

theorem not_hardened_detailResponse (detail : String) (status : ℕ) :
    ¬ Hardened (detailResponse detail status) := by
  intro hardened
  have frame := hardened (codes "x-frame-options", codes "DENY") (by decide)
  have none : (detailResponse detail status).headers.filter
      (·.1 = codes "x-frame-options") = [] := rfl
  rw [none] at frame
  cases frame

theorem eq_detailResponse {maxBodyBytes : ℤ} {request : Request} {response : Response}
    (refused : forwarded maxBodyBytes request = .error response) :
    ∃ detail status, response = detailResponse detail status := by
  unfold forwarded at refused
  split at refused
  · cases refused
  · split at refused
    · exact ⟨_, _, (Except.error.inj refused).symm⟩
    · split at refused
      · exact ⟨_, _, (Except.error.inj refused).symm⟩
      · cases refused

/-- The response has the security headers exactly when the guard does not answer by itself. -/
theorem guard_hardened_iff (maxBodyBytes : ℤ) (callNext : Request → Response)
    (request : Request) :
    Hardened (guard maxBodyBytes callNext request) ↔ Admissible maxBodyBytes request := by
  have distinct : (securityHeaders.map Prod.fst).Nodup := by decide
  rw [guard]
  cases passes : forwarded maxBodyBytes request with
  | error response =>
    obtain ⟨detail, status, rfl⟩ := eq_detailResponse passes
    refine iff_of_false (not_hardened_detailResponse detail status) fun admissible => ?_
    rw [forwarded_eq_ok_iff.mpr ⟨rfl, admissible⟩] at passes
    cases passes
  | ok passed =>
    obtain ⟨rfl, admissible⟩ := forwarded_eq_ok_iff.mp passes
    exact iff_of_true (fun header mem => filter_foldl_setHeader distinct _ mem) admissible

def oversized : Request := ⟨[(codes "content-length", codes "65537")], []⟩

theorem guard_bare : ¬ ∃ callNext, Hardened (guard 65536 callNext oversized) := by
  rintro ⟨callNext, hardened⟩
  have refused : guard 65536 callNext oversized =
      detailResponse "request body too large" 413 := rfl
  rw [refused] at hardened
  exact not_hardened_detailResponse _ _ hardened

end OtDetection.RequestGuard
