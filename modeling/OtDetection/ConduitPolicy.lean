import OtDetection.IpAddress

/-! Conduit rules over the zone and conduit policy. The evaluator looks up one conduit for
the zones of a flow, the first that is declared; the two rules decide the policy as
long as that conduit speaks for all of its pair. -/

namespace OtDetection.ConduitPolicy
open PyText FieldLookup PyNumber IpAddress

structure Zone where
  name : Text
  cidr : Text

structure Conduit where
  fromZone : Text
  toZone : Text
  ports : Option (List ℤ)

structure Policy where
  zones : List Zone
  conduits : List Conduit

/-- The deviation a rule names. -/
inductive ConduitType
  | undeclaredPath
  | undeclaredService
  | other (type : PyValue)

structure ConduitRule where
  title : PyValue
  conduit : Option ConduitType

inductive Error
  | unsupportedConduit (message : Text)
  | raised (error : PyError)
  deriving DecidableEq

section Evaluate

variable (unicode : Unicode)

def findZone (address : Address) : List Zone → Except Error (Option Text)
  | [] => .ok none
  | zone :: zones =>
    match ipNetwork zone.cidr with
    | none => .error (.raised .valueError)
    | some network =>
      if network.contains address then .ok (some zone.name) else findZone address zones

def zoneFor (address : PyValue) (policy : Policy) : Except Error (Option Text) :=
  if !truthy address then .ok none
  else match ipAddress (pyStr unicode.isPrintable address) with
  | none => .ok none
  | some parsed => findZone parsed policy.zones

def declares (source dest : Text) (conduit : Conduit) : Bool :=
  conduit.fromZone = source ∧ conduit.toZone = dest

def conduitFor (policy : Policy) (source dest : Text) : Option Conduit :=
  policy.conduits.find? (declares source dest)

def undeclaredService (conduit : Conduit) (port : PyValue) : Except Error Bool :=
  match intOf unicode port with
  | .error .overflowError => .error (.raised .overflowError)
  | .error _ => .ok false
  | .ok port =>
    match conduit.ports with
    | none | some [] => .ok false
    | some ports => .ok (decide (port ∉ ports))

def judge (kind : ConduitType) (conduit : Option Conduit) (port : PyValue) : Except Error Bool :=
  match kind with
  | .undeclaredPath => .ok conduit.isNone
  | .undeclaredService =>
    match conduit with
    | none => .ok false
    | some conduit => undeclaredService unicode conduit port
  | .other type => .error (.unsupportedConduit
      (codes "unsupported conduit type: " ++ pyRepr unicode.isPrintable type))

def matchConduit (rule : ConduitRule) (event : Event) (policy : Policy) : Except Error Bool :=
  match rule.conduit with
  | none => .error (.unsupportedConduit (codes "rule '" ++
      (pyStr unicode.isPrintable rule.title ++ codes "' has no conduit block")))
  | some kind => do
    let source ← zoneFor unicode (eventGet event "src_ip") policy
    let dest ← zoneFor unicode (eventGet event "dst_ip") policy
    match source, dest with
    | some source, some dest =>
      if source = dest then return false
      else judge unicode kind (conduitFor policy source dest) (eventGet event "dst_port")
    | _, _ => return false

end Evaluate

/-! ## What the policy declares -/

def declared (policy : Policy) (source dest : Text) : List Conduit :=
  policy.conduits.filter (declares source dest)

/-- Without a port list every port is permitted. -/
def Permits (conduit : Conduit) (port : ℤ) : Prop := ∀ ports ∈ conduit.ports, port ∈ ports

instance (conduit : Conduit) (port : ℤ) : Decidable (Permits conduit port) :=
  inferInstanceAs (Decidable (∀ _ ∈ _, _))

/-- The evaluator passes a port over a conduit: it takes an empty list for none. -/
def Passes (conduit : Conduit) (port : ℤ) : Prop := conduit.ports = some [] ∨ Permits conduit port

instance (conduit : Conduit) (port : ℤ) : Decidable (Passes conduit port) :=
  inferInstanceAs (Decidable (_ ∨ _))

/-- Both rules on a flow to `port` between two zones with the conduits `paths`: a path
that is not declared, a port that no declared conduit permits, or a flow that one
permits. -/
def Decided (paths : List Conduit) (port : ℤ) (path service : Except Error Bool) : Prop :=
  (path = .ok true ∧ service = .ok false ∧ paths = []) ∨
  (path = .ok false ∧ service = .ok true ∧ paths ≠ [] ∧ ∀ conduit ∈ paths, ¬ Permits conduit port) ∨
  (path = .ok false ∧ service = .ok false ∧ ∃ conduit ∈ paths, Permits conduit port)

theorem conduitFor_eq_head? (policy : Policy) (source dest : Text) :
    conduitFor policy source dest = (declared policy source dest).head? := by
  rw [conduitFor, declared, List.head?_filter]

theorem matchConduit_between {unicode : Unicode} {event : Event} {policy : Policy}
    {source dest : Text} (from_zone : zoneFor unicode (eventGet event "src_ip") policy =
      .ok (some source))
    (to_zone : zoneFor unicode (eventGet event "dst_ip") policy = .ok (some dest))
    (differ : source ≠ dest) (title : PyValue) (kind : ConduitType) :
    matchConduit unicode ⟨title, some kind⟩ event policy =
      judge unicode kind (declared policy source dest).head? (eventGet event "dst_port") := by
  rw [← conduitFor_eq_head?]
  simp only [matchConduit, from_zone, to_zone]
  exact if_neg differ

theorem undeclaredService_int (unicode : Unicode) (conduit : Conduit) (port : ℤ) :
    ∃ b, undeclaredService unicode conduit (.int port) = .ok b ∧
      (b = false ↔ Passes conduit port) := by
  unfold undeclaredService Passes Permits
  cases conduit.ports with
  | none => exact ⟨false, rfl, by simp⟩
  | some ports =>
    cases ports with
    | nil => exact ⟨false, rfl, by simp⟩
    | cons first ports =>
      refine ⟨decide (port ∉ first :: ports), rfl, ?_⟩
      rw [decide_eq_false_iff_not, not_not]
      simp

/-- Both rules decide the policy exactly when the first conduit of the pair passes the
port just in case some conduit of the pair permits it. -/
theorem matchConduit_decides_iff {unicode : Unicode} {event : Event} {policy : Policy}
    {source dest : Text} {port : ℤ}
    (from_zone : zoneFor unicode (eventGet event "src_ip") policy = .ok (some source))
    (to_zone : zoneFor unicode (eventGet event "dst_ip") policy = .ok (some dest))
    (differ : source ≠ dest) (at_port : eventGet event "dst_port" = .int port)
    (title : PyValue) :
    Decided (declared policy source dest) port
        (matchConduit unicode ⟨title, some .undeclaredPath⟩ event policy)
        (matchConduit unicode ⟨title, some .undeclaredService⟩ event policy) ↔
      ∀ first ∈ (declared policy source dest).head?,
        (Passes first port ↔ ∃ conduit ∈ declared policy source dest, Permits conduit port) := by
  rw [matchConduit_between from_zone to_zone differ, matchConduit_between from_zone to_zone differ,
    at_port]
  cases paths : declared policy source dest with
  | nil => simp [Decided, judge]
  | cons first rest =>
    obtain ⟨b, evaluates, passes⟩ := undeclaredService_int unicode first port
    have service : judge unicode .undeclaredService (first :: rest).head? (.int port) = .ok b :=
      evaluates
    have path : judge unicode .undeclaredPath (first :: rest).head? (.int port) = .ok false := rfl
    have decided : Decided (first :: rest) port (.ok false) (.ok b) ↔
        (b = true ∧ ∀ conduit ∈ first :: rest, ¬ Permits conduit port) ∨
          (b = false ∧ ∃ conduit ∈ first :: rest, Permits conduit port) := by
      simp only [Decided, Except.ok.injEq, Bool.false_eq_true, false_and, false_or, true_and, ne_eq,
        reduceCtorEq, not_false_eq_true]
    rw [service, path, decided]
    simp only [List.head?_cons, Option.mem_some_iff, forall_eq', ← passes]
    cases b with
    | false => simp
    | true => simp

/-! Two zones with two conduits from the one to the other. -/

def plant : Policy where
  zones := [⟨codes "control", codes "172.21.0.0/24"⟩, ⟨codes "field", codes "172.31.0.0/24"⟩]
  conduits := [⟨codes "control", codes "field", some [502]⟩,
    ⟨codes "control", codes "field", some [20000]⟩]

def flow (port : ℤ) : Event :=
  [(codes "src_ip", .str (codes "172.21.0.20")), (codes "dst_ip", .str (codes "172.31.0.10")),
    (codes "dst_port", .int port)]

theorem flow_from (port : ℤ) : zoneFor noTables (eventGet (flow port) "src_ip") plant =
    .ok (some (codes "control")) := by
  have source : eventGet (flow port) "src_ip" = .str (codes "172.21.0.20") := rfl
  rw [source]
  decide +kernel

theorem flow_to (port : ℤ) : zoneFor noTables (eventGet (flow port) "dst_ip") plant =
    .ok (some (codes "field")) := by
  have dest : eventGet (flow port) "dst_ip" = .str (codes "172.31.0.10") := rfl
  rw [dest]
  decide +kernel

theorem matchConduit_decides_first :
    Decided (declared plant (codes "control") (codes "field")) 502
      (matchConduit noTables ⟨.none, some .undeclaredPath⟩ (flow 502) plant)
      (matchConduit noTables ⟨.none, some .undeclaredService⟩ (flow 502) plant) :=
  (matchConduit_decides_iff (flow_from 502) (flow_to 502) (by decide) rfl .none).mpr
    (by decide +kernel)

theorem matchConduit_misses_second :
    (∃ conduit ∈ declared plant (codes "control") (codes "field"), Permits conduit 20000) ∧
    matchConduit noTables ⟨.none, some .undeclaredService⟩ (flow 20000) plant = .ok true ∧
    ¬ Decided (declared plant (codes "control") (codes "field")) 20000
      (matchConduit noTables ⟨.none, some .undeclaredPath⟩ (flow 20000) plant)
      (matchConduit noTables ⟨.none, some .undeclaredService⟩ (flow 20000) plant) := by
  have path : matchConduit noTables ⟨.none, some .undeclaredPath⟩ (flow 20000) plant =
      .ok false := by decide +kernel
  have service : matchConduit noTables ⟨.none, some .undeclaredService⟩ (flow 20000) plant =
      .ok true := by decide +kernel
  have permitted : ∃ conduit ∈ declared plant (codes "control") (codes "field"),
      Permits conduit 20000 := by decide +kernel
  refine ⟨permitted, service, ?_⟩
  rw [path, service]
  rintro (⟨fires, -⟩ | ⟨-, -, -, none⟩ | ⟨-, fires, -⟩)
  · cases fires
  · obtain ⟨conduit, mem, permits⟩ := permitted
    exact none conduit mem permits
  · cases fires

end OtDetection.ConduitPolicy
