import OtDetection.Correlation
import OtDetection.KeyedMaps
import OtDetection.Logfmt
import OtDetection.PyNumber

/-! The Loki sink: a stream for each product and service, and a logfmt line for each event.
The sink quotes a value for a space, a quote or an equals sign, and escapes the quote and
the backslash; the grammar also sets control characters apart. `fromisoformat` and the
local zone stay parameters. -/

namespace OtDetection.LokiSink
open PyText PyNumber Correlation Logfmt ExceptSteps

/-! ## The sink -/

structure Clock where
  fromisoformat : Text → Option DateTime
  localOffset : DateTime → ℤ

def epoch : ℤ := 719162 * 86400000000

def nanoseconds (clock : Clock) (timestamp : Text) : Except PyError Text :=
  match clock.fromisoformat (replaceZ timestamp) with
  | none => .error .valueError
  | some moment =>
    let utc := moment.wall - moment.offset.getD (clock.localOffset moment)
    if 0 ≤ utc ∧ utc < wallEnd then
      match (roundDouble ((utc - epoch : ℤ) / 1000000)).bind fun seconds =>
        roundDouble (seconds * 1000000000) with
      | some product => .ok (intText (truncate product))
      | none => .error .overflowError
    else .error .overflowError

def replaceChar (old : ℕ) (new text : Text) : Text :=
  text.flatMap fun c => if c = old then new else [c]

def logfmtText (text : Text) : Text :=
  if text = [] ∨ ∃ c ∈ codes " \"=", c ∈ text then
    codes "\"" ++ (replaceChar 0x22 (codes "\\\"") (replaceChar 0x5C (codes "\\\\") text) ++
      codes "\"")
  else text

/-- A contract event: the routing fields are texts, and the names are made of characters
that the grammar takes for a key, as letters, digits and underscores are. -/
structure ContractEvent where
  fields : Event
  product : Text
  service : Text
  timestamp : Text
  product_eq : fields.lookup (codes "product") = some (.str product)
  service_eq : fields.lookup (codes "service") = some (.str service)
  timestamp_eq : fields.lookup (codes "timestamp") = some (.str timestamp)
  names : ∀ field ∈ fields, IsKey field.1

def ContractEvent.key (event : ContractEvent) : Text × Text := (event.product, event.service)

def ContractEvent.remaining (event : ContractEvent) : Event :=
  event.fields.filter fun field => field.1 ≠ codes "product" ∧ field.1 ≠ codes "service"

structure Entry where
  nanoseconds : Text
  line : Text
  deriving DecidableEq

/-- The labels and the values of a stream. -/
structure Stream where
  job : Text
  service : Text
  values : List Entry
  deriving DecidableEq

def Stream.key (stream : Stream) : Text × Text := (stream.job, stream.service)

section Sink

variable (isPrintable : ℕ → Bool) (clock : Clock)

def logfmt (value : PyValue) : Text := logfmtText (pyStr isPrintable value)

def lineOf (event : ContractEvent) : Text :=
  join (codes " ") (event.remaining.map fun field =>
    field.1 ++ (codes "=" ++ logfmt isPrintable field.2))

def entryOf (event : ContractEvent) : Except PyError Entry :=
  (nanoseconds clock event.timestamp).map fun at' => ⟨at', lineOf isPrintable event⟩

def toLokiStreams (events : List ContractEvent) : Except PyError (List Stream) := do
  let grouped ← InsertionGroups.groupM ContractEvent.key (entryOf isPrintable clock) events
  return grouped.map fun group => ⟨group.1.1, group.1.2, group.2⟩

end Sink

/-! ## Lines -/

theorem replaceChar_replaceChar (text : Text) :
    replaceChar 0x22 (codes "\\\"") (replaceChar 0x5C (codes "\\\\") text) =
      text.flatMap escape := by
  rw [replaceChar, replaceChar, List.flatMap_assoc]
  congr 1
  funext c
  by_cases backslash : c = 0x5C
  · rw [backslash]
    rfl
  · by_cases quote : c = 0x22
    · rw [quote]
      rfl
    · simp [escape, backslash, quote]

theorem logfmtText_cases (text : Text) :
    (logfmtText text = quoted text) ∨ (logfmtText text = text ∧ IsPlain text) := by
  rw [logfmtText, replaceChar_replaceChar]
  split_ifs with special
  · exact .inl rfl
  · rw [not_or] at special
    have absent : ∀ c ∈ codes " \"=", c ∉ text := fun c mem inside => special.2 ⟨c, mem, inside⟩
    exact .inr ⟨rfl, special.1, absent 0x20 (by decide), absent 0x22 (by decide),
      absent 0x3D (by decide)⟩

theorem reads_logfmtText {text : Text} (clean : NoControl text) : Reads (logfmtText text) text := by
  rcases logfmtText_cases text with same | ⟨same, plain⟩
  · rw [same]
    exact reads_quoted clean
  · rw [same]
    exact reads_plain plain clean

theorem misses_logfmtText {text : Text} (control : ¬ NoControl text) :
    Misses (logfmtText text) text := by
  rcases logfmtText_cases text with same | ⟨same, plain⟩
  · rw [same]
    exact misses_quoted control
  · rw [same]
    exact misses_plain plain control

theorem reads_logfmtText_iff (text : Text) : Reads (logfmtText text) text ↔ NoControl text := by
  refine ⟨?_, reads_logfmtText⟩
  intro reads
  by_contra control
  exact reads.not_misses (misses_logfmtText control)

variable {isPrintable : ℕ → Bool} {clock : Clock}

def ContractEvent.pairs (isPrintable : ℕ → Bool) (event : ContractEvent) : List (Text × Text) :=
  event.remaining.map fun field => (field.1, pyStr isPrintable field.2)

theorem lineOf_eq_encode (event : ContractEvent) :
    lineOf isPrintable event = encode logfmtText (event.pairs isPrintable) := by
  rw [lineOf, ContractEvent.pairs]
  induction event.remaining with
  | nil => rfl
  | cons field fields ih =>
    cases fields with
    | nil => rfl
    | cons next fields =>
      simp only [List.map_cons, join, encode] at ih ⊢
      rw [ih]
      simp only [encodePair, logfmt]
      rfl

theorem decode_lineOf_iff (event : ContractEvent) :
    decode (lineOf isPrintable event) = some (event.pairs isPrintable) ↔
      ∀ pair ∈ event.pairs isPrintable, NoControl pair.2 := by
  have keys : ∀ pair ∈ event.pairs isPrintable, IsKey pair.1 := by
    intro pair mem
    obtain ⟨field, inside, rfl⟩ := List.mem_map.mp mem
    exact event.names field (List.mem_of_mem_filter inside)
  rw [lineOf_eq_encode, decode_encode_iff keys]
  · simp only [reads_logfmtText_iff]
  · intro pair _
    by_cases clean : NoControl pair.2
    · exact .inl (reads_logfmtText clean)
    · exact .inr (misses_logfmtText clean)

/-! ## Streams -/

def eventsOf (events : List ContractEvent) (stream : Stream) : List ContractEvent :=
  events.filter fun event => event.key = stream.key

/-- One stream for each product and service, with an entry for each of its events in
their order. -/
structure Routed (isPrintable : ℕ → Bool) (clock : Clock) (events : List ContractEvent)
    (streams : List Stream) : Prop where
  nodup : (streams.map Stream.key).Nodup
  keys : ∀ key, key ∈ streams.map Stream.key ↔ ∃ event ∈ events, event.key = key
  entries : ∀ stream ∈ streams,
    stream.values.map .ok = (eventsOf events stream).map (entryOf isPrintable clock)

/-- Each line decodes to the remaining fields of its event. -/
def Decodes (isPrintable : ℕ → Bool) (events : List ContractEvent) (streams : List Stream) : Prop :=
  ∀ stream ∈ streams, stream.values.map (fun entry => decode entry.line) =
    (eventsOf events stream).map fun event => some (event.pairs isPrintable)

theorem routed_toLokiStreams {events : List ContractEvent} {streams : List Stream}
    (run : toLokiStreams isPrintable clock events = .ok streams) :
    Routed isPrintable clock events streams := by
  obtain ⟨groups, grouped, made⟩ := bind_eq_ok_iff.mp run
  have groupsOf := InsertionGroups.groups_groupM grouped
  have streams_eq : groups.map (fun group => Stream.mk group.1.1 group.1.2 group.2) = streams :=
    Except.ok.inj made
  have keys : streams.map Stream.key = groups.map Prod.fst := by
    rw [← streams_eq, List.map_map]
    rfl
  refine ⟨keys ▸ groupsOf.nodup, keys ▸ groupsOf.keys, ?_⟩
  intro stream mem
  rw [← streams_eq] at mem
  obtain ⟨group, inside, rfl⟩ := List.mem_map.mp mem
  exact groupsOf.items group inside

theorem lines_of_routed {events : List ContractEvent} {streams : List Stream}
    (routed : Routed isPrintable clock events streams) {stream : Stream} (mem : stream ∈ streams) :
    stream.values.map Entry.line = (eventsOf events stream).map (lineOf isPrintable) := by
  apply InsertionGroups.map_eq_map_of_ok (routed.entries stream mem)
  intro event entry made
  obtain ⟨at', -, same⟩ := map_eq_ok_iff.mp made
  rw [← same]

theorem decodes_iff {events : List ContractEvent} {streams : List Stream}
    (routed : Routed isPrintable clock events streams) :
    Decodes isPrintable events streams ↔
      ∀ event ∈ events, ∀ pair ∈ event.pairs isPrintable, NoControl pair.2 := by
  have each : ∀ stream ∈ streams, stream.values.map (fun entry => decode entry.line) =
      (eventsOf events stream).map fun event => decode (lineOf isPrintable event) := by
    intro stream mem
    have lines := congrArg (List.map decode) (lines_of_routed routed mem)
    rwa [List.map_map, List.map_map] at lines
  simp only [← decode_lineOf_iff]
  constructor
  · intro decodes event mem
    obtain ⟨stream, there, same⟩ := List.mem_map.mp ((routed.keys event.key).mpr ⟨event, mem, rfl⟩)
    have stream_decodes := (each stream there).symm.trans (decodes stream there)
    apply List.map_inj_left.mp stream_decodes event
    exact List.mem_filter.mpr ⟨mem, decide_eq_true same.symm⟩
  · intro lines stream there
    rw [each stream there]
    apply List.map_congr_left
    intro event mem
    exact lines event (List.mem_of_mem_filter mem)

/-- Events with dates are routed in their order, and each line decodes to its event exactly
when no remaining value has a control character. -/
theorem toLokiStreams_decodes_iff {events : List ContractEvent}
    (dated : ∀ event ∈ events, ∃ at', nanoseconds clock event.timestamp = .ok at') :
    ∃ streams, toLokiStreams isPrintable clock events = .ok streams ∧
      Routed isPrintable clock events streams ∧
      (Decodes isPrintable events streams ↔
        ∀ event ∈ events, ∀ pair ∈ event.pairs isPrintable, NoControl pair.2) := by
  have reads : ∀ event ∈ events, ∃ entry, entryOf isPrintable clock event = .ok entry := by
    intro event mem
    obtain ⟨at', moment⟩ := dated event mem
    exact ⟨_, map_eq_ok_iff.mpr ⟨at', moment, rfl⟩⟩
  obtain ⟨groups, grouped⟩ : ∃ groups, InsertionGroups.groupM ContractEvent.key
      (entryOf isPrintable clock) events = .ok groups := InsertionGroups.groupM_returns reads
  have run : toLokiStreams isPrintable clock events =
      .ok (groups.map fun group => ⟨group.1.1, group.1.2, group.2⟩) := by
    rw [toLokiStreams, grouped]
    rfl
  exact ⟨_, run, routed_toLokiStreams run, decodes_iff (routed_toLokiStreams run)⟩

/-! Alarms of the first moment of the year 1970, with a note that is quoted and with one
that has a tab. -/

def dawn : DateTime := ⟨epoch, some 0, by decide⟩

def dawnClock : Clock where
  fromisoformat text := if text = codes "1970-01-01T00:00:00+00:00" then some dawn else none
  localOffset _ := 0

def alarm (service : String) (note : Text) : ContractEvent where
  fields := [(codes "product", .str (codes "ot_ndr")), (codes "service", .str (codes service)),
    (codes "timestamp", .str (codes "1970-01-01T00:00:00Z")), (codes "unit_id", .int 7),
    (codes "note", .str note)]
  product := codes "ot_ndr"
  service := codes service
  timestamp := codes "1970-01-01T00:00:00Z"
  product_eq := rfl
  service_eq := rfl
  timestamp_eq := rfl
  names := by
    simp only [List.forall_mem_cons]
    exact ⟨by decide, by decide, by decide, by decide, by decide, by simp⟩

theorem nanoseconds_dawn :
    nanoseconds dawnClock (codes "1970-01-01T00:00:00Z") = .ok (codes "0") := by
  decide +kernel

theorem toLokiStreams_decodes_alarms :
    ∃ streams, toLokiStreams noTables.isPrintable dawnClock
        [alarm "modbus" (codes "register = \"40001\""), alarm "dnp3" (codes "C:\\trip")] =
          .ok streams ∧
      Decodes noTables.isPrintable
        [alarm "modbus" (codes "register = \"40001\""), alarm "dnp3" (codes "C:\\trip")]
        streams := by
  obtain ⟨streams, run, -, decodes⟩ := @toLokiStreams_decodes_iff noTables.isPrintable dawnClock
    [alarm "modbus" (codes "register = \"40001\""), alarm "dnp3" (codes "C:\\trip")]
    (by
      simp only [List.forall_mem_cons]
      exact ⟨⟨_, nanoseconds_dawn⟩, ⟨_, nanoseconds_dawn⟩, by simp⟩)
  exact ⟨streams, run, decodes.mpr (by decide +kernel)⟩

/-- The value is cut at the tab. -/
theorem toLokiStreams_cuts_tab :
    toLokiStreams noTables.isPrintable dawnClock [alarm "modbus" (codes "a\tb")] =
      .ok [⟨codes "ot_ndr", codes "modbus",
        [⟨codes "0", codes "timestamp=1970-01-01T00:00:00Z unit_id=7 note=a\tb"⟩]⟩] ∧
    ¬ Decodes noTables.isPrintable [alarm "modbus" (codes "a\tb")]
      [⟨codes "ot_ndr", codes "modbus",
        [⟨codes "0", codes "timestamp=1970-01-01T00:00:00Z unit_id=7 note=a\tb"⟩]⟩] := by
  have run : toLokiStreams noTables.isPrintable dawnClock [alarm "modbus" (codes "a\tb")] =
      .ok [⟨codes "ot_ndr", codes "modbus",
        [⟨codes "0", codes "timestamp=1970-01-01T00:00:00Z unit_id=7 note=a\tb"⟩]⟩] := by
    decide +kernel
  refine ⟨run, ?_⟩
  rw [decodes_iff (routed_toLokiStreams run)]
  decide +kernel

end OtDetection.LokiSink
