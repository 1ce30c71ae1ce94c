import OtDetection.EventLines
import OtDetection.JsonValues
import OtDetection.Matcher
import OtDetection.Steps

/-! The check that decoder output drives the rules. It runs a decoder over a document, reads
what the decoder prints, adds the routing fields of the collector to each event, and matches
the rules of the service. -/

namespace OtDetection.DecoderCheck
open PyText PyNumber JsonText PyLines JsonValues DecoderCli EventLines ExceptSteps
open Decoder (Given framesHex given_framesHex)

inductive Failure
  | calledProcess (code : ℕ)
  | jsonDecode
  | typeError
  | float
  | matcher (error : Matcher.Error)
  deriving DecidableEq

def readEvent (service : Text) (line : List Char) : Except Failure Event :=
  match loads line with
  | none => .error .jsonDecode
  | some json =>
    match valueOf json with
    | some (.dict items) =>
      .ok (update [(codes "product", .str (codes "ot_ndr")), (codes "service", .str service)] items)
    | some _ => .error .typeError
    | none => .error .float

def decode (process : Process) (service : Text) : Except Failure (List Event) :=
  if process.code ≠ 0 then .error (.calledProcess process.code)
  else
    ((splitlines (universalNewlines process.stdout)).filter fun line =>
      strip (line.map Char.toNat) ≠ []).mapM (readEvent service)

/-! ## What is read -/

def itemOf (field : String × Shown) : Text × PyValue :=
  (codes field.1, match field.2 with
    | .number n => .int n
    | .text t => .str (t.map Char.toNat))

def routed (service : Text) (fields : List (String × Shown)) : Event :=
  [(codes "product", .str (codes "ot_ndr")), (codes "service", .str service)] ++ fields.map itemOf

theorem valueOf_memberOf (field : String × Shown) :
    valueOf (memberOf field).2 = some (itemOf field).2 := by
  obtain ⟨name, shown⟩ := field
  cases shown with
  | number n => simp [memberOf, itemOf, valueOf, integerValue]
  | text t => rfl

theorem itemsOf_memberOf (fields : List (String × Shown)) :
    itemsOf (fields.map memberOf) = some (fields.map itemOf) := by
  induction fields with
  | nil => rfl
  | cons field fields ih =>
    rw [List.map_cons, itemsOf, valueOf_memberOf, ih]
    rfl

theorem names_distinct {fields : List (String × Shown)} (distinct : (fields.map Prod.fst).Nodup) :
    ((fields.map itemOf).map Prod.fst).Nodup := by
  have named : (fields.map itemOf).map Prod.fst =
      (fields.map Prod.fst).map fun name => OpcuaJsonLine.codes name.toList := by
    rw [List.map_map, List.map_map]
    rfl
  rw [named]
  exact distinct.map codes_injective

theorem readEvent_printed (service : Text) {line : List Char} {fields : List (String × Shown)}
    (printed : Printed line (fields.map memberOf))
    (distinct : (["product", "service"] ++ fields.map Prod.fst).Nodup) :
    readEvent service line = .ok (routed service fields) := by
  have inside : update [] (fields.map itemOf) = fields.map itemOf :=
    update_of_distinct (names_distinct (List.nodup_append.mp distinct).2.1)
  have all : ((routed service fields).map Prod.fst).Nodup := by
    have named : (routed service fields).map Prod.fst =
        (["product", "service"] ++ fields.map Prod.fst).map fun name =>
          OpcuaJsonLine.codes name.toList := by
      rw [routed, List.map_append, List.map_append, List.map_map, List.map_map]
      rfl
    rw [named]
    exact distinct.map codes_injective
  rw [readEvent, printed.reads]
  simp only [valueOf, itemsOf_memberOf, Option.map_some, inside]
  rw [update_of_distinct all, routed]

/-! ## Documents -/

/-- The line of a frame has the fields of the frame, none of them one of the collector. -/
structure Shows (d : Decoder) (fieldsOf : d.Frame → Option (List (String × Shown)))
    (frame : d.Frame) : Prop where
  silent : fieldsOf frame = none → d.eventLine frame = none
  shown : ∀ fields, fieldsOf frame = some fields → ∃ line, d.eventLine frame = some line ∧
    Printed line (fields.map memberOf) ∧ (["product", "service"] ++ fields.map Prod.fst).Nodup

def eventsOf (d : Decoder) (fieldsOf : d.Frame → Option (List (String × Shown))) (service : Text)
    (document : List (List Char)) : List Event :=
  ((document.flatMap d.frames).filterMap fieldsOf).map (routed service)

section Documents

variable {d : Decoder} {fieldsOf : d.Frame → Option (List (String × Shown))}

theorem mapM_readEvent (service : Text) {frames : List d.Frame}
    (shows : ∀ frame ∈ frames, Shows d fieldsOf frame) :
    (∀ line ∈ frames.filterMap d.eventLine, (∀ c ∈ line, ¬ isLineBreak c) ∧
      line.head? = some '\x7b') ∧
    (frames.filterMap d.eventLine).mapM (readEvent service) =
      .ok ((frames.filterMap fieldsOf).map (routed service)) := by
  induction frames with
  | nil => exact ⟨by simp, rfl⟩
  | cons frame frames ih =>
    obtain ⟨first, others⟩ := List.forall_mem_cons.mp shows
    obtain ⟨lines, read⟩ := ih others
    cases fields : fieldsOf frame with
    | none =>
      rw [List.filterMap_cons_none (first.silent fields), List.filterMap_cons_none fields]
      exact ⟨lines, read⟩
    | some values =>
      obtain ⟨line, shown, printed, distinct⟩ := first.shown values fields
      rw [List.filterMap_cons_some shown, List.filterMap_cons_some fields]
      refine ⟨List.forall_mem_cons.mpr ⟨⟨printed.unbroken, printed.opens⟩, lines⟩, ?_⟩
      rw [List.mapM_cons, readEvent_printed service printed distinct, read]
      rfl

theorem strip_of_opens {line : List Char} (opens : line.head? = some '\x7b') :
    strip (line.map Char.toNat) ≠ [] := by
  obtain ⟨rest, rfl⟩ := List.head?_eq_some_iff.mp opens
  rw [strip, stripBy, List.map_cons, List.dropWhile_cons_of_neg (by decide), ne_eq,
    List.reverse_eq_nil_iff, List.dropWhile_eq_nil_iff]
  intro blank
  exact absurd (blank _ (List.mem_reverse.mpr List.mem_cons_self)) (by decide)

variable {readFile : List Char → Except (List Char) (List Char)}
  {stdin : Except (List Char) (List Char)} {args : List (List Char)} {text : List Char}

theorem decode_main (service : Text) (given : Given readFile stdin args text)
    (shows : ∀ line ∈ lines text, ∀ frame ∈ d.frames line, Shows d fieldsOf frame) :
    decode (d.main readFile stdin args) service =
      if ∀ line ∈ lines text, d.fault line = none then
        .ok (eventsOf d fieldsOf service (lines text))
      else .error (.calledProcess 1) := by
  obtain ⟨stderr, -, ran⟩ := d.main_lines given
  generalize lines text = document at ran shows ⊢
  have events : document.flatMap d.events = (document.flatMap d.frames).filterMap d.eventLine := by
    rw [List.filterMap_flatMap]
    rfl
  have every : ∀ frame ∈ document.flatMap d.frames, Shows d fieldsOf frame := by
    intro frame mem
    obtain ⟨line, at_line, inside⟩ := List.mem_flatMap.mp mem
    exact shows line at_line frame inside
  obtain ⟨shown, read⟩ := mapM_readEvent service every
  have split : splitlines (universalNewlines (printed (document.flatMap d.events))) =
      (document.flatMap d.frames).filterMap d.eventLine := by
    rw [events, universalNewlines_eq_self, printed]
    · exact splitlines_printed fun line mem => (shown line mem).1
    · intro mem
      obtain ⟨line, at_line, inside⟩ := List.mem_flatMap.mp mem
      rcases List.mem_append.mp inside with inside | inside
      · exact (shown line at_line).1 _ inside (by decide)
      · simp at inside
  have kept : ((document.flatMap d.frames).filterMap d.eventLine).filter
      (fun line => strip (line.map Char.toNat) ≠ []) =
        (document.flatMap d.frames).filterMap d.eventLine :=
    List.filter_eq_self.mpr fun line mem => by simpa using strip_of_opens (shown line mem).2
  rw [ran, decode]
  by_cases clean : ∀ line ∈ document, d.fault line = none
  · rw [if_pos clean, if_pos clean, if_neg (by simp), split, kept, read]
    rfl
  · rw [if_neg clean, if_neg clean, if_pos (by simp)]

end Documents

/-! ## The three decoders -/

def dnp3FieldsOf (frame : Dnp3Link.LinkFrame) : Option (List (String × Shown)) :=
  (Dnp3Application.event frame).map dnp3Fields

def s7commFieldsOf (frame : S7comm.S7CommFrame) : Option (List (String × Shown)) :=
  (S7comm.event frame).map s7commFields

def opcuaFieldsOf (frame : OpcuaMessage.OpcUaFrame) : Option (List (String × Shown)) :=
  some (opcuaFields (OpcuaEvent.event frame))

theorem shows_dnp3 (frame : Dnp3Link.LinkFrame) : Shows dnp3 dnp3FieldsOf frame where
  silent := by
    intro silent
    change (Dnp3Application.event frame).map _ = none
    rw [Option.map_eq_none_iff.mp silent]
    rfl
  shown := by
    intro fields shown
    obtain ⟨e, yields, rfl⟩ := Option.map_eq_some_iff.mp shown
    exact ⟨e.toJson, Option.map_eq_some_iff.mpr ⟨e, yields, rfl⟩, dnp3_printed yields,
      dnp3_names e⟩

theorem shows_s7comm (frame : S7comm.S7CommFrame) : Shows s7comm s7commFieldsOf frame where
  silent := by
    intro silent
    change (S7comm.event frame).map _ = none
    rw [Option.map_eq_none_iff.mp silent]
    rfl
  shown := by
    intro fields shown
    obtain ⟨e, yields, rfl⟩ := Option.map_eq_some_iff.mp shown
    exact ⟨e.toJson, Option.map_eq_some_iff.mpr ⟨e, yields, rfl⟩, s7comm_printed yields,
      s7comm_names e⟩

/-- The URI of a message, if any, has no character that needs an escape or breaks a line. -/
def CleanUri (frame : OpcuaMessage.OpcUaFrame) : Prop :=
  ∀ uri ∈ (OpcuaEvent.event frame).securityPolicyUri,
    (∀ c ∈ uri, isPlain c) ∧ ∀ c ∈ uri, ¬ isLineBreak c

theorem shows_opcua {bytes : List Octets.U8} {frame : OpcuaMessage.OpcUaFrame} {n : ℕ}
    (parsed : OpcuaMessage.parseFrame bytes = .ok (frame, n)) (clean : CleanUri frame) :
    Shows opcua opcuaFieldsOf frame where
  silent := nofun
  shown := by
    intro fields shown
    obtain rfl := Option.some.inj shown
    exact ⟨_, rfl, opcua_printed parsed clean, opcua_names _⟩

section Texts

variable {readFile : List Char → Except (List Char) (List Char)}
  {stdin : Except (List Char) (List Char)} {args : List (List Char)} {text : List Char}

/-- Of every text the check reads what the DNP3 decoder and the S7comm decoder decoded: one event for
each event of a frame, in order, with exactly its fields. Where a line of the text is at fault there
is no event at all. -/
theorem decode_documents (given : Given readFile stdin args text) :
    decode (dnp3.main readFile stdin args) (codes "dnp3") =
        (if ∀ line ∈ lines text, dnp3.fault line = none then
          .ok (eventsOf dnp3 dnp3FieldsOf (codes "dnp3") (lines text))
        else .error (.calledProcess 1)) ∧
      decode (s7comm.main readFile stdin args) (codes "s7comm") =
        (if ∀ line ∈ lines text, s7comm.fault line = none then
          .ok (eventsOf s7comm s7commFieldsOf (codes "s7comm") (lines text))
        else .error (.calledProcess 1)) :=
  ⟨decode_main (codes "dnp3") given fun _ _ frame _ => shows_dnp3 frame,
    decode_main (codes "s7comm") given fun _ _ frame _ => shows_s7comm frame⟩

def operateFile : List Char :=
  "# Direct Operate\n05641044010003001e25c0c0050c01170000000003f19c\n".toList

def stopFile : List Char := "# PLC Stop\n03000012 02f080 32010000000100010000 29\n".toList

theorem decode_documents_operate :
    (decode (dnp3.main (framesHex operateFile) (.ok []) ["frames.hex".toList])
        (codes "dnp3") = .ok (eventsOf dnp3 dnp3FieldsOf (codes "dnp3") (lines operateFile)) ∧
      (eventsOf dnp3 dnp3FieldsOf (codes "dnp3") (lines operateFile)).length = 1) ∧
    decode (s7comm.main (framesHex stopFile) (.ok []) ["frames.hex".toList])
        (codes "s7comm") = .ok (eventsOf s7comm s7commFieldsOf (codes "s7comm") (lines stopFile)) ∧
      (eventsOf s7comm s7commFieldsOf (codes "s7comm") (lines stopFile)).length = 1 := by
  have operate := (decode_documents (given_framesHex operateFile)).1
  have stop := (decode_documents (given_framesHex stopFile)).2
  rw [if_pos (by decide +kernel)] at operate stop
  exact ⟨⟨operate, by decide +kernel⟩, stop, by decide +kernel⟩

/-- For OPC UA the same holds of the texts whose URIs are clean. -/
theorem decode_opcua (given : Given readFile stdin args text)
    (clean : ∀ line ∈ lines text, ∀ frame ∈ opcua.frames line, CleanUri frame) :
    decode (opcua.main readFile stdin args) (codes "opcua") =
      if ∀ line ∈ lines text, opcua.fault line = none then
        .ok (eventsOf opcua opcuaFieldsOf (codes "opcua") (lines text))
      else .error (.calledProcess 1) := by
  refine decode_main (codes "opcua") given fun line mem frame inside => ?_
  obtain ⟨bytes, n, parsed⟩ := opcua.exists_parse_of_mem inside
  exact shows_opcua parsed (clean line mem frame inside)

def openFile : List Char := ("4f504e46 2c000000 07000000 08000000 75726e3a6e6f6e65 ffffffff " ++
  "ffffffff 01000000 01000000 0100be01\n").toList

theorem clean_openFile : ∀ line ∈ lines openFile, ∀ frame ∈ opcua.frames line, CleanUri frame := by
  have uris : ∀ line ∈ lines openFile, ∀ frame ∈ opcua.frames line,
      (OpcuaEvent.event frame).securityPolicyUri = some "urn:none".toList := by decide +kernel
  intro line mem frame inside uri has
  obtain rfl := Option.some.inj ((uris line mem frame inside).symm.trans has)
  constructor
  · simp [isPlain]
  · simp [isLineBreak]

theorem decode_opcua_open :
    decode (opcua.main (framesHex openFile) (.ok []) ["frames.hex".toList])
        (codes "opcua") = .ok (eventsOf opcua opcuaFieldsOf (codes "opcua") (lines openFile)) ∧
      (eventsOf opcua opcuaFieldsOf (codes "opcua") (lines openFile)).length = 1 := by
  have read := decode_opcua (given_framesHex openFile) clean_openFile
  rw [if_pos (by decide +kernel)] at read
  exact ⟨read, by decide +kernel⟩

end Texts

/-! ## Rules -/

def fired (py : Matcher.Interpreter) (rules : List Matcher.SigmaRule) (event : Event) :
    Except Failure (List Text) := do
  let matched ← rules.mapM fun rule =>
    ((Matcher.matchRule py rule event).mapError .matcher).map fun hit => (rule.title, hit)
  .ok ((matched.filter Prod.snd).map Prod.fst)

structure Summary where
  events : ℕ
  unmatchedEvents : ℕ
  expected : List Text
  observed : List Text
  deriving DecidableEq, Repr

def rulesForService (rules : List Matcher.SigmaRule) (service : Text) : List Matcher.SigmaRule :=
  rules.filter fun rule => rule.service = some service

def evaluate (py : Matcher.Interpreter) (rules : List Matcher.SigmaRule) (service : Text)
    (expected : List Text) (decoded : Except Failure (List Event)) : Except Failure Summary := do
  let selected := rulesForService rules service
  let events ← decoded
  let titles ← events.mapM (fired py selected)
  .ok ⟨events.length, (titles.filter List.isEmpty).length, sortTexts expected.dedup,
    sortTexts titles.flatten.dedup⟩

def Summary.passes (summary : Summary) : Bool :=
  summary.observed.all summary.expected.contains && summary.expected.all summary.observed.contains

/-- A rule of the service matches one of the events. -/
def Observed (py : Matcher.Interpreter) (rules : List Matcher.SigmaRule) (service : Text)
    (events : List Event) (title : Text) : Prop :=
  ∃ rule ∈ rules, rule.service = some service ∧ rule.title = title ∧
    ∃ event ∈ events, Matcher.matchRule py rule event = .ok true

section Rules

variable {py : Matcher.Interpreter} {rules : List Matcher.SigmaRule}

theorem fired_returns_iff (event : Event) :
    (∃ titles, fired py rules event = .ok titles) ↔
      ∀ rule ∈ rules, ∃ b, Matcher.matchRule py rule event = .ok b := by
  have each (rule : Matcher.SigmaRule) :
      (∃ titled, ((Matcher.matchRule py rule event).mapError Failure.matcher).map
        (fun hit => (rule.title, hit)) = .ok titled) ↔
        ∃ b, Matcher.matchRule py rule event = .ok b := by
    rw [map_returns_iff]
    simp only [mapError_eq_ok_iff]
  constructor
  · rintro ⟨titles, run⟩
    obtain ⟨matched, ran, -⟩ := bind_eq_ok_iff.mp run
    exact fun rule mem => (each rule).mp (mapM_returns_iff.mp ⟨matched, ran⟩ rule mem)
  · intro returns
    obtain ⟨matched, ran⟩ := mapM_returns_iff.mpr fun rule mem => (each rule).mpr (returns rule mem)
    exact ⟨_, bind_eq_ok_iff.mpr ⟨matched, ran, rfl⟩⟩

theorem mem_fired_iff {event : Event} {titles : List Text}
    (run : fired py rules event = .ok titles) (title : Text) :
    title ∈ titles ↔
      ∃ rule ∈ rules, rule.title = title ∧ Matcher.matchRule py rule event = .ok true := by
  obtain ⟨matched, ran, kept⟩ := bind_eq_ok_iff.mp run
  obtain rfl := Except.ok.inj kept
  have hit : title ∈ (matched.filter Prod.snd).map Prod.fst ↔ (title, true) ∈ matched := by
    simp
  rw [hit, mem_mapM_iff ran]
  refine exists_congr fun rule => and_congr_right fun _ => ?_
  simp only [map_eq_ok_iff, mapError_eq_ok_iff, Prod.mk.injEq]
  constructor
  · rintro ⟨b, result, named, rfl⟩
    exact ⟨named, result⟩
  · rintro ⟨named, result⟩
    exact ⟨true, result, named, rfl⟩

theorem passes_iff (summary : Summary) :
    summary.passes = true ↔ ∀ title, title ∈ summary.expected ↔ title ∈ summary.observed := by
  simp only [Summary.passes, Bool.and_eq_true, List.all_eq_true, List.contains_iff_mem]
  exact ⟨fun both title => ⟨both.2 title, both.1 title⟩,
    fun same => ⟨fun title => (same title).mpr, fun title => (same title).mp⟩⟩

theorem evaluate_ok_iff (service : Text) (expected : List Text) (events : List Event) :
    (∃ summary, evaluate py rules service expected (.ok events) = .ok summary ∧
      summary.passes = true) ↔
      (∀ rule ∈ rules, rule.service = some service → ∀ event ∈ events,
        ∃ b, Matcher.matchRule py rule event = .ok b) ∧
      ∀ title, title ∈ expected ↔ Observed py rules service events title := by
  have returns : (∃ titles, events.mapM (fired py (rulesForService rules service)) = .ok titles) ↔
      ∀ rule ∈ rules, rule.service = some service → ∀ event ∈ events,
        ∃ b, Matcher.matchRule py rule event = .ok b := by
    simp only [mapM_returns_iff, fired_returns_iff, rulesForService, List.mem_filter,
      decide_eq_true_eq]
    exact ⟨fun all rule mem own event at_event => all event at_event rule ⟨mem, own⟩,
      fun all event at_event rule own => all rule own.1 own.2 event at_event⟩
  have observed (titles : List (List Text))
      (run : events.mapM (fired py (rulesForService rules service)) = .ok titles) (title : Text) :
      title ∈ sortTexts titles.flatten.dedup ↔ Observed py rules service events title := by
    rw [mem_sortTexts, List.mem_dedup, List.mem_flatten]
    constructor
    · rintro ⟨list, inside, mem⟩
      obtain ⟨event, at_event, ran⟩ := (mem_mapM_iff run list).mp inside
      obtain ⟨rule, selected, named, hit⟩ := (mem_fired_iff ran title).mp mem
      obtain ⟨at_rule, own⟩ := List.mem_filter.mp selected
      exact ⟨rule, at_rule, of_decide_eq_true own, named, event, at_event, hit⟩
    · rintro ⟨rule, at_rule, own, named, event, at_event, hit⟩
      obtain ⟨list, ran⟩ := mapM_returns_iff.mp ⟨titles, run⟩ event at_event
      refine ⟨list, (mem_mapM_iff run list).mpr ⟨event, at_event, ran⟩,
        (mem_fired_iff ran title).mpr ⟨rule, ?_, named, hit⟩⟩
      exact List.mem_filter.mpr ⟨at_rule, decide_eq_true own⟩
  have expectation (title : Text) : title ∈ sortTexts expected.dedup ↔ title ∈ expected := by
    rw [mem_sortTexts, List.mem_dedup]
  constructor
  · rintro ⟨summary, run, passes⟩
    obtain ⟨titles, ran, rest⟩ := bind_eq_ok_iff.mp run
    obtain rfl := Except.ok.inj rest
    refine ⟨returns.mp ⟨titles, ran⟩, fun title => ?_⟩
    rw [← expectation title, ← observed titles ran title]
    exact (passes_iff _).mp passes title
  · rintro ⟨all, same⟩
    obtain ⟨titles, ran⟩ := returns.mpr all
    refine ⟨_, bind_eq_ok_iff.mpr ⟨titles, ran, rfl⟩, (passes_iff _).mpr fun title => ?_⟩
    rw [expectation title, observed titles ran title]
    exact same title

variable {readFile : List Char → Except (List Char) (List Char)}
  {stdin : Except (List Char) (List Char)} {args : List (List Char)} {text : List Char}

/-- The check of a service ends with the expected titles. -/
def Passes (py : Matcher.Interpreter) (rules : List Matcher.SigmaRule) (service : Text)
    (expected : List Text) (process : Process) : Prop :=
  ∃ summary, evaluate py rules service expected (decode process service) = .ok summary ∧
    summary.passes = true

/-- No line of the document is at fault, no rule of the service raises on an event, and the
expected titles are those of the rules that match an event of some frame. -/
structure AsExpected (py : Matcher.Interpreter) (rules : List Matcher.SigmaRule) (d : Decoder)
    (fieldsOf : d.Frame → Option (List (String × Shown))) (service : Text) (expected : List Text)
    (document : List (List Char)) : Prop where
  faultless : ∀ line ∈ document, d.fault line = none
  evaluated : ∀ rule ∈ rules, rule.service = some service →
    ∀ event ∈ eventsOf d fieldsOf service document,
      ∃ b, Matcher.matchRule py rule event = .ok b
  titles : ∀ title, title ∈ expected ↔
    Observed py rules service (eventsOf d fieldsOf service document) title

theorem passes_main_iff {d : Decoder} {fieldsOf : d.Frame → Option (List (String × Shown))}
    (service : Text) (expected : List Text) (given : Given readFile stdin args text)
    (shows : ∀ line ∈ lines text, ∀ frame ∈ d.frames line, Shows d fieldsOf frame) :
    Passes py rules service expected (d.main readFile stdin args) ↔
      AsExpected py rules d fieldsOf service expected (lines text) := by
  rw [Passes, decode_main service given shows]
  by_cases clean : ∀ line ∈ lines text, d.fault line = none
  · rw [if_pos clean, evaluate_ok_iff]
    exact ⟨fun both => ⟨clean, both.1, both.2⟩, fun all => ⟨all.evaluated, all.titles⟩⟩
  · rw [if_neg clean]
    constructor
    · rintro ⟨summary, run, -⟩
      exact nomatch run
    · exact fun all => absurd all.faultless clean

/-- The check passes exactly when it should, of every text for DNP3 and for S7comm, and for OPC UA of
those whose URIs are clean. -/
theorem evaluate_document (py : Matcher.Interpreter) (rules : List Matcher.SigmaRule)
    (expected : List Text) (given : Given readFile stdin args text) :
    (Passes py rules (codes "dnp3") expected (dnp3.main readFile stdin args) ↔
      AsExpected py rules dnp3 dnp3FieldsOf (codes "dnp3") expected (lines text)) ∧
    (Passes py rules (codes "s7comm") expected (s7comm.main readFile stdin args) ↔
      AsExpected py rules s7comm s7commFieldsOf (codes "s7comm") expected (lines text)) ∧
    ((∀ line ∈ lines text, ∀ frame ∈ opcua.frames line, CleanUri frame) →
      (Passes py rules (codes "opcua") expected (opcua.main readFile stdin args) ↔
        AsExpected py rules opcua opcuaFieldsOf (codes "opcua") expected (lines text))) := by
  refine ⟨passes_main_iff (codes "dnp3") expected given fun _ _ frame _ => shows_dnp3 frame,
    passes_main_iff (codes "s7comm") expected given fun _ _ frame _ => shows_s7comm frame,
    fun clean => ?_⟩
  refine passes_main_iff (codes "opcua") expected given fun line mem frame inside => ?_
  obtain ⟨bytes, n, parsed⟩ := opcua.exists_parse_of_mem inside
  exact shows_opcua parsed (clean line mem frame inside)

def operateRule : Matcher.SigmaRule :=
  ⟨codes "Direct Operate", some (codes "ot_ndr"), some (codes "dnp3"), none,
    [.leaf (.field (codes "function_code") (.number ⟨5, by decide +kernel⟩))]⟩

theorem evaluate_document_operate :
    Passes Matcher.plainPatterns [operateRule] (codes "dnp3") [codes "Direct Operate"]
      (dnp3.main (framesHex operateFile) (.ok []) ["frames.hex".toList]) := by
  have given := given_framesHex operateFile
  have hits : ∀ event ∈ eventsOf dnp3 dnp3FieldsOf (codes "dnp3") (lines operateFile),
      Matcher.matchRule Matcher.plainPatterns operateRule event = .ok true := by decide +kernel
  obtain ⟨event, mem⟩ : ∃ event, event ∈ eventsOf dnp3 dnp3FieldsOf (codes "dnp3")
      (lines operateFile) := List.exists_mem_of_ne_nil _ (by decide +kernel)
  refine (evaluate_document Matcher.plainPatterns [operateRule] [codes "Direct Operate"] given).1.mpr
    ⟨by decide +kernel, ?_, fun title => ?_⟩
  · rw [List.forall_mem_singleton]
    exact fun _ event inside => ⟨true, hits event inside⟩
  · rw [List.mem_singleton, Observed]
    simp only [List.exists_mem_cons_iff, List.not_mem_nil, false_and, exists_false, or_false]
    constructor
    · rintro rfl
      exact ⟨rfl, rfl, event, mem, hits event mem⟩
    · rintro ⟨-, named, -⟩
      exact named.symm

end Rules

end OtDetection.DecoderCheck
