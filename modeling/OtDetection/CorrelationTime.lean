import OtDetection.CorrelationEnds
import OtDetection.CorrelationMoments
import OtDetection.IsoTime

/-! Correlation time and contract time. The evaluator reads the matched timestamps of a list of
events and those of the same list with normalized timestamps, and has one result when it ends in the
same way on both: with the error of a single rule, or with the earliest window that stops it. A rule
that does not look at the text of a timestamp ends so where each time is read as the contract reads
it and no naive time stands beside an aware one. -/

namespace OtDetection.Correlation
open PyText PyNumber FieldLookup IsoTime ExceptSteps

/-! ## Normalized events -/

def timestampText (event : Event) : Option Text :=
  match event.lookup (codes "timestamp") with
  | some (.str text) => some text
  | _ => none

def readTime (event : Event) : Option DateTime :=
  (timestampText event).bind fun text => fromisoformat (replaceZ text)

def setTimestamp (event : Event) (text : Text) : Event :=
  event.map fun field => if field.1 = codes "timestamp" then (field.1, .str text) else field

section Normalized

variable (unicode : Unicode)

def contractTime (event : Event) : Option DateTime :=
  (timestampText event).bind (contractMoment unicode)

def normalizeEvent (event : Event) : Event :=
  (((timestampText event).bind (normalizeTimestamp unicode)).map (setTimestamp event)).getD event

/-- The timestamp is a text that the contract accepts. -/
def Accepted (event : Event) : Prop :=
  ∃ text, event.lookup (codes "timestamp") = some (.str text) ∧
    ∃ normalized, normalizeTimestamp unicode text = some normalized

variable {unicode}

theorem timestampText_eq {event : Event} {text : Text}
    (given : event.lookup (codes "timestamp") = some (.str text)) :
    timestampText event = some text := by
  rw [timestampText, given]

theorem lookup_setTimestamp {event : Event} {value : PyValue}
    (given : event.lookup (codes "timestamp") = some value) (text : Text) :
    (setTimestamp event text).lookup (codes "timestamp") = some (.str text) := by
  induction event with
  | nil => cases given
  | cons field event ih =>
    obtain ⟨name, old⟩ := field
    rw [setTimestamp, List.map_cons]
    by_cases here : name = codes "timestamp"
    · rw [if_pos here, List.lookup_cons, here, beq_self_eq_true]
    · have other : (codes "timestamp" == name) = false := by
        rw [beq_eq_false_iff_ne]
        exact Ne.symm here
      rw [if_neg here, List.lookup_cons, other]
      rw [List.lookup_cons, other] at given
      exact ih given

theorem offset_contractMoment {text : Text} {moment : DateTime}
    (h : contractMoment unicode text = some moment) : moment.offset = some 0 := by
  obtain ⟨parsed, -, utc⟩ := Option.bind_eq_some_iff.mp h
  rw [toUtc, ofWall] at utc
  split at utc
  · rw [← Option.some.inj utc]
  · cases utc

theorem contractMoment_nil : contractMoment unicode [] = none := rfl

def Stamped (event : Event) : Prop :=
  ∃ text, event.lookup (codes "timestamp") = some (.str text) ∧ text ≠ []

variable {ε : Type} {isPrintable : ℕ → Bool}

theorem Stamped.eventTime_eq {event : Event} (stamped : Stamped event) (title : Text) :
    ∃ message, eventTime (ε := ε) isPrintable fromisoformat title event =
      (readTime event).elim (.error (.unsupportedCorrelation message)) .ok := by
  obtain ⟨text, given, nonempty⟩ := stamped
  have there : (!truthy (.str text)) = false := by simp [truthy, nonempty]
  refine ⟨codes "unparsable event timestamp: " ++ text, ?_⟩
  rw [eventTime, given, readTime, timestampText_eq given, Option.bind_some]
  simp only [Option.getD_some, there, Bool.false_eq_true, if_false, pyStr]
  cases fromisoformat (replaceZ text) <;> rfl

theorem Accepted.stamped {event : Event} (accepted : Accepted unicode event) : Stamped event := by
  obtain ⟨text, given, normalized, normal⟩ := accepted
  refine ⟨text, given, ?_⟩
  rintro rfl
  obtain ⟨moment, contract, -⟩ := Option.map_eq_some_iff.mp normal
  rw [contractMoment_nil] at contract
  cases contract

theorem Accepted.normalized {event : Event} (accepted : Accepted unicode event) :
    ∃ moment, contractTime unicode event = some moment ∧ moment.isAware ∧
      Stamped (normalizeEvent unicode event) ∧
      readTime (normalizeEvent unicode event) = some moment := by
  obtain ⟨text, given, normalized, normal⟩ := accepted
  obtain ⟨moment, contract, rfl⟩ := Option.map_eq_some_iff.mp normal
  have utc := offset_contractMoment contract
  have aware : moment.isAware := by
    rw [DateTime.isAware, utc]
    rfl
  have parsed := fromisoformat_normalized utc
  have replaced : normalizeEvent unicode event = setTimestamp event
      (replaceFrom (codes "+00:00") (codes "Z") 0 (isoformat moment)) := by
    rw [normalizeEvent, timestampText_eq given, Option.bind_some, normal]
    rfl
  have stamp := lookup_setTimestamp given
    (replaceFrom (codes "+00:00") (codes "Z") 0 (isoformat moment))
  refine ⟨moment, ?_, aware, ⟨_, replaced ▸ stamp, ?_⟩, ?_⟩
  · rw [contractTime, timestampText_eq given, Option.bind_some, contract]
  · intro empty
    rw [empty] at parsed
    cases parsed
  · rw [replaced, readTime, timestampText_eq stamp, Option.bind_some, parsed]

end Normalized

/-! ## The first loop -/

section FirstLoop

variable {Rule ε : Type} (matchRule : Rule → Event → Except ε Bool) (rule : CorrelationRule Rule)

/-- The events up to the first on which a single rule raises. -/
def reached (events : List Event) : List Event :=
  events.takeWhile fun event => (isMatched matchRule rule event).isOk

/-- The first event on which a single rule raises raises this. -/
def Raises (events : List Event) (e : ε) : Prop :=
  ∃ event, events.find? (fun event => !(isMatched matchRule rule event).isOk) = some event ∧
    isMatched matchRule rule event = .error e

/-- The evaluator can read the time of every matched event that it comes to. -/
def Readable (events : List Event) : Prop :=
  ∀ event ∈ reached matchRule rule events, isMatched matchRule rule event = .ok true →
    (readTime event).isSome

def readPairs (events : List Event) : List (DateTime × Event) :=
  events.filterMap fun event =>
    match isMatched matchRule rule event with
    | .ok true => (readTime event).map fun moment => (moment, event)
    | _ => none

variable {matchRule rule} {event : Event} {events : List Event}

theorem Raises.unique {e e' : ε} (raises : Raises matchRule rule events e)
    (raises' : Raises matchRule rule events e') : e = e' := by
  obtain ⟨event, first, fails⟩ := raises
  obtain ⟨event', first', fails'⟩ := raises'
  obtain rfl := Option.some.inj (first.symm.trans first')
  exact Except.error.inj (fails.symm.trans fails')

theorem raises_cons_of_error {e : ε} (fails : isMatched matchRule rule event = .error e) :
    Raises matchRule rule (event :: events) e := by
  refine ⟨event, ?_, fails⟩
  rw [List.find?_cons, fails]
  rfl

theorem raises_cons_of_ok {b : Bool} (evaluated : isMatched matchRule rule event = .ok b) (e : ε) :
    Raises matchRule rule (event :: events) e ↔ Raises matchRule rule events e := by
  rw [Raises, List.find?_cons, evaluated]
  rfl

theorem readable_cons_of_error {e : ε} (fails : isMatched matchRule rule event = .error e) :
    Readable matchRule rule (event :: events) := by
  rw [Readable, reached, List.takeWhile_cons, fails]
  exact List.forall_mem_nil _

theorem readable_cons_of_ok {b : Bool} (evaluated : isMatched matchRule rule event = .ok b) :
    Readable matchRule rule (event :: events) ↔
      (b = true → (readTime event).isSome) ∧ Readable matchRule rule events := by
  have here : isMatched matchRule rule event = .ok true ↔ b = true := by
    rw [evaluated, Except.ok.injEq]
  rw [Readable, reached, List.takeWhile_cons, evaluated]
  change (∀ x ∈ event :: reached matchRule rule events, _) ↔ _
  rw [List.forall_mem_cons, here]
  exact Iff.rfl

theorem matchedEvents_stamped (isPrintable : ℕ → Bool)
    (stamped : ∀ event ∈ events, Stamped event) :
    (¬ Readable matchRule rule events ∧
      ∃ message, matchedEvents matchRule isPrintable fromisoformat rule.title
        (rule.referencedRules.filterMap id) events = .error (.unsupportedCorrelation message)) ∨
    (Readable matchRule rule events ∧
      ((∃ e, Raises matchRule rule events e ∧
        matchedEvents matchRule isPrintable fromisoformat rule.title
          (rule.referencedRules.filterMap id) events = .error (.raised e)) ∨
      ((∀ e, ¬ Raises matchRule rule events e) ∧
        matchedEvents matchRule isPrintable fromisoformat rule.title
          (rule.referencedRules.filterMap id) events = .ok (readPairs matchRule rule events)))) := by
  induction events with
  | nil =>
    refine .inr ⟨List.forall_mem_nil _, .inr ⟨?_, rfl⟩⟩
    rintro e ⟨event, first, -⟩
    cases first
  | cons event events ih =>
    obtain ⟨stamp, stamped⟩ := List.forall_mem_cons.mp stamped
    have search : anyMatch matchRule event (rule.referencedRules.filterMap id) =
      isMatched matchRule rule event := rfl
    cases evaluated : isMatched matchRule rule event with
    | error e =>
      refine .inr ⟨readable_cons_of_error evaluated, .inl ⟨e, raises_cons_of_error evaluated, ?_⟩⟩
      rw [matchedEvents, search, evaluated]
      rfl
    | ok b =>
      simp only [readable_cons_of_ok evaluated, raises_cons_of_ok evaluated]
      rw [matchedEvents, search, evaluated]
      cases b with
      | false =>
        have skipped : readPairs matchRule rule (event :: events) =
            readPairs matchRule rule events := by
          rw [readPairs, List.filterMap_cons, evaluated]
          rfl
        simp only [skipped, Bool.false_eq_true, false_imp_iff, true_and]
        exact ih stamped
      | true =>
        obtain ⟨message, timed⟩ := @Stamped.eventTime_eq ε isPrintable event stamp rule.title
        cases read : readTime event with
        | none =>
          rw [read] at timed
          refine .inl ⟨fun readable => Bool.false_ne_true (readable.1 rfl), message, ?_⟩
          simp only [Except.mapError, timed, bind, Except.bind, if_true, Option.elim_none]
        | some moment =>
          have added : readPairs matchRule rule (event :: events) =
              (moment, event) :: readPairs matchRule rule events := by
            rw [readPairs, List.filterMap_cons, evaluated]
            simp only [read, Option.map_some]
            rfl
          rw [read] at timed
          rw [added]
          simp only [Except.mapError, timed, bind, Except.bind, if_true, Option.elim_some,
            Option.isSome_some, imp_true_iff, true_and]
          rcases ih stamped with ⟨unread, message, ends⟩ | ⟨readable, ⟨e, raises, ends⟩ | ⟨none, ends⟩⟩
          · exact .inl ⟨unread, message, by rw [ends]⟩
          · exact .inr ⟨readable, .inl ⟨e, raises, by rw [ends]⟩⟩
          · exact .inr ⟨readable, .inr ⟨none, by rw [ends]; rfl⟩⟩

end FirstLoop

section Agreement

variable {Rule ε : Type} (unicode : Unicode) (matchRule : Rule → Event → Except ε Bool)
  (isPrintable : ℕ → Bool) (rule : CorrelationRule Rule) (condition : Condition)

/-- The evaluator ends on the events as on the normalized events: it reads each time that it comes
to, it meets the same error of a single rule or none, and if none the matched events end in the same
way. -/
structure Agrees (seconds : ℤ) (events : List Event) : Prop where
  readable : Readable matchRule rule events
  raises : ∀ e, Raises matchRule rule events e ↔
    Raises matchRule rule (events.map (normalizeEvent unicode)) e
  ends : (∀ e, ¬ Raises matchRule rule events e) → ∀ stop,
    Ends ε rule condition seconds (readPairs matchRule rule events) stop ↔
      Ends ε rule condition seconds
        (readPairs matchRule rule (events.map (normalizeEvent unicode))) stop

variable {unicode matchRule isPrintable rule condition} {seconds : ℤ} {events : List Event}

theorem matchCorrelation_stamped (resolved : Resolved rule condition seconds)
    (stamped : ∀ event ∈ events, Stamped event) :
    (¬ Readable matchRule rule events ∧ ∃ message,
      matchCorrelation matchRule isPrintable fromisoformat rule events =
        .error (.unsupportedCorrelation message)) ∨
    (Readable matchRule rule events ∧
      ((∃ e, Raises matchRule rule events e ∧
        matchCorrelation matchRule isPrintable fromisoformat rule events = .error (.raised e)) ∨
      ((∀ e, ¬ Raises matchRule rule events e) ∧
        matchCorrelation matchRule isPrintable fromisoformat rule events =
          searchMatched rule condition (readPairs matchRule rule events) seconds))) := by
  rcases @matchedEvents_stamped Rule ε matchRule rule events isPrintable stamped with
    ⟨unread, message, ends⟩ | ⟨readable, ⟨e, raises, ends⟩ | ⟨none, ends⟩⟩
  · refine .inl ⟨unread, message, ?_⟩
    rw [matchCorrelation_eq resolved, ends]
    rfl
  · refine .inr ⟨readable, .inl ⟨e, raises, ?_⟩⟩
    rw [matchCorrelation_eq resolved, ends]
    rfl
  · exact .inr ⟨readable, .inr ⟨none, matchCorrelation_resolved resolved ends⟩⟩

theorem searchMatched_error {matched : List (DateTime × Event)} {e : Error ε}
    (raises : searchMatched rule condition matched seconds = .error e) :
    e = .overflowError ∨ e = .typeError := by
  rcases @searchMatched_ends Rule ε rule condition matched seconds with
    ⟨stop, -, evaluates⟩ | ⟨-, evaluates⟩
  · rw [evaluates] at raises
    cases stop with
    | overflow => exact .inl (Except.error.inj raises).symm
    | typeError => exact .inr (Except.error.inj raises).symm
    | found => cases raises
  · rw [evaluates] at raises
    cases raises

theorem searchMatched_ne_raised (matched : List (DateTime × Event)) (e : ε) :
    searchMatched rule condition matched seconds ≠ .error (.raised e) := by
  intro raises
  rcases searchMatched_error raises with same | same <;> cases same

theorem searchMatched_ne_unsupported (matched : List (DateTime × Event)) (message : Text) :
    searchMatched (ε := ε) rule condition matched seconds ≠
      .error (.unsupportedCorrelation message) := by
  intro raises
  rcases searchMatched_error raises with same | same <;> cases same

theorem normalized_stamped (accepted : ∀ event ∈ events, Accepted unicode event) :
    (∀ event ∈ events.map (normalizeEvent unicode), Stamped event) ∧
      Readable matchRule rule (events.map (normalizeEvent unicode)) := by
  constructor
  · rw [List.forall_mem_map]
    intro event mem
    obtain ⟨_, -, -, stamped, -⟩ := (accepted event mem).normalized
    exact stamped
  · intro event mem _
    obtain ⟨original, inside, rfl⟩ := List.mem_map.mp ((List.takeWhile_sublist _).subset mem)
    obtain ⟨_, -, -, -, read⟩ := (accepted original inside).normalized
    rw [read]
    rfl

variable (unicode matchRule rule condition)

/-- The rule makes the same of the event with either text of its timestamp. -/
structure SameView (event : Event) : Prop where
  hit : isMatched matchRule rule (normalizeEvent unicode event) = isMatched matchRule rule event
  key : isMatched matchRule rule event = .ok true →
    groupKey (ε := ε) (rule.groupBy.getD []) (normalizeEvent unicode event) =
      groupKey (rule.groupBy.getD []) event
  value : isMatched matchRule rule event = .ok true →
    countedValue (ε := ε) rule condition (normalizeEvent unicode event) =
      countedValue rule condition event

/-- The evaluator reads the moment of the contract, with the end of the span in range for both
or for neither. -/
def Reads (span : ℤ) (event : Event) : Prop :=
  ∃ moment contract, readTime event = some moment ∧ contractTime unicode event = some contract ∧
    Alike span moment contract

/-- The rule does not look at the text of a timestamp, the evaluator reads each one that it
needs as the contract does, and where it comes to sort them all it finds no naive time
beside an aware one. -/
structure SameTimes (seconds : ℤ) (events : List Event) : Prop where
  view : ∀ event ∈ events, SameView unicode matchRule rule condition event
  reads : ∀ event ∈ reached matchRule rule events, isMatched matchRule rule event = .ok true →
    Reads unicode (seconds * 1000000) event
  uniform : (∀ e, ¬ Raises matchRule rule events e) →
    ¬ Mixed ((readPairs matchRule rule events).map Prod.fst)

variable {unicode matchRule rule condition}

theorem raises_normalized_iff
    (view : ∀ event ∈ events, SameView unicode matchRule rule condition event) (e : ε) :
    Raises matchRule rule events e ↔
      Raises matchRule rule (events.map (normalizeEvent unicode)) e := by
  induction events with
  | nil => exact Iff.rfl
  | cons event events ih =>
    obtain ⟨here, view⟩ := List.forall_mem_cons.mp view
    rw [List.map_cons]
    cases evaluated : isMatched matchRule rule event with
    | error e' =>
      have raises : Raises matchRule rule (event :: events) e' := raises_cons_of_error evaluated
      have raises' : Raises matchRule rule (normalizeEvent unicode event ::
          events.map (normalizeEvent unicode)) e' :=
        raises_cons_of_error (here.hit.trans evaluated)
      constructor
      · intro other
        rwa [other.unique raises]
      · intro other
        rwa [other.unique raises']
    | ok b =>
      rw [raises_cons_of_ok evaluated, raises_cons_of_ok (here.hit.trans evaluated), ih view]

theorem reached_eq (none : ∀ e, ¬ Raises matchRule rule events e) :
    reached matchRule rule events = events := by
  induction events with
  | nil => rfl
  | cons event events ih =>
    rw [reached, List.takeWhile_cons]
    cases evaluated : isMatched matchRule rule event with
    | error e => exact absurd (raises_cons_of_error evaluated) (none e)
    | ok b =>
      have later : ∀ e, ¬ Raises matchRule rule events e :=
        fun e raises => none e ((raises_cons_of_ok evaluated e).mpr raises)
      exact congrArg (List.cons event) (ih later)

theorem readPairs_alike {span : ℤ} (accepted : ∀ event ∈ events, Accepted unicode event)
    (view : ∀ event ∈ events, SameView unicode matchRule rule condition event)
    (reads : ∀ event ∈ events, isMatched matchRule rule event = .ok true →
      Reads unicode span event) :
    List.Forall₂ (AlikePairs ε rule condition span) (readPairs matchRule rule events)
        (readPairs matchRule rule (events.map (normalizeEvent unicode))) ∧
      ∀ pair ∈ readPairs matchRule rule (events.map (normalizeEvent unicode)),
        pair.1.isAware := by
  induction events with
  | nil => exact ⟨.nil, List.forall_mem_nil _⟩
  | cons event events ih =>
    obtain ⟨here, view⟩ := List.forall_mem_cons.mp view
    obtain ⟨read, reads⟩ := List.forall_mem_cons.mp reads
    obtain ⟨accepts, accepted⟩ := List.forall_mem_cons.mp accepted
    obtain ⟨alike, aware⟩ := ih accepted view reads
    rw [List.map_cons, readPairs, readPairs, List.filterMap_cons, List.filterMap_cons, here.hit]
    cases evaluated : isMatched matchRule rule event with
    | error e => exact ⟨alike, aware⟩
    | ok b =>
      cases b with
      | false => exact ⟨alike, aware⟩
      | true =>
        obtain ⟨moment, contract, read, contracted, same⟩ := read evaluated
        obtain ⟨moment', contracted', aware', -, read'⟩ := accepts.normalized
        obtain rfl := Option.some.inj (contracted.symm.trans contracted')
        simp only [read, read', Option.map_some]
        exact ⟨.cons ⟨same, (here.key evaluated).symm, (here.value evaluated).symm⟩ alike,
          List.forall_mem_cons.mpr ⟨aware', aware⟩⟩

theorem sortedMoments_uniform {moments : List DateTime} (uniform : ¬ Mixed moments) :
    sortedMoments (ε := ε) moments =
      .ok ((distinctMoments moments).insertionSort fun a b => a.utc ≤ b.utc) :=
  if_neg uniform

theorem searchMatched_congr {matched matched' : List (DateTime × Event)}
    (alike : List.Forall₂ (AlikePairs ε rule condition (seconds * 1000000)) matched matched')
    (uniform : ¬ Mixed (matched.map Prod.fst)) (uniform' : ¬ Mixed (matched'.map Prod.fst)) :
    searchMatched (ε := ε) rule condition matched seconds =
      searchMatched rule condition matched' seconds := by
  have none_iff : matched = [] ↔ matched' = [] := by
    cases alike <;> simp
  rw [searchMatched, searchMatched]
  by_cases none : matched = []
  · rw [if_pos none, if_pos (none_iff.mp none)]
  rw [if_neg none, if_neg (mt none_iff.mpr none)]
  cases small : timedelta (ε := ε) seconds with
  | error e => rfl
  | ok duration =>
    obtain rfl := eq_of_timedelta small
    have times : List.Forall₂ (Alike (seconds * 1000000)) (matched.map Prod.fst)
        (matched'.map Prod.fst) :=
      List.rel_map (fun _ _ here => here.time) alike
    rw [sortedMoments_uniform uniform, sortedMoments_uniform uniform']
    exact scanStarts_congr (insertionSort_congr (distinctMoments_congr times))
      fun _ _ start => spanMeets_congr start alike

theorem SameTimes.agrees (accepted : ∀ event ∈ events, Accepted unicode event)
    (same : SameTimes unicode matchRule rule condition seconds events) :
    Agrees unicode matchRule rule condition seconds events := by
  refine ⟨fun event mem hit => ?_, raises_normalized_iff same.view, fun none => ?_⟩
  · obtain ⟨moment, -, read, -⟩ := same.reads event mem hit
    rw [read]
    rfl
  · have reads := same.reads
    rw [reached_eq none] at reads
    obtain ⟨alike, aware⟩ := readPairs_alike accepted same.view reads
    refine searchMatched_eq_iff.mp (searchMatched_congr alike (same.uniform none) ?_)
    rintro ⟨-, moment, mem, naive⟩
    obtain ⟨pair, inside, rfl⟩ := List.mem_map.mp mem
    exact naive (aware pair inside)

end Agreement

/-! Two events within two seconds, the second with an offset or without. -/

def utcEvent : Event := floodEvent "2026-05-01T10:00:00Z"

def offsetEvent : Event := floodEvent "2026-05-01T12:00:01+0200"

def naiveEvent : Event := floodEvent "2026-05-01T10:00:01"

theorem normalizeEvent_utc : normalizeEvent noTables utcEvent = utcEvent := rfl

theorem normalizeEvent_offset :
    normalizeEvent noTables offsetEvent = floodEvent "2026-05-01T10:00:01Z" := rfl

theorem accepted_utc : Accepted noTables utcEvent := ⟨_, rfl, _, rfl⟩

theorem accepted_offset : Accepted noTables offsetEvent := ⟨_, rfl, _, rfl⟩

theorem accepted_naive : Accepted noTables naiveEvent := ⟨_, rfl, _, rfl⟩

theorem view_utc : SameView noTables equals (flood .gte 2) ⟨.gte, 2, none⟩ utcEvent := by
  constructor
  · rw [normalizeEvent_utc]
  · intro _
    rw [normalizeEvent_utc]
  · intro _
    rfl

theorem view_offset : SameView noTables equals (flood .gte 2) ⟨.gte, 2, none⟩ offsetEvent := by
  constructor
  · rw [normalizeEvent_offset]
    calc
      _ = .ok true := rfl
      _ = isMatched equals (flood .gte 2) offsetEvent := rfl
  · intro _
    rw [normalizeEvent_offset]
    calc
      _ = .ok [.str (codes "172.24.0.10")] := rfl
      _ = groupKey ((flood .gte 2).groupBy.getD []) offsetEvent := rfl
  · intro _
    rfl

theorem readTime_utc : readTime utcEvent = some ten := by decide +kernel

theorem readTime_offset : readTime offsetEvent =
    some ⟨63913233601000000, some 7200000000, by decide⟩ := by decide +kernel

theorem contractTime_utc : contractTime noTables utcEvent = some ten := by
  decide +kernel

theorem contractTime_offset : contractTime noTables offsetEvent = some tenAndOne := by
  decide +kernel

theorem sameTimes_offset :
    SameTimes noTables equals (flood .gte 2) ⟨.gte, 2, none⟩ 10 [utcEvent, offsetEvent] := by
  have members {P : Event → Prop} (first : P utcEvent) (second : P offsetEvent) :
      ∀ event ∈ [utcEvent, offsetEvent], P event := by
    intro event mem
    rcases List.mem_cons.mp mem with rfl | mem
    · exact first
    · rwa [List.mem_singleton.mp mem]
  have reads := @members (Reads noTables (10 * 1000000))
    ⟨ten, ten, readTime_utc, contractTime_utc, rfl, rfl⟩
    ⟨_, tenAndOne, readTime_offset, contractTime_offset, by decide, by decide⟩
  have aware := @members (fun event => ∀ moment ∈ readTime event, moment.isAware = true)
    (by rw [readTime_utc]; simp [ten, DateTime.isAware])
    (by rw [readTime_offset]; simp [DateTime.isAware])
  refine ⟨members view_utc view_offset, ?_, ?_⟩
  · intro event mem _
    exact reads event ((List.takeWhile_sublist _).subset mem)
  · rintro - ⟨-, moment, mem, naive⟩
    obtain ⟨pair, inside, rfl⟩ := List.mem_map.mp mem
    obtain ⟨event, listed, found⟩ := List.mem_filterMap.mp inside
    split at found
    · obtain ⟨moment, read, rfl⟩ := Option.map_eq_some_iff.mp found
      exact naive (aware event listed moment read)
    · cases found

end OtDetection.Correlation
