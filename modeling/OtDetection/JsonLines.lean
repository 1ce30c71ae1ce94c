import OtDetection.PyJson
import OtDetection.PyLines

/-! Files with one JSON object on each line, as the sinks write them and the metrics read them. No
character of an event breaks a line, because a break is written as an escape. -/

namespace OtDetection.JsonLines
open PyText JsonText JsonDumps PyLines PyJson TriagePrompt

/-! ## Files -/

/-- `to_jsonl(events)`. -/
def toJsonl (events : List Event) : Text := events.flatMap fun event => dumpsSorted event ++ codes "\n"

def isBlank (line : List Char) : Bool := line.all fun c => PyNumber.isSpace c.toNat

def readText (file : List Char) : List Char := universalNewlines file

/-- `_load_jsonl`, and `load_baseline` of the metrics; none for a line that is no JSON. -/
def loadJsonl (file : List Char) : Option (List Json) :=
  ((splitlines (readText file)).filter fun line => !isBlank line).mapM loads

def stripChars (text : List Char) : List Char :=
  PyNumber.stripBy (fun c => PyNumber.isSpace c.toNat) text

/-- `load_alerts`: an array as a whole, or an object on each line. -/
def loadAlerts (file : List Char) : Option (List Json) :=
  let text := stripChars (readText file)
  if text = [] then some []
  else if text.head? = some '[' then
    match loads text with
    | some (.array items) => some items
    | _ => none
  else ((splitlines text).filter fun line => !isBlank line).mapM loads

/-! ## Lines -/

/-- The object of an event, with its names in order. -/
def recordOf (event : Event) : Json := .object (jsonMembers (sorted event))

theorem toNat_ofNat {c : ℕ} (small : c < 0x80) : (Char.ofNat c).toNat = c := by
  rw [Char.ofNat, dif_pos (.inl (by omega))]
  rfl

theorem not_isLineBreak {text : Text} (visible : Visible text) :
    ∀ c ∈ asChars text, ¬ isLineBreak c := by
  intro c mem
  obtain ⟨code, inside, rfl⟩ := List.mem_map.mp mem
  have range := visible code inside
  rw [isLineBreak, toNat_ofNat (by omega)]
  simp only [List.mem_cons, List.not_mem_nil, or_false]
  omega

theorem asChars_toJsonl (events : List Event) :
    asChars (toJsonl events) =
      (events.map fun event => asChars (dumpsSorted event)).flatMap fun line => line ++ ['\n'] := by
  induction events with
  | nil => rfl
  | cons event events ih =>
    rw [toJsonl, List.flatMap_cons, asChars_append, asChars_append, ← toJsonl, ih]
    rfl

theorem clean_line (event : Event) : ∀ c ∈ asChars (dumpsSorted event), ¬ isLineBreak c :=
  not_isLineBreak (PyJson.visible_dumps _)

theorem not_mem_return (events : List Event) : '\r' ∉ asChars (toJsonl events) := by
  intro mem
  rw [asChars_toJsonl] at mem
  obtain ⟨line, inside, mem⟩ := List.mem_flatMap.mp mem
  obtain ⟨event, -, rfl⟩ := List.mem_map.mp inside
  rcases List.mem_append.mp mem with mem | mem
  · exact clean_line event _ mem (by decide)
  · exact absurd (List.mem_singleton.mp mem) (by decide)

theorem readText_toJsonl (events : List Event) :
    readText (asChars (toJsonl events)) = asChars (toJsonl events) :=
  universalNewlines_eq_self (not_mem_return events)

theorem splitlines_toJsonl (events : List Event) :
    splitlines (asChars (toJsonl events)) = events.map fun event => asChars (dumpsSorted event) := by
  rw [asChars_toJsonl]
  exact splitlines_printed (List.forall_mem_map.mpr fun event _ => clean_line event)

theorem filter_lines (events : List Event) :
    (events.map fun event => asChars (dumpsSorted event)).filter (fun line => !isBlank line) =
      events.map fun event => asChars (dumpsSorted event) :=
  List.filter_eq_self.mpr (List.forall_mem_map.mpr fun _ _ => rfl)

theorem mapM_loads {events : List Event} (writable : ∀ event ∈ events, writableMembers event) :
    (events.map fun event => asChars (dumpsSorted event)).mapM loads =
      some (events.map recordOf) := by
  induction events with
  | nil => rfl
  | cons event events ih =>
    obtain ⟨first, later⟩ := List.forall_mem_cons.mp writable
    rw [List.map_cons, List.mapM_cons, loads_dumpsSorted first, ih later]
    rfl

theorem loadJsonl_toJsonl {events : List Event}
    (writable : ∀ event ∈ events, writableMembers event) :
    loadJsonl (asChars (toJsonl events)) =
      some (events.map recordOf) := by
  rw [loadJsonl, readText_toJsonl, splitlines_toJsonl, filter_lines, mapM_loads writable]

/-! ## A text without its last break -/

def joined (events : List Event) : Text := join (codes "\n") (events.map dumpsSorted)

theorem toJsonl_eq_joined {events : List Event} (some_events : events ≠ []) :
    toJsonl events = joined events ++ codes "\n" := by
  induction events with
  | nil => exact absurd rfl some_events
  | cons event events ih =>
    cases events with
    | nil => exact List.append_nil _
    | cons next events =>
      have later := ih (List.cons_ne_nil next events)
      rw [toJsonl, List.flatMap_cons, ← toJsonl, later]
      simp only [joined, List.map_cons, join, List.append_assoc]

theorem join_snoc (sep last : Text) (texts : List Text) :
    ∃ front, join sep (texts ++ [last]) = front ++ last := by
  induction texts with
  | nil => exact ⟨[], rfl⟩
  | cons text texts ih =>
    obtain ⟨front, later⟩ := ih
    obtain ⟨next, others, more⟩ : ∃ next others, texts ++ [last] = next :: others :=
      List.exists_cons_of_ne_nil (List.append_ne_nil_of_right_ne_nil texts (List.cons_ne_nil _ _))
    refine ⟨text ++ (sep ++ front), ?_⟩
    rw [List.cons_append, more, join, ← more, later, List.append_assoc, List.append_assoc]

theorem dumpsSorted_braces (event : Event) :
    ∃ middle, asChars (dumpsSorted event) = '\x7b' :: (middle ++ ['\x7d']) :=
  ⟨asChars (join (codes ", ") (dumpsMembers (sorted event))), by
    rw [dumpsSorted, PyJson.dumps, asChars_append, asChars_append]
    rfl⟩

theorem joined_starts {events : List Event} (some_events : events ≠ []) :
    ∃ rest, asChars (joined events) = '\x7b' :: rest := by
  obtain ⟨event, events, rfl⟩ := List.exists_cons_of_ne_nil some_events
  obtain ⟨rest, whole⟩ := join_cons (codes "\n") (dumpsSorted event) (events.map dumpsSorted)
  obtain ⟨middle, braces⟩ := dumpsSorted_braces event
  exact ⟨_, by rw [joined, List.map_cons, whole, asChars_append, braces, List.cons_append]⟩

theorem joined_ends {events : List Event} (some_events : events ≠ []) :
    ∃ front, asChars (joined events) = front ++ ['\x7d'] := by
  obtain ⟨events, event, rfl⟩ := List.eq_nil_or_concat events |>.resolve_left some_events
  obtain ⟨front, whole⟩ := join_snoc (codes "\n") (dumpsSorted event) (events.map dumpsSorted)
  obtain ⟨middle, braces⟩ := dumpsSorted_braces event
  refine ⟨asChars front ++ '\x7b' :: middle, ?_⟩
  rw [List.concat_eq_append, joined, List.map_append, List.map_singleton, whole, asChars_append,
    braces, List.append_assoc, List.cons_append]

theorem linesFrom_snoc {c : Char} (ordinary : ¬ isLineBreak c) (text : List Char) (after : Bool)
    (line : List Char) :
    linesFrom after line (text ++ [c] ++ ['\n']) = linesFrom after line (text ++ [c]) := by
  induction text generalizing after line with
  | nil =>
    have feed : ¬ (after = true ∧ c = '\n') := fun both => ordinary (both.2 ▸ by decide)
    have before : linesFrom false (line ++ [c]) ['\n'] = [line ++ [c]] := by
      have split := @linesFrom_append_newline [] (line ++ [c]) (List.forall_mem_nil _)
      rwa [List.nil_append, List.append_nil] at split
    have alone : linesFrom false (line ++ [c]) [] = [line ++ [c]] :=
      if_neg (List.append_ne_nil_of_right_ne_nil line (List.cons_ne_nil c []))
    have step : ∀ rest, linesFrom after line (c :: rest) = linesFrom false (line ++ [c]) rest :=
      fun rest => by rw [linesFrom, if_neg feed, if_neg ordinary]
    exact (step _).trans (before.trans ((step []).trans alone).symm)
  | cons d text ih =>
    rw [List.cons_append, List.cons_append, linesFrom, linesFrom, ih, ih, ih]

theorem splitlines_joined {events : List Event} (some_events : events ≠ []) :
    splitlines (asChars (joined events)) = events.map fun event => asChars (dumpsSorted event) := by
  obtain ⟨front, ends⟩ := joined_ends some_events
  have whole := splitlines_toJsonl events
  rw [toJsonl_eq_joined some_events, asChars_append, ends] at whole
  rw [← whole, ends]
  exact (linesFrom_snoc (by decide) front false []).symm

/-! ## Alerts -/

theorem stripChars_append {text pad : List Char} {first last : Char} {front back : List Char}
    (starts : text = first :: back) (ends : text = front ++ [last])
    (ink : PyNumber.isSpace first.toNat = false) (inkLast : PyNumber.isSpace last.toNat = false)
    (blank : ∀ c ∈ pad, PyNumber.isSpace c.toNat = true) : stripChars (text ++ pad) = text := by
  have kept : front.dropWhile (fun c => PyNumber.isSpace c.toNat) = front := by
    cases front with
    | nil => rfl
    | cons c front =>
      obtain rfl : first = c := (List.cons.inj (starts.symm.trans ends)).1
      exact List.dropWhile_cons_of_neg (by simp [ink])
  rw [ends, List.append_assoc, List.singleton_append, stripChars,
    NumberText.stripBy_letter front inkLast blank, kept]

theorem loadAlerts_toJsonl {events : List Event}
    (writable : ∀ event ∈ events, writableMembers event) :
    loadAlerts (asChars (toJsonl events)) =
      some (events.map recordOf) := by
  rw [loadAlerts, readText_toJsonl]
  by_cases none : events = []
  · rw [none]
    rfl
  · obtain ⟨rest, starts⟩ := joined_starts none
    obtain ⟨front, ends⟩ := joined_ends none
    have stripped : stripChars (asChars (toJsonl events)) = asChars (joined events) := by
      rw [toJsonl_eq_joined none, asChars_append]
      exact stripChars_append starts ends rfl rfl (List.forall_mem_singleton.mpr rfl)
    have object : (asChars (joined events)).head? ≠ some '[' := by
      rw [starts, List.head?_cons]
      decide
    have some_text : asChars (joined events) ≠ [] := by
      rw [starts]
      exact List.cons_ne_nil _ _
    simp only [stripped, if_neg some_text, if_neg object]
    rw [splitlines_joined none, filter_lines, mapM_loads writable]

/-! ## Events on lines -/

theorem pairwise_sorted {event : Event} (distinct : (event.map Prod.fst).Nodup) :
    ((sorted event).map Prod.fst).Pairwise (· < ·) := by
  have apart := (names_sorted event).nodup_iff.mpr distinct
  have ordered : ((sorted event).map Prod.fst).Pairwise (· ≤ ·) :=
    List.pairwise_map.mpr (List.pairwise_insertionSort _ _)
  exact ordered.imp₂ (fun a b le ne => lt_of_le_of_ne le ne) apart

def brokenEvent : Event :=
  [(codes "snmp_value", .str [0x0A, 0x2028, 0x22, 0x1F600, 0xD800]),
    (codes "duration", .float (.finite false [⟨7, by decide⟩] (-1))), (codes "asset", .none)]

end OtDetection.JsonLines
