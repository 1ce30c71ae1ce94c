import OtDetection.ZeekOmission

/-! The two sides of a DNP3 transaction. A row has one event at most, for the request if there
is one, and the table has no names of responses. -/

namespace OtDetection.ZeekEvents
open PyText PyNumber ZeekLog ContractEvent

def functionCode (name : Text) : Option ℤ :=
  (dnp3Functions ++ [(codes "RESPONSE", 129), (codes "UNSOLICITED_RESPONSE", 130)]).lookup name

section Sides

variable (log : Log)

def sideOf (row : List Text) (direction name : String) : List (String × ℤ) :=
  match column log row name with
  | some text =>
    if text = log.unset then [] else (functionCode text).toList.map fun code => (direction, code)
  | none => []

def sides (row : List Text) : List (String × ℤ) :=
  sideOf log row "request" "fc_request" ++ sideOf log row "response" "fc_reply"

/-- The event of a side, with the endpoints of its row. -/
structure IsSide (row : List Text) (side : String × ℤ) (e : Event) : Prop where
  direction : e.lookup (codes "direction") = some (.str (codes side.1))
  function : e.lookup (codes "function_code") = some (.int side.2)
  source : ∀ text, column log row "id.orig_h" = some text → text ≠ log.unset →
    e.lookup (codes "src_ip") = some (.str text)
  destination : ∀ text, column log row "id.resp_h" = some text → text ≠ log.unset →
    e.lookup (codes "dst_ip") = some (.str text)

/-- One event for each side, row after row. -/
def Delivered (result : Yielded Error Event) : Prop :=
  result.raised = none ∧ ∃ groups, result.items = groups.flatten ∧
    List.Forall₂ (fun row group => List.Forall₂ (IsSide log row) (sides log row) group)
      log.rows groups

/-- The set sides name functions, and a request one of the table. -/
def NamesFunctions (row : List Text) : Prop :=
  (∀ text, column log row "fc_request" = some text → text ≠ log.unset →
    (dnp3Functions.lookup text).isSome) ∧
  ∀ text, column log row "fc_reply" = some text → text ≠ log.unset → (functionCode text).isSome

/-- A reply is reported only without a request, and with a function of the table. -/
def RepliesReported (row : List Text) : Prop :=
  ∀ text, column log row "fc_reply" = some text → text ≠ log.unset →
    ¬ IsSet log row "fc_request" ∧ (dnp3Functions.lookup text).isSome

variable {log}

theorem functionCode_of_table {name : Text} {code : ℤ}
    (found : dnp3Functions.lookup name = some code) : functionCode name = some code := by
  rw [functionCode, List.lookup_append, found, Option.some_or]

theorem table_ne_nil {name : Text} (found : (dnp3Functions.lookup name).isSome) : name ≠ [] := by
  rintro rfl
  cases found

theorem functionCode_ne_nil {name : Text} (found : (functionCode name).isSome) : name ≠ [] := by
  rintro rfl
  cases found

theorem sideOf_unset {row : List Text} {name : String} (unset : ¬ IsSet log row name)
    (direction : String) : sideOf log row direction name = [] := by
  rw [sideOf]
  split
  · rename_i text found
    refine if_pos ?_
    by_contra set
    exact unset ⟨text, found, set⟩
  · rfl

theorem sideOf_set {row : List Text} {name : String} {text : Text} {code : ℤ}
    (found : column log row name = some text) (set : text ≠ log.unset)
    (known : functionCode text = some code) (direction : String) :
    sideOf log row direction name = [(direction, code)] := by
  rw [sideOf, found]
  dsimp only
  rw [if_neg set, known]
  rfl

theorem getD_unset {row : List Text} {name : String} (unset : ¬ IsSet log row name) :
    (get (readRow log row) name).getD [] = [] := by
  rw [get_readRow]
  cases found : column log row name with
  | none => rfl
  | some text =>
    refine if_pos ?_
    by_contra set
    exact unset ⟨text, found, set⟩

theorem getD_set {row : List Text} {name : String} {text : Text}
    (found : column log row name = some text) (set : text ≠ log.unset) :
    (get (readRow log row) name).getD [] = text := by
  rw [get_readRow, found, Option.map_some, Log.value, if_neg set]
  rfl

theorem isSide_event (row : List Text) (timestamp : Text) (direction : String) (code : ℤ) :
    IsSide log row (direction, code)
      (event "ot_ndr" "dnp3" timestamp (dnp3Fields (readRow log row) direction code)) := by
  have endpoint {field name : String} {text : Text}
      (other : codes field ∉ ["product", "service", "timestamp"].map codes)
      (value : (dnp3Fields (readRow log row) direction code).lookup (codes field) =
        some (raw (get (readRow log row) name)))
      (found : column log row name = some text) (set : text ≠ log.unset) :
      (event "ot_ndr" "dnp3" timestamp (dnp3Fields (readRow log row) direction code)).lookup
        (codes field) = some (.str text) := by
    rw [lookup_event nodup_dnp3Fields other, value, get_readRow, found, Option.map_some,
      Log.value, if_neg set]
    rfl
  constructor
  · rw [lookup_event nodup_dnp3Fields (by decide)]
    rfl
  · rw [lookup_event nodup_dnp3Fields (by decide)]
    rfl
  · exact fun text => endpoint (by decide) rfl
  · exact fun text => endpoint (by decide) rfl

structure RowSides (log : Log) (row : List Text) (converted : Option Event) : Prop where
  short : converted.toList.length ≤ (sides log row).length
  full : converted.toList.length = (sides log row).length → RepliesReported log row
  right : RepliesReported log row →
    List.Forall₂ (IsSide log row) (sides log row) converted.toList

section Row

variable {unicode : Unicode} {row : List Text}

theorem convert_side {timestamp : Text} (dated : Dated unicode (readRow log row) timestamp)
    {direction : String} {name : Text} {code : ℤ}
    (sided : dnp3Side (readRow log row) = some (direction, name))
    (known : dnp3Functions.lookup name = some code) :
    dnp3 unicode (readRow log row) = .ok (some (event "ot_ndr" "dnp3" timestamp
      (dnp3Fields (readRow log row) direction code))) := by
  rw [dnp3, sided]
  dsimp only
  rw [known]
  exact eventAt_dated dated "ot_ndr" "dnp3" _

theorem convert_request {timestamp : Text} (dated : Dated unicode (readRow log row) timestamp)
    (names : NamesFunctions log row) (request : IsSet log row "fc_request") :
    ∃ converted, dnp3 unicode (readRow log row) = .ok converted ∧ RowSides log row converted := by
  obtain ⟨text, found, set⟩ := request
  obtain ⟨code, known⟩ := Option.isSome_iff_exists.mp (names.1 text found set)
  have sided : dnp3Side (readRow log row) = some ("request", text) := by
    rw [dnp3Side, getD_set found set]
    exact if_pos (table_ne_nil (by rw [known]; rfl))
  have first := sideOf_set found set (functionCode_of_table known) "request"
  refine ⟨_, convert_side dated sided known, ?_⟩
  by_cases reply : IsSet log row "fc_reply"
  · obtain ⟨answer, given, there⟩ := reply
    obtain ⟨code', named⟩ := Option.isSome_iff_exists.mp (names.2 answer given there)
    have lost : ¬ RepliesReported log row := fun reported =>
      (reported answer given there).1 ⟨text, found, set⟩
    have both : sides log row = [("request", code), ("response", code')] := by
      rw [sides, first, sideOf_set given there named "response"]
      rfl
    refine ⟨?_, fun same => ?_, fun reported => absurd reported lost⟩
    · rw [both]
      exact Nat.le_succ 1
    · rw [both] at same
      cases same
  · have alone : sides log row = [("request", code)] := by
      rw [sides, first, sideOf_unset reply, List.append_nil]
    refine ⟨?_, fun _ answer given there => absurd ⟨answer, given, there⟩ reply, fun _ => ?_⟩
    · rw [alone]
      exact le_rfl
    · rw [alone]
      exact .cons (isSide_event row timestamp "request" code) .nil

theorem convert_reply {timestamp : Text} (dated : Dated unicode (readRow log row) timestamp)
    (names : NamesFunctions log row) (request : ¬ IsSet log row "fc_request") :
    ∃ converted, dnp3 unicode (readRow log row) = .ok converted ∧ RowSides log row converted := by
  have first := sideOf_unset request "request"
  have empty := getD_unset request
  by_cases reply : IsSet log row "fc_reply"
  · obtain ⟨text, found, set⟩ := reply
    obtain ⟨code, named⟩ := Option.isSome_iff_exists.mp (names.2 text found set)
    have sided : dnp3Side (readRow log row) = some ("response", text) := by
      rw [dnp3Side, empty, getD_set found set]
      exact if_pos (functionCode_ne_nil (by rw [named]; rfl))
    have alone : sides log row = [("response", code)] := by
      rw [sides, first, sideOf_set found set named "response"]
      rfl
    cases known : dnp3Functions.lookup text with
    | none =>
      refine ⟨none, ?_, ?_, fun same => ?_, fun reported => ?_⟩
      · rw [dnp3, sided]
        dsimp only
        rw [known]
      · exact Nat.zero_le _
      · rw [alone] at same
        cases same
      · have listed := (reported text found set).2
        rw [known] at listed
        cases listed
    | some code' =>
      have same : code' = code :=
        Option.some.inj ((functionCode_of_table known).symm.trans named)
      rw [same] at known
      refine ⟨_, convert_side dated sided known, ?_, fun _ answer given _ => ?_, fun _ => ?_⟩
      · rw [alone]
        exact le_rfl
      · have answered : answer = text := Option.some.inj (given.symm.trans found)
        rw [answered, known]
        exact ⟨request, rfl⟩
      · rw [alone]
        exact .cons (isSide_event row timestamp "response" code) .nil
  · have nothing : sides log row = [] := by
      rw [sides, first, sideOf_unset reply, List.append_nil]
    have sided : dnp3Side (readRow log row) = none := by
      rw [dnp3Side, empty, getD_unset reply]
      rfl
    refine ⟨none, ?_, Nat.zero_le _,
      fun _ answer given there => absurd ⟨answer, given, there⟩ reply, fun _ => ?_⟩
    · rw [dnp3, sided]
    · rw [nothing]
      exact .nil

theorem convert_sides (usable : Usable unicode log row) (names : NamesFunctions log row) :
    ∃ converted, dnp3 unicode (readRow log row) = .ok converted ∧ RowSides log row converted := by
  obtain ⟨timestamp, dated⟩ := dated_readRow usable
  by_cases request : IsSet log row "fc_request"
  · exact convert_request dated names request
  · exact convert_reply dated names request

end Row

end Sides

/-! ## All rows -/

theorem eq_of_sum_le {α : Type} {items : List α} {f g : α → ℕ} (le : ∀ a ∈ items, f a ≤ g a)
    (same : (items.map g).sum ≤ (items.map f).sum) : ∀ a ∈ items, f a = g a := by
  induction items with
  | nil => exact fun a mem => nomatch mem
  | cons a items ih =>
    obtain ⟨here, later⟩ := List.forall_mem_cons.mp le
    have rest := List.sum_le_sum later
    rw [List.map_cons, List.map_cons, List.sum_cons, List.sum_cons] at same
    exact List.forall_mem_cons.mpr ⟨by omega, ih later (by omega)⟩

theorem convertAll_ok {converter : Row → Except Error (Option Event)} {f : Row → Option Event}
    {rows : List Row} (ok : ∀ row ∈ rows, converter row = .ok (f row)) :
    convertAll converter none rows = ⟨rows.flatMap fun row => (f row).toList, none⟩ := by
  induction rows with
  | nil => rfl
  | cons row rows ih =>
    obtain ⟨here, later⟩ := List.forall_mem_cons.mp ok
    rw [convertAll, here, ih later]
    rfl

def rowEvent (unicode : Unicode) (row : Row) : Option Event :=
  match dnp3 unicode row with
  | .ok converted => converted
  | .error _ => none

section Events

variable {unicode : Unicode} {shortest : Double → PyFloat} {log : Log}

theorem rowEvent_sides {row : List Text} (usable : Usable unicode log row)
    (names : NamesFunctions log row) :
    dnp3 unicode (readRow log row) = .ok (rowEvent unicode (readRow log row)) ∧
      RowSides log row (rowEvent unicode (readRow log row)) := by
  obtain ⟨converted, read, sided⟩ := convert_sides usable names
  have same : rowEvent unicode (readRow log row) = converted := by rw [rowEvent, read]
  rw [same]
  exact ⟨read, sided⟩

theorem sides_lengths {rows : List (List Text)} {groups : List (List Event)}
    (all : List.Forall₂ (fun row group => List.Forall₂ (IsSide log row) (sides log row) group)
      rows groups) :
    rows.map (fun row => (sides log row).length) = groups.map List.length := by
  induction all with
  | nil => rfl
  | cons first rest ih => rw [List.map_cons, List.map_cons, first.length_eq, ih]

theorem delivered_iff (rows : ∀ row ∈ log.rows, RowSides log row
    (rowEvent unicode (readRow log row))) :
    Delivered log ⟨(log.rows.map (readRow log)).flatMap fun row =>
      (rowEvent unicode row).toList, none⟩ ↔ ∀ row ∈ log.rows, RepliesReported log row := by
  rw [List.flatMap_map]
  constructor
  · rintro ⟨-, groups, same, all⟩ row mem
    refine (rows row mem).full (eq_of_sum_le (fun row mem => (rows row mem).short) ?_ row mem)
    have lengths := sides_lengths all
    have total := congrArg List.length same
    rw [List.length_flatMap, List.length_flatten] at total
    rw [lengths, ← total]
  · intro reported
    refine ⟨rfl, log.rows.map fun row => (rowEvent unicode (readRow log row)).toList,
      List.flatMap_def .., ?_⟩
    rw [List.forall₂_map_right_iff, List.forall₂_same]
    exact fun row mem => (rows row mem).right (reported row mem)

theorem events_dnp3 (tab : log.separator = 0x09) {file : List Char}
    (lines : (readLines file).filter (fun line => ¬ Skipped line) = log.lines) {name : Text}
    (named : kindOf name = some .dnp3) (usable : ∀ row ∈ log.rows, Usable unicode log row)
    (functions : ∀ row ∈ log.rows, NamesFunctions log row) :
    events unicode shortest [(name, file)] = ⟨(log.rows.map (readRow log)).flatMap fun row =>
      (rowEvent unicode row).toList, none⟩ := by
  have ok : ∀ row ∈ log.rows.map (readRow log),
      convert unicode shortest .dnp3 row = .ok (rowEvent unicode row) := by
    rw [List.forall_mem_map]
    exact fun row mem => (rowEvent_sides (usable row mem) (functions row mem)).1
  rw [events_tab unicode shortest tab lines named, convertAll_ok ok]

/-- Every populated side of a log has its event in order if and only if each reply stands
without a request and its function is in the table of the adapter. -/
theorem events_deliver_sides_iff (unicode : Unicode) (shortest : Double → PyFloat) {log : Log}
    (tab : log.separator = 0x09) {file : List Char}
    (lines : (readLines file).filter (fun line => ¬ Skipped line) = log.lines) {name : Text}
    (named : kindOf name = some .dnp3) (usable : ∀ row ∈ log.rows, Usable unicode log row)
    (functions : ∀ row ∈ log.rows, NamesFunctions log row) :
    Delivered log (events unicode shortest [(name, file)]) ↔
      ∀ row ∈ log.rows, RepliesReported log row := by
  rw [events_dnp3 tab lines named usable functions]
  exact delivered_iff fun row mem => (rowEvent_sides (usable row mem) (functions row mem)).2

end Events

/-! ## A select and its response -/

def selectLog : Log :=
  sampleLog 0x09 ["ts", "id.orig_h", "fc_request", "fc_reply"]
    [["5.000000", "172.24.0.10", "SELECT", "-"]] (by decide +kernel)

def responseLog : Log :=
  sampleLog 0x09 ["ts", "id.orig_h", "fc_request", "fc_reply"]
    [["5.000000", "172.24.0.10", "SELECT", "RESPONSE"]] (by decide +kernel)

theorem usable_five {log : Log} {row : List Text} (found : column log row "ts" =
    some (codes "5.000000")) (set : codes "5.000000" ≠ log.unset) : Usable noTables log row :=
  @usable_whole noTables log row 5 6 found set (by decide) (by decide)

theorem events_deliver_sides_select : Delivered selectLog (events noTables (fun _ => .nan)
    [(codes "dnp3.log", String.toList
      "#separator \\x09\n#unset_field\t-\n#fields\tts\tid.orig_h\tfc_request\tfc_reply\n5.000000\t172.24.0.10\tSELECT\t-\n")]) := by
  have row : ∀ row ∈ selectLog.rows, column selectLog row "ts" = some (codes "5.000000") := by
    decide
  have names : ∀ row ∈ selectLog.rows,
      column selectLog row "fc_request" = some (codes "SELECT") ∧
        column selectLog row "fc_reply" = some selectLog.unset := by decide
  refine (@events_deliver_sides_iff noTables (fun _ => .nan) selectLog rfl _
    (by decide +kernel) _ (by decide) (fun r mem => usable_five (row r mem) (by decide))
    fun r mem => ⟨fun text found set => ?_, fun text found set => ?_⟩).mpr
    fun r mem text found set => ?_
  · rw [(names r mem).1] at found
    rw [← Option.some.inj found]
    decide
  · rw [(names r mem).2] at found
    exact absurd (Option.some.inj found).symm set
  · rw [(names r mem).2] at found
    exact absurd (Option.some.inj found).symm set

def responseFile : List Char := String.toList
  "#separator \\x09\n#unset_field\t-\n#fields\tts\tid.orig_h\tfc_request\tfc_reply\n5.000000\t172.24.0.10\tSELECT\tRESPONSE\n"

/-- The response of a row with both sides is lost. -/
theorem events_lose_response : ¬ ∀ (log : Log) (file : List Char) (name : Text),
    log.separator = 0x09 →
    (readLines file).filter (fun line => ¬ Skipped line) = log.lines →
    kindOf name = some .dnp3 → (∀ row ∈ log.rows, Usable noTables log row) →
    (∀ row ∈ log.rows, NamesFunctions log row) →
    Delivered log (events noTables (fun _ => .nan) [(name, file)]) := by
  intro all
  have lines : (readLines responseFile).filter (fun line => ¬ Skipped line) =
      responseLog.lines := by decide +kernel
  have row : ∀ row ∈ responseLog.rows, column responseLog row "ts" = some (codes "5.000000") := by
    decide
  have names : ∀ row ∈ responseLog.rows,
      column responseLog row "fc_request" = some (codes "SELECT") ∧
        column responseLog row "fc_reply" = some (codes "RESPONSE") := by decide
  have usable : ∀ row ∈ responseLog.rows, Usable noTables responseLog row :=
    fun r mem => usable_five (row r mem) (by decide)
  have functions : ∀ row ∈ responseLog.rows, NamesFunctions responseLog row := by
    refine fun r mem => ⟨fun text found set => ?_, fun text found set => ?_⟩
    · rw [(names r mem).1] at found
      rw [← Option.some.inj found]
      decide
    · rw [(names r mem).2] at found
      rw [← Option.some.inj found]
      decide
  have delivered := all responseLog responseFile (codes "dnp3.log") rfl lines (by decide) usable
    functions
  rw [events_dnp3 rfl lines (by decide) usable functions,
    delivered_iff fun row mem => (rowEvent_sides (usable row mem) (functions row mem)).2]
    at delivered
  have first := List.mem_cons_self (a := ["5.000000", "172.24.0.10", "SELECT", "RESPONSE"].map codes)
    (l := [])
  refine (delivered _ first _ (names _ first).2 (by decide)).1 ?_
  exact ⟨_, (names _ first).1, by decide⟩

end OtDetection.ZeekEvents
