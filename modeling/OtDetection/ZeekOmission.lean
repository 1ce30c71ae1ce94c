import OtDetection.ZeekEvents

/-! Which fields the event of a row has. Each converter of a cell gives `None` exactly for a
cell that is absent or unset, except for the endpoints, which are taken as they are. -/

namespace OtDetection.ZeekEvents
open PyText PyNumber NumberText ZeekLog ContractEvent Correlation

/-! ## Well-formed cells -/

/-- The types of Zeek's columns, with the two words of `pdu_type`. -/
inductive ColumnType
  | addr
  | port
  | count
  | interval
  | string
  | pdu
  deriving DecidableEq

def Formed : ColumnType → Text → Prop
  | .addr, text | .string, text => text ≠ []
  | .port, text => ∃ n ≤ 65535, text = natText n
  | .count, text => ∃ n < 2 ^ 64, text = natText n
  | .interval, text => ∃ negative whole fraction, whole ≠ [] ∧
      (∀ c ∈ whole, isDigit c = true) ∧ (∀ c ∈ fraction, isDigit c = true) ∧
      text = sign negative ++ (whole ++ 0x2E :: fraction)
  | .pdu, text => text = codes "REQ" ∨ text = codes "RESP"

def columnTypes : Kind → List (String × ColumnType)
  | .conn => [("id.orig_h", .addr), ("id.resp_h", .addr), ("id.orig_p", .port),
      ("id.resp_p", .port), ("proto", .string), ("service", .string), ("duration", .interval),
      ("orig_bytes", .count), ("resp_bytes", .count), ("orig_pkts", .count),
      ("resp_pkts", .count), ("conn_state", .string)]
  | .modbus => [("pdu_type", .pdu), ("func", .string), ("unit", .count), ("id.orig_h", .addr),
      ("id.resp_h", .addr)]
  | .dnp3 => [("fc_request", .string), ("fc_reply", .string), ("id.orig_h", .addr),
      ("id.resp_h", .addr)]

/-- A field and the columns that it is derived from. -/
structure Derivation where
  columns : List String
  field : String

def derivations : Kind → List Derivation
  | .conn => [⟨["id.orig_h"], "src_ip"⟩, ⟨["id.resp_h"], "dst_ip"⟩, ⟨["id.orig_p"], "src_port"⟩,
      ⟨["id.resp_p"], "dst_port"⟩, ⟨["proto"], "proto"⟩, ⟨["service"], "app_protocol"⟩,
      ⟨["duration"], "duration"⟩, ⟨["orig_bytes", "resp_bytes"], "bytes"⟩,
      ⟨["orig_pkts", "resp_pkts"], "packets"⟩, ⟨["conn_state"], "flow_state"⟩]
  | .modbus => [⟨["pdu_type"], "direction"⟩, ⟨["func"], "function_code"⟩, ⟨["unit"], "unit_id"⟩,
      ⟨["id.orig_h"], "src_ip"⟩, ⟨["id.resp_h"], "dst_ip"⟩]
  | .dnp3 => [⟨["fc_request", "fc_reply"], "direction"⟩,
      ⟨["fc_request", "fc_reply"], "function_code"⟩, ⟨["id.orig_h"], "src_ip"⟩,
      ⟨["id.resp_h"], "dst_ip"⟩]

theorem natText_ne_nil_of_eq {text : Text} {n : ℕ} (same : text = natText n) : text ≠ [] := by
  rw [same]
  exact natText_ne_nil n

theorem Formed.ne_nil {type : ColumnType} {text : Text} (formed : Formed type text) :
    text ≠ [] := by
  cases type with
  | addr | string => exact formed
  | port | count =>
    obtain ⟨n, -, same⟩ := formed
    exact natText_ne_nil_of_eq same
  | interval =>
    obtain ⟨negative, whole, fraction, -, -, -, rfl⟩ := formed
    intro none
    have rest := (List.append_eq_nil_iff.mp none).2
    exact List.cons_ne_nil _ _ (List.append_eq_nil_iff.mp rest).2
  | pdu =>
    rcases formed with rfl | rfl
    · decide
    · decide

/-! ## Converters of a cell -/

/-- The cell is there and is not the empty one of an unset value. -/
def Seen (value : Option Text) : Prop := ∃ text, value = some text ∧ text ≠ []

/-- A cell that is seen is well formed. -/
def Tidy (type : ColumnType) (value : Option Text) : Prop :=
  ∀ text, value = some text → text ≠ [] → Formed type text

theorem seen_some {text : Text} : Seen (some text) ↔ text ≠ [] := by
  constructor
  · rintro ⟨text', same, some_text⟩
    rwa [Option.some.inj same]
  · exact fun some_text => ⟨text, rfl, some_text⟩

theorem not_seen_none : ¬ Seen none := fun ⟨_, same, _⟩ => nomatch same

theorem given_orNone (value : Option Text) : given (orNone value) = true ↔ Seen value := by
  cases value with
  | none => exact iff_of_false Bool.false_ne_true not_seen_none
  | some text =>
    rw [orNone, seen_some]
    split
    · rename_i empty
      exact iff_of_false Bool.false_ne_true (not_not_intro empty)
    · rename_i some_text
      exact iff_of_true rfl some_text

theorem given_raw (value : Option Text) : given (raw value) = true ↔ value.isSome := by
  cases value with
  | none => exact Iff.rfl
  | some text => exact iff_of_true rfl rfl

theorem given_direction {value : Option Text} (tidy : Tidy .pdu value) :
    given (direction (value.getD [])) = true ↔ Seen value := by
  cases value with
  | none => exact iff_of_false Bool.false_ne_true not_seen_none
  | some text =>
    rw [seen_some]
    by_cases empty : text = []
    · rw [empty]
      exact iff_of_false Bool.false_ne_true (not_not_intro rfl)
    · rcases tidy text rfl empty with rfl | rfl
      · exact iff_of_true rfl empty
      · exact iff_of_true rfl empty

section Numbers

variable {unicode : Unicode}

theorem intOfText_formed {type : ColumnType} (number : type = .port ∨ type = .count) {text : Text}
    (formed : Formed type text) : ∃ n : ℕ, intOfText unicode text = some (n : ℤ) := by
  obtain ⟨n, small, rfl⟩ : ∃ n < 2 ^ 64, text = natText n := by
    rcases number with rfl | rfl
    · obtain ⟨n, small, same⟩ := formed
      exact ⟨n, by omega, same⟩
    · exact formed
  have short := (@length_natText_le_iff n 20 (by decide)).mpr (small.trans (by decide))
  exact ⟨n, by rw [intOfText_natText, if_pos (by omega)]⟩

theorem isSome_number {type : ColumnType} (number : type = .port ∨ type = .count)
    {value : Option Text} (tidy : Tidy type value) :
    (value.bind (intOfText unicode)).isSome ↔ Seen value := by
  cases value with
  | none => exact iff_of_false Bool.false_ne_true not_seen_none
  | some text =>
    rw [seen_some, Option.bind_some]
    by_cases empty : text = []
    · rw [empty]
      exact iff_of_false Bool.false_ne_true (not_not_intro rfl)
    · obtain ⟨n, read⟩ := @intOfText_formed unicode _ number _ (tidy text rfl empty)
      rw [read]
      exact iff_of_true rfl empty

theorem given_int {type : ColumnType} (number : type = .port ∨ type = .count)
    {value : Option Text} (tidy : Tidy type value) :
    given (int unicode value) = true ↔ Seen value := by
  rw [← @isSome_number unicode _ number _ tidy, int]
  cases value.bind (intOfText unicode) with
  | none => exact Iff.rfl
  | some n => exact iff_of_true rfl rfl

theorem given_sum {a b : Option Text} (first : Tidy .count a) (second : Tidy .count b) :
    given (sum unicode [a, b]) = true ↔ Seen a ∨ Seen b := by
  rw [← @isSome_number unicode _ (.inr rfl) _ first,
    ← @isSome_number unicode _ (.inr rfl) _ second, sum]
  simp only [List.map_cons, List.map_nil]
  cases a.bind (intOfText unicode) with
  | some n => exact iff_of_true rfl (.inl rfl)
  | none =>
    cases b.bind (intOfText unicode) with
    | some n => exact iff_of_true rfl (.inr rfl)
    | none => exact iff_of_false Bool.false_ne_true (by simp)

theorem given_float {shortest : Double → PyFloat} {value : Option Text}
    (tidy : Tidy .interval value) :
    given (float unicode shortest value) = true ↔ Seen value := by
  cases value with
  | none => exact iff_of_false Bool.false_ne_true not_seen_none
  | some text =>
    rw [seen_some, float, Option.bind_some]
    by_cases empty : text = []
    · rw [empty]
      exact iff_of_false Bool.false_ne_true (not_not_intro rfl)
    · obtain ⟨negative, whole, fraction, some_whole, digits, behind, rfl⟩ := tidy text rfl empty
      rw [floatOfText_point unicode negative some_whole digits behind rfl]
      exact iff_of_true rfl empty

end Numbers

/-! ## The fields of a row -/

/-- Each field is there exactly when one of its columns is, and none is empty. -/
structure Reported (kind : Kind) (seen : String → Prop) (event : Event) : Prop where
  derived : ∀ d ∈ derivations kind,
    ((event.lookup (codes d.field)).isSome ↔ ∃ column ∈ d.columns, seen column)
  filled : ∀ name, event.lookup name ≠ some (.str [])

/-- The cells of the row that are seen are well formed. -/
def TidyRow (kind : Kind) (row : Row) : Prop :=
  ∀ entry ∈ columnTypes kind, Tidy entry.2 (get row entry.1)

def endpoints : List String := ["id.orig_h", "id.resp_h"]

theorem isSome_lookup_event {product service : String} {timestamp : Text}
    {fields : List (Text × PyValue)} (distinct : (fields.map Prod.fst).Nodup) {name : Text}
    {value : PyValue} (found : fields.lookup name = some value)
    (other : name ∉ ["product", "service", "timestamp"].map codes) :
    ((event product service timestamp fields).lookup name).isSome ↔ given value = true := by
  rw [lookup_event distinct other, found, Option.filter]
  split
  · rename_i kept
    exact iff_of_true rfl kept
  · rename_i dropped
    exact iff_of_false Bool.false_ne_true dropped

theorem given_endpoint {row : Row} {column : String} (seen : get row column ≠ some []) :
    given (raw (get row column)) = true ↔ Seen (get row column) := by
  rw [given_raw]
  cases text : get row column with
  | none => exact iff_of_false Bool.false_ne_true not_seen_none
  | some text =>
    rw [seen_some]
    refine iff_of_true rfl fun empty => seen ?_
    rw [text, empty]

theorem filled_event {product service : String} {timestamp : Text}
    {fields : List (Text × PyValue)} (routed : codes product ≠ [] ∧ codes service ≠ [])
    (dated : timestamp ≠ []) (filled : ∀ field ∈ fields, field.2 ≠ .str []) (name : Text) :
    (event product service timestamp fields).lookup name ≠ some (.str []) := by
  intro found
  have mem : (name, PyValue.str []) ∈ event product service timestamp fields :=
    FieldLookup.mem_of_lookup found
  simp only [event, List.mem_cons, Prod.mk.injEq, PyValue.str.injEq] at mem
  rcases mem with ⟨-, same⟩ | ⟨-, same⟩ | ⟨-, same⟩ | inside
  · exact routed.1 same.symm
  · exact routed.2 same.symm
  · exact dated same.symm
  · exact filled _ (List.mem_of_mem_filter inside) rfl

theorem raw_filled {value : Option Text} (seen : value ≠ some []) : raw value ≠ .str [] := by
  cases value with
  | none => exact nofun
  | some text =>
    intro same
    exact seen (congrArg some (PyValue.str.inj same))

theorem orNone_filled (value : Option Text) : orNone value ≠ .str [] := by
  cases value with
  | none => exact nofun
  | some text =>
    rw [orNone]
    split
    · exact nofun
    · rename_i some_text
      exact fun same => some_text (PyValue.str.inj same)

theorem direction_filled (pduType : Text) : direction pduType ≠ .str [] := by
  rw [direction]
  split_ifs
  · exact fun same => absurd (PyValue.str.inj same) (by decide)
  · exact fun same => absurd (PyValue.str.inj same) (by decide)
  · exact nofun

section Row

variable {unicode : Unicode} {shortest : Double → PyFloat} {row : Row}

theorem nodup_connFields : ((connFields unicode shortest row).map Prod.fst).Nodup := by
  have names : (connFields unicode shortest row).map Prod.fst =
      ["src_ip", "dst_ip", "src_port", "dst_port", "proto", "app_protocol", "duration", "bytes",
        "packets", "flow_state"].map codes := rfl
  rw [names]
  decide

theorem nodup_modbusFields {code : ℤ} : ((modbusFields unicode row code).map Prod.fst).Nodup := by
  have names : (modbusFields unicode row code).map Prod.fst =
      ["direction", "function_code", "unit_id", "src_ip", "dst_ip"].map codes := rfl
  rw [names]
  decide

theorem nodup_dnp3Fields {direction : String} {code : ℤ} :
    ((dnp3Fields row direction code).map Prod.fst).Nodup := by
  have names : (dnp3Fields row direction code).map Prod.fst =
      ["direction", "function_code", "src_ip", "dst_ip"].map codes := rfl
  rw [names]
  decide

theorem derived_one {product service : String} {timestamp : Text} {fields : List (Text × PyValue)}
    (distinct : (fields.map Prod.fst).Nodup) {name column : String} {value : PyValue}
    (found : fields.lookup (codes name) = some value)
    (other : codes name ∉ ["product", "service", "timestamp"].map codes) {seen : String → Prop}
    (shown : given value = true ↔ seen column) :
    ((event product service timestamp fields).lookup (codes name)).isSome ↔
      ∃ other ∈ [column], seen other := by
  rw [isSome_lookup_event distinct found other, shown]
  simp only [List.mem_singleton, exists_eq_left]

theorem derived_two {product service : String} {timestamp : Text} {fields : List (Text × PyValue)}
    (distinct : (fields.map Prod.fst).Nodup) {name a b : String} {value : PyValue}
    (found : fields.lookup (codes name) = some value)
    (other : codes name ∉ ["product", "service", "timestamp"].map codes) {seen : String → Prop}
    (shown : given value = true ↔ seen a ∨ seen b) :
    ((event product service timestamp fields).lookup (codes name)).isSome ↔
      ∃ other ∈ [a, b], seen other := by
  rw [isSome_lookup_event distinct found other, shown]
  simp only [List.mem_cons, List.not_mem_nil, or_false, exists_eq_or_imp, exists_eq_left]

theorem conn_derived (tidy : TidyRow .conn row)
    (seen : ∀ column ∈ endpoints, get row column ≠ some []) (timestamp : Text) :
    ∀ d ∈ derivations .conn,
      (((event "ot_flow" "flow" timestamp (connFields unicode shortest row)).lookup
        (codes d.field)).isSome ↔ ∃ column ∈ d.columns, Seen (get row column)) := by
  have typed {column : String} {type : ColumnType} (mem : (column, type) ∈ columnTypes .conn) :
      Tidy type (get row column) := tidy (column, type) mem
  have one {name column : String} {value : PyValue} :=
    @derived_one "ot_flow" "flow" timestamp (connFields unicode shortest row) nodup_connFields name
      column value
  have two {name a b : String} {value : PyValue} :=
    @derived_two "ot_flow" "flow" timestamp (connFields unicode shortest row) nodup_connFields name
      a b value
  simp only [derivations, List.forall_mem_cons]
  refine ⟨one rfl (by decide) (given_endpoint (seen _ (by decide))),
    one rfl (by decide) (given_endpoint (seen _ (by decide))),
    one rfl (by decide) (given_int (.inl rfl) (typed (by decide))),
    one rfl (by decide) (given_int (.inl rfl) (typed (by decide))),
    one rfl (by decide) (given_orNone _), one rfl (by decide) (given_orNone _),
    one rfl (by decide) (given_float (typed (by decide))),
    two rfl (by decide) (given_sum (typed (by decide)) (typed (by decide))),
    two rfl (by decide) (given_sum (typed (by decide)) (typed (by decide))),
    one rfl (by decide) (given_orNone _), List.forall_mem_nil _⟩

theorem code_filled (code : ℤ) : PyValue.int code ≠ .str [] := by
  intro same
  cases same

theorem int_filled (value : Option Text) : int unicode value ≠ .str [] := by
  rw [int]
  split
  · exact nofun
  · exact nofun

theorem float_filled (value : Option Text) : float unicode shortest value ≠ .str [] := by
  rw [float]
  split
  · exact nofun
  · exact nofun

theorem sum_filled (values : List (Option Text)) : sum unicode values ≠ .str [] := by
  rw [sum]
  split_ifs
  · exact nofun
  · exact nofun

theorem conn_filled (seen : ∀ column ∈ endpoints, get row column ≠ some []) :
    ∀ field ∈ connFields unicode shortest row, field.2 ≠ .str [] := by
  simp only [connFields, List.forall_mem_cons]
  exact ⟨raw_filled (seen _ (by decide)), raw_filled (seen _ (by decide)), int_filled _,
    int_filled _, orNone_filled _, orNone_filled _, float_filled _, sum_filled _, sum_filled _,
    orNone_filled _, List.forall_mem_nil _⟩

theorem modbus_derived (tidy : TidyRow .modbus row)
    (seen : ∀ column ∈ endpoints, get row column ≠ some []) (named : Seen (get row "func"))
    (timestamp : Text) (code : ℤ) :
    ∀ d ∈ derivations .modbus,
      (((event "ot_ndr" "modbus" timestamp (modbusFields unicode row code)).lookup
        (codes d.field)).isSome ↔ ∃ column ∈ d.columns, Seen (get row column)) := by
  have typed {column : String} {type : ColumnType} (mem : (column, type) ∈ columnTypes .modbus) :
      Tidy type (get row column) := tidy (column, type) mem
  have one {name column : String} {value : PyValue} :=
    @derived_one "ot_ndr" "modbus" timestamp (modbusFields unicode row code) nodup_modbusFields name
      column value
  simp only [derivations, List.forall_mem_cons]
  refine ⟨one rfl (by decide) (given_direction (typed (by decide))),
    one rfl (by decide) (iff_of_true rfl named),
    one rfl (by decide) (given_int (.inr rfl) (typed (by decide))),
    one rfl (by decide) (given_endpoint (seen _ (by decide))),
    one rfl (by decide) (given_endpoint (seen _ (by decide))), List.forall_mem_nil _⟩

theorem modbus_filled (seen : ∀ column ∈ endpoints, get row column ≠ some []) (code : ℤ) :
    ∀ field ∈ modbusFields unicode row code, field.2 ≠ .str [] := by
  simp only [modbusFields, List.forall_mem_cons]
  exact ⟨direction_filled _, code_filled code, int_filled _, raw_filled (seen _ (by decide)),
    raw_filled (seen _ (by decide)), List.forall_mem_nil _⟩

theorem dnp3_derived (seen : ∀ column ∈ endpoints, get row column ≠ some [])
    (sided : Seen (get row "fc_request") ∨ Seen (get row "fc_reply"))
    (timestamp : Text) (side : String) (code : ℤ) :
    ∀ d ∈ derivations .dnp3,
      (((event "ot_ndr" "dnp3" timestamp (dnp3Fields row side code)).lookup
        (codes d.field)).isSome ↔ ∃ column ∈ d.columns, Seen (get row column)) := by
  have one {name column : String} {value : PyValue} :=
    @derived_one "ot_ndr" "dnp3" timestamp (dnp3Fields row side code) nodup_dnp3Fields name
      column value
  have two {name a b : String} {value : PyValue} :=
    @derived_two "ot_ndr" "dnp3" timestamp (dnp3Fields row side code) nodup_dnp3Fields name
      a b value
  simp only [derivations, List.forall_mem_cons]
  refine ⟨two rfl (by decide) (iff_of_true rfl sided), two rfl (by decide) (iff_of_true rfl sided),
    one rfl (by decide) (given_endpoint (seen _ (by decide))),
    one rfl (by decide) (given_endpoint (seen _ (by decide))), List.forall_mem_nil _⟩

theorem dnp3_filled (seen : ∀ column ∈ endpoints, get row column ≠ some []) {side : String}
    (some_side : codes side ≠ []) (code : ℤ) :
    ∀ field ∈ dnp3Fields row side code, field.2 ≠ .str [] := by
  simp only [dnp3Fields, List.forall_mem_cons]
  exact ⟨fun same => some_side (PyValue.str.inj same), code_filled code,
    raw_filled (seen _ (by decide)),
    raw_filled (seen _ (by decide)), List.forall_mem_nil _⟩

end Row

/-! ## The event of a row -/

/-- The timestamp of a row whose `ts` is usable. -/
def Dated (unicode : Unicode) (row : Row) (timestamp : Text) : Prop :=
  ∃ d moment, seconds unicode row = .ok d ∧ fromtimestamp d = some moment ∧
    stamp moment = timestamp

theorem eventAt_dated {unicode : Unicode} {row : Row} {timestamp : Text}
    (dated : Dated unicode row timestamp) (product service : String)
    (fields : List (Text × PyValue)) :
    eventAt unicode product service row fields =
      .ok (some (event product service timestamp fields)) := by
  obtain ⟨d, moment, read, known, rfl⟩ := dated
  rw [eventAt, read]
  change (normalizeSeconds d).bind _ = _
  rw [normalizeSeconds, known]
  rfl

theorem stamp_eq (moment : DateTime) :
    stamp moment = IsoTime.wallText moment.wall.toNat ++ IsoTime.Zone.zulu.text :=
  IsoTime.replace_offset moment.wall.toNat

theorem Dated.ne_nil {unicode : Unicode} {row : Row} {timestamp : Text}
    (dated : Dated unicode row timestamp) : timestamp ≠ [] := by
  obtain ⟨d, moment, -, -, rfl⟩ := dated
  rw [stamp_eq]
  exact List.append_ne_nil_of_right_ne_nil _ (List.cons_ne_nil _ _)

section Event

variable (unicode : Unicode) (shortest : Double → PyFloat)

/-- The routing and the fields of the event of a row, if it has one. -/
def plan : Kind → Row → Option (String × String × List (Text × PyValue))
  | .conn, row => some ("ot_flow", "flow", connFields unicode shortest row)
  | .modbus, row => (modbusFunctions.lookup ((get row "func").getD [])).map fun code =>
      ("ot_ndr", "modbus", modbusFields unicode row code)
  | .dnp3, row => (dnp3Side row).bind fun side =>
      (dnp3Functions.lookup side.2).map fun code => ("ot_ndr", "dnp3", dnp3Fields row side.1 code)

def Named : Kind → Row → Prop
  | .conn, _ => True
  | .modbus, row => (modbusFunctions.lookup ((get row "func").getD [])).isSome
  | .dnp3, row => ∃ side name, dnp3Side row = some (side, name) ∧
      (dnp3Functions.lookup name).isSome

variable {unicode shortest}

theorem plan_isSome_iff (kind : Kind) (row : Row) :
    (plan unicode shortest kind row).isSome ↔ Named kind row := by
  cases kind with
  | conn => exact iff_of_true rfl trivial
  | modbus => rw [plan, Named, Option.isSome_map]
  | dnp3 =>
    rw [plan, Named]
    cases sided : dnp3Side row with
    | none => exact iff_of_false Bool.false_ne_true fun ⟨_, _, same, _⟩ => nomatch same
    | some side =>
      rw [Option.bind_some, Option.isSome_map]
      constructor
      · exact fun known => ⟨side.1, side.2, rfl, known⟩
      · rintro ⟨first, second, same, known⟩
        rwa [Option.some.inj same]

theorem convert_plan (kind : Kind) (row : Row) :
    convert unicode shortest kind row =
      match plan unicode shortest kind row with
      | none => .ok none
      | some (product, service, fields) => eventAt unicode product service row fields := by
  cases kind with
  | conn => rfl
  | modbus =>
    rw [convert, plan, modbus]
    cases modbusFunctions.lookup ((get row "func").getD []) with
    | none => rfl
    | some code => rfl
  | dnp3 =>
    rw [convert, plan, dnp3]
    cases dnp3Side row with
    | none => rfl
    | some side =>
      obtain ⟨direction, name⟩ := side
      rw [Option.bind_some]
      dsimp only
      cases dnp3Functions.lookup name with
      | none => rfl
      | some code => rfl

theorem seen_of_getD {value : Option Text} (some_text : value.getD [] ≠ []) : Seen value := by
  cases value with
  | none => exact absurd rfl some_text
  | some text => exact ⟨text, rfl, some_text⟩

theorem dnp3Side_seen {row : Row} {side : String × Text} (sided : dnp3Side row = some side) :
    (Seen (get row "fc_request") ∨ Seen (get row "fc_reply")) ∧ codes side.1 ≠ [] := by
  rw [dnp3Side] at sided
  split_ifs at sided with request reply
  · rw [← Option.some.inj sided]
    exact ⟨.inl (seen_of_getD request), (by decide : codes "request" ≠ [])⟩
  · rw [← Option.some.inj sided]
    exact ⟨.inr (seen_of_getD reply), (by decide : codes "response" ≠ [])⟩

theorem plan_endpoints {kind : Kind} {row : Row} {product service : String}
    {fields : List (Text × PyValue)}
    (planned : plan unicode shortest kind row = some (product, service, fields)) :
    (fields.map Prod.fst).Nodup ∧
      fields.lookup (codes "src_ip") = some (raw (get row "id.orig_h")) ∧
      fields.lookup (codes "dst_ip") = some (raw (get row "id.resp_h")) := by
  cases kind with
  | conn =>
    cases planned
    exact ⟨nodup_connFields, rfl, rfl⟩
  | modbus =>
    obtain ⟨code, -, same⟩ := Option.map_eq_some_iff.mp planned
    cases same
    exact ⟨nodup_modbusFields, rfl, rfl⟩
  | dnp3 =>
    obtain ⟨side, -, known⟩ := Option.bind_eq_some_iff.mp planned
    obtain ⟨code, -, same⟩ := Option.map_eq_some_iff.mp known
    cases same
    exact ⟨nodup_dnp3Fields, rfl, rfl⟩

theorem plan_reported {kind : Kind} {row : Row} (tidy : TidyRow kind row)
    (seen : ∀ column ∈ endpoints, get row column ≠ some []) {product service : String}
    {fields : List (Text × PyValue)}
    (planned : plan unicode shortest kind row = some (product, service, fields))
    {timestamp : Text} (dated : timestamp ≠ []) :
    Reported kind (fun column => Seen (get row column))
      (event product service timestamp fields) := by
  cases kind with
  | conn =>
    cases planned
    exact ⟨conn_derived tidy seen timestamp,
      filled_event (by decide) dated (conn_filled seen)⟩
  | modbus =>
    obtain ⟨code, known, same⟩ := Option.map_eq_some_iff.mp planned
    cases same
    have named : Seen (get row "func") := by
      refine seen_of_getD fun empty => ?_
      rw [empty] at known
      cases known
    exact ⟨modbus_derived tidy seen named timestamp code,
      filled_event (by decide) dated (modbus_filled seen code)⟩
  | dnp3 =>
    obtain ⟨side, sided, known⟩ := Option.bind_eq_some_iff.mp planned
    obtain ⟨code, -, same⟩ := Option.map_eq_some_iff.mp known
    cases same
    obtain ⟨shown, some_side⟩ := dnp3Side_seen sided
    exact ⟨dnp3_derived seen shown timestamp side.1 code,
      filled_event (by decide) dated (dnp3_filled seen some_side code)⟩

theorem convert_reported_iff {kind : Kind} {row : Row} {timestamp : Text}
    (dated : Dated unicode row timestamp) (tidy : TidyRow kind row) :
    (∀ e, convert unicode shortest kind row = .ok (some e) →
      Reported kind (fun column => Seen (get row column)) e) ↔
      (Named kind row → ∀ column ∈ endpoints, get row column ≠ some []) := by
  rw [← @plan_isSome_iff unicode shortest, convert_plan]
  cases planned : plan unicode shortest kind row with
  | none => exact iff_of_true (fun e none => nomatch none) (fun none => nomatch none)
  | some plan =>
    obtain ⟨product, service, fields⟩ := plan
    obtain ⟨distinct, source, destination⟩ := plan_endpoints planned
    dsimp only
    rw [eventAt_dated dated]
    constructor
    · intro reported _ column mem unset
      have filled := (reported _ rfl).filled
      have given (name : String) (other : codes name ∉ ["product", "service", "timestamp"].map codes)
          (value : fields.lookup (codes name) = some (raw (get row column))) : False := by
        refine filled (codes name) ?_
        rw [lookup_event distinct other, value, unset]
        rfl
      rcases List.mem_cons.mp mem with rfl | last
      · exact given "src_ip" (by decide) source
      · rw [List.mem_singleton.mp last] at given
        exact given "dst_ip" (by decide) destination
    · intro seen e same
      rw [← Option.some.inj (Except.ok.inj same)]
      exact plan_reported tidy (seen rfl) planned dated.ne_nil

end Event

/-! ## The rows of a log -/

section Log

variable (unicode : Unicode) (shortest : Double → PyFloat) (log : Log)

def column (row : List Text) (name : String) : Option Text :=
  (log.names.zip row).lookup (codes name)

def IsSet (row : List Text) (name : String) : Prop :=
  ∃ text, column log row name = some text ∧ text ≠ log.unset

/-- The set cells of the row are well formed. -/
def WellFormed (kind : Kind) (row : List Text) : Prop :=
  ∀ entry ∈ columnTypes kind, ∀ text, column log row entry.1 = some text → text ≠ log.unset →
    Formed entry.2 text

/-- The time of the row is set and a number within the years 1 to 9999. -/
def Usable (row : List Text) : Prop :=
  ∃ text d moment, column log row "ts" = some text ∧ text ≠ log.unset ∧
    floatOfText unicode text = some d ∧ fromtimestamp d = some moment

def readRow (row : List Text) : Row := dict log.unset log.names row

/-- The row has an event: the name of its function is in the table. -/
def HasEvent (kind : Kind) (row : List Text) : Prop := Named kind (readRow log row)

variable {unicode shortest log}

theorem get_readRow (row : List Text) (name : String) :
    get (readRow log row) name = (column log row name).map log.value :=
  cell_dict log.names_distinct row (codes name)

theorem value_eq_nil_iff {text : Text} (formed : text ≠ log.unset → text ≠ []) :
    log.value text = [] ↔ text = log.unset := by
  rw [Log.value]
  split
  · rename_i unset
    exact iff_of_true rfl unset
  · rename_i set
    exact iff_of_false (formed set) set

theorem seen_readRow_iff {kind : Kind} {row : List Text} (formed : WellFormed log kind row)
    {name : String} {type : ColumnType} (mem : (name, type) ∈ columnTypes kind) :
    Seen (get (readRow log row) name) ↔ IsSet log row name := by
  rw [get_readRow, IsSet]
  cases found : column log row name with
  | none => exact iff_of_false not_seen_none fun ⟨_, same, _⟩ => nomatch same
  | some text =>
    have filled (set : text ≠ log.unset) : text ≠ [] := (formed _ mem text found set).ne_nil
    rw [Option.map_some, seen_some, ne_eq, value_eq_nil_iff filled]
    constructor
    · exact fun set => ⟨text, rfl, set⟩
    · rintro ⟨text', same, set⟩
      rwa [Option.some.inj same]

theorem tidyRow_readRow {kind : Kind} {row : List Text} (formed : WellFormed log kind row) :
    TidyRow kind (readRow log row) := by
  intro entry mem text found some_text
  rw [get_readRow] at found
  obtain ⟨text', given, same⟩ := Option.map_eq_some_iff.mp found
  rw [Log.value] at same
  split at same
  · exact absurd same.symm some_text
  · rename_i set
    rw [← same]
    exact formed entry mem text' given set

theorem dated_readRow {row : List Text} (usable : Usable unicode log row) :
    ∃ timestamp, Dated unicode (readRow log row) timestamp := by
  obtain ⟨text, d, moment, found, set, number, known⟩ := usable
  refine ⟨stamp moment, d, moment, ?_, known, rfl⟩
  have given : get (readRow log row) "ts" = some text := by
    rw [get_readRow, found, Option.map_some, Log.value, if_neg set]
  rw [seconds, given]
  dsimp only
  rw [number]

theorem columns_typed : ∀ kind : Kind, ∀ d ∈ derivations kind, ∀ name ∈ d.columns,
    ∃ type, (name, type) ∈ columnTypes kind := by
  intro kind d mem name inside
  have keys : ∀ d ∈ derivations kind, ∀ name ∈ d.columns,
      name ∈ (columnTypes kind).map Prod.fst := by
    cases kind
    all_goals decide
  obtain ⟨entry, typed, rfl⟩ := List.mem_map.mp (keys d mem name inside)
  exact ⟨entry.2, typed⟩

theorem endpoints_typed (kind : Kind) {name : String} (mem : name ∈ endpoints) :
    (name, ColumnType.addr) ∈ columnTypes kind := by
  revert name
  cases kind
  all_goals decide

theorem reported_iff {kind : Kind} {row : List Text} (formed : WellFormed log kind row)
    (e : Event) :
    Reported kind (fun name => Seen (get (readRow log row) name)) e ↔
      Reported kind (IsSet log row) e := by
  have same : ∀ d ∈ derivations kind,
      ((∃ name ∈ d.columns, Seen (get (readRow log row) name)) ↔
        ∃ name ∈ d.columns, IsSet log row name) := by
    intro d mem
    refine exists_congr fun name => and_congr_right fun inside => ?_
    obtain ⟨type, typed⟩ := columns_typed kind d mem name inside
    exact seen_readRow_iff formed typed
  constructor
  · exact fun ⟨derived, filled⟩ => ⟨fun d mem => (derived d mem).trans (same d mem), filled⟩
  · exact fun ⟨derived, filled⟩ => ⟨fun d mem => (derived d mem).trans (same d mem).symm, filled⟩

theorem endpoint_iff {kind : Kind} {row : List Text} (formed : WellFormed log kind row)
    {name : String} (mem : name ∈ endpoints) :
    get (readRow log row) name ≠ some [] ↔ column log row name ≠ some log.unset := by
  rw [get_readRow]
  cases found : column log row name with
  | none => exact iff_of_true nofun nofun
  | some text =>
    have filled (set : text ≠ log.unset) : text ≠ [] :=
      (formed _ (endpoints_typed kind mem) text found set).ne_nil
    rw [Option.map_some, ne_eq, ne_eq, Option.some.injEq, Option.some.injEq,
      value_eq_nil_iff filled]

theorem events_tab (unicode : Unicode) (shortest : Double → PyFloat)
    (tab : log.separator = 0x09) {file : List Char}
    (lines : (readLines file).filter (fun line => ¬ Skipped line) = log.lines) {name : Text}
    {kind : Kind} (named : kindOf name = some kind) :
    events unicode shortest [(name, file)] =
      convertAll (convert unicode shortest kind) none (log.rows.map (readRow log)) := by
  have here : fileEvents unicode shortest name file =
      convertAll (convert unicode shortest kind) none (log.rows.map (readRow log)) := by
    rw [fileEvents, log.rows_tab tab lines, named]
    rfl
  rw [events, here]
  cases ends : (convertAll (convert unicode shortest kind) none
      (log.rows.map (readRow log))).raised with
  | some e => simp only [← ends]
  | none => simp only [events, List.append_nil, ← ends]

/-- The events of a tab-separated log are those of its rows, and the event of a row with a
usable time has the fields of its set columns and no empty one if and only if neither
endpoint is unset. -/
theorem events_omit_unset_iff (unicode : Unicode) (shortest : Double → PyFloat) {log : Log}
    (tab : log.separator = 0x09) {file : List Char}
    (lines : (readLines file).filter (fun line => ¬ Skipped line) = log.lines) {name : Text}
    {kind : Kind} (named : kindOf name = some kind) :
    events unicode shortest [(name, file)] =
        convertAll (convert unicode shortest kind) none (log.rows.map (readRow log)) ∧
      ∀ row ∈ log.rows, Usable unicode log row → WellFormed log kind row →
        ((∀ e, convert unicode shortest kind (readRow log row) = .ok (some e) →
            Reported kind (IsSet log row) e) ↔
          (HasEvent log kind row → ∀ endpoint ∈ endpoints,
            column log row endpoint ≠ some log.unset)) := by
  refine ⟨events_tab unicode shortest tab lines named, fun row mem usable formed => ?_⟩
  obtain ⟨timestamp, dated⟩ := dated_readRow usable
  have exact := @convert_reported_iff unicode shortest _ _ _ dated (tidyRow_readRow formed)
  simp only [reported_iff formed] at exact
  rw [exact, HasEvent]
  exact forall_congr' fun _ => forall₂_congr fun endpoint inside => endpoint_iff formed inside

theorem usable_whole {unicode : Unicode} {log : Log} {row : List Text} {s : ℤ} {k : ℕ}
    (found : column log row "ts" = some (intText s ++ 0x2E :: List.replicate k 0x30))
    (set : intText s ++ 0x2E :: List.replicate k 0x30 ≠ log.unset)
    (early : 0 ≤ epochWall + s * 1000000) (late : epochWall + s * 1000000 < wallEnd) :
    Usable unicode log row := by
  have small : s.natAbs < 2 ^ 53 := by
    unfold epochWall at early late
    unfold wallEnd at late
    omega
  refine ⟨_, _, ⟨epochWall + s * 1000000, some 0, early, late⟩, found, set,
    floatOfText_whole unicode small k, ?_⟩
  rw [fromtimestamp_intCast]
  exact dif_pos ⟨early, late⟩

end Log

/-! ## Flows with and without an originator -/

def flowLog : Log :=
  sampleLog 0x09 ["ts", "id.orig_h"] [["5.000000", "172.24.0.10"], ["5.000000", "-"]]
    (by decide +kernel)

def flowFile : List Char := String.toList
  "#separator \\x09\n#unset_field\t-\n#fields\tts\tid.orig_h\n5.000000\t172.24.0.10\n5.000000\t-\n"

theorem flowFile_lines :
    (readLines flowFile).filter (fun line => ¬ Skipped line) = flowLog.lines := by
  decide +kernel

theorem flowLog_usable : ∀ row ∈ flowLog.rows, Usable noTables flowLog row := by
  have early : 0 ≤ epochWall + 5 * 1000000 := by decide
  have late : epochWall + 5 * 1000000 < wallEnd := by decide
  intro row mem
  refine @usable_whole noTables flowLog row 5 6 ?_ (by decide) early late
  revert row
  decide

theorem flowLog_formed : ∀ row ∈ flowLog.rows, WellFormed flowLog .conn row := by
  intro row mem entry typed text found set
  have endpoint : ∀ row ∈ flowLog.rows, ∀ entry ∈ columnTypes .conn,
      (column flowLog row entry.1).isSome → entry = ("id.orig_h", .addr) := by decide +kernel
  have some_cell : ∀ row ∈ flowLog.rows, column flowLog row "id.orig_h" ≠ some [] := by decide
  have here := endpoint row mem entry typed (by rw [found]; rfl)
  rw [here] at found ⊢
  intro empty
  exact some_cell row mem (by rw [found, empty])

theorem events_omit_unset_seen : ∃ e,
    convert noTables (fun _ => .nan) .conn
      (readRow flowLog (["5.000000", "172.24.0.10"].map codes)) = .ok (some e) ∧
    Reported .conn (IsSet flowLog (["5.000000", "172.24.0.10"].map codes)) e := by
  obtain ⟨timestamp, dated⟩ := dated_readRow (flowLog_usable _ List.mem_cons_self)
  refine ⟨_, eventAt_dated dated _ _ _, ?_⟩
  exact ((@events_omit_unset_iff noTables (fun _ => .nan) flowLog rfl _ flowFile_lines
    (codes "conn.log") .conn (by decide)).2 _ List.mem_cons_self
    (flowLog_usable _ List.mem_cons_self) (flowLog_formed _ List.mem_cons_self)).mpr
    (fun _ => by decide) _ (eventAt_dated dated _ _ _)

/-- The event of a flow without originator has an empty one. -/
theorem events_report_unset : ¬ ∀ (log : Log) (file : List Char) (name : Text) (kind : Kind),
    log.separator = 0x09 →
    (readLines file).filter (fun line => ¬ Skipped line) = log.lines → kindOf name = some kind →
    ∀ row ∈ log.rows, Usable noTables log row → WellFormed log kind row →
    ∀ e, convert noTables (fun _ => .nan) kind (readRow log row) = .ok (some e) →
    Reported kind (IsSet log row) e := by
  intro all
  have mem : ["5.000000", "-"].map codes ∈ flowLog.rows := by decide
  obtain ⟨timestamp, dated⟩ := dated_readRow (flowLog_usable _ mem)
  have reported := all flowLog flowFile (codes "conn.log") .conn rfl flowFile_lines (by decide) _
    mem (flowLog_usable _ mem) (flowLog_formed _ mem) _ (eventAt_dated dated "ot_flow" "flow" _)
  refine reported.filled (codes "src_ip") ?_
  rw [lookup_event nodup_connFields (by decide)]
  rfl

end OtDetection.ZeekEvents
