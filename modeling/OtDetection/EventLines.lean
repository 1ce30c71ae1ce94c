import OtDetection.DecoderCli
import OtDetection.OpcuaJsonLine

/-! The lines that the decoders print. A line is one JSON object without a line break, and
reading it gives back the fields of its event. For DNP3 and S7comm this is so for every
event; for OPC UA it depends on the URI that the sender has chosen. -/

namespace OtDetection.EventLines
open Octets EventText JsonText PyLines OpcuaJsonLine

/-- A printed object: it stays on one line and reads back as its members, each name once. -/
structure Printed (line : List Char) (members : List (List ℕ × Json)) : Prop where
  opens : line.head? = some '\x7b'
  unbroken : ∀ c ∈ line, ¬ isLineBreak c
  reads : loads line = some (.object members)
  distinct : (members.map Prod.fst).Nodup

/-! ## Fields -/

inductive Shown
  | number (n : ℕ)
  | text (t : List Char)
  deriving DecidableEq, Repr

def Shown.text? : Shown → Option (List Char)
  | .number _ => none
  | .text t => some t

def fieldOf (field : String × Shown) : List Char :=
  match field.2 with
  | .number n => numberField field.1 n
  | .text t => textField field.1 t

def memberOf (field : String × Shown) : List ℕ × Json :=
  (codes field.1.toList, match field.2 with
    | .number n => .number n
    | .text t => .string (codes t))

/-- The field has plain words only. -/
structure Worded (field : String × Shown) : Prop where
  name : ∀ c ∈ field.1.toList, isWord c
  text : ∀ t ∈ field.2.text?, ∀ c ∈ t, isWord c

theorem Worded.reads {field : String × Shown} (worded : Worded field) :
    FieldReads (fieldOf field) (memberOf field) := by
  obtain ⟨name, shown⟩ := field
  intro depth
  cases shown with
  | number n => exact readsAs_member (fun c hc => (worded.name c hc).plain) (readsAs_number depth n)
  | text t =>
    exact readsAs_member (fun c hc => (worded.name c hc).plain)
      (readsAs_string depth fun c hc => (worded.text t rfl c hc).plain)

theorem Worded.visible {field : String × Shown} (worded : Worded field) :
    ∀ c ∈ fieldOf field, isVisible c := by
  obtain ⟨name, shown⟩ := field
  intro c mem
  have named : ∀ c ∈ name.toList, isVisible c := fun c inside => (worded.name c inside).visible
  cases shown with
  | number n => exact numberField_char named mem
  | text t =>
    rcases textField_char named mem with visible | inside
    · exact visible
    · exact (worded.text t rfl c inside).visible

theorem codes_injective : Function.Injective fun name : String => codes name.toList := by
  intro first second same
  exact String.toList_injective
    (List.map_injective_iff.mpr (fun _ _ value => Char.toNat_inj.mp value) same)

theorem printed_joinFields {fields : List (String × Shown)} (nonempty : fields ≠ [])
    (worded : ∀ field ∈ fields, Worded field) (distinct : (fields.map Prod.fst).Nodup) :
    Printed (joinFields (fields.map fieldOf)) (fields.map memberOf) where
  opens := rfl
  unbroken := by
    intro c mem
    rw [joinFields, List.mem_cons, List.mem_append, List.mem_singleton] at mem
    rcases mem with rfl | mem | rfl
    · decide
    · rcases mem_intercalate mem with rfl | ⟨text, inside, at_text⟩
      · decide
      · obtain ⟨field, at_field, rfl⟩ := List.mem_map.mp inside
        exact ((worded field at_field).visible c at_text).unbroken
    · decide
  reads := by
    have each (depth : ℕ) : List.Forall₂ (ReadsAs (readMember (readValue (depth + 1))))
        (fields.map fieldOf) (fields.map memberOf) := by
      rw [List.forall₂_map_left_iff, List.forall₂_map_right_iff, List.forall₂_same]
      exact fun field mem => (worded field mem).reads depth
    refine loads_object each (by simpa using nonempty) ?_
    obtain ⟨⟨name, shown⟩, fields, rfl⟩ := List.exists_cons_of_ne_nil nonempty
    cases shown <;> cases fields <;> rfl
  distinct := by
    have named : (fields.map memberOf).map Prod.fst =
        (fields.map Prod.fst).map fun name => codes name.toList := by
      rw [List.map_map, List.map_map]
      rfl
    rw [named]
    exact distinct.map codes_injective

/-! ## DNP3 -/

def optionalShown {α : Type} (name : String) (value : α → ℕ) (field : Option α) :
    List (String × Shown) := (field.map fun a => (name, Shown.number (value a))).toList

theorem map_optionalShown {α : Type} (name : String) (value : α → ℕ) (field : Option α) :
    (optionalShown name value field).map fieldOf =
      optionalField (fun a => numberField name (value a)) field := by
  cases field <;> rfl

section Dnp3

open Dnp3Application

/-- The fields of an event, those of the objects and the indications where it has them. -/
def dnp3Fields (event : Event) : List (String × Shown) :=
  [("direction", .text event.direction.asStr.toList),
    ("function_code", .number event.functionCode.toNat),
    ("function_name", .text event.functionName.toList),
    ("link_source", .number event.linkSource.toNat),
    ("link_destination", .number event.linkDestination.toNat),
    ("link_function", .number event.linkFunction.toNat),
    ("link_function_name", .text event.linkFunctionName.toList),
    ("transport_sequence", .number event.transportSequence.toNat),
    ("application_sequence", .number event.applicationSequence.toNat)] ++
  optionalShown "object_group" BitVec.toNat event.objectGroup ++
  optionalShown "object_variation" BitVec.toNat event.objectVariation ++
  optionalShown "object_count" BitVec.toNat event.objectCount ++
  optionalShown "control_code" BitVec.toNat event.controlCode ++
  optionalShown "iin" BitVec.toNat event.iin

theorem dnp3_toJson (event : Event) : event.toJson = joinFields ((dnp3Fields event).map fieldOf) := by
  simp only [dnp3Fields, List.map_append, map_optionalShown]
  rfl

theorem asStr_word (direction : Direction) : ∀ c ∈ direction.asStr.toList, isWord c := by
  cases direction <;> exact forall_of_all (by decide)

theorem dnp3_functionName_word (function : U8) : ∀ c ∈ (functionName function).toList, isWord c := by
  unfold functionName
  split <;> exact forall_of_all (by decide +kernel)

theorem link_functionName_word (control : Dnp3Link.Control) :
    ∀ c ∈ control.functionName.toList, isWord c := by
  unfold Dnp3Link.Control.functionName
  split <;> exact forall_of_all (by decide +kernel)

theorem worded_number {name : String} (word : ∀ c ∈ name.toList, isWord c) (n : ℕ) :
    Worded (name, .number n) := ⟨word, by intro t ht; cases ht⟩

theorem worded_text {name : String} (word : ∀ c ∈ name.toList, isWord c) {t : List Char}
    (words : ∀ c ∈ t, isWord c) : Worded (name, .text t) :=
  ⟨word, by intro t' ht; cases ht; exact words⟩

theorem worded_optional {α : Type} {name : String} (word : ∀ c ∈ name.toList, isWord c)
    (value : α → ℕ) (field : Option α) :
    ∀ shown ∈ optionalShown name value field, Worded shown := by
  intro shown mem
  obtain ⟨a, -, rfl⟩ := Option.map_eq_some_iff.mp (Option.mem_toList.mp mem)
  exact worded_number word (value a)

theorem optionalShown_names {α : Type} (name : String) (value : α → ℕ) (field : Option α) :
    ((optionalShown name value field).map Prod.fst).Sublist [name] := by
  cases field with
  | none => exact List.nil_sublist _
  | some a => exact List.Sublist.refl _

/-- No field has the name of another one, or of a field of the collector. -/
theorem dnp3_names (event : Event) :
    (["product", "service"] ++ (dnp3Fields event).map Prod.fst).Nodup := by
  have names : (["product", "service"] ++ (["direction", "function_code", "function_name",
      "link_source", "link_destination", "link_function", "link_function_name",
      "transport_sequence", "application_sequence"] ++ ["object_group"] ++ ["object_variation"] ++
      ["object_count"] ++ ["control_code"] ++ ["iin"])).Nodup := by decide
  refine names.sublist (List.Sublist.append (List.Sublist.refl _) ?_)
  simp only [dnp3Fields, List.map_append]
  repeat' apply List.Sublist.append
  · exact List.Sublist.refl _
  all_goals exact optionalShown_names _ _ _

/-- The line of a DNP3 event reads back exactly. -/
theorem dnp3_printed {frame : Dnp3Link.LinkFrame} {e : Event} (yields : event frame = some e) :
    Printed e.toJson ((dnp3Fields e).map memberOf) := by
  obtain ⟨transport, -, yields⟩ := Option.bind_eq_some_iff.mp yields
  obtain ⟨application, -, yields⟩ := Option.bind_eq_some_iff.mp yields
  obtain rfl := Option.some.inj yields
  rw [dnp3_toJson]
  refine printed_joinFields (by simp [dnp3Fields]) ?_ (List.nodup_append.mp (dnp3_names _)).2.1
  simp only [dnp3Fields, List.forall_mem_append, List.forall_mem_cons, List.not_mem_nil,
    false_implies, implies_true, and_true]
  refine ⟨⟨⟨⟨⟨⟨?_, ?_, ?_, ?_, ?_, ?_, ?_, ?_, ?_⟩, ?_⟩, ?_⟩, ?_⟩, ?_⟩, ?_⟩
  · exact worded_text (forall_of_all (by decide)) (asStr_word _)
  · exact worded_number (forall_of_all (by decide)) _
  · exact worded_text (forall_of_all (by decide)) (dnp3_functionName_word _)
  · exact worded_number (forall_of_all (by decide)) _
  · exact worded_number (forall_of_all (by decide)) _
  · exact worded_number (forall_of_all (by decide)) _
  · exact worded_text (forall_of_all (by decide)) (link_functionName_word _)
  · exact worded_number (forall_of_all (by decide)) _
  · exact worded_number (forall_of_all (by decide)) _
  all_goals exact worded_optional (forall_of_all (by decide)) _ _

end Dnp3

/-! ## S7comm -/

section S7comm

open OtDetection.S7comm

def s7commFields (event : Event) : List (String × Shown) :=
  [("direction", .text event.direction.asStr.toList),
    ("function_code", .number event.functionCode.toNat),
    ("function_name", .text event.functionName.toList),
    ("rosctr", .number event.rosctr.toNat),
    ("pdu_reference", .number event.pduReference.toNat),
    ("parameter_length", .number event.parameterLength.toNat),
    ("data_length", .number event.dataLength.toNat),
    ("cotp_type", .number event.cotpType.toNat)]

theorem s7comm_toJson (event : Event) :
    event.toJson = joinFields ((s7commFields event).map fieldOf) := rfl

theorem s7comm_functionName_word (function : U8) :
    ∀ c ∈ (functionName function).toList, isWord c := by
  unfold functionName
  split <;> exact forall_of_all (by decide +kernel)

theorem s7comm_names (event : Event) :
    (["product", "service"] ++ (s7commFields event).map Prod.fst).Nodup := by
  simp only [s7commFields, List.map_cons, List.map_nil]
  decide

theorem s7comm_printed {frame : S7CommFrame} {e : Event} (yields : event frame = some e) :
    Printed e.toJson ((s7commFields e).map memberOf) := by
  cases header : frame.s7 with
  | none =>
    rw [event, header] at yields
    cases yields
  | some s7 =>
    rw [event, header] at yields
    obtain rfl := Option.some.inj yields
    rw [s7comm_toJson]
    refine printed_joinFields (by simp [s7commFields]) ?_
      (List.nodup_append.mp (s7comm_names _)).2.1
    simp only [s7commFields, List.forall_mem_cons, List.not_mem_nil, false_implies,
      implies_true, and_true]
    refine ⟨?_, ?_, ?_, ?_, ?_, ?_, ?_, ?_⟩
    · exact worded_text (forall_of_all (by decide)) (asStr_word _)
    · exact worded_number (forall_of_all (by decide)) _
    · exact worded_text (forall_of_all (by decide)) (s7comm_functionName_word _)
    all_goals exact worded_number (forall_of_all (by decide)) _

end S7comm

/-! ## OPC UA -/

section Opcua

open OpcuaEvent

def optionalWord (name : String) (field : Option (List Char)) : List (String × Shown) :=
  (field.map fun t => (name, Shown.text t)).toList

def opcuaFields (event : Event) : List (String × Shown) :=
  [("message_type", .text event.messageType), ("chunk_type", .text event.chunkType)] ++
  optionalShown "secure_channel_id" BitVec.toNat event.secureChannelId ++
  optionalWord "security_policy_uri" event.securityPolicyUri ++
  optionalShown "token_id" BitVec.toNat event.tokenId ++
  optionalShown "sequence_number" BitVec.toNat event.sequenceNumber ++
  optionalShown "request_id" BitVec.toNat event.requestId ++
  optionalShown "service_id" BitVec.toNat event.serviceId ++
  optionalWord "opcua_service" event.opcuaService ++
  optionalWord "direction" event.direction

theorem optionalWord_names (name : String) (field : Option (List Char)) :
    ((optionalWord name field).map Prod.fst).Sublist [name] := by
  cases field with
  | none => exact List.nil_sublist _
  | some t => exact List.Sublist.refl _

theorem opcua_names (event : Event) :
    (["product", "service"] ++ (opcuaFields event).map Prod.fst).Nodup := by
  have names : (["product", "service"] ++ (["message_type", "chunk_type"] ++
      ["secure_channel_id"] ++ ["security_policy_uri"] ++ ["token_id"] ++ ["sequence_number"] ++
      ["request_id"] ++ ["service_id"] ++ ["opcua_service"] ++ ["direction"])).Nodup := by decide
  refine names.sublist (List.Sublist.append (List.Sublist.refl _) ?_)
  simp only [opcuaFields, List.map_append]
  repeat' apply List.Sublist.append
  · exact List.Sublist.refl _
  all_goals first | exact optionalShown_names _ _ _ | exact optionalWord_names _ _

theorem members_eq (event : Event) : members event = (opcuaFields event).map memberOf := by
  have number (name : String) (field : Option U32) :
      (optionalShown name BitVec.toNat field).map memberOf =
        (field.map (numberMember name)).toList := by
    cases field <;> rfl
  have word (name : String) (field : Option (List Char)) :
      (optionalWord name field).map memberOf = (field.map (textMember name)).toList := by
    cases field <;> rfl
  simp only [opcuaFields, List.map_append, number, word]
  rfl

/-- The line of an OPC UA event reads back where no character of its URI needs an escape or
breaks the line. -/
theorem opcua_printed {bytes : List U8} {frame : OpcuaMessage.OpcUaFrame} {n : ℕ}
    (parsed : OpcuaMessage.parseFrame bytes = .ok (frame, n))
    (clean : ∀ uri ∈ (event frame).securityPolicyUri,
      (∀ c ∈ uri, isPlain c) ∧ ∀ c ∈ uri, ¬ isLineBreak c) :
    Printed (event frame).toJson ((opcuaFields (event frame)).map memberOf) := by
  have faithful := (faithfulLine_iff (protocolWords parsed)).mpr clean
  rw [← members_eq]
  exact ⟨rfl, (splitlines_newline_iff _).mp faithful.one_line, faithful.reads, faithful.distinct⟩

end Opcua

end OtDetection.EventLines
