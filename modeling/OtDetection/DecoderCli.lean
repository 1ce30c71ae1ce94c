import OtDetection.Dnp3Application
import OtDetection.HexText
import OtDetection.OpcuaMessage
import OtDetection.S7comm

/-! The command line of the decoders. A document has one octet string a line, in hex; each
line is decoded on its own, to the events of its frames up to its first error. The three
programs differ in their decoder and in their texts only. -/

namespace OtDetection.DecoderCli
open Octets LengthFraming HexText EventText

/-! ## Lines -/

def dropReturn (line : List Char) : List Char :=
  if line.getLast? = some '\r' then line.dropLast else line

def linesFrom (line : List Char) : List Char → List (List Char)
  | [] => if line = [] then [] else [line]
  | c :: rest =>
    if c = '\n' then dropReturn line :: linesFrom [] rest else linesFrom (line ++ [c]) rest

/-- `str::lines`. -/
def lines (text : List Char) : List (List Char) := linesFrom [] text

def isWhitespace (c : Char) : Bool :=
  let n := c.toNat
  (0x09 ≤ n ∧ n ≤ 0x0D) ∨ n = 0x20 ∨ n = 0x85 ∨ n = 0xA0 ∨ n = 0x1680 ∨
    (0x2000 ≤ n ∧ n ≤ 0x200A) ∨ n = 0x2028 ∨ n = 0x2029 ∨ n = 0x202F ∨ n = 0x205F ∨ n = 0x3000

def trim (line : List Char) : List Char := (line.dropWhile isWhitespace).rdropWhile isWhitespace

/-! ## The programs -/

/-- A decoder, and how it shows what it has decoded. -/
structure Decoder where
  Frame : Type
  Error : Type
  needed : Error → Option ℕ
  parse : List U8 → Except Error (Frame × ℕ)
  incremental : Incremental needed parse
  progress : Progress parse
  eventLine : Frame → Option (List Char)
  display : Error → List Char
  crate : String
  subject : String
  input : String

def hexOctet (octet : U8) : List Char :=
  "0x".toList ++ [Nat.digitChar (octet.toNat / 16), Nat.digitChar (octet.toNat % 16)]

def linkError : Dnp3Link.LinkError → List Char
  | .incomplete needed => "incomplete frame: need ".toList ++ decimal needed ++ " octets".toList
  | .badStart => "frame does not start with 05 64".toList
  | .badLength length => "invalid length field: ".toList ++ decimal length.toNat
  | .headerCrc => "header CRC mismatch".toList
  | .dataCrc block => "user-data block ".toList ++ decimal block ++ " CRC mismatch".toList

def tpktError : S7comm.TpktError → List Char
  | .incomplete needed => "incomplete TPKT: need ".toList ++ decimal needed ++ " octets".toList
  | .badVersion version => "unexpected TPKT version: ".toList ++ hexOctet version
  | .badLength length => "invalid TPKT length: ".toList ++ decimal length.toNat

def s7commError : S7comm.ParseError → List Char
  | .tpkt error => tpktError error
  | .cotp => "invalid COTP header".toList

def opcuaError : OpcuaMessage.ParseError → List Char
  | .message (.incomplete needed) =>
    "incomplete message: need ".toList ++ decimal needed ++ " octets".toList
  | .message .badType => "unrecognized OPC UA message type".toList
  | .message (.badChunk chunk) => "invalid chunk type: ".toList ++ hexOctet chunk
  | .message (.badSize size) => "invalid message size: ".toList ++ decimal size.toNat

def dnp3 : Decoder where
  Frame := Dnp3Link.LinkFrame
  Error := Dnp3Link.LinkError
  needed := Dnp3Link.LinkError.needed
  parse := Dnp3Link.parseFrame
  incremental := Dnp3Link.incremental
  progress := Dnp3Link.progress
  eventLine := fun frame => (Dnp3Application.event frame).map Dnp3Application.Event.toJson
  display := linkError
  crate := "dnp3-dpi"
  subject := "DNP3 link frames"
  input := "frames"

def s7comm : Decoder where
  Frame := S7comm.S7CommFrame
  Error := S7comm.ParseError
  needed := S7comm.ParseError.needed
  parse := S7comm.parseFrame
  incremental := S7comm.incremental
  progress := S7comm.progress
  eventLine := fun frame => (S7comm.event frame).map S7comm.Event.toJson
  display := s7commError
  crate := "s7comm-dpi"
  subject := "S7comm frames"
  input := "frames"

def opcua : Decoder where
  Frame := OpcuaMessage.OpcUaFrame
  Error := OpcuaMessage.ParseError
  needed := OpcuaMessage.ParseError.needed
  parse := OpcuaMessage.parseFrame
  incremental := OpcuaMessage.incremental
  progress := OpcuaMessage.progress
  eventLine := fun frame => some (OpcuaEvent.event frame).toJson
  display := opcuaError
  crate := "opcua-dpi"
  subject := "OPC UA messages"
  input := "messages"

namespace Decoder

variable (d : Decoder)

/-- `parse_stream` of the crate. -/
def stream (bytes : List U8) : List (Except d.Error d.Frame) :=
  (streamOf d.parse bytes).get
    (Option.isSome_iff_exists.mpr (streamOf_terminates d.progress bytes))

theorem streamOf_eq (bytes : List U8) : streamOf d.parse bytes = some (d.stream bytes) :=
  (Option.some_get _).symm

end Decoder

/-- The lines on both outputs, and the two counts of the summary. -/
structure Output where
  stdout : List (List Char)
  stderr : List (List Char)
  decoded : ℕ
  errors : ℕ
  deriving DecidableEq, Repr

def complaint (number : ℕ) (text : List Char) : List Char :=
  "line ".toList ++ decimal number ++ ": ".toList ++ text

def Output.fail (output : Output) (number : ℕ) (text : List Char) : Output :=
  { output with stderr := output.stderr ++ [complaint number text], errors := output.errors + 1 }

def Output.record (d : Decoder) (number : ℕ) (output : Output) :
    Except d.Error d.Frame → Output
  | .ok frame =>
    match d.eventLine frame with
    | some line => { output with stdout := output.stdout ++ [line], decoded := output.decoded + 1 }
    | none => output
  | .error error => output.fail number (d.display error)

def Output.readLine (d : Decoder) (output : Output) (numbered : List Char × ℕ) : Output :=
  let line := trim numbered.1
  if line = [] ∨ line.head? = some '#' then output
  else
    match decodeHex line with
    | none => output.fail numbered.2 "invalid hex".toList
    | some bytes => (d.stream bytes).foldl (Output.record d numbered.2) output

def Decoder.run (d : Decoder) (input : List Char) : Output :=
  ((lines input).zipIdx 1).foldl (Output.readLine d) ⟨[], [], 0, 0⟩

/-- What a process leaves behind. -/
structure Process where
  stdout : List Char
  stderr : List (List Char)
  code : ℕ
  deriving DecidableEq, Repr

def Decoder.usage (d : Decoder) : List (List Char) :=
  [d.crate.toList ++ " — decode ".toList ++ d.subject.toList ++
      " into normalized JSON events".toList, [],
    "USAGE: ".toList ++ d.crate.toList ++ " [FILE]".toList, [],
    "Reads hex-encoded ".toList ++ d.input.toList ++
      " from FILE, or standard input when omitted.".toList]

/-- `writeln!` of each line. -/
def printed (lines : List (List Char)) : List Char := lines.flatMap fun line => line ++ ['\n']

def Decoder.main (d : Decoder) (readFile : List Char → Except (List Char) (List Char))
    (stdin : Except (List Char) (List Char)) (args : List (List Char)) : Process :=
  if args.any fun arg => arg = "--help".toList ∨ arg = "-h".toList then ⟨[], d.usage, 0⟩
  else
    let input := match args.head? with
      | some path => (readFile path).mapError fun error =>
          "error: cannot read ".toList ++ path ++ ": ".toList ++ error
      | none => stdin.mapError fun error =>
          "error: cannot read standard input: ".toList ++ error
    match input with
    | .error message => ⟨[], [message], 2⟩
    | .ok text =>
      let output := d.run text
      let summary := "decoded ".toList ++ decimal output.decoded ++ " event(s), ".toList ++
        decimal output.errors ++ " error(s)".toList
      ⟨printed output.stdout, output.stderr ++ [summary], if output.errors > 0 then 1 else 0⟩

/-! ## What a line contributes -/

namespace Decoder

variable (d : Decoder)

/-- A trimmed line without octets: blank, or a comment. -/
def Skipped (text : List Char) : Prop := text = [] ∨ text.head? = some '#'

instance (text : List Char) : Decidable (Skipped text) := inferInstanceAs (Decidable (_ ∨ _))

def framesOf (text : List Char) : List d.Frame :=
  if Skipped text then []
  else ((decodeHex text).map d.stream).getD [] |>.filterMap Except.toOption

def faultOf (text : List Char) : Option (List Char) :=
  if Skipped text then none
  else
    match decodeHex text with
    | none => some "invalid hex".toList
    | some bytes => (d.stream bytes).findSome? fun result =>
        match result with
        | .ok _ => none
        | .error error => some (d.display error)

def frames (line : List Char) : List d.Frame := d.framesOf (trim line)

def events (line : List Char) : List (List Char) := (d.frames line).filterMap d.eventLine

def fault (line : List Char) : Option (List Char) := d.faultOf (trim line)

def contribute (output : Output) (numbered : List Char × ℕ) : Output where
  stdout := output.stdout ++ d.events numbered.1
  stderr := output.stderr ++ ((d.fault numbered.1).map (complaint numbered.2)).toList
  decoded := output.decoded + (d.events numbered.1).length
  errors := output.errors + ((d.fault numbered.1).toList).length

theorem exists_isOutput (bytes : List U8) :
    ∃ frames failure, IsOutput (d.stream bytes) frames failure := by
  obtain ⟨chunks, frames, tail, failure, -, output, -⟩ :=
    (streamOf_laws d.incremental d.progress).covers bytes _ (d.streamOf_eq bytes)
  exact ⟨frames, failure, output⟩

theorem filterMap_isOutput {results : List (Except d.Error d.Frame)} {frames : List d.Frame}
    {failure : Option d.Error} (output : IsOutput results frames failure) :
    results.filterMap Except.toOption = frames := by
  rw [output, List.filterMap_append, List.filterMap_map, List.filterMap_map]
  have good : Except.toOption ∘ (Except.ok : d.Frame → Except d.Error d.Frame) = some := rfl
  have bad : Except.toOption ∘ (Except.error : d.Error → Except d.Error d.Frame) =
      fun _ => none := rfl
  rw [good, bad, List.filterMap_some, List.filterMap_none, List.append_nil]

theorem findSome?_isOutput {results : List (Except d.Error d.Frame)} {frames : List d.Frame}
    {failure : Option d.Error} (output : IsOutput results frames failure) :
    (results.findSome? fun result =>
      match result with
      | .ok _ => none
      | .error error => some (d.display error)) = failure.map d.display := by
  have none_of_frames : (frames.map Except.ok).findSome?
      (fun result : Except d.Error d.Frame =>
        match result with
        | .ok _ => none
        | .error error => some (d.display error)) = none :=
    List.findSome?_eq_none_iff.mpr fun result mem => by
      obtain ⟨frame, -, rfl⟩ := List.mem_map.mp mem
      rfl
  rw [output, List.findSome?_append, none_of_frames, Option.none_or]
  cases failure <;> rfl

theorem foldl_record_frames (number : ℕ) (output : Output) (frames : List d.Frame) :
    (frames.map Except.ok).foldl (Output.record d number) output =
      { output with
        stdout := output.stdout ++ frames.filterMap d.eventLine
        decoded := output.decoded + (frames.filterMap d.eventLine).length } := by
  induction frames generalizing output with
  | nil => simp
  | cons frame frames ih =>
    rw [List.map_cons, List.foldl_cons, ih, Output.record, List.filterMap_cons]
    cases d.eventLine frame with
    | none => rfl
    | some line => simp [Nat.add_assoc, Nat.add_comm 1]

theorem readLine_eq (output : Output) (numbered : List Char × ℕ) :
    output.readLine d numbered = d.contribute output numbered := by
  rw [contribute, events, frames, framesOf, fault, faultOf]
  change (if Skipped (trim numbered.1) then output else _) = _
  by_cases skipped : Skipped (trim numbered.1)
  · rw [if_pos skipped, if_pos skipped, if_pos skipped]
    simp
  · rw [if_neg skipped, if_neg skipped, if_neg skipped]
    cases decodeHex (trim numbered.1) with
    | none => simp [Output.fail]
    | some bytes =>
      obtain ⟨frames, failure, output_eq⟩ := d.exists_isOutput bytes
      simp only [Option.map_some, Option.getD_some]
      rw [d.filterMap_isOutput output_eq, d.findSome?_isOutput output_eq, output_eq,
        List.foldl_append, foldl_record_frames]
      cases failure with
      | none => simp
      | some error => simp [Output.record, Output.fail]

def complaints (numbered : List (List Char × ℕ)) : List (List Char) :=
  numbered.filterMap fun line => (d.fault line.1).map (complaint line.2)

theorem foldl_contribute (numbered : List (List Char × ℕ)) (output : Output) :
    numbered.foldl d.contribute output =
      ⟨output.stdout ++ numbered.flatMap fun line => d.events line.1,
        output.stderr ++ d.complaints numbered,
        output.decoded + (numbered.flatMap fun line => d.events line.1).length,
        output.errors + (d.complaints numbered).length⟩ := by
  induction numbered generalizing output with
  | nil => simp [complaints]
  | cons line numbered ih =>
    rw [List.foldl_cons, ih, contribute, complaints, complaints, List.flatMap_cons,
      List.filterMap_cons]
    cases d.fault line.1 with
    | none => simp [Nat.add_assoc]
    | some text => simp [Nat.add_assoc, Nat.add_comm 1]

theorem run_eq (input : List Char) :
    d.run input =
      ⟨(lines input).flatMap d.events, d.complaints ((lines input).zipIdx 1),
        ((lines input).flatMap d.events).length,
        (d.complaints ((lines input).zipIdx 1)).length⟩ := by
  have turn : Output.readLine d = d.contribute := by
    funext output numbered
    exact d.readLine_eq output numbered
  have unnumbered : (((lines input).zipIdx 1).flatMap fun line => d.events line.1) =
      (lines input).flatMap d.events := by
    conv_rhs => rw [← List.zipIdx_map_fst 1 (lines input), List.flatMap_map]
  rw [run, turn, foldl_contribute, unnumbered]
  simp

theorem complaints_length (lines : List (List Char)) (start : ℕ) :
    (d.complaints (lines.zipIdx start)).length = (lines.filterMap d.fault).length := by
  induction lines generalizing start with
  | nil => rfl
  | cons line lines ih =>
    have later := ih (start + 1)
    rw [complaints] at later
    rw [complaints, List.zipIdx_cons, List.filterMap_cons, List.filterMap_cons]
    cases d.fault line with
    | none => exact later
    | some text => exact congrArg (· + 1) later

/-! ## Documents -/

theorem decodeHex_comment {line : List Char} (comment : line.head? = some '#')
    {octets : List U8} : decodeHex line ≠ some octets := by
  obtain ⟨rest, rfl⟩ := List.head?_eq_some_iff.mp comment
  intro read
  have spells := decodeHex_eq_some_iff.mp read
  rw [utf8, List.flatMap_cons, show Utf8Lossy.encodeChar '#' = [0x23#8] by decide,
    List.singleton_append, List.filter_cons_of_pos (by decide)] at spells
  obtain ⟨upper, nibble, small, same⟩ := spells.digit_of_mem List.mem_cons_self
  have digit_read := hexNibble_digit upper small
  rw [← same] at digit_read
  exact absurd digit_read (by simp [hexNibble])

theorem exists_parse_of_mem {line : List Char} {frame : d.Frame} (mem : frame ∈ d.frames line) :
    ∃ bytes n, d.parse bytes = .ok (frame, n) := by
  rw [Decoder.frames, framesOf] at mem
  split at mem
  · exact nomatch mem
  · cases spelled : decodeHex (trim line) with
    | none =>
      rw [spelled] at mem
      exact nomatch mem
    | some bytes =>
      rw [spelled, Option.map_some, Option.getD_some] at mem
      obtain ⟨chunks, frames, tail, failure, -, output, each, -⟩ :=
        (streamOf_laws d.incremental d.progress).covers bytes _ (d.streamOf_eq bytes)
      rw [d.filterMap_isOutput output] at mem
      obtain ⟨same, parsed⟩ := List.forall₂_iff_get.mp each
      obtain ⟨i, small, rfl⟩ := List.mem_iff_getElem.mp mem
      exact ⟨_, _, parsed i (by omega) small⟩

/-- A line that spells whole frames contributes these frames and no complaint. -/
theorem frames_of_spelled {line : List Char} {chunks : List (List U8)} {frames : List d.Frame}
    (spelled : decodeHex (trim line) = some chunks.flatten)
    (each : List.Forall₂ (fun chunk frame => d.parse chunk = .ok (frame, chunk.length))
      chunks frames) : d.frames line = frames ∧ d.fault line = none := by
  have whole := streamOf_flatten d.incremental d.progress each
  rw [d.streamOf_eq, Option.some.injEq] at whole
  have output : IsOutput (d.stream chunks.flatten) frames none := by
    rw [IsOutput, whole, Option.toList_none, List.map_nil, List.append_nil]
  rw [Decoder.frames, framesOf, fault, faultOf]
  by_cases skipped : Skipped (trim line)
  · -- Such a line is blank, so that there is no chunk.
    have blank : trim line = [] :=
      skipped.resolve_right fun comment => decodeHex_comment comment spelled
    rw [blank] at spelled
    have none_left : chunks.flatten = [] := (Option.some.inj spelled).symm
    rw [none_left] at output
    have no_frames : frames = [] := by
      rw [← d.filterMap_isOutput output]
      rfl
    rw [if_pos skipped, if_pos skipped]
    exact ⟨no_frames.symm, rfl⟩
  · rw [if_neg skipped, if_neg skipped, spelled]
    simp only [Option.map_some, Option.getD_some]
    exact ⟨d.filterMap_isOutput output, d.findSome?_isOutput output⟩

/-- The command line has this text to decode, that of the file or that of the standard input. -/
structure Given (readFile : List Char → Except (List Char) (List Char))
    (stdin : Except (List Char) (List Char)) (args : List (List Char)) (text : List Char) : Prop where
  no_help : ∀ arg ∈ args, arg ≠ "--help".toList ∧ arg ≠ "-h".toList
  read : (match args.head? with
    | some path => readFile path
    | none => stdin) = .ok text

variable {readFile : List Char → Except (List Char) (List Char)}
  {stdin : Except (List Char) (List Char)} {args : List (List Char)} {text : List Char}

theorem main_given (given : Given readFile stdin args text) :
    d.main readFile stdin args =
      ⟨printed (d.run text).stdout, (d.run text).stderr ++
        ["decoded ".toList ++ decimal (d.run text).decoded ++ " event(s), ".toList ++
          decimal (d.run text).errors ++ " error(s)".toList],
        if (d.run text).errors > 0 then 1 else 0⟩ := by
  have decodes : ¬ (args.any fun arg => arg = "--help".toList ∨ arg = "-h".toList) = true := by
    rw [List.any_eq_true]
    rintro ⟨arg, mem, help⟩
    obtain ⟨long, short⟩ := given.no_help arg mem
    exact (of_decide_eq_true help).elim long short
  have read := given.read
  rw [main, if_neg decodes]
  cases first : args.head? with
  | none =>
    simp only [first] at read
    rw [read]
    rfl
  | some path =>
    simp only [first] at read
    dsimp only
    rw [read]
    rfl

theorem main_lines (given : Given readFile stdin args text) :
    ∃ stderr, stderr.length = ((lines text).filterMap d.fault).length + 1 ∧
      d.main readFile stdin args =
        ⟨printed ((lines text).flatMap d.events), stderr,
          if ∀ line ∈ lines text, d.fault line = none then 0 else 1⟩ := by
  have count := d.complaints_length (lines text) 1
  have none_at_fault : (∀ line ∈ lines text, d.fault line = none) ↔
      ((lines text).filterMap d.fault).length = 0 := by
    rw [List.length_eq_zero_iff, List.filterMap_eq_nil_iff]
  have code : (if ((lines text).filterMap d.fault).length > 0 then 1 else 0) =
      if ∀ line ∈ lines text, d.fault line = none then 0 else 1 := by
    by_cases clean : ∀ line ∈ lines text, d.fault line = none
    · rw [if_pos clean, none_at_fault.mp clean, if_neg (by omega)]
    · rw [if_neg clean, if_pos (Nat.pos_of_ne_zero (mt none_at_fault.mpr clean))]
  rw [d.main_given given, run_eq, ← code]
  refine ⟨_, ?_, by rw [count]⟩
  rw [List.length_append, count, List.length_singleton]

/-- The lines of a text are decoded apart: the output has the events of every line in order,
whatever is wrong with other lines; each line at fault costs one complaint, and the process succeeds
exactly when no line is at fault. -/
theorem main_document (given : Given readFile stdin args text) :
    ∃ stderr code, d.main readFile stdin args =
        ⟨printed ((lines text).flatMap d.events), stderr, code⟩ ∧
      (code = 0 ∨ code = 1) ∧ (code = 0 ↔ ∀ line ∈ lines text, d.fault line = none) ∧
      stderr.length = ((lines text).filterMap d.fault).length + 1 := by
  obtain ⟨stderr, count, ran⟩ := d.main_lines given
  refine ⟨stderr, _, ran, ?_, ?_, count⟩
  · split
    · exact .inl rfl
    · exact .inr rfl
  · split <;> simp_all

def operateText : List Char :=
  "# Direct Operate\r\n05641044010003001e25c0c0050c01170000000003f19c\n0564zz".toList

def framesHex (text : List Char) (path : List Char) : Except (List Char) (List Char) :=
  if path = "frames.hex".toList then .ok text
  else .error "No such file or directory (os error 2)".toList

theorem given_framesHex (text : List Char) :
    Given (framesHex text) (.ok []) ["frames.hex".toList] text where
  no_help := by decide
  read := if_pos rfl

theorem main_document_operate :
    ∃ stderr code, dnp3.main (framesHex operateText) (.ok []) ["frames.hex".toList] =
        ⟨printed ((lines operateText).flatMap dnp3.events), stderr, code⟩ ∧
      (code = 0 ∨ code = 1) ∧ (code = 0 ↔ ∀ line ∈ lines operateText, dnp3.fault line = none) ∧
      stderr.length = ((lines operateText).filterMap dnp3.fault).length + 1 :=
  main_document dnp3 (given_framesHex operateText)

example : (dnp3.main (fun _ => .error []) (.ok operateText) []).code = 1 ∧
    ((lines operateText).map fun line => (dnp3.events line).length) = [0, 1, 0] := by
  decide +kernel

end Decoder

end OtDetection.DecoderCli
