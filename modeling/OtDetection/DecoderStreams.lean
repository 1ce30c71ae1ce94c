import OtDetection.CheckedDnp3
import OtDetection.CheckedS7comm
import OtDetection.CheckedOpcua

/-! The three decoders. Each one is `framed` with its own header and body, so what a caller with a
growing buffer relies on, and what it gets from decoding frame after frame, is the same for all
three. No input panics one: the run of each crate succeeds with every operation checked, and yields
what its plain definitions yield. Building JSON text only formats and joins, so `toJson` is the same
function on both sides. -/

namespace OtDetection.DecoderStreams
open Octets LengthFraming

/-- A reader that waits for what `Incomplete` asks for never waits too long. -/
theorem decoders_incremental :
    Incremental Dnp3Link.LinkError.needed Dnp3Link.parseFrame ∧
    Incremental S7comm.ParseError.needed S7comm.parseFrame ∧
    Incremental OpcuaMessage.ParseError.needed OpcuaMessage.parseFrame :=
  ⟨Dnp3Link.incremental, S7comm.incremental, OpcuaMessage.incremental⟩

/-- No decoder loses, duplicates or invents a frame of its stream. -/
theorem decoders_streamLaws :
    StreamLaws Dnp3Link.parseFrame Dnp3Application.parseStream ∧
    StreamLaws S7comm.parseFrame S7comm.parseStream ∧
    StreamLaws OpcuaMessage.parseFrame OpcuaMessage.parseStream :=
  ⟨streamOf_laws Dnp3Link.incremental Dnp3Link.progress,
    streamOf_laws S7comm.incremental S7comm.progress,
    streamOf_laws OpcuaMessage.incremental OpcuaMessage.progress⟩

example : (S7comm.parseStream [0x03, 0x00, 0x00, 0x07, 0x02, 0xF0, 0x80,
      0x03, 0x00, 0x00, 0x07, 0x02, 0xE0, 0x00, 0x03, 0x00]) =
    some [.ok ⟨7, 0xF0, none⟩, .ok ⟨7, 0xE0, none⟩, .error (.tpkt (.incomplete 4))] := by
  decide

/-- A slice length fits a machine word, and a machine word has at least 32 bits. -/
theorem decoders_never_panic (maxUsize : ℕ) (word : 2 ^ 32 ≤ maxUsize + 1) (bytes : List U8)
    (fits : bytes.length ≤ maxUsize) :
    (∃ frames, Dnp3Application.parseStream bytes = some frames ∧
      CheckedDnp3.inspect maxUsize bytes = .ok (frames.map CheckedDnp3.report)) ∧
    (∃ frames, S7comm.parseStream bytes = some frames ∧
      CheckedS7comm.inspect maxUsize bytes = .ok (frames.map (Except.map fun frame =>
        (S7comm.event frame, (S7comm.event frame).map S7comm.Event.toJson)))) ∧
    ∃ frames, OpcuaMessage.parseStream bytes = some frames ∧
      CheckedOpcua.inspect maxUsize bytes = .ok (frames.map (Except.map fun frame =>
        (OpcuaEvent.event frame, (OpcuaEvent.event frame).toJson))) :=
  ⟨CheckedDnp3.inspect_eq word fits, CheckedS7comm.inspect_eq word fits,
    CheckedOpcua.inspect_eq word fits⟩

theorem decoders_never_panic_indicator :
    (∃ frames, Dnp3Application.parseStream [0x03, 0x00, 0x00, 0x07, 0xFF, 0xF0, 0x80] =
        some frames ∧
      CheckedDnp3.inspect 4294967295 [0x03, 0x00, 0x00, 0x07, 0xFF, 0xF0, 0x80] =
        .ok (frames.map CheckedDnp3.report)) ∧
    (∃ frames, S7comm.parseStream [0x03, 0x00, 0x00, 0x07, 0xFF, 0xF0, 0x80] = some frames ∧
      CheckedS7comm.inspect 4294967295 [0x03, 0x00, 0x00, 0x07, 0xFF, 0xF0, 0x80] =
        .ok (frames.map (Except.map fun frame =>
          (S7comm.event frame, (S7comm.event frame).map S7comm.Event.toJson)))) ∧
    ∃ frames, OpcuaMessage.parseStream [0x03, 0x00, 0x00, 0x07, 0xFF, 0xF0, 0x80] = some frames ∧
      CheckedOpcua.inspect 4294967295 [0x03, 0x00, 0x00, 0x07, 0xFF, 0xF0, 0x80] =
        .ok (frames.map (Except.map fun frame =>
          (OpcuaEvent.event frame, (OpcuaEvent.event frame).toJson))) :=
  decoders_never_panic 4294967295 (by decide) [0x03, 0x00, 0x00, 0x07, 0xFF, 0xF0, 0x80]
    (by decide)

end OtDetection.DecoderStreams
