/-
Driver-to-daemon events: `protocol/DriverEvent.cpp`.

Sequence numbers and generations are counters that nothing in the modelled code lets wrap, so in an event they are natural
numbers. On the wire they have their widths, and the type is a number that may be none of the known ones: `DriverEventRecord`
is the struct the codec works on, and `DriverEvent.record` is how an event is put into it.

Results:
  · encodeDriverEvent_record : every event can be encoded
  · decodeDriverEvent_encode : and is decoded as it was encoded
-/
import ViperFx.Protocol.Wire

namespace ViperFx.Protocol

inductive DriverEventType where
  | driverHello
  | contextCreated
  | contextConfigured
  | contextEnabled
  | contextDisabled
  | contextReleased
  | resourceGenerationChanged
  | telemetry
  | rescanResponse
  | snapshotAppliedAck
  | snapshotAppliedNack
  deriving DecidableEq

structure DriverEvent where
  type : DriverEventType := .driverHello
  bootId : ℕ := 0
  eventSequence : ℕ := 0
  contextInstanceId : ℕ := 0
  audioSessionId : ℕ := 0
  ioId : ℕ := 0
  sampleRate : ℕ := 0
  channelMask : ℕ := 0
  enabled : Bool := false
  sessionGeneration : ℕ := 0
  resourceGeneration : ℕ := 0
  graphGeneration : ℕ := 0
  bypassReason : ℕ := 0
  deriving DecidableEq

/-! ## Codec -/

def kDriverEventWireSize : ℕ := 72

def DriverEventType.value : DriverEventType → UInt16
  | .driverHello => 1
  | .contextCreated => 2
  | .contextConfigured => 3
  | .contextEnabled => 4
  | .contextDisabled => 5
  | .contextReleased => 6
  | .resourceGenerationChanged => 7
  | .telemetry => 8
  | .rescanResponse => 9
  | .snapshotAppliedAck => 10
  | .snapshotAppliedNack => 11

def isKnownDriverEventType (value : UInt16) : Bool :=
  DriverEventType.driverHello.value ≤ value && value ≤ DriverEventType.snapshotAppliedNack.value

structure DriverEventRecord where
  type : UInt16 := DriverEventType.driverHello.value
  bootId : UInt64 := 0
  eventSequence : UInt64 := 0
  contextInstanceId : UInt64 := 0
  audioSessionId : UInt32 := 0
  ioId : UInt32 := 0
  sampleRate : UInt32 := 0
  channelMask : UInt32 := 0
  enabled : Bool := false
  sessionGeneration : UInt64 := 0
  resourceGeneration : UInt64 := 0
  graphGeneration : UInt64 := 0
  bypassReason : UInt32 := 0
  deriving DecidableEq

/-- an event with each number narrowed to its width -/
def DriverEvent.record (e : DriverEvent) : DriverEventRecord :=
  ⟨e.type.value, UInt64.ofNat e.bootId, UInt64.ofNat e.eventSequence, UInt64.ofNat e.contextInstanceId,
    UInt32.ofNat e.audioSessionId, UInt32.ofNat e.ioId, UInt32.ofNat e.sampleRate, UInt32.ofNat e.channelMask, e.enabled,
    UInt64.ofNat e.sessionGeneration, UInt64.ofNat e.resourceGeneration, UInt64.ofNat e.graphGeneration,
    UInt32.ofNat e.bypassReason⟩

def driverEventBytes (e : DriverEventRecord) : Bytes :=
  putU16 e.type ++ (putFlag e.enabled ++ (putU64 e.bootId ++ (putU64 e.eventSequence ++ (putU64 e.contextInstanceId
    ++ (putU32 e.audioSessionId ++ (putU32 e.ioId ++ (putU32 e.sampleRate ++ (putU32 e.channelMask
    ++ (putU64 e.sessionGeneration ++ (putU64 e.resourceGeneration ++ (putU64 e.graphGeneration
    ++ putU32 e.bypassReason)))))))))))

def encodeDriverEvent (e : DriverEventRecord) : Except String Bytes :=
  if isKnownDriverEventType e.type = false then .error "unknown driver event type" else .ok (driverEventBytes e)

def readDriverEvent : Reader DriverEventRecord := do
  let type ← readU16
  refuseIf (isKnownDriverEventType type = false) "unknown driver event type"
  let enabled ← readU16
  let bootId ← readU64
  let eventSequence ← readU64
  let contextInstanceId ← readU64
  let audioSessionId ← readU32
  let ioId ← readU32
  let sampleRate ← readU32
  let channelMask ← readU32
  let sessionGeneration ← readU64
  let resourceGeneration ← readU64
  let graphGeneration ← readU64
  let bypassReason ← readU32
  pure ⟨type, bootId, eventSequence, contextInstanceId, audioSessionId, ioId, sampleRate, channelMask, enabled != 0,
    sessionGeneration, resourceGeneration, graphGeneration, bypassReason⟩

def decodeDriverEvent (bytes : Bytes) : Except String DriverEventRecord :=
  if bytes.length ≠ kDriverEventWireSize then .error "driver event size mismatch"
  else Prod.fst <$> readDriverEvent bytes

theorem encodeDriverEvent_iff {e : DriverEventRecord} {out : Bytes} :
    encodeDriverEvent e = .ok out ↔ isKnownDriverEventType e.type = true ∧ out = driverEventBytes e := by
  simp only [encodeDriverEvent, guard_iff, Bool.not_eq_false, Except.ok.injEq]
  exact and_congr_right fun _ => eq_comm

theorem encodeDriverEvent_record (e : DriverEvent) : encodeDriverEvent e.record = .ok (driverEventBytes e.record) := by
  refine encodeDriverEvent_iff.mpr ⟨?_, rfl⟩
  show isKnownDriverEventType e.type.value = true
  cases e.type <;> rfl

/-- **Event round trip.** -/
theorem decodeDriverEvent_encode {e : DriverEventRecord} {out : Bytes} (h : encodeDriverEvent e = .ok out) :
    decodeDriverEvent out = .ok e := by
  obtain ⟨hknown, rfl⟩ := encodeDriverEvent_iff.mp h
  simp only [decodeDriverEvent, guard_iff, fst_iff, readDriverEvent, bind_iff, readU16_iff, readU32_iff, readU64_iff,
    refuseIf_iff, pure_iff, ne_eq, not_not, Bool.not_eq_false]
  refine ⟨rfl, [], _, _, rfl, (), _, ⟨hknown, rfl⟩, _, _, rfl, _, _, rfl, _, _, rfl, _, _, rfl, _, _, rfl, _, _, rfl, _, _, rfl,
    _, _, rfl, _, _, rfl, _, _, rfl, _, _, rfl, _, _, (List.append_nil _).symm, ?_, rfl⟩
  rw [flag_ne_zero]

theorem decodeDriverEvent_known {e : DriverEventRecord} {bytes : Bytes} (h : decodeDriverEvent bytes = .ok e) :
    isKnownDriverEventType e.type = true := by
  simp only [decodeDriverEvent, guard_iff, fst_iff, readDriverEvent, bind_iff, refuseIf_iff, pure_iff, ne_eq, not_not,
    Bool.not_eq_false] at h
  obtain ⟨-, rest, type, s, -, -, s, ⟨hknown, -⟩, _, s, -, _, s, -, _, s, -, _, s, -, _, s, -, _, s, -, _, s, -, _, s, -, _, s, -,
    _, s, -, _, s, -, _, s, -, rfl, -⟩ := h
  exact hknown

end ViperFx.Protocol
