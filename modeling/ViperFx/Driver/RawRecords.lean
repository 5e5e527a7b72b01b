/-
Raw parameter records, from the wire to the copies the driver makes of them: `protocol/ParameterStream.cpp` and
`DspResources::CaptureRaw`.

CaptureRaw is handed a pointer and `arr_size`, and never the length of what it points at. Here every copy it makes from the
payload is bounded by the payload (`copyFrom`), and a copy that would leave it has no result. The unbounded `captureRaw` is
what is left when no copy does.

Results:
  · captureRawReading_eq     : on a valid record every copy stays inside the payload
  · parameter_stream_exact   : the stream format is one-to-one on what it accepts, and what it accepts is safe to capture
-/
import ViperFx.Driver.ViperContext

namespace ViperFx.Driver

open ViperFx.Protocol

/-- memcpy of `size` bytes from `arr + offset`, where `arr` points at the payload of a record -/
def copyFrom (payload : Bytes) (offset size : ℕ) : Option Bytes :=
  if payload.length < offset + size then none else some ((payload.drop offset).take size)

theorem copyFrom_inside {payload : Bytes} {offset size : ℕ} (h : offset + size ≤ payload.length) :
    copyFrom payload offset size = some ((payload.drop offset).take size) := if_neg (not_lt.mpr h)

namespace DspResources

/-! ## CaptureRaw, copy by copy -/

def setBufferReading (d : DspResources) (r : RawParamRecord) : Option (DspResources × ResourceCaptureResult) :=
  if r.payload.isEmpty ∨ r.arrSize = 0 ∨ d.pendingConvolver.isEmpty then some (d, .invalid)
  else do
    let copySize := min r.arrSize.toNat (d.pendingSamples - d.pendingConvolverSize)
    let front := 4 * d.pendingConvolverSize
    let samples ← copyFrom r.payload 0 (4 * copySize)
    return ({ d with
      pendingConvolver := d.pendingConvolver.take front ++ samples ++ d.pendingConvolver.drop (front + 4 * copySize)
      pendingConvolverSize := d.pendingConvolverSize + copySize }, .updated)

/-- one turn of the loop over the sections: five coefficients of each bank -/
def copySection (payload : Bytes) (size index : ℕ) : Option (Bytes × Bytes) := do
  let low ← copyFrom payload (4 * (5 * index)) 20
  let high ← copyFrom payload (4 * (size + 5 * index)) 20
  return (low, high)

def ddcCoefficientsReading (d : DspResources) (r : RawParamRecord) : Option (DspResources × ResourceCaptureResult) :=
  let size := r.arrSize.toNat
  if r.payload.isEmpty ∨ size < 5 ∨ 80 < size ∨ size % 5 ≠ 0 then some (d, .invalid)
  else do
    let banks ← (List.range (size / 5)).mapM (copySection r.payload size)
    return ({ d with ddc44100 := banks.map Prod.fst, ddc48000 := banks.map Prod.snd }, .committed)

def captureRawReading (ids : ParamIds) (kernelCrc : Bytes → UInt32) (d : DspResources) (r : RawParamRecord) :
    Option (DspResources × ResourceCaptureResult) :=
  if r.param = ids.convolverPrepareBuffer then some (d.prepareBuffer r)
  else if r.param = ids.convolverSetBuffer then d.setBufferReading r
  else if r.param = ids.convolverCommitBuffer then some (d.commitBuffer kernelCrc r)
  else if r.param = ids.ddcCoefficients then d.ddcCoefficientsReading r
  else some (d, .notResource)

/-! ## Inside the payload -/

theorem setBufferReading_eq {d : DspResources} {r : RawParamRecord} (h : r.payload.length = r.arrSize.toNat * 4) :
    d.setBufferReading r = some (d.setBuffer r) := by
  unfold setBufferReading setBuffer
  dsimp only
  split_ifs with hnone
  · rfl
  · have hcopy : 0 + 4 * min r.arrSize.toNat (d.pendingSamples - d.pendingConvolverSize) ≤ r.payload.length := by
      rw [h]
      omega
    rw [copyFrom_inside hcopy]
    rfl

/-- a section of either bank ends where the next one begins, and the last one at the end of the payload -/
theorem copySection_eq {payload : Bytes} {size index : ℕ} (h : payload.length = size * 2 * 4) (hindex : index < size / 5) :
    copySection payload size index
      = some ((payload.drop (4 * (0 + 5 * index))).take 20, (payload.drop (4 * (size + 5 * index))).take 20) := by
  have hend : 5 * index + 5 ≤ size := by omega
  have hlow : 4 * (5 * index) + 20 ≤ payload.length := by omega
  have hhigh : 4 * (size + 5 * index) + 20 ≤ payload.length := by omega
  rw [copySection, copyFrom_inside hlow, copyFrom_inside hhigh, Nat.zero_add]
  rfl

theorem mapM_copySection {payload : Bytes} {size : ℕ} (h : payload.length = size * 2 * 4) (indices : List ℕ)
    (hindices : ∀ index ∈ indices, index < size / 5) :
    indices.mapM (copySection payload size) = some (indices.map fun index =>
      ((payload.drop (4 * (0 + 5 * index))).take 20, (payload.drop (4 * (size + 5 * index))).take 20)) := by
  induction indices with
  | nil => rfl
  | cons index rest ih =>
    obtain ⟨hindex, hrest⟩ := List.forall_mem_cons.mp hindices
    rw [List.mapM_cons, copySection_eq h hindex, ih hrest]
    rfl

theorem ddcCoefficientsReading_eq {d : DspResources} {r : RawParamRecord} (h : r.payload.length = r.arrSize.toNat * 2 * 4) :
    d.ddcCoefficientsReading r = some (d.ddcCoefficients r) := by
  unfold ddcCoefficientsReading ddcCoefficients
  dsimp only
  split_ifs with hnone
  · rfl
  · have hbanks := mapM_copySection h (List.range (r.arrSize.toNat / 5)) fun index => List.mem_range.mp
    rw [hbanks]
    simp only [Option.pure_def, Option.bind_eq_bind, Option.bind_some, List.map_map, sections]
    rfl

theorem captureRawReading_eq {ids : ParamIds} {kernelCrc : Bytes → UInt32} {d : DspResources} {r : RawParamRecord}
    (h : r.payload.length = requiredPayloadBytes ids r.param r.arrSize) :
    d.captureRawReading ids kernelCrc r = some (d.captureRaw ids kernelCrc r) := by
  unfold captureRawReading captureRaw
  split_ifs with hprepare hset hcommit hddc
  · rfl
  · rw [requiredPayloadBytes, if_pos hset] at h
    exact setBufferReading_eq h
  · rfl
  · rw [requiredPayloadBytes, if_neg hset, if_pos hddc] at h
    exact ddcCoefficientsReading_eq h
  · rfl

end DspResources

/-- **The parameter stream is one-to-one on what it accepts**, in both directions, and a record that either side accepts
carries exactly the payload its parameter requires, so that capturing it copies only bytes of that payload, whatever the
resources hold. -/
theorem parameter_stream_exact (ids : ParamIds) :
    (∀ records out, encodeParameterStream ids records = .ok out → decodeParameterStream ids out = .ok records) ∧
    (∀ bytes records, bytes ≠ [] → decodeParameterStream ids bytes = .ok records →
      encodeParameterStream ids records = .ok bytes) ∧
    ∀ records, ((∃ out, encodeParameterStream ids records = .ok out) ∨
        ∃ bytes, decodeParameterStream ids bytes = .ok records) →
      ∀ r ∈ records, r.payload.length = requiredPayloadBytes ids r.param r.arrSize ∧
        ∀ (d : DspResources) kernelCrc, d.captureRawReading ids kernelCrc r = some (d.captureRaw ids kernelCrc r) := by
  refine ⟨fun records out h => ?_, fun bytes records hbytes h => ?_, fun records h r hr => ?_⟩
  · obtain ⟨hstream, rfl⟩ := encodeParameterStream_iff.mp h
    exact (decodeParameterStream_iff (streamBytes_ne_nil records)).mpr ⟨hstream, rfl⟩
  · obtain ⟨hstream, rfl⟩ := (decodeParameterStream_iff hbytes).mp h
    exact encodeParameterStream_iff.mpr ⟨hstream, rfl⟩
  · have hvalid : validateRawParamRecord ids r = .ok () := by
      rcases h with ⟨out, h⟩ | ⟨bytes, h⟩
      · exact (encodeParameterStream_iff.mp h).1.valid r hr
      · by_cases hbytes : bytes = []
        · subst hbytes
          obtain rfl := Except.ok.inj h
          cases hr
        · exact ((decodeParameterStream_iff hbytes).mp h).1.valid r hr
    have hpayload := (validateRawParamRecord_iff.mp hvalid).1
    exact ⟨hpayload, fun d kernelCrc => DspResources.captureRawReading_eq hpayload⟩

end ViperFx.Driver
