/-
The streaming resampler of the IEM engine: `IEMDSP/src/StreamingResampler.cpp`.

Output frame `j` is the filter of phase `j * in % out` over the 64 input frames around `j * in / out`, and it is made as soon as the
last of them has arrived. What has been made of an input does not depend on how it was split (`resample`); `Tracks` is what the
ring has of the input after some blocks, and a block keeps it as long as the output has room for all that can be made.

A frame is one sample of each channel. Sums, products and rounding are those of `SampleOps`, in the order of the source; counters
do not wrap, except that the numerator of the next frame is checked as in the source.

Results:
  · lt_outputFrames_iff : which frames an input of some length gives
  · resample_append     : the frames of a longer input go on from those of its beginning
  · room_for_block      : the room for the output of a call is enough
  · Tracks.process      : a block gives the frames that are new
  · resampler_reference : a resampler gives what its definition says, however the input is split
-/
import ViperFx.Core.Ring
import ViperFx.Core.Stream
import ViperFx.Iem.AlignedPlanarBuffer

namespace ViperFx.Iem

open ViperFx.Core

namespace StreamingResampler

def kTapCount : ℕ := 64
def kPhaseCount : ℕ := 1024
def kLeftTaps : ℕ := 31
def kRightTaps : ℕ := 32

end StreamingResampler

open StreamingResampler

/-- what is done with samples: sums in double precision of products with the coefficients, and the rounding of a sum -/
structure SampleOps (X : Type) where
  Coefficient : Type
  Sum : Type
  isFinite : X → Bool
  /-- the coefficients of every phase have a sum that they can be normalized by -/
  builds : (inputRate outputRate : ℕ) → Bool
  coefficient : (inputRate outputRate phase tap : ℕ) → Coefficient
  zero : Sum
  addProduct : Sum → X → Coefficient → Sum
  /-- a sum as a sample, subnormal ones flushed to zero -/
  toSample : Sum → X

/-- what is done with frames: the finite check, and the filter from one rate to another at a phase -/
structure FrameOps (S : Type) where
  isFinite : S → Bool
  builds : (inputRate outputRate : ℕ) → Bool
  filter : (inputRate outputRate phase : ℕ) → (Fin kTapCount → S) → S

/-- the loop over the taps -/
def SampleOps.dotProduct {X : Type} (ops : SampleOps X) (inputRate outputRate phase : ℕ) (taps : Fin kTapCount → X) : X :=
  ops.toSample ((List.finRange kTapCount).foldl
    (fun sum tap => ops.addProduct sum (taps tap) (ops.coefficient inputRate outputRate phase tap)) ops.zero)

/-- the same for every channel of a frame -/
def SampleOps.frameOps {X : Type} (ops : SampleOps X) (channels : ℕ) : FrameOps (Fin channels → X) where
  isFinite := fun frame => (List.finRange channels).all fun channel => ops.isFinite (frame channel)
  builds := ops.builds
  filter := fun inputRate outputRate phase taps channel =>
    ops.dotProduct inputRate outputRate phase fun tap => taps tap channel

structure ResamplerConfig where
  inputRate : ℕ
  outputRate : ℕ
  maxInputFrames : ℕ
  deriving DecidableEq

def ResamplerConfig.ringCapacity (config : ResamplerConfig) : ℕ := config.maxInputFrames + kTapCount * 2

structure StreamingResampler (S : Type) where
  config : ResamplerConfig
  inputRing : ℕ → S
  ringStartSlot : ℕ := 0
  ringCount : ℕ := 0
  ringStartIndex : ℕ := 0
  totalInputFrames : ℕ := 0
  nextSourceNumerator : ℕ := 0
  failed : Bool := false

namespace StreamingResampler

variable {S : Type} [Zero S]

/-! ## The code -/

/-- `Prepare` for a number of channels -/
def prepare (memalign : ℕ → Bool) (ops : FrameOps S) (channels : ℕ) (config : ResamplerConfig) :
    Option (StreamingResampler S) :=
  if config.inputRate = 0 ∨ config.outputRate = 0 ∨ channels = 0 ∨ AlignedPlanarBuffer.kMaxChannels < channels
      ∨ config.maxInputFrames = 0 then none
  else if 2 ^ 64 - 1 - kTapCount * 2 < config.maxInputFrames then none
  else if !AlignedPlanarBuffer.prepares memalign channels config.ringCapacity then none
  else if !memalign (kPhaseCount * kTapCount * 4) then none
  else if !ops.builds config.inputRate config.outputRate then none
  else some { config, inputRing := fun _ => 0 }

def maxOutputFrames (config : ResamplerConfig) (inputFrames : ℕ) : ℕ :=
  if config.inputRate = 0 ∨ config.outputRate = 0 then 0
  else if 2 ^ 64 - 1 - kTapCount * 2 < inputFrames then 2 ^ 64 - 1
  else
    let available := inputFrames + kTapCount * 2
    if (2 ^ 64 - 1) / config.outputRate < available then 2 ^ 64 - 1
    else (available * config.outputRate / config.inputRate + 2) % 2 ^ 64

def inputSample (r : StreamingResampler S) (absoluteIndex : ℤ) : S :=
  if absoluteIndex < 0 then 0
  else
    let index := absoluteIndex.toNat
    if index < r.ringStartIndex ∨ r.ringStartIndex + r.ringCount ≤ index then 0
    else r.inputRing ((r.ringStartSlot + (index - r.ringStartIndex)) % r.config.ringCapacity)

def discardConsumedInput (r : StreamingResampler S) : StreamingResampler S :=
  if r.config.outputRate = 0 ∨ r.ringCount = 0 then r
  else
    let nextCenter := r.nextSourceNumerator / r.config.outputRate
    let keepFrom := if kLeftTaps + 1 < nextCenter then nextCenter - (kLeftTaps + 1) else 0
    if keepFrom ≤ r.ringStartIndex then r
    else
      let discard := min (keepFrom - r.ringStartIndex) r.ringCount
      { r with
        ringStartSlot := (r.ringStartSlot + discard) % r.config.ringCapacity
        ringStartIndex := r.ringStartIndex + discard
        ringCount := r.ringCount - discard }

variable (ops : FrameOps S)

/-- the frame at the next source position -/
def outputSample (r : StreamingResampler S) : S :=
  let centerIndex := r.nextSourceNumerator / r.config.outputRate
  let remainder := r.nextSourceNumerator % r.config.outputRate
  let phase := remainder * kPhaseCount / r.config.outputRate
  ops.filter r.config.inputRate r.config.outputRate phase fun tap => r.inputSample (centerIndex + tap - kLeftTaps)

/-- the loop over the output, which has room for some more frames -/
def produce (r : StreamingResampler S) : ℕ → StreamingResampler S × List S
  | 0 => (r, [])
  | room + 1 =>
    let centerIndex := r.nextSourceNumerator / r.config.outputRate
    if 2 ^ 64 - 1 - kRightTaps < centerIndex then (r, [])
    else if r.totalInputFrames ≤ centerIndex + kRightTaps then (r, [])
    else
      let sample := r.outputSample ops
      if 2 ^ 64 - 1 - r.config.inputRate < r.nextSourceNumerator then ({ r with failed := true }, [sample])
      else
        let rest := produce { r with nextSourceNumerator := r.nextSourceNumerator + r.config.inputRate } room
        (rest.1, sample :: rest.2)

def process (r : StreamingResampler S) (input : List S) (outputCapacity : ℕ) : StreamingResampler S × List S :=
  if r.failed ∨ r.config.maxInputFrames < input.length ∨ ¬ input.all ops.isFinite then ({ r with failed := true }, [])
  else
    let r := r.discardConsumedInput
    if r.config.ringCapacity - r.ringCount < input.length then ({ r with failed := true }, [])
    else
      let r :=
        { r with
          inputRing := Ring.writeAround r.inputRing r.config.ringCapacity (r.ringStartSlot + r.ringCount) input
          ringCount := r.ringCount + input.length
          totalInputFrames := r.totalInputFrames + input.length }
      let made := r.produce ops outputCapacity
      if made.1.failed then made else (made.1.discardConsumedInput, made.2)

def reset (r : StreamingResampler S) : StreamingResampler S := { config := r.config, inputRing := fun _ => 0 }

/-! ## The frames of an input -/

/-- the number of frames that an input of some length gives -/
def outputFrames (config : ResamplerConfig) (total : ℕ) : ℕ :=
  ((total - kRightTaps) * config.outputRate + config.inputRate - 1) / config.inputRate

/-- frame `j` of an input -/
def resampled (config : ResamplerConfig) (input : List S) (j : ℕ) : S :=
  ops.filter config.inputRate config.outputRate (j * config.inputRate % config.outputRate * kPhaseCount / config.outputRate)
    fun tap => signal id input (↑(j * config.inputRate / config.outputRate) + tap - kLeftTaps)

def resample (config : ResamplerConfig) (input : List S) : List S :=
  (List.range (outputFrames config input.length)).map (resampled ops config input)

variable {ops} {config : ResamplerConfig}

/-- rates that can be prepared -/
structure Rates (config : ResamplerConfig) : Prop where
  input : 0 < config.inputRate
  output : 0 < config.outputRate

/-- a frame is made when the last of its taps has arrived -/
theorem lt_outputFrames_iff (hrates : Rates config) (total j : ℕ) :
    j < outputFrames config total ↔ j * config.inputRate / config.outputRate + kRightTaps < total := by
  have hin := hrates.input
  unfold outputFrames
  rw [← Nat.lt_sub_iff_add_lt, Nat.div_lt_iff_lt_mul hrates.output, ← Nat.succ_le_iff, Nat.le_div_iff_mul_le hin,
    Nat.succ_mul]
  omega

theorem outputFrames_zero (hrates : Rates config) : outputFrames config 0 = 0 := by
  have hin := hrates.input
  unfold outputFrames
  rw [Nat.zero_sub, Nat.zero_mul, Nat.zero_add]
  exact Nat.div_eq_of_lt (by omega)

theorem outputFrames_mono (config : ResamplerConfig) {total total' : ℕ} (hle : total ≤ total') :
    outputFrames config total ≤ outputFrames config total' := by
  unfold outputFrames
  gcongr

theorem resampled_append (input later : List S) {j : ℕ} (hrates : Rates config) (hj : j < outputFrames config input.length) :
    resampled ops config (input ++ later) j = resampled ops config input j := by
  rw [lt_outputFrames_iff hrates] at hj
  unfold resampled
  congr 1
  funext tap
  have htap := tap.isLt
  exact signal_append id input later (by simp only [kTapCount, kRightTaps, kLeftTaps] at *; omega)

/-- the frames of a longer input go on from those of its beginning -/
theorem resample_append (input later : List S) (hrates : Rates config) :
    resample ops config (input ++ later) = resample ops config input ++
      (List.range' (outputFrames config input.length)
        (outputFrames config (input.length + later.length) - outputFrames config input.length)).map
        (resampled ops config (input ++ later)) := by
  have hmono := outputFrames_mono config (Nat.le_add_right input.length later.length)
  unfold resample
  rw [List.length_append, List.range_eq_range', ← Nat.add_sub_cancel' hmono, ← List.range'_append_1, List.map_append,
    Nat.add_sub_cancel' hmono, Nat.zero_add, List.range_eq_range']
  congr 1
  apply List.map_congr_left
  intro j hj
  rw [← List.range_eq_range', List.mem_range] at hj
  exact resampled_append input later hrates hj

/-! ## What a resampler has of its input -/

/-- a resampler after its input so far and the frames made of it -/
structure Tracks (r : StreamingResampler S) (config : ResamplerConfig) (input : List S) (made : ℕ) : Prop where
  prepared : r.config = config
  total : r.totalInputFrames = input.length
  next : r.nextSourceNumerator = made * config.inputRate
  ok : r.failed = false
  held : r.ringStartIndex + r.ringCount = input.length
  kept : r.ringStartIndex ≤ made * config.inputRate / config.outputRate - (kLeftTaps + 1)
  ring : Ring.Holds r.inputRing config.ringCapacity r.ringStartSlot (input.drop r.ringStartIndex)

variable {r : StreamingResampler S} {input : List S} {made : ℕ}

theorem prepare_tracks {memalign : ℕ → Bool} {channels : ℕ} (h : prepare memalign ops channels config = some r) :
    Tracks r config [] 0 := by
  unfold prepare at h
  split_ifs at h
  obtain rfl := Option.some.inj h
  exact ⟨rfl, rfl, (Nat.zero_mul _).symm, rfl, rfl, Nat.zero_le _, Ring.holds_nil _ _ _⟩

/-- the taps of the next frame are in the ring -/
theorem Tracks.inputSample (h : Tracks r config input made) {index : ℤ}
    (hleft : ((made * config.inputRate / config.outputRate : ℕ) : ℤ) - kLeftTaps ≤ index) (hright : index < input.length) :
    r.inputSample index = signal id input index := by
  have hkept := h.kept
  have hheld := h.held
  generalize made * config.inputRate / config.outputRate = center at hleft hkept
  by_cases hneg : index < 0
  · rw [signal_neg id input hneg, StreamingResampler.inputSample, if_pos hneg]
  · simp only [kLeftTaps] at hleft hkept
    have hinside : ¬(index.toNat < r.ringStartIndex ∨ r.ringStartIndex + r.ringCount ≤ index.toNat) := by omega
    have hplace : r.ringStartIndex + (index.toNat - r.ringStartIndex) = index.toNat := by omega
    have hslot := h.ring.at_slot (index.toNat - r.ringStartIndex) (by rw [List.length_drop]; omega)
    rw [List.getElem?_drop, hplace] at hslot
    unfold StreamingResampler.inputSample signal
    dsimp only
    rw [if_neg hneg, if_neg hinside, if_pos (not_lt.mp hneg), hslot, h.prepared]
    rfl

theorem Tracks.outputSample (h : Tracks r config input made) (hrates : Rates config)
    (hmade : made < outputFrames config input.length) : r.outputSample ops = resampled ops config input made := by
  rw [lt_outputFrames_iff hrates] at hmade
  unfold StreamingResampler.outputSample resampled
  dsimp only
  rw [h.prepared, h.next]
  congr 1
  funext tap
  have htap := tap.isLt
  simp only [kTapCount, kRightTaps] at htap hmade
  exact h.inputSample (by omega) (by simp only [kLeftTaps]; omega)

omit [Zero S] in
theorem Tracks.advance (h : Tracks r config input made) :
    Tracks { r with nextSourceNumerator := r.nextSourceNumerator + r.config.inputRate } config input (made + 1) where
  prepared := h.prepared
  total := h.total
  next := by rw [h.next, h.prepared, Nat.succ_mul]
  ok := h.ok
  held := h.held
  kept := by
    refine h.kept.trans ?_
    gcongr
    exact Nat.le_succ made
  ring := h.ring

variable (ops) in
/-- the loop makes all the frames that the input gives, as long as there is room for them -/
theorem Tracks.produce {room : ℕ} (h : Tracks r config input made) (hrates : Rates config)
    (hsmall : input.length * config.outputRate + config.inputRate < 2 ^ 64) (hmade : made ≤ outputFrames config input.length)
    (hroom : outputFrames config input.length ≤ made + room) :
    (r.produce ops room).2 =
        (List.range' made (outputFrames config input.length - made)).map (resampled ops config input) ∧
      Tracks (r.produce ops room).1 config input (outputFrames config input.length) := by
  induction room generalizing r made with
  | zero =>
    obtain rfl : made = outputFrames config input.length := le_antisymm hmade hroom
    rw [Nat.sub_self]
    exact ⟨rfl, h⟩
  | succ room ih =>
    have hnext := lt_outputFrames_iff hrates input.length made
    have hat : r.nextSourceNumerator / r.config.outputRate = made * config.inputRate / config.outputRate := by
      rw [h.next, h.prepared]
    unfold StreamingResampler.produce
    dsimp only
    rcases hmade.eq_or_lt with rfl | hlt
    -- the last frame has been made
    · have hdone : r.totalInputFrames ≤ r.nextSourceNumerator / r.config.outputRate + kRightTaps := by
        rw [hat, h.total]
        exact not_lt.mp fun hmore => lt_irrefl _ (hnext.mpr hmore)
      rw [if_pos hdone, ite_self, Nat.sub_self]
      exact ⟨rfl, h⟩
    · have hmore := hnext.mp hlt
      have hcenter : made * config.inputRate < input.length * config.outputRate :=
        (Nat.div_lt_iff_lt_mul hrates.output).mp (lt_of_le_of_lt (Nat.le_add_right _ _) hmore)
      have hlength : input.length ≤ input.length * config.outputRate := Nat.le_mul_of_pos_right _ hrates.output
      have hindex : ¬ 2 ^ 64 - 1 - kRightTaps < r.nextSourceNumerator / r.config.outputRate := by
        rw [hat]
        generalize made * config.inputRate / config.outputRate = center at hmore
        omega
      have harrived : ¬ r.totalInputFrames ≤ r.nextSourceNumerator / r.config.outputRate + kRightTaps := by
        rw [hat, h.total]
        exact not_le.mpr hmore
      have hnumerator : ¬ 2 ^ 64 - 1 - r.config.inputRate < r.nextSourceNumerator := by
        rw [h.next, h.prepared]
        omega
      rw [if_neg hindex, if_neg harrived, if_neg hnumerator]
      obtain ⟨hout, hrest⟩ := ih h.advance hlt (by omega)
      obtain ⟨count, hcount⟩ : ∃ count, outputFrames config input.length - made = count + 1 :=
        ⟨outputFrames config input.length - made - 1, by omega⟩
      have hcount' : outputFrames config input.length - (made + 1) = count := by omega
      refine ⟨?_, hrest⟩
      rw [hcount, List.range'_succ, List.map_cons, ← hcount', ← hout, h.outputSample hrates hlt]

omit [Zero S] in
/-- of the input before the next frame, 32 frames are kept -/
theorem Tracks.discard (h : Tracks r config input made) (hrates : Rates config) :
    Tracks r.discardConsumedInput config input made ∧
      r.discardConsumedInput.ringStartIndex =
        min (made * config.inputRate / config.outputRate - (kLeftTaps + 1)) input.length := by
  have hkept := h.kept
  have hheld := h.held
  have hzero : config.outputRate ≠ 0 := hrates.output.ne'
  have hfrom : (if kLeftTaps + 1 < r.nextSourceNumerator / r.config.outputRate then
      r.nextSourceNumerator / r.config.outputRate - (kLeftTaps + 1) else 0) =
      made * config.inputRate / config.outputRate - (kLeftTaps + 1) := by
    rw [h.next, h.prepared]
    split_ifs with hlate
    · rfl
    · exact (Nat.sub_eq_zero_of_le (not_lt.mp hlate)).symm
  have hkeep := hkept
  unfold discardConsumedInput
  dsimp only
  rw [hfrom]
  generalize hkeepFrom : made * config.inputRate / config.outputRate - (kLeftTaps + 1) = keepFrom at hkeep
  split_ifs with hempty hnone
  · have hcount : r.ringCount = 0 := hempty.resolve_left (by rw [h.prepared]; exact hzero)
    exact ⟨h, by omega⟩
  · exact ⟨h, by omega⟩
  · have hdrop := h.ring.drop (min (keepFrom - r.ringStartIndex) r.ringCount)
    rw [List.drop_drop] at hdrop
    refine ⟨⟨h.prepared, h.total, h.next, h.ok, ?_, ?_, ?_⟩, ?_⟩
    · show r.ringStartIndex + min (keepFrom - r.ringStartIndex) r.ringCount +
        (r.ringCount - min (keepFrom - r.ringStartIndex) r.ringCount) = input.length
      omega
    · show r.ringStartIndex + min (keepFrom - r.ringStartIndex) r.ringCount ≤ _
      rw [hkeepFrom]
      omega
    · rw [h.prepared]
      exact hdrop
    · show r.ringStartIndex + min (keepFrom - r.ringStartIndex) r.ringCount = _
      omega

variable (ops) in
/-- **A block gives the frames that are new**, as long as there is room for them -/
theorem Tracks.process {block : List S} {capacity : ℕ} (h : Tracks r config input (outputFrames config input.length))
    (hrates : Rates config) (hblock : block.length ≤ config.maxInputFrames) (hfinite : ∀ x ∈ block, ops.isFinite x = true)
    (hsmall : (input.length + block.length) * config.outputRate + config.inputRate < 2 ^ 64)
    (hcapacity : outputFrames config (input.length + block.length) ≤ outputFrames config input.length + capacity) :
    (r.process ops block capacity).2 =
        (List.range' (outputFrames config input.length)
          (outputFrames config (input.length + block.length) - outputFrames config input.length)).map
          (resampled ops config (input ++ block)) ∧
      Tracks (r.process ops block capacity).1 config (input ++ block) (outputFrames config (input.length + block.length)) := by
  obtain ⟨hdiscarded, hstart⟩ := h.discard hrates
  have hheld := hdiscarded.held
  -- what the ring keeps is at most the taps of one frame
  have hcount : r.discardConsumedInput.ringCount ≤ kTapCount := by
    have hdone := (lt_outputFrames_iff hrates input.length (outputFrames config input.length)).not.mp (lt_irrefl _)
    simp only [kTapCount, kLeftTaps, kRightTaps] at hdone hstart ⊢
    generalize outputFrames config input.length * config.inputRate / config.outputRate = center at hdone hstart
    omega
  have haccepted : ¬(r.failed = true ∨ r.config.maxInputFrames < block.length ∨ ¬ block.all ops.isFinite = true) := by
    rw [h.ok, h.prepared, List.all_eq_true]
    simp only [not_or, not_lt, not_not]
    exact ⟨Bool.false_ne_true, hblock, hfinite⟩
  have hroom : ¬ r.discardConsumedInput.config.ringCapacity - r.discardConsumedInput.ringCount < block.length := by
    rw [hdiscarded.prepared, ResamplerConfig.ringCapacity]
    omega
  unfold StreamingResampler.process
  rw [if_neg haccepted]
  dsimp only
  rw [if_neg hroom]
  have hqueue : (input.drop r.discardConsumedInput.ringStartIndex).length = r.discardConsumedInput.ringCount := by
    rw [List.length_drop]
    omega
  have hbehind : (input.drop r.discardConsumedInput.ringStartIndex).length + block.length ≤ config.ringCapacity := by
    rw [hqueue, ResamplerConfig.ringCapacity]
    omega
  have hring := hdiscarded.ring.writeAround hbehind
  rw [hqueue, ← List.drop_append_of_le_length (by omega)] at hring
  have hwritten : Tracks
      { r.discardConsumedInput with
        inputRing := Ring.writeAround r.discardConsumedInput.inputRing r.discardConsumedInput.config.ringCapacity
          (r.discardConsumedInput.ringStartSlot + r.discardConsumedInput.ringCount) block
        ringCount := r.discardConsumedInput.ringCount + block.length
        totalInputFrames := r.discardConsumedInput.totalInputFrames + block.length }
      config (input ++ block) (outputFrames config input.length) :=
    { prepared := hdiscarded.prepared
      total := by rw [hdiscarded.total, List.length_append]
      next := hdiscarded.next
      ok := hdiscarded.ok
      held := by rw [← Nat.add_assoc, hheld, List.length_append]
      kept := hdiscarded.kept
      ring := by rw [hdiscarded.prepared]; exact hring }
  have hmade := outputFrames_mono config (Nat.le_add_right input.length block.length)
  have hroomy : outputFrames config (input ++ block).length ≤ outputFrames config input.length + capacity := by
    rw [List.length_append]
    exact hcapacity
  obtain ⟨hout, hproduced⟩ := hwritten.produce ops hrates (by rw [List.length_append]; exact hsmall)
    (by rw [List.length_append]; exact hmade) hroomy
  rw [List.length_append] at hout hproduced
  rw [if_neg (by rw [hproduced.ok]; exact Bool.false_ne_true)]
  exact ⟨hout, (hproduced.discard hrates).1⟩

/-! ## The room that is left for a block -/

/-- the frames an input gives, against its length -/
theorem outputFrames_mul_ge (hrates : Rates config) (total : ℕ) :
    (total - kRightTaps) * config.outputRate ≤ outputFrames config total * config.inputRate := by
  have hin := hrates.input
  have hdiv := Nat.lt_div_mul_add (a := (total - kRightTaps) * config.outputRate + config.inputRate - 1) hin
  unfold outputFrames
  omega

theorem outputFrames_mul_lt (hrates : Rates config) (total : ℕ) :
    outputFrames config total * config.inputRate < (total - kRightTaps) * config.outputRate + config.inputRate := by
  have hin := hrates.input
  have hdiv := Nat.div_mul_le_self ((total - kRightTaps) * config.outputRate + config.inputRate - 1) config.inputRate
  unfold outputFrames
  omega

theorem outputFrames_add_le (hrates : Rates config) (total more : ℕ) :
    outputFrames config (total + more) ≤ outputFrames config total + (more * config.outputRate / config.inputRate + 1) := by
  have hlt := outputFrames_mul_lt hrates (total + more)
  have hge := outputFrames_mul_ge hrates total
  have hmore : (total + more - kRightTaps) * config.outputRate ≤
      (total - kRightTaps) * config.outputRate + more * config.outputRate := by
    rw [← Nat.add_mul]
    exact Nat.mul_le_mul_right _ (by omega)
  have hdiv := Nat.lt_div_mul_add (a := more * config.outputRate) hrates.input
  have hprod : outputFrames config (total + more) * config.inputRate <
      (outputFrames config total + (more * config.outputRate / config.inputRate + 1) + 1) * config.inputRate := by
    rw [Nat.add_mul, Nat.add_mul, Nat.add_mul, Nat.one_mul]
    omega
  exact Nat.lt_succ_iff.mp (Nat.lt_of_mul_lt_mul_right hprod)

theorem maxOutputFrames_eq (hrates : Rates config) {frames : ℕ}
    (hsmall : (frames + kTapCount * 2) * config.outputRate + 2 < 2 ^ 64) :
    maxOutputFrames config frames = (frames + kTapCount * 2) * config.outputRate / config.inputRate + 2 := by
  have hin := hrates.input
  have hout := hrates.output
  have hle : frames + kTapCount * 2 ≤ (frames + kTapCount * 2) * config.outputRate := Nat.le_mul_of_pos_right _ hout
  have hdiv : frames + kTapCount * 2 ≤ (2 ^ 64 - 1) / config.outputRate := (Nat.le_div_iff_mul_le hout).mpr (by omega)
  have hquotient := Nat.div_le_self ((frames + kTapCount * 2) * config.outputRate) config.inputRate
  unfold maxOutputFrames
  rw [if_neg (by omega), if_neg (by omega)]
  dsimp only
  rw [if_neg (not_lt.mpr hdiv), Nat.mod_eq_of_lt (by omega)]

/-- the room that `MaxOutputFrames` gives is enough for a block -/
theorem room_for_block (hrates : Rates config) {more : ℕ} (hsmall : (more + kTapCount * 2) * config.outputRate + 2 < 2 ^ 64)
    (total : ℕ) : outputFrames config (total + more) ≤ outputFrames config total + maxOutputFrames config more := by
  have hadd := outputFrames_add_le hrates total more
  have hmore : more * config.outputRate / config.inputRate ≤
      (more + kTapCount * 2) * config.outputRate / config.inputRate := by
    gcongr
    exact Nat.le_add_right _ _
  rw [maxOutputFrames_eq hrates hsmall]
  omega

/-! ## Runs -/

section Run

/-- blocks that can be processed one after the other -/
structure Fits (ops : FrameOps S) (config : ResamplerConfig) (blocks : List (List S)) : Prop where
  sizes : ∀ block ∈ blocks, block.length ≤ config.maxInputFrames
  finite : ∀ block ∈ blocks, ∀ frame ∈ block, ops.isFinite frame = true
  total : blocks.flatten.length < 2 ^ 40

/-- a run of blocks with room for what the longest one can give: the resampler after it, and what every block gave -/
def run (ops : FrameOps S) (r : StreamingResampler S) (blocks : List (List S)) : StreamingResampler S × List (List S) :=
  feed (fun r block => r.process ops block (maxOutputFrames r.config r.config.maxInputFrames)) r blocks

/-- what a run gives is the whole input resampled -/
theorem Tracks.run (hrates : Rates config) (hin : config.inputRate ≤ 384000) (hout : config.outputRate ≤ 384000)
    (hmax : config.maxInputFrames + kTapCount * 2 < 2 ^ 45) (h : Tracks r config [] 0) {blocks : List (List S)}
    (hblocks : Fits ops config blocks) :
    (r.run ops blocks).2.flatten = resample ops config blocks.flatten ∧
      Tracks (r.run ops blocks).1 config blocks.flatten (outputFrames config blocks.flatten.length) := by
  induction blocks using List.reverseRecOn with
  | nil =>
    have hnone : outputFrames config ([] : List S).length = 0 := outputFrames_zero hrates
    rw [List.flatten_nil, resample, hnone]
    exact ⟨rfl, h⟩
  | append_singleton blocks block ih =>
    have htotal := hblocks.total
    rw [List.flatten_append, List.flatten_singleton, List.length_append] at htotal
    obtain ⟨hmade, htracks⟩ := ih
      ⟨fun b hb => hblocks.sizes b (List.mem_append_left _ hb), fun b hb => hblocks.finite b (List.mem_append_left _ hb),
        by omega⟩
    have hblock := hblocks.sizes block (List.mem_append_right _ List.mem_cons_self)
    have hrate : (blocks.flatten.length + block.length) * config.outputRate ≤
        (blocks.flatten.length + block.length) * 384000 := Nat.mul_le_mul_left _ hout
    have hlongest : (config.maxInputFrames + kTapCount * 2) * config.outputRate ≤
        (config.maxInputFrames + kTapCount * 2) * 384000 := Nat.mul_le_mul_left _ hout
    have hroom : outputFrames config (blocks.flatten.length + block.length) ≤
        outputFrames config blocks.flatten.length + maxOutputFrames config config.maxInputFrames :=
      (outputFrames_mono config (Nat.add_le_add_left hblock _)).trans (room_for_block hrates (by omega) _)
    obtain ⟨hnew, hnext⟩ := htracks.process ops hrates hblock
      (hblocks.finite block (List.mem_append_right _ List.mem_cons_self)) (by omega) hroom
    rw [StreamingResampler.run, feed_concat, List.flatten_append, List.flatten_singleton, List.flatten_append,
      List.flatten_singleton, resample_append _ _ hrates, ← hmade, List.length_append]
    dsimp only
    rw [← StreamingResampler.run, htracks.prepared, hnew]
    exact ⟨rfl, hnext⟩

theorem signal_channel {X : Type} [Zero X] {channels : ℕ} (input : List (Fin channels → X)) (m : ℤ) (channel : Fin channels) :
    signal id input m channel = signal (fun frame => frame channel) input m := by
  unfold signal
  split_ifs
  · cases input[m.toNat]? with
    | none => rfl
    | some frame => rfl
  · rfl

/-- **A resampler gives what its definition says, however the input is split.** It never fails; frame `k` is the dot product of
its phase with the samples around its center, silent before the first one; and it is there as soon as the last of them is. -/
theorem resampler_reference {X : Type} [Zero X] {memalign : ℕ → Bool}
    (haddress : AlignedPlanarBuffer.FitsAddressSpace memalign) (ops : SampleOps X) {channels : ℕ} {config : ResamplerConfig}
    {r : StreamingResampler (Fin channels → X)}
    (h : prepare memalign (ops.frameOps channels) channels config = some r) (hin : config.inputRate ≤ 384000)
    (hout : config.outputRate ≤ 384000) {blocks : List (List (Fin channels → X))}
    (hblocks : Fits (ops.frameOps channels) config blocks) :
    (r.run (ops.frameOps channels) blocks).1.failed = false ∧
      (r.run (ops.frameOps channels) blocks).2.flatten.length =
        {k : ℕ | k * config.inputRate / config.outputRate + kRightTaps < blocks.flatten.length}.ncard ∧
      ∀ k frame, (r.run (ops.frameOps channels) blocks).2.flatten[k]? = some frame → ∀ channel,
        frame channel = ops.dotProduct config.inputRate config.outputRate
          (k * config.inputRate % config.outputRate * kPhaseCount / config.outputRate) fun tap =>
            signal (fun x => x channel) blocks.flatten (↑(k * config.inputRate / config.outputRate) + tap - kLeftTaps) := by
  obtain ⟨hrates, hmax⟩ : Rates config ∧ config.maxInputFrames + kTapCount * 2 < 2 ^ 45 := by
    unfold prepare at h
    split_ifs at h with hzero hlarge hring
    simp only [not_or] at hzero
    simp only [Bool.not_eq_true', Bool.not_eq_false] at hring
    exact ⟨⟨Nat.pos_of_ne_zero hzero.1, Nat.pos_of_ne_zero hzero.2.1⟩,
      (AlignedPlanarBuffer.prepares_frames haddress hring).2.2⟩
  obtain ⟨hmade, htracks⟩ := (prepare_tracks h).run hrates hin hout hmax hblocks
  have hcount : {k : ℕ | k * config.inputRate / config.outputRate + kRightTaps < blocks.flatten.length} =
      ↑(Finset.range (outputFrames config blocks.flatten.length)) := by
    ext k
    rw [Set.mem_ofPred_eq, Finset.mem_coe, Finset.mem_range, lt_outputFrames_iff hrates]
  refine ⟨htracks.ok, ?_, ?_⟩
  · rw [hmade, hcount, Set.ncard_coe_finset, Finset.card_range, resample, List.length_map, List.length_range]
  · intro k frame hframe channel
    rw [hmade, resample, List.getElem?_map] at hframe
    obtain ⟨j, hj, rfl⟩ := Option.map_eq_some_iff.mp hframe
    obtain ⟨hk, rfl⟩ := List.getElem?_eq_some_iff.mp hj
    rw [List.getElem_range]
    unfold resampled SampleOps.frameOps
    dsimp only
    congr 1
    funext tap
    exact signal_channel _ _ channel

/-- whole samples, with the number of the tap as its coefficient -/
def tapNumbers : SampleOps ℤ where
  Coefficient := ℤ
  Sum := ℤ
  isFinite := fun _ => true
  builds := fun _ _ => true
  coefficient := fun _ _ _ tap => tap
  zero := 0
  addProduct := fun sum x coefficient => sum + x * coefficient
  toSample := id

def sameRate : ResamplerConfig := ⟨48000, 48000, 20⟩

def onesInTwo : List (List (Fin 1 → ℤ)) := [List.replicate 20 fun _ => 1, List.replicate 14 fun _ => 1]

theorem resampler_reference_ones :
    ∃ r : StreamingResampler (Fin 1 → ℤ),
      prepare (fun size => decide (size < 2 ^ 32)) (tapNumbers.frameOps 1) 1 sameRate = some r ∧
      (r.run (tapNumbers.frameOps 1) onesInTwo).1.failed = false ∧
      (r.run (tapNumbers.frameOps 1) onesInTwo).2.flatten.length =
        {k : ℕ | k * 48000 / 48000 + kRightTaps < onesInTwo.flatten.length}.ncard ∧
      ∃ frame, (r.run (tapNumbers.frameOps 1) onesInTwo).2.flatten[1]? = some frame ∧ frame 0 = 1581 ∧
        frame 0 = tapNumbers.dotProduct 48000 48000 (1 * 48000 % 48000 * kPhaseCount / 48000) fun tap =>
          signal (fun x => x 0) onesInTwo.flatten (↑(1 * 48000 / 48000) + tap - kLeftTaps) := by
  have haddress : AlignedPlanarBuffer.FitsAddressSpace fun size => decide (size < 2 ^ 32) := by
    intro size hsize
    exact (of_decide_eq_true hsize).trans (by decide)
  have hprepare : prepare (fun size => decide (size < 2 ^ 32)) (tapNumbers.frameOps 1) 1 sameRate =
      some { config := sameRate, inputRing := fun _ => 0 } := rfl
  have hblocks : Fits (tapNumbers.frameOps 1) sameRate onesInTwo := by
    refine ⟨by decide, ?_, by decide⟩
    intro block _ frame _
    rfl
  obtain ⟨hok, hlength, hframes⟩ :=
    resampler_reference haddress tapNumbers hprepare (by decide) (by decide) hblocks
  have hsecond : ((StreamingResampler.run (tapNumbers.frameOps 1)
      { config := sameRate, inputRing := fun _ => 0 } onesInTwo).2.flatten[1]?).map (fun frame => frame 0) = some 1581 := by
    decide +kernel
  obtain ⟨frame, hframe, hvalue⟩ := Option.map_eq_some_iff.mp hsecond
  exact ⟨_, hprepare, hok, hlength, frame, hframe, hvalue, hframes 1 frame hframe 0⟩

end Run

end StreamingResampler

end ViperFx.Iem
