/-
The sample stream of the IEM engine: `IEMDSP/src/IemEngine.cpp`, `PrepareBuffers` and `Process`.

A host block goes through the input resampler into a queue; as many blocks of 256 frames as the queue has go through the pipeline,
the output resampler and into the output queue; and as many frames as came in leave the output queue, but for the frames that the
latency of the transport leaves silent. `carried` is the same without blocks: the whole input resampled, through the pipeline, and
resampled back. What has been made of an input is always enough for what must leave by then (`transport_covers`), and never more
than the queues hold.

The pipeline is given with its state; it does not fail, and what it makes is finite, as `IemPipeline::Process` checks at its end.
Telemetry is left out, and so are null pointers.

Results:
  · process_asEngine : the ramp and the gates are those of `IemEngine`
  · transport_covers : what has been made is enough for what must leave
  · Streams.process  : a block moves the stream on
  · streaming_law    : the output is the silence of the transport followed by the carried stream, however the input is split
-/
import ViperFx.Iem.IemEngine
import ViperFx.Iem.PlanarBlockScheduler
import ViperFx.Iem.StreamingResampler

namespace ViperFx.Iem.Record

open ViperFx.Core StreamingResampler PlanarBlockScheduler

/-! ## What has been made against what must leave -/

section Balance

/-- from the rate of the host to 96 kHz -/
def inputResamplerConfig (config : IemEngineConfig) : ResamplerConfig :=
  ⟨config.hostSampleRate, config.internalSampleRate, config.maxHostBlockFrames⟩

/-- from 96 kHz to the rate of the host -/
def outputResamplerConfig (config : IemEngineConfig) : ResamplerConfig :=
  ⟨config.internalSampleRate, config.hostSampleRate, PlanarBlockScheduler.kBlockFrames⟩

def transportLatency (config : IemEngineConfig) : ℕ :=
  StreamingResampler.kRightTaps + hostFrames config (PlanarBlockScheduler.kBlockFrames + StreamingResampler.kRightTaps) + 4

/-- the frames at 96 kHz that have gone through the pipeline when `total` frames have come in -/
def pipelineFrames (config : IemEngineConfig) (total : ℕ) : ℕ :=
  PlanarBlockScheduler.kBlockFrames *
    (outputFrames (inputResamplerConfig config) total / PlanarBlockScheduler.kBlockFrames)

/-- the frames that have been made for the host by then -/
def madeFrames (config : IemEngineConfig) (total : ℕ) : ℕ :=
  outputFrames (outputResamplerConfig config) (pipelineFrames config total)

variable {config : IemEngineConfig}

/-- the rates that an engine can have -/
theorem configFits_iff (config : IemEngineConfig) :
    configFits config = true ↔ 8000 ≤ config.hostSampleRate ∧ config.hostSampleRate ≤ 384000 ∧
      config.maxHostBlockFrames ≠ 0 ∧ config.maxHostBlockFrames ≤ 8192 ∧ config.internalSampleRate = 96000 ∧
      config.internalBlockFrames = 256 ∧ config.maxChannels = 16 := by
  unfold configFits
  simp only [Bool.and_eq_true, decide_eq_true_eq, and_assoc]
  rfl

theorem outputRates (h : configFits config = true) : Rates (outputResamplerConfig config) := by
  obtain ⟨hlow, -, -, -, hinternal, -⟩ := (configFits_iff config).mp h
  exact ⟨by simp only [outputResamplerConfig]; omega, by simp only [outputResamplerConfig]; omega⟩

theorem inputRates (h : configFits config = true) : Rates (inputResamplerConfig config) := by
  obtain ⟨hlow, -, -, -, hinternal, -⟩ := (configFits_iff config).mp h
  exact ⟨by simp only [inputResamplerConfig]; omega, by simp only [inputResamplerConfig]; omega⟩

theorem pipelineFrames_le (config : IemEngineConfig) (total : ℕ) :
    pipelineFrames config total ≤ outputFrames (inputResamplerConfig config) total := Nat.mul_div_le _ _

/-- **What has been made is enough for what must leave** -/
theorem transport_covers (h : configFits config = true) (total : ℕ) :
    total ≤ transportLatency config + madeFrames config total := by
  obtain ⟨hlow, -, -, -, hinternal, -⟩ := (configFits_iff config).mp h
  have hresampled := outputFrames_mul_ge (inputRates h) total
  have hmade := outputFrames_mul_ge (outputRates h)
    (pipelineFrames config total)
  have hblocks : outputFrames (inputResamplerConfig config) total ≤ pipelineFrames config total + 255 := by
    simp only [pipelineFrames, PlanarBlockScheduler.kBlockFrames]
    omega
  have hlatency : 288 * config.hostSampleRate ≤
      hostFrames config (PlanarBlockScheduler.kBlockFrames + StreamingResampler.kRightTaps) * 96000 := by
    simp only [hostFrames, hinternal, PlanarBlockScheduler.kBlockFrames, StreamingResampler.kRightTaps]
    omega
  unfold transportLatency madeFrames
  simp only [inputResamplerConfig, outputResamplerConfig, hinternal, StreamingResampler.kRightTaps] at *
  generalize outputFrames ⟨config.hostSampleRate, 96000, config.maxHostBlockFrames⟩ total = resampled at *
  generalize pipelineFrames config total = blocks at *
  generalize outputFrames ⟨96000, config.hostSampleRate, PlanarBlockScheduler.kBlockFrames⟩ blocks = made at *
  generalize hostFrames config (PlanarBlockScheduler.kBlockFrames + 32) = latency at *
  -- the frames that are in the queue, in the filter or in neither, at the rate of the host
  have hrate : resampled * config.hostSampleRate ≤ (blocks - 32 + 288) * config.hostSampleRate :=
    Nat.mul_le_mul_right _ (by omega)
  rw [Nat.add_mul] at hrate
  omega

/-- what has been made never passes what has come in -/
theorem madeFrames_le (h : configFits config = true) (total : ℕ) : madeFrames config total ≤ total := by
  obtain ⟨hlow, -, -, -, hinternal, -⟩ := (configFits_iff config).mp h
  have hresampled := outputFrames_mul_lt (inputRates h) total
  have hmade := outputFrames_mul_lt (outputRates h)
    (pipelineFrames config total)
  have hblocks := pipelineFrames_le config total
  unfold madeFrames
  simp only [inputResamplerConfig, outputResamplerConfig, hinternal, StreamingResampler.kRightTaps] at *
  generalize outputFrames ⟨config.hostSampleRate, 96000, config.maxHostBlockFrames⟩ total = resampled at *
  generalize pipelineFrames config total = blocks at *
  generalize outputFrames ⟨96000, config.hostSampleRate, PlanarBlockScheduler.kBlockFrames⟩ blocks = made at *
  rcases Nat.lt_or_ge blocks 32 with hfew | hmany
  · have hzero : (blocks - 32) * config.hostSampleRate = 0 := by rw [Nat.sub_eq_zero_of_le hfew.le, Nat.zero_mul]
    omega
  · have hrate : (blocks - 32) * config.hostSampleRate + 32 * config.hostSampleRate ≤ resampled * config.hostSampleRate := by
      rw [← Nat.add_mul]
      exact Nat.mul_le_mul_right _ (by omega)
    omega

end Balance

/-! ## The code -/

/-- why a block fails -/
inductive IemBypassReason where
  | invalidBlock
  | resamplerFailure
  | outputUnderflow
  | nonFinite
  | processFailure
  deriving DecidableEq

/-- what the engine does with frames of its own: a frame of the input and one of the processed signal, mixed -/
structure EngineSamples (S : Type) extends FrameOps S where
  mix : ℚ → S → S → S

/-- the pipeline with its state `P`: a block of 256 frames is processed, or the pipeline fails -/
structure PipelineOps (F S P : Type) where
  prepared : IemParams F → P
  process : P → List S → P × Option (List S)
  reset : P → P

structure IemStream (F S P : Type) where
  engine : IemEngine F
  pipeline : P
  inputResampler : StreamingResampler S
  outputResampler : StreamingResampler S
  inputScheduler : PlanarBlockScheduler S
  outputFifo : PlanarBlockScheduler S
  internalScratchFrames : ℕ
  hostResampleScratchFrames : ℕ
  transportLatencyFrames : ℕ

namespace IemStream

variable {F S P : Type} [Zero S] (ops : EngineSamples S) (pipe : PipelineOps F S P)

/-- `Prepare` with `PrepareBuffers` -/
def prepare (memalign : ℕ → Bool) (parts : Parts F) (config : IemEngineConfig) (params : IemParams F) :
    Option (IemStream F S P) := do
  let engine ← IemEngine.prepare parts config params
  let inputResampler ← StreamingResampler.prepare memalign ops.toFrameOps 2 (inputResamplerConfig config)
  let internalScratchFrames := maxOutputFrames (inputResamplerConfig config) config.maxHostBlockFrames
  guard (internalScratchFrames ≠ 0 ∧ internalScratchFrames ≠ 2 ^ 64 - 1)
  let outputResampler ← StreamingResampler.prepare memalign ops.toFrameOps 2 (outputResamplerConfig config)
  let hostResampleScratchFrames := maxOutputFrames (outputResamplerConfig config) PlanarBlockScheduler.kBlockFrames
  guard (hostResampleScratchFrames ≠ 0 ∧ hostResampleScratchFrames ≠ 2 ^ 64 - 1)
  let inputCapacity := internalScratchFrames + PlanarBlockScheduler.kBlockFrames * 2
  let outputCapacity := config.maxHostBlockFrames * 2 + hostResampleScratchFrames * 4 + engine.latencyFrames
  guard (inputCapacity < 2 ^ 64 ∧ outputCapacity < 2 ^ 64)
  guard (AlignedPlanarBuffer.prepares memalign 2 config.maxHostBlockFrames
    ∧ AlignedPlanarBuffer.prepares memalign 2 internalScratchFrames
    ∧ AlignedPlanarBuffer.prepares memalign 2 PlanarBlockScheduler.kBlockFrames
    ∧ AlignedPlanarBuffer.prepares memalign 2 hostResampleScratchFrames)
  let inputScheduler ← PlanarBlockScheduler.prepare memalign 2 inputCapacity
  let outputFifo ← PlanarBlockScheduler.prepare memalign 2 outputCapacity
  return {
    engine, inputResampler, outputResampler, inputScheduler, outputFifo, internalScratchFrames, hostResampleScratchFrames
    pipeline := pipe.prepared params
    transportLatencyFrames := transportLatency config }

def resetPipeline (s : IemStream F S P) : IemStream F S P :=
  { s with
    engine := s.engine.resetPipeline
    pipeline := pipe.reset s.pipeline
    inputResampler := s.inputResampler.reset
    outputResampler := s.outputResampler.reset
    inputScheduler := s.inputScheduler.reset
    outputFifo := s.outputFifo.reset }

/-- frames are pushed when there are any -/
def pushSome (q : PlanarBlockScheduler S) (frames : List S) : Option (PlanarBlockScheduler S) :=
  if frames = [] then some q else q.push frames

/-- the loop over the blocks that the input queue has, and what ends it early; it is given the number of its turns -/
def processBlocks (s : IemStream F S P) : ℕ → IemStream F S P × Option IemBypassReason
  | 0 => (s, none)
  | blocks + 1 =>
    if !s.inputScheduler.hasBlock then (s, none)
    else
      let processed := pipe.process s.pipeline s.inputScheduler.channelBlock
      let s := { s with pipeline := processed.1 }
      match processed.2 with
      | none => (s, some .processFailure)
      | some frames =>
        let resampled := s.outputResampler.process ops.toFrameOps frames s.hostResampleScratchFrames
        let s := { s with outputResampler := resampled.1 }
        if resampled.1.failed then (s, some .resamplerFailure)
        else match pushSome s.outputFifo resampled.2 with
          | none => (s, some .invalidBlock)
          | some outputFifo =>
            processBlocks { s with outputFifo, inputScheduler := s.inputScheduler.consumeBlock } blocks

/-- as many frames leave as came in -/
def emit (s : IemStream F S P) (block : List S) : IemStream F S P × Except IemBypassReason (List S) :=
  let emitted := s.engine.emittedHostFrames
  let initialZeros := if emitted < s.transportLatencyFrames then min block.length (s.transportLatencyFrames - emitted) else 0
  match s.outputFifo.pop (block.length - initialZeros) with
  | none => (s, .error .outputUnderflow)
  | some (outputFifo, frames) =>
    let processed := List.replicate initialZeros 0 ++ frames
    let mixes := IemEngine.rampFrames s.engine.latencyFrames s.engine.targetEnableMix emitted block.length s.engine.enableMix
    let out := List.zipWith (fun mix frames => ops.mix mix frames.1 frames.2) mixes.1 (block.zip processed)
    let s := { s with
      outputFifo
      engine := { s.engine with enableMix := mixes.2, emittedHostFrames := emitted + block.length } }
    if !s.engine.params.enable && s.engine.enableMix ≤ 0 then
      (resetPipeline pipe { s with engine := { s.engine with active := false } }, .ok out)
    else (s, .ok out)

def process (s : IemStream F S P) (block : List S) : IemStream F S P × Except IemBypassReason (List S) :=
  if block.length = 0 ∨ s.engine.config.maxHostBlockFrames < block.length then (s, .error .invalidBlock)
  else if !s.engine.active && !s.engine.params.enable then (s, .ok block)
  else if ¬ block.all ops.isFinite then (s, .error .nonFinite)
  else
    let resampled := s.inputResampler.process ops.toFrameOps block s.internalScratchFrames
    let s := { s with inputResampler := resampled.1 }
    if resampled.1.failed then (s, .error .resamplerFailure)
    else match pushSome s.inputScheduler resampled.2 with
      | none => (s, .error .invalidBlock)
      | some inputScheduler =>
        let s := { s with inputScheduler }
        let carried := processBlocks ops pipe s (inputScheduler.count / PlanarBlockScheduler.kBlockFrames)
        match carried.2 with
        | some reason => (carried.1, .error reason)
        | none => emit ops pipe carried.1 block

section Code

variable {ops pipe}

/-- the turns that the loop is given are enough: the input queue has no block left -/
theorem processBlocks_done (turns : ℕ) (s : IemStream F S P)
    (hturns : s.inputScheduler.count / PlanarBlockScheduler.kBlockFrames ≤ turns)
    (hdone : (processBlocks ops pipe s turns).2 = none) :
    (processBlocks ops pipe s turns).1.inputScheduler.hasBlock = false := by
  have hblock : ∀ q : PlanarBlockScheduler S, q.hasBlock = true ↔ 256 ≤ q.count := fun q => decide_eq_true_iff
  induction turns generalizing s with
  | zero =>
    show s.inputScheduler.hasBlock = false
    rw [← Bool.not_eq_true, hblock]
    simp only [PlanarBlockScheduler.kBlockFrames] at hturns
    omega
  | succ turns ih =>
    rw [processBlocks] at hdone ⊢
    by_cases hhas : s.inputScheduler.hasBlock = true
    · have hcount : s.inputScheduler.consumeBlock.count = s.inputScheduler.count - 256 := by
        rw [PlanarBlockScheduler.consumeBlock, hhas]
        rfl
      have hfewer : s.inputScheduler.consumeBlock.count / PlanarBlockScheduler.kBlockFrames ≤ turns := by
        have hmany := (hblock _).mp hhas
        rw [hcount]
        simp only [PlanarBlockScheduler.kBlockFrames] at hturns ⊢
        omega
      simp only [hhas, Bool.not_true, Bool.false_eq_true, if_false] at hdone ⊢
      cases hframes : (pipe.process s.pipeline s.inputScheduler.channelBlock).2 with
      | none => simp [hframes] at hdone
      | some frames =>
        simp only [hframes] at hdone ⊢
        split_ifs at hdone ⊢ with hfailed
        cases hpush : pushSome s.outputFifo
            (s.outputResampler.process ops.toFrameOps frames s.hostResampleScratchFrames).2 with
        | none => simp [hpush] at hdone
        | some outputFifo =>
          simp only [hpush] at hdone ⊢
          exact ih _ hfewer hdone
    · rw [Bool.not_eq_true] at hhas
      simp [hhas]

variable (ops pipe) in
/-- the loop leaves the ramp and its counter alone -/
theorem processBlocks_engine (turns : ℕ) (s : IemStream F S P) : (processBlocks ops pipe s turns).1.engine = s.engine := by
  induction turns generalizing s with
  | zero => rfl
  | succ turns ih =>
    rw [processBlocks]
    by_cases hhas : s.inputScheduler.hasBlock = true
    · simp only [hhas, Bool.not_true, Bool.false_eq_true, if_false]
      cases hframes : (pipe.process s.pipeline s.inputScheduler.channelBlock).2 with
      | none => rfl
      | some frames =>
        dsimp only
        split_ifs with hfailed
        · rfl
        · cases hpush : pushSome s.outputFifo
              (s.outputResampler.process ops.toFrameOps frames s.hostResampleScratchFrames).2 with
          | none => rfl
          | some outputFifo => exact ih _
    · rw [Bool.not_eq_true] at hhas
      simp [hhas]

/-- what a block gives, as the ramp has it: a block is carried, or the ramp stays where it is -/
structure AsEngine (e : IemEngine F) (frames : ℕ) (result : IemStream F S P × Except IemBypassReason (List S)) : Prop where
  carried : ∀ out, result.2 = .ok out → ∃ mixes, e.process frames true = some (result.1.engine, mixes)
  failed : ∀ reason, result.2 = .error reason → result.1.engine = e ∧ e.process frames false = none

omit [Zero S] in
theorem failed_asEngine {e : IemEngine F} {frames : ℕ} {s : IemStream F S P} {reason : IemBypassReason}
    (hengine : s.engine = e) (hnone : e.process frames false = none) :
    AsEngine e frames (s, (.error reason : Except IemBypassReason (List S))) where
  carried := by
    intro out hout
    cases hout
  failed := by
    intro _ _
    exact ⟨hengine, hnone⟩

theorem emit_asEngine {s : IemStream F S P} {e : IemEngine F} {block : List S} (hengine : s.engine = e)
    (hfits : ¬(block.length = 0 ∨ e.config.maxHostBlockFrames < block.length))
    (hruns : ¬(!e.active && !e.params.enable) = true) : AsEngine e block.length (s.emit ops pipe block) := by
  subst hengine
  have hnone : s.engine.process block.length false = none := by
    rw [IemEngine.process, if_neg hfits, if_neg hruns]
    rfl
  unfold IemStream.emit
  dsimp only
  generalize (if s.engine.emittedHostFrames < s.transportLatencyFrames then
    min block.length (s.transportLatencyFrames - s.engine.emittedHostFrames) else 0) = initialZeros
  split
  · exact failed_asEngine rfl hnone
  · split_ifs with hends
    · constructor
      · intro out _
        refine ⟨(IemEngine.rampFrames s.engine.latencyFrames s.engine.targetEnableMix s.engine.emittedHostFrames block.length
          s.engine.enableMix).1, ?_⟩
        rw [IemEngine.process, if_neg hfits, if_neg hruns, Bool.not_true, if_neg Bool.false_ne_true]
        exact if_pos hends
      · intro reason hreason
        cases hreason
    · constructor
      · intro out _
        refine ⟨(IemEngine.rampFrames s.engine.latencyFrames s.engine.targetEnableMix s.engine.emittedHostFrames block.length
          s.engine.enableMix).1, ?_⟩
        rw [IemEngine.process, if_neg hfits, if_neg hruns, Bool.not_true, if_neg Bool.false_ne_true]
        exact if_neg hends
      · intro reason hreason
        cases hreason

/-- **The ramp and the gates are those of the engine**, for a block that is carried and for one that is not -/
theorem process_asEngine (s : IemStream F S P) (block : List S) :
    AsEngine s.engine block.length (s.process ops pipe block) := by
  unfold IemStream.process
  split_ifs with hfits hbypass hfinite
  · exact failed_asEngine rfl (if_pos hfits)
  · constructor
    · intro out _
      exact ⟨_, by rw [IemEngine.process, if_neg hfits, if_pos hbypass]⟩
    · intro reason hreason
      cases hreason
  all_goals
    have hnone : s.engine.process block.length false = none := by
      rw [IemEngine.process, if_neg hfits, if_neg hbypass]
      rfl
  · dsimp only
    split_ifs with hfailed
    · exact failed_asEngine rfl hnone
    · split
      · exact failed_asEngine rfl hnone
      · rename_i inputScheduler _
        have hsame := processBlocks_engine ops pipe (inputScheduler.count / PlanarBlockScheduler.kBlockFrames)
          { s with
            inputResampler := (s.inputResampler.process ops.toFrameOps block s.internalScratchFrames).1
            inputScheduler := inputScheduler }
        dsimp only at hsame ⊢
        split
        · exact failed_asEngine hsame hnone
        · exact emit_asEngine hsame hfits hbypass
  · exact failed_asEngine rfl hnone

end Code

/-! ## The stream without blocks -/

/-- one block through a pipeline that does not fail -/
def pipelineStep (p : P) (block : List S) : P × List S := ((pipe.process p block).1, (pipe.process p block).2.getD [])

/-- the first blocks of 256 frames of a stream -/
def blocksOf (count : ℕ) (frames : List S) : List (List S) :=
  (List.range count).map fun k => (frames.drop (PlanarBlockScheduler.kBlockFrames * k)).take PlanarBlockScheduler.kBlockFrames

/-- what the pipeline makes of the first blocks, and the state it is then in -/
def pipedFrames (p : P) (count : ℕ) (frames : List S) : List S := (feed (pipelineStep pipe) p (blocksOf count frames)).2.flatten

def pipedState (p : P) (count : ℕ) (frames : List S) : P := (feed (pipelineStep pipe) p (blocksOf count frames)).1

/-- the whole input resampled to 96 kHz -/
def internalStream (config : IemEngineConfig) (input : List S) : List S :=
  resample ops.toFrameOps (inputResamplerConfig config) input

/-- the whole input resampled to 96 kHz, through the pipeline in blocks of 256 frames, and resampled back -/
def carried (config : IemEngineConfig) (p : P) (input : List S) : List S :=
  let internal := internalStream ops config input
  resample ops.toFrameOps (outputResamplerConfig config)
    (pipedFrames pipe p (internal.length / PlanarBlockScheduler.kBlockFrames) internal)

/-- a pipeline that never fails on a block, and makes finite frames of it -/
def Succeeds (ops : FrameOps S) (pipe : PipelineOps F S P) : Prop :=
  ∀ p block, block.length = PlanarBlockScheduler.kBlockFrames →
    ∃ frames, (pipe.process p block).2 = some frames ∧ frames.length = PlanarBlockScheduler.kBlockFrames ∧
      ∀ x ∈ frames, ops.isFinite x = true

section Piped

variable {ops pipe} {p : P} {frames more : List S} {count : ℕ}

omit [Zero S] in
theorem blocksOf_append (hcount : PlanarBlockScheduler.kBlockFrames * count ≤ frames.length) :
    blocksOf count (frames ++ more) = blocksOf count frames := by
  apply List.map_congr_left
  intro k hk
  rw [List.mem_range] at hk
  have hend : PlanarBlockScheduler.kBlockFrames * k + PlanarBlockScheduler.kBlockFrames ≤ frames.length :=
    (Nat.mul_le_mul_left PlanarBlockScheduler.kBlockFrames (Nat.succ_le_of_lt hk)).trans hcount
  rw [List.drop_append_of_le_length (by omega), List.take_append_of_le_length (by rw [List.length_drop]; omega)]

omit [Zero S] in
theorem pipedFrames_append (pipe : PipelineOps F S P) (p : P) (more : List S)
    (hcount : PlanarBlockScheduler.kBlockFrames * count ≤ frames.length) :
    pipedFrames pipe p count (frames ++ more) = pipedFrames pipe p count frames ∧
      pipedState pipe p count (frames ++ more) = pipedState pipe p count frames := by
  unfold pipedFrames pipedState
  rw [blocksOf_append hcount]
  exact ⟨rfl, rfl⟩

omit [Zero S] in
/-- the next block goes through the pipeline in the state that the ones before it have led to -/
theorem pipedFrames_succ (p : P) (count : ℕ) (frames : List S) :
    pipedFrames pipe p (count + 1) frames = pipedFrames pipe p count frames ++
        ((pipe.process (pipedState pipe p count frames) ((frames.drop (PlanarBlockScheduler.kBlockFrames * count)).take
          PlanarBlockScheduler.kBlockFrames)).2.getD []) ∧
      pipedState pipe p (count + 1) frames =
        (pipe.process (pipedState pipe p count frames) ((frames.drop (PlanarBlockScheduler.kBlockFrames * count)).take
          PlanarBlockScheduler.kBlockFrames)).1 := by
  unfold pipedFrames pipedState blocksOf
  rw [List.range_succ, List.map_append, List.map_singleton, feed_concat, List.flatten_append, List.flatten_singleton]
  exact ⟨rfl, rfl⟩

omit [Zero S] in
theorem length_pipedFrames (hpipe : Succeeds ops.toFrameOps pipe)
    (hcount : PlanarBlockScheduler.kBlockFrames * count ≤ frames.length) :
    (pipedFrames pipe p count frames).length = PlanarBlockScheduler.kBlockFrames * count := by
  induction count with
  | zero => rfl
  | succ count ih =>
    rw [Nat.mul_succ] at hcount
    obtain ⟨out, hout, hlength, -⟩ := hpipe (pipedState pipe p count frames)
      ((frames.drop (PlanarBlockScheduler.kBlockFrames * count)).take PlanarBlockScheduler.kBlockFrames)
      (by rw [List.length_take, List.length_drop]; omega)
    rw [(pipedFrames_succ p count frames).1, List.length_append, ih (by omega), hout, Nat.mul_succ]
    exact congrArg _ hlength

end Piped

/-! ## The queues and resamplers amid a run -/

variable {ops pipe}

omit [Zero S] in
theorem pushSome_queue {q : PlanarBlockScheduler S} {capacity : ℕ} {frames input : List S} (h : Queue q capacity frames)
    (hroom : frames.length + input.length ≤ capacity) :
    ∃ q', pushSome q input = some q' ∧ Queue q' capacity (frames ++ input) ∧ q'.readIndex = q.readIndex := by
  unfold pushSome
  split_ifs with hnone
  · rw [hnone, List.append_nil]
    exact ⟨q, rfl, h, rfl⟩
  · exact h.push hroom

/-- what is on its way after `done` blocks of the stream at 96 kHz, when `gone` frames have left for the host -/
structure Carries (ops : EngineSamples S) (pipe : PipelineOps F S P) (config : IemEngineConfig) (p : P)
    (inputCapacity outputCapacity : ℕ) (s : IemStream F S P) (internal : List S) (done gone : ℕ) : Prop where
  scratch : s.hostResampleScratchFrames = maxOutputFrames (outputResamplerConfig config) PlanarBlockScheduler.kBlockFrames
  scheduler : Queue s.inputScheduler inputCapacity (internal.drop (PlanarBlockScheduler.kBlockFrames * done))
  aligned : Aligned s.inputScheduler
  pipeline : s.pipeline = pipedState pipe p done internal
  resampler : Tracks s.outputResampler (outputResamplerConfig config) (pipedFrames pipe p done internal)
    (outputFrames (outputResamplerConfig config) (PlanarBlockScheduler.kBlockFrames * done))
  made : gone ≤ outputFrames (outputResamplerConfig config) (PlanarBlockScheduler.kBlockFrames * done)
  fifo : Queue s.outputFifo outputCapacity
    ((resample ops.toFrameOps (outputResamplerConfig config) (pipedFrames pipe p done internal)).drop gone)

/-- the parts of an engine that the loop over the blocks leaves alone -/
structure SameHost (s s' : IemStream F S P) : Prop where
  engine : s'.engine = s.engine
  inputResampler : s'.inputResampler = s.inputResampler
  internalScratchFrames : s'.internalScratchFrames = s.internalScratchFrames
  transportLatencyFrames : s'.transportLatencyFrames = s.transportLatencyFrames


section Loop

variable {config : IemEngineConfig} {p : P} {inputCapacity outputCapacity : ℕ} {s : IemStream F S P} {internal : List S}
  {done gone : ℕ}

/-- **One turn of the loop takes the next block to the output queue** -/
theorem Carries.block (hfits : configFits config = true) (hpipe : Succeeds ops.toFrameOps pipe)
    (h : Carries ops pipe config p inputCapacity outputCapacity s internal done gone)
    (hblock : PlanarBlockScheduler.kBlockFrames * (done + 1) ≤ internal.length)
    (hroom : outputFrames (outputResamplerConfig config) (PlanarBlockScheduler.kBlockFrames * (done + 1)) ≤
      gone + outputCapacity)
    (hsmall : internal.length * config.hostSampleRate + 96000 < 2 ^ 64) (turns : ℕ) :
    ∃ s', processBlocks ops pipe s (turns + 1) = processBlocks ops pipe s' turns ∧ SameHost s s' ∧
      Carries ops pipe config p inputCapacity outputCapacity s' internal (done + 1) gone := by
  obtain ⟨hlow, hhigh, -, -, hinternal, -⟩ := (configFits_iff config).mp hfits
  rw [Nat.mul_succ] at hblock hroom
  have hqueued : PlanarBlockScheduler.kBlockFrames ≤ (internal.drop (PlanarBlockScheduler.kBlockFrames * done)).length := by
    rw [List.length_drop]
    omega
  obtain ⟨hread, hconsumed, haligned⟩ := h.scheduler.block h.aligned hqueued
  have hhas : s.inputScheduler.hasBlock = true := by
    rw [hasBlock, h.scheduler.count]
    exact decide_eq_true hqueued
  -- the pipeline
  obtain ⟨frames, hframes, hlength, hfinite⟩ := hpipe s.pipeline s.inputScheduler.channelBlock
    (by rw [hread, List.length_take]; omega)
  obtain ⟨hpiped, hstate⟩ : pipedFrames pipe p (done + 1) internal = _ ∧ pipedState pipe p (done + 1) internal = _ :=
    pipedFrames_succ p done internal
  rw [← hread, ← h.pipeline] at hpiped hstate
  rw [hframes, Option.getD_some] at hpiped
  have hdone : (pipedFrames pipe p done internal).length = PlanarBlockScheduler.kBlockFrames * done :=
    length_pipedFrames hpipe (by omega)
  -- the output resampler
  have htracks := h.resampler
  rw [← hdone] at htracks
  have hrate : (PlanarBlockScheduler.kBlockFrames * done + PlanarBlockScheduler.kBlockFrames) * config.hostSampleRate ≤
      internal.length * config.hostSampleRate := Nat.mul_le_mul_right _ hblock
  have hscratch : outputFrames (outputResamplerConfig config) ((pipedFrames pipe p done internal).length + frames.length) ≤
      outputFrames (outputResamplerConfig config) (pipedFrames pipe p done internal).length + s.hostResampleScratchFrames := by
    rw [hlength, h.scratch]
    refine room_for_block (outputRates hfits) ?_ _
    simp only [outputResamplerConfig, PlanarBlockScheduler.kBlockFrames, kTapCount]
    omega
  obtain ⟨hmade, hresampled⟩ := htracks.process ops.toFrameOps (outputRates hfits) hlength.le hfinite
    (by rw [hdone, hlength]; simp only [outputResamplerConfig, hinternal]; omega) hscratch
  rw [← hpiped] at hmade hresampled
  rw [hdone, hlength] at hmade hresampled
  -- the output queue
  have hlonger : resample ops.toFrameOps (outputResamplerConfig config) (pipedFrames pipe p done internal ++ frames) = _ :=
    resample_append (pipedFrames pipe p done internal) frames (outputRates hfits)
  rw [← hpiped, hdone, hlength, ← hmade] at hlonger
  have hold : (resample ops.toFrameOps (outputResamplerConfig config) (pipedFrames pipe p done internal)).length =
      outputFrames (outputResamplerConfig config) (PlanarBlockScheduler.kBlockFrames * done) := by
    rw [resample, List.length_map, List.length_range, hdone]
  have hmono := outputFrames_mono (outputResamplerConfig config)
    (Nat.le_add_right (PlanarBlockScheduler.kBlockFrames * done) PlanarBlockScheduler.kBlockFrames)
  have hgone := h.made
  have hfree : ((resample ops.toFrameOps (outputResamplerConfig config) (pipedFrames pipe p done internal)).drop gone).length +
      (s.outputResampler.process ops.toFrameOps frames s.hostResampleScratchFrames).2.length ≤ outputCapacity := by
    rw [List.length_drop, hold, hmade, List.length_map, List.length_range']
    omega
  obtain ⟨outputFifo, hpush, hfifo, -⟩ := pushSome_queue h.fifo hfree
  rw [← List.drop_append_of_le_length (by rw [hold]; exact hgone), ← hlonger] at hfifo
  refine ⟨{ s with
    pipeline := (pipe.process s.pipeline s.inputScheduler.channelBlock).1
    outputResampler := (s.outputResampler.process ops.toFrameOps frames s.hostResampleScratchFrames).1
    outputFifo := outputFifo
    inputScheduler := s.inputScheduler.consumeBlock }, ?_, ⟨rfl, rfl, rfl, rfl⟩, ?_⟩
  · have hok : (s.outputResampler.process ops.toFrameOps frames s.hostResampleScratchFrames).1.failed = false :=
      hresampled.ok
    rw [processBlocks]
    simp only [hhas, hframes, hok, hpush, Bool.not_true, Bool.false_eq_true, if_false]
  · rw [List.drop_drop, ← Nat.mul_succ] at hconsumed
    rw [← Nat.mul_succ] at hresampled hmono
    exact
      { scratch := h.scratch
        scheduler := hconsumed
        aligned := haligned
        pipeline := hstate.symm
        resampler := hresampled
        made := hgone.trans hmono
        fifo := hfifo }

/-- the loop takes every block that the input queue has -/
theorem Carries.blocks (hfits : configFits config = true) (hpipe : Succeeds ops.toFrameOps pipe)
    (h : Carries ops pipe config p inputCapacity outputCapacity s internal done gone) (turns : ℕ)
    (hturns : PlanarBlockScheduler.kBlockFrames * (done + turns) ≤ internal.length)
    (hroom : outputFrames (outputResamplerConfig config) (PlanarBlockScheduler.kBlockFrames * (done + turns)) ≤
      gone + outputCapacity)
    (hsmall : internal.length * config.hostSampleRate + 96000 < 2 ^ 64) :
    ∃ s', processBlocks ops pipe s turns = (s', none) ∧ SameHost s s' ∧
      Carries ops pipe config p inputCapacity outputCapacity s' internal (done + turns) gone := by
  induction turns generalizing s done with
  | zero => exact ⟨s, rfl, ⟨rfl, rfl, rfl, rfl⟩, h⟩
  | succ turns ih =>
    have hnext : PlanarBlockScheduler.kBlockFrames * (done + 1) ≤ PlanarBlockScheduler.kBlockFrames * (done + (turns + 1)) :=
      Nat.mul_le_mul_left _ (by omega)
    obtain ⟨s₁, hturn, hsame, hcarries⟩ := h.block hfits hpipe (hnext.trans hturns)
      ((outputFrames_mono _ hnext).trans hroom) hsmall turns
    rw [← Nat.add_assoc, Nat.add_right_comm] at hturns hroom
    obtain ⟨s₂, hrest, hsame', hcarries'⟩ := ih hcarries hturns hroom
    rw [Nat.add_right_comm, Nat.add_assoc] at hcarries'
    exact ⟨s₂, hturn.trans hrest,
      ⟨hsame'.engine.trans hsame.engine, hsame'.inputResampler.trans hsame.inputResampler,
        hsame'.internalScratchFrames.trans hsame.internalScratchFrames,
        hsame'.transportLatencyFrames.trans hsame.transportLatencyFrames⟩, hcarries'⟩

end Loop

/-! ## Blocks -/

/-- the silence of the transport, and the carried stream after it -/
def delayed (ops : EngineSamples S) (pipe : PipelineOps F S P) (config : IemEngineConfig) (p : P) (input : List S) : List S :=
  List.replicate (transportLatency config) 0 ++ carried ops pipe config p input

/-- frames that are mixed with nothing of the input are the processed ones -/
def MixesFully (ops : EngineSamples S) : Prop := ∀ x y, ops.isFinite x = true → ops.mix 1 x y = y

/-- an enabled engine between two blocks, when some input has come in -/
structure Streams (ops : EngineSamples S) (pipe : PipelineOps F S P) (config : IemEngineConfig) (p : P)
    (inputCapacity outputCapacity : ℕ) (s : IemStream F S P) (input : List S) : Prop where
  prepared : s.engine.config = config
  enabled : s.engine.params.enable = true
  mix : s.engine.enableMix = 1
  target : s.engine.targetEnableMix = 1
  emitted : s.engine.emittedHostFrames = input.length
  transport : s.transportLatencyFrames = transportLatency config
  scratch : s.internalScratchFrames = maxOutputFrames (inputResamplerConfig config) config.maxHostBlockFrames
  resampler : Tracks s.inputResampler (inputResamplerConfig config) input
    (outputFrames (inputResamplerConfig config) input.length)
  carries : Carries ops pipe config p inputCapacity outputCapacity s (internalStream ops config input)
    (outputFrames (inputResamplerConfig config) input.length / PlanarBlockScheduler.kBlockFrames)
    (input.length - transportLatency config)

section Block

variable {config : IemEngineConfig} {p : P} {inputCapacity outputCapacity : ℕ} {s : IemStream F S P} {input block : List S}

theorem rampFrames_full (latency emitted frames : ℕ) :
    IemEngine.rampFrames latency 1 emitted frames 1 = (List.replicate frames 1, 1) := by
  induction frames generalizing emitted with
  | zero => rfl
  | succ frames ih =>
    have hmix : IemEngine.frameMix latency 1 emitted 1 = 1 := by
      simp [IemEngine.frameMix, IemEngine.updateEnableRamp]
    simp only [IemEngine.rampFrames, hmix, ih, List.replicate_succ]

omit [Zero S] in
theorem mixed_full (hmix : MixesFully ops) {processed : List S} (hfinite : ∀ x ∈ block, ops.isFinite x = true)
    (hlength : processed.length = block.length) :
    List.zipWith (fun mix frames => ops.mix mix frames.1 frames.2) (List.replicate block.length (1 : ℚ))
      (block.zip processed) = processed := by
  induction block generalizing processed with
  | nil => exact (List.length_eq_zero_iff.mp hlength).symm
  | cons x block ih =>
    cases processed with
    | nil => cases hlength
    | cons y processed =>
      have hrest := ih (fun x' hx' => hfinite x' (List.mem_cons_of_mem x hx')) (Nat.succ.inj hlength)
      rw [List.length_cons, List.replicate_succ, List.zip_cons_cons, List.zipWith_cons_cons, hrest]
      dsimp only
      rw [hmix x y (hfinite x List.mem_cons_self)]

theorem length_internalStream (ops : EngineSamples S) (config : IemEngineConfig) (input : List S) :
    (internalStream ops config input).length = outputFrames (inputResamplerConfig config) input.length := by
  rw [internalStream, resample, List.length_map, List.length_range]

theorem length_carried (hpipe : Succeeds ops.toFrameOps pipe) (config : IemEngineConfig) (p : P) (input : List S) :
    (carried ops pipe config p input).length = madeFrames config input.length := by
  unfold carried
  dsimp only
  rw [resample, List.length_map, List.length_range, length_pipedFrames hpipe (Nat.mul_div_le _ _), length_internalStream]
  rfl

/-- what has been carried stays when more comes in -/
theorem carried_append (ops : EngineSamples S) (pipe : PipelineOps F S P) (hfits : configFits config = true) (p : P)
    (input later : List S) :
    carried ops pipe config p input <+: carried ops pipe config p (input ++ later) := by
  have hinternal : ∃ more, internalStream ops config (input ++ later) = internalStream ops config input ++ more :=
    ⟨_, resample_append input later (inputRates hfits)⟩
  obtain ⟨more, hmore⟩ := hinternal
  -- the blocks of the longer stream begin with those of the shorter one
  have hpiped (count extra : ℕ) : pipedFrames pipe p count (internalStream ops config (input ++ later)) <+:
      pipedFrames pipe p (count + extra) (internalStream ops config (input ++ later)) := by
    induction extra with
    | zero => exact List.prefix_rfl
    | succ extra ih =>
      rw [← Nat.add_assoc, (pipedFrames_succ p (count + extra) _).1]
      exact ih.trans (List.prefix_append _ _)
  have hblocks : (internalStream ops config input).length / PlanarBlockScheduler.kBlockFrames ≤
      (internalStream ops config (input ++ later)).length / PlanarBlockScheduler.kBlockFrames := by
    rw [hmore, List.length_append]
    exact Nat.div_le_div_right (Nat.le_add_right _ _)
  obtain ⟨extra, hextra⟩ := Nat.exists_eq_add_of_le hblocks
  obtain ⟨rest, hrest⟩ := hpiped ((internalStream ops config input).length / PlanarBlockScheduler.kBlockFrames) extra
  have hsame := (pipedFrames_append pipe p more
    (Nat.mul_div_le (internalStream ops config input).length PlanarBlockScheduler.kBlockFrames)).1
  rw [← hextra, hmore, hsame, ← hmore] at hrest
  unfold carried
  dsimp only
  rw [← hrest, resample_append _ rest (outputRates hfits)]
  exact List.prefix_append _ _

/-- the rows of the room that `PrepareBuffers` leaves -/
structure Rooms (config : IemEngineConfig) (inputCapacity outputCapacity : ℕ) : Prop where
  input : maxOutputFrames (inputResamplerConfig config) config.maxHostBlockFrames + PlanarBlockScheduler.kBlockFrames ≤
    inputCapacity
  output : config.maxHostBlockFrames + transportLatency config ≤ outputCapacity

/-- a block comes in: resampled, and queued behind what is left of a block at 96 kHz -/
theorem Streams.intake (hfits : configFits config = true) (hrooms : Rooms config inputCapacity outputCapacity)
    (h : Streams ops pipe config p inputCapacity outputCapacity s input) (hblock : block.length ≤ config.maxHostBlockFrames)
    (hfinite : ∀ x ∈ block, ops.isFinite x = true) (hsmall : input.length + block.length < 2 ^ 40) :
    ∃ inputScheduler,
      pushSome s.inputScheduler (s.inputResampler.process ops.toFrameOps block s.internalScratchFrames).2 =
        some inputScheduler ∧
      inputScheduler.count = ((internalStream ops config (input ++ block)).drop (PlanarBlockScheduler.kBlockFrames *
        (outputFrames (inputResamplerConfig config) input.length / PlanarBlockScheduler.kBlockFrames))).length ∧
      Tracks (s.inputResampler.process ops.toFrameOps block s.internalScratchFrames).1 (inputResamplerConfig config)
        (input ++ block) (outputFrames (inputResamplerConfig config) (input ++ block).length) ∧
      Carries ops pipe config p inputCapacity outputCapacity
        { s with
          inputResampler := (s.inputResampler.process ops.toFrameOps block s.internalScratchFrames).1
          inputScheduler := inputScheduler }
        (internalStream ops config (input ++ block))
        (outputFrames (inputResamplerConfig config) input.length / PlanarBlockScheduler.kBlockFrames)
        (input.length - transportLatency config) := by
  obtain ⟨hlow, hhigh, -, hmax, hinternal, -⟩ := (configFits_iff config).mp hfits
  have hroom : outputFrames (inputResamplerConfig config) (input.length + block.length) ≤
      outputFrames (inputResamplerConfig config) input.length + s.internalScratchFrames := by
    rw [h.scratch]
    refine (outputFrames_mono _ (Nat.add_le_add_left hblock _)).trans (room_for_block (inputRates hfits) ?_ _)
    simp only [inputResamplerConfig, kTapCount, hinternal]
    omega
  obtain ⟨hmade, htracks⟩ := h.resampler.process ops.toFrameOps (inputRates hfits) hblock hfinite
    (by simp only [inputResamplerConfig, hinternal]; omega) hroom
  -- the stream at 96 kHz goes on with what has been made
  have hlonger : internalStream ops config (input ++ block) = internalStream ops config input ++
      (s.inputResampler.process ops.toFrameOps block s.internalScratchFrames).2 := by
    rw [hmade]
    exact resample_append input block (inputRates hfits)
  have hlength := length_internalStream ops config input
  have hdone : PlanarBlockScheduler.kBlockFrames * (outputFrames (inputResamplerConfig config) input.length /
      PlanarBlockScheduler.kBlockFrames) ≤ (internalStream ops config input).length := by
    rw [hlength]
    exact Nat.mul_div_le _ _
  have hrest : ((internalStream ops config input).drop (PlanarBlockScheduler.kBlockFrames *
      (outputFrames (inputResamplerConfig config) input.length / PlanarBlockScheduler.kBlockFrames))).length <
      PlanarBlockScheduler.kBlockFrames := by
    rw [List.length_drop, hlength]
    simp only [PlanarBlockScheduler.kBlockFrames]
    omega
  have hcount : (s.inputResampler.process ops.toFrameOps block s.internalScratchFrames).2.length ≤
      maxOutputFrames (inputResamplerConfig config) config.maxHostBlockFrames := by
    rw [hmade, List.length_map, List.length_range', ← h.scratch]
    omega
  have hinput := hrooms.input
  have hfree : ((internalStream ops config input).drop (PlanarBlockScheduler.kBlockFrames *
      (outputFrames (inputResamplerConfig config) input.length / PlanarBlockScheduler.kBlockFrames))).length +
      (s.inputResampler.process ops.toFrameOps block s.internalScratchFrames).2.length ≤ inputCapacity := by omega
  obtain ⟨inputScheduler, hpush, hqueue, hread⟩ := pushSome_queue h.carries.scheduler hfree
  rw [← List.drop_append_of_le_length hdone, ← hlonger] at hqueue
  have hpiped := pipedFrames_append pipe p (s.inputResampler.process ops.toFrameOps block s.internalScratchFrames).2 hdone
  rw [← hlonger] at hpiped
  refine ⟨inputScheduler, hpush, hqueue.count, by rw [List.length_append]; exact htracks, ?_⟩
  exact
    { scratch := h.carries.scratch
      scheduler := hqueue
      aligned :=
        ⟨by rw [hqueue.size, ← h.carries.scheduler.size]; exact h.carries.aligned.capacity,
          by rw [hread]; exact h.carries.aligned.read⟩
      pipeline := by rw [hpiped.2]; exact h.carries.pipeline
      resampler := by rw [hpiped.1]; exact h.carries.resampler
      made := h.carries.made
      fifo := by rw [hpiped.1]; exact h.carries.fifo }

/-- what leaves with a block, in silence and carried -/
theorem drop_delayed (ops : EngineSamples S) (pipe : PipelineOps F S P) (config : IemEngineConfig) (p : P) (stream : List S)
    (total frames : ℕ) :
    ((delayed ops pipe config p stream).drop total).take frames =
      List.replicate (min frames (transportLatency config - total)) 0 ++
        ((carried ops pipe config p stream).drop (total - transportLatency config)).take
          (frames - min frames (transportLatency config - total)) := by
  have hrest : frames - (transportLatency config - total) = frames - min frames (transportLatency config - total) := by omega
  rw [delayed, List.drop_append, List.drop_replicate, List.length_replicate, List.take_append, List.take_replicate,
    List.length_replicate, hrest]

/-- the delayed stream is long enough for a block -/
theorem length_delayed_part (hfits : configFits config = true) (hpipe : Succeeds ops.toFrameOps pipe) (p : P)
    (input block : List S) :
    (((delayed ops pipe config p (input ++ block)).drop input.length).take block.length).length = block.length := by
  have hcovers := transport_covers hfits (input ++ block).length
  have hcarried := length_carried hpipe config p (input ++ block)
  rw [List.length_append] at hcovers hcarried
  rw [List.length_take, List.length_drop, delayed, List.length_append, List.length_replicate, hcarried]
  omega

/-- as many frames leave as came in, and the queue has them -/
theorem Carries.emit (hfits : configFits config = true) (hpipe : Succeeds ops.toFrameOps pipe) (hmix : MixesFully ops)
    (henabled : s.engine.params.enable = true) (hfull : s.engine.enableMix = 1) (htarget : s.engine.targetEnableMix = 1)
    (hemitted : s.engine.emittedHostFrames = input.length) (htransport : s.transportLatencyFrames = transportLatency config)
    (hfinite : ∀ x ∈ block, ops.isFinite x = true)
    (h : Carries ops pipe config p inputCapacity outputCapacity s (internalStream ops config (input ++ block))
      (outputFrames (inputResamplerConfig config) (input ++ block).length / PlanarBlockScheduler.kBlockFrames)
      (input.length - transportLatency config)) :
    ∃ outputFifo,
      s.emit ops pipe block =
        ({ s with
          outputFifo := outputFifo
          engine := { s.engine with enableMix := 1, emittedHostFrames := (input ++ block).length } },
          .ok (((delayed ops pipe config p (input ++ block)).drop input.length).take block.length)) ∧
      Carries ops pipe config p inputCapacity outputCapacity { s with outputFifo := outputFifo }
        (internalStream ops config (input ++ block))
        (outputFrames (inputResamplerConfig config) (input ++ block).length / PlanarBlockScheduler.kBlockFrames)
        ((input ++ block).length - transportLatency config) := by
  have hcovers := transport_covers hfits (input ++ block).length
  have hcarried := length_carried hpipe config p (input ++ block)
  have hzeros : (if s.engine.emittedHostFrames < s.transportLatencyFrames then
      min block.length (s.transportLatencyFrames - s.engine.emittedHostFrames) else 0) =
      min block.length (transportLatency config - input.length) := by
    rw [hemitted, htransport]
    split_ifs <;> omega
  -- the queue holds the carried stream from the frames on that have not left
  have hfifo := h.fifo
  rw [← length_internalStream ops] at hfifo
  have hstream : resample ops.toFrameOps (outputResamplerConfig config)
      (pipedFrames pipe p ((internalStream ops config (input ++ block)).length / PlanarBlockScheduler.kBlockFrames)
        (internalStream ops config (input ++ block))) = carried ops pipe config p (input ++ block) := rfl
  rw [hstream] at hfifo
  rw [List.length_append] at hcovers hcarried
  obtain ⟨outputFifo, hpop, hleft⟩ := hfifo.pop
    (n := block.length - min block.length (transportLatency config - input.length))
    (by rw [List.length_drop, hcarried]; omega)
  have hgone : input.length - transportLatency config +
      (block.length - min block.length (transportLatency config - input.length)) =
      input.length + block.length - transportLatency config := by omega
  rw [List.drop_drop, hgone] at hleft
  refine ⟨outputFifo, ?_, ?_⟩
  · have hprocessed := drop_delayed ops pipe config p (input ++ block) input.length block.length
    have hlength := length_delayed_part hfits hpipe p input block
    unfold IemStream.emit
    dsimp only
    rw [hzeros, hpop]
    dsimp only
    rw [← hprocessed, hemitted, hfull, htarget, rampFrames_full]
    dsimp only
    rw [mixed_full hmix hfinite hlength, henabled, List.length_append]
    rfl
  · rw [List.length_append]
    rw [List.length_append] at h
    exact
      { scratch := h.scratch
        scheduler := h.scheduler
        aligned := h.aligned
        pipeline := h.pipeline
        resampler := h.resampler
        made := by
          show input.length + block.length - transportLatency config ≤ madeFrames config (input.length + block.length)
          omega
        fifo := by
          have hinternal : outputFrames (inputResamplerConfig config) (input.length + block.length) =
              (internalStream ops config (input ++ block)).length := by rw [length_internalStream, List.length_append]
          rw [hinternal]
          exact hleft }

/-- **A block moves the stream on**: it does not fail, and what leaves is the next part of the delayed stream -/
theorem Streams.process (hfits : configFits config = true) (hpipe : Succeeds ops.toFrameOps pipe) (hmix : MixesFully ops)
    (hrooms : Rooms config inputCapacity outputCapacity)
    (h : Streams ops pipe config p inputCapacity outputCapacity s input) (hsome : block ≠ [])
    (hblock : block.length ≤ config.maxHostBlockFrames) (hfinite : ∀ x ∈ block, ops.isFinite x = true)
    (hsmall : input.length + block.length < 2 ^ 40) :
    ∃ s', s.process ops pipe block =
        (s', .ok (((delayed ops pipe config p (input ++ block)).drop input.length).take block.length)) ∧
      Streams ops pipe config p inputCapacity outputCapacity s' (input ++ block) := by
  obtain ⟨hlow, hhigh, -, hmax, hinternal, -⟩ := (configFits_iff config).mp hfits
  obtain ⟨inputScheduler, hpush, hcount, htracks, hcarries⟩ := h.intake hfits hrooms hblock hfinite hsmall
  have hlength := length_internalStream ops config (input ++ block)
  -- the turns of the loop are the blocks that are new
  have hmono := outputFrames_mono (inputResamplerConfig config) (Nat.le_add_right input.length block.length)
  rw [← List.length_append] at hmono
  have hturns : outputFrames (inputResamplerConfig config) input.length / PlanarBlockScheduler.kBlockFrames +
      inputScheduler.count / PlanarBlockScheduler.kBlockFrames =
      outputFrames (inputResamplerConfig config) (input ++ block).length / PlanarBlockScheduler.kBlockFrames := by
    rw [hcount, List.length_drop, hlength]
    simp only [PlanarBlockScheduler.kBlockFrames]
    omega
  have hblocks := hcarries.blocks hfits hpipe (inputScheduler.count / PlanarBlockScheduler.kBlockFrames)
  rw [hturns] at hblocks
  obtain ⟨s₁, hloop, hsame, hcarried⟩ := hblocks
    (by rw [hlength]; exact Nat.mul_div_le _ _)
    (by
      have hmade := madeFrames_le hfits (input ++ block).length
      have hroom := hrooms.output
      rw [List.length_append] at hmade ⊢
      simp only [madeFrames, pipelineFrames] at hmade
      omega)
    (by
      have hrate := outputFrames_mul_lt (inputRates hfits) (input ++ block).length
      rw [hlength]
      rw [List.length_append] at hrate ⊢
      simp only [inputResamplerConfig, hinternal] at hrate ⊢
      omega)
  obtain ⟨outputFifo, hemit, hleft⟩ := hcarried.emit hfits hpipe hmix (by rw [hsame.engine]; exact h.enabled)
    (by rw [hsame.engine]; exact h.mix) (by rw [hsame.engine]; exact h.target) (by rw [hsame.engine]; exact h.emitted)
    (by rw [hsame.transportLatencyFrames]; exact h.transport) hfinite
  refine ⟨{ s₁ with
    outputFifo := outputFifo
    engine := { s₁.engine with enableMix := 1, emittedHostFrames := (input ++ block).length } }, ?_, ?_⟩
  rotate_left
  · exact
      { prepared := by
          show s₁.engine.config = config
          rw [hsame.engine]
          exact h.prepared
        enabled := by
          show s₁.engine.params.enable = true
          rw [hsame.engine]
          exact h.enabled
        mix := rfl
        target := by
          show s₁.engine.targetEnableMix = 1
          rw [hsame.engine]
          exact h.target
        emitted := rfl
        transport := hsame.transportLatencyFrames.trans h.transport
        scratch := hsame.internalScratchFrames.trans h.scratch
        resampler := by
          show Tracks s₁.inputResampler _ _ _
          rw [hsame.inputResampler]
          exact htracks
        carries := ⟨hleft.scratch, hleft.scheduler, hleft.aligned, hleft.pipeline, hleft.resampler, hleft.made, hleft.fifo⟩ }
  · have hfew : ¬(block.length = 0 ∨ s.engine.config.maxHostBlockFrames < block.length) := by
      rw [h.prepared, List.length_eq_zero_iff]
      simp [hsome, hblock]
    have hall : block.all ops.isFinite = true := List.all_eq_true.mpr hfinite
    unfold IemStream.process
    rw [if_neg hfew]
    simp only [h.enabled, hall, htracks.ok, hpush, hloop, hemit, Bool.not_true, Bool.and_false, Bool.false_eq_true, not_true,
      if_false]

end Block

/-! ## Runs -/

section Run

variable {config : IemEngineConfig} {p : P} {inputCapacity outputCapacity : ℕ} {s : IemStream F S P} {input : List S}

/-- a run of blocks: the engine after it, and what each block gave -/
def run (ops : EngineSamples S) (pipe : PipelineOps F S P) (s : IemStream F S P) (blocks : List (List S)) :
    IemStream F S P × List (Except IemBypassReason (List S)) := feed (fun s block => process ops pipe s block) s blocks

theorem Streams.run (hfits : configFits config = true) (hpipe : Succeeds ops.toFrameOps pipe) (hmix : MixesFully ops)
    (hrooms : Rooms config inputCapacity outputCapacity)
    (h : Streams ops pipe config p inputCapacity outputCapacity s []) {blocks : List (List S)}
    (hblocks : ∀ block ∈ blocks, block ≠ [] ∧ block.length ≤ config.maxHostBlockFrames ∧ ∀ x ∈ block, ops.isFinite x = true)
    (hsmall : blocks.flatten.length < 2 ^ 40) :
    ∃ outs : List (List S), (s.run ops pipe blocks).2 = outs.map .ok ∧ outs.map List.length = blocks.map List.length ∧
      outs.flatten = (delayed ops pipe config p blocks.flatten).take blocks.flatten.length ∧
      Streams ops pipe config p inputCapacity outputCapacity (s.run ops pipe blocks).1 blocks.flatten := by
  induction blocks using List.reverseRecOn with
  | nil => exact ⟨[], rfl, rfl, rfl, h⟩
  | append_singleton blocks block ih =>
    rw [List.flatten_append, List.flatten_singleton, List.length_append] at hsmall
    obtain ⟨outs, houts, hlengths, hflat, hstreams⟩ := ih (fun b hb => hblocks b (List.mem_append_left _ hb)) (by omega)
    obtain ⟨hsome, hblock, hfinite⟩ := hblocks block (List.mem_append_right _ List.mem_cons_self)
    obtain ⟨s', hprocess, hnext⟩ := hstreams.process hfits hpipe hmix hrooms hsome hblock hfinite hsmall
    have hrun : s.run ops pipe (blocks ++ [block]) =
        (s', (s.run ops pipe blocks).2 ++ [.ok (((delayed ops pipe config p (blocks.flatten ++ block)).drop
          blocks.flatten.length).take block.length)]) := by
      unfold IemStream.run
      rw [feed_concat]
      exact congrArg (fun r => (r.1, _ ++ [r.2])) hprocess
    -- what has left is the beginning of the longer stream too
    have hold : (delayed ops pipe config p blocks.flatten).take blocks.flatten.length =
        (delayed ops pipe config p (blocks.flatten ++ block)).take blocks.flatten.length := by
      obtain ⟨rest, hrest⟩ := carried_append ops pipe hfits p blocks.flatten block
      have hcovers := transport_covers hfits blocks.flatten.length
      have hlength := length_carried hpipe config p blocks.flatten
      unfold delayed
      rw [← hrest, ← List.append_assoc]
      refine (List.take_append_of_le_length ?_).symm
      rw [List.length_append, List.length_replicate, hlength]
      exact hcovers
    refine ⟨outs ++ [((delayed ops pipe config p (blocks.flatten ++ block)).drop blocks.flatten.length).take block.length],
      ?_, ?_, ?_, ?_⟩
    · rw [hrun, houts, List.map_append, List.map_singleton]
    · rw [List.map_append, List.map_singleton, length_delayed_part hfits hpipe, hlengths, List.map_append, List.map_singleton]
    · rw [List.flatten_append, List.flatten_singleton, hflat, hold, List.flatten_append, List.flatten_singleton,
        List.length_append, ← List.take_add]
    · rw [hrun, List.flatten_append, List.flatten_singleton]
      exact hnext

end Run

/-! ## Preparation -/

section Prepare

variable {memalign : ℕ → Bool} {parts : Parts F} {config : IemEngineConfig} {params : IemParams F} {s : IemStream F S P}

theorem engine_fits {engine : IemEngine F} (h : IemEngine.prepare parts config params = some engine) :
    configFits config = true := by
  by_contra hfits
  unfold IemEngine.prepare at h
  rw [if_neg hfits] at h
  cases h

/-- an enabled engine that has just been prepared streams -/
theorem prepare_streams (h : IemStream.prepare ops pipe memalign parts config params = some s)
    (henable : params.enable = true) :
    configFits config = true ∧ ∃ inputCapacity outputCapacity, Rooms config inputCapacity outputCapacity ∧
      Streams ops pipe config (pipe.prepared params) inputCapacity outputCapacity s [] := by
  unfold IemStream.prepare at h
  simp only [Option.bind_eq_bind, Option.bind_eq_some_iff, Option.pure_def, guard] at h
  obtain ⟨engine, hengine, inputResampler, hinput, -, -, outputResampler, houtput, -, -, -, -, -, -, inputScheduler, hscheduler,
    outputFifo, hfifo, hs⟩ := h
  obtain rfl := Option.some.inj hs
  have hfits := engine_fits hengine
  obtain ⟨hinputQueue, haligned, hinputRoom⟩ := prepare_queue hscheduler
  obtain ⟨houtputQueue, -, houtputRoom⟩ := prepare_queue hfifo
  obtain ⟨pipeline, -, rfl⟩ := IemEngine.prepare_eq hengine
  have hzero : outputFrames (inputResamplerConfig config) 0 = 0 := outputFrames_zero (inputRates hfits)
  have hzero' : outputFrames (outputResamplerConfig config) 0 = 0 := outputFrames_zero (outputRates hfits)
  have hlatency : transportLatency config ≤ engineLatency config pipeline := Nat.le_add_right _ _
  refine ⟨hfits, _, _, ⟨le_trans ?_ hinputRoom, le_trans ?_ houtputRoom⟩, ?_⟩
  · omega
  · dsimp only
    omega
  · exact
      { prepared := rfl
        enabled := henable
        mix := if_pos henable
        target := if_pos henable
        emitted := rfl
        transport := rfl
        scratch := rfl
        resampler := by
          rw [List.length_nil, hzero]
          exact prepare_tracks hinput
        carries := by
          rw [List.length_nil, hzero, Nat.zero_sub]
          exact
            { scratch := rfl
              scheduler := by
                rw [List.drop_eq_nil_of_le (by rw [length_internalStream, List.length_nil, hzero]; exact Nat.zero_le _)]
                exact hinputQueue
              aligned := haligned
              pipeline := rfl
              resampler := by
                rw [Nat.zero_div, Nat.mul_zero, hzero']
                exact prepare_tracks houtput
              made := Nat.zero_le _
              fifo := by
                have hnone : resample ops.toFrameOps (outputResamplerConfig config) ([] : List S) = [] := by
                  rw [resample, List.length_nil, hzero']
                  rfl
                have hpiped : pipedFrames pipe (pipe.prepared params) (0 / PlanarBlockScheduler.kBlockFrames)
                    (internalStream ops config []) = [] := rfl
                rw [hpiped, hnone]
                exact houtputQueue } }

/-- **The streaming law.** No block of an engine that was prepared enabled fails, every block leaves with its length, and what
leaves is the silence of the transport followed by the whole input resampled to 96 kHz, through the pipeline in blocks of 256
frames and resampled back. How the host splits its input is of no consequence. -/
theorem streaming_law (h : IemStream.prepare ops pipe memalign parts config params = some s) (henable : params.enable = true)
    (hpipe : Succeeds ops.toFrameOps pipe) (hmix : MixesFully ops) {blocks : List (List S)}
    (hblocks : ∀ block ∈ blocks, block ≠ [] ∧ block.length ≤ config.maxHostBlockFrames ∧ ∀ x ∈ block, ops.isFinite x = true)
    (hsmall : blocks.flatten.length < 2 ^ 40) :
    ∃ outs : List (List S), (s.run ops pipe blocks).2 = outs.map .ok ∧ outs.map List.length = blocks.map List.length ∧
      outs.flatten = (List.replicate s.transportLatencyFrames 0 ++ carried ops pipe config (pipe.prepared params)
        blocks.flatten).take blocks.flatten.length := by
  obtain ⟨hfits, inputCapacity, outputCapacity, hrooms, hstreams⟩ := prepare_streams h henable
  obtain ⟨outs, houts, hlengths, hflat, -⟩ := hstreams.run hfits hpipe hmix hrooms hblocks hsmall
  rw [hstreams.transport]
  exact ⟨outs, houts, hlengths, hflat⟩

/-- the center of the filter is the frame that is made -/
def centerSamples : EngineSamples ℚ where
  isFinite := fun _ => true
  builds := fun _ _ => true
  filter := fun _ _ _ taps => taps ⟨31, by decide⟩
  mix := fun mix x y => x * (1 - mix) + y * mix

/-- a pipeline that halves every frame -/
def halving : PipelineOps Unit ℚ Unit where
  prepared := fun _ => ()
  process := fun p block => (p, some (block.map fun x => x / 2))
  reset := id

def streamConfig : IemEngineConfig := { hostSampleRate := 48000, maxHostBlockFrames := 300 }

def onesThenTwos : List (List ℚ) := [List.replicate 300 1, List.replicate 100 2]

theorem streaming_law_halved :
    ∃ (s : IemStream Unit ℚ Unit) (outs : List (List ℚ)),
      IemStream.prepare centerSamples halving (fun size => decide (size < 2 ^ 32)) unitParts streamConfig
        (withEnable true) = some s ∧
      s.transportLatencyFrames = 180 ∧ (s.run centerSamples halving onesThenTwos).2 = outs.map .ok ∧
      outs.map List.length = [300, 100] ∧
      outs.flatten = (List.replicate s.transportLatencyFrames 0 ++ carried centerSamples halving streamConfig
        (halving.prepared (withEnable true)) onesThenTwos.flatten).take onesThenTwos.flatten.length := by
  obtain ⟨s, hs⟩ := Option.isSome_iff_exists.mp (show (IemStream.prepare centerSamples halving
    (fun size => decide (size < 2 ^ 32)) unitParts streamConfig (withEnable true)).isSome = true by
      decide +kernel)
  have hpipe : Succeeds centerSamples.toFrameOps halving := by
    intro p block hblock
    exact ⟨_, rfl, (List.length_map _).trans hblock, fun _ _ => rfl⟩
  have hmix : MixesFully centerSamples := by
    intro x y _
    simp [centerSamples]
  have hblocks : ∀ block ∈ onesThenTwos, block ≠ [] ∧ block.length ≤ streamConfig.maxHostBlockFrames ∧
      ∀ x ∈ block, centerSamples.isFinite x = true := by
    intro block hblock
    simp only [onesThenTwos, List.mem_cons, List.not_mem_nil, or_false] at hblock
    rcases hblock with rfl | rfl
    · exact ⟨List.cons_ne_nil _ _, (List.length_replicate (n := 300)).le, fun _ _ => rfl⟩
    · exact ⟨List.cons_ne_nil _ _, (List.length_replicate (n := 100)).le.trans (by decide), fun _ _ => rfl⟩
  have htotal : onesThenTwos.flatten.length < 2 ^ 40 := by
    rw [onesThenTwos, List.flatten_cons, List.flatten_singleton, List.length_append, List.length_replicate,
      List.length_replicate]
    decide
  obtain ⟨outs, houts, hlengths, hflat⟩ := streaming_law hs rfl hpipe hmix hblocks htotal
  refine ⟨s, outs, hs, ?_, houts, ?_, hflat⟩
  · obtain ⟨-, _, _, -, hstreams⟩ := prepare_streams hs rfl
    exact hstreams.transport
  · rw [hlengths, onesThenTwos, List.map_cons, List.map_singleton, List.length_replicate, List.length_replicate]

end Prepare


end IemStream

end ViperFx.Iem.Record
