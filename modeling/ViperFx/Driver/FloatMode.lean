/-
The floating-point mode of the audio thread: `ViperContext::Process` with the control register of the processor.

The register is read and flush-to-zero set as soon as the buffers of the block are known to be usable, and written back where the
conversions fail and at the end. The returns in between, for want of a graph, for a block that is too long or that a graph rejects,
leave it as it was set. What `Process` does to the context is `EffectContext.process`.

Results:
  · process_context : apart from the register, this is the block of `EffectContext`
  · register_kept   : exactly when the register is at the end what it was at the beginning
-/
import ViperFx.Driver.SetConfig

namespace ViperFx.Driver

open ViperFx.Protocol ViperFx.Channel

/-- the audio thread: the context it processes, and its control register: FPCR with 64 bits, FPSCR with 32 -/
structure AudioThread (E : Engine) (w : ℕ) where
  context : EffectContext E
  fpcr : BitVec w

/-- flush-to-zero is bit 24 of both registers -/
def flushToZero (w : ℕ) : BitVec w := 1#w <<< 24

namespace AudioThread

variable {E : Engine} (O : EngineOps E) {w : ℕ}

/-- the block from the graphs on; `orig` is what the register held at the beginning -/
def runGraphs (t : AudioThread E w) (orig : BitVec w) (frames : ℕ) : AudioThread E w × ProcessOutcome :=
  let s := t.context
  match s.dsp.graphSlots.active with
  | none => (t, .einval)
  | some active =>
    if active.1.maxFrames < frames then
      ({ t with context := s.setDisableReason .invalidFrameCount "DSP graph rejected block" }, .einval)
    else if s.dsp.graphSlots.previous.any fun previous => previous.1.maxFrames < frames then
      let s := s.mapSlots fun g => { g with active := some (active.1, O.process active.2 frames) }
      ({ t with context := s.setDisableReason .invalidFrameCount "Previous DSP graph rejected block" }, .einval)
    else
      let remaining := s.remainingFrames - frames
      let s := { s.mapSlots fun g => g.mapRunning fun graph => O.process graph frames with remainingFrames := remaining }
      let s := if remaining = 0 then s.mapSlots (·.releasePrevious) else s
      let s := { s with dsp := { s.dsp with iemContext := O.processIem s.dsp.iemContext frames } }
      if isSupportedPcmFormat s.config.outputCfg.format then ({ context := s, fpcr := orig }, .processed active.1)
      else
        ({ context := s.setDisableReason .invalidFormat "Failed to encode output PCM", fpcr := orig }, .einval)

/-- the block from the swap on -/
def processBlock (t : AudioThread E w) (orig : BitVec w) (frames elapsed : ℕ) : AudioThread E w × ProcessOutcome :=
  let s := t.context.swapPending
  if s.dsp.graphSlots.active.isNone then ({ t with context := s }, .einval)
  else
    let s := (s.consumeLatest O).restart O elapsed
    if s.bufferFrameCount < frames then
      let message := "Process frame count exceeds prepared capacity: " ++ toString frames
      ({ t with context := s.setDisableReason .invalidFrameCount message }, .einval)
    else if ¬ isSupportedPcmFormat s.config.inputCfg.format then
      ({ context := s.setDisableReason .invalidFormat "Failed to decode input PCM", fpcr := orig }, .einval)
    else runGraphs O { t with context := s } orig frames

def process (t : AudioThread E w) (inBuffer outBuffer : Option AudioBuffer) (elapsed : ℕ) :
    AudioThread E w × ProcessOutcome :=
  let s := t.context
  if s.dsp.disableReason ≠ .none then (t, .einval)
  else if ¬ s.dsp.enable then (t, .enodata)
  else match EffectContext.blockFrames s.config inBuffer outBuffer with
    | none => (t, .einval)
    | some frames =>
      let orig := t.fpcr
      processBlock O { t with fpcr := orig ||| flushToZero w } orig frames elapsed

/-! ## The context -/

theorem runGraphs_context (t : AudioThread E w) (orig : BitVec w) (frames : ℕ) :
    ((runGraphs O t orig frames).1.context, (runGraphs O t orig frames).2) = t.context.runGraphs O frames := by
  unfold runGraphs EffectContext.runGraphs
  dsimp only
  cases t.context.dsp.graphSlots.active with
  | none => rfl
  | some active =>
    dsimp only
    split_ifs <;> rfl

theorem processBlock_context (t : AudioThread E w) (orig : BitVec w) (frames elapsed : ℕ) :
    ((processBlock O t orig frames elapsed).1.context, (processBlock O t orig frames elapsed).2) =
      t.context.processBlock O frames elapsed := by
  unfold processBlock EffectContext.processBlock
  dsimp only
  split_ifs
  · rfl
  · rfl
  · exact runGraphs_context O _ orig frames
  · rfl

/-- the block is that of the context -/
theorem process_context (t : AudioThread E w) (inBuffer outBuffer : Option AudioBuffer) (elapsed : ℕ) :
    ((process O t inBuffer outBuffer elapsed).1.context, (process O t inBuffer outBuffer elapsed).2) =
      t.context.process O inBuffer outBuffer elapsed := by
  unfold process EffectContext.process
  dsimp only
  split_ifs
  · rfl
  · cases EffectContext.blockFrames t.context.config inBuffer outBuffer with
    | none => rfl
    | some frames => exact processBlock_context O _ t.fpcr frames elapsed
  · rfl

end AudioThread

/-! ## The register -/

namespace EffectContext

variable {E : Engine}

/-- the graph that a block fades out: the previous one, or the one that the pending graph replaces at the same rate; none when the
block restarts the graphs -/
def fading (s : EffectContext E) (elapsed : ℕ) : Option DspGraphConfig :=
  if s.hasProcessed ∧ elapsed ≤ 100 then
    match s.dsp.graphSlots.configs.pending with
    | none => s.dsp.graphSlots.configs.previous
    | some pending =>
      if s.dsp.graphSlots.configs.active.any fun active => active.sampleRate ≠ pending.sampleRate then none
      else s.dsp.graphSlots.configs.active
  else none

/-- a block of this length comes to one of the places that write the register back: there is a graph for it, the buffers are long
enough, and if the input can be decoded, so are the blocks of the graphs -/
def Restores (s : EffectContext E) (frames elapsed : ℕ) : Prop :=
  frames ≤ s.bufferFrameCount ∧ ∃ graph, s.dsp.graphSlots.configs.next = some graph ∧
    (isSupportedPcmFormat s.config.inputCfg.format = true →
      frames ≤ graph.maxFrames ∧ ∀ previous ∈ s.fading elapsed, frames ≤ previous.maxFrames)

variable (O : EngineOps E)

theorem swapPending_previous (s : EffectContext E) :
    s.swapPending.dsp.graphSlots.configs.previous =
      match s.dsp.graphSlots.configs.pending with
      | none => s.dsp.graphSlots.configs.previous
      | some pending =>
        if s.dsp.graphSlots.configs.active.any fun active => active.sampleRate ≠ pending.sampleRate then none
        else s.dsp.graphSlots.configs.active := by
  unfold swapPending
  cases hpending : s.dsp.graphSlots.pending with
  | none => simp [DspGraphSlots.configs, hpending]
  | some pending =>
    have hconfigs : s.dsp.graphSlots.configs.pending = some pending.1 := by simp [DspGraphSlots.configs, hpending]
    have hany : (s.dsp.graphSlots.configs.active.any fun active => active.sampleRate ≠ pending.1.sampleRate) =
        s.dsp.graphSlots.active.any fun active => active.1.sampleRate ≠ pending.1.sampleRate := by
      cases hactive : s.dsp.graphSlots.active <;> simp [DspGraphSlots.configs, hactive]
    have hconsumed : s.dsp.graphSlots.consumePending.configs.previous = s.dsp.graphSlots.configs.active := by
      simp [DspGraphSlots.consumePending, DspGraphSlots.configs, hpending]
    rw [hconfigs]
    dsimp only
    rw [hany]
    split_ifs
    · rfl
    · exact hconsumed

theorem swapPending_hasProcessed (s : EffectContext E) : s.swapPending.hasProcessed = s.hasProcessed := by
  unfold swapPending
  cases s.dsp.graphSlots.pending with
  | none => rfl
  | some pending =>
    dsimp only
    split_ifs <;> rfl

theorem consumeLatest_hasProcessed (s : EffectContext E) : (s.consumeLatest O).hasProcessed = s.hasProcessed := by
  unfold consumeLatest
  cases s.dsp.parameterMailbox <;> rfl

/-- the previous graph that a block runs beside the active one -/
theorem prelude_previous (s : EffectContext E) (elapsed : ℕ) :
    ((s.swapPending.consumeLatest O).restart O elapsed).dsp.graphSlots.configs.previous = s.fading elapsed := by
  have hprocessed : (s.swapPending.consumeLatest O).hasProcessed = s.hasProcessed :=
    (consumeLatest_hasProcessed O _).trans (swapPending_hasProcessed s)
  unfold restart fading
  rw [hprocessed]
  split_ifs with hrecent
  · rw [consumeLatest_configs, swapPending_previous]
  · rfl

end EffectContext

namespace AudioThread

variable {E : Engine} (O : EngineOps E) {w : ℕ}

theorem runGraphs_fpcr (t : AudioThread E w) (orig : BitVec w) (frames : ℕ) {graph : DspGraphConfig}
    (hactive : t.context.dsp.graphSlots.configs.active = some graph) :
    (runGraphs O t orig frames).1.fpcr =
      if frames ≤ graph.maxFrames ∧ ∀ previous ∈ t.context.dsp.graphSlots.configs.previous, frames ≤ previous.maxFrames then orig
      else t.fpcr := by
  unfold runGraphs
  dsimp only
  cases hslot : t.context.dsp.graphSlots.active with
  | none => simp [DspGraphSlots.configs, hslot] at hactive
  | some active =>
    obtain rfl : active.1 = graph := by simpa [DspGraphSlots.configs, hslot] using hactive
    have hprevious : (t.context.dsp.graphSlots.previous.any fun previous => previous.1.maxFrames < frames) = true ↔
        ¬∀ previous ∈ t.context.dsp.graphSlots.configs.previous, frames ≤ previous.maxFrames := by
      cases hprev : t.context.dsp.graphSlots.previous <;> simp [DspGraphSlots.configs, hprev]
    dsimp only
    by_cases hlong : active.1.maxFrames < frames
    · rw [if_pos hlong, if_neg fun h => absurd h.1 (Nat.not_le.mpr hlong)]
    · rw [if_neg hlong]
      by_cases hrejected : ∀ previous ∈ t.context.dsp.graphSlots.configs.previous, frames ≤ previous.maxFrames
      · have hfits : frames ≤ active.1.maxFrames ∧
            ∀ previous ∈ t.context.dsp.graphSlots.configs.previous, frames ≤ previous.maxFrames :=
          ⟨Nat.not_lt.mp hlong, hrejected⟩
        rw [if_pos hfits, if_neg fun h => hprevious.mp h hrejected]
        split_ifs <;> rfl
      · rw [if_pos (hprevious.mpr hrejected), if_neg fun h => hrejected h.2]

theorem processBlock_fpcr (t : AudioThread E w) (orig : BitVec w) (frames elapsed : ℕ) [Decidable (t.context.Restores frames elapsed)] :
    (processBlock O t orig frames elapsed).1.fpcr = if t.context.Restores frames elapsed then orig else t.fpcr := by
  have hsame := EffectContext.prelude_same O t.context elapsed
  have hactive := EffectContext.prelude_active O t.context elapsed
  have hprevious := EffectContext.prelude_previous O t.context elapsed
  have hnext := EffectContext.swapPending_active t.context
  have hempty : t.context.swapPending.dsp.graphSlots.active.isNone = true ↔ t.context.dsp.graphSlots.configs.next = none := by
    rw [← hnext]
    simp [DspGraphSlots.configs]
  unfold processBlock
  dsimp only
  by_cases hnone : t.context.swapPending.dsp.graphSlots.active.isNone = true
  · rw [if_pos hnone, if_neg]
    rintro ⟨-, graph, hgraph, -⟩
    rw [hempty.mp hnone] at hgraph
    cases hgraph
  · rw [if_neg hnone]
    obtain ⟨graph, hgraph⟩ := Option.ne_none_iff_exists'.mp fun h => hnone (hempty.mpr h)
    rw [hsame.bufferFrameCount, hsame.config]
    by_cases hcount : t.context.bufferFrameCount < frames
    · rw [if_pos hcount, if_neg fun h => absurd h.1 (Nat.not_le.mpr hcount)]
    · rw [if_neg hcount]
      by_cases hformat : isSupportedPcmFormat t.context.config.inputCfg.format = true
      · rw [if_neg (not_not.mpr hformat), runGraphs_fpcr O _ orig frames (hactive.trans hgraph)]
        dsimp only
        rw [hprevious]
        refine if_congr ?_ rfl rfl
        constructor
        · intro hfit
          exact ⟨Nat.not_lt.mp hcount, graph, hgraph, fun _ => hfit⟩
        · rintro ⟨-, graph', hgraph', hfit⟩
          obtain rfl := Option.some.inj (hgraph.symm.trans hgraph')
          exact hfit hformat
      · rw [if_pos hformat, if_pos ⟨Nat.not_lt.mp hcount, graph, hgraph, fun h => absurd h hformat⟩]

/-- **The register after a block.** It is what it was exactly when flush-to-zero had been set before, or the block ends before the
register is touched, or it comes to one of the places that write the register back. -/
theorem register_kept (t : AudioThread E w) (inBuffer outBuffer : Option AudioBuffer) (elapsed : ℕ) :
    (process O t inBuffer outBuffer elapsed).1.fpcr = t.fpcr ↔
      t.fpcr ||| flushToZero w = t.fpcr ∨ t.context.dsp.disableReason ≠ .none ∨ t.context.dsp.enable = false ∨
        ∀ frames ∈ EffectContext.blockFrames t.context.config inBuffer outBuffer, t.context.Restores frames elapsed := by
  classical
  unfold process
  dsimp only
  by_cases hdisabled : t.context.dsp.disableReason ≠ .none
  · rw [if_pos hdisabled]
    exact ⟨fun _ => .inr (.inl hdisabled), fun _ => rfl⟩
  · rw [if_neg hdisabled]
    cases henable : t.context.dsp.enable with
    | false => simp
    | true =>
      rw [if_neg (by decide)]
      cases hframes : EffectContext.blockFrames t.context.config inBuffer outBuffer with
      | none => simp
      | some frames =>
        dsimp only
        rw [processBlock_fpcr]
        by_cases hrestores : t.context.Restores frames elapsed
        · rw [if_pos hrestores]
          simp [hrestores]
        · rw [if_neg hrestores]
          simp [hrestores, hdisabled]

end AudioThread

/-- 8193 frames for a context configured for 8192: the register keeps flush-to-zero -/
theorem AudioThread.register_leaked :
    let t : AudioThread plainEngine 64 :=
      ⟨EffectContext.after plainOps [.setConfig (stereoFloat 48000), .command .enable], 0⟩
    (AudioThread.process plainOps t (some ⟨8193, true⟩) (some ⟨8193, true⟩) 0).1.fpcr = flushToZero 64 ∧
      flushToZero 64 ≠ t.fpcr := by
  decide

end ViperFx.Driver
