/-
SET_CONFIG against the blocks and commands around it: `ViperContext::HandleSetConfig`, `Process` and `HandleCommand` of
`src/ViperContext.cpp`, with `src/DspGraph.cpp` and `src/AudioFormat.cpp`.

Commands and blocks take turns here; `SnapshotCommit` and `Playback` have the audio thread amid a command. Of a block the
model has its length and its buffers' pointers, not its samples: what a block does to a graph is `EngineOps`.

`PreparePending` refuses while the previous graph is held for its crossfade, and a refusal leaves the context disabled:
`Process` then returns before it could release that graph. RESET and ENABLE release it, but do not clear the reason.

Results:
  · run_ok             : what holds of the slots in every reachable state
  · takes_effect_iff   : a valid configuration takes effect exactly when the slots have room for its graph
-/
import ViperFx.Driver.GraphSlots
import ViperFx.Driver.SnapshotCommit

namespace ViperFx.Driver

open ViperFx.Protocol ViperFx.Channel

/-! ## Configurations -/

def audioChannelOutStereo : UInt32 := 3

/-- PCM of 16, 32, 8.24 and packed 24 bits, and float -/
def isSupportedPcmFormat (format : UInt8) : Bool :=
  format == 1 || format == 3 || format == 4 || format == 5 || format == 6

/-- what `Process` reads of an `audio_buffer_t` -/
structure AudioBuffer where
  frameCount : ℕ := 0
  /-- the sample pointer is not null -/
  raw : Bool := false
  deriving DecidableEq

structure BufferConfig where
  buffer : AudioBuffer := {}
  samplingRate : UInt32 := 0
  channels : UInt32 := 0
  format : UInt8 := 0
  accessMode : UInt8 := 0
  mask : UInt16 := 0
  deriving DecidableEq

structure EffectConfig where
  inputCfg : BufferConfig := {}
  outputCfg : BufferConfig := {}
  deriving DecidableEq

def effectConfigBuffer : UInt16 := 0x0001
def effectConfigSmpRate : UInt16 := 0x0002
def effectConfigChannels : UInt16 := 0x0004
def effectConfigFormat : UInt16 := 0x0008
def effectConfigAccMode : UInt16 := 0x0010

def BufferConfig.has (config : BufferConfig) (bit : UInt16) : Bool := config.mask &&& bit ≠ 0

def copyBufferConfig (dest src : BufferConfig) : BufferConfig where
  buffer := if src.has effectConfigBuffer then src.buffer else dest.buffer
  samplingRate := if src.has effectConfigSmpRate then src.samplingRate else dest.samplingRate
  channels := if src.has effectConfigChannels then src.channels else dest.channels
  format := if src.has effectConfigFormat then src.format else dest.format
  accessMode := if src.has effectConfigAccMode then src.accessMode else dest.accessMode
  mask := dest.mask ||| src.mask

def EffectConfig.merge (config new : EffectConfig) : EffectConfig where
  inputCfg := copyBufferConfig config.inputCfg new.inputCfg
  outputCfg := copyBufferConfig config.outputCfg new.outputCfg

/-- the first check of HandleSetConfig that a configuration fails -/
def EffectConfig.refusal (config : EffectConfig) : Option (DisableReason × String) :=
  let i := config.inputCfg
  let o := config.outputCfg
  if i.buffer.frameCount ≠ o.buffer.frameCount then
    some (.invalidFrameCount, "Input and output frame count mismatch")
  else if i.samplingRate ≠ o.samplingRate then
    some (.invalidSamplingRate, "Input and output sampling rate mismatch")
  else if ¬ isSupportedSampleRate i.samplingRate then
    some (.invalidSamplingRate, "Unsupported sampling rate: " ++ toString i.samplingRate)
  else if i.channels ≠ o.channels then
    some (.invalidChannelCount, "Input and output channel count mismatch")
  else if i.channels ≠ audioChannelOutStereo then
    some (.invalidChannelCount, "Invalid channel count: " ++ toString i.channels)
  else if ¬ isSupportedPcmFormat i.format then
    some (.invalidFormat, "Invalid input format: " ++ toString i.format)
  else if ¬ isSupportedPcmFormat o.format then
    some (.invalidFormat, "Invalid output format: " ++ toString o.format)
  else none

theorem EffectConfig.refusal_none {config : EffectConfig} (h : config.refusal = none) :
    isSupportedSampleRate config.inputCfg.samplingRate = true ∧
      isSupportedPcmFormat config.inputCfg.format = true ∧ isSupportedPcmFormat config.outputCfg.format = true := by
  unfold EffectConfig.refusal at h
  dsimp only at h
  split_ifs at h with _ _ hrate _ _ hinput houtput
  exact ⟨hrate, hinput, houtput⟩

/-! ## A context with its audio -/

/-- what commands and blocks do to parameters and graphs of the engine -/
structure EngineOps (E : Engine) where
  /-- IemContext::DispatchRawParam takes the record -/
  isIem : RawParamRecord → Bool
  /-- UpdateParameterSnapshot answers UPDATED -/
  isUpdated : E.Params → RawParamRecord → Bool
  dispatchRawParam : E.Graph → RawParamRecord → E.Graph
  applyParams : E.Graph → E.Params → E.Graph
  reset : E.Graph → E.Graph
  process : E.Graph → ℕ → E.Graph
  prepareIem : E.Iem → UInt32 → ℕ → E.Iem
  resetIem : E.Iem → E.Iem
  processIem : E.Iem → ℕ → E.Iem

structure EffectContext (E : Engine) where
  dsp : Dsp E := {}
  config : EffectConfig := {}
  bufferFrameCount : ℕ := 0
  hasProcessed : Bool := false
  /-- the frames left of the active graph's transition; 0 when it is not active -/
  remainingFrames : ℕ := 0

namespace DspGraphSlots

variable {E : Engine}

def prepareInitial (g : DspGraphSlots E) (config : DspGraphConfig) (params : E.Params) (resources : DspResources) :
    Option (DspGraphSlots E) :=
  if g.active.isSome ∨ g.pending.isSome ∨ g.previous.isSome then none
  else (E.prepare config params resources).map fun graph => { g with active := some (config, graph) }

/-- the staging of HandleSetConfig: a superseded pending graph goes first -/
def stage (g : DspGraphSlots E) (config : DspGraphConfig) (params : E.Params) (resources : DspResources) :
    Option (DspGraphSlots E) :=
  let g := g.retractPending
  if g.active.isNone then g.prepareInitial config params resources else g.preparePending config params resources

/-- every graph that a slot names -/
def mapGraphs (f : E.Graph → E.Graph) (g : DspGraphSlots E) : DspGraphSlots E where
  active := g.active.map (Prod.map id f)
  pending := g.pending.map (Prod.map id f)
  previous := g.previous.map (Prod.map id f)

/-- the graphs that a block runs on -/
def mapRunning (f : E.Graph → E.Graph) (g : DspGraphSlots E) : DspGraphSlots E where
  active := g.active.map (Prod.map id f)
  pending := g.pending
  previous := g.previous.map (Prod.map id f)

end DspGraphSlots

inductive ProcessOutcome where
  | einval
  | enodata
  /-- the block ran on the graph with this configuration -/
  | processed (graph : DspGraphConfig)
  deriving DecidableEq

namespace EffectContext

variable {E : Engine}

def setDisableReason (reason : DisableReason) (message : String) (s : EffectContext E) : EffectContext E :=
  { s with dsp := { s.dsp with disableReason := reason, disableReasonMessage := message } }

def mapSlots (f : DspGraphSlots E → DspGraphSlots E) (s : EffectContext E) : EffectContext E :=
  { s with dsp := { s.dsp with graphSlots := f s.dsp.graphSlots } }

/-- Transition().StartDryToWet() of the active graph -/
def startDryToWet (s : EffectContext E) : EffectContext E :=
  { s with remainingFrames := (s.dsp.graphSlots.active.map fun graph => transitionFrames graph.1.sampleRate).getD 0 }

section Steps

variable (O : EngineOps E)

/-- HandleSetConfig -/
def setConfig (s : EffectContext E) (new : EffectConfig) : EffectContext E :=
  let config := s.config.merge new
  let s := { s with config := config, dsp := { s.dsp with samplingRate := config.inputCfg.samplingRate } }
  match config.refusal with
  | some (reason, message) => s.setDisableReason reason message
  | none =>
    let graphConfig : DspGraphConfig := ⟨config.inputCfg.samplingRate, E.maxBlockFrames, s.dsp.graphGeneration + 1⟩
    let s := { s with bufferFrameCount := E.maxBlockFrames }
    match s.dsp.graphSlots.stage graphConfig s.dsp.parameterSnapshot s.dsp.resources with
    | none => (s.mapSlots (·.retractPending)).setDisableReason .unknown "Failed to prepare DSP graph"
    | some prepared =>
      let s := s.setDisableReason .none ""
      let s := { s with dsp := { s.dsp with
        graphSlots := prepared
        graphGeneration := graphConfig.generation
        iemContext := O.prepareIem s.dsp.iemContext config.inputCfg.samplingRate E.maxBlockFrames } }
      if prepared.pending.isNone then s.startDryToWet else s

def resetGraphs (s : EffectContext E) : EffectContext E :=
  let s := s.mapSlots fun g => (g.mapGraphs O.reset).releasePrevious
  { s with remainingFrames := 0, dsp := { s.dsp with iemContext := O.resetIem s.dsp.iemContext } }

/-- EFFECT_CMD_ENABLE -/
def enable (s : EffectContext E) : EffectContext E :=
  let s := s.resetGraphs O
  { s with hasProcessed := false, dsp := { s.dsp with enable := true } }

/-- EFFECT_CMD_DISABLE -/
def disable (s : EffectContext E) : EffectContext E := { s with dsp := { s.dsp with enable := false } }

/-- DispatchRawParam -/
def dispatchRawParam (s : EffectContext E) (r : RawParamRecord) : EffectContext E :=
  if O.isIem r then { s with dsp := { s.dsp with iemContext := E.dispatchIem s.dsp.iemContext r } }
  else
    let before := s.dsp.parameterSnapshot
    let params := (E.updateParameterSnapshot before r).getD before
    let resources := (s.dsp.resources.captureRaw E.ids E.kernelCrc r).1
    let s := { s with dsp := { s.dsp with parameterSnapshot := params, resources := resources } }
    if O.isUpdated before r then { s with dsp := { s.dsp with parameterMailbox := some params } }
    else s.mapSlots fun g => g.mapGraphs fun graph => O.dispatchRawParam graph r

def commitSnapshot (s : EffectContext E) (request : CommitRequest) : EffectContext E :=
  { s with dsp := (commitDaemonSnapshot E s.dsp request).1 }

/-! ## Blocks -/

def getBuffer (config : BufferConfig) (buffer : Option AudioBuffer) : Option AudioBuffer :=
  match buffer with
  | some buffer => some buffer
  | none => if config.has effectConfigBuffer then some config.buffer else none

/-- the frames of a block whose buffers are usable -/
def blockFrames (config : EffectConfig) (inBuffer outBuffer : Option AudioBuffer) : Option ℕ :=
  match getBuffer config.inputCfg inBuffer, getBuffer config.outputCfg outBuffer with
  | some i, some o => if i.raw ∧ o.raw ∧ i.frameCount = o.frameCount ∧ i.frameCount ≠ 0 then some i.frameCount else none
  | _, _ => none

/-- ConsumePending, with the transition of a swapped-in graph -/
def swapPending (s : EffectContext E) : EffectContext E :=
  match s.dsp.graphSlots.pending with
  | none => s
  | some pending =>
    let changed := s.dsp.graphSlots.active.any fun active => active.1.sampleRate ≠ pending.1.sampleRate
    let s := (s.mapSlots (·.consumePending)).startDryToWet
    if changed then s.mapSlots (·.releasePrevious) else s

/-- ConsumeLatest: parameters published since the last block reach the graphs that this block runs on -/
def consumeLatest (s : EffectContext E) : EffectContext E :=
  match s.dsp.parameterMailbox with
  | none => s
  | some params =>
    let s := s.mapSlots fun g => g.mapRunning fun graph => O.applyParams graph params
    { s with dsp := { s.dsp with parameterMailbox := none } }

/-- the first block, or a block more than 100 ms after the one before it -/
def restart (s : EffectContext E) (elapsed : ℕ) : EffectContext E :=
  if s.hasProcessed ∧ elapsed ≤ 100 then s
  else
    let s := (s.mapSlots fun g => { g with active := g.active.map (Prod.map id O.reset) }).startDryToWet
    let s := s.mapSlots (·.releasePrevious)
    { s with hasProcessed := true, dsp := { s.dsp with iemContext := O.resetIem s.dsp.iemContext } }

/-- DspGraph::Process on the active and the previous graph, the transition between them, and the IEM chain -/
def runGraphs (s : EffectContext E) (frames : ℕ) : EffectContext E × ProcessOutcome :=
  match s.dsp.graphSlots.active with
  | none => (s, .einval)
  | some active =>
    if active.1.maxFrames < frames then (s.setDisableReason .invalidFrameCount "DSP graph rejected block", .einval)
    else if s.dsp.graphSlots.previous.any fun previous => previous.1.maxFrames < frames then
      let s := s.mapSlots fun g => { g with active := some (active.1, O.process active.2 frames) }
      (s.setDisableReason .invalidFrameCount "Previous DSP graph rejected block", .einval)
    else
      let remaining := s.remainingFrames - frames
      let s := { s.mapSlots fun g => g.mapRunning fun graph => O.process graph frames with remainingFrames := remaining }
      let s := if remaining = 0 then s.mapSlots (·.releasePrevious) else s
      let s := { s with dsp := { s.dsp with iemContext := O.processIem s.dsp.iemContext frames } }
      if isSupportedPcmFormat s.config.outputCfg.format then (s, .processed active.1)
      else (s.setDisableReason .invalidFormat "Failed to encode output PCM", .einval)

def processBlock (s : EffectContext E) (frames elapsed : ℕ) : EffectContext E × ProcessOutcome :=
  let s := s.swapPending
  if s.dsp.graphSlots.active.isNone then (s, .einval)
  else
    let s := (s.consumeLatest O).restart O elapsed
    if s.bufferFrameCount < frames then
      (s.setDisableReason .invalidFrameCount
        ("Process frame count exceeds prepared capacity: " ++ toString frames), .einval)
    else if ¬ isSupportedPcmFormat s.config.inputCfg.format then
      (s.setDisableReason .invalidFormat "Failed to decode input PCM", .einval)
    else s.runGraphs O frames

def process (s : EffectContext E) (inBuffer outBuffer : Option AudioBuffer) (elapsed : ℕ) :
    EffectContext E × ProcessOutcome :=
  if s.dsp.disableReason ≠ .none then (s, .einval)
  else if ¬ s.dsp.enable then (s, .enodata)
  else match blockFrames s.config inBuffer outBuffer with
    | none => (s, .einval)
    | some frames => s.processBlock O frames elapsed

end Steps

end EffectContext

/-- what the control side asks of a context between blocks -/
inductive ContextCommand where
  | reset
  | enable
  | disable
  | setParam (record : RawParamRecord)
  | commitSnapshot (request : CommitRequest)

inductive ContextEvent where
  | setConfig (new : EffectConfig)
  | command (command : ContextCommand)
  | block (inBuffer outBuffer : Option AudioBuffer) (elapsed : ℕ)

section Runs

variable {E : Engine} (O : EngineOps E)

def ContextCommand.run (s : EffectContext E) : ContextCommand → EffectContext E
  | .reset => s.resetGraphs O
  | .enable => s.enable O
  | .disable => s.disable
  | .setParam record => s.dispatchRawParam O record
  | .commitSnapshot request => s.commitSnapshot request

def ContextEvent.run (s : EffectContext E) : ContextEvent → EffectContext E
  | .setConfig new => s.setConfig O new
  | .command c => c.run O s
  | .block inBuffer outBuffer elapsed => (s.process O inBuffer outBuffer elapsed).1

/-- a context after a history of configurations, commands and blocks -/
def EffectContext.after (events : List ContextEvent) : EffectContext E :=
  events.foldl (fun s event => event.run O s) {}

/-- a context after further commands, none of them SET_CONFIG -/
def EffectContext.commanded (s : EffectContext E) (commands : List ContextCommand) : EffectContext E :=
  commands.foldl (fun s command => command.run O s) s

end Runs

/-! ## What holds in every reachable state -/

/-- the configurations of the graphs in the slots -/
structure SlotConfigs where
  active : Option DspGraphConfig
  pending : Option DspGraphConfig
  previous : Option DspGraphConfig

namespace SlotConfigs

/-- the graph that the next block runs on -/
def next (c : SlotConfigs) : Option DspGraphConfig := c.pending.or c.active

structure Ok (maxFrames : ℕ) (generation : UInt64) (c : SlotConfigs) : Prop where
  activeFits : ∀ g ∈ c.active, g.maxFrames = maxFrames ∧ g.generation ≤ generation
  pendingFits : ∀ g ∈ c.pending, g.maxFrames = maxFrames ∧ g.generation ≤ generation
  previousFits : ∀ g ∈ c.previous, g.maxFrames = maxFrames
  bare : c.active = none → c.pending = none ∧ c.previous = none

variable {maxFrames : ℕ} {generation : UInt64} {c : SlotConfigs}

theorem Ok.retract (h : Ok maxFrames generation c) : Ok maxFrames generation { c with pending := none } where
  activeFits := h.activeFits
  pendingFits := by simp
  previousFits := h.previousFits
  bare := fun hactive => ⟨rfl, (h.bare hactive).2⟩

theorem Ok.release (h : Ok maxFrames generation c) : Ok maxFrames generation { c with previous := none } where
  activeFits := h.activeFits
  pendingFits := h.pendingFits
  previousFits := by simp
  bare := fun hactive => ⟨(h.bare hactive).1, rfl⟩

theorem Ok.consume (h : Ok maxFrames generation c) {g : DspGraphConfig} (hpending : c.pending = some g) :
    Ok maxFrames generation ⟨some g, none, c.active⟩ where
  activeFits := by
    intro x hx
    exact h.pendingFits x (by rw [hpending]; exact hx)
  pendingFits := by simp
  previousFits := fun x hx => (h.activeFits x hx).1
  bare := by simp

/-- a graph of the next generation is staged beside the active one -/
theorem Ok.stage (h : Ok maxFrames generation c) {g a : DspGraphConfig} (hactive : c.active = some a)
    (hframes : g.maxFrames = maxFrames) (hnewer : ¬ g.generation ≤ a.generation) :
    Ok maxFrames g.generation { c with pending := some g } where
  activeFits := by
    intro x hx
    rw [hactive] at hx
    obtain rfl : a = x := by simpa using hx
    exact ⟨(h.activeFits a (by rw [hactive]; rfl)).1, UInt64.le_of_lt (UInt64.not_le.1 hnewer)⟩
  pendingFits := by
    intro x hx
    obtain rfl : g = x := by simpa using hx
    exact ⟨hframes, UInt64.le_refl _⟩
  previousFits := h.previousFits
  bare := fun hnone => absurd (hactive.symm.trans hnone) (by simp)

theorem Ok.first {g : DspGraphConfig} (hframes : g.maxFrames = maxFrames) :
    Ok maxFrames g.generation ⟨some g, none, none⟩ where
  activeFits := by
    intro x hx
    obtain rfl : g = x := by simpa using hx
    exact ⟨hframes, UInt64.le_refl _⟩
  pendingFits := by simp
  previousFits := by simp
  bare := by simp

end SlotConfigs

namespace DspGraphSlots

variable {E : Engine}

def configs (g : DspGraphSlots E) : SlotConfigs :=
  ⟨g.active.map Prod.fst, g.pending.map Prod.fst, g.previous.map Prod.fst⟩

theorem fst_map_id (f : E.Graph → E.Graph) (x : Option (DspGraphConfig × E.Graph)) :
    (x.map (Prod.map id f)).map Prod.fst = x.map Prod.fst := by
  cases x <;> rfl

@[simp] theorem configs_mapGraphs (f : E.Graph → E.Graph) (g : DspGraphSlots E) :
    (g.mapGraphs f).configs = g.configs := by
  simp only [configs, mapGraphs, fst_map_id]

@[simp] theorem configs_mapRunning (f : E.Graph → E.Graph) (g : DspGraphSlots E) :
    (g.mapRunning f).configs = g.configs := by
  simp only [configs, mapRunning, fst_map_id]

theorem configs_retractPending (g : DspGraphSlots E) : g.retractPending.configs = { g.configs with pending := none } := rfl

theorem configs_releasePrevious (g : DspGraphSlots E) :
    g.releasePrevious.configs = { g.configs with previous := none } := rfl

/-- everything PreparePending can do -/
theorem preparePending_cases (g : DspGraphSlots E) (config : DspGraphConfig) (params : E.Params)
    (resources : DspResources) :
    g.preparePending config params resources = none ∨
      ∃ g' a, g.preparePending config params resources = some g' ∧ g.configs.active = some a ∧ g.pending = none ∧
        g.previous = none ∧ ¬ config.generation ≤ a.generation ∧ g'.configs = { g.configs with pending := some config } := by
  unfold preparePending
  cases hactive : g.active with
  | none => exact .inl rfl
  | some active =>
    by_cases hrefused : g.pending.isSome ∨ g.previous.isSome ∨ config.generation ≤ active.1.generation
    · left
      dsimp only
      rw [if_pos hrefused]
    · cases hgraph : E.prepare config params resources with
      | none => left; simp [hrefused]
      | some graph =>
        right
        simp only [not_or, Option.not_isSome_iff_eq_none] at hrefused
        obtain ⟨hpending, hprevious, hnewer⟩ := hrefused
        refine ⟨{ g with pending := some (config, graph) }, active.1, ?_, ?_, hpending, hprevious, hnewer, rfl⟩
        · simp [hpending, hprevious, hnewer, hactive]
        · simp [configs, hactive]

/-- PreparePending accepts what it can prepare when nothing is in the way -/
theorem preparePending_isSome {g : DspGraphSlots E} {config a : DspGraphConfig} {params : E.Params}
    {resources : DspResources} (hactive : g.configs.active = some a) (hpending : g.pending = none)
    (hprevious : g.previous = none) (hnewer : ¬ config.generation ≤ a.generation)
    (hprepare : (E.prepare config params resources).isSome) :
    (g.preparePending config params resources).isSome := by
  unfold preparePending
  cases hslot : g.active with
  | none => simp [configs, hslot] at hactive
  | some active =>
    obtain rfl : active.1 = a := by simpa [configs, hslot] using hactive
    simp [hpending, hprevious, hnewer, hprepare]

/-- everything the staging of HandleSetConfig can do -/
theorem stage_cases (g : DspGraphSlots E) (config : DspGraphConfig) (params : E.Params) (resources : DspResources) :
    g.stage config params resources = none ∨
    (∃ g', g.stage config params resources = some g' ∧ g.active = none ∧ g'.configs = ⟨some config, none, none⟩) ∨
    ∃ g' a, g.stage config params resources = some g' ∧ g.configs.active = some a ∧ g.previous = none ∧
      ¬ config.generation ≤ a.generation ∧ g'.configs = ⟨some a, some config, none⟩ := by
  unfold stage
  dsimp only
  by_cases hnone : g.retractPending.active.isNone
  · rw [if_pos hnone]
    have hactive : g.active = none := by simpa [retractPending] using hnone
    unfold prepareInitial
    split_ifs with hbusy
    · exact .inl rfl
    · cases hgraph : E.prepare config params resources with
      | none => exact .inl rfl
      | some graph =>
        refine .inr (.inl ⟨_, rfl, hactive, ?_⟩)
        have hprevious : g.previous = none := by
          simpa [retractPending, hactive] using hbusy
        simp [configs, retractPending, hprevious]
  · rw [if_neg hnone]
    obtain hrefused | ⟨g', a, hsome, hactive, -, hprevious, hnewer, hconfigs⟩ :=
      preparePending_cases g.retractPending config params resources
    · exact .inl hrefused
    · refine .inr (.inr ⟨g', a, hsome, hactive, hprevious, hnewer, ?_⟩)
      have hfree : g.previous = none := hprevious
      have ha : g.configs.active = some a := hactive
      rw [hconfigs, configs_retractPending]
      simp only [SlotConfigs.mk.injEq, ha, true_and]
      simp [configs, hfree]

/-- the staging of HandleSetConfig goes through exactly when no crossfade holds the previous graph and the generation is
new; the first configuration always does -/
theorem stage_isSome_iff {g : DspGraphSlots E} {config : DspGraphConfig} {params : E.Params} {resources : DspResources}
    (hbare : g.active = none → g.previous = none) (hprepare : (E.prepare config params resources).isSome) :
    (g.stage config params resources).isSome ↔
      g.active = none ∨ g.previous = none ∧ ∀ a ∈ g.configs.active, ¬ config.generation ≤ a.generation := by
  constructor
  · intro hsome
    obtain hrefused | ⟨_, _, hactive, _⟩ | ⟨_, a, _, hactive, hprevious, hnewer, _⟩ :=
      stage_cases g config params resources
    · rw [hrefused] at hsome
      cases hsome
    · exact .inl hactive
    · refine .inr ⟨hprevious, ?_⟩
      intro x hx
      rw [hactive] at hx
      obtain rfl : a = x := by simpa using hx
      exact hnewer
  · intro hroom
    unfold stage
    dsimp only
    cases hslot : g.active with
    | none =>
      have hprevious := hbare hslot
      have hinitial : (g.retractPending.prepareInitial config params resources).isSome := by
        simp [prepareInitial, retractPending, hslot, hprevious, hprepare]
      simpa [retractPending, hslot] using hinitial
    | some active =>
      obtain hnone | ⟨hprevious, hnewer⟩ := hroom
      · exact absurd (hslot.symm.trans hnone) (by simp)
      · have hactive : g.configs.active = some active.1 := by simp [configs, hslot]
        have hpending : (g.retractPending.preparePending config params resources).isSome :=
          preparePending_isSome (a := active.1) hactive rfl hprevious (hnewer active.1 (by rw [hactive]; rfl)) hprepare
        have hfilled : ¬ g.retractPending.active.isNone = true := by simp [retractPending, hslot]
        rw [if_neg hfilled]
        exact hpending

end DspGraphSlots

namespace EffectContext

variable {E : Engine} (O : EngineOps E)

def Ok (s : EffectContext E) : Prop := s.dsp.graphSlots.configs.Ok E.maxBlockFrames s.dsp.graphGeneration

theorem Ok.of_configs {s s' : EffectContext E} (h : s.Ok)
    (hconfigs : s'.dsp.graphSlots.configs = s.dsp.graphSlots.configs)
    (hgeneration : s'.dsp.graphGeneration = s.dsp.graphGeneration) : s'.Ok := by
  unfold Ok at h ⊢
  rwa [hconfigs, hgeneration]

theorem Ok.released {s s' : EffectContext E} (h : s.Ok)
    (hconfigs : s'.dsp.graphSlots.configs = { s.dsp.graphSlots.configs with previous := none })
    (hgeneration : s'.dsp.graphGeneration = s.dsp.graphGeneration) : s'.Ok := by
  unfold Ok at h ⊢
  rw [hconfigs, hgeneration]
  exact h.release

theorem resetGraphs_configs (s : EffectContext E) :
    (s.resetGraphs O).dsp.graphSlots.configs = { s.dsp.graphSlots.configs with previous := none } := by
  show ((s.dsp.graphSlots.mapGraphs O.reset).releasePrevious).configs = _
  rw [DspGraphSlots.configs_releasePrevious, DspGraphSlots.configs_mapGraphs]

theorem dispatchRawParam_configs (s : EffectContext E) (r : RawParamRecord) :
    (s.dispatchRawParam O r).dsp.graphSlots.configs = s.dsp.graphSlots.configs ∧
      (s.dispatchRawParam O r).dsp.graphGeneration = s.dsp.graphGeneration := by
  unfold dispatchRawParam
  dsimp only
  split_ifs
  · exact ⟨rfl, rfl⟩
  · exact ⟨rfl, rfl⟩
  · exact ⟨DspGraphSlots.configs_mapGraphs _ _, rfl⟩

/-- everything a snapshot commit can do to the audio side -/
theorem commit_cases (d : Dsp E) (request : CommitRequest) :
    (commitDaemonSnapshot E d request).1 = d ∨
    (∃ params resources, d.disableReason = .none ∧ d.graphSlots.active.isSome ∧
      replayRecords E d.parameterSnapshot d.resources request.parameters = .ok (params, resources) ∧
      d.graphSlots.retractPending.preparePending (commitConfig E d) params resources = none ∧
      (commitDaemonSnapshot E d request).1 = { d with graphSlots := d.graphSlots.retractPending }) ∨
    ∃ prepared params resources,
      replayRecords E d.parameterSnapshot d.resources request.parameters = .ok (params, resources) ∧
      d.graphSlots.retractPending.preparePending (commitConfig E d) params resources = some prepared ∧
      (commitDaemonSnapshot E d request).1 = { d with
        graphSlots := prepared
        graphGeneration := d.graphGeneration + 1
        resources := resources
        parameterSnapshot := params
        parameterMailbox := some params
        iemContext := request.iemParameters.foldl E.dispatchIem d.iemContext
        enable := request.snapshot.masterEnabled } := by
  unfold commitDaemonSnapshot
  by_cases hdisabled : d.disableReason ≠ .none
  · left; rw [if_pos hdisabled]
  · rw [if_neg hdisabled]
    by_cases hactive : d.graphSlots.active.isNone
    · left; rw [if_pos hactive]
    · rw [if_neg hactive]
      cases hreplay : replayRecords E d.parameterSnapshot d.resources request.parameters with
      | error e => exact .inl rfl
      | ok staged =>
        obtain ⟨params, resources⟩ := staged
        right
        cases hprepared : d.graphSlots.retractPending.preparePending (commitConfig E d) params resources with
        | none =>
          left
          refine ⟨params, resources, not_not.1 hdisabled, by simpa [Option.isSome_iff_ne_none] using hactive, rfl, hprepared, ?_⟩
          dsimp only
          rw [show (⟨d.samplingRate, E.maxBlockFrames, d.graphGeneration + 1⟩ : DspGraphConfig) = commitConfig E d from rfl,
            hprepared]
        | some prepared =>
          right
          refine ⟨prepared, params, resources, rfl, hprepared, ?_⟩
          dsimp only
          rw [show (⟨d.samplingRate, E.maxBlockFrames, d.graphGeneration + 1⟩ : DspGraphConfig) = commitConfig E d from rfl,
            hprepared]

theorem commitSnapshot_ok {s : EffectContext E} (h : s.Ok) (request : CommitRequest) : (s.commitSnapshot request).Ok := by
  unfold commitSnapshot Ok
  obtain hsame | ⟨_, _, _, _, _, _, hrefused⟩ | ⟨prepared, params, resources, _, hprepared, hcommit⟩ :=
    commit_cases s.dsp request
  · rw [hsame]
    exact h
  · rw [hrefused]
    exact h.retract
  · rw [hcommit]
    obtain hnone | ⟨g', a, hsome, hactive, -, -, hnewer, hconfigs⟩ :=
      DspGraphSlots.preparePending_cases s.dsp.graphSlots.retractPending (commitConfig E s.dsp) params resources
    · rw [hnone] at hprepared
      cases hprepared
    · rw [hsome] at hprepared
      obtain rfl := Option.some.inj hprepared
      dsimp only
      rw [hconfigs]
      have hretracted : s.dsp.graphSlots.retractPending.configs.Ok E.maxBlockFrames s.dsp.graphGeneration := h.retract
      exact hretracted.stage hactive rfl hnewer

theorem command_ok {s : EffectContext E} (h : s.Ok) (c : ContextCommand) : (c.run O s).Ok := by
  cases c with
  | reset => exact h.released (resetGraphs_configs O s) rfl
  | enable => exact h.released (resetGraphs_configs O s) rfl
  | disable => exact h
  | setParam r => exact h.of_configs (dispatchRawParam_configs O s r).1 (dispatchRawParam_configs O s r).2
  | commitSnapshot request => exact commitSnapshot_ok h request

/-! ### SET_CONFIG -/

/-- the graph that SET_CONFIG stages -/
def stagedConfig (s : EffectContext E) (new : EffectConfig) : DspGraphConfig :=
  ⟨(s.config.merge new).inputCfg.samplingRate, E.maxBlockFrames, s.dsp.graphGeneration + 1⟩

/-- the context that SET_CONFIG leaves when its graph is staged -/
def Configured (s : EffectContext E) (new : EffectConfig) (slots : DspGraphSlots E) (s' : EffectContext E) : Prop :=
  s'.dsp.graphSlots = slots ∧ s'.dsp.graphGeneration = s.dsp.graphGeneration + 1 ∧ s'.dsp.disableReason = .none ∧
    s'.config = s.config.merge new ∧ s'.dsp.samplingRate = (s.config.merge new).inputCfg.samplingRate ∧
    s'.bufferFrameCount = E.maxBlockFrames ∧ s'.dsp.resources = s.dsp.resources

/-- everything SET_CONFIG can do -/
theorem setConfig_cases (s : EffectContext E) (new : EffectConfig) :
    ((s.config.merge new).refusal ≠ none ∧ (s.setConfig O new).dsp.graphSlots = s.dsp.graphSlots ∧
      (s.setConfig O new).dsp.graphGeneration = s.dsp.graphGeneration ∧
      (s.setConfig O new).dsp.resources = s.dsp.resources) ∨
    (s.dsp.graphSlots.stage (s.stagedConfig new) s.dsp.parameterSnapshot s.dsp.resources = none ∧
      (s.setConfig O new).dsp.graphSlots = s.dsp.graphSlots.retractPending ∧
      (s.setConfig O new).dsp.graphGeneration = s.dsp.graphGeneration ∧
      (s.setConfig O new).dsp.disableReason = .unknown ∧ (s.setConfig O new).dsp.resources = s.dsp.resources) ∨
    ∃ slots, s.dsp.graphSlots.stage (s.stagedConfig new) s.dsp.parameterSnapshot s.dsp.resources = some slots ∧
      Configured s new slots (s.setConfig O new) := by
  unfold setConfig
  dsimp only
  cases hrefusal : (s.config.merge new).refusal with
  | some refusal => exact .inl ⟨by simp, rfl, rfl, rfl⟩
  | none =>
    right
    dsimp only
    rw [show (⟨(s.config.merge new).inputCfg.samplingRate, E.maxBlockFrames, s.dsp.graphGeneration + 1⟩ : DspGraphConfig)
      = s.stagedConfig new from rfl]
    cases hstage : s.dsp.graphSlots.stage (s.stagedConfig new) s.dsp.parameterSnapshot s.dsp.resources with
    | none => exact .inl ⟨rfl, rfl, rfl, rfl, rfl⟩
    | some slots =>
      right
      refine ⟨slots, rfl, ?_⟩
      dsimp only
      split_ifs <;> exact ⟨rfl, rfl, rfl, rfl, rfl, rfl, rfl⟩

theorem setConfig_ok {s : EffectContext E} (h : s.Ok) (new : EffectConfig) : (s.setConfig O new).Ok := by
  unfold Ok at h ⊢
  obtain ⟨-, hslots, hgeneration, -⟩ | ⟨-, hslots, hgeneration, -⟩ | ⟨slots, hstage, hslots, hgeneration, -⟩ :=
    setConfig_cases O s new
  · rw [hslots, hgeneration]
    exact h
  · rw [hslots, hgeneration]
    exact h.retract
  · rw [hslots, hgeneration]
    obtain hnone | ⟨g', hsome, -, hconfigs⟩ | ⟨g', a, hsome, hactive, hprevious, hnewer, hconfigs⟩ :=
      DspGraphSlots.stage_cases s.dsp.graphSlots (s.stagedConfig new) s.dsp.parameterSnapshot s.dsp.resources
    · rw [hnone] at hstage
      cases hstage
    · rw [hsome] at hstage
      obtain rfl := Option.some.inj hstage
      rw [hconfigs]
      exact SlotConfigs.Ok.first (g := s.stagedConfig new) rfl
    · rw [hsome] at hstage
      obtain rfl := Option.some.inj hstage
      have hstaged := h.release.stage (g := s.stagedConfig new) hactive rfl hnewer
      rw [hactive] at hstaged
      rw [hconfigs]
      exact hstaged

/-! ### Blocks -/

/-- what a part of a block leaves alone -/
structure SameControl (s s' : EffectContext E) : Prop where
  disableReason : s'.dsp.disableReason = s.dsp.disableReason
  graphGeneration : s'.dsp.graphGeneration = s.dsp.graphGeneration
  config : s'.config = s.config
  bufferFrameCount : s'.bufferFrameCount = s.bufferFrameCount
  resources : s'.dsp.resources = s.dsp.resources

theorem SameControl.trans {s s' s'' : EffectContext E} (h : SameControl s s') (h' : SameControl s' s'') :
    SameControl s s'' where
  disableReason := h'.disableReason.trans h.disableReason
  graphGeneration := h'.graphGeneration.trans h.graphGeneration
  config := h'.config.trans h.config
  bufferFrameCount := h'.bufferFrameCount.trans h.bufferFrameCount
  resources := h'.resources.trans h.resources

theorem swapPending_same (s : EffectContext E) : SameControl s s.swapPending := by
  unfold swapPending
  cases s.dsp.graphSlots.pending with
  | none => exact ⟨rfl, rfl, rfl, rfl, rfl⟩
  | some pending =>
    dsimp only
    split_ifs <;> exact ⟨rfl, rfl, rfl, rfl, rfl⟩

/-- after the swap the graph staged last is the active one -/
theorem swapPending_active (s : EffectContext E) :
    s.swapPending.dsp.graphSlots.configs.active = s.dsp.graphSlots.configs.next := by
  unfold swapPending
  cases hpending : s.dsp.graphSlots.pending with
  | none => simp [SlotConfigs.next, DspGraphSlots.configs, hpending]
  | some pending =>
    have hnext : s.dsp.graphSlots.configs.next = some pending.1 := by
      simp [SlotConfigs.next, DspGraphSlots.configs, hpending]
    have hconsumed : s.dsp.graphSlots.consumePending.configs.active = some pending.1 := by
      simp [DspGraphSlots.consumePending, DspGraphSlots.configs, hpending]
    rw [hnext]
    dsimp only
    split_ifs <;> exact hconsumed

theorem swapPending_ok {s : EffectContext E} (h : s.Ok) : s.swapPending.Ok := by
  unfold swapPending
  cases hpending : s.dsp.graphSlots.pending with
  | none => exact h
  | some pending =>
    have hconfigs : s.dsp.graphSlots.consumePending.configs = ⟨some pending.1, none, s.dsp.graphSlots.configs.active⟩ := by
      simp [DspGraphSlots.consumePending, DspGraphSlots.configs, hpending]
    have hconsumed : s.dsp.graphSlots.consumePending.configs.Ok E.maxBlockFrames s.dsp.graphGeneration := by
      rw [hconfigs]
      exact SlotConfigs.Ok.consume h (by simp [DspGraphSlots.configs, hpending])
    dsimp only
    split_ifs
    · exact hconsumed.release
    · exact hconsumed

theorem consumeLatest_same (s : EffectContext E) : SameControl s (s.consumeLatest O) := by
  unfold consumeLatest
  cases s.dsp.parameterMailbox <;> exact ⟨rfl, rfl, rfl, rfl, rfl⟩

theorem consumeLatest_configs (s : EffectContext E) :
    (s.consumeLatest O).dsp.graphSlots.configs = s.dsp.graphSlots.configs := by
  unfold consumeLatest
  cases s.dsp.parameterMailbox with
  | none => rfl
  | some params => exact DspGraphSlots.configs_mapRunning _ _

theorem restart_same (s : EffectContext E) (elapsed : ℕ) : SameControl s (s.restart O elapsed) := by
  unfold restart
  split_ifs <;> exact ⟨rfl, rfl, rfl, rfl, rfl⟩

theorem restart_configs (s : EffectContext E) (elapsed : ℕ) :
    (s.restart O elapsed).dsp.graphSlots.configs = s.dsp.graphSlots.configs ∨
      (s.restart O elapsed).dsp.graphSlots.configs = { s.dsp.graphSlots.configs with previous := none } := by
  unfold restart
  split_ifs
  · exact .inl rfl
  · right
    show ({ s.dsp.graphSlots with active := s.dsp.graphSlots.active.map (Prod.map id O.reset) } :
      DspGraphSlots E).releasePrevious.configs = _
    rw [DspGraphSlots.configs_releasePrevious]
    simp only [DspGraphSlots.configs, DspGraphSlots.fst_map_id]

/-- a block up to the point where its graphs run -/
theorem prelude_ok {s : EffectContext E} (h : s.Ok) (elapsed : ℕ) :
    ((s.swapPending.consumeLatest O).restart O elapsed).Ok := by
  have hswapped := swapPending_ok h
  have hlatest : (s.swapPending.consumeLatest O).Ok :=
    hswapped.of_configs (consumeLatest_configs O _) (consumeLatest_same O _).graphGeneration
  obtain hsame | hreleased := restart_configs O (s.swapPending.consumeLatest O) elapsed
  · exact hlatest.of_configs hsame (restart_same O _ _).graphGeneration
  · exact hlatest.released hreleased (restart_same O _ _).graphGeneration

theorem prelude_same (s : EffectContext E) (elapsed : ℕ) :
    SameControl s ((s.swapPending.consumeLatest O).restart O elapsed) :=
  ((swapPending_same s).trans (consumeLatest_same O _)).trans (restart_same O _ _)

theorem prelude_active (s : EffectContext E) (elapsed : ℕ) :
    ((s.swapPending.consumeLatest O).restart O elapsed).dsp.graphSlots.configs.active = s.dsp.graphSlots.configs.next := by
  have hlatest := consumeLatest_configs O s.swapPending
  have hactive := swapPending_active s
  obtain hsame | hreleased := restart_configs O (s.swapPending.consumeLatest O) elapsed
  · rw [hsame, hlatest, hactive]
  · rw [hreleased, hlatest, hactive]

theorem runGraphs_ok {s : EffectContext E} (h : s.Ok) (frames : ℕ) : (s.runGraphs O frames).1.Ok := by
  have hran : (s.mapSlots fun g => g.mapRunning fun graph => O.process graph frames).Ok :=
    h.of_configs (DspGraphSlots.configs_mapRunning _ _) rfl
  unfold runGraphs
  cases hactive : s.dsp.graphSlots.active with
  | none => exact h
  | some active =>
    dsimp only
    split_ifs
    · exact h
    · refine h.of_configs ?_ rfl
      show ({ s.dsp.graphSlots with active := some (active.1, O.process active.2 frames) } : DspGraphSlots E).configs = _
      simp [DspGraphSlots.configs, hactive]
    · exact SlotConfigs.Ok.release hran
    · exact SlotConfigs.Ok.release hran
    · exact hran
    · exact hran

/-- graphs of the full block length run -/
theorem runGraphs_processed {s : EffectContext E} (h : s.Ok) {graph : DspGraphConfig} {frames : ℕ}
    (hactive : s.dsp.graphSlots.configs.active = some graph) (hframes : frames ≤ E.maxBlockFrames)
    (hformat : isSupportedPcmFormat s.config.outputCfg.format = true) :
    (s.runGraphs O frames).2 = .processed graph := by
  unfold runGraphs
  cases hslot : s.dsp.graphSlots.active with
  | none => simp [DspGraphSlots.configs, hslot] at hactive
  | some active =>
    obtain rfl : active.1 = graph := by simpa [DspGraphSlots.configs, hslot] using hactive
    have hfits := (h.activeFits active.1 (by rw [hactive]; rfl)).1
    have hprevious : ¬ (s.dsp.graphSlots.previous.any fun previous => previous.1.maxFrames < frames) = true := by
      cases hheld : s.dsp.graphSlots.previous with
      | none => simp
      | some previous =>
        have := h.previousFits previous.1 (by simp [DspGraphSlots.configs, hheld])
        simp [this, hframes]
    dsimp only
    rw [if_neg (by omega), if_neg hprevious]
    split_ifs
    all_goals first | rfl | exact absurd hformat (by assumption)

theorem process_ok {s : EffectContext E} (h : s.Ok) (inBuffer outBuffer : Option AudioBuffer) (elapsed : ℕ) :
    (s.process O inBuffer outBuffer elapsed).1.Ok := by
  unfold process
  split_ifs
  · exact h
  · cases blockFrames s.config inBuffer outBuffer with
    | none => exact h
    | some frames =>
      have hprelude := prelude_ok O h elapsed
      dsimp only
      unfold processBlock
      dsimp only
      split_ifs
      · exact swapPending_ok h
      · exact hprelude
      · exact runGraphs_ok O hprelude frames
      · exact hprelude
  · exact h

theorem event_ok {s : EffectContext E} (h : s.Ok) (event : ContextEvent) : (event.run O s).Ok := by
  cases event with
  | setConfig new => exact setConfig_ok O h new
  | command c => exact command_ok O h c
  | block inBuffer outBuffer elapsed => exact process_ok O h inBuffer outBuffer elapsed

/-! ### Resources -/

/-- resources that the records of commands and snapshots made -/
def Captured (resources : DspResources) : Prop :=
  ∃ records : List RawParamRecord, resources = records.foldl (fun d r => (d.captureRaw E.ids E.kernelCrc r).1) {}

theorem Captured.capture {resources : DspResources} (h : Captured (E := E) resources) (r : RawParamRecord) :
    Captured (E := E) (resources.captureRaw E.ids E.kernelCrc r).1 := by
  obtain ⟨records, rfl⟩ := h
  exact ⟨records ++ [r], by rw [List.foldl_append]; rfl⟩

theorem Captured.replay {records : List RawParamRecord} {params params' : E.Params} {resources resources' : DspResources}
    (h : Captured (E := E) resources) (hreplay : replayRecords E params resources records = .ok (params', resources')) :
    Captured (E := E) resources' := by
  induction records generalizing params resources with
  | nil =>
    simp only [replayRecords, Except.ok.injEq, Prod.mk.injEq] at hreplay
    obtain ⟨-, rfl⟩ := hreplay
    exact h
  | cons r records ih =>
    have hnext := h.capture r
    unfold replayRecords at hreplay
    cases hparams : E.updateParameterSnapshot params r with
    | none => simp [hparams] at hreplay
    | some updated =>
      rw [hparams] at hreplay
      cases hcapture : resources.captureRaw E.ids E.kernelCrc r with
      | mk captured result =>
        rw [hcapture] at hreplay hnext
        cases result with
        | invalid => simp at hreplay
        | notResource | updated | committed | cleared => exact ih hnext hreplay

theorem commit_captured {s : EffectContext E} (h : Captured (E := E) s.dsp.resources) (request : CommitRequest) :
    Captured (E := E) (s.commitSnapshot request).dsp.resources := by
  show Captured (commitDaemonSnapshot E s.dsp request).1.resources
  obtain hsame | ⟨_, _, _, _, _, _, hrefused⟩ | ⟨_, _, resources, hreplay, _, hcommit⟩ := commit_cases s.dsp request
  · rw [hsame]
    exact h
  · rw [hrefused]
    exact h
  · rw [hcommit]
    exact h.replay hreplay

theorem command_captured {s : EffectContext E} (h : Captured (E := E) s.dsp.resources) (c : ContextCommand) :
    Captured (E := E) (c.run O s).dsp.resources := by
  cases c with
  | reset | enable | disable => exact h
  | setParam r =>
    show Captured (s.dispatchRawParam O r).dsp.resources
    unfold dispatchRawParam
    dsimp only
    split_ifs
    · exact h
    · exact h.capture r
    · exact h.capture r
  | commitSnapshot request => exact commit_captured h request

theorem process_resources (s : EffectContext E) (inBuffer outBuffer : Option AudioBuffer) (elapsed : ℕ) :
    (s.process O inBuffer outBuffer elapsed).1.dsp.resources = s.dsp.resources := by
  have hran (t : EffectContext E) (frames : ℕ) : (t.runGraphs O frames).1.dsp.resources = t.dsp.resources := by
    unfold runGraphs
    cases t.dsp.graphSlots.active with
    | none => rfl
    | some active =>
      dsimp only
      split_ifs <;> rfl
  unfold process
  split_ifs
  · rfl
  · cases blockFrames s.config inBuffer outBuffer with
    | none => rfl
    | some frames =>
      have hprelude := (prelude_same O s elapsed).resources
      dsimp only
      unfold processBlock
      dsimp only
      split_ifs
      · exact (swapPending_same s).resources
      · exact hprelude
      · exact (hran _ frames).trans hprelude
      · exact hprelude
  · rfl

theorem event_captured {s : EffectContext E} (h : Captured (E := E) s.dsp.resources) (event : ContextEvent) :
    Captured (E := E) (event.run O s).dsp.resources := by
  cases event with
  | setConfig new =>
    show Captured (s.setConfig O new).dsp.resources
    obtain ⟨_, _, _, hsame⟩ | ⟨_, _, _, _, hsame⟩ | ⟨_, _, _, _, _, _, _, _, hsame⟩ := setConfig_cases O s new
    all_goals
      rw [hsame]
      exact h
  | command c => exact command_captured O h c
  | block inBuffer outBuffer elapsed =>
    show Captured (s.process O inBuffer outBuffer elapsed).1.dsp.resources
    rw [process_resources]
    exact h

/-- **In every reachable state** the graphs in the slots take full blocks and are no newer than the generation, nothing is
staged beside an empty active slot, and the resources are captured ones. -/
theorem run_ok (events : List ContextEvent) :
    (EffectContext.after O events).Ok ∧ Captured (E := E) (EffectContext.after O events).dsp.resources := by
  have hrun (s : EffectContext E) (h : s.Ok ∧ Captured (E := E) s.dsp.resources) :
      (events.foldl (fun s event => event.run O s) s).Ok ∧
        Captured (E := E) (events.foldl (fun s event => event.run O s) s).dsp.resources := by
    induction events generalizing s with
    | nil => exact h
    | cons event events ih => exact ih _ ⟨event_ok O h.1 event, event_captured O h.2 event⟩
  refine hrun {} ⟨⟨?_, ?_, ?_, ?_⟩, [], rfl⟩
  · intro g hg
    cases hg
  · intro g hg
    cases hg
  · intro g hg
    cases hg
  · intro _
    exact ⟨rfl, rfl⟩

/-! ## When a configuration takes effect -/

/-- DspGraph::Prepare and ApplyTo succeed for a supported rate and captured resources -/
def PreparesSupported (E : Engine) : Prop :=
  ∀ (config : DspGraphConfig) (params : E.Params) (resources : DspResources),
    dspGraphPrepares config = true → Captured (E := E) resources → (E.prepare config params resources).isSome

/-- the graph of an accepted configuration is one that DspGraph::Prepare takes -/
theorem graph_prepares (hframes : E.maxBlockFrames = kMaxBlockFrames) {rate : UInt32}
    (hrate : isSupportedSampleRate rate = true) (generation : UInt64) :
    dspGraphPrepares ⟨rate, E.maxBlockFrames, generation⟩ = true := by
  simp [dspGraphPrepares, hrate, hframes, kMaxBlockFrames]

/-- the context is not bypassed, and whatever commands follow, the next block of the context that is enabled runs on a
graph of this rate; the commands are fewer than the generations left -/
def TakesEffect (s : EffectContext E) (sampleRate : UInt32) : Prop :=
  s.dsp.disableReason = .none ∧
  ∀ commands : List ContextCommand, s.dsp.graphGeneration.toNat + commands.length < 2 ^ 64 →
    (s.commanded O commands).dsp.enable = true →
    ∀ (inBuffer outBuffer : Option AudioBuffer) (elapsed frames : ℕ),
      blockFrames (s.commanded O commands).config inBuffer outBuffer = some frames → frames ≤ kMaxBlockFrames →
      ∃ graph, ((s.commanded O commands).process O inBuffer outBuffer elapsed).2 = .processed graph ∧
        graph.sampleRate = sampleRate

/-- no graph runs yet, or no crossfade holds the previous one; and there is a next generation -/
def HasRoom (s : EffectContext E) : Prop :=
  s.dsp.graphSlots.active = none ∨ s.dsp.graphSlots.previous = none ∧ s.dsp.graphGeneration.toNat + 1 < 2 ^ 64

/-- what a configuration that took effect leaves, and commands keep -/
structure InEffect (s : EffectContext E) (accepted : EffectConfig) : Prop where
  ok : s.Ok
  captured : Captured (E := E) s.dsp.resources
  allowed : s.dsp.disableReason = .none
  config : s.config = accepted
  samplingRate : s.dsp.samplingRate = accepted.inputCfg.samplingRate
  bufferFrameCount : s.bufferFrameCount = E.maxBlockFrames
  settled : s.dsp.graphSlots.previous = none
  next : ∃ g, s.dsp.graphSlots.configs.next = some g ∧ g.sampleRate = accepted.inputCfg.samplingRate

section InEffect

variable {O} {s : EffectContext E} {config : EffectConfig}

theorem InEffect.active (h : InEffect s config) : ∃ a, s.dsp.graphSlots.configs.active = some a := by
  obtain ⟨g, hnext, -⟩ := h.next
  cases hactive : s.dsp.graphSlots.configs.active with
  | some a => exact ⟨a, rfl⟩
  | none =>
    have hbare := (h.ok.bare hactive).1
    rw [SlotConfigs.next, hactive, hbare] at hnext
    cases hnext

/-- a generation after the latest is newer than any graph's -/
theorem not_newer {generation g : UInt64} (hg : g ≤ generation) (hroom : generation.toNat + 1 < 2 ^ 64) :
    ¬ generation + 1 ≤ g := by
  have hnat : g.toNat ≤ generation.toNat := hg
  have hnext : (generation + 1).toNat = generation.toNat + 1 := by
    rw [UInt64.toNat_add, UInt64.toNat_one, Nat.mod_eq_of_lt hroom]
  intro hle
  have : (generation + 1).toNat ≤ g.toNat := hle
  omega

theorem InEffect.commit (h : InEffect s config) (hvalid : config.refusal = none) (hframes : E.maxBlockFrames = kMaxBlockFrames)
    (hprepare : PreparesSupported E) (hroom : s.dsp.graphGeneration.toNat + 1 < 2 ^ 64) (request : CommitRequest) :
    InEffect (s.commitSnapshot request) config ∧
      (s.commitSnapshot request).dsp.graphGeneration.toNat ≤ s.dsp.graphGeneration.toNat + 1 := by
  obtain ⟨a, hactive⟩ := h.active
  have hok := commitSnapshot_ok h.ok request
  have hcaptured := commit_captured h.captured request
  obtain hsame | ⟨params, resources, _, _, hreplay, hrefused, _⟩ | ⟨prepared, params, resources, hreplay, hprepared, hcommit⟩ :=
    commit_cases s.dsp request
  · have hkept : s.commitSnapshot request = s := by rw [commitSnapshot, hsame]
    rw [hkept]
    exact ⟨h, by omega⟩
  · have hgraph : (E.prepare (commitConfig E s.dsp) params resources).isSome := by
      refine hprepare _ _ _ (graph_prepares hframes ?_ _) (h.captured.replay hreplay)
      rw [h.samplingRate]
      exact (EffectConfig.refusal_none hvalid).1
    have haccepted := DspGraphSlots.preparePending_isSome (g := s.dsp.graphSlots.retractPending) hactive rfl h.settled
      (not_newer (h.ok.activeFits a (by rw [hactive]; rfl)).2 hroom) hgraph
    rw [hrefused] at haccepted
    cases haccepted
  · have hdsp : (s.commitSnapshot request).dsp = _ := hcommit
    have hconfigs : prepared.configs = ⟨some a, some (commitConfig E s.dsp), none⟩ := by
      obtain hnone | ⟨g', _, hsome, -, -, -, -, hconfigs⟩ :=
        DspGraphSlots.preparePending_cases s.dsp.graphSlots.retractPending (commitConfig E s.dsp) params resources
      · rw [hnone] at hprepared
        cases hprepared
      · rw [hsome] at hprepared
        obtain rfl := Option.some.inj hprepared
        have hsettled : s.dsp.graphSlots.configs.previous = none := by simp [DspGraphSlots.configs, h.settled]
        rw [hconfigs, DspGraphSlots.configs_retractPending]
        dsimp only
        rw [hactive, hsettled]
    have hprevious : prepared.previous = none := by
      have : prepared.configs.previous = none := by rw [hconfigs]
      simpa [DspGraphSlots.configs] using this
    refine ⟨⟨hok, hcaptured, ?_, h.config, ?_, h.bufferFrameCount, ?_, commitConfig E s.dsp, ?_, h.samplingRate⟩, ?_⟩
    · rw [hdsp]
      exact h.allowed
    · rw [hdsp]
      exact h.samplingRate
    · rw [hdsp]
      exact hprevious
    · rw [hdsp]
      show prepared.configs.next = _
      rw [hconfigs]
      rfl
    · rw [hdsp]
      show (s.dsp.graphGeneration + 1).toNat ≤ _
      rw [UInt64.toNat_add, UInt64.toNat_one, Nat.mod_eq_of_lt hroom]

theorem InEffect.reset (h : InEffect s config) : InEffect (s.resetGraphs O) config where
  ok := command_ok O h.ok .reset
  captured := h.captured
  allowed := h.allowed
  config := h.config
  samplingRate := h.samplingRate
  bufferFrameCount := h.bufferFrameCount
  settled := rfl
  next := by
    rw [resetGraphs_configs]
    exact h.next

theorem InEffect.setParam (h : InEffect s config) (r : RawParamRecord) : InEffect (s.dispatchRawParam O r) config := by
  have hok := command_ok O h.ok (.setParam r)
  have hcaptured := command_captured O h.captured (.setParam r)
  have hconfigs := (dispatchRawParam_configs O s r).1
  have hsettled : (s.dispatchRawParam O r).dsp.graphSlots.configs.previous = none := by
    rw [hconfigs]
    simp [DspGraphSlots.configs, h.settled]
  have hsame : (s.dispatchRawParam O r).dsp.disableReason = s.dsp.disableReason ∧
      (s.dispatchRawParam O r).config = s.config ∧ (s.dispatchRawParam O r).dsp.samplingRate = s.dsp.samplingRate ∧
      (s.dispatchRawParam O r).bufferFrameCount = s.bufferFrameCount := by
    unfold dispatchRawParam
    dsimp only
    split_ifs <;> exact ⟨rfl, rfl, rfl, rfl⟩
  obtain ⟨hreason, hconfig, hrate, hcount⟩ := hsame
  refine ⟨hok, hcaptured, hreason.trans h.allowed, hconfig.trans h.config, hrate.trans h.samplingRate,
    hcount.trans h.bufferFrameCount, ?_, ?_⟩
  · simpa [DspGraphSlots.configs] using hsettled
  · rw [hconfigs]
    exact h.next

/-- a command other than SET_CONFIG keeps a configuration in effect -/
theorem InEffect.command (h : InEffect s config) (hvalid : config.refusal = none)
    (hframes : E.maxBlockFrames = kMaxBlockFrames) (hprepare : PreparesSupported E)
    (hroom : s.dsp.graphGeneration.toNat + 1 < 2 ^ 64) (c : ContextCommand) :
    InEffect (c.run O s) config ∧ (c.run O s).dsp.graphGeneration.toNat ≤ s.dsp.graphGeneration.toNat + 1 := by
  cases c with
  | reset => exact ⟨h.reset, Nat.le_succ _⟩
  | enable =>
    have hreset : InEffect (s.resetGraphs O) config := h.reset
    exact ⟨{ hreset with }, Nat.le_succ _⟩
  | disable => exact ⟨{ h with }, Nat.le_succ _⟩
  | setParam r =>
    have hgeneration := (dispatchRawParam_configs O s r).2
    refine ⟨h.setParam r, ?_⟩
    show (s.dispatchRawParam O r).dsp.graphGeneration.toNat ≤ _
    rw [hgeneration]
    exact Nat.le_succ _
  | commitSnapshot request => exact h.commit hvalid hframes hprepare hroom request

theorem InEffect.commanded (h : InEffect s config) (hvalid : config.refusal = none)
    (hframes : E.maxBlockFrames = kMaxBlockFrames) (hprepare : PreparesSupported E) (commands : List ContextCommand)
    (hroom : s.dsp.graphGeneration.toNat + commands.length < 2 ^ 64) : InEffect (s.commanded O commands) config := by
  induction commands generalizing s with
  | nil => exact h
  | cons c commands ih =>
    simp only [List.length_cons] at hroom
    obtain ⟨hnext, hgeneration⟩ := h.command (O := O) hvalid hframes hprepare (by omega) c
    have hleft : (c.run O s).dsp.graphGeneration.toNat + commands.length < 2 ^ 64 := by omega
    exact ih hnext hleft

/-- a block of a context with a configuration in effect runs at its rate -/
theorem InEffect.block (h : InEffect s config) (hvalid : config.refusal = none) (hframes : E.maxBlockFrames = kMaxBlockFrames)
    (henable : s.dsp.enable = true) {inBuffer outBuffer : Option AudioBuffer} {frames : ℕ}
    (hblock : blockFrames s.config inBuffer outBuffer = some frames) (hlength : frames ≤ kMaxBlockFrames) (elapsed : ℕ) :
    ∃ graph, (s.process O inBuffer outBuffer elapsed).2 = .processed graph ∧
      graph.sampleRate = config.inputCfg.samplingRate := by
  obtain ⟨graph, hnext, hrate⟩ := h.next
  obtain ⟨-, hinput, houtput⟩ := EffectConfig.refusal_none hvalid
  have hsame := prelude_same O s elapsed
  have hok := prelude_ok O h.ok elapsed
  have hactive := (prelude_active O s elapsed).trans hnext
  have hswapped : ¬ s.swapPending.dsp.graphSlots.active.isNone = true := by
    have := (swapPending_active s).trans hnext
    cases hslot : s.swapPending.dsp.graphSlots.active with
    | none => simp [DspGraphSlots.configs, hslot] at this
    | some active => simp
  refine ⟨graph, ?_, hrate⟩
  have hallowed : ¬ s.dsp.disableReason ≠ .none := not_not.2 h.allowed
  unfold process
  rw [if_neg hallowed, if_neg (not_not.2 henable), hblock]
  dsimp only
  unfold processBlock
  dsimp only
  rw [if_neg hswapped]
  have hcount : ¬ ((s.swapPending.consumeLatest O).restart O elapsed).bufferFrameCount < frames := by
    rw [hsame.bufferFrameCount, h.bufferFrameCount, hframes]
    omega
  have hformat : ¬ ¬ isSupportedPcmFormat
      ((s.swapPending.consumeLatest O).restart O elapsed).config.inputCfg.format = true := by
    rw [hsame.config, h.config]
    exact not_not.2 hinput
  rw [if_neg hcount, if_neg hformat]
  refine runGraphs_processed O hok hactive (by omega) ?_
  rw [hsame.config, h.config]
  exact houtput

end InEffect

/-- the staging of a valid configuration finds room exactly when `HasRoom` says so -/
theorem stage_room {s : EffectContext E} (hok : s.Ok) (hcaptured : Captured (E := E) s.dsp.resources)
    (hframes : E.maxBlockFrames = kMaxBlockFrames) (hprepare : PreparesSupported E) {new : EffectConfig}
    (hvalid : (s.config.merge new).refusal = none) :
    (s.dsp.graphSlots.stage (s.stagedConfig new) s.dsp.parameterSnapshot s.dsp.resources).isSome ↔ s.HasRoom := by
  have hgraph : (E.prepare (s.stagedConfig new) s.dsp.parameterSnapshot s.dsp.resources).isSome :=
    hprepare _ _ _ (graph_prepares hframes (EffectConfig.refusal_none hvalid).1 _) hcaptured
  have hbare : s.dsp.graphSlots.active = none → s.dsp.graphSlots.previous = none := by
    intro hactive
    have := (hok.bare (by simp [DspGraphSlots.configs, hactive])).2
    simpa [DspGraphSlots.configs] using this
  rw [DspGraphSlots.stage_isSome_iff hbare hgraph, HasRoom]
  cases hactive : s.dsp.graphSlots.active with
  | none => simp
  | some active =>
    have hconfigs : s.dsp.graphSlots.configs.active = some active.1 := by simp [DspGraphSlots.configs, hactive]
    have hlatest : active.1.generation ≤ s.dsp.graphGeneration := (hok.activeFits _ (by rw [hconfigs]; rfl)).2
    have hnewer : (¬ s.dsp.graphGeneration + 1 ≤ active.1.generation) ↔ s.dsp.graphGeneration.toNat + 1 < 2 ^ 64 := by
      constructor
      · intro h
        by_contra hfull
        have hzero : s.dsp.graphGeneration + 1 = 0 := by
          apply UInt64.toNat_inj.1
          have hbound := s.dsp.graphGeneration.toNat_lt
          rw [UInt64.toNat_add, UInt64.toNat_one, UInt64.toNat_zero]
          omega
        rw [hzero] at h
        exact h (UInt64.zero_le)
      · exact not_newer hlatest
    simp only [reduceCtorEq, false_or, hconfigs, Option.mem_some_iff, forall_eq', stagedConfig, hnewer]

/-- **A valid configuration takes effect exactly when the slots have room for its graph**: no graph runs yet, or the
previous graph has been released. -/
theorem takes_effect_iff (hframes : E.maxBlockFrames = kMaxBlockFrames) (hprepare : PreparesSupported E)
    (events : List ContextEvent) (new : EffectConfig)
    (hvalid : ((EffectContext.after O events).config.merge new).refusal = none) :
    TakesEffect O ((EffectContext.after O events).setConfig O new)
        ((EffectContext.after O events).config.merge new).inputCfg.samplingRate ↔
      (EffectContext.after O events).HasRoom := by
  obtain ⟨hok, hcaptured⟩ := run_ok O events
  generalize EffectContext.after O events = s at hvalid hok hcaptured ⊢
  have hroom := stage_room hok hcaptured hframes hprepare hvalid
  constructor
  · rintro ⟨hallowed, -⟩
    obtain ⟨hrefusal, -⟩ | ⟨-, -, -, hunknown, -⟩ | ⟨slots, hstage, -⟩ := setConfig_cases O s new
    · exact absurd hvalid hrefusal
    · rw [hunknown] at hallowed
      cases hallowed
    · exact hroom.1 (by rw [hstage]; rfl)
  · intro h
    have hstaged := hroom.2 h
    obtain ⟨hrefusal, -⟩ | ⟨hnone, -⟩ | ⟨slots, hstage, hslots, hgeneration, hallowed, hconfig, hrate, hcount, hresources⟩ :=
      setConfig_cases O s new
    · exact absurd hvalid hrefusal
    · rw [hnone] at hstaged
      cases hstaged
    · have heffect : InEffect (s.setConfig O new) (s.config.merge new) := by
        have hconfigs : slots.configs.previous = none ∧ slots.configs.next = some (s.stagedConfig new) := by
          obtain hnone | ⟨g', hsome, -, hconfigs⟩ | ⟨g', a, hsome, -, -, -, hconfigs⟩ :=
            DspGraphSlots.stage_cases s.dsp.graphSlots (s.stagedConfig new) s.dsp.parameterSnapshot s.dsp.resources
          · rw [hnone] at hstage
            cases hstage
          · rw [hsome] at hstage
            obtain rfl := Option.some.inj hstage
            rw [hconfigs]
            exact ⟨rfl, rfl⟩
          · rw [hsome] at hstage
            obtain rfl := Option.some.inj hstage
            rw [hconfigs]
            exact ⟨rfl, rfl⟩
        refine ⟨setConfig_ok O hok new, ?_, hallowed, hconfig, hrate, hcount, ?_, s.stagedConfig new, ?_, rfl⟩
        · rw [hresources]
          exact hcaptured
        · rw [hslots]
          simpa [DspGraphSlots.configs] using hconfigs.1
        · rw [hslots]
          exact hconfigs.2
      refine ⟨hallowed, ?_⟩
      intro commands hcommands henable inBuffer outBuffer elapsed frames hblock hlength
      have hlater := heffect.commanded (O := O) hvalid hframes hprepare commands hcommands
      exact hlater.block hvalid hframes henable hblock hlength elapsed

end EffectContext

/-! ## A configuration amid a crossfade -/

/-- an engine whose graphs keep the parameters they run with -/
def plainEngine : Engine where
  Params := ℤ
  Iem := Unit
  Graph := ℤ
  ids := ⟨1, 2, 3, 4, 5⟩
  initialParams := 0
  initialIem := ()
  maxBlockFrames := kMaxBlockFrames
  updateParameterSnapshot := fun _ r => some r.val1.toInt
  kernelCrc := crc32
  prepare := fun config params _ => if dspGraphPrepares config then some params else none
  dispatchIem := fun iem _ => iem
  iemResourceGeneration := fun _ => 0

def plainOps : EngineOps plainEngine where
  isIem := fun _ => false
  isUpdated := fun _ _ => true
  dispatchRawParam := fun graph _ => graph
  applyParams := fun _ params => params
  reset := fun graph => graph
  process := fun graph _ => graph
  prepareIem := fun iem _ _ => iem
  resetIem := fun iem => iem
  processIem := fun iem _ => iem

def stereoFloat (sampleRate : UInt32) : EffectConfig :=
  let config : BufferConfig := { samplingRate := sampleRate, channels := 3, format := 5, mask := 0x0e }
  ⟨config, config⟩

def blockOf (frames elapsed : ℕ) : ContextEvent := .block (some ⟨frames, true⟩) (some ⟨frames, true⟩) elapsed

namespace EffectContext

theorem plain_prepares : PreparesSupported plainEngine := by
  intro config params resources hvalid _
  show (if dspGraphPrepares config then some params else none).isSome
  rw [if_pos hvalid]
  rfl

/-- a context that has played at one rate, and has crossfaded to another -/
def reconfigured : List ContextEvent :=
  [.setConfig (stereoFloat 48000), .command .enable, blockOf 480 0, .setConfig (stereoFloat 44100), blockOf 4096 10]

theorem takes_effect_reconfigured :
    TakesEffect plainOps ((EffectContext.after plainOps reconfigured).setConfig plainOps (stereoFloat 48000)) 48000 := by
  have hvalid : ((EffectContext.after plainOps reconfigured).config.merge (stereoFloat 48000)).refusal = none := by decide +kernel
  have hreleased : (EffectContext.after plainOps reconfigured).dsp.graphSlots.previous = none := by decide +kernel
  have hnext : (EffectContext.after plainOps reconfigured).dsp.graphGeneration.toNat + 1 < 2 ^ 64 := by decide +kernel
  exact (takes_effect_iff plainOps rfl plain_prepares reconfigured (stereoFloat 48000) hvalid).2 (.inr ⟨hreleased, hnext⟩)

/-- the same rate again amid the crossfade to the graph of the configuration before: refused, and the context is bypassed -/
theorem configuration_lost :
    PreparesSupported plainEngine ∧
    ((EffectContext.after plainOps [.setConfig (stereoFloat 48000), .command .enable, blockOf 480 0,
      .setConfig (stereoFloat 48000), blockOf 100 10]).config.merge (stereoFloat 48000)).refusal = none ∧
    ¬ TakesEffect plainOps ((EffectContext.after plainOps [.setConfig (stereoFloat 48000), .command .enable, blockOf 480 0,
      .setConfig (stereoFloat 48000), blockOf 100 10]).setConfig plainOps (stereoFloat 48000)) 48000 := by
  refine ⟨plain_prepares, by decide, ?_⟩
  intro h
  exact absurd h.1 (by decide)

end EffectContext

end ViperFx.Driver
