/-
The enable ramp of the IEM engine: `IEMDSP/src/IemEngine.cpp`, with `IemPipeline::Prepare` and `IemPipeline::ApplyParams`.

The mix of a frame is the part of the processed signal in it. It runs to its target in steps of 1/256, once the frames emitted
since the last reset of the pipeline have passed the latency. Disabling only moves the target; enabling sets the mix to 0,
whatever it is, and that is a jump when a fade-out is under way, or has not begun yet.

The mix is over exact arithmetic. What the parts of the pipeline need to be prepared is `Parts`; whether the resamplers, the
queues and the pipeline carry a block is given with the block.

Results:
  · step_ramped, mix_smooth : no jump, as long as no call enables the engine while its mix is above 1/256
  · not_gentle_jumps        : a call that does is a jump
  · reenabled_jumps         : a fade-out that is taken back jumps from 3/4 to 0
-/
import ViperFx.Iem.ParamRecord

namespace ViperFx.Iem.Record

variable {F : Type}

/-! ## The pipeline -/

def kMaxAmbisonicsOrder : ℤ := 3

structure IemEngineConfig where
  hostSampleRate : ℕ
  maxHostBlockFrames : ℕ
  internalSampleRate : ℕ := 96000
  internalBlockFrames : ℕ := 256
  maxChannels : ℕ := 16
deriving DecidableEq, Repr

/-- encoder, rotator, decoders, limiter and buffers: the latency of a pipeline that could be prepared, and whether the buffers of
the engine could -/
structure Parts (F : Type) where
  pipeline : IemParams F → ℕ → Option ℕ
  buffers : IemEngineConfig → Bool

structure IemPipeline (F : Type) where
  params : IemParams F
  maxFrames : ℕ
  totalLatencyFrames : ℕ

def IemPipeline.applyParams (pipeline : IemPipeline F) (params : IemParams F) : IemPipeline F :=
  { pipeline with params := { pipeline.params with
      enable := params.enable
      wet := params.wet
      outputGainDb := params.outputGainDb
      limiter := params.limiter
      stereo := params.stereo
      multi := params.multi
      granular := params.granular
      halo := params.halo
      decoder.downmix := params.decoder.downmix
      rotation := params.rotation } }

def IemPipeline.prepare (parts : Parts F) (params : IemParams F) (maxFrames : ℕ) : Option (IemPipeline F) :=
  if maxFrames = 0 ∨ params.order = 0 ∨ kMaxAmbisonicsOrder < params.order then none
  else match parts.pipeline params maxFrames with
    | none => none
    | some latency => some (({ params, maxFrames, totalLatencyFrames := latency } : IemPipeline F).applyParams params)

/-- a pipeline with the latency that the default parameters have, which can always be prepared -/
def unitParts : Parts Unit := ⟨fun _ _ => some 352, fun _ => true⟩

/-! ## The engine -/

def kMinHostSampleRate : ℕ := 8000
def kMaxHostSampleRate : ℕ := 384000
def kMaxHostBlockFrames : ℕ := 8192
def kBlockFrames : ℕ := 256
def kMaxChannels : ℕ := 16
def kRightTaps : ℕ := 32
def kEnableRampFrames : ℕ := 256

structure IemEngine (F : Type) where
  config : IemEngineConfig
  params : IemParams F
  pipeline : IemPipeline F
  latencyFrames : ℕ
  emittedHostFrames : ℕ
  enableMix : ℚ
  targetEnableMix : ℚ
  active : Bool

/-- frames of the internal rate in frames of the host, rounded up -/
def hostFrames (config : IemEngineConfig) (frames : ℕ) : ℕ :=
  (frames * config.hostSampleRate + config.internalSampleRate - 1) / config.internalSampleRate

def engineLatency (config : IemEngineConfig) (pipeline : IemPipeline F) : ℕ :=
  kRightTaps + hostFrames config (kBlockFrames + kRightTaps) + 4 + hostFrames config pipeline.totalLatencyFrames

def configFits (config : IemEngineConfig) : Bool :=
  kMinHostSampleRate ≤ config.hostSampleRate && config.hostSampleRate ≤ kMaxHostSampleRate
    && config.maxHostBlockFrames ≠ 0 && config.maxHostBlockFrames ≤ kMaxHostBlockFrames
    && config.internalSampleRate = 96000 && config.internalBlockFrames = kBlockFrames && config.maxChannels = kMaxChannels

namespace IemEngine

/-- an engine that could not be prepared is none -/
def prepare (parts : Parts F) (config : IemEngineConfig) (params : IemParams F) : Option (IemEngine F) :=
  if configFits config then
    match IemPipeline.prepare parts params config.internalBlockFrames with
    | none => none
    | some pipeline =>
      if parts.buffers config ∧ engineLatency config pipeline < 2 ^ 32 then
        some
          { config, params, pipeline
            latencyFrames := engineLatency config pipeline
            emittedHostFrames := 0
            enableMix := if params.enable then 1 else 0
            targetEnableMix := if params.enable then 1 else 0
            active := params.enable }
      else none
  else none

theorem prepare_eq {parts : Parts F} {config : IemEngineConfig} {params : IemParams F} {engine : IemEngine F}
    (h : prepare parts config params = some engine) :
    ∃ pipeline, IemPipeline.prepare parts params config.internalBlockFrames = some pipeline ∧
      engine =
        { config, params, pipeline
          latencyFrames := engineLatency config pipeline
          emittedHostFrames := 0
          enableMix := if params.enable then 1 else 0
          targetEnableMix := if params.enable then 1 else 0
          active := params.enable } := by
  unfold prepare at h
  by_cases hconfig : configFits config = true
  · rw [if_pos hconfig] at h
    cases hpipeline : IemPipeline.prepare parts params config.internalBlockFrames with
    | none =>
      rw [hpipeline] at h
      exact nomatch h
    | some pipeline =>
      rw [hpipeline] at h
      dsimp only at h
      by_cases hparts : parts.buffers config = true ∧ engineLatency config pipeline < 2 ^ 32
      · rw [if_pos hparts] at h
        exact ⟨pipeline, rfl, (Option.some.inj h).symm⟩
      · rw [if_neg hparts] at h
        exact nomatch h
  · rw [if_neg hconfig] at h
    exact nomatch h

/-- the resamplers, the queues and the pipeline start anew; of the fields here that is the count -/
def resetPipeline (e : IemEngine F) : IemEngine F := { e with emittedHostFrames := 0 }

def applyParams (e : IemEngine F) (params : IemParams F) : IemEngine F :=
  let wasEnabled := e.params.enable
  let e := { e with params, pipeline := e.pipeline.applyParams params }
  if params.enable && !wasEnabled then { e.resetPipeline with active := true, enableMix := 0, targetEnableMix := 1 }
  else if !params.enable && wasEnabled && e.active then { e with targetEnableMix := 0 }
  else if params.enable then { e with active := true, targetEnableMix := 1 }
  else e

def updateEnableRamp (target mix : ℚ) : ℚ :=
  let step : ℚ := 1 / kEnableRampFrames
  if mix = target then mix
  else if mix < target then min target (mix + step)
  else max target (mix - step)

/-- the mix of the next frame -/
def frameMix (latency : ℕ) (target : ℚ) (emitted : ℕ) (mix : ℚ) : ℚ :=
  if latency ≤ emitted then updateEnableRamp target mix else mix

/-- the loop over the frames of a block: the mix of every frame, and the mix after it -/
def rampFrames (latency : ℕ) (target : ℚ) : ℕ → ℕ → ℚ → List ℚ × ℚ
  | _, 0, mix => ([], mix)
  | emitted, frames + 1, mix =>
    let mix := frameMix latency target emitted mix
    let rest := rampFrames latency target (emitted + 1) frames mix
    (mix :: rest.1, rest.2)

/-- `Process` on a block, which is carried or not: the mix of every frame that leaves the engine. A bypassed frame has none of the
processed signal in it. -/
def process (e : IemEngine F) (frames : ℕ) (carried : Bool) : Option (IemEngine F × List ℚ) :=
  if frames = 0 ∨ e.config.maxHostBlockFrames < frames then none
  else if !e.active && !e.params.enable then some (e, List.replicate frames 0)
  else if !carried then none
  else
    let block := rampFrames e.latencyFrames e.targetEnableMix e.emittedHostFrames frames e.enableMix
    let e := { e with enableMix := block.2, emittedHostFrames := e.emittedHostFrames + frames }
    if !e.params.enable && e.enableMix ≤ 0 then some ({ e with active := false }.resetPipeline, block.1)
    else some (e, block.1)

/-! ## The ramp -/

def InUnit (mix : ℚ) : Prop := 0 ≤ mix ∧ mix ≤ 1

instance (mix : ℚ) : Decidable (InUnit mix) := inferInstanceAs (Decidable (_ ∧ _))

/-- two mixes are one step of the ramp apart, or less -/
def Near (a b : ℚ) : Prop := |b - a| ≤ 1 / kEnableRampFrames

instance (a b : ℚ) : Decidable (Near a b) := inferInstanceAs (Decidable (_ ≤ _))

/-- mixes of consecutive frames -/
structure Smooth (mixes : List ℚ) : Prop where
  unit : ∀ mix ∈ mixes, InUnit mix
  near : mixes.IsChain Near

theorem Near.refl (a : ℚ) : Near a a := by
  simp [Near, kEnableRampFrames]

theorem near_of_small {a b : ℚ} (ha : 0 ≤ a) (ha' : a ≤ 1 / kEnableRampFrames) (hb : 0 ≤ b) (hb' : b ≤ 1 / kEnableRampFrames) :
    Near a b := by
  unfold Near
  rw [abs_le]
  constructor <;> linarith

theorem updateEnableRamp_near (target mix : ℚ) : Near mix (updateEnableRamp target mix) := by
  have hstep : (0 : ℚ) ≤ 1 / kEnableRampFrames := by norm_num [kEnableRampFrames]
  unfold updateEnableRamp
  dsimp only
  split_ifs with hthere hbelow
  · exact Near.refl mix
  · have hle : mix ≤ min target (mix + 1 / kEnableRampFrames) := le_min hbelow.le (by linarith)
    have hmin := min_le_right target (mix + 1 / kEnableRampFrames)
    rw [Near, abs_le]
    constructor <;> linarith
  · have hge : max target (mix - 1 / kEnableRampFrames) ≤ mix := max_le (not_lt.mp hbelow) (by linarith)
    have hmax := le_max_right target (mix - 1 / kEnableRampFrames)
    rw [Near, abs_le]
    constructor <;> linarith

theorem updateEnableRamp_unit {target mix : ℚ} (ht : InUnit target) (hm : InUnit mix) : InUnit (updateEnableRamp target mix) := by
  obtain ⟨ht0, ht1⟩ := ht
  obtain ⟨hm0, hm1⟩ := hm
  have hstep : (0 : ℚ) ≤ 1 / kEnableRampFrames := by norm_num [kEnableRampFrames]
  unfold updateEnableRamp
  dsimp only
  split_ifs with hthere hbelow
  · exact ⟨hm0, hm1⟩
  · exact ⟨le_min ht0 (by linarith), (min_le_left _ _).trans ht1⟩
  · exact ⟨ht0.trans (le_max_left _ _), max_le ht1 (by linarith)⟩

theorem frameMix_near (latency : ℕ) (target : ℚ) (emitted : ℕ) (mix : ℚ) : Near mix (frameMix latency target emitted mix) := by
  unfold frameMix
  split_ifs
  · exact updateEnableRamp_near target mix
  · exact Near.refl mix

theorem frameMix_unit {target mix : ℚ} (latency emitted : ℕ) (ht : InUnit target) (hm : InUnit mix) :
    InUnit (frameMix latency target emitted mix) := by
  unfold frameMix
  split_ifs
  · exact updateEnableRamp_unit ht hm
  · exact hm

/-- the mixes of a block go on from the mix before it -/
theorem rampFrames_smooth {latency : ℕ} {target : ℚ} (ht : InUnit target) {emitted frames : ℕ} {mix : ℚ} (hm : InUnit mix) :
    Smooth (mix :: (rampFrames latency target emitted frames mix).1) := by
  induction frames generalizing emitted mix with
  | zero => exact ⟨by simpa [rampFrames] using hm, List.isChain_singleton mix⟩
  | succ frames ih =>
    have hrest : Smooth (frameMix latency target emitted mix
        :: (rampFrames latency target (emitted + 1) frames (frameMix latency target emitted mix)).1) :=
      ih (frameMix_unit latency emitted ht hm)
    constructor
    · intro m hmem
      rcases List.mem_cons.mp hmem with rfl | hlater
      · exact hm
      · exact hrest.unit m hlater
    · exact List.isChain_cons_cons.mpr ⟨frameMix_near latency target emitted mix, hrest.near⟩

theorem rampFrames_last (latency : ℕ) (target : ℚ) (emitted frames : ℕ) (mix : ℚ) :
    (mix :: (rampFrames latency target emitted frames mix).1).getLast? = some (rampFrames latency target emitted frames mix).2 := by
  induction frames generalizing emitted mix with
  | zero => rfl
  | succ frames ih =>
    have hlast := ih (emitted + 1) (frameMix latency target emitted mix)
    rw [rampFrames, List.getLast?_cons_cons]
    exact hlast

theorem length_rampFrames (latency : ℕ) (target : ℚ) (emitted frames : ℕ) (mix : ℚ) :
    (rampFrames latency target emitted frames mix).1.length = frames := by
  induction frames generalizing emitted mix with
  | zero => rfl
  | succ frames ih => exact congrArg Nat.succ (ih (emitted + 1) _)

theorem inUnit_zero : InUnit 0 := by decide +kernel

theorem inUnit_one : InUnit 1 := by decide +kernel

/-- frames after the last one, when the first of them is next to it -/
theorem Smooth.append {mixes later : List ℚ} (h : Smooth mixes) (hlater : Smooth later)
    (hnear : ∀ a ∈ mixes.getLast?, ∀ b ∈ later.head?, Near a b) : Smooth (mixes ++ later) where
  unit := by
    intro mix hmem
    rcases List.mem_append.mp hmem with hbefore | hafter
    · exact h.unit mix hbefore
    · exact hlater.unit mix hafter
  near := List.isChain_append.mpr ⟨h.near, hlater.near, hnear⟩

theorem smooth_zeros (frames : ℕ) : Smooth (List.replicate frames 0) where
  unit := by
    intro mix hmem
    obtain rfl := List.eq_of_mem_replicate hmem
    exact inUnit_zero
  near := List.isChain_replicate_of_rel frames (Near.refl 0)

/-! ## Runs -/

inductive Step (F : Type) where
  | applyParams (params : IemParams F)
  | process (frames : ℕ) (carried : Bool)

/-- an engine and the mixes of all the frames that have left it -/
structure Session (F : Type) where
  engine : IemEngine F
  mixes : List ℚ := []

namespace Session

/-- a block that is not carried leaves the ramp as it is -/
def step (s : Session F) : Step F → Session F
  | .applyParams params => { s with engine := s.engine.applyParams params }
  | .process frames carried =>
    match s.engine.process frames carried with
    | none => s
    | some (engine, mixes) => { engine, mixes := s.mixes ++ mixes }

def run (s : Session F) (steps : List (Step F)) : Session F := steps.foldl step s

/-- a call that enables the engine finds its mix next to 0, or no frame has left the engine yet -/
def Gentle (s : Session F) : Step F → Prop
  | .applyParams params =>
    params.enable = true → s.engine.params.enable = false → s.mixes = [] ∨ s.engine.enableMix ≤ 1 / kEnableRampFrames
  | .process _ _ => True

/-- every step of a run is gentle -/
def Gently (s : Session F) : List (Step F) → Prop
  | [] => True
  | step :: steps => s.Gentle step ∧ (s.step step).Gently steps

/-- what holds between the steps: an engine that has just been enabled has a mix of 0, the last frame one of at most a step -/
structure Ramped (s : Session F) : Prop where
  smooth : Smooth s.mixes
  mix : InUnit s.engine.enableMix
  target : InUnit s.engine.targetEnableMix
  running : s.engine.params.enable = true → s.engine.active = true
  idle : s.engine.active = false → s.engine.enableMix = 0
  last : ∀ mix ∈ s.mixes.getLast?, mix = s.engine.enableMix ∨ s.engine.enableMix = 0 ∧ mix ≤ 1 / kEnableRampFrames

theorem Ramped.applyParams {s : Session F} (h : s.Ramped) {params : IemParams F} (hgentle : s.Gentle (.applyParams params)) :
    (s.step (.applyParams params)).Ramped := by
  simp only [step, IemEngine.applyParams]
  split_ifs with henables hdisables henabled
  · refine ⟨h.smooth, inUnit_zero, inUnit_one, fun _ => rfl, fun hidle => absurd hidle Bool.false_ne_true.symm, ?_⟩
    intro mix hmix
    simp only [Bool.and_eq_true, Bool.not_eq_true'] at henables
    rcases hgentle henables.1 henables.2 with hnone | hsmall
    · simp [hnone] at hmix
    · rcases h.last mix hmix with rfl | ⟨-, hle⟩
      · exact Or.inr ⟨rfl, hsmall⟩
      · exact Or.inr ⟨rfl, hle⟩
  · simp only [Bool.and_eq_true, Bool.not_eq_true'] at hdisables
    exact { h with target := inUnit_zero, running := fun henable => absurd (hdisables.1.1.symm.trans henable) Bool.false_ne_true }
  · exact { h with target := inUnit_one, running := fun _ => rfl, idle := fun hidle => absurd hidle Bool.false_ne_true.symm }
  · exact { h with running := fun henable => absurd henable henabled }

/-- what a block that leaves the engine is: a bypassed one, or one along the ramp -/
theorem process_cases {e e' : IemEngine F} {frames : ℕ} {carried : Bool} {mixes : List ℚ}
    (h : e.process frames carried = some (e', mixes)) :
    frames ≠ 0 ∧
    ((e.active = false ∧ e' = e ∧ mixes = List.replicate frames 0) ∨
      ∃ emitted, mixes = (rampFrames e.latencyFrames e.targetEnableMix emitted frames e.enableMix).1 ∧
        e'.enableMix = (rampFrames e.latencyFrames e.targetEnableMix emitted frames e.enableMix).2 ∧
        e'.targetEnableMix = e.targetEnableMix ∧ e'.params = e.params ∧ ¬(e.active = false ∧ e.params.enable = false) ∧
        (e'.active = e.active ∨ e.params.enable = false ∧ e'.enableMix ≤ 0)) := by
  unfold IemEngine.process at h
  split_ifs at h with hfits hbypass hcarried
  · obtain ⟨rfl, rfl⟩ := Prod.mk.inj (Option.some.inj h)
    simp only [Bool.and_eq_true, Bool.not_eq_true'] at hbypass
    exact ⟨fun hzero => hfits (Or.inl hzero), Or.inl ⟨hbypass.1, rfl, rfl⟩⟩
  · refine ⟨fun hzero => hfits (Or.inl hzero), Or.inr ⟨e.emittedHostFrames, ?_⟩⟩
    simp only [Bool.and_eq_true, Bool.not_eq_true'] at hbypass
    dsimp only at h
    split_ifs at h with hends
    · obtain ⟨rfl, rfl⟩ := Prod.mk.inj (Option.some.inj h)
      simp only [Bool.and_eq_true, Bool.not_eq_true', decide_eq_true_eq] at hends
      exact ⟨rfl, rfl, rfl, rfl, hbypass, Or.inr hends⟩
    · obtain ⟨rfl, rfl⟩ := Prod.mk.inj (Option.some.inj h)
      exact ⟨rfl, rfl, rfl, rfl, hbypass, Or.inl rfl⟩

/-- the last frame and the next one, which is on the ramp -/
theorem Ramped.next {s : Session F} (h : s.Ramped) {a b : ℚ} (ha : a ∈ s.mixes.getLast?) (hb : InUnit b)
    (hnear : Near s.engine.enableMix b) : Near a b := by
  rcases h.last a ha with rfl | ⟨hzero, hsmall⟩
  · exact hnear
  · have hnonneg := (h.smooth.unit a (List.mem_of_mem_getLast? ha)).1
    rw [hzero, Near, sub_zero, abs_of_nonneg hb.1] at hnear
    exact near_of_small hnonneg hsmall hb.1 hnear

theorem Ramped.process {s : Session F} (h : s.Ramped) (frames : ℕ) (carried : Bool) :
    (s.step (.process frames carried)).Ramped := by
  simp only [step]
  cases hprocess : s.engine.process frames carried with
  | none => exact h
  | some result =>
    obtain ⟨e', mixes⟩ := result
    obtain ⟨hframes, ⟨hidle, rfl, rfl⟩ | ⟨emitted, hmixes, hmix, htarget, hparams, hruns, hactive⟩⟩ := process_cases hprocess
    · have hzero := h.idle hidle
      refine { h with smooth := ?_, last := ?_ }
      · refine h.smooth.append (smooth_zeros frames) ?_
        intro a ha b hb
        obtain rfl := List.eq_of_mem_replicate (List.mem_of_mem_head? hb)
        exact h.next ha inUnit_zero (hzero ▸ Near.refl 0)
      · intro mix hmem
        rw [List.getLast?_append_of_ne_nil _ (by simpa using hframes)] at hmem
        obtain rfl := List.eq_of_mem_replicate (List.mem_of_mem_getLast? hmem)
        exact Or.inl hzero.symm
    · have hramp : Smooth (s.engine.enableMix :: mixes) := hmixes ▸ rampFrames_smooth h.target h.mix
      have hlast : (s.engine.enableMix :: mixes).getLast? = some e'.enableMix := by
        rw [hmixes, hmix]
        exact rampFrames_last _ _ _ _ _
      have hnone : mixes ≠ [] := by
        intro hnil
        have hlength := length_rampFrames s.engine.latencyFrames s.engine.targetEnableMix emitted frames s.engine.enableMix
        rw [← hmixes, hnil] at hlength
        exact hframes hlength.symm
      have hlast' : mixes.getLast? = some e'.enableMix := by
        rw [← hlast, List.getLast?_cons_of_ne_nil hnone]
      have hunit : InUnit e'.enableMix := hramp.unit _ (List.mem_of_mem_getLast? hlast)
      refine ⟨?_, hunit, htarget ▸ h.target, ?_, ?_, ?_⟩
      · refine h.smooth.append ⟨fun m hm => hramp.unit m (List.mem_cons_of_mem _ hm), hramp.near.tail⟩ ?_
        intro a ha b hb
        have hbunit := hramp.unit b (List.mem_cons_of_mem _ (List.mem_of_mem_head? hb))
        exact h.next ha hbunit ((List.isChain_cons.mp hramp.near).1 b hb)
      · intro henable
        rw [hparams] at henable
        rcases hactive with hsame | ⟨hdisabled, -⟩
        · rw [hsame]
          exact h.running henable
        · exact absurd (hdisabled.symm.trans henable) Bool.false_ne_true
      · intro hidle
        rcases hactive with hsame | ⟨-, hle⟩
        · rw [hsame] at hidle
          have henable : s.engine.params.enable = true := by simpa using fun hoff => hruns ⟨hidle, hoff⟩
          exact absurd (hidle.symm.trans (h.running henable)) Bool.false_ne_true
        · exact le_antisymm hle hunit.1
      · intro mix hmem
        rw [List.getLast?_append_of_ne_nil _ hnone, hlast'] at hmem
        exact Or.inl (Option.some.inj hmem).symm

theorem prepared_ramped {parts : Parts F} {config : IemEngineConfig} {params : IemParams F} {engine : IemEngine F}
    (h : prepare parts config params = some engine) : Ramped { engine } := by
  obtain ⟨pipeline, -, rfl⟩ := prepare_eq h
  cases henable : params.enable with
  | true => exact ⟨⟨nofun, .nil⟩, inUnit_one, inUnit_one, fun _ => rfl, nofun, nofun⟩
  | false =>
    have hoff : params.enable ≠ true := by simp [henable]
    exact ⟨⟨nofun, .nil⟩, inUnit_zero, inUnit_zero, fun hon => absurd hon hoff, fun _ => rfl, nofun⟩

theorem step_ramped {s : Session F} (h : s.Ramped) {step : Step F} (hgentle : s.Gentle step) : (s.step step).Ramped := by
  cases step with
  | applyParams params => exact h.applyParams hgentle
  | process frames carried => exact h.process frames carried

theorem run_ramped {s : Session F} (h : s.Ramped) {steps : List (Step F)} (hgently : s.Gently steps) : (s.run steps).Ramped := by
  induction steps generalizing s with
  | nil => exact h
  | cons step steps ih => exact ih (step_ramped h hgently.1) hgently.2

/-- **The mix moves without jumps** after a `Prepare`, over any calls and blocks, when every call that enables the engine finds
its mix at 1/256 at most, or comes before the first frame. -/
theorem mix_smooth {parts : Parts F} {config : IemEngineConfig} {params : IemParams F} {engine : IemEngine F}
    (hprepared : prepare parts config params = some engine) {steps : List (Step F)}
    (hgently : Gently { engine } steps) : Smooth (run { engine } steps).mixes :=
  (run_ramped (prepared_ramped hprepared) hgently).smooth

/-- **A call that is not gentle is a jump**, as soon as the next block leaves the engine. -/
theorem not_gentle_jumps {s : Session F} (h : s.Ramped) (hlatency : s.engine.latencyFrames ≠ 0) {params : IemParams F}
    (hrude : ¬s.Gentle (.applyParams params)) {frames : ℕ} (hframes : frames ≠ 0)
    (hfits : frames ≤ s.engine.config.maxHostBlockFrames) :
    ¬Smooth ((s.step (.applyParams params)).step (.process frames true)).mixes := by
  simp only [Gentle, Classical.not_imp, not_or, not_le] at hrude
  obtain ⟨henable, hdisabled, hsome, hmix⟩ := hrude
  obtain ⟨last, hlast⟩ : ∃ last, s.mixes.getLast? = some last := ⟨_, List.getLast?_eq_some_getLast hsome⟩
  -- the mix is above a step, so the last frame had it
  have hlastMix : last = s.engine.enableMix := by
    rcases h.last last hlast with heq | ⟨hzero, -⟩
    · exact heq
    · rw [hzero] at hmix
      exact absurd hmix (by norm_num [kEnableRampFrames])
  obtain ⟨frames, rfl⟩ := Nat.exists_eq_succ_of_ne_zero hframes
  intro hsmooth
  have hprocess : ∃ e' later, (s.engine.applyParams params).process (frames + 1) true = some (e', 0 :: later) := by
    have hfirst : frameMix s.engine.latencyFrames 1 0 0 = 0 := if_neg (by omega)
    have hfits : frames < s.engine.config.maxHostBlockFrames := hfits
    simp [IemEngine.applyParams, henable, hdisabled, IemEngine.process, resetPipeline, rampFrames, hfirst, hfits]
  obtain ⟨e', later, hblock⟩ := hprocess
  simp only [step, hblock] at hsmooth
  have hjump := (List.isChain_append.mp hsmooth.near).2.2 last hlast 0 rfl
  rw [Near, hlastMix, zero_sub, abs_neg, abs_of_nonneg h.mix.1] at hjump
  exact absurd hjump (not_le.mpr hmix)

/-! ## Runs of an engine at 8 kHz, with a pipeline of 352 frames -/

def slowConfig : IemEngineConfig := { hostSampleRate := 8000, maxHostBlockFrames := 512 }

/-- enabled, disabled while the mix comes up, and enabled again when it is down -/
theorem mix_smooth_toggled :
    ∃ engine, prepare unitParts slowConfig (withEnable false) = some engine ∧
      Smooth (run { engine } [.applyParams (withEnable true), .process 100 true, .applyParams (withEnable false),
        .process 40 true, .applyParams (withEnable true), .process 100 true]).mixes :=
  ⟨_, rfl, mix_smooth (show prepare unitParts slowConfig (withEnable false) = _ from rfl)
    ⟨fun _ _ => Or.inl rfl, trivial, nofun, trivial, fun _ _ => Or.inr (by decide +kernel), trivial, trivial⟩⟩

/-- **A fade-out that is taken back jumps.** The engine is disabled, 64 frames later its mix is 3/4; it is enabled again, and the
next frame has a mix of 0. -/
theorem reenabled_jumps :
    ∃ engine, prepare unitParts slowConfig (withEnable true) = some engine ∧
      ∃ mixes, mixes = (run { engine } [.process 90 true, .applyParams (withEnable false), .process 64 true,
        .applyParams (withEnable true), .process 1 true]).mixes ∧ mixes.drop 153 = [3 / 4, 0] ∧ ¬Smooth mixes := by
  refine ⟨_, rfl, _, rfl, by decide +kernel, ?_⟩
  intro hsmooth
  have hnear := hsmooth.near.drop 153
  rw [show List.drop 153 _ = [(3 / 4 : ℚ), 0] by decide +kernel] at hnear
  exact absurd (List.isChain_cons_cons.mp hnear).1 (by decide +kernel)

end Session

end IemEngine

end ViperFx.Iem.Record
