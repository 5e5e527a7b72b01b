/-
What a sequence of parameter updates leaves: the parameters are a function of the last accepted call for each parameter, and for
each source of the parameters that have two.

`Latest` keeps what these calls left, `assemble` makes the records out of it. The code keeps the records only, with the derived
coefficients next to the values, and updates one field at a time; `updateParam_stored` is that each of its cases writes the
field `assemble` reads for that parameter, and refreshes what is derived from it.

Results:
  · updateParam_stored  : every case of the update writes one entry of the table
  · run_assemble        : a run is the assembly of what its last calls left
  · assemble_inRange    : every field is within the bounds of its parameter
  · run_congr, apply_comm : the order of calls for different parameters does not matter
  · updates_commute     : all of this for the runs from the default parameters
-/
import ViperFx.Core.Latest
import ViperFx.Iem.ParamRecord

namespace ViperFx.Iem.Record

open ViperFx.Core

/-! ## Bounds -/

structure Within (value minimum maximum : ℤ) : Prop where
  minimum_le : minimum ≤ value
  le_maximum : value ≤ maximum

instance (value minimum maximum : ℤ) : Decidable (Within value minimum maximum) :=
  decidable_of_iff (minimum ≤ value ∧ value ≤ maximum) ⟨fun h => ⟨h.1, h.2⟩, fun h => ⟨h.1, h.2⟩⟩

variable {F : Type} (ops : FloatOps F)

def LimiterParams.InRange (params : LimiterParams) : Prop :=
  Within params.ceilingCentidb (-1200) 0

def StereoParams.InRange (params : StereoParams) : Prop :=
  (∀ v ∈ [params.azimuthCentidegrees, params.elevationCentidegrees, params.rollCentidegrees],
    Within v (-18000) 18000) ∧
  Within params.widthCentidegrees (-36000) 36000

def MultiParams.InRange (params : MultiParams) : Prop :=
  (∀ v ∈ [params.azimuthCentidegrees.first, params.azimuthCentidegrees.second, params.elevationCentidegrees.first,
    params.elevationCentidegrees.second], Within v (-18000) 18000) ∧
  (∀ v ∈ [params.gainDecidb.first, params.gainDecidb.second], Within v (-600) 100)

def GranularParams.InRange (params : GranularParams) : Prop :=
  (∀ v ∈ [params.azimuthCentidegrees, params.elevationCentidegrees, params.rollCentidegrees],
    Within v (-18000) 18000) ∧
  (∀ v ∈ [params.shapeTenths, params.sourceProbabilityHundredths], Within v (-100) 100) ∧
  Within params.sizeCentidegrees 0 36000 ∧
  Within params.widthCentidegrees (-36000) 36000 ∧
  (∀ v ∈ [params.deltaTimeUs, params.grainLengthUs], Within v 1000 2000000) ∧
  (∀ v ∈ [params.deltaTimeModTenthsPercent, params.grainLengthModTenthsPercent, params.attackModTenthsPercent,
    params.decayModTenthsPercent, params.mixTenthsPercent], Within v 0 1000) ∧
  (∀ v ∈ [params.readPositionUs, params.positionModUs], Within v 0 4000000) ∧
  Within params.pitchMillisem (-12000) 12000 ∧
  Within params.pitchModMillisem 0 12000 ∧
  (∀ v ∈ [params.attackTenthsPercent, params.decayTenthsPercent], Within v 0 500)

def RotationParams.InRange (params : RotationParams) : Prop :=
  (∀ v ∈ [params.yawCentidegrees, params.pitchCentidegrees, params.rollCentidegrees], Within v (-18000) 18000)

def HaloLfeParams.InRange (params : HaloLfeParams F) : Prop :=
  (∀ v ∈ [params.frequencyMillionths, params.splitMillionths, params.gainMillionths], Within v 0 1000000)

def HaloParams.InRange (params : HaloParams F) : Prop :=
  (∀ v ∈ [params.dialogIsolateThousandths, params.dialogAggressThousandths, params.dialogAttackThousandths,
    params.dialogReleaseThousandths, params.dialogMixInThousandths, params.divergenceThousandths,
    params.fadeThousandths, params.fadeRearsThousandths, params.diffusionThousandths, params.spaceThousandths,
    params.rearShelfFreqThousandths, params.rearShelfGainThousandths], Within v 0 1000) ∧
  params.lfe.InRange

def HaloDownmixParams.InRange (params : HaloDownmixParams F) : Prop :=
  (∀ v ∈ [params.lsDelayUs, params.rsDelayUs, params.lsrDelayUs, params.rsrDelayUs], Within v 0 32000) ∧
  (∀ v ∈ [params.sideShelfFrequencyMillionths, params.sideShelfGainMillionths, params.rearShelfFrequencyMillionths,
    params.rearShelfGainMillionths, params.panLeftMillionths, params.panRightMillionths,
    params.centerDivergenceMillionths, params.frontMidTrimMillionths, params.frontSideTrimMillionths,
    params.centerTrimMillionths, params.surroundMidTrimMillionths, params.surroundSideTrimMillionths,
    params.rearMidTrimMillionths, params.rearSideTrimMillionths, params.lfeTrimMillionths,
    params.lfeLpfFrequencyMillionths, params.outputHpfFrequencyMillionths, params.outputLeftTrimMillionths,
    params.outputRightTrimMillionths], Within v 0 1000000)

/-- the fields of the engine itself are within their bounds, as are those of every group -/
structure IemParams.InRange (params : IemParams F) : Prop where
  wet : ∃ v, Within v 0 100 ∧ params.wet = ops.percent v
  outputGain : ∃ v, Within v (-240) 240 ∧ params.outputGainDb = ops.tenths v
  order : Within params.order 1 3
  headphoneEq : Within params.decoder.headphoneEq (-1) 22
  limiter : params.limiter.InRange
  stereo : params.stereo.InRange
  multi : params.multi.InRange
  granular : params.granular.InRange
  rotation : params.rotation.InRange
  downmix : params.decoder.downmix.InRange
  halo : params.halo.InRange

/-! ## What a call leaves -/

/-- a parameter has a value, a value for each source, or is a command -/
inductive Kind where
  | value (setter : Setter)
  | perSource (setter : Setter)
  | command

def Param.kind : Param → Kind
  | .iemEnable | .iemLimiterEnable | .stereoSampleWise | .granularSpatialMode | .granularSampleWise
  | .rotationInvertYaw | .rotationInvertPitch | .rotationInvertRoll | .rotationInvertOverall | .rotationSequence
  | .haloBackBoost | .haloRearShelfEnable | .haloLfeEnable | .haloDownmixDelayEnable | .haloDownmixSideShelfEnable
  | .haloDownmixRearShelfEnable | .haloDownmixLfeLpfEnable | .haloDownmixScaleInputByOutputCount
  | .haloDownmixOutputHpfEnable => .value (.choice 0 1)
  | .iemWet => .value (.clamped 0 100)
  | .iemOutputGain => .value (.clamped (-240) 240)
  | .iemOrder => .value (.clamped 1 3)
  | .iemEncoderMode => .value (.choice 0 3)
  | .iemLatencyProfile | .iemRenderMode => .value (.choice 0 2)
  | .iemLimiterCeiling => .value (.clamped (-1200) 0)
  | .stereoAzimuth | .stereoElevation | .stereoRoll | .granularAzimuth | .granularElevation | .granularRoll
  | .rotationYaw | .rotationPitch | .rotationRoll => .value (.clamped (-18000) 18000)
  | .stereoWidth | .granularWidth => .value (.clamped (-36000) 36000)
  | .multiAzimuth | .multiElevation => .perSource (.clamped (-18000) 18000)
  | .multiGain => .perSource (.clamped (-600) 100)
  | .multiMute => .perSource (.choice 0 1)
  | .granularShape | .granularSourceProbability => .value (.clamped (-100) 100)
  | .granularSize => .value (.clamped 0 36000)
  | .granularDeltaTime | .granularGrainLength => .value (.clamped 1000 2000000)
  | .granularDeltaTimeMod | .granularGrainLengthMod | .granularAttackMod | .granularDecayMod | .granularMix
  | .haloDialogIsolate | .haloDialogAggress | .haloDialogAttack | .haloDialogRelease | .haloDialogMixIn
  | .haloDivergence | .haloFade | .haloFadeRears | .haloDiffusion | .haloSpace | .haloRearShelfFreq
  | .haloRearShelfGain => .value (.clamped 0 1000)
  | .granularReadPosition | .granularPositionMod => .value (.clamped 0 4000000)
  | .granularPitch => .value (.clamped (-12000) 12000)
  | .granularPitchMod => .value (.clamped 0 12000)
  | .granularWindowAttack | .granularWindowDecay => .value (.clamped 0 500)
  | .headphoneEq => .value (.choice (-1) 22)
  | .haloLfeFrequency | .haloLfeSplit | .haloLfeGain | .haloDownmixSideShelfFrequency | .haloDownmixSideShelfGain
  | .haloDownmixRearShelfFrequency | .haloDownmixRearShelfGain | .haloDownmixPanLeft | .haloDownmixPanRight
  | .haloDownmixCenterDivergence | .haloDownmixFrontMidTrim | .haloDownmixFrontSideTrim | .haloDownmixCenterTrim
  | .haloDownmixSurroundMidTrim | .haloDownmixSurroundSideTrim | .haloDownmixRearMidTrim | .haloDownmixRearSideTrim
  | .haloDownmixLfeTrim | .haloDownmixLfeLpfFrequency | .haloDownmixOutputHpfFrequency | .haloDownmixOutputLeftTrim
  | .haloDownmixOutputRightTrim => .value (.clamped 0 1000000)
  | .haloDownmixLsDelay | .haloDownmixRsDelay | .haloDownmixLsrDelay | .haloDownmixRsrDelay
    => .value (.clamped 0 32000)
  | .iemResourceReset | .resetRotation | .granularFreeze | .resetIemRuntime => .command

/-- the source and the value a call leaves, if it is accepted -/
def stored (param : Param) (val1 val2 : ℤ) : Option ((Param × ℤ) × ℤ) :=
  match param.kind with
  | .command => none
  | .value setter => (setter.set val1).map fun v => ((param, 0), v)
  | .perSource setter => if val1 ≠ 0 ∧ val1 ≠ 1 then none else (setter.set val2).map fun v => ((param, val1), v)

/-! ## The records from what was left -/

abbrev Latest := Latest.Store (Param × ℤ) ℤ

def Latest.made {α : Type} (latest : Latest) (param : Param) (initial : α) (make : ℤ → α) (source : ℤ := 0) : α :=
  (latest (param, source)).elim initial make

def Latest.value (latest : Latest) (param : Param) (initial : ℤ) (source : ℤ := 0) : ℤ :=
  latest.made param initial id source

def Latest.flag (latest : Latest) (param : Param) (initial : Bool) (source : ℤ := 0) : Bool :=
  latest.made param initial (fun v => v ≠ 0) source

def Latest.limiter (latest : Latest) : LimiterParams where
  enabled := latest.flag .iemLimiterEnable true
  ceilingCentidb := latest.value .iemLimiterCeiling (-30)

def Latest.stereo (latest : Latest) : StereoParams where
  azimuthCentidegrees := latest.value .stereoAzimuth 0
  elevationCentidegrees := latest.value .stereoElevation 0
  rollCentidegrees := latest.value .stereoRoll 0
  widthCentidegrees := latest.value .stereoWidth 6000
  sampleWise := latest.flag .stereoSampleWise false

def Latest.multi (latest : Latest) : MultiParams where
  azimuthCentidegrees := ⟨latest.value .multiAzimuth (-3000) 0, latest.value .multiAzimuth 3000 1⟩
  elevationCentidegrees := ⟨latest.value .multiElevation 0 0, latest.value .multiElevation 0 1⟩
  gainDecidb := ⟨latest.value .multiGain 0 0, latest.value .multiGain 0 1⟩
  mute := ⟨latest.flag .multiMute false 0, latest.flag .multiMute false 1⟩

def Latest.granular (latest : Latest) : GranularParams where
  azimuthCentidegrees := latest.value .granularAzimuth 0
  elevationCentidegrees := latest.value .granularElevation 0
  shapeTenths := latest.value .granularShape 0
  sizeCentidegrees := latest.value .granularSize 18000
  rollCentidegrees := latest.value .granularRoll 0
  widthCentidegrees := latest.value .granularWidth 0
  deltaTimeUs := latest.value .granularDeltaTime 5000
  deltaTimeModTenthsPercent := latest.value .granularDeltaTimeMod 0
  grainLengthUs := latest.value .granularGrainLength 250000
  grainLengthModTenthsPercent := latest.value .granularGrainLengthMod 0
  readPositionUs := latest.value .granularReadPosition 0
  positionModUs := latest.value .granularPositionMod 50000
  pitchMillisem := latest.value .granularPitch 0
  pitchModMillisem := latest.value .granularPitchMod 0
  attackTenthsPercent := latest.value .granularWindowAttack 500
  attackModTenthsPercent := latest.value .granularAttackMod 0
  decayTenthsPercent := latest.value .granularWindowDecay 500
  decayModTenthsPercent := latest.value .granularDecayMod 0
  mixTenthsPercent := latest.value .granularMix 500
  sourceProbabilityHundredths := latest.value .granularSourceProbability 0
  spatialMode := latest.made .granularSpatialMode .threeD GranularSpatialMode.ofInt
  sampleWise := latest.flag .granularSampleWise false

def Latest.rotation (latest : Latest) : RotationParams where
  yawCentidegrees := latest.value .rotationYaw 0
  pitchCentidegrees := latest.value .rotationPitch 0
  rollCentidegrees := latest.value .rotationRoll 0
  invertYaw := latest.flag .rotationInvertYaw false
  invertPitch := latest.flag .rotationInvertPitch false
  invertRoll := latest.flag .rotationInvertRoll false
  invertOverall := latest.flag .rotationInvertOverall false
  sequence := latest.made .rotationSequence .rollPitchYaw RotationSequence.ofInt

def Latest.lfe (latest : Latest) : HaloLfeParams F where
  enabled := latest.flag .haloLfeEnable true
  frequencyMillionths := latest.value .haloLfeFrequency 750000
  splitMillionths := latest.value .haloLfeSplit 0
  gainMillionths := latest.value .haloLfeGain 272727
  coefficients96k := latest.made .haloLfeFrequency (.initial ops) (ops.makeHaloLfeLowPass 96000)
  gainLinear := latest.made .haloLfeGain (ops.literal 0.0316227766) ops.haloLfeGainLinear

def Latest.halo (latest : Latest) : HaloParams F where
  dialogIsolateThousandths := latest.value .haloDialogIsolate 0
  dialogAggressThousandths := latest.value .haloDialogAggress 500
  dialogAttackThousandths := latest.value .haloDialogAttack 300
  dialogReleaseThousandths := latest.value .haloDialogRelease 750
  dialogMixInThousandths := latest.value .haloDialogMixIn 0
  divergenceThousandths := latest.value .haloDivergence 500
  fadeThousandths := latest.value .haloFade 300
  fadeRearsThousandths := latest.value .haloFadeRears 200
  diffusionThousandths := latest.value .haloDiffusion 200
  spaceThousandths := latest.value .haloSpace 800
  backBoost := latest.flag .haloBackBoost true
  rearShelfEnable := latest.flag .haloRearShelfEnable true
  rearShelfFreqThousandths := latest.value .haloRearShelfFreq 816
  rearShelfGainThousandths := latest.value .haloRearShelfGain 475
  lfe := latest.lfe ops

def Latest.unrefreshed (latest : Latest) : HaloDownmixParams F where
  delayEnable := latest.flag .haloDownmixDelayEnable true
  lsDelayUs := latest.value .haloDownmixLsDelay 0
  rsDelayUs := latest.value .haloDownmixRsDelay 0
  lsrDelayUs := latest.value .haloDownmixLsrDelay 0
  rsrDelayUs := latest.value .haloDownmixRsrDelay 0
  sideShelfEnable := latest.flag .haloDownmixSideShelfEnable false
  sideShelfFrequencyMillionths := latest.value .haloDownmixSideShelfFrequency 229819
  sideShelfGainMillionths := latest.value .haloDownmixSideShelfGain 777778
  rearShelfEnable := latest.flag .haloDownmixRearShelfEnable false
  rearShelfFrequencyMillionths := latest.value .haloDownmixRearShelfFrequency 229819
  rearShelfGainMillionths := latest.value .haloDownmixRearShelfGain 777778
  panLeftMillionths := latest.value .haloDownmixPanLeft 1000000
  panRightMillionths := latest.value .haloDownmixPanRight 1000000
  centerDivergenceMillionths := latest.value .haloDownmixCenterDivergence 0
  frontMidTrimMillionths := latest.value .haloDownmixFrontMidTrim 777778
  frontSideTrimMillionths := latest.value .haloDownmixFrontSideTrim 777778
  centerTrimMillionths := latest.value .haloDownmixCenterTrim 744444
  surroundMidTrimMillionths := latest.value .haloDownmixSurroundMidTrim 744444
  surroundSideTrimMillionths := latest.value .haloDownmixSurroundSideTrim 744444
  rearMidTrimMillionths := latest.value .haloDownmixRearMidTrim 711111
  rearSideTrimMillionths := latest.value .haloDownmixRearSideTrim 711111
  lfeTrimMillionths := latest.value .haloDownmixLfeTrim 777778
  lfeLpfEnable := latest.flag .haloDownmixLfeLpfEnable false
  lfeLpfFrequencyMillionths := latest.value .haloDownmixLfeLpfFrequency 328797
  scaleInputByOutputCount := latest.flag .haloDownmixScaleInputByOutputCount false
  outputHpfEnable := latest.flag .haloDownmixOutputHpfEnable false
  outputHpfFrequencyMillionths := latest.value .haloDownmixOutputHpfFrequency 57898
  outputLeftTrimMillionths := latest.value .haloDownmixOutputLeftTrim 777778
  outputRightTrimMillionths := latest.value .haloDownmixOutputRightTrim 777778
  derived := .initial ops

def assemble (latest : Latest) : IemParams F where
  enable := latest.flag .iemEnable false
  wet := latest.made .iemWet (ops.literal 1) ops.percent
  outputGainDb := latest.made .iemOutputGain (ops.literal 0) ops.tenths
  order := latest.value .iemOrder 3
  encoderMode := latest.made .iemEncoderMode .stereo EncoderMode.ofInt
  renderMode := latest.made .iemRenderMode .ku100 RenderMode.ofInt
  latencyProfile := latest.made .iemLatencyProfile .balanced LatencyProfile.ofInt
  limiter := latest.limiter
  stereo := latest.stereo
  multi := latest.multi
  granular := latest.granular
  rotation := latest.rotation
  decoder := { headphoneEq := latest.value .headphoneEq (-1), downmix := refreshHaloDownmixDerived ops (latest.unrefreshed ops) }
  halo := latest.halo ops

theorem assemble_initial : assemble ops (fun _ => none) = IemParams.initial ops := rfl

/-! ## The cases of the update -/

variable {ops}

/-- a case that sets one value, when what it puts is the assembly with that value in the table -/
theorem setWith_stored {latest : Latest} {setter : Setter} {value : ℤ} {key : Param × ℤ} {put : ℤ → IemParams F}
    {left : (Param × ℤ) × ℤ} (hput : ∀ v, put v = assemble ops (latest.put key v))
    (h : (setter.set value).map (fun v => (key, v)) = some left) :
    setWith (assemble ops latest) setter value put = (.updated, assemble ops (latest.put left.1 left.2)) := by
  obtain ⟨v, hset, rfl⟩ := Option.map_eq_some_iff.mp h
  unfold setWith
  rw [hset]
  exact congrArg (Prod.mk ParamUpdate.updated) (hput v)

theorem source_cases {value : ℤ} (h : ¬(value ≠ 0 ∧ value ≠ 1)) : value = 0 ∨ value = 1 := by
  omega

theorem updateParam_stored {latest : Latest} {param : Param} {val1 val2 : ℤ} {left : (Param × ℤ) × ℤ}
    (h : stored param val1 val2 = some left) :
    updateParam ops (assemble ops latest) param val1 val2 = (.updated, assemble ops (latest.put left.1 left.2)) := by
  cases param
  case iemResourceReset | resetRotation | granularFreeze | resetIemRuntime => exact nomatch h
  case multiAzimuth | multiElevation | multiGain | multiMute =>
    simp only [stored, Param.kind] at h
    split_ifs at h with hsource
    simp only [updateParam, ifSourceIndex, if_neg hsource]
    obtain rfl | rfl := source_cases hsource
    · exact setWith_stored (fun v => rfl) h
    · exact setWith_stored (fun v => rfl) h
  all_goals
    simp only [stored, Param.kind] at h
    simp only [updateParam, setBool, setEnum, setClamped]
    exact setWith_stored (fun v => rfl) h

theorem setWith_updated {params : IemParams F} {setter : Setter} {value : ℤ} {put : ℤ → IemParams F}
    (h : (setWith params setter value put).1 = .updated) : ∃ v, setter.set value = some v := by
  rw [setWith_status] at h
  split_ifs at h with hset
  exact Option.isSome_iff_exists.mp hset

/-- the source a call is for -/
def sourceOf (param : Param) (val1 : ℤ) : ℤ :=
  match param.kind with
  | .perSource _ => val1
  | _ => 0

theorem updateParam_updated {params : IemParams F} {param : Param} {val1 val2 : ℤ}
    (h : (updateParam ops params param val1 val2).1 = .updated) :
    ∃ v, stored param val1 val2 = some ((param, sourceOf param val1), v) := by
  cases param
  case iemResourceReset | resetRotation | resetIemRuntime | granularFreeze =>
    simp only [updateParam] at h
    split_ifs at h
  case multiAzimuth | multiElevation | multiGain | multiMute =>
    simp only [updateParam, ifSourceIndex_status] at h
    split_ifs at h with hsource
    obtain ⟨v, hset⟩ := setWith_updated h
    refine ⟨v, ?_⟩
    simp only [stored, Param.kind, sourceOf, if_neg hsource, hset, Option.map_some]
  all_goals
    obtain ⟨v, hset⟩ := setWith_updated h
    refine ⟨v, ?_⟩
    simp only [stored, Param.kind, sourceOf, hset, Option.map_some]

/-! ## Every field is within its bounds -/

def bounds : Setter → ℤ × ℤ
  | .choice minimum maximum | .clamped minimum maximum => (minimum, maximum)

def Param.bounds (param : Param) : ℤ × ℤ :=
  match param.kind with
  | .value setter | .perSource setter => Record.bounds setter
  | .command => (0, 0)

theorem Param.bounds_le (param : Param) : param.bounds.1 ≤ param.bounds.2 := by
  cases param <;> decide

theorem set_within {setter : Setter} {value v : ℤ} (hbounds : (bounds setter).1 ≤ (bounds setter).2)
    (h : setter.set value = some v) : Within v (bounds setter).1 (bounds setter).2 := by
  cases setter with
  | choice minimum maximum =>
    simp only [Setter.set] at h
    split_ifs at h with hout
    obtain rfl := Option.some.inj h
    exact ⟨by simp only [bounds]; omega, by simp only [bounds]; omega⟩
  | clamped minimum maximum =>
    obtain rfl := Option.some.inj h
    simp only [bounds] at hbounds
    exact ⟨by simp only [bounds]; omega, by simp only [bounds]; omega⟩

theorem stored_within {param : Param} {val1 val2 : ℤ} {key : Param × ℤ} {v : ℤ} (h : stored param val1 val2 = some (key, v)) :
    Within v key.1.bounds.1 key.1.bounds.2 := by
  have hle := param.bounds_le
  unfold Param.bounds at hle
  unfold stored at h
  cases hkind : param.kind with
  | command =>
    rw [hkind] at h
    exact nomatch h
  | value setter =>
    rw [hkind] at h hle
    obtain ⟨w, hset, heq⟩ := Option.map_eq_some_iff.mp h
    obtain ⟨rfl, rfl⟩ := Prod.mk.inj heq
    simp only [Param.bounds, hkind]
    exact set_within hle hset
  | perSource setter =>
    rw [hkind] at h hle
    dsimp only at h
    split_ifs at h with hsource
    obtain ⟨w, hset, heq⟩ := Option.map_eq_some_iff.mp h
    obtain ⟨rfl, rfl⟩ := Prod.mk.inj heq
    simp only [Param.bounds, hkind]
    exact set_within hle hset

def Latest.Ok (latest : Latest) : Prop := ∀ key v, latest key = some v → Within v key.1.bounds.1 key.1.bounds.2

theorem Latest.Ok.value_within {latest : Latest} (h : latest.Ok) (param : Param) (initial source : ℤ)
    (hinitial : Within initial param.bounds.1 param.bounds.2) :
    Within (latest.value param initial source) param.bounds.1 param.bounds.2 := by
  unfold Latest.value Latest.made
  cases hat : latest (param, source) with
  | none => exact hinitial
  | some v => exact h _ v hat

/-- a field made from a value in the bounds of its parameter -/
theorem Latest.Ok.made_within {α : Type} {latest : Latest} (h : latest.Ok) (param : Param) {initial : ℤ} (make : ℤ → α)
    (hinitial : Within initial param.bounds.1 param.bounds.2) :
    ∃ v, Within v param.bounds.1 param.bounds.2 ∧ latest.made param (make initial) make = make v := by
  unfold Latest.made
  cases hat : latest (param, 0) with
  | none => exact ⟨initial, hinitial, rfl⟩
  | some v => exact ⟨v, h _ v hat, rfl⟩

variable (ops) {latest : Latest} (h : latest.Ok)
include h

theorem stereo_inRange : latest.stereo.InRange := by
  simp only [StereoParams.InRange, Latest.stereo, List.forall_mem_cons, List.not_mem_nil, IsEmpty.forall_iff,
    implies_true, and_true]
  repeat' apply And.intro
  all_goals exact h.value_within _ _ _ (by decide)

theorem multi_inRange : latest.multi.InRange := by
  simp only [MultiParams.InRange, Latest.multi, List.forall_mem_cons, List.not_mem_nil, IsEmpty.forall_iff,
    implies_true, and_true]
  repeat' apply And.intro
  all_goals exact h.value_within _ _ _ (by decide)

theorem granular_inRange : latest.granular.InRange := by
  simp only [GranularParams.InRange, Latest.granular, List.forall_mem_cons, List.not_mem_nil, IsEmpty.forall_iff,
    implies_true, and_true]
  repeat' apply And.intro
  all_goals exact h.value_within _ _ _ (by decide)

theorem rotation_inRange : latest.rotation.InRange := by
  simp only [RotationParams.InRange, Latest.rotation, List.forall_mem_cons, List.not_mem_nil, IsEmpty.forall_iff,
    implies_true, and_true]
  repeat' apply And.intro
  all_goals exact h.value_within _ _ _ (by decide)

theorem halo_inRange : (latest.halo ops).InRange := by
  simp only [HaloParams.InRange, HaloLfeParams.InRange, Latest.halo, Latest.lfe, List.forall_mem_cons, List.not_mem_nil,
    IsEmpty.forall_iff, implies_true, and_true]
  repeat' apply And.intro
  all_goals exact h.value_within _ _ _ (by decide)

theorem unrefreshed_inRange : (latest.unrefreshed ops).InRange := by
  simp only [HaloDownmixParams.InRange, Latest.unrefreshed, List.forall_mem_cons, List.not_mem_nil, IsEmpty.forall_iff,
    implies_true, and_true]
  repeat' apply And.intro
  all_goals exact h.value_within _ _ _ (by decide)

/-- **Every field of the assembly is within the bounds of its parameter.** -/
theorem assemble_inRange : (assemble ops latest).InRange ops where
  wet := by
    have hmade := h.made_within .iemWet ops.percent (show Within 100 0 100 by decide)
    rwa [ops.percent_hundred] at hmade
  outputGain := by
    have hmade := h.made_within .iemOutputGain ops.tenths (show Within 0 (-240) 240 by decide)
    rwa [ops.tenths_zero] at hmade
  order := h.value_within .iemOrder _ _ (by decide)
  headphoneEq := h.value_within .headphoneEq _ _ (by decide)
  limiter := h.value_within .iemLimiterCeiling _ _ (by decide)
  stereo := stereo_inRange h
  multi := multi_inRange h
  granular := granular_inRange h
  rotation := rotation_inRange h
  downmix := unrefreshed_inRange ops h
  halo := halo_inRange ops h

omit h

/-! ## Runs -/

structure Call where
  param : ℤ
  val1 : ℤ
  val2 : ℤ
deriving DecidableEq, Repr

def Call.status (params : IemParams F) (call : Call) : ParamUpdate :=
  (updateIemParameterSnapshot ops params call.param call.val1 call.val2).1

def Call.apply (params : IemParams F) (call : Call) : IemParams F :=
  (updateIemParameterSnapshot ops params call.param call.val1 call.val2).2

def run (calls : List Call) : IemParams F := calls.foldl (Call.apply ops) (.initial ops)

def multiIds : List ℤ := [0x12020, 0x12021, 0x12022, 0x12023]

/-- the source a call names, for the ids that have two -/
def Call.source (call : Call) : ℤ := if call.param ∈ multiIds then call.val1 else 0

/-- what a call answers is the same for all parameters: `update_status` -/
def Call.Accepted (call : Call) : Prop := call.status ops (.initial ops) = .updated

instance (call : Call) : Decidable (call.Accepted ops) := by
  unfold Call.Accepted; infer_instance

/-- the last accepted call with an id and a source -/
def lastAccepted (calls : List Call) (id source : ℤ) : Option Call :=
  calls.reverse.find? fun call => call.Accepted ops ∧ call.param = id ∧ call.source = source

/-- what a call leaves in the table -/
def Call.entry (call : Call) : Option ((Param × ℤ) × ℤ) :=
  (Param.ofId call.param).bind fun param => stored param call.val1 call.val2

theorem sourceOf_ofId {id : ℤ} {param : Param} (hid : Param.ofId id = some param) (val1 : ℤ) :
    sourceOf param val1 = if id ∈ multiIds then val1 else 0 := by
  obtain rfl := Param.id_ofId hid
  cases param <;> rfl

/-- an accepted call leaves its value under its parameter and its source -/
theorem Call.entry_updated {call : Call} {params : IemParams F} (h : call.status ops params = .updated) :
    ∃ param v, Param.ofId call.param = some param ∧ call.entry = some ((param, call.source), v) := by
  unfold Call.status updateIemParameterSnapshot at h
  cases hid : Param.ofId call.param with
  | none =>
    rw [hid] at h
    exact nomatch h
  | some param =>
    rw [hid] at h
    obtain ⟨v, hstored⟩ := updateParam_updated h
    refine ⟨param, v, rfl, ?_⟩
    rw [Call.entry, hid, Option.bind_some, hstored, sourceOf_ofId hid]
    rfl

/-- what a call leaves, it leaves whatever the parameters are -/
theorem entry_accepted {call : Call} {left : (Param × ℤ) × ℤ} (h : call.entry = some left) (latest : Latest) :
    updateIemParameterSnapshot ops (assemble ops latest) call.param call.val1 call.val2
      = (.updated, assemble ops (latest.put left.1 left.2)) := by
  obtain ⟨param, hid, hstored⟩ := Option.bind_eq_some_iff.mp h
  unfold updateIemParameterSnapshot
  rw [hid]
  exact updateParam_stored hstored

/-- one call is one entry of the table -/
theorem apply_assemble (latest : Latest) (call : Call) :
    call.apply ops (assemble ops latest) = assemble ops (Latest.record Call.entry latest call) := by
  unfold Latest.record
  cases hentry : call.entry with
  | some left => exact congrArg Prod.snd (entry_accepted ops hentry latest)
  | none =>
    apply update_refused
    intro hupdated
    obtain ⟨param, v, hid, hsome⟩ := Call.entry_updated ops hupdated
    exact nomatch hentry.symm.trans hsome

/-- **A run is the assembly of what its last calls left.** -/
theorem run_assemble (calls : List Call) : run ops calls = assemble ops (Latest.replay Call.entry calls) := by
  induction calls using List.reverseRecOn with
  | nil => exact (assemble_initial ops).symm
  | append_singleton calls call ih =>
    rw [Latest.replay_append, ← apply_assemble, ← ih]
    simp [run]

theorem entry_key (call : Call) (param : Param) (source : ℤ) :
    call.entry.map Prod.fst = some (param, source) ↔ call.Accepted ops ∧ call.param = param.id ∧ call.source = source := by
  constructor
  · intro hkey
    obtain ⟨left, hentry, hleft⟩ := Option.map_eq_some_iff.mp hkey
    have haccepted : call.Accepted ops := congrArg Prod.fst (entry_accepted ops hentry fun _ => none)
    obtain ⟨found, v, hid, hsome⟩ := Call.entry_updated ops haccepted
    obtain rfl := Option.some.inj (hentry.symm.trans hsome)
    obtain ⟨rfl, hsource⟩ := Prod.mk.inj hleft
    exact ⟨haccepted, (Param.id_ofId hid).symm, hsource⟩
  · rintro ⟨haccepted, hparam, hsource⟩
    obtain ⟨found, v, hid, hsome⟩ := Call.entry_updated ops haccepted
    rw [hparam, Param.ofId_id, Option.some.injEq] at hid
    rw [hsome, Option.map_some, hsource, hid]

theorem lastAt_lastAccepted (calls : List Call) (key : Param × ℤ) :
    Latest.lastAt Call.entry calls key = lastAccepted ops calls key.1.id key.2 := by
  unfold Latest.lastAt lastAccepted
  congr 1
  funext call
  exact decide_eq_decide.mpr (entry_key ops call key.1 key.2)

theorem replay_ok (calls : List Call) : Latest.Ok (Latest.replay Call.entry calls) := by
  intro key v hat
  refine Latest.replay_all (P := fun key v => Within v key.1.bounds.1 key.1.bounds.2) calls ?_ hat
  intro call key v hentry
  obtain ⟨param, hid, hstored⟩ := Option.bind_eq_some_iff.mp hentry
  exact stored_within hstored

/-- **The last accepted calls decide the parameters.** -/
theorem run_congr {calls others : List Call}
    (h : ∀ id source, lastAccepted ops others id source = lastAccepted ops calls id source) : run ops others = run ops calls := by
  rw [run_assemble, run_assemble]
  congr 1
  apply Latest.replay_congr
  intro key
  rw [lastAt_lastAccepted ops, lastAt_lastAccepted ops]
  exact h key.1.id key.2

/-- **Accepted calls for different parameters or sources commute.** -/
theorem apply_comm (latest : Latest) {a b : Call} (ha : a.Accepted ops) (hb : b.Accepted ops)
    (h : a.param ≠ b.param ∨ a.source ≠ b.source) :
    b.apply ops (a.apply ops (assemble ops latest)) = a.apply ops (b.apply ops (assemble ops latest)) := by
  obtain ⟨left, v, hleft, haentry⟩ := Call.entry_updated ops ha
  obtain ⟨right, w, hright, hbentry⟩ := Call.entry_updated ops hb
  have hkeys : (left, a.source) ≠ (right, b.source) := by
    intro heq
    obtain ⟨rfl, hsource⟩ := Prod.mk.inj heq
    have hparam := (Param.id_ofId hleft).symm.trans (Param.id_ofId hright)
    exact h.elim (absurd hparam) (absurd hsource)
  rw [apply_assemble, apply_assemble, apply_assemble, apply_assemble]
  exact congrArg (assemble ops) (Latest.record_comm latest haentry hbentry hkeys)

/-- **Updates stay in range and commute.** After any calls from the default parameters: every field is within the bounds its
update clamps or checks to; what is derived for the downmix is what a refresh computes; a call that is not accepted changes
nothing; any calls with the same last accepted call for each id and source leave the same parameters; and two accepted calls
with different ids or sources can be exchanged. -/
theorem updates_commute (calls : List Call) :
    (run ops calls).InRange ops ∧
    (run ops calls).decoder.downmix = refreshHaloDownmixDerived ops (run ops calls).decoder.downmix ∧
    (∀ call : Call, call.status ops (run ops calls) ≠ .updated → call.apply ops (run ops calls) = run ops calls) ∧
    (∀ others, (∀ id source, lastAccepted ops others id source = lastAccepted ops calls id source) →
      run ops others = run ops calls) ∧
    (∀ a b : Call, a.Accepted ops → b.Accepted ops → a.param ≠ b.param ∨ a.source ≠ b.source →
      b.apply ops (a.apply ops (run ops calls)) = a.apply ops (b.apply ops (run ops calls))) := by
  refine ⟨?_, ?_, ?_, ?_, ?_⟩
  · rw [run_assemble]
    exact assemble_inRange ops (replay_ok calls)
  · rw [run_assemble]
    rfl
  · intro call hstatus
    exact update_refused ops hstatus
  · intro others h
    exact run_congr ops h
  · intro a b ha hb h
    rw [run_assemble]
    exact apply_comm ops _ ha hb h

end ViperFx.Iem.Record
