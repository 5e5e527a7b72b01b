/-
The parameters of the IEM engine as records: `IEMDSP/include/iem/IemParams.h`, `IEMDSP/include/iem/HaloDownmixParams.h`,
`IEMDSP/src/IemParams.cpp` and `RefreshHaloDownmixDerived`.

Every field is here under its group, with the filter coefficients and gains that are kept next to the values they are made
from. `float` is a type of its own: what a coefficient is made with is `FloatOps`, and nothing is assumed of it but that one
hundred percent and zero decibels are the defaults. The ids of the parameters are an enumeration, `Param.ofId` reads one.

Results:
  · update_refused     : a call that answers anything but `updated` leaves the parameters as they are
  · update_status      : what a call answers does not depend on the parameters
-/
import ViperFx.Iem.IemParams

namespace ViperFx.Iem.Record

/-! ## Records -/

inductive GranularSpatialMode where
  | threeD
  | twoD
deriving DecidableEq, Repr

inductive RotationSequence where
  | yawPitchRoll
  | rollPitchYaw
deriving DecidableEq, Repr

/-- `std::array` with an entry for each of the two sources -/
structure Sources (α : Type) where
  first : α
  second : α
deriving DecidableEq, Repr

def Sources.put {α : Type} (sources : Sources α) (index : ℤ) (value : α) : Sources α :=
  if index = 0 then { sources with first := value } else { sources with second := value }

structure LimiterParams where
  enabled : Bool := true
  ceilingCentidb : ℤ := -30
deriving DecidableEq, Repr

structure StereoParams where
  azimuthCentidegrees : ℤ := 0
  elevationCentidegrees : ℤ := 0
  rollCentidegrees : ℤ := 0
  widthCentidegrees : ℤ := 6000
  sampleWise : Bool := false
deriving DecidableEq, Repr

structure MultiParams where
  azimuthCentidegrees : Sources ℤ := ⟨-3000, 3000⟩
  elevationCentidegrees : Sources ℤ := ⟨0, 0⟩
  gainDecidb : Sources ℤ := ⟨0, 0⟩
  mute : Sources Bool := ⟨false, false⟩
deriving DecidableEq, Repr

structure GranularParams where
  azimuthCentidegrees : ℤ := 0
  elevationCentidegrees : ℤ := 0
  shapeTenths : ℤ := 0
  sizeCentidegrees : ℤ := 18000
  rollCentidegrees : ℤ := 0
  widthCentidegrees : ℤ := 0
  deltaTimeUs : ℤ := 5000
  deltaTimeModTenthsPercent : ℤ := 0
  grainLengthUs : ℤ := 250000
  grainLengthModTenthsPercent : ℤ := 0
  readPositionUs : ℤ := 0
  positionModUs : ℤ := 50000
  pitchMillisem : ℤ := 0
  pitchModMillisem : ℤ := 0
  attackTenthsPercent : ℤ := 500
  attackModTenthsPercent : ℤ := 0
  decayTenthsPercent : ℤ := 500
  decayModTenthsPercent : ℤ := 0
  mixTenthsPercent : ℤ := 500
  sourceProbabilityHundredths : ℤ := 0
  spatialMode : GranularSpatialMode := .threeD
  sampleWise : Bool := false
deriving DecidableEq, Repr

structure RotationParams where
  yawCentidegrees : ℤ := 0
  pitchCentidegrees : ℤ := 0
  rollCentidegrees : ℤ := 0
  invertYaw : Bool := false
  invertPitch : Bool := false
  invertRoll : Bool := false
  invertOverall : Bool := false
  sequence : RotationSequence := .rollPitchYaw
deriving DecidableEq, Repr

structure HaloLfeCoefficients (F : Type) where
  b0 : F
  b1 : F
  b2 : F
  fb1 : F
  fb2 : F

structure HaloLfeParams (F : Type) where
  enabled : Bool := true
  frequencyMillionths : ℤ := 750000
  splitMillionths : ℤ := 0
  gainMillionths : ℤ := 272727
  coefficients96k : HaloLfeCoefficients F
  gainLinear : F

structure HaloParams (F : Type) where
  dialogIsolateThousandths : ℤ := 0
  dialogAggressThousandths : ℤ := 500
  dialogAttackThousandths : ℤ := 300
  dialogReleaseThousandths : ℤ := 750
  dialogMixInThousandths : ℤ := 0
  divergenceThousandths : ℤ := 500
  fadeThousandths : ℤ := 300
  fadeRearsThousandths : ℤ := 200
  diffusionThousandths : ℤ := 200
  spaceThousandths : ℤ := 800
  backBoost : Bool := true
  rearShelfEnable : Bool := true
  rearShelfFreqThousandths : ℤ := 816
  rearShelfGainThousandths : ℤ := 475
  lfe : HaloLfeParams F

structure HaloDownmixBiquadCoefficients (F : Type) where
  b0 : F
  b1 : F
  b2 : F
  a1 : F
  a2 : F

structure HaloDownmixBalanceCoefficients (F : Type) where
  leftFromLeft : F
  leftFromRight : F
  rightFromLeft : F
  rightFromRight : F

structure HaloDownmixDerived (F : Type) where
  sideShelf : HaloDownmixBiquadCoefficients F
  rearShelf : HaloDownmixBiquadCoefficients F
  lfeLowPass : HaloDownmixBiquadCoefficients F
  outputHighPass : HaloDownmixBiquadCoefficients F
  balance : HaloDownmixBalanceCoefficients F
  frontMidGain : F
  frontSideGain : F
  centerGain : F
  surroundMidGain : F
  surroundSideGain : F
  rearMidGain : F
  rearSideGain : F
  lfeGain : F
  outputLeftGain : F
  outputRightGain : F

structure HaloDownmixParams (F : Type) where
  delayEnable : Bool := true
  lsDelayUs : ℤ := 0
  rsDelayUs : ℤ := 0
  lsrDelayUs : ℤ := 0
  rsrDelayUs : ℤ := 0
  sideShelfEnable : Bool := false
  sideShelfFrequencyMillionths : ℤ := 229819
  sideShelfGainMillionths : ℤ := 777778
  rearShelfEnable : Bool := false
  rearShelfFrequencyMillionths : ℤ := 229819
  rearShelfGainMillionths : ℤ := 777778
  panLeftMillionths : ℤ := 1000000
  panRightMillionths : ℤ := 1000000
  centerDivergenceMillionths : ℤ := 0
  frontMidTrimMillionths : ℤ := 777778
  frontSideTrimMillionths : ℤ := 777778
  centerTrimMillionths : ℤ := 744444
  surroundMidTrimMillionths : ℤ := 744444
  surroundSideTrimMillionths : ℤ := 744444
  rearMidTrimMillionths : ℤ := 711111
  rearSideTrimMillionths : ℤ := 711111
  lfeTrimMillionths : ℤ := 777778
  lfeLpfEnable : Bool := false
  lfeLpfFrequencyMillionths : ℤ := 328797
  scaleInputByOutputCount : Bool := false
  outputHpfEnable : Bool := false
  outputHpfFrequencyMillionths : ℤ := 57898
  outputLeftTrimMillionths : ℤ := 777778
  outputRightTrimMillionths : ℤ := 777778
  derived : HaloDownmixDerived F

/-- the headphone equalizer is the number of its `HeadphoneEqId`, -1 is off -/
structure DecoderParams (F : Type) where
  headphoneEq : ℤ := -1
  downmix : HaloDownmixParams F

structure IemParams (F : Type) where
  enable : Bool := false
  wet : F
  outputGainDb : F
  order : ℤ := 3
  encoderMode : EncoderMode := .stereo
  renderMode : RenderMode := .ku100
  latencyProfile : LatencyProfile := .balanced
  limiter : LimiterParams := {}
  stereo : StereoParams := {}
  multi : MultiParams := {}
  granular : GranularParams := {}
  rotation : RotationParams := {}
  decoder : DecoderParams F
  halo : HaloParams F

/-! ## What is made from a value -/

/-- the functions on `float`; `percent` divides by 100 and `tenths` by 10 -/
structure FloatOps (F : Type) where
  literal : ℚ → F
  percent : ℤ → F
  tenths : ℤ → F
  haloLfeGainLinear : ℤ → F
  makeHaloLfeLowPass : ℕ → ℤ → HaloLfeCoefficients F
  haloDownmixGainLinear : ℤ → F
  makeHaloDownmixBalance : ℤ → ℤ → HaloDownmixBalanceCoefficients F
  makeHaloDownmixHighShelf : ℕ → ℤ → ℤ → HaloDownmixBiquadCoefficients F
  makeHaloDownmixLowPass : ℕ → ℤ → HaloDownmixBiquadCoefficients F
  makeHaloDownmixHighPass : ℕ → ℤ → HaloDownmixBiquadCoefficients F
  percent_hundred : percent 100 = literal 1
  tenths_zero : tenths 0 = literal 0

variable {F : Type} (ops : FloatOps F)

def refreshHaloDownmixDerived (params : HaloDownmixParams F) : HaloDownmixParams F :=
  { params with derived :=
    { sideShelf := ops.makeHaloDownmixHighShelf 96000 params.sideShelfFrequencyMillionths params.sideShelfGainMillionths
      rearShelf := ops.makeHaloDownmixHighShelf 96000 params.rearShelfFrequencyMillionths params.rearShelfGainMillionths
      lfeLowPass := ops.makeHaloDownmixLowPass 96000 params.lfeLpfFrequencyMillionths
      outputHighPass := ops.makeHaloDownmixHighPass 96000 params.outputHpfFrequencyMillionths
      balance := ops.makeHaloDownmixBalance params.panLeftMillionths params.panRightMillionths
      frontMidGain := ops.haloDownmixGainLinear params.frontMidTrimMillionths
      frontSideGain := ops.haloDownmixGainLinear params.frontSideTrimMillionths
      centerGain := ops.haloDownmixGainLinear params.centerTrimMillionths
      surroundMidGain := ops.haloDownmixGainLinear params.surroundMidTrimMillionths
      surroundSideGain := ops.haloDownmixGainLinear params.surroundSideTrimMillionths
      rearMidGain := ops.haloDownmixGainLinear params.rearMidTrimMillionths
      rearSideGain := ops.haloDownmixGainLinear params.rearSideTrimMillionths
      lfeGain := ops.haloDownmixGainLinear params.lfeTrimMillionths
      outputLeftGain := ops.haloDownmixGainLinear params.outputLeftTrimMillionths
      outputRightGain := ops.haloDownmixGainLinear params.outputRightTrimMillionths } }

def HaloDownmixBiquadCoefficients.initial : HaloDownmixBiquadCoefficients F :=
  ⟨ops.literal 1, ops.literal 0, ops.literal 0, ops.literal 0, ops.literal 0⟩

def HaloDownmixDerived.initial : HaloDownmixDerived F where
  sideShelf := .initial ops
  rearShelf := .initial ops
  lfeLowPass := .initial ops
  outputHighPass := .initial ops
  balance := ⟨ops.literal 1, ops.literal 0, ops.literal 0, ops.literal 1⟩
  frontMidGain := ops.literal 1
  frontSideGain := ops.literal 1
  centerGain := ops.literal 0.7079458
  surroundMidGain := ops.literal 0.7079458
  surroundSideGain := ops.literal 0.7079458
  rearMidGain := ops.literal 0.5011872
  rearSideGain := ops.literal 0.5011872
  lfeGain := ops.literal 1
  outputLeftGain := ops.literal 1
  outputRightGain := ops.literal 1

/-- the constructor: the defaults of the header, refreshed -/
def HaloDownmixParams.initial : HaloDownmixParams F :=
  refreshHaloDownmixDerived ops { derived := .initial ops }

def HaloLfeCoefficients.initial : HaloLfeCoefficients F where
  b0 := ops.literal 0.00000953702965
  b1 := ops.literal 0.0000190740593
  b2 := ops.literal 0.00000953702965
  fb1 := ops.literal 1.99379110
  fb2 := ops.literal (-0.993829250)

def HaloLfeParams.initial : HaloLfeParams F where
  coefficients96k := .initial ops
  gainLinear := ops.literal 0.0316227766

def IemParams.initial : IemParams F where
  wet := ops.literal 1
  outputGainDb := ops.literal 0
  decoder := { downmix := .initial ops }
  halo := { lfe := .initial ops }

def hasStructuralDifference (left right : IemParams F) : Bool :=
  left.encoderMode ≠ right.encoderMode || left.renderMode ≠ right.renderMode || left.order ≠ right.order
    || left.decoder.headphoneEq ≠ right.decoder.headphoneEq || left.latencyProfile ≠ right.latencyProfile

/-- the operations of a `float` that carries nothing, for runs that do not read one -/
def unitOps : FloatOps Unit where
  literal _ := ()
  percent _ := ()
  tenths _ := ()
  haloLfeGainLinear _ := ()
  makeHaloLfeLowPass _ _ := ⟨(), (), (), (), ()⟩
  haloDownmixGainLinear _ := ()
  makeHaloDownmixBalance _ _ := ⟨(), (), (), ()⟩
  makeHaloDownmixHighShelf _ _ _ := ⟨(), (), (), (), ()⟩
  makeHaloDownmixLowPass _ _ := ⟨(), (), (), (), ()⟩
  makeHaloDownmixHighPass _ _ := ⟨(), (), (), (), ()⟩
  percent_hundred := rfl
  tenths_zero := rfl

def withEnable (enable : Bool) : IemParams Unit := { IemParams.initial unitOps with enable }

/-! ## The ids -/

inductive Param where
  | iemEnable | iemWet | iemOutputGain | iemOrder | iemEncoderMode | iemLatencyProfile | iemLimiterEnable
  | iemLimiterCeiling | iemRenderMode
  | stereoAzimuth | stereoElevation | stereoRoll | stereoWidth | stereoSampleWise
  | multiAzimuth | multiElevation | multiGain | multiMute
  | granularAzimuth | granularElevation | granularShape | granularSize | granularRoll | granularWidth
  | granularDeltaTime | granularDeltaTimeMod | granularGrainLength | granularGrainLengthMod | granularReadPosition
  | granularPositionMod | granularPitch | granularPitchMod | granularWindowAttack | granularAttackMod
  | granularWindowDecay | granularDecayMod | granularMix | granularSourceProbability | granularSpatialMode
  | granularSampleWise
  | rotationYaw | rotationPitch | rotationRoll | rotationInvertYaw | rotationInvertPitch | rotationInvertRoll
  | rotationInvertOverall | rotationSequence
  | headphoneEq
  | haloDialogIsolate | haloDialogAggress | haloDialogAttack | haloDialogRelease | haloDialogMixIn | haloDivergence
  | haloFade | haloFadeRears | haloDiffusion | haloSpace | haloBackBoost | haloRearShelfEnable | haloRearShelfFreq
  | haloRearShelfGain | haloLfeEnable | haloLfeFrequency | haloLfeSplit | haloLfeGain
  | haloDownmixDelayEnable | haloDownmixLsDelay | haloDownmixRsDelay | haloDownmixLsrDelay | haloDownmixRsrDelay
  | haloDownmixSideShelfEnable | haloDownmixSideShelfFrequency | haloDownmixSideShelfGain
  | haloDownmixRearShelfEnable | haloDownmixRearShelfFrequency | haloDownmixRearShelfGain | haloDownmixPanLeft
  | haloDownmixPanRight | haloDownmixCenterDivergence | haloDownmixFrontMidTrim | haloDownmixFrontSideTrim
  | haloDownmixCenterTrim | haloDownmixSurroundMidTrim | haloDownmixSurroundSideTrim | haloDownmixRearMidTrim
  | haloDownmixRearSideTrim | haloDownmixLfeTrim | haloDownmixLfeLpfEnable | haloDownmixLfeLpfFrequency
  | haloDownmixScaleInputByOutputCount | haloDownmixOutputHpfEnable | haloDownmixOutputHpfFrequency
  | haloDownmixOutputLeftTrim | haloDownmixOutputRightTrim
  | iemResourceReset | resetRotation | granularFreeze | resetIemRuntime
deriving DecidableEq, Repr

def Param.all : List Param := [
    .iemEnable, .iemWet, .iemOutputGain, .iemOrder, .iemEncoderMode, .iemLatencyProfile, .iemLimiterEnable,
    .iemLimiterCeiling, .iemRenderMode, .stereoAzimuth, .stereoElevation, .stereoRoll, .stereoWidth,
    .stereoSampleWise, .multiAzimuth, .multiElevation, .multiGain, .multiMute, .granularAzimuth, .granularElevation,
    .granularShape, .granularSize, .granularRoll, .granularWidth, .granularDeltaTime, .granularDeltaTimeMod,
    .granularGrainLength, .granularGrainLengthMod, .granularReadPosition, .granularPositionMod, .granularPitch,
    .granularPitchMod, .granularWindowAttack, .granularAttackMod, .granularWindowDecay, .granularDecayMod,
    .granularMix, .granularSourceProbability, .granularSpatialMode, .granularSampleWise, .rotationYaw,
    .rotationPitch, .rotationRoll, .rotationInvertYaw, .rotationInvertPitch, .rotationInvertRoll,
    .rotationInvertOverall, .rotationSequence, .headphoneEq, .haloDialogIsolate, .haloDialogAggress,
    .haloDialogAttack, .haloDialogRelease, .haloDialogMixIn, .haloDivergence, .haloFade, .haloFadeRears,
    .haloDiffusion, .haloSpace, .haloBackBoost, .haloRearShelfEnable, .haloRearShelfFreq, .haloRearShelfGain,
    .haloLfeEnable, .haloLfeFrequency, .haloLfeSplit, .haloLfeGain, .haloDownmixDelayEnable, .haloDownmixLsDelay,
    .haloDownmixRsDelay, .haloDownmixLsrDelay, .haloDownmixRsrDelay, .haloDownmixSideShelfEnable,
    .haloDownmixSideShelfFrequency, .haloDownmixSideShelfGain, .haloDownmixRearShelfEnable,
    .haloDownmixRearShelfFrequency, .haloDownmixRearShelfGain, .haloDownmixPanLeft, .haloDownmixPanRight,
    .haloDownmixCenterDivergence, .haloDownmixFrontMidTrim, .haloDownmixFrontSideTrim, .haloDownmixCenterTrim,
    .haloDownmixSurroundMidTrim, .haloDownmixSurroundSideTrim, .haloDownmixRearMidTrim, .haloDownmixRearSideTrim,
    .haloDownmixLfeTrim, .haloDownmixLfeLpfEnable, .haloDownmixLfeLpfFrequency, .haloDownmixScaleInputByOutputCount,
    .haloDownmixOutputHpfEnable, .haloDownmixOutputHpfFrequency, .haloDownmixOutputLeftTrim,
    .haloDownmixOutputRightTrim, .iemResourceReset, .resetRotation, .granularFreeze, .resetIemRuntime]

def Param.id : Param → ℤ
  | .iemEnable => 0x12000
  | .iemWet => 0x12001
  | .iemOutputGain => 0x12002
  | .iemOrder => 0x12003
  | .iemEncoderMode => 0x12004
  | .iemLatencyProfile => 0x12005
  | .iemLimiterEnable => 0x12006
  | .iemLimiterCeiling => 0x12007
  | .iemRenderMode => 0x12008
  | .stereoAzimuth => 0x12010
  | .stereoElevation => 0x12011
  | .stereoRoll => 0x12012
  | .stereoWidth => 0x12013
  | .stereoSampleWise => 0x12014
  | .multiAzimuth => 0x12020
  | .multiElevation => 0x12021
  | .multiGain => 0x12022
  | .multiMute => 0x12023
  | .granularAzimuth => 0x12030
  | .granularElevation => 0x12031
  | .granularShape => 0x12032
  | .granularSize => 0x12033
  | .granularRoll => 0x12034
  | .granularWidth => 0x12035
  | .granularDeltaTime => 0x12036
  | .granularDeltaTimeMod => 0x12037
  | .granularGrainLength => 0x12038
  | .granularGrainLengthMod => 0x12039
  | .granularReadPosition => 0x1203a
  | .granularPositionMod => 0x1203b
  | .granularPitch => 0x1203c
  | .granularPitchMod => 0x1203d
  | .granularWindowAttack => 0x1203e
  | .granularAttackMod => 0x1203f
  | .granularWindowDecay => 0x12040
  | .granularDecayMod => 0x12041
  | .granularMix => 0x12042
  | .granularSourceProbability => 0x12043
  | .granularSpatialMode => 0x12044
  | .granularSampleWise => 0x12045
  | .rotationYaw => 0x12050
  | .rotationPitch => 0x12051
  | .rotationRoll => 0x12052
  | .rotationInvertYaw => 0x12053
  | .rotationInvertPitch => 0x12054
  | .rotationInvertRoll => 0x12055
  | .rotationInvertOverall => 0x12056
  | .rotationSequence => 0x12057
  | .headphoneEq => 0x12060
  | .haloDialogIsolate => 0x12070
  | .haloDialogAggress => 0x12071
  | .haloDialogAttack => 0x12072
  | .haloDialogRelease => 0x12073
  | .haloDialogMixIn => 0x12074
  | .haloDivergence => 0x12075
  | .haloFade => 0x12076
  | .haloFadeRears => 0x12077
  | .haloDiffusion => 0x12078
  | .haloSpace => 0x12079
  | .haloBackBoost => 0x1207a
  | .haloRearShelfEnable => 0x1207b
  | .haloRearShelfFreq => 0x1207c
  | .haloRearShelfGain => 0x1207d
  | .haloLfeEnable => 0x1207e
  | .haloLfeFrequency => 0x1207f
  | .haloLfeSplit => 0x12080
  | .haloLfeGain => 0x12081
  | .haloDownmixDelayEnable => 0x12090
  | .haloDownmixLsDelay => 0x12091
  | .haloDownmixRsDelay => 0x12092
  | .haloDownmixLsrDelay => 0x12093
  | .haloDownmixRsrDelay => 0x12094
  | .haloDownmixSideShelfEnable => 0x12095
  | .haloDownmixSideShelfFrequency => 0x12096
  | .haloDownmixSideShelfGain => 0x12097
  | .haloDownmixRearShelfEnable => 0x12098
  | .haloDownmixRearShelfFrequency => 0x12099
  | .haloDownmixRearShelfGain => 0x1209a
  | .haloDownmixPanLeft => 0x1209b
  | .haloDownmixPanRight => 0x1209c
  | .haloDownmixCenterDivergence => 0x1209d
  | .haloDownmixFrontMidTrim => 0x1209e
  | .haloDownmixFrontSideTrim => 0x1209f
  | .haloDownmixCenterTrim => 0x120a0
  | .haloDownmixSurroundMidTrim => 0x120a1
  | .haloDownmixSurroundSideTrim => 0x120a2
  | .haloDownmixRearMidTrim => 0x120a3
  | .haloDownmixRearSideTrim => 0x120a4
  | .haloDownmixLfeTrim => 0x120a5
  | .haloDownmixLfeLpfEnable => 0x120a6
  | .haloDownmixLfeLpfFrequency => 0x120a7
  | .haloDownmixScaleInputByOutputCount => 0x120a8
  | .haloDownmixOutputHpfEnable => 0x120a9
  | .haloDownmixOutputHpfFrequency => 0x120aa
  | .haloDownmixOutputLeftTrim => 0x120ab
  | .haloDownmixOutputRightTrim => 0x120ac
  | .iemResourceReset => 0x12100
  | .resetRotation => 0x12101
  | .granularFreeze => 0x12102
  | .resetIemRuntime => 0x12103

def Param.ofId (id : ℤ) : Option Param := Param.all.find? (·.id = id)

theorem Param.id_ofId {id : ℤ} {param : Param} (h : Param.ofId id = some param) : param.id = id := by
  have hfound := List.find?_some h
  simpa using hfound

theorem Param.ofId_id (param : Param) : Param.ofId param.id = some param := by
  cases param <;> rfl

/-! ## Updates -/

def EncoderMode.ofInt (value : ℤ) : EncoderMode := (Iem.EncoderMode.ofValue value).getD .stereo

def RenderMode.ofInt (value : ℤ) : RenderMode := (Iem.RenderMode.ofValue value).getD .off

def LatencyProfile.ofInt (value : ℤ) : LatencyProfile := (Iem.LatencyProfile.ofValue value).getD .low

def GranularSpatialMode.ofInt (value : ℤ) : GranularSpatialMode := if value = 0 then .threeD else .twoD

def RotationSequence.ofInt (value : ℤ) : RotationSequence := if value = 0 then .yawPitchRoll else .rollPitchYaw

/-- what is put is the value the setter lets through -/
def setWith (params : IemParams F) (setter : Setter) (value : ℤ) (put : ℤ → IemParams F) : ParamUpdate × IemParams F :=
  match setter.set value with
  | none => (.invalid, params)
  | some v => (.updated, put v)

def setBool (params : IemParams F) (value : ℤ) (put : Bool → IemParams F) : ParamUpdate × IemParams F :=
  setWith params (.choice 0 1) value fun v => put (v ≠ 0)

def setEnum (params : IemParams F) (value minimum maximum : ℤ) (put : ℤ → IemParams F) : ParamUpdate × IemParams F :=
  setWith params (.choice minimum maximum) value put

def setClamped (params : IemParams F) (value minimum maximum : ℤ) (put : ℤ → IemParams F) : ParamUpdate × IemParams F :=
  setWith params (.clamped minimum maximum) value put

def ifSourceIndex (params : IemParams F) (value : ℤ) (result : ParamUpdate × IemParams F) : ParamUpdate × IemParams F :=
  if value ≠ 0 ∧ value ≠ 1 then (.invalid, params) else result

def refreshed (params : IemParams F) : IemParams F :=
  { params with decoder.downmix := refreshHaloDownmixDerived ops params.decoder.downmix }

def updateParam (params : IemParams F) (param : Param) (val1 val2 : ℤ) : ParamUpdate × IemParams F :=
  match param with
  | .iemEnable => setBool params val1 fun v => { params with enable := v }
  | .iemWet => setClamped params val1 0 100 fun v => { params with wet := ops.percent v }
  | .iemOutputGain => setClamped params val1 (-240) 240 fun v => { params with outputGainDb := ops.tenths v }
  | .iemOrder => setClamped params val1 1 3 fun v => { params with order := v }
  | .iemEncoderMode => setEnum params val1 0 3 fun v => { params with encoderMode := EncoderMode.ofInt v }
  | .iemRenderMode => setEnum params val1 0 2 fun v => { params with renderMode := RenderMode.ofInt v }
  | .iemLatencyProfile => setEnum params val1 0 2 fun v => { params with latencyProfile := LatencyProfile.ofInt v }
  | .iemLimiterEnable => setBool params val1 fun v => { params with limiter.enabled := v }
  | .iemLimiterCeiling => setClamped params val1 (-1200) 0 fun v => { params with limiter.ceilingCentidb := v }
  | .stereoAzimuth => setClamped params val1 (-18000) 18000 fun v => { params with stereo.azimuthCentidegrees := v }
  | .stereoElevation => setClamped params val1 (-18000) 18000 fun v => { params with stereo.elevationCentidegrees := v }
  | .stereoRoll => setClamped params val1 (-18000) 18000 fun v => { params with stereo.rollCentidegrees := v }
  | .stereoWidth => setClamped params val1 (-36000) 36000 fun v => { params with stereo.widthCentidegrees := v }
  | .stereoSampleWise => setBool params val1 fun v => { params with stereo.sampleWise := v }
  | .multiAzimuth => ifSourceIndex params val1 <| setClamped params val2 (-18000) 18000 fun v =>
    { params with multi.azimuthCentidegrees := params.multi.azimuthCentidegrees.put val1 v }
  | .multiElevation => ifSourceIndex params val1 <| setClamped params val2 (-18000) 18000 fun v =>
    { params with multi.elevationCentidegrees := params.multi.elevationCentidegrees.put val1 v }
  | .multiGain => ifSourceIndex params val1 <| setClamped params val2 (-600) 100 fun v =>
    { params with multi.gainDecidb := params.multi.gainDecidb.put val1 v }
  | .multiMute => ifSourceIndex params val1 <| setBool params val2 fun v =>
    { params with multi.mute := params.multi.mute.put val1 v }
  | .granularAzimuth => setClamped params val1 (-18000) 18000 fun v => { params with granular.azimuthCentidegrees := v }
  | .granularElevation => setClamped params val1 (-18000) 18000 fun v =>
    { params with granular.elevationCentidegrees := v }
  | .granularShape => setClamped params val1 (-100) 100 fun v => { params with granular.shapeTenths := v }
  | .granularSize => setClamped params val1 0 36000 fun v => { params with granular.sizeCentidegrees := v }
  | .granularRoll => setClamped params val1 (-18000) 18000 fun v => { params with granular.rollCentidegrees := v }
  | .granularWidth => setClamped params val1 (-36000) 36000 fun v => { params with granular.widthCentidegrees := v }
  | .granularDeltaTime => setClamped params val1 1000 2000000 fun v => { params with granular.deltaTimeUs := v }
  | .granularDeltaTimeMod => setClamped params val1 0 1000 fun v =>
    { params with granular.deltaTimeModTenthsPercent := v }
  | .granularGrainLength => setClamped params val1 1000 2000000 fun v => { params with granular.grainLengthUs := v }
  | .granularGrainLengthMod => setClamped params val1 0 1000 fun v =>
    { params with granular.grainLengthModTenthsPercent := v }
  | .granularReadPosition => setClamped params val1 0 4000000 fun v => { params with granular.readPositionUs := v }
  | .granularPositionMod => setClamped params val1 0 4000000 fun v => { params with granular.positionModUs := v }
  | .granularPitch => setClamped params val1 (-12000) 12000 fun v => { params with granular.pitchMillisem := v }
  | .granularPitchMod => setClamped params val1 0 12000 fun v => { params with granular.pitchModMillisem := v }
  | .granularWindowAttack => setClamped params val1 0 500 fun v => { params with granular.attackTenthsPercent := v }
  | .granularAttackMod => setClamped params val1 0 1000 fun v => { params with granular.attackModTenthsPercent := v }
  | .granularWindowDecay => setClamped params val1 0 500 fun v => { params with granular.decayTenthsPercent := v }
  | .granularDecayMod => setClamped params val1 0 1000 fun v => { params with granular.decayModTenthsPercent := v }
  | .granularMix => setClamped params val1 0 1000 fun v => { params with granular.mixTenthsPercent := v }
  | .granularSourceProbability => setClamped params val1 (-100) 100 fun v =>
    { params with granular.sourceProbabilityHundredths := v }
  | .granularSpatialMode => setEnum params val1 0 1 fun v =>
    { params with granular.spatialMode := GranularSpatialMode.ofInt v }
  | .granularSampleWise => setBool params val1 fun v => { params with granular.sampleWise := v }
  | .rotationYaw => setClamped params val1 (-18000) 18000 fun v => { params with rotation.yawCentidegrees := v }
  | .rotationPitch => setClamped params val1 (-18000) 18000 fun v => { params with rotation.pitchCentidegrees := v }
  | .rotationRoll => setClamped params val1 (-18000) 18000 fun v => { params with rotation.rollCentidegrees := v }
  | .rotationInvertYaw => setBool params val1 fun v => { params with rotation.invertYaw := v }
  | .rotationInvertPitch => setBool params val1 fun v => { params with rotation.invertPitch := v }
  | .rotationInvertRoll => setBool params val1 fun v => { params with rotation.invertRoll := v }
  | .rotationInvertOverall => setBool params val1 fun v => { params with rotation.invertOverall := v }
  | .rotationSequence => setEnum params val1 0 1 fun v => { params with rotation.sequence := RotationSequence.ofInt v }
  | .headphoneEq => setEnum params val1 (-1) 22 fun v => { params with decoder.headphoneEq := v }
  | .haloDialogIsolate => setClamped params val1 0 1000 fun v => { params with halo.dialogIsolateThousandths := v }
  | .haloDialogAggress => setClamped params val1 0 1000 fun v => { params with halo.dialogAggressThousandths := v }
  | .haloDialogAttack => setClamped params val1 0 1000 fun v => { params with halo.dialogAttackThousandths := v }
  | .haloDialogRelease => setClamped params val1 0 1000 fun v => { params with halo.dialogReleaseThousandths := v }
  | .haloDialogMixIn => setClamped params val1 0 1000 fun v => { params with halo.dialogMixInThousandths := v }
  | .haloDivergence => setClamped params val1 0 1000 fun v => { params with halo.divergenceThousandths := v }
  | .haloFade => setClamped params val1 0 1000 fun v => { params with halo.fadeThousandths := v }
  | .haloFadeRears => setClamped params val1 0 1000 fun v => { params with halo.fadeRearsThousandths := v }
  | .haloDiffusion => setClamped params val1 0 1000 fun v => { params with halo.diffusionThousandths := v }
  | .haloSpace => setClamped params val1 0 1000 fun v => { params with halo.spaceThousandths := v }
  | .haloBackBoost => setBool params val1 fun v => { params with halo.backBoost := v }
  | .haloRearShelfEnable => setBool params val1 fun v => { params with halo.rearShelfEnable := v }
  | .haloRearShelfFreq => setClamped params val1 0 1000 fun v => { params with halo.rearShelfFreqThousandths := v }
  | .haloRearShelfGain => setClamped params val1 0 1000 fun v => { params with halo.rearShelfGainThousandths := v }
  | .haloLfeEnable => setBool params val1 fun v => { params with halo.lfe.enabled := v }
  | .haloLfeFrequency => setClamped params val1 0 1000000 fun v =>
    { params with halo.lfe.frequencyMillionths := v, halo.lfe.coefficients96k := ops.makeHaloLfeLowPass 96000 v }
  | .haloLfeSplit => setClamped params val1 0 1000000 fun v => { params with halo.lfe.splitMillionths := v }
  | .haloLfeGain => setClamped params val1 0 1000000 fun v =>
    { params with halo.lfe.gainMillionths := v, halo.lfe.gainLinear := ops.haloLfeGainLinear v }
  | .haloDownmixDelayEnable => setBool params val1 fun v => { params with decoder.downmix.delayEnable := v }
  | .haloDownmixLsDelay => setClamped params val1 0 32000 fun v => { params with decoder.downmix.lsDelayUs := v }
  | .haloDownmixRsDelay => setClamped params val1 0 32000 fun v => { params with decoder.downmix.rsDelayUs := v }
  | .haloDownmixLsrDelay => setClamped params val1 0 32000 fun v => { params with decoder.downmix.lsrDelayUs := v }
  | .haloDownmixRsrDelay => setClamped params val1 0 32000 fun v => { params with decoder.downmix.rsrDelayUs := v }
  | .haloDownmixSideShelfEnable => setBool params val1 fun v => { params with decoder.downmix.sideShelfEnable := v }
  | .haloDownmixSideShelfFrequency => setClamped params val1 0 1000000 fun v =>
    refreshed ops { params with decoder.downmix.sideShelfFrequencyMillionths := v }
  | .haloDownmixSideShelfGain => setClamped params val1 0 1000000 fun v =>
    refreshed ops { params with decoder.downmix.sideShelfGainMillionths := v }
  | .haloDownmixRearShelfEnable => setBool params val1 fun v => { params with decoder.downmix.rearShelfEnable := v }
  | .haloDownmixRearShelfFrequency => setClamped params val1 0 1000000 fun v =>
    refreshed ops { params with decoder.downmix.rearShelfFrequencyMillionths := v }
  | .haloDownmixRearShelfGain => setClamped params val1 0 1000000 fun v =>
    refreshed ops { params with decoder.downmix.rearShelfGainMillionths := v }
  | .haloDownmixPanLeft => setClamped params val1 0 1000000 fun v =>
    refreshed ops { params with decoder.downmix.panLeftMillionths := v }
  | .haloDownmixPanRight => setClamped params val1 0 1000000 fun v =>
    refreshed ops { params with decoder.downmix.panRightMillionths := v }
  | .haloDownmixCenterDivergence => setClamped params val1 0 1000000 fun v =>
    { params with decoder.downmix.centerDivergenceMillionths := v }
  | .haloDownmixFrontMidTrim => setClamped params val1 0 1000000 fun v =>
    refreshed ops { params with decoder.downmix.frontMidTrimMillionths := v }
  | .haloDownmixFrontSideTrim => setClamped params val1 0 1000000 fun v =>
    refreshed ops { params with decoder.downmix.frontSideTrimMillionths := v }
  | .haloDownmixCenterTrim => setClamped params val1 0 1000000 fun v =>
    refreshed ops { params with decoder.downmix.centerTrimMillionths := v }
  | .haloDownmixSurroundMidTrim => setClamped params val1 0 1000000 fun v =>
    refreshed ops { params with decoder.downmix.surroundMidTrimMillionths := v }
  | .haloDownmixSurroundSideTrim => setClamped params val1 0 1000000 fun v =>
    refreshed ops { params with decoder.downmix.surroundSideTrimMillionths := v }
  | .haloDownmixRearMidTrim => setClamped params val1 0 1000000 fun v =>
    refreshed ops { params with decoder.downmix.rearMidTrimMillionths := v }
  | .haloDownmixRearSideTrim => setClamped params val1 0 1000000 fun v =>
    refreshed ops { params with decoder.downmix.rearSideTrimMillionths := v }
  | .haloDownmixLfeTrim => setClamped params val1 0 1000000 fun v =>
    refreshed ops { params with decoder.downmix.lfeTrimMillionths := v }
  | .haloDownmixLfeLpfEnable => setBool params val1 fun v => { params with decoder.downmix.lfeLpfEnable := v }
  | .haloDownmixLfeLpfFrequency => setClamped params val1 0 1000000 fun v =>
    refreshed ops { params with decoder.downmix.lfeLpfFrequencyMillionths := v }
  | .haloDownmixScaleInputByOutputCount => setBool params val1 fun v =>
    { params with decoder.downmix.scaleInputByOutputCount := v }
  | .haloDownmixOutputHpfEnable => setBool params val1 fun v => { params with decoder.downmix.outputHpfEnable := v }
  | .haloDownmixOutputHpfFrequency => setClamped params val1 0 1000000 fun v =>
    refreshed ops { params with decoder.downmix.outputHpfFrequencyMillionths := v }
  | .haloDownmixOutputLeftTrim => setClamped params val1 0 1000000 fun v =>
    refreshed ops { params with decoder.downmix.outputLeftTrimMillionths := v }
  | .haloDownmixOutputRightTrim => setClamped params val1 0 1000000 fun v =>
    refreshed ops { params with decoder.downmix.outputRightTrimMillionths := v }
  | .iemResourceReset | .resetRotation | .resetIemRuntime => (if val1 = 1 then .command else .invalid, params)
  | .granularFreeze => (if val1 = 0 ∨ val1 = 1 then .command else .invalid, params)

def updateIemParameterSnapshot (params : IemParams F) (param val1 val2 : ℤ) : ParamUpdate × IemParams F :=
  match Param.ofId param with
  | none => (.notIem, params)
  | some param => updateParam ops params param val1 val2

/-! ## Answers -/

/-- an answer that is not an update comes with the parameters as they were -/
def Refuses (params : IemParams F) (result : ParamUpdate × IemParams F) : Prop :=
  result.1 ≠ .updated → result.2 = params

theorem setWith_refuses (params : IemParams F) (setter : Setter) (value : ℤ) (put : ℤ → IemParams F) :
    Refuses params (setWith params setter value put) := by
  intro h
  unfold setWith at h ⊢
  cases hset : setter.set value with
  | none => rfl
  | some v =>
    rw [hset] at h
    exact absurd rfl h

theorem ifSourceIndex_refuses {params : IemParams F} {result : ParamUpdate × IemParams F} (value : ℤ)
    (h : Refuses params result) : Refuses params (ifSourceIndex params value result) := by
  unfold ifSourceIndex
  split_ifs
  · intro _
    rfl
  · exact h

theorem updateParam_refuses (params : IemParams F) (param : Param) (val1 val2 : ℤ) :
    Refuses params (updateParam ops params param val1 val2) := by
  cases param
  case iemResourceReset | resetRotation | granularFreeze | resetIemRuntime => exact fun _ => rfl
  case multiAzimuth | multiElevation | multiGain | multiMute => exact ifSourceIndex_refuses _ (setWith_refuses _ _ _ _)
  all_goals exact setWith_refuses _ _ _ _

/-- **A call that is not an update leaves every field as it was.** -/
theorem update_refused {params : IemParams F} {param val1 val2 : ℤ}
    (h : (updateIemParameterSnapshot ops params param val1 val2).1 ≠ .updated) :
    (updateIemParameterSnapshot ops params param val1 val2).2 = params := by
  unfold updateIemParameterSnapshot at h ⊢
  cases hid : Param.ofId param with
  | none => rfl
  | some param =>
    rw [hid] at h
    exact updateParam_refuses ops params param val1 val2 h

theorem setWith_status (params : IemParams F) (setter : Setter) (value : ℤ) (put : ℤ → IemParams F) :
    (setWith params setter value put).1 = if (setter.set value).isSome then .updated else .invalid := by
  unfold setWith
  cases setter.set value <;> rfl

theorem ifSourceIndex_status (params : IemParams F) (value : ℤ) (result : ParamUpdate × IemParams F) :
    (ifSourceIndex params value result).1 = if value ≠ 0 ∧ value ≠ 1 then .invalid else result.1 := by
  unfold ifSourceIndex
  split_ifs <;> rfl

theorem updateParam_status (params others : IemParams F) (param : Param) (val1 val2 : ℤ) :
    (updateParam ops params param val1 val2).1 = (updateParam ops others param val1 val2).1 := by
  cases param
  case iemResourceReset | resetRotation | granularFreeze | resetIemRuntime => rfl
  case multiAzimuth | multiElevation | multiGain | multiMute =>
    simp only [updateParam, ifSourceIndex_status, setClamped, setBool, setWith_status]
  all_goals exact (setWith_status _ _ _ _).trans (setWith_status _ _ _ _).symm

/-- **What a call answers does not depend on the parameters.** -/
theorem update_status (params others : IemParams F) (param val1 val2 : ℤ) :
    (updateIemParameterSnapshot ops params param val1 val2).1 = (updateIemParameterSnapshot ops others param val1 val2).1 := by
  unfold updateIemParameterSnapshot
  cases Param.ofId param with
  | none => rfl
  | some param => exact updateParam_status ops params others param val1 val2

end ViperFx.Iem.Record
