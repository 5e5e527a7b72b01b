/-
The parameters of the IEM engine: `IEMDSP/include/iem/IemParams.h` and `IEMDSP/src/IemParams.cpp`.

Six fields decide how a graph is built or whether it runs, and are fields here; five of them are structural. Every other
field is set by a parameter of its own and nothing reads it here: those are one table, with the range of each and the value
it starts with. The wet level is in percent and the output gain in tenths of a decibel, as the commands have them, and the
filter coefficients that follow from a field are left out.

Results:
  · initial_settable  : every starting value is one its own parameter could set
  · update_refused    : a command that is not an update leaves every parameter as it was
-/
import Mathlib.Tactic

namespace ViperFx.Iem

inductive EncoderMode where
  | stereo
  | multi
  | granular
  | halo
deriving DecidableEq, Repr

inductive RenderMode where
  | off
  | simple
  | ku100
deriving DecidableEq, Repr

inductive LatencyProfile where
  | low
  | balanced
  | stable
deriving DecidableEq, Repr

inductive IemPreparationResult where
  | none
  | success
  | deferred
  | failed
  | invalidParameter
deriving DecidableEq, Repr

/-- how a parameter takes its value: SetEnum and SetBool refuse what is out of range, SetClamped clamps it -/
inductive Setter where
  | choice (minimum maximum : ℤ)
  | clamped (minimum maximum : ℤ)

def Setter.set : Setter → ℤ → Option ℤ
  | .choice minimum maximum, value => if value < minimum ∨ maximum < value then none else some value
  | .clamped minimum maximum, value => some (max minimum (min value maximum))

/-- a parameter that is neither structural nor the switch; a parameter with two sources starts with `initial` and `second` -/
structure DynamicParam where
  param : ℤ
  setter : Setter
  initial : ℤ
  second : Option ℤ

def dynamicParams : List DynamicParam := [
    ⟨0x12001, .clamped 0 100, 100, none⟩, -- wet
    ⟨0x12002, .clamped (-240) 240, 0, none⟩, -- outputGainDb
    ⟨0x12006, .choice 0 1, 1, none⟩, -- limiter.enabled
    ⟨0x12007, .clamped (-1200) 0, -30, none⟩, -- limiter.ceilingCentidb
    ⟨0x12010, .clamped (-18000) 18000, 0, none⟩, -- stereo.azimuthCentidegrees
    ⟨0x12011, .clamped (-18000) 18000, 0, none⟩, -- stereo.elevationCentidegrees
    ⟨0x12012, .clamped (-18000) 18000, 0, none⟩, -- stereo.rollCentidegrees
    ⟨0x12013, .clamped (-36000) 36000, 6000, none⟩, -- stereo.widthCentidegrees
    ⟨0x12014, .choice 0 1, 0, none⟩, -- stereo.sampleWise
    ⟨0x12020, .clamped (-18000) 18000, -3000, some 3000⟩, -- multi.azimuthCentidegrees
    ⟨0x12021, .clamped (-18000) 18000, 0, some 0⟩, -- multi.elevationCentidegrees
    ⟨0x12022, .clamped (-600) 100, 0, some 0⟩, -- multi.gainDecidb
    ⟨0x12023, .choice 0 1, 0, some 0⟩, -- multi.mute
    ⟨0x12030, .clamped (-18000) 18000, 0, none⟩, -- granular.azimuthCentidegrees
    ⟨0x12031, .clamped (-18000) 18000, 0, none⟩, -- granular.elevationCentidegrees
    ⟨0x12032, .clamped (-100) 100, 0, none⟩, -- granular.shapeTenths
    ⟨0x12033, .clamped 0 36000, 18000, none⟩, -- granular.sizeCentidegrees
    ⟨0x12034, .clamped (-18000) 18000, 0, none⟩, -- granular.rollCentidegrees
    ⟨0x12035, .clamped (-36000) 36000, 0, none⟩, -- granular.widthCentidegrees
    ⟨0x12036, .clamped 1000 2000000, 5000, none⟩, -- granular.deltaTimeUs
    ⟨0x12037, .clamped 0 1000, 0, none⟩, -- granular.deltaTimeModTenthsPercent
    ⟨0x12038, .clamped 1000 2000000, 250000, none⟩, -- granular.grainLengthUs
    ⟨0x12039, .clamped 0 1000, 0, none⟩, -- granular.grainLengthModTenthsPercent
    ⟨0x1203a, .clamped 0 4000000, 0, none⟩, -- granular.readPositionUs
    ⟨0x1203b, .clamped 0 4000000, 50000, none⟩, -- granular.positionModUs
    ⟨0x1203c, .clamped (-12000) 12000, 0, none⟩, -- granular.pitchMillisem
    ⟨0x1203d, .clamped 0 12000, 0, none⟩, -- granular.pitchModMillisem
    ⟨0x1203e, .clamped 0 500, 500, none⟩, -- granular.attackTenthsPercent
    ⟨0x1203f, .clamped 0 1000, 0, none⟩, -- granular.attackModTenthsPercent
    ⟨0x12040, .clamped 0 500, 500, none⟩, -- granular.decayTenthsPercent
    ⟨0x12041, .clamped 0 1000, 0, none⟩, -- granular.decayModTenthsPercent
    ⟨0x12042, .clamped 0 1000, 500, none⟩, -- granular.mixTenthsPercent
    ⟨0x12043, .clamped (-100) 100, 0, none⟩, -- granular.sourceProbabilityHundredths
    ⟨0x12044, .choice 0 1, 0, none⟩, -- granular.spatialMode
    ⟨0x12045, .choice 0 1, 0, none⟩, -- granular.sampleWise
    ⟨0x12050, .clamped (-18000) 18000, 0, none⟩, -- rotation.yawCentidegrees
    ⟨0x12051, .clamped (-18000) 18000, 0, none⟩, -- rotation.pitchCentidegrees
    ⟨0x12052, .clamped (-18000) 18000, 0, none⟩, -- rotation.rollCentidegrees
    ⟨0x12053, .choice 0 1, 0, none⟩, -- rotation.invertYaw
    ⟨0x12054, .choice 0 1, 0, none⟩, -- rotation.invertPitch
    ⟨0x12055, .choice 0 1, 0, none⟩, -- rotation.invertRoll
    ⟨0x12056, .choice 0 1, 0, none⟩, -- rotation.invertOverall
    ⟨0x12057, .choice 0 1, 1, none⟩, -- rotation.sequence
    ⟨0x12070, .clamped 0 1000, 0, none⟩, -- halo.dialogIsolateThousandths
    ⟨0x12071, .clamped 0 1000, 500, none⟩, -- halo.dialogAggressThousandths
    ⟨0x12072, .clamped 0 1000, 300, none⟩, -- halo.dialogAttackThousandths
    ⟨0x12073, .clamped 0 1000, 750, none⟩, -- halo.dialogReleaseThousandths
    ⟨0x12074, .clamped 0 1000, 0, none⟩, -- halo.dialogMixInThousandths
    ⟨0x12075, .clamped 0 1000, 500, none⟩, -- halo.divergenceThousandths
    ⟨0x12076, .clamped 0 1000, 300, none⟩, -- halo.fadeThousandths
    ⟨0x12077, .clamped 0 1000, 200, none⟩, -- halo.fadeRearsThousandths
    ⟨0x12078, .clamped 0 1000, 200, none⟩, -- halo.diffusionThousandths
    ⟨0x12079, .clamped 0 1000, 800, none⟩, -- halo.spaceThousandths
    ⟨0x1207a, .choice 0 1, 1, none⟩, -- halo.backBoost
    ⟨0x1207b, .choice 0 1, 1, none⟩, -- halo.rearShelfEnable
    ⟨0x1207c, .clamped 0 1000, 816, none⟩, -- halo.rearShelfFreqThousandths
    ⟨0x1207d, .clamped 0 1000, 475, none⟩, -- halo.rearShelfGainThousandths
    ⟨0x1207e, .choice 0 1, 1, none⟩, -- halo.lfe.enabled
    ⟨0x1207f, .clamped 0 1000000, 750000, none⟩, -- halo.lfe.frequencyMillionths
    ⟨0x12080, .clamped 0 1000000, 0, none⟩, -- halo.lfe.splitMillionths
    ⟨0x12081, .clamped 0 1000000, 272727, none⟩, -- halo.lfe.gainMillionths
    ⟨0x12090, .choice 0 1, 1, none⟩, -- decoder.downmix.delayEnable
    ⟨0x12091, .clamped 0 32000, 0, none⟩, -- decoder.downmix.lsDelayUs
    ⟨0x12092, .clamped 0 32000, 0, none⟩, -- decoder.downmix.rsDelayUs
    ⟨0x12093, .clamped 0 32000, 0, none⟩, -- decoder.downmix.lsrDelayUs
    ⟨0x12094, .clamped 0 32000, 0, none⟩, -- decoder.downmix.rsrDelayUs
    ⟨0x12095, .choice 0 1, 0, none⟩, -- decoder.downmix.sideShelfEnable
    ⟨0x12096, .clamped 0 1000000, 229819, none⟩, -- decoder.downmix.sideShelfFrequencyMillionths
    ⟨0x12097, .clamped 0 1000000, 777778, none⟩, -- decoder.downmix.sideShelfGainMillionths
    ⟨0x12098, .choice 0 1, 0, none⟩, -- decoder.downmix.rearShelfEnable
    ⟨0x12099, .clamped 0 1000000, 229819, none⟩, -- decoder.downmix.rearShelfFrequencyMillionths
    ⟨0x1209a, .clamped 0 1000000, 777778, none⟩, -- decoder.downmix.rearShelfGainMillionths
    ⟨0x1209b, .clamped 0 1000000, 1000000, none⟩, -- decoder.downmix.panLeftMillionths
    ⟨0x1209c, .clamped 0 1000000, 1000000, none⟩, -- decoder.downmix.panRightMillionths
    ⟨0x1209d, .clamped 0 1000000, 0, none⟩, -- decoder.downmix.centerDivergenceMillionths
    ⟨0x1209e, .clamped 0 1000000, 777778, none⟩, -- decoder.downmix.frontMidTrimMillionths
    ⟨0x1209f, .clamped 0 1000000, 777778, none⟩, -- decoder.downmix.frontSideTrimMillionths
    ⟨0x120a0, .clamped 0 1000000, 744444, none⟩, -- decoder.downmix.centerTrimMillionths
    ⟨0x120a1, .clamped 0 1000000, 744444, none⟩, -- decoder.downmix.surroundMidTrimMillionths
    ⟨0x120a2, .clamped 0 1000000, 744444, none⟩, -- decoder.downmix.surroundSideTrimMillionths
    ⟨0x120a3, .clamped 0 1000000, 711111, none⟩, -- decoder.downmix.rearMidTrimMillionths
    ⟨0x120a4, .clamped 0 1000000, 711111, none⟩, -- decoder.downmix.rearSideTrimMillionths
    ⟨0x120a5, .clamped 0 1000000, 777778, none⟩, -- decoder.downmix.lfeTrimMillionths
    ⟨0x120a6, .choice 0 1, 0, none⟩, -- decoder.downmix.lfeLpfEnable
    ⟨0x120a7, .clamped 0 1000000, 328797, none⟩, -- decoder.downmix.lfeLpfFrequencyMillionths
    ⟨0x120a8, .choice 0 1, 0, none⟩, -- decoder.downmix.scaleInputByOutputCount
    ⟨0x120a9, .choice 0 1, 0, none⟩, -- decoder.downmix.outputHpfEnable
    ⟨0x120aa, .clamped 0 1000000, 57898, none⟩, -- decoder.downmix.outputHpfFrequencyMillionths
    ⟨0x120ab, .clamped 0 1000000, 777778, none⟩, -- decoder.downmix.outputLeftTrimMillionths
    ⟨0x120ac, .clamped 0 1000000, 777778, none⟩ -- decoder.downmix.outputRightTrimMillionths
  ]

def kParamIemEnable : ℤ := 0x12000
def kParamIemOrder : ℤ := 0x12003
def kParamIemEncoderMode : ℤ := 0x12004
def kParamIemLatencyProfile : ℤ := 0x12005
def kParamIemRenderMode : ℤ := 0x12008
def kParamRotationYaw : ℤ := 0x12050
def kParamRotationPitch : ℤ := 0x12051
def kParamRotationRoll : ℤ := 0x12052
def kParamHeadphoneEq : ℤ := 0x12060
def kParamIemResourceReset : ℤ := 0x12100
def kCommandResetRotation : ℤ := 0x12101
def kCommandGranularFreeze : ℤ := 0x12102
def kCommandResetIemRuntime : ℤ := 0x12103

def dynamicParam (param : ℤ) : Option DynamicParam := dynamicParams.find? (·.param = param)

/-- the value of a parameter for a source; parameters without sources have the value of source 0 -/
abbrev DynamicValues := ℤ → ℤ → ℤ

def initialValues : DynamicValues := fun param source =>
  match dynamicParam param with
  | none => 0
  | some row => if source = 1 then row.second.getD row.initial else row.initial

def DynamicValues.put (values : DynamicValues) (param source value : ℤ) : DynamicValues :=
  fun p s => if p = param ∧ s = source then value else values p s

structure IemParams where
  enable : Bool := false
  order : ℤ := 3
  encoderMode : EncoderMode := .stereo
  renderMode : RenderMode := .ku100
  latencyProfile : LatencyProfile := .balanced
  headphoneEq : ℤ := -1
  dynamic : DynamicValues := initialValues

def hasStructuralDifference (left right : IemParams) : Bool :=
  left.encoderMode ≠ right.encoderMode || left.renderMode ≠ right.renderMode || left.order ≠ right.order
    || left.headphoneEq ≠ right.headphoneEq || left.latencyProfile ≠ right.latencyProfile

inductive ParamUpdate where
  | notIem
  | updated
  | command
  | invalid
deriving DecidableEq, Repr

def EncoderMode.ofValue : ℤ → Option EncoderMode
  | 0 => some .stereo
  | 1 => some .multi
  | 2 => some .granular
  | 3 => some .halo
  | _ => none

def RenderMode.ofValue : ℤ → Option RenderMode
  | 0 => some .off
  | 1 => some .simple
  | 2 => some .ku100
  | _ => none

def LatencyProfile.ofValue : ℤ → Option LatencyProfile
  | 0 => some .low
  | 1 => some .balanced
  | 2 => some .stable
  | _ => none

/-- a setter of the switch, with the parameters it leaves -/
def updateWith {α : Type} (params : IemParams) (value : Option α) (put : α → IemParams) : ParamUpdate × IemParams :=
  match value with
  | none => (.invalid, params)
  | some value => (.updated, put value)

def updateDynamic (params : IemParams) (row : DynamicParam) (val1 val2 : ℤ) : ParamUpdate × IemParams :=
  match row.second with
  | none => updateWith params (row.setter.set val1) fun v => { params with dynamic := params.dynamic.put row.param 0 v }
  | some _ =>
    if val1 ≠ 0 ∧ val1 ≠ 1 then (.invalid, params)
    else updateWith params (row.setter.set val2) fun v => { params with dynamic := params.dynamic.put row.param val1 v }

def updateIemParameterSnapshot (params : IemParams) (param val1 val2 : ℤ) : ParamUpdate × IemParams :=
  if param = kParamIemEnable then
    updateWith params ((Setter.choice 0 1).set val1) fun v => { params with enable := v ≠ 0 }
  else if param = kParamIemOrder then
    updateWith params ((Setter.clamped 1 3).set val1) fun v => { params with order := v }
  else if param = kParamIemEncoderMode then
    updateWith params (EncoderMode.ofValue val1) fun v => { params with encoderMode := v }
  else if param = kParamIemRenderMode then
    updateWith params (RenderMode.ofValue val1) fun v => { params with renderMode := v }
  else if param = kParamIemLatencyProfile then
    updateWith params (LatencyProfile.ofValue val1) fun v => { params with latencyProfile := v }
  else if param = kParamHeadphoneEq then
    updateWith params ((Setter.choice (-1) 22).set val1) fun v => { params with headphoneEq := v }
  else if param = kParamIemResourceReset ∨ param = kCommandResetRotation ∨ param = kCommandResetIemRuntime then
    (if val1 = 1 then .command else .invalid, params)
  else if param = kCommandGranularFreeze then
    (if val1 = 0 ∨ val1 = 1 then .command else .invalid, params)
  else match dynamicParam param with
    | none => (.notIem, params)
    | some row => updateDynamic params row val1 val2

/-- **Every starting value is one its own parameter could set.** -/
theorem initial_settable :
    ∀ row ∈ dynamicParams, row.setter.set row.initial = some row.initial ∧
      ∀ second ∈ row.second, row.setter.set second = some second := by
  decide

theorem updateWith_refused {α : Type} {params : IemParams} {value : Option α} {put : α → IemParams}
    (h : (updateWith params value put).1 ≠ .updated) : (updateWith params value put).2 = params := by
  cases value with
  | none => rfl
  | some v => exact absurd rfl h

theorem updateDynamic_refused {params : IemParams} {row : DynamicParam} {val1 val2 : ℤ}
    (h : (updateDynamic params row val1 val2).1 ≠ .updated) : (updateDynamic params row val1 val2).2 = params := by
  unfold updateDynamic at h ⊢
  cases hsecond : row.second with
  | none =>
    rw [hsecond] at h
    exact updateWith_refused h
  | some second =>
    rw [hsecond] at h
    dsimp only at h ⊢
    by_cases hsource : val1 ≠ 0 ∧ val1 ≠ 1
    · rw [if_pos hsource]
    · rw [if_neg hsource] at h ⊢
      exact updateWith_refused h

/-- **A command that is not an update leaves every parameter as it was.** -/
theorem update_refused {params : IemParams} {param val1 val2 : ℤ}
    (h : (updateIemParameterSnapshot params param val1 val2).1 ≠ .updated) :
    (updateIemParameterSnapshot params param val1 val2).2 = params := by
  unfold updateIemParameterSnapshot at h ⊢
  split_ifs at h ⊢
  all_goals try first | rfl | exact updateWith_refused h
  cases hrow : dynamicParam param with
  | none => rfl
  | some row =>
    rw [hrow] at h
    exact updateDynamic_refused h

end ViperFx.Iem
