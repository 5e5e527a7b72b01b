/-
How the HALO upmix shares a frame out: `IEMDSP/src/HaloDialogExtractor.cpp` with the net of `FannDialogNet.cpp`, and
`HaloSurroundAssigner.cpp`, over exact arithmetic.

The frame that is shared out is the one before the newest. The dialog stage takes some of its middle out, bin by bin, as far as
the net hears a voice there; the surround stage sends the rest to the front, to the sides and to the rear, and some of its middle
to the centre. Levels, phases, followers and averages only settle how much goes where: `Steering` is what they come to for one
bin, and the real and the imaginary part of a bin are shared out alike.

Results:
  · Steering.sides, Steering.folded : no difference between the sides is lost, and without a dialog neither side loses anything
  · Steering.power                  : no channel gets more power than the louder side, the centre at most twice as much
  · processFrame_split              : what the dialog stage takes out
  · Recalls.ordered                 : the net is shown the last six frames, in order
  · processFrame_assigned           : what the surround stage makes of the rest
-/
import ViperFx.Core.Loops
import ViperFx.Iem.HaloEncoder
import ViperFx.Iem.ParamReplay

namespace ViperFx.Iem

open ViperFx.Core Set

def kHistoryFrames : ℕ := 6
def kDialogNetInputs : ℕ := 37
def kDialogNetHidden : ℕ := 10
def kDialogNetHiddenWeights : ℕ := 38

instance : NeZero kHistoryFrames := ⟨by decide⟩

/-- what is used of the mathematics of the C library -/
structure FloatMath (K : Type) [Field K] [LinearOrder K] where
  exp : K → K
  log : K → K
  atan2 : K → K → K
  pow : K → K → K
  exp_zero : exp 0 = 1
  exp_pos : ∀ x, 0 < exp x
  exp_monotone : Monotone exp
  exp_log : ∀ x, 0 < x → exp (log x) = x
  pow_eq : ∀ x y, 0 < x → pow x y = exp (y * log x)

/-- the levels of a frame: one for each bin, then the mean, the least and the greatest -/
structure HaloDialogFeatureFrame (K : Type) where
  a : ℕ → K
  d : ℕ → K

structure HaloDialogFrame (K : Type) where
  centre : Spectrum K
  residualL : Spectrum K
  residualR : Spectrum K

structure FannDialogNet (K : Type) where
  weights : ℕ → K

structure HaloDialogStage (K : Type) extends HaloDialogExtractor K where
  params : Record.HaloParams K
  slots : Fin kHistoryFrames → HaloDialogFeatureFrame K
  map : Fin kHistoryFrames → Fin kHistoryFrames
  envelope : ℕ → K

structure AlphaAverager (K : Type) where
  history : ℕ → K
  filled : ℕ
  write : ℕ

structure HaloSurroundAssigner (K : Type) where
  params : Record.HaloParams K
  energyPrev : ℕ → K
  transient : ℕ → K
  cPrev : ℕ → K
  fPrev : ℕ → K
  bPrev : ℕ → K
  dialogAlphaPrev : K
  alpha : AlphaAverager K

section Model

variable {K : Type} [Field K] [LinearOrder K]

def thousandths (value : ℤ) : K := value * 0.001

/-- `std::clamp` between zero and one -/
def clamp01 (value : K) : K := if value < 0 then 0 else if 1 < value then 1 else value

def mag2 (re im : K) : K := re * re + im * im

def Spectrum.set (s : Spectrum K) (bin : ℕ) (re im : K) : Spectrum K :=
  ⟨Function.update s.re bin re, Function.update s.im bin im⟩

/-! ## The net -/

def kStepwiseX : List K :=
  [-2.6466529369354248, -1.4722193479537964, -0.5493061542510986, 0.5493061542510986, 1.4722193479537964, 2.6466529369354248]

def kStepwiseY : List K :=
  [-0.9900000095367432, -0.8999999761581421, -0.5, 0.5, 0.8999999761581421, 0.9900000095367432]

def sigmoidSymmetricStepwise (value : K) : K :=
  let x := fun index => kStepwiseX.getD index 0
  let y := fun index => kStepwiseY.getD index 0
  if value < x 0 then -1
  else if x 5 ≤ value then 1
  else
    match (List.range 5).find? fun index => value < x (index + 1) with
    | some index =>
      let span := x (index + 1) - x index
      let mix := (value - x index) / span
      y index + (y (index + 1) - y index) * mix
    | none => 1

def linearPieceSymmetric (value : K) : K := if value < -1 then -1 else if 1 < value then 1 else value

def FannDialogNet.infer (net : FannDialogNet K) (features : ℕ → K) : K :=
  let hidden := fun neuron =>
    let row := fun i => net.weights (neuron * kDialogNetHiddenWeights + i)
    let sum := (List.range kDialogNetInputs).foldl (fun sum input => sum + features input * row input) (row kDialogNetInputs)
    sigmoidSymmetricStepwise (0.5 * sum)
  let outputRow := fun i => net.weights (kDialogNetHidden * kDialogNetHiddenWeights + i)
  let outputSum := (List.range kDialogNetHidden).foldl (fun sum neuron => sum + hidden neuron * outputRow neuron)
    (outputRow kDialogNetHidden)
  linearPieceSymmetric (0.5 * outputSum)

/-! ## What the net is shown -/

section Features

variable (math : FloatMath K)

def powerDb (power : K) : K :=
  let kPowerDbScale := 2.302585092994046 / 20
  if power < 1.0e-10 then -1.0e10 else math.log power / kPowerDbScale

/-- the sums and the bounds that the loop over the bins keeps -/
structure LevelSums (K : Type) where
  pmaxSum : K
  pdifSum : K
  aMin : K
  aMax : K

def computeHaloDialogAd (left right : Spectrum K) : HaloDialogFeatureFrame K :=
  let pMax := fun bin => max (mag2 (left.re bin) (left.im bin)) (mag2 (right.re bin) (right.im bin))
  let pDif := fun bin => mag2 (right.re bin - left.re bin) (right.im bin - left.im bin)
  let a := fun bin => powerDb math (pMax bin)
  let sums := (List.range kBins).foldl
    (fun (s : LevelSums K) bin =>
      { pmaxSum := s.pmaxSum + pMax bin
        pdifSum := s.pdifSum + pDif bin
        aMin := if bin = 0 ∨ a bin < s.aMin then a bin else s.aMin
        aMax := if bin = 0 ∨ s.aMax < a bin then a bin else s.aMax })
    ⟨0, 0, 0, 0⟩
  { a := fun index =>
      if index < kBins then a index
      else if index = 513 then powerDb math (sums.pmaxSum / kBins)
      else if index = 514 then sums.aMin
      else sums.aMax
    d := fun index =>
      if index < kBins then powerDb math (pDif index)
      else if index = 513 then powerDb math (sums.pdifSum / kBins)
      else 0 }

/-- the bins beside a bin that the net sees as well -/
def kNeighborOffsets : List ℤ := [-3, -2, -1, 1, 2, 3]

/-- the features of a bin in the order of the cursor; the target is the frame before the newest -/
def buildHaloDialogFeatures (slots : Fin kHistoryFrames → HaloDialogFeatureFrame K) (bin : ℕ) : List K :=
  let order := List.finRange kHistoryFrames
  let lo := order.tail.foldl (fun lo slot => min lo ((slots slot).a 514)) ((slots 0).a 514)
  let hi := order.tail.foldl (fun hi slot => max hi ((slots slot).a 515)) ((slots 0).a 515)
  let span := hi - lo
  let norm := fun value => if span = 0 then 0 else (value - lo) / span
  let pair := fun (frame : HaloDialogFeatureFrame K) index => [norm (frame.a index), norm (frame.d index)]
  let target := slots ⟨kHistoryFrames - 2, by decide⟩
  let hz : K := bin * 48000 / kFftSize
  (order.flatMap fun slot => pair (slots slot) bin)
    ++ (kNeighborOffsets.flatMap fun offset =>
      let neighbor := (bin : ℤ) + offset
      if neighbor < 0 ∨ kBins ≤ neighbor then [0, 0] else pair target neighbor.toNat)
    ++ (order.flatMap fun slot => pair (slots slot) 513)
    ++ [if bin = 0 then 0 else clamp01 ((math.log hz - math.log 10) / (math.log 24000 - math.log 10))]

end Features

/-! ## The dialog stage -/

def kFloorLinear : K := 0.0316227766
def kCentreScale : K := 0.7071067811865476

namespace HaloDialogStage

def zeroFeatures : HaloDialogFeatureFrame K := ⟨fun _ => 0, fun _ => 0⟩

def applyParams (d : HaloDialogStage K) (params : Record.HaloParams K) : HaloDialogStage K := { d with params }

def reset (d : HaloDialogStage K) : HaloDialogStage K :=
  { d with
    slots := fun _ => zeroFeatures
    map := id
    envelope := fun _ => 0
    leftHistory := HaloEncoder.silent
    rightHistory := HaloEncoder.silent
    haveTarget := false }

/-- the last slot gets the first -/
def rotateHistory (map : Fin kHistoryFrames → Fin kHistoryFrames) : Fin kHistoryFrames → Fin kHistoryFrames :=
  fun index => map (index + 1)

/-- how the envelope of a bin follows the net -/
def followEnvelope (attack release q envelope : K) : K :=
  let d :=
    if kFloorLinear < q then
      let d := 2 * (q - kFloorLinear)
      if envelope < d then min d ((1 - attack) * envelope + attack * d) else d
    else 0
  if d < envelope then max d (release * envelope) else d

/-- `isolate_prime` -/
def isolatePrime (params : Record.HaloParams K) : K :=
  let isolate := thousandths params.dialogIsolateThousandths
  let aggress := thousandths params.dialogAggressThousandths
  isolate * min (2 * aggress) 1

/-- what the loop over the bins carries -/
structure Loop (K : Type) where
  envelope : ℕ → K
  maskPrev : K
  out : HaloDialogFrame K

def emptyFrame : HaloDialogFrame K := ⟨HaloEncoder.silent, HaloEncoder.silent, HaloEncoder.silent⟩

/-- what a gain leaves of the left and of the right, and what it takes out for the centre -/
def residualOf (gain own other : K) : K := own - 0.5 * gain * (own + other)

def centreOf (gain left right : K) : K := 0.5 / kCentreScale * gain * (left + right)

def writeBin (out : HaloDialogFrame K) (bin : ℕ) (gain : K) (left right : Spectrum K) : HaloDialogFrame K :=
  { centre := out.centre.set bin (centreOf gain (left.re bin) (right.re bin)) (centreOf gain (left.im bin) (right.im bin))
    residualL := out.residualL.set bin (residualOf gain (left.re bin) (right.re bin)) (residualOf gain (left.im bin) (right.im bin))
    residualR := out.residualR.set bin (residualOf gain (right.re bin) (left.re bin))
      (residualOf gain (right.im bin) (left.im bin)) }

/-- one turn of the loop, with what the net makes of the bin -/
def turn (d : HaloDialogStage K) (answer : ℕ → K) (loop : Loop K) (bin : ℕ) : Loop K :=
  let attack := thousandths d.params.dialogAttackThousandths
  let release := thousandths d.params.dialogReleaseThousandths
  let mixIn := thousandths d.params.dialogMixInThousandths
  let envelope := followEnvelope attack release (answer bin) (loop.envelope bin)
  let mask := clamp01 (0.5 * (mixIn + envelope) + 0.5 * loop.maskPrev)
  { envelope := Function.update loop.envelope bin envelope
    maskPrev := mask
    out := writeBin loop.out bin (isolatePrime d.params * mask) d.leftHistory d.rightHistory }

/-- the slots in the order of the frames, with the levels of the newest frame -/
def ordered (math : FloatMath K) (d : HaloDialogStage K) (left right : Spectrum K) :
    Fin kHistoryFrames → HaloDialogFeatureFrame K :=
  let newest := d.map ⟨kHistoryFrames - 1, by decide⟩
  let slots := Function.update d.slots newest (computeHaloDialogAd math left right)
  fun index => slots (d.map index)

/-- `ProcessFrame`, into an empty frame -/
def processFrame (math : FloatMath K) (net : FannDialogNet K) (d : HaloDialogStage K) (left right : Spectrum K) :
    HaloDialogStage K × HaloDialogFrame K :=
  let newest := d.map ⟨kHistoryFrames - 1, by decide⟩
  let slots := Function.update d.slots newest (computeHaloDialogAd math left right)
  let answer := fun bin =>
    let features := buildHaloDialogFeatures math (ordered math d left right) bin
    net.infer fun i => features.getD i 0
  let start : Loop K := ⟨d.envelope, 0, emptyFrame⟩
  let loop := if d.haveTarget then (List.range kBins).foldl (turn d answer) start else start
  ({ d with
      slots := slots
      map := rotateHistory d.map
      envelope := loop.envelope
      leftHistory := left
      rightHistory := right
      haveTarget := true }, loop.out)

end HaloDialogStage

/-! ## The surround stage -/

def kDeRampS : K := 0.5
def kRampSentinel : K := 1.0e8

def AlphaAverager.empty : AlphaAverager K := ⟨fun _ => 0, 0, 0⟩

/-- `Push`: the mean of the last eight, or of as many as there are -/
def AlphaAverager.push (alpha : AlphaAverager K) (value : K) : AlphaAverager K × K :=
  let history := Function.update alpha.history alpha.write value
  let filled := if alpha.filled < 8 then alpha.filled + 1 else alpha.filled
  let sum := (List.range filled).foldl (fun sum index => sum + history index) 0
  (⟨history, filled, (alpha.write + 1) % 8⟩, sum / filled)

namespace HaloSurroundAssigner

def phaseCoherence (math : FloatMath K) (lRe lIm rRe rIm energy : K) : K :=
  let kPi := 3.14159265358979323846
  if energy < 1.0e-7 then 1
  else
    let phaseDelta := |math.atan2 lIm lRe - math.atan2 rIm rRe|
    let p := 1 - 2 / kPi * phaseDelta
    if p < -1 then -2 - p else p

def dialogAlpha (math : FloatMath K) (isolate aggress : K) : K :=
  if isolate = 0 then 0.99 else 1 - math.exp (math.log 0.01 + aggress * (math.log 0.2 - math.log 0.01))

def ramped (p fade ramp : K) : K :=
  if ramp = kRampSentinel then if 0 < fade then 0 else 1 else clamp01 (0.5 + ramp * (p - fade))

def applyParams (s : HaloSurroundAssigner K) (params : Record.HaloParams K) : HaloSurroundAssigner K := { s with params }

def reset (s : HaloSurroundAssigner K) : HaloSurroundAssigner K :=
  { s with
    energyPrev := fun _ => 0
    transient := fun _ => 0
    cPrev := fun _ => 0
    fPrev := fun _ => 0
    bPrev := fun _ => 0
    dialogAlphaPrev := 0
    alpha := .empty }

/-- what `ProcessFrame` settles before its loop -/
structure Controls (K : Type) where
  s : K
  divergence : K
  fadeFs : K
  fadeSb : K
  rampFs : K
  rampSb : K

def controls (math : FloatMath K) (st : HaloSurroundAssigner K) : Controls K :=
  let isolate := thousandths st.params.dialogIsolateThousandths
  let aggress := thousandths st.params.dialogAggressThousandths
  let fadeFs := 2 * thousandths st.params.fadeThousandths - 1
  let fadeSb := 2 * thousandths st.params.fadeRearsThousandths - 1
  let rampFs := if (kDeRampS : K) = 0 then kRampSentinel else 0.5 / kDeRampS
  { s := 0.5 * dialogAlpha math isolate aggress + 0.5 * st.dialogAlphaPrev
    divergence := thousandths st.params.divergenceThousandths
    fadeFs := fadeFs
    fadeSb := fadeSb
    rampFs := if fadeFs = -1 ∨ fadeFs = 1 then kRampSentinel else rampFs
    rampSb := if fadeSb = -1 ∨ fadeSb = 1 then kRampSentinel else 0.5 }

/-- the followers of a bin, for what is left of it -/
def follow (math : FloatMath K) (ctl : Controls K) (frame : HaloDialogFrame K) (st : HaloSurroundAssigner K) (bin : ℕ) :
    HaloSurroundAssigner K :=
  let lRe := frame.residualL.re bin
  let lIm := frame.residualL.im bin
  let rRe := frame.residualR.re bin
  let rIm := frame.residualR.im bin
  let energy := mag2 lRe lIm + mag2 rRe rIm
  let energySmooth := 0.5 * st.energyPrev bin + 0.5 * energy
  let t := max (st.transient bin - 1) 0
  let t := if 100 * energySmooth < energy ∧ 0.001 < energy then 15 else t
  let p := phaseCoherence math lRe lIm rRe rIm energy
  let alphaIn := if 0 < t ∧ t < 14 then min 0.9 ctl.s else ctl.s
  let q := st.alpha.push alphaIn
  let alpha := q.2
  let cRaw := clamp01 (2 * (1 - ctl.divergence) * (p - ctl.divergence))
  { st with
    energyPrev := Function.update st.energyPrev bin energySmooth
    transient := Function.update st.transient bin t
    alpha := q.1
    cPrev := Function.update st.cPrev bin (alpha * st.cPrev bin + (1 - alpha) * cRaw)
    fPrev := Function.update st.fPrev bin (alpha * st.fPrev bin + (1 - alpha) * ramped p ctl.fadeFs ctl.rampFs)
    bPrev := Function.update st.bPrev bin (alpha * st.bPrev bin + (1 - alpha) * ramped p ctl.fadeSb ctl.rampSb) }

/-- what goes to the channels of the bed, for one part of a bin -/
def assignPart (c frontGain sideGain rearGain centre l r : K) : Fin kHaloBedChannels → K :=
  let mid := 0.5 * (l + r)
  let side := 0.5 * (l - r)
  let lBase := (1 - c) * mid + side
  let rBase := (1 - c) * mid - side
  ![frontGain * lBase, frontGain * rBase, centre + c * mid, sideGain * lBase, sideGain * rBase, rearGain * lBase,
    rearGain * rBase]

/-- one turn of the loop -/
def turn (math : FloatMath K) (ctl : Controls K) (frame : HaloDialogFrame K)
    (p : HaloSurroundAssigner K × (Fin kHaloBedChannels → Spectrum K)) (bin : ℕ) :
    HaloSurroundAssigner K × (Fin kHaloBedChannels → Spectrum K) :=
  let st := follow math ctl frame p.1 bin
  let c := st.cPrev bin
  let f := st.fPrev bin
  let b := st.bPrev bin
  let frontGain := f
  let rearGain := (1 - f) * if st.params.backBoost then 1 else b
  let sideGain := (1 - f) - rearGain
  (st, fun channel =>
    (p.2 channel).set bin
      (assignPart c frontGain sideGain rearGain (frame.centre.re bin) (frame.residualL.re bin) (frame.residualR.re bin) channel)
      (assignPart c frontGain sideGain rearGain (frame.centre.im bin) (frame.residualL.im bin) (frame.residualR.im bin) channel))

def processFrame (math : FloatMath K) (st : HaloSurroundAssigner K) (frame : HaloDialogFrame K)
    (bed : Fin kHaloBedChannels → Spectrum K) : HaloSurroundAssigner K × (Fin kHaloBedChannels → Spectrum K) :=
  let ctl := controls math st
  (List.range kBins).foldl (turn math ctl frame) ({ st with dialogAlphaPrev := ctl.s }, bed)

end HaloSurroundAssigner

end Model

/-! ## What it comes to for one bin -/

namespace HaloBedChannel

def l : Fin kHaloBedChannels := ⟨0, by decide⟩
def r : Fin kHaloBedChannels := ⟨1, by decide⟩
def c : Fin kHaloBedChannels := ⟨2, by decide⟩
def ls : Fin kHaloBedChannels := ⟨3, by decide⟩
def rs : Fin kHaloBedChannels := ⟨4, by decide⟩
def lsr : Fin kHaloBedChannels := ⟨5, by decide⟩
def rsr : Fin kHaloBedChannels := ⟨6, by decide⟩

end HaloBedChannel

section Steering

variable {K : Type} [Field K]

/-- the channels of the left side together -/
def leftSide (bed : Fin kHaloBedChannels → K) : K :=
  bed HaloBedChannel.l + bed HaloBedChannel.ls + bed HaloBedChannel.lsr

def rightSide (bed : Fin kHaloBedChannels → K) : K :=
  bed HaloBedChannel.r + bed HaloBedChannel.rs + bed HaloBedChannel.rsr

/-- where a bin goes: how much of its middle is taken out as a dialog, how much of the rest of the middle goes to the centre, and
how what is left is split between the front, the sides and the rear -/
structure Steering (K : Type) [Field K] where
  dialog : K
  centre : K
  front : K
  side : K
  rear : K
  whole : front + side + rear = 1

namespace Steering

variable (s : Steering K) (left right : K)

/-- how much of the middle stays with the sides -/
def kept : K := (1 - s.dialog) * (1 - s.centre)

/-- what stays with a side, before it is split -/
def base (own other : K) : K := s.kept * ((own + other) / 2) + (own - other) / 2

def toCentre : K := s.dialog / kCentreScale + (1 - s.dialog) * s.centre

def upmix : Fin kHaloBedChannels → K :=
  ![s.front * s.base left right, s.front * s.base right left, s.toCentre * ((left + right) / 2),
    s.side * s.base left right, s.side * s.base right left, s.rear * s.base left right, s.rear * s.base right left]

/-- every share is one -/
structure InRange [LinearOrder K] : Prop where
  dialog : s.dialog ∈ Icc 0 1
  centre : s.centre ∈ Icc 0 1
  front : s.front ∈ Icc 0 1
  side : s.side ∈ Icc 0 1
  rear : s.rear ∈ Icc 0 1

theorem leftSide_upmix : leftSide (s.upmix left right) = s.base left right := by
  calc leftSide (s.upmix left right)
      = s.front * s.base left right + s.side * s.base left right + s.rear * s.base left right := rfl
    _ = (s.front + s.side + s.rear) * s.base left right := by ring
    _ = s.base left right := by rw [s.whole, one_mul]

theorem rightSide_upmix : rightSide (s.upmix left right) = s.base right left := by
  calc rightSide (s.upmix left right)
      = s.front * s.base right left + s.side * s.base right left + s.rear * s.base right left := rfl
    _ = (s.front + s.side + s.rear) * s.base right left := by ring
    _ = s.base right left := by rw [s.whole, one_mul]

/-- the middle is shared out alike, so the difference of the sides stays what it was -/
theorem sides [CharZero K] : leftSide (s.upmix left right) - rightSide (s.upmix left right) = left - right := by
  rw [leftSide_upmix, rightSide_upmix]
  unfold base
  ring

/-- without a dialog the centre holds what the sides lose -/
theorem folded [CharZero K] (hdialog : s.dialog = 0) :
    leftSide (s.upmix left right) + s.upmix left right HaloBedChannel.c = left ∧
      rightSide (s.upmix left right) + s.upmix left right HaloBedChannel.c = right := by
  have hcentre : s.upmix left right HaloBedChannel.c = s.centre * ((left + right) / 2) := by
    change s.toCentre * ((left + right) / 2) = _
    unfold toCentre
    rw [hdialog]
    ring
  have hkept : s.kept = 1 - s.centre := by
    unfold kept
    rw [hdialog]
    ring
  rw [leftSide_upmix, rightSide_upmix, hcentre]
  unfold base
  rw [hkept]
  constructor <;> ring

end Steering

end Steering

section Power

variable {K : Type} [Field K] [LinearOrder K] [IsStrictOrderedRing K]

/-- the power of a mixture is at most that of the louder part -/
theorem mag2_mix {u v aRe aIm bRe bIm : K} (hu : 0 ≤ u) (hv : 0 ≤ v) (hsum : u + v = 1) :
    mag2 (u * aRe - v * bRe) (u * aIm - v * bIm) ≤ max (mag2 aRe aIm) (mag2 bRe bIm) := by
  have hjensen : mag2 (u * aRe - v * bRe) (u * aIm - v * bIm) ≤ u * mag2 aRe aIm + v * mag2 bRe bIm := by
    have hcross : 0 ≤ u * v * ((aRe + bRe) ^ 2 + (aIm + bIm) ^ 2) := by positivity
    have hgap : u * mag2 aRe aIm + v * mag2 bRe bIm - mag2 (u * aRe - v * bRe) (u * aIm - v * bIm) =
        u * v * ((aRe + bRe) ^ 2 + (aIm + bIm) ^ 2) := by
      obtain rfl : v = 1 - u := by linarith
      unfold mag2
      ring
    linarith
  calc mag2 (u * aRe - v * bRe) (u * aIm - v * bIm)
      ≤ u * mag2 aRe aIm + v * mag2 bRe bIm := hjensen
    _ ≤ u * max (mag2 aRe aIm) (mag2 bRe bIm) + v * max (mag2 aRe aIm) (mag2 bRe bIm) := by
        gcongr
        · exact le_max_left _ _
        · exact le_max_right _ _
    _ = max (mag2 aRe aIm) (mag2 bRe bIm) := by rw [← add_mul, hsum, one_mul]

omit [LinearOrder K] [IsStrictOrderedRing K] in
theorem mag2_scale (g re im : K) : mag2 (g * re) (g * im) = g ^ 2 * mag2 re im := by
  unfold mag2
  ring

theorem mag2_nonneg (re im : K) : 0 ≤ mag2 re im := add_nonneg (mul_self_nonneg re) (mul_self_nonneg im)

namespace Steering

variable {s : Steering K} (h : s.InRange)
include h

theorem InRange.kept : s.kept ∈ Icc 0 1 := by
  have hdialog : 1 - s.dialog ∈ Icc 0 1 := ⟨by linarith [h.dialog.2], by linarith [h.dialog.1]⟩
  have hcentre : 1 - s.centre ∈ Icc 0 1 := ⟨by linarith [h.centre.2], by linarith [h.centre.1]⟩
  exact ⟨mul_nonneg hdialog.1 hcentre.1, mul_le_one₀ hdialog.2 hcentre.1 hcentre.2⟩

theorem InRange.base_power (ownRe ownIm otherRe otherIm : K) :
    mag2 (s.base ownRe otherRe) (s.base ownIm otherIm) ≤ max (mag2 ownRe ownIm) (mag2 otherRe otherIm) := by
  have hkept := h.kept
  have hmix : ∀ own other : K, s.base own other = (1 + s.kept) / 2 * own - (1 - s.kept) / 2 * other := by
    intro own other
    unfold base
    ring
  rw [hmix, hmix]
  apply mag2_mix
  · linarith [hkept.1]
  · linarith [hkept.2]
  · ring

/-- what a side gets of its share has no more power than the louder side -/
theorem InRange.share_power {g : K} (hg : g ∈ Icc 0 1) (ownRe ownIm otherRe otherIm : K) :
    mag2 (g * s.base ownRe otherRe) (g * s.base ownIm otherIm) ≤ max (mag2 ownRe ownIm) (mag2 otherRe otherIm) := by
  rw [mag2_scale]
  calc g ^ 2 * mag2 (s.base ownRe otherRe) (s.base ownIm otherIm)
      ≤ 1 * mag2 (s.base ownRe otherRe) (s.base ownIm otherIm) :=
        mul_le_mul_of_nonneg_right (pow_le_one₀ hg.1 hg.2) (mag2_nonneg _ _)
    _ ≤ max (mag2 ownRe ownIm) (mag2 otherRe otherIm) := by
        rw [one_mul]
        exact h.base_power ownRe ownIm otherRe otherIm

theorem InRange.toCentre : 0 ≤ s.toCentre ∧ s.toCentre ≤ 1 / kCentreScale := by
  have hscale : (1 : K) ≤ 1 / kCentreScale := by
    unfold kCentreScale
    norm_num
  have hdialog := h.dialog
  have hrest : (1 - s.dialog) * s.centre ≤ (1 - s.dialog) * (1 / kCentreScale) :=
    mul_le_mul_of_nonneg_left (h.centre.2.trans hscale) (by linarith [hdialog.2])
  have hsplit : s.dialog / kCentreScale + (1 - s.dialog) * (1 / kCentreScale) = 1 / kCentreScale := by ring
  have hfloor : (0 : K) ≤ s.dialog / kCentreScale := by
    rw [div_eq_mul_one_div]
    exact mul_nonneg hdialog.1 (zero_le_one.trans hscale)
  unfold Steering.toCentre
  constructor
  · exact add_nonneg hfloor (mul_nonneg (by linarith [hdialog.2]) h.centre.1)
  · linarith

theorem InRange.centre_power (lRe lIm rRe rIm : K) :
    mag2 (s.toCentre * ((lRe + rRe) / 2)) (s.toCentre * ((lIm + rIm) / 2)) ≤ 2 * max (mag2 lRe lIm) (mag2 rRe rIm) := by
  have hmid : mag2 ((lRe + rRe) / 2) ((lIm + rIm) / 2) ≤ max (mag2 lRe lIm) (mag2 rRe rIm) := by
    have hmix := @mag2_mix K _ _ _ (1 / 2) (1 / 2) lRe lIm (-rRe) (-rIm) (by norm_num) (by norm_num) (by norm_num)
    have hre : 1 / 2 * lRe - 1 / 2 * -rRe = (lRe + rRe) / 2 := by ring
    have him : 1 / 2 * lIm - 1 / 2 * -rIm = (lIm + rIm) / 2 := by ring
    have hneg : mag2 (-rRe) (-rIm) = mag2 rRe rIm := by
      unfold mag2
      ring
    rwa [hre, him, hneg] at hmix
  have hcentre := h.toCentre
  have hsquare : s.toCentre ^ 2 ≤ 2 := by
    calc s.toCentre ^ 2 ≤ (1 / kCentreScale) ^ 2 := pow_le_pow_left₀ hcentre.1 hcentre.2 2
      _ ≤ 2 := by
        unfold kCentreScale
        norm_num
  rw [mag2_scale]
  exact mul_le_mul hsquare hmid (mag2_nonneg _ _) zero_le_two

/-- **No channel is louder than the louder side,** but the centre may have twice its power. -/
theorem InRange.power (lRe lIm rRe rIm : K) (channel : Fin kHaloBedChannels) :
    mag2 (s.upmix lRe rRe channel) (s.upmix lIm rIm channel) ≤
      (if channel = HaloBedChannel.c then 2 else 1) * max (mag2 lRe lIm) (mag2 rRe rIm) := by
  have hleft : ∀ g ∈ Icc (0 : K) 1, mag2 (g * s.base lRe rRe) (g * s.base lIm rIm) ≤ 1 * max (mag2 lRe lIm) (mag2 rRe rIm) := by
    intro g hg
    rw [one_mul]
    exact h.share_power hg lRe lIm rRe rIm
  have hright : ∀ g ∈ Icc (0 : K) 1, mag2 (g * s.base rRe lRe) (g * s.base rIm lIm) ≤ 1 * max (mag2 lRe lIm) (mag2 rRe rIm) := by
    intro g hg
    rw [one_mul, max_comm]
    exact h.share_power hg rRe rIm lRe lIm
  fin_cases channel
  · exact hleft s.front h.front
  · exact hright s.front h.front
  · exact h.centre_power lRe lIm rRe rIm
  · exact hleft s.side h.side
  · exact hright s.side h.side
  · exact hleft s.rear h.rear
  · exact hright s.rear h.rear

end Steering

end Power

/-! ## Ranges -/

section Ranges

variable {K : Type} [Field K] [LinearOrder K] [IsStrictOrderedRing K]

theorem clamp01_mem (value : K) : clamp01 value ∈ Icc (0 : K) 1 := by
  unfold clamp01
  split_ifs with hbelow habove
  · exact ⟨le_rfl, zero_le_one⟩
  · exact ⟨zero_le_one, le_rfl⟩
  · exact ⟨not_lt.mp hbelow, not_lt.mp habove⟩

theorem thousandths_mem {value : ℤ} (h : Record.Within value 0 1000) : (thousandths value : K) ∈ Icc (0 : K) 1 := by
  have hlow : (0 : K) ≤ value := by exact_mod_cast h.minimum_le
  have hhigh : (value : K) ≤ 1000 := by exact_mod_cast h.le_maximum
  unfold thousandths
  constructor
  · exact mul_nonneg hlow (by norm_num)
  · linarith

theorem mul_mem_unit {a b : K} (ha : a ∈ Icc (0 : K) 1) (hb : b ∈ Icc (0 : K) 1) : a * b ∈ Icc (0 : K) 1 :=
  ⟨mul_nonneg ha.1 hb.1, mul_le_one₀ ha.2 hb.1 hb.2⟩

theorem rest_mem_unit {a : K} (ha : a ∈ Icc (0 : K) 1) : 1 - a ∈ Icc (0 : K) 1 :=
  ⟨sub_nonneg.mpr ha.2, sub_le_self 1 ha.1⟩

theorem blend_mem_unit {a x y : K} (ha : a ∈ Icc (0 : K) 1) (hx : x ∈ Icc (0 : K) 1) (hy : y ∈ Icc (0 : K) 1) :
    a * x + (1 - a) * y ∈ Icc (0 : K) 1 :=
  convex_Icc (0 : K) 1 hx hy ha.1 (rest_mem_unit ha).1 (add_sub_cancel a 1)

theorem AlphaAverager.push_mem {alpha : AlphaAverager K} (h : ∀ i, alpha.history i ∈ Icc (0 : K) 1) {value : K}
    (hvalue : value ∈ Icc (0 : K) 1) :
    (∀ i, (alpha.push value).1.history i ∈ Icc (0 : K) 1) ∧ (alpha.push value).2 ∈ Icc (0 : K) 1 := by
  have hhistory : ∀ i, (alpha.push value).1.history i ∈ Icc (0 : K) 1 := by
    intro i
    change Function.update alpha.history alpha.write value i ∈ Icc (0 : K) 1
    by_cases hnew : i = alpha.write
    · subst hnew
      rw [Function.update_self]
      exact hvalue
    · rw [Function.update_of_ne hnew]
      exact h i
  obtain ⟨filled, hfilled⟩ : ∃ filled, filled = (alpha.push value).1.filled := ⟨_, rfl⟩
  have hsome : 0 < filled := by
    rw [hfilled, AlphaAverager.push]
    dsimp only
    split_ifs <;> omega
  have hsum : (List.range filled).foldl (fun sum index => sum + (alpha.push value).1.history index) 0 ∈ Icc (0 : K) filled := by
    apply foldl_range_rule fun (k : ℕ) (sum : K) => sum ∈ Icc (0 : K) k
    · exact ⟨le_rfl, by simp⟩
    · intro k _ sum hsum
      have hitem := hhistory k
      push_cast
      exact ⟨add_nonneg hsum.1 hitem.1, add_le_add hsum.2 hitem.2⟩
  have hpos : (0 : K) < filled := Nat.cast_pos.mpr hsome
  refine ⟨hhistory, ?_⟩
  have hmean : (alpha.push value).2 =
      (List.range filled).foldl (fun sum index => sum + (alpha.push value).1.history index) 0 / filled := by
    rw [hfilled]
    rfl
  rw [hmean]
  exact ⟨div_nonneg hsum.1 hpos.le, (div_le_one hpos).mpr hsum.2⟩

end Ranges

/-! ## The loop of the dialog stage -/

namespace HaloDialogStage

section Split

variable {K : Type} [Field K]

/-- at a bin the frame is what a gain makes of two spectra -/
structure SplitAt (out : HaloDialogFrame K) (left right : Spectrum K) (gain : K) (bin : ℕ) : Prop where
  centreRe : out.centre.re bin = centreOf gain (left.re bin) (right.re bin)
  centreIm : out.centre.im bin = centreOf gain (left.im bin) (right.im bin)
  leftRe : out.residualL.re bin = residualOf gain (left.re bin) (right.re bin)
  leftIm : out.residualL.im bin = residualOf gain (left.im bin) (right.im bin)
  rightRe : out.residualR.re bin = residualOf gain (right.re bin) (left.re bin)
  rightIm : out.residualR.im bin = residualOf gain (right.im bin) (left.im bin)

variable {out : HaloDialogFrame K} {left right : Spectrum K} {gain : K} {bin : ℕ}

theorem writeBin_at (out : HaloDialogFrame K) (bin : ℕ) (gain : K) (left right : Spectrum K) :
    SplitAt (writeBin out bin gain left right) left right gain bin := by
  constructor <;> exact Function.update_self _ _ _

/-- the other bins stay as they are -/
theorem SplitAt.writeBin (h : SplitAt out left right gain bin) {other : ℕ} (hne : bin ≠ other) (gain' : K)
    (left' right' : Spectrum K) : SplitAt (writeBin out other gain' left' right') left right gain bin where
  centreRe := (Function.update_of_ne hne _ _).trans h.centreRe
  centreIm := (Function.update_of_ne hne _ _).trans h.centreIm
  leftRe := (Function.update_of_ne hne _ _).trans h.leftRe
  leftIm := (Function.update_of_ne hne _ _).trans h.leftIm
  rightRe := (Function.update_of_ne hne _ _).trans h.rightRe
  rightIm := (Function.update_of_ne hne _ _).trans h.rightIm

theorem emptyFrame_split (gain : K) (bin : ℕ) :
    SplitAt (emptyFrame : HaloDialogFrame K) HaloEncoder.silent HaloEncoder.silent gain bin := by
  constructor <;> simp [emptyFrame, HaloEncoder.silent, centreOf, residualOf]

variable [LinearOrder K] [IsStrictOrderedRing K] (math : FloatMath K) (net : FannDialogNet K) (d : HaloDialogStage K)

/-- the loop over the bins: every bin is split by the gain of its mask -/
theorem loop_split (answer : ℕ → K) (start : Loop K) {bin : ℕ} (hbin : bin < kBins) :
    ∃ mask ∈ Icc (0 : K) 1, SplitAt ((List.range kBins).foldl (turn d answer) start).out d.leftHistory d.rightHistory
      (isolatePrime d.params * mask) bin := by
  have hloop : ∀ bin < kBins, ∃ mask ∈ Icc (0 : K) 1,
      SplitAt ((List.range kBins).foldl (turn d answer) start).out d.leftHistory d.rightHistory
        (isolatePrime d.params * mask) bin := by
    apply foldl_range_rule fun k (loop : Loop K) => ∀ bin < k, ∃ mask ∈ Icc (0 : K) 1,
      SplitAt loop.out d.leftHistory d.rightHistory (isolatePrime d.params * mask) bin
    · intro bin hbin
      exact absurd hbin (Nat.not_lt_zero bin)
    · intro k _ loop hbefore bin hbin
      rcases Nat.lt_succ_iff_lt_or_eq.mp hbin with hearlier | rfl
      · obtain ⟨mask, hmask, hsplit⟩ := hbefore bin hearlier
        exact ⟨mask, hmask, hsplit.writeBin hearlier.ne _ _ _⟩
      · exact ⟨_, clamp01_mem _, writeBin_at _ _ _ _ _⟩
  exact hloop bin hbin

omit [IsStrictOrderedRing K] in
theorem processFrame_history (left right : Spectrum K) :
    (d.processFrame math net left right).1.toHaloDialogExtractor = ⟨left, right, true⟩ := rfl

omit [IsStrictOrderedRing K] in
theorem processFrame_params (left right : Spectrum K) : (d.processFrame math net left right).1.params = d.params := by
  dsimp only [processFrame]

/-- **What the dialog stage takes out.** A bin of the frame before is split by the gain of a mask between zero and one. -/
theorem processFrame_split (newLeft newRight : Spectrum K) {bin : ℕ} (hbin : bin < kBins) :
    ∃ mask ∈ Icc (0 : K) 1, SplitAt (d.processFrame math net newLeft newRight).2
      (HaloEncoder.delayed d.toHaloDialogExtractor).1 (HaloEncoder.delayed d.toHaloDialogExtractor).2
      (isolatePrime d.params * mask) bin := by
  unfold processFrame HaloEncoder.delayed
  dsimp only
  by_cases htarget : d.haveTarget
  · rw [if_pos htarget, if_pos htarget]
    exact loop_split d _ _ hbin
  · rw [if_neg htarget, if_neg htarget]
    exact ⟨0, ⟨le_rfl, zero_le_one⟩, emptyFrame_split _ bin⟩

omit [IsStrictOrderedRing K] in
theorem isolatePrime_zero {params : Record.HaloParams K} (h : params.dialogIsolateThousandths = 0) : isolatePrime params = 0 := by
  unfold isolatePrime thousandths
  simp [h]

theorem isolatePrime_mem {params : Record.HaloParams K} (h : params.InRange) : isolatePrime params ∈ Icc (0 : K) 1 := by
  have hisolate : (thousandths params.dialogIsolateThousandths : K) ∈ Icc (0 : K) 1 :=
    thousandths_mem (h.1 _ (by simp))
  have haggress : (thousandths params.dialogAggressThousandths : K) ∈ Icc (0 : K) 1 :=
    thousandths_mem (h.1 _ (by simp))
  have hfactor : min (2 * (thousandths params.dialogAggressThousandths : K)) 1 ∈ Icc (0 : K) 1 :=
    ⟨le_min (mul_nonneg zero_le_two haggress.1) zero_le_one, min_le_right _ _⟩
  exact mul_mem_unit hisolate hfactor

end Split

end HaloDialogStage

/-! ## What the dialog stage remembers -/

namespace HaloDialogStage

section Recall

variable {K : Type} [Field K] [LinearOrder K] (math : FloatMath K)

instance : Zero (HaloDialogFeatureFrame K) := ⟨zeroFeatures⟩

/-- the levels of the frame at a place; there are none before the first frame -/
def levelsAt (frames : List (Spectrum K × Spectrum K)) (m : ℤ) : HaloDialogFeatureFrame K :=
  signal (fun frame => computeHaloDialogAd math frame.1 frame.2) frames m

/-- the spectra of the last frame -/
def lastFrame (frames : List (Spectrum K × Spectrum K)) : Spectrum K × Spectrum K :=
  frames.getLast?.getD (HaloEncoder.silent, HaloEncoder.silent)

/-- the stage knows the last frame, and the levels of the last five in the order of its map -/
structure Recalls (frames : List (Spectrum K × Spectrum K)) (d : HaloDialogStage K) : Prop where
  map : Function.Injective d.map
  recent : ∀ i : Fin kHistoryFrames, (i : ℕ) + 1 < kHistoryFrames →
    d.slots (d.map i) = levelsAt math frames (frames.length + i - (kHistoryFrames - 1 : ℕ))
  last : HaloEncoder.delayed d.toHaloDialogExtractor = lastFrame frames

theorem reset_recalls (d : HaloDialogStage K) : Recalls math [] d.reset where
  map := Function.injective_id
  recent := by
    intro i hi
    refine (signal_neg _ _ ?_).symm
    simp only [List.length_nil, kHistoryFrames] at hi ⊢
    omega
  last := rfl

variable {math} {frames : List (Spectrum K × Spectrum K)} {d : HaloDialogStage K}

/-- **What the net is shown.** With the newest frame the slots are in the order of the last six. -/
theorem Recalls.ordered (h : Recalls math frames d) (left right : Spectrum K) (i : Fin kHistoryFrames) :
    d.ordered math left right i = levelsAt math (frames ++ [(left, right)]) (frames.length + i - (kHistoryFrames - 1 : ℕ)) := by
  obtain ⟨newest, hnewest⟩ : ∃ newest : Fin kHistoryFrames, newest = ⟨kHistoryFrames - 1, by decide⟩ := ⟨_, rfl⟩
  unfold HaloDialogStage.ordered
  rw [← hnewest]
  by_cases hi : i = newest
  · have hval : (i : ℕ) = kHistoryFrames - 1 := by rw [hi, hnewest]
    have hplace : (frames.length + (i : ℕ) - (kHistoryFrames - 1 : ℕ) : ℤ) = frames.length := by
      rw [hval]
      ring
    rw [hplace, levelsAt, signal_concat, hi]
    exact Function.update_self _ _ _
  · have hearlier : (i : ℕ) + 1 < kHistoryFrames := by
      have hlt := i.isLt
      have hne : (i : ℕ) ≠ kHistoryFrames - 1 := by
        intro heq
        apply hi
        rw [hnewest]
        exact Fin.ext heq
      omega
    have hslot : d.map i ≠ d.map newest := fun heq => hi (h.map heq)
    have hinside : (frames.length + (i : ℕ) - (kHistoryFrames - 1 : ℕ) : ℤ) < frames.length := by
      simp only [kHistoryFrames] at hearlier ⊢
      omega
    rw [levelsAt, signal_append _ _ _ hinside]
    exact (Function.update_of_ne hslot _ _).trans (h.recent i hearlier)

/-- **One frame.** The oldest slot takes the newest frame, and the map goes on. -/
theorem Recalls.processFrame (h : Recalls math frames d) (net : FannDialogNet K) (left right : Spectrum K) :
    Recalls math (frames ++ [(left, right)]) (d.processFrame math net left right).1 where
  map := h.map.comp (add_left_injective 1)
  recent := by
    intro i hi
    have hnext : ((i + 1 : Fin kHistoryFrames) : ℕ) = i + 1 := by
      rw [Fin.val_add_one_of_lt']
      omega
    have hordered := h.ordered left right (i + 1)
    rw [hnext] at hordered
    have hplace : ((frames ++ [(left, right)]).length + (i : ℕ) - (kHistoryFrames - 1 : ℕ) : ℤ) =
        frames.length + (i + 1 : ℕ) - (kHistoryFrames - 1 : ℕ) := by
      rw [List.length_append, List.length_singleton]
      push_cast
      ring
    rw [hplace, ← hordered]
    rfl
  last := by
    unfold lastFrame HaloEncoder.delayed
    rw [List.getLast?_concat]
    rfl

end Recall

end HaloDialogStage

/-! ## The loop of the surround stage -/

namespace HaloSurroundAssigner

section Assign

variable {K : Type} [Field K] [LinearOrder K] [IsStrictOrderedRing K]

/-- every follower is between zero and one -/
structure Steady (st : HaloSurroundAssigner K) : Prop where
  c : ∀ bin, st.cPrev bin ∈ Icc (0 : K) 1
  f : ∀ bin, st.fPrev bin ∈ Icc (0 : K) 1
  b : ∀ bin, st.bPrev bin ∈ Icc (0 : K) 1
  alpha : ∀ i, st.alpha.history i ∈ Icc (0 : K) 1
  dialogAlpha : st.dialogAlphaPrev ∈ Icc (0 : K) 1

/-- at a bin the bed is what the shares make of two spectra -/
def SteeredAt (s : Steering K) (bed : Fin kHaloBedChannels → Spectrum K) (left right : Spectrum K) (bin : ℕ) : Prop :=
  ∀ channel, (bed channel).re bin = s.upmix (left.re bin) (right.re bin) channel ∧
    (bed channel).im bin = s.upmix (left.im bin) (right.im bin) channel

variable (math : FloatMath K)

theorem dialogAlpha_mem (isolate : K) {aggress : K} (haggress : aggress ∈ Icc (0 : K) 1) :
    dialogAlpha math isolate aggress ∈ Icc (0 : K) 1 := by
  unfold dialogAlpha
  split_ifs
  · constructor <;> norm_num
  · obtain ⟨low, hlow⟩ : ∃ low, low = min (math.log 0.01) (math.log 0.2) := ⟨_, rfl⟩
    obtain ⟨high, hhigh⟩ : ∃ high, high = max (math.log 0.01) (math.log 0.2) := ⟨_, rfl⟩
    have hbetween : math.log 0.01 + aggress * (math.log 0.2 - math.log 0.01) ∈ Icc low high := by
      have hblend := convex_Icc low high (x := math.log 0.2) (y := math.log 0.01)
        ⟨hlow ▸ min_le_right _ _, hhigh ▸ le_max_right _ _⟩ ⟨hlow ▸ min_le_left _ _, hhigh ▸ le_max_left _ _⟩ haggress.1
        (rest_mem_unit haggress).1 (add_sub_cancel aggress 1)
      have hsame : aggress • math.log 0.2 + (1 - aggress) • math.log 0.01 =
          math.log 0.01 + aggress * (math.log 0.2 - math.log 0.01) := by
        simp only [smul_eq_mul]
        ring
      rwa [hsame] at hblend
    have hfirst : math.exp (math.log 0.01) = 0.01 := math.exp_log _ (by norm_num)
    have hsecond : math.exp (math.log 0.2) = 0.2 := math.exp_log _ (by norm_num)
    have hbottom : 0 ≤ math.exp low := by
      rw [hlow, math.exp_monotone.map_min, hfirst, hsecond]
      norm_num
    have htop : math.exp high ≤ 1 := by
      rw [hhigh, math.exp_monotone.map_max, hfirst, hsecond]
      norm_num
    apply rest_mem_unit
    exact ⟨hbottom.trans (math.exp_monotone hbetween.1), (math.exp_monotone hbetween.2).trans htop⟩

theorem ramped_mem (p fade ramp : K) : ramped p fade ramp ∈ Icc (0 : K) 1 := by
  unfold ramped
  split_ifs
  · exact ⟨le_rfl, zero_le_one⟩
  · exact ⟨zero_le_one, le_rfl⟩
  · exact clamp01_mem _

variable {st : HaloSurroundAssigner K}

theorem controls_mem (hparams : st.params.InRange) (hsteady : st.Steady) : (controls math st).s ∈ Icc (0 : K) 1 := by
  have halpha := dialogAlpha_mem math (thousandths st.params.dialogIsolateThousandths)
    (thousandths_mem (hparams.1 st.params.dialogAggressThousandths (by simp)))
  have hblend := blend_mem_unit (a := (0.5 : K)) ⟨by norm_num, by norm_num⟩ halpha hsteady.dialogAlpha
  have hhalf : (1 : K) - 0.5 = 0.5 := by norm_num
  rwa [hhalf] at hblend

/-- **The followers of a bin.** They stay between zero and one. -/
theorem Steady.follow (h : st.Steady) {ctl : Controls K} (hs : ctl.s ∈ Icc (0 : K) 1) (frame : HaloDialogFrame K) (bin : ℕ) :
    (follow math ctl frame st bin).Steady := by
  have hlower : min 0.9 ctl.s ∈ Icc (0 : K) 1 := ⟨le_min (by norm_num) hs.1, (min_le_right _ _).trans hs.2⟩
  have hupdate : ∀ {g : ℕ → K} {v : K}, (∀ i, g i ∈ Icc (0 : K) 1) → v ∈ Icc (0 : K) 1 →
      ∀ i, Function.update g bin v i ∈ Icc (0 : K) 1 := by
    intro g v hg hv i
    by_cases hi : i = bin
    · subst hi
      rwa [Function.update_self]
    · rw [Function.update_of_ne hi]
      exact hg i
  have hin : ∀ t : K, (if 0 < t ∧ t < 14 then min 0.9 ctl.s else ctl.s) ∈ Icc (0 : K) 1 := by
    intro t
    split_ifs
    · exact hlower
    · exact hs
  have hpush := fun t => AlphaAverager.push_mem h.alpha (hin t)
  exact
    { c := hupdate h.c (blend_mem_unit (hpush _).2 (h.c bin) (clamp01_mem _))
      f := hupdate h.f (blend_mem_unit (hpush _).2 (h.f bin) (ramped_mem _ _ _))
      b := hupdate h.b (blend_mem_unit (hpush _).2 (h.b bin) (ramped_mem _ _ _))
      alpha := (hpush _).1
      dialogAlpha := h.dialogAlpha }

end Assign


section Steered

variable {K : Type} [Field K] [LinearOrder K] [IsStrictOrderedRing K]

open HaloDialogStage

/-- what is split by a gain, and then assigned, is steered -/
theorem assignPart_split (gain c front side rear : K) (whole : front + side + rear = 1) (left right : K) :
    assignPart c front side rear (centreOf gain left right) (residualOf gain left right) (residualOf gain right left) =
      (⟨gain, c, front, side, rear, whole⟩ : Steering K).upmix left right := by
  have hbase : ∀ own other : K, (1 - c) * (0.5 * (residualOf gain own other + residualOf gain other own)) +
      0.5 * (residualOf gain own other - residualOf gain other own) =
        (⟨gain, c, front, side, rear, whole⟩ : Steering K).base own other := by
    intro own other
    unfold residualOf Steering.base Steering.kept
    norm_num
    ring
  have hcentre : centreOf gain left right + c * (0.5 * (residualOf gain left right + residualOf gain right left)) =
      (⟨gain, c, front, side, rear, whole⟩ : Steering K).toCentre * ((left + right) / 2) := by
    unfold centreOf residualOf Steering.toCentre
    norm_num
    ring
  have hright : (1 - c) * (0.5 * (residualOf gain left right + residualOf gain right left)) -
      0.5 * (residualOf gain left right - residualOf gain right left) =
        (⟨gain, c, front, side, rear, whole⟩ : Steering K).base right left := by
    rw [← hbase right left]
    ring
  unfold assignPart Steering.upmix
  dsimp only
  rw [hbase, hright, hcentre]

variable (math : FloatMath K) {st : HaloSurroundAssigner K} {frame : HaloDialogFrame K} {left right : Spectrum K}

/-- **One turn.** The bin is steered, and the bins before it stay as they are. -/
theorem turn_steered (ctl : Controls K) (p : HaloSurroundAssigner K × (Fin kHaloBedChannels → Spectrum K)) {bin : ℕ} {gain : K}
    (hsplit : SplitAt frame left right gain bin) :
    ∃ s : Steering K, s.dialog = gain ∧ SteeredAt s (turn math ctl frame p bin).2 left right bin ∧
      ((turn math ctl frame p bin).1.Steady → gain ∈ Icc (0 : K) 1 → s.InRange) := by
  obtain ⟨rear, hrear⟩ : ∃ rear, rear = (1 - (turn math ctl frame p bin).1.fPrev bin) *
    if (turn math ctl frame p bin).1.params.backBoost then 1 else (turn math ctl frame p bin).1.bPrev bin := ⟨_, rfl⟩
  obtain ⟨front, hfront⟩ : ∃ front, front = (turn math ctl frame p bin).1.fPrev bin := ⟨_, rfl⟩
  have hwhole : front + ((1 - front) - rear) + rear = 1 := by ring
  refine ⟨⟨gain, (turn math ctl frame p bin).1.cPrev bin, front, (1 - front) - rear, rear, hwhole⟩, rfl, ?_, ?_⟩
  · intro channel
    rw [← assignPart_split, ← assignPart_split, ← hsplit.centreRe, ← hsplit.centreIm, ← hsplit.leftRe, ← hsplit.leftIm,
      ← hsplit.rightRe, ← hsplit.rightIm, hrear, hfront]
    exact ⟨Function.update_self _ _ _, Function.update_self _ _ _⟩
  · intro hsteady hgain
    have hshare : (if (turn math ctl frame p bin).1.params.backBoost then 1 else (turn math ctl frame p bin).1.bPrev bin) ∈
        Icc (0 : K) 1 := by
      split_ifs
      · exact ⟨zero_le_one, le_rfl⟩
      · exact hsteady.b bin
    have hfront' : front ∈ Icc (0 : K) 1 := hfront ▸ hsteady.f bin
    have hrest := rest_mem_unit hfront'
    rw [← hfront] at hrear
    have hrear' : rear ∈ Icc (0 : K) 1 := hrear ▸ mul_mem_unit hrest hshare
    have hle : rear ≤ 1 - front := by
      rw [hrear]
      exact mul_le_of_le_one_right hrest.1 hshare.2
    exact
      { dialog := hgain
        centre := hsteady.c bin
        front := hfront'
        side := ⟨sub_nonneg.mpr hle, (sub_le_self _ hrear'.1).trans hrest.2⟩
        rear := hrear' }

omit [IsStrictOrderedRing K] in
theorem SteeredAt.turn {s : Steering K} {p : HaloSurroundAssigner K × (Fin kHaloBedChannels → Spectrum K)} {bin other : ℕ}
    (h : SteeredAt s p.2 left right bin) (hne : bin ≠ other) (ctl : Controls K) (frame : HaloDialogFrame K) :
    SteeredAt s (turn math ctl frame p other).2 left right bin := by
  intro channel
  exact ⟨(Function.update_of_ne hne _ _).trans (h channel).1, (Function.update_of_ne hne _ _).trans (h channel).2⟩

/-- **What the surround stage makes of the rest.** Every bin is steered; with parameters in range the shares are, and the
followers stay between zero and one. -/
theorem processFrame_assigned {gain : ℕ → K → Prop} (bed : Fin kHaloBedChannels → Spectrum K)
    (hsplit : ∀ bin < kBins, ∃ g, gain bin g ∧ SplitAt frame left right g bin) :
    (processFrame math st frame bed).1.params = st.params ∧
    (st.params.InRange → st.Steady → (processFrame math st frame bed).1.Steady) ∧
    ∀ bin < kBins, ∃ s : Steering K, gain bin s.dialog ∧ SteeredAt s (processFrame math st frame bed).2 left right bin ∧
      (st.params.InRange → st.Steady → s.dialog ∈ Icc (0 : K) 1 → s.InRange) := by
  obtain ⟨ctl, hctl⟩ : ∃ ctl, ctl = controls math st := ⟨_, rfl⟩
  have hs : st.params.InRange → st.Steady → ctl.s ∈ Icc (0 : K) 1 := hctl ▸ controls_mem math
  unfold processFrame
  rw [← hctl]
  apply foldl_range_rule fun k (p : HaloSurroundAssigner K × (Fin kHaloBedChannels → Spectrum K)) =>
    p.1.params = st.params ∧ (st.params.InRange → st.Steady → p.1.Steady) ∧
    ∀ bin < k, ∃ s : Steering K, gain bin s.dialog ∧ SteeredAt s p.2 left right bin ∧
      (st.params.InRange → st.Steady → s.dialog ∈ Icc (0 : K) 1 → s.InRange)
  · refine ⟨rfl, ?_, fun bin hbin => absurd hbin (Nat.not_lt_zero bin)⟩
    intro hparams hsteady
    exact ⟨hsteady.c, hsteady.f, hsteady.b, hsteady.alpha, hs hparams hsteady⟩
  · rintro k hk p ⟨hkeeps, hsteady, hbefore⟩
    have hnext : st.params.InRange → st.Steady → (turn math ctl frame p k).1.Steady := fun hparams hstart =>
      (hsteady hparams hstart).follow math (hs hparams hstart) frame k
    refine ⟨hkeeps, hnext, ?_⟩
    intro bin hbin
    rcases Nat.lt_succ_iff_lt_or_eq.mp hbin with hearlier | rfl
    · obtain ⟨s, hdialog, hsteered, hrange⟩ := hbefore bin hearlier
      exact ⟨s, hdialog, hsteered.turn math hearlier.ne ctl frame, hrange⟩
    · obtain ⟨g, hgain, hsplit⟩ := hsplit bin hk
      obtain ⟨s, hdialog, hsteered, hrange⟩ := turn_steered math ctl p hsplit
      subst hdialog
      exact ⟨s, hgain, hsteered, fun hparams hstart => hrange (hnext hparams hstart)⟩

end Steered

end HaloSurroundAssigner

end ViperFx.Iem
