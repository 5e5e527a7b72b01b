/-
The limiter at the end of the IEM pipeline: `IEMDSP/src/LinkedLookaheadLimiter.cpp`, over exact rational arithmetic.

A sample leaves 96 frames after it has come in. The gain is lowered at once when a sample comes in that needs a lower one, and
is then held for 96 frames, until that sample has left. A sample that the gain in force is low enough for starts no hold of its
own: the hold that is running may end, and the gain be released, while the sample is still in the delay line.

Results:
  · limiter_ceiling : every output sample is the delayed input times the gain of the frame; it is within the ceiling as long as
                      no release raises the gain above what a sample in the delay line allows
  · repeated_peak   : a constant input of twice the ceiling gets through
-/
import Mathlib.Data.List.GetD
import ViperFx.Core.Stream

namespace ViperFx.Iem

open ViperFx.Core

def kLookaheadFrames : ℕ := 96

/-- a gain above this one is taken for one -/
def kUnityGain : ℚ := 999999 / 1000000

structure LinkedLookaheadLimiter where
  /-- both channels, and the index they share -/
  delay : DelayLine kLookaheadFrames (ℚ × ℚ) := .clear (0, 0)
  holdFrames : ℕ := 0
  ceiling : ℚ
  gain : ℚ := 1
  releaseCoefficient : ℚ
  enabled : Bool := true

namespace LinkedLookaheadLimiter

/-- the greater of the two channels -/
def peak (x : ℚ × ℚ) : ℚ := max |x.1| |x.2|

/-- the gain that a sample needs -/
def requiredGain (l : LinkedLookaheadLimiter) (x : ℚ × ℚ) : ℚ := if l.ceiling < peak x then l.ceiling / peak x else 1

/-- the gain after one frame of release -/
def releasedGain (l : LinkedLookaheadLimiter) : ℚ :=
  let gain := 1 - (1 - l.gain) * l.releaseCoefficient
  if kUnityGain < gain then 1 else gain

/-- gain and hold for the next frame -/
def follow (l : LinkedLookaheadLimiter) (x : ℚ × ℚ) : LinkedLookaheadLimiter :=
  if l.enabled then
    if l.requiredGain x < l.gain then { l with gain := l.requiredGain x, holdFrames := kLookaheadFrames }
    else if l.holdFrames ≠ 0 then { l with holdFrames := l.holdFrames - 1 }
    else { l with gain := l.releasedGain }
  else { l with gain := 1, holdFrames := 0 }

/-- one turn of the loop of `Process` -/
def frame (l : LinkedLookaheadLimiter) (x : ℚ × ℚ) : LinkedLookaheadLimiter × (ℚ × ℚ) :=
  let delayed := l.delay.oldest
  let l := { l.follow x with delay := l.delay.push x }
  (l, (delayed.1 * l.gain, delayed.2 * l.gain))

/-- `Process` on one block -/
def process (l : LinkedLookaheadLimiter) (input : List (ℚ × ℚ)) : LinkedLookaheadLimiter × List (ℚ × ℚ) :=
  feed frame l input

def reset (l : LinkedLookaheadLimiter) : LinkedLookaheadLimiter :=
  { l with delay := .clear (0, 0), holdFrames := 0, gain := 1 }

/-! ## One frame -/

/-- the gain is low enough for a sample -/
def Admits (l : LinkedLookaheadLimiter) (gain : ℚ) (x : ℚ × ℚ) : Prop := gain * |x.1| ≤ l.ceiling ∧ gain * |x.2| ≤ l.ceiling

instance (l : LinkedLookaheadLimiter) (gain : ℚ) (x : ℚ × ℚ) : Decidable (l.Admits gain x) :=
  inferInstanceAs (Decidable (_ ∧ _))

/-- the release branch is not taken, or the released gain is low enough for every sample in the delay line and the next one -/
def Releases (l : LinkedLookaheadLimiter) (x : ℚ × ℚ) : Prop :=
  l.requiredGain x < l.gain ∨ l.holdFrames ≠ 0 ∨
    (l.Admits l.releasedGain x ∧ ∀ i, l.Admits l.releasedGain (l.delay.cells i))

instance (l : LinkedLookaheadLimiter) (gain : ℚ) : Decidable (∀ i, l.Admits gain (l.delay.cells i)) :=
  @Nat.decidableForallFin 96 (fun i => l.Admits gain (l.delay.cells i))
    fun i => inferInstanceAs (Decidable (l.Admits gain (l.delay.cells i)))

instance (l : LinkedLookaheadLimiter) (x : ℚ × ℚ) : Decidable (l.Releases x) := inferInstanceAs (Decidable (_ ∨ _ ∨ _ ∧ _))

/-- what the parameters of an enabled limiter and its gain are -/
structure Running (c r : ℚ) (l : LinkedLookaheadLimiter) : Prop where
  enabled : l.enabled = true
  ceiling : l.ceiling = c
  release : l.releaseCoefficient = r
  positive : 0 < l.gain
  unity : l.gain ≤ 1

variable {c r : ℚ} {l : LinkedLookaheadLimiter}

theorem requiredGain_pos (hc : 0 < l.ceiling) (x : ℚ × ℚ) : 0 < l.requiredGain x ∧ l.requiredGain x ≤ 1 := by
  unfold requiredGain
  split_ifs with hpeak
  · have hpos : 0 < peak x := hc.trans hpeak
    exact ⟨div_pos hc hpos, (div_le_one hpos).mpr hpeak.le⟩
  · exact ⟨one_pos, le_rfl⟩

theorem releasedGain_pos (hpos : 0 < l.gain) (hunity : l.gain ≤ 1) (hr : 0 < l.releaseCoefficient)
    (hr1 : l.releaseCoefficient < 1) : 0 < l.releasedGain ∧ l.releasedGain ≤ 1 := by
  have hless : (1 - l.gain) * l.releaseCoefficient ≤ 1 - l.gain := mul_le_of_le_one_right (by linarith) hr1.le
  have hmore : 0 ≤ (1 - l.gain) * l.releaseCoefficient := mul_nonneg (by linarith) hr.le
  unfold releasedGain
  simp only
  split_ifs
  · exact ⟨one_pos, le_rfl⟩
  · constructor
    · linarith
    · linarith

/-- a gain that is not above the one a sample needs is low enough for it -/
theorem admits_of_le_required {gain : ℚ} {x : ℚ × ℚ} (hpos : 0 < gain) (hle : gain ≤ l.requiredGain x) (hunity : gain ≤ 1) :
    l.Admits gain x := by
  have hpeak : gain * peak x ≤ l.ceiling := by
    unfold requiredGain at hle
    split_ifs at hle with hover
    · have hpositive : 0 < peak x ∨ peak x ≤ 0 := lt_or_ge _ _
      rcases hpositive with hp | hp
      · exact (le_div_iff₀ hp).mp hle
      · have hzero : gain * peak x ≤ 0 := mul_nonpos_of_nonneg_of_nonpos hpos.le hp
        have hnonneg : 0 ≤ peak x := (abs_nonneg x.1).trans (le_max_left _ _)
        have hpz : peak x = 0 := le_antisymm hp hnonneg
        rw [hpz, div_zero] at hle
        exact absurd hle (not_le.mpr hpos)
    · have hnonneg : 0 ≤ peak x := (abs_nonneg x.1).trans (le_max_left _ _)
      exact (mul_le_of_le_one_left hnonneg hunity).trans (not_lt.mp hover)
  constructor
  · exact (mul_le_mul_of_nonneg_left (le_max_left _ _) hpos.le).trans hpeak
  · exact (mul_le_mul_of_nonneg_left (le_max_right _ _) hpos.le).trans hpeak

theorem Admits.mono {gain gain' : ℚ} {x : ℚ × ℚ} (h : l.Admits gain x) (hle : gain' ≤ gain) : l.Admits gain' x :=
  ⟨(mul_le_mul_of_nonneg_right hle (abs_nonneg _)).trans h.1, (mul_le_mul_of_nonneg_right hle (abs_nonneg _)).trans h.2⟩

/-- **What one frame does to the gain**: it is lowered to what the sample needs, held, or released. -/
theorem follow_cases (h : Running c r l) (x : ℚ × ℚ) :
    (l.requiredGain x < l.gain ∧ (l.follow x).gain = l.requiredGain x) ∨
    (l.gain ≤ l.requiredGain x ∧ l.holdFrames ≠ 0 ∧ (l.follow x).gain = l.gain) ∨
    (l.gain ≤ l.requiredGain x ∧ l.holdFrames = 0 ∧ (l.follow x).gain = l.releasedGain) := by
  unfold follow
  rw [if_pos h.enabled]
  split_ifs with hattack hhold
  · exact .inl ⟨hattack, rfl⟩
  · exact .inr (.inl ⟨not_lt.mp hattack, hhold, rfl⟩)
  · exact .inr (.inr ⟨not_lt.mp hattack, not_not.mp hhold, rfl⟩)

theorem follow_same (l : LinkedLookaheadLimiter) (x : ℚ × ℚ) :
    (l.follow x).enabled = l.enabled ∧ (l.follow x).ceiling = l.ceiling ∧
      (l.follow x).releaseCoefficient = l.releaseCoefficient := by
  unfold follow
  split_ifs <;> exact ⟨rfl, rfl, rfl⟩

theorem Running.frame (hc : 0 < c) (hr : 0 < r) (hr1 : r < 1) (h : Running c r l) (x : ℚ × ℚ) :
    Running c r (l.frame x).1 := by
  obtain ⟨henabled, hceiling, hrelease⟩ := follow_same l x
  have hgain : 0 < (l.follow x).gain ∧ (l.follow x).gain ≤ 1 := by
    obtain ⟨-, heq⟩ | ⟨-, -, heq⟩ | ⟨-, -, heq⟩ := follow_cases h x
    · rw [heq]
      exact requiredGain_pos (h.ceiling ▸ hc) x
    · rw [heq]
      exact ⟨h.positive, h.unity⟩
    · rw [heq]
      exact releasedGain_pos h.positive h.unity (h.release ▸ hr) (h.release ▸ hr1)
  exact ⟨henabled.trans h.enabled, hceiling.trans h.ceiling, hrelease.trans h.release, hgain.1, hgain.2⟩

/-- the gain is low enough for every sample in the delay line -/
def Safe (l : LinkedLookaheadLimiter) : Prop := ∀ i, l.Admits l.gain (l.delay.cells i)

/-- after a frame the gain is low enough for the sample that leaves, the one that comes in, and all between -/
theorem safe_frame (hc : 0 < c) (h : Running c r l) (hsafe : l.Safe) {x : ℚ × ℚ} (hreleases : l.Releases x) :
    (l.frame x).1.Safe ∧ l.Admits (l.frame x).1.gain l.delay.oldest := by
  have hall : l.Admits (l.follow x).gain x ∧ ∀ i, l.Admits (l.follow x).gain (l.delay.cells i) := by
    obtain ⟨hattack, heq⟩ | ⟨hle, hhold, heq⟩ | ⟨hle, hhold, heq⟩ := follow_cases h x
    · rw [heq]
      have hpos := (requiredGain_pos (h.ceiling ▸ hc) x).1
      exact ⟨admits_of_le_required hpos le_rfl (hattack.le.trans h.unity), fun i => (hsafe i).mono hattack.le⟩
    · rw [heq]
      exact ⟨admits_of_le_required h.positive hle h.unity, hsafe⟩
    · rw [heq]
      obtain hattack | hheld | hadmits := hreleases
      · exact absurd hattack (not_lt.mpr hle)
      · exact absurd hhold hheld
      · exact hadmits
  have hsame : ∀ gain y, (l.frame x).1.Admits gain y ↔ l.Admits gain y := by
    intro gain y
    have hceiling : (l.frame x).1.ceiling = l.ceiling := (follow_same l x).2.1
    unfold Admits
    rw [hceiling]
  refine ⟨fun i => (hsame _ _).mpr ?_, hall.2 _⟩
  by_cases hi : i = l.delay.index
  · subst hi
    have hnew : (l.frame x).1.delay.cells l.delay.index = x := Function.update_self _ _ _
    rw [hnew]
    exact hall.1
  · have hold : (l.frame x).1.delay.cells i = l.delay.cells i := Function.update_of_ne hi _ _
    rw [hold]
    exact hall.2 i

/-! ## Every stream -/

/-- no release on the way raises the gain above what a sample in the delay line allows -/
def Held (l : LinkedLookaheadLimiter) : List (ℚ × ℚ) → Prop
  | [] => True
  | x :: rest => l.Releases x ∧ Held (l.frame x).1 rest

instance decidableHeld (l : LinkedLookaheadLimiter) : (input : List (ℚ × ℚ)) → Decidable (l.Held input)
  | [] => .isTrue trivial
  | x :: rest =>
    have := decidableHeld (l.frame x).1 rest
    inferInstanceAs (Decidable (l.Releases x ∧ Held (l.frame x).1 rest))

theorem Held.take {input : List (ℚ × ℚ)} (h : l.Held input) (n : ℕ) (hn : n < input.length) :
    (feed frame l (input.take n)).1.Releases input[n] := by
  induction input generalizing l n with
  | nil => simp at hn
  | cons x rest ih =>
    cases n with
    | zero => exact h.1
    | succ n => exact ih h.2 n (by simpa using hn)

/-- the sample that came in `kLookaheadFrames` frames before frame `n`; silence before the first frame -/
def ago (input : List (ℚ × ℚ)) (n : ℕ) : ℚ × ℚ :=
  if kLookaheadFrames ≤ n then input.getD (n - kLookaheadFrames) (0, 0) else (0, 0)

/-- the samples so far, the newest at 0, and silence before them -/
def recent (past : List (ℚ × ℚ)) (j : ℕ) : ℚ × ℚ := past.reverse.getD j (0, 0)

theorem recent_append (past : List (ℚ × ℚ)) (x : ℚ × ℚ) :
    recent (past ++ [x]) = fun | 0 => x | j + 1 => recent past j := by
  funext j
  cases j <;> simp [recent]

theorem recent_ago (input : List (ℚ × ℚ)) (n : ℕ) (hn : n < input.length) :
    recent (input.take n) (kLookaheadFrames - 1) = ago input n := by
  have hlength : (input.take n).length = n := by simp; omega
  unfold recent ago
  split_ifs with hfull
  · have hplace : n - 1 - (kLookaheadFrames - 1) = n - kLookaheadFrames := by
      have hpos : kLookaheadFrames = 96 := rfl
      omega
    rw [List.getD_eq_getElem?_getD, List.getD_eq_getElem?_getD, List.getElem?_reverse (by rw [hlength]; unfold kLookaheadFrames at *; omega),
      hlength, hplace, List.getElem?_take_of_lt (by unfold kLookaheadFrames at *; omega)]
  · refine List.getD_eq_default _ _ ?_
    rw [List.length_reverse, hlength]
    unfold kLookaheadFrames at *
    omega

/-- what is known of the limiter after the samples so far -/
structure Follows (c r : ℚ) (past : List (ℚ × ℚ)) (l : LinkedLookaheadLimiter) : Prop where
  running : Running c r l
  delay : l.delay.Remembers (recent past)

theorem Follows.frame (hc : 0 < c) (hr : 0 < r) (hr1 : r < 1) {past : List (ℚ × ℚ)} (h : Follows c r past l) (x : ℚ × ℚ) :
    Follows c r (past ++ [x]) (l.frame x).1 := by
  refine ⟨h.running.frame hc hr hr1 x, ?_⟩
  rw [recent_append]
  exact h.delay.push x

theorem Follows.feed (hc : 0 < c) (hr : 0 < r) (hr1 : r < 1) {past : List (ℚ × ℚ)} (h : Follows c r past l)
    (input : List (ℚ × ℚ)) : Follows c r (past ++ input) (feed LinkedLookaheadLimiter.frame l input).1 :=
  feed_invariant _ (fun _ _ x hf => hf.frame hc hr hr1 x) h input

theorem safe_feed (hc : 0 < c) (hr : 0 < r) (hr1 : r < 1) (h : Running c r l) (hsafe : l.Safe) {input : List (ℚ × ℚ)}
    (hheld : l.Held input) : (feed LinkedLookaheadLimiter.frame l input).1.Safe := by
  induction input generalizing l with
  | nil => exact hsafe
  | cons x rest ih => exact ih (h.frame hc hr hr1 x) (safe_frame hc h hsafe hheld.1).1 hheld.2

theorem Held.before {input : List (ℚ × ℚ)} (h : l.Held input) (n : ℕ) : l.Held (input.take n) := by
  induction input generalizing l n with
  | nil => simpa using h
  | cons x rest ih =>
    cases n with
    | zero => trivial
    | succ n => exact ⟨h.1, ih h.2 n⟩

/-- an output sample: the sample of 96 frames ago, times the gain of the frame -/
structure Shaped (input output : List (ℚ × ℚ)) (n : ℕ) (gain : ℚ) : Prop where
  positive : 0 < gain
  unity : gain ≤ 1
  left : (output.getD n (0, 0)).1 = (ago input n).1 * gain
  right : (output.getD n (0, 0)).2 = (ago input n).2 * gain

/-- **The ceiling of the limiter.** For every ceiling, every release coefficient and every input in blocks of any size, an
enabled limiter answers each frame with the frame of 96 frames ago, both channels times one gain; and where no release raises the
gain above what a sample in the delay line allows, every output sample is within the ceiling. -/
theorem limiter_ceiling (c r : ℚ) (hc : 0 < c) (hr : 0 < r) (hr1 : r < 1) (blocks : List (List (ℚ × ℚ))) :
    let limiter : LinkedLookaheadLimiter := reset { ceiling := c, releaseCoefficient := r }
    let output := (feedBlocks frame limiter blocks).2
    output.length = blocks.flatten.length ∧
      (∀ n < output.length, ∃ gain, Shaped blocks.flatten output n gain) ∧
      (limiter.Held blocks.flatten →
        ∀ n < output.length, |(output.getD n (0, 0)).1| ≤ c ∧ |(output.getD n (0, 0)).2| ≤ c) := by
  intro limiter output
  have houtput : output = (feed frame limiter blocks.flatten).2 := congrArg Prod.snd (feedBlocks_eq frame limiter blocks)
  generalize blocks.flatten = input at houtput
  have hrunning : Running c r limiter := ⟨rfl, rfl, rfl, one_pos, le_rfl⟩
  have hstart : Follows c r [] limiter := ⟨hrunning, DelayLine.clear_remembers (0, 0)⟩
  have hlength : output.length = input.length := by rw [houtput, length_feed]
  -- every output is given in the state the samples before it have led to
  have hat : ∀ n (hn : n < input.length), output.getD n (0, 0) =
      ((ago input n).1 * ((feed frame limiter (input.take n)).1.frame input[n]).1.gain,
        (ago input n).2 * ((feed frame limiter (input.take n)).1.frame input[n]).1.gain) := by
    intro n hn
    have hfollows : Follows c r ([] ++ input.take n) (feed frame limiter (input.take n)).1 :=
      hstart.feed hc hr hr1 (input.take n)
    have holdest := hfollows.delay.oldest (by decide)
    rw [List.nil_append, recent_ago input n hn] at holdest
    rw [houtput, List.getD_eq_getElem _ _ (by rw [length_feed]; exact hn), getElem_feed frame limiter input n hn, ← holdest]
    rfl
  refine ⟨hlength, fun n hn => ?_, fun hheld n hn => ?_⟩
  · have hn' : n < input.length := hlength ▸ hn
    have hnext : Running c r ((feed frame limiter (input.take n)).1.frame input[n]).1 :=
      (hstart.feed hc hr hr1 (input.take n)).running.frame hc hr hr1 _
    exact ⟨_, hnext.positive, hnext.unity, by rw [hat n hn'], by rw [hat n hn']⟩
  · have hn' : n < input.length := hlength ▸ hn
    have hfollows := hstart.feed hc hr hr1 (input.take n)
    have hsafe : (feed frame limiter (input.take n)).1.Safe := by
      refine safe_feed hc hr hr1 hrunning (fun i => ?_) (hheld.before n)
      exact ⟨by simp [limiter, reset, DelayLine.clear, hc.le], by simp [limiter, reset, DelayLine.clear, hc.le]⟩
    have hout := (safe_frame hc hfollows.running hsafe (hheld.take n hn')).2
    have holdest := hfollows.delay.oldest (by decide)
    rw [List.nil_append, recent_ago input n hn'] at holdest
    have hnext := (hfollows.running.frame hc hr hr1 input[n]).positive
    have hceiling := hfollows.running.ceiling
    rw [holdest] at hout
    rw [hat n hn', abs_mul, abs_mul, abs_of_pos hnext, ← hceiling]
    exact ⟨(mul_comm _ _).trans_le hout.1, (mul_comm _ _).trans_le hout.2⟩

/-- one sample of twice the ceiling and 96 samples of silence: the sample has left before the hold is over -/
theorem single_peak_within :
    |((feedBlocks frame (reset { ceiling := 1, releaseCoefficient := 1 / 2 }) [[(2, 1)], List.replicate 96 (0, 0)]).2.getD 96
      (0, 0)).1| ≤ 1 := by
  have hheld : (reset { ceiling := 1, releaseCoefficient := 1 / 2 }).Held [[(2, 1)], List.replicate 96 (0, 0)].flatten := by
    decide +kernel
  obtain ⟨hlength, -, hbound⟩ :=
    limiter_ceiling 1 (1 / 2) one_pos (by norm_num) (by norm_num) [[(2, 1)], List.replicate 96 (0, 0)]
  refine (hbound hheld 96 ?_).1
  rw [hlength]
  simp

/-- **A constant input gets through.** Every sample is twice the ceiling: the first starts the hold, the next 96 start none, and
at frame 97 the gain is released with 96 of them in the delay line. -/
theorem repeated_peak :
    ((feed frame (reset { ceiling := 1, releaseCoefficient := 1 / 2 }) (List.replicate 98 (2, 2))).2.getD 97 (0, 0)).1 = 3 / 2 := by
  decide +kernel

end LinkedLookaheadLimiter

end ViperFx.Iem
