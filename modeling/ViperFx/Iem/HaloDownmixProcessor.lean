/-
The gains of the HALO down-mix: `IEMDSP/src/HaloDownmixProcessor.cpp`, over exact rational arithmetic.

A gain follows its target by a ramp of a fixed number of frames. A new target starts a new ramp from where the gain is, except
that nothing is done when the target is the one there is already, and that only the target is stored when it is where the gain is:
a ramp that is running then goes on, away from the new target, and jumps back to it at its end. `DelayState::Set` stops its
crossfade in that case.

Results:
  · value_eq         : the gain after some frames
  · Ramping.set, Ramping.next : a ramp leads to its target, or has it behind
  · ramp_settles_iff : when a new target is approached without overshoot, and reached in time
  · gain_settles_iff : the same for the gains of a processor
-/
import Mathlib.Tactic

namespace ViperFx.Iem

namespace HaloDownmixProcessor

/-! ## The code -/

structure Ramp where
  current : ℚ := 0
  target : ℚ := 0
  step : ℚ := 0
  remaining : ℕ := 0

namespace Ramp

def set (r : Ramp) (value : ℚ) (frames : ℕ) (immediate : Bool) : Ramp :=
  if immediate = true ∨ frames = 0 then { current := value, target := value, step := 0, remaining := 0 }
  else if value = r.target then r
  else if value = r.current then { r with target := value }
  else { r with target := value, step := (value - r.current) / frames, remaining := frames }

def next (r : Ramp) : Ramp × ℚ :=
  if r.remaining = 0 then (r, r.current)
  else
    let current := if r.remaining - 1 = 0 then r.target else r.current + r.step
    ({ r with current, remaining := r.remaining - 1 }, current)

def snap (r : Ramp) : Ramp := { r with current := r.target, step := 0, remaining := 0 }

/-- the gain that is current after some frames, the value that the last of them was given -/
def value (r : Ramp) (frames : ℕ) : ℚ := ((fun r => r.next.1)^[frames] r).current

inductive Call where
  | set (value : ℚ) (frames : ℕ) (immediate : Bool)
  | next
  | snap

def call (r : Ramp) : Call → Ramp
  | .set value frames immediate => r.set value frames immediate
  | .next => r.next.1
  | .snap => r.snap

/-- a ramp after some calls -/
def after (calls : List Call) : Ramp := calls.foldl call {}

end Ramp

inductive Gain where
  | divergence | frontMid | frontSide | center | surroundMid | surroundSide | rearMid | rearSide | lfe | outputLeft | outputRight
  deriving DecidableEq

def kDivergenceRampFrames : ℕ := 100
def kGainRampFrames : ℕ := 1024

def rampFrames : Gain → ℕ
  | .divergence => kDivergenceRampFrames
  | _ => kGainRampFrames

end HaloDownmixProcessor

open HaloDownmixProcessor

structure HaloDownmixProcessor where
  started : Bool := false
  ramps : Gain → Ramp := fun _ => {}

namespace HaloDownmixProcessor

/-- `SetRampTargets` for the gains of some parameters -/
def setRampTargets (p : HaloDownmixProcessor) (gains : Gain → ℚ) (immediate : Bool) : HaloDownmixProcessor :=
  { p with ramps := fun gain => (p.ramps gain).set (gains gain) (rampFrames gain) immediate }

def applyParams (p : HaloDownmixProcessor) (gains : Gain → ℚ) : HaloDownmixProcessor :=
  p.setRampTargets gains !p.started

def reset (p : HaloDownmixProcessor) : HaloDownmixProcessor :=
  { started := false, ramps := fun gain => (p.ramps gain).snap }

/-- every frame takes one value of every ramp -/
def process (p : HaloDownmixProcessor) (frames : ℕ) : HaloDownmixProcessor :=
  { started := true, ramps := fun gain => (fun r => r.next.1)^[frames] (p.ramps gain) }

inductive Call where
  | applyParams (gains : Gain → ℚ)
  | process (frames : ℕ)
  | reset

def call (p : HaloDownmixProcessor) : Call → HaloDownmixProcessor
  | .applyParams gains => p.applyParams gains
  | .process frames => p.process frames
  | .reset => p.reset

/-- a prepared processor after some calls -/
def after (defaults : Gain → ℚ) (calls : List Call) : HaloDownmixProcessor :=
  calls.foldl call (applyParams {} defaults).reset

namespace Ramp

/-! ## The gain after some frames -/

variable {r : Ramp}

theorem next_idle (h : r.remaining = 0) : r.next = (r, r.current) := if_pos h

theorem next_last (h : r.remaining = 1) : r.next.1 = { r with current := r.target, remaining := 0 } := by
  have hmore : ¬ r.remaining = 0 := by omega
  have hlast : r.remaining - 1 = 0 := by omega
  unfold next
  rw [if_neg hmore, if_pos hlast, hlast]

theorem next_more (h : 1 < r.remaining) :
    r.next.1 = { r with current := r.current + r.step, remaining := r.remaining - 1 } := by
  unfold next
  rw [if_neg (by omega), if_neg (by omega)]

theorem value_succ (r : Ramp) (frames : ℕ) : r.value (frames + 1) = r.next.1.value frames := rfl

theorem value_idle (h : r.remaining = 0) (frames : ℕ) : r.value frames = r.current := by
  induction frames with
  | zero => rfl
  | succ frames ih => rw [value_succ, next_idle h, ih]

/-- a ramp takes its steps -/
theorem value_running {frames : ℕ} (h : frames < r.remaining) : r.value frames = r.current + frames * r.step := by
  induction frames generalizing r with
  | zero =>
    rw [Nat.cast_zero, zero_mul, add_zero]
    rfl
  | succ frames ih =>
    have hrest : frames < r.next.1.remaining := by
      rw [next_more (by omega)]
      exact Nat.lt_sub_of_add_lt h
    rw [value_succ, ih hrest, next_more (by omega)]
    push_cast
    ring

/-- at its end a ramp is at the target -/
theorem value_ended {frames : ℕ} (hsome : 0 < r.remaining) (h : r.remaining ≤ frames) : r.value frames = r.target := by
  induction frames generalizing r with
  | zero => omega
  | succ frames ih =>
    rcases Nat.lt_or_ge 1 r.remaining with hmore | hlast
    · have hnext := next_more hmore
      rw [value_succ, ih (by rw [hnext]; exact Nat.sub_pos_of_lt hmore) (by rw [hnext]; exact Nat.sub_le_of_le_add h), hnext]
    · have hnext := next_last (Nat.le_antisymm hlast hsome)
      rw [value_succ, hnext, value_idle rfl]

/-! ## Ramps -/

/-- the steps that are left lead to the target -/
def Heads (r : Ramp) : Prop := r.current + r.remaining * r.step = r.target

instance (r : Ramp) : Decidable r.Heads := inferInstanceAs (Decidable (_ = _))

/-- the target is where the ramp was some steps ago -/
def Passed (r : Ramp) : Prop := ∃ steps : ℕ, r.target = r.current - steps * r.step

/-- a ramp leads to its target, or has it behind -/
structure Ramping (r : Ramp) : Prop where
  aim : r.Heads ∨ 0 < r.remaining ∧ r.Passed
  moves : 0 < r.remaining → r.step ≠ 0

theorem Ramping.idle (h : Ramping r) (hnone : r.remaining = 0) : r.current = r.target := by
  rcases h.aim with hheads | ⟨hsome, -⟩
  · have hend : r.current + r.remaining * r.step = r.target := hheads
    rwa [hnone, Nat.cast_zero, zero_mul, add_zero] at hend
  · exact absurd hnone hsome.ne'

/-- a target that the gain is at, with nothing more to do -/
theorem ramping_at (value : ℚ) : Ramping { current := value, target := value, step := 0, remaining := 0 } where
  aim := Or.inl (by unfold Heads; ring)
  moves := fun h => absurd h (lt_irrefl 0)

/-- a new ramp takes as many steps as it has frames -/
theorem heads_new (r : Ramp) (value : ℚ) {frames : ℕ} (hframes : 0 < frames) :
    Heads { r with target := value, step := (value - r.current) / frames, remaining := frames } := by
  have hne : (frames : ℚ) ≠ 0 := Nat.cast_ne_zero.mpr hframes.ne'
  unfold Heads
  dsimp only
  rw [mul_div_cancel₀ _ hne, add_sub_cancel]

theorem Ramping.set (h : Ramping r) (value : ℚ) (frames : ℕ) (immediate : Bool) : Ramping (r.set value frames immediate) := by
  unfold Ramp.set
  split_ifs with himmediate htarget hcurrent
  · exact ramping_at value
  · exact h
  -- the target is where the gain is: the ramp that is running has passed it
  · have hsome : 0 < r.remaining := by
      rcases Nat.eq_zero_or_pos r.remaining with hnone | hsome
      · exact absurd (hcurrent.trans (h.idle hnone)) htarget
      · exact hsome
    refine ⟨Or.inr ⟨hsome, 0, ?_⟩, h.moves⟩
    rw [Nat.cast_zero, zero_mul, sub_zero]
    exact hcurrent
  · rw [not_or] at himmediate
    have hframes : 0 < frames := Nat.pos_of_ne_zero himmediate.2
    refine ⟨Or.inl (heads_new r value hframes), fun _ => ?_⟩
    exact div_ne_zero (sub_ne_zero.mpr hcurrent) (Nat.cast_ne_zero.mpr hframes.ne')

theorem Ramping.next (h : Ramping r) : Ramping r.next.1 := by
  rcases Nat.lt_trichotomy r.remaining 1 with hnone | hlast | hmore
  · rw [next_idle (by omega)]
    exact h
  · rw [next_last hlast]
    refine ⟨Or.inl ?_, fun hsome => absurd hsome (lt_irrefl 0)⟩
    unfold Heads
    rw [Nat.cast_zero, zero_mul, add_zero]
  · have hleft : ((r.remaining - 1 : ℕ) : ℚ) = r.remaining - 1 := by
      rw [Nat.cast_sub hmore.le, Nat.cast_one]
    rw [next_more hmore]
    refine ⟨?_, fun _ => h.moves (by omega)⟩
    rcases h.aim with hheads | ⟨hsome, steps, hpassed⟩
    · left
      unfold Heads at *
      dsimp only
      rw [hleft, ← hheads]
      ring
    · refine Or.inr ⟨Nat.sub_pos_of_lt hmore, steps + 1, ?_⟩
      show r.target = r.current + r.step - (steps + 1 : ℕ) * r.step
      rw [hpassed]
      push_cast
      ring

theorem Ramping.snap (r : Ramp) : Ramping r.snap := ramping_at r.target

theorem Ramping.call (h : Ramping r) (c : Call) : Ramping (r.call c) := by
  cases c with
  | set value frames immediate => exact h.set value frames immediate
  | next => exact h.next
  | snap => exact Ramping.snap r

theorem after_ramping (calls : List Call) : Ramping (after calls) := by
  induction calls using List.reverseRecOn with
  | nil => exact ramping_at 0
  | append_singleton calls c ih =>
    unfold after
    rw [List.foldl_append]
    exact ih.call c

/-! ## Approaching the target -/

/-- values that stay between the start and the end, move towards the end only, and are there after some frames -/
structure Settles (start goal : ℚ) (frames : ℕ) (value : ℕ → ℚ) : Prop where
  between : ∀ m, value m ∈ Set.uIcc start goal
  rising : start ≤ goal → Monotone value
  falling : goal ≤ start → Antitone value
  arrives : ∀ m, frames ≤ m → value m = goal

/-- values that move one way only are between the start and the end -/
theorem settles_of_monotone {start goal : ℚ} {frames : ℕ} {value : ℕ → ℚ} (hstart : value 0 = start)
    (hrising : start ≤ goal → Monotone value) (hfalling : goal ≤ start → Antitone value)
    (harrives : ∀ m, frames ≤ m → value m = goal) : Settles start goal frames value := by
  refine ⟨?_, hrising, hfalling, harrives⟩
  intro m
  have hend := harrives (max m frames) (le_max_right _ _)
  rw [Set.mem_uIcc]
  rcases le_total start goal with hle | hle
  · have hfirst := hrising hle (Nat.zero_le m)
    have hlast := hrising hle (le_max_left m frames)
    rw [hstart] at hfirst
    rw [hend] at hlast
    exact Or.inl ⟨hfirst, hlast⟩
  · have hfirst := hfalling hle (Nat.zero_le m)
    have hlast := hfalling hle (le_max_left m frames)
    rw [hstart] at hfirst
    rw [hend] at hlast
    exact Or.inr ⟨hlast, hfirst⟩

/-- a ramp with one step left is at its target after it -/
theorem settles_last {frames : ℕ} (hlast : r.remaining = 1) (hframes : 0 < frames) :
    Settles r.current r.target frames r.value := by
  have hvalue : ∀ m, 1 ≤ m → r.value m = r.target := fun m hm => value_ended (by omega) (by omega)
  have hstart : r.value 0 = r.current := rfl
  refine settles_of_monotone hstart ?_ ?_ fun m hm => hvalue m (by omega)
  · intro hle
    apply monotone_nat_of_le_succ
    intro m
    rw [hvalue (m + 1) (by omega)]
    cases m with
    | zero => exact hle
    | succ m => exact (hvalue (m + 1) (by omega)).le
  · intro hle
    apply antitone_nat_of_succ_le
    intro m
    rw [hvalue (m + 1) (by omega)]
    cases m with
    | zero => exact hle
    | succ m => exact (hvalue (m + 1) (by omega)).ge

/-- the gain of a ramp that leads to its target -/
theorem Heads.value (h : Heads r) (m : ℕ) : r.value m = r.current + (min m r.remaining : ℕ) * r.step := by
  rcases Nat.lt_or_ge m r.remaining with hrunning | hended
  · rw [value_running hrunning, min_eq_left hrunning.le]
  · rw [min_eq_right hended]
    rcases Nat.eq_zero_or_pos r.remaining with hnone | hsome
    · rw [value_idle hnone, hnone, Nat.cast_zero, zero_mul, add_zero]
    · rw [value_ended hsome hended]
      exact h.symm

theorem Heads.settles {frames : ℕ} (h : Heads r) (hframes : r.remaining ≤ frames) :
    Settles r.current r.target frames r.value := by
  have hway : (r.remaining : ℚ) * r.step = r.target - r.current := eq_sub_of_add_eq' h
  have hsteps : ∀ {m n : ℕ}, m ≤ n → ((min m r.remaining : ℕ) : ℚ) ≤ (min n r.remaining : ℕ) := by
    intro m n hmn
    exact Nat.cast_le.mpr (min_le_min_right _ hmn)
  refine settles_of_monotone rfl ?_ ?_ ?_
  · intro hle m n hmn
    rw [h.value, h.value]
    rcases Nat.eq_zero_or_pos r.remaining with hnone | hsome
    · rw [hnone, Nat.min_zero, Nat.min_zero]
    · have hup : 0 ≤ r.step := nonneg_of_mul_nonneg_right (hway ▸ sub_nonneg.mpr hle) (Nat.cast_pos.mpr hsome)
      exact add_le_add_right (mul_le_mul_of_nonneg_right (hsteps hmn) hup) _
  · intro hle m n hmn
    rw [h.value, h.value]
    rcases Nat.eq_zero_or_pos r.remaining with hnone | hsome
    · rw [hnone, Nat.min_zero, Nat.min_zero]
    · have hdown : r.step ≤ 0 := nonpos_of_mul_nonpos_right (hway ▸ sub_nonpos.mpr hle) (Nat.cast_pos.mpr hsome)
      exact add_le_add_right (mul_le_mul_of_nonpos_right (hsteps hmn) hdown) _
  · intro m hm
    rw [h.value, min_eq_right (hframes.trans hm)]
    exact h

/-- a ramp that leads to its target is not there before it has ended -/
theorem Heads.not_settles {frames : ℕ} (h : Heads r) (hmoves : r.step ≠ 0) (hframes : frames < r.remaining) :
    ¬ Settles r.current r.target frames r.value := by
  intro hsettles
  have hthere := hsettles.arrives frames le_rfl
  rw [value_running hframes, ← show r.current + r.remaining * r.step = r.target from h, add_right_inj] at hthere
  have hcount := Nat.cast_injective (mul_right_cancel₀ hmoves hthere)
  omega

/-- a ramp that has passed its target goes further away from it -/
theorem Passed.not_settles {frames : ℕ} (h : Passed r) (hmoves : r.step ≠ 0) (hmore : 1 < r.remaining) :
    ¬ Settles r.current r.target frames r.value := by
  intro hsettles
  obtain ⟨steps, hsteps⟩ := h
  have hnext := hsettles.between 1
  rw [value_running hmore, Nat.cast_one, one_mul, Set.mem_uIcc, hsteps] at hnext
  have hback : (0 : ℚ) ≤ steps := Nat.cast_nonneg steps
  apply hmoves
  rcases hnext with ⟨hlow, hhigh⟩ | ⟨hlow, hhigh⟩
  · have hup : 0 ≤ r.step := le_add_iff_nonneg_right _ |>.mp hlow
    nlinarith
  · have hdown : r.step ≤ 0 := add_le_iff_nonpos_right _ |>.mp hhigh
    nlinarith

/-- a new target is approached as it should be when the ramp that is running has at most one step left, when a new ramp starts,
or when it is the old target, on its way and in time -/
def Approaches (r : Ramp) (value : ℚ) (frames : ℕ) : Prop :=
  r.remaining ≤ 1 ∨ value ≠ r.target ∧ value ≠ r.current ∨ value = r.target ∧ r.Heads ∧ r.remaining ≤ frames

/-- a ramp with at most one step left is at its target in time -/
theorem Ramping.settles_short (h : Ramping r) {frames : ℕ} (hframes : 0 < frames) (hfew : r.remaining ≤ 1) :
    Settles r.current r.target frames r.value := by
  rcases Nat.eq_zero_or_pos r.remaining with hnone | hsome
  · rcases h.aim with hheads | ⟨hsome, -⟩
    · exact hheads.settles (by omega)
    · exact absurd hnone hsome.ne'
  · exact settles_last (Nat.le_antisymm hfew hsome) hframes

/-- the ramp that goes on when the target is the old one -/
theorem Ramping.settles_iff_kept (h : Ramping r) {frames : ℕ} (hframes : 0 < frames) :
    Settles r.current r.target frames r.value ↔ r.remaining ≤ 1 ∨ r.Heads ∧ r.remaining ≤ frames := by
  constructor
  · intro hsettles
    by_contra hnot
    rw [not_or, not_le, not_and, not_le] at hnot
    obtain ⟨hmore, hlate⟩ := hnot
    have hmoves := h.moves (by omega)
    rcases h.aim with hheads | ⟨-, hpassed⟩
    · exact hheads.not_settles hmoves (hlate hheads) hsettles
    · exact hpassed.not_settles hmoves hmore hsettles
  · rintro (hfew | ⟨hheads, hin⟩)
    · exact h.settles_short hframes hfew
    · exact hheads.settles hin

theorem Ramping.settles_iff (h : Ramping r) (value : ℚ) {frames : ℕ} (hframes : 0 < frames) :
    Settles r.current value frames (r.set value frames false).value ↔ r.Approaches value frames := by
  have hset : ¬((false : Bool) = true ∨ frames = 0) := by simpa using hframes.ne'
  unfold Approaches Ramp.set
  rw [if_neg hset]
  by_cases htarget : value = r.target
  · subst htarget
    rw [if_pos rfl, h.settles_iff_kept hframes]
    simp
  · rw [if_neg htarget]
    by_cases hcurrent : value = r.current
    -- the ramp that is running has the new target behind it
    · rw [if_pos hcurrent]
      have hstored := h.set value frames false
      unfold Ramp.set at hstored
      rw [if_neg hset, if_neg htarget, if_pos hcurrent] at hstored
      have hkept := hstored.settles_iff_kept hframes
      have haway : 0 < r.remaining → ¬ Heads { r with target := value } := by
        intro hsome hheads
        have hend : r.current + r.remaining * r.step = value := hheads
        rw [hcurrent, add_eq_left] at hend
        exact mul_ne_zero (Nat.cast_ne_zero.mpr hsome.ne') (h.moves hsome) hend
      have hiff : Settles r.current value frames (Ramp.value { r with target := value }) ↔ r.remaining ≤ 1 := by
        refine hkept.trans ⟨?_, Or.inl⟩
        rintro (hfew | ⟨hheads, -⟩)
        · exact hfew
        · by_contra hmore
          exact haway (by omega) hheads
      rw [hiff]
      refine ⟨Or.inl, fun happroaches => happroaches.resolve_right ?_⟩
      rintro (⟨-, hne⟩ | ⟨heq, -⟩)
      · exact hne hcurrent
      · exact htarget heq
    · rw [if_neg hcurrent]
      have hnew : Settles r.current value frames
          (Ramp.value { r with target := value, step := (value - r.current) / frames, remaining := frames }) :=
        (heads_new r value hframes).settles le_rfl
      exact iff_of_true hnew (Or.inr (Or.inl ⟨htarget, hcurrent⟩))

/-- **When a new target is approached without overshoot.** After any calls, the values that `Next` gives from a `Set` on stay
between the gain there was and the new target, move towards it and are there after its frames, exactly when the ramp that is running
has at most one step left, or a new ramp starts, or the target is the old one, on its way and in time. -/
theorem ramp_settles_iff (calls : List Call) (value : ℚ) {frames : ℕ} (hframes : 0 < frames) :
    Settles (after calls).current value frames ((after calls).set value frames false).value ↔
      (after calls).Approaches value frames :=
  (after_ramping calls).settles_iff value hframes

/-- a target that is set to one and back to zero at once is left for the whole ramp -/
theorem ramp_overshoots :
    ¬ Settles (after [.set 1 1024 false]).current 0 1024 ((after [.set 1 1024 false]).set 0 1024 false).value := by
  intro hsettles
  have hnext := hsettles.between 1
  have hstart : (after [.set 1 1024 false]).current = 0 := by decide +kernel
  have hvalue : ((after [.set 1 1024 false]).set 0 1024 false).value 1 = 1 / 1024 := by decide +kernel
  rw [hstart, hvalue, Set.uIcc_self, Set.mem_singleton_iff] at hnext
  exact absurd hnext (by norm_num)

theorem ramp_settles_new :
    (after [.set 1 1024 false, .next]).Approaches (1 / 2) 1024 ∧
      Settles (after [.set 1 1024 false, .next]).current (1 / 2) 1024
        ((after [.set 1 1024 false, .next]).set (1 / 2) 1024 false).value := by
  have hnew : (after [.set 1 1024 false, .next]).Approaches (1 / 2) 1024 :=
    Or.inr (Or.inl ⟨by decide +kernel, by decide +kernel⟩)
  exact ⟨hnew, (ramp_settles_iff [.set 1 1024 false, .next] (1 / 2) (by decide)).mpr hnew⟩

end Ramp

/-! ## The gains of a processor -/

/-- a ramp that is never longer than its gain's -/
structure Ready (p : HaloDownmixProcessor) (gain : Gain) : Prop where
  ramping : Ramp.Ramping (p.ramps gain)
  short : (p.ramps gain).remaining ≤ rampFrames gain

theorem rampFrames_pos (gain : Gain) : 0 < rampFrames gain := by
  cases gain <;> decide

theorem Ready.setRampTargets {p : HaloDownmixProcessor} {gain : Gain} (h : Ready p gain) (gains : Gain → ℚ) (immediate : Bool) :
    Ready (p.setRampTargets gains immediate) gain := by
  refine ⟨h.ramping.set _ _ _, ?_⟩
  show ((p.ramps gain).set _ _ _).remaining ≤ _
  unfold Ramp.set
  split_ifs
  · exact Nat.zero_le _
  · exact h.short
  · exact h.short
  · exact le_rfl

theorem reset_ready (p : HaloDownmixProcessor) (gain : Gain) : Ready p.reset gain :=
  ⟨Ramp.Ramping.snap _, Nat.zero_le _⟩

theorem Ready.process {p : HaloDownmixProcessor} {gain : Gain} (h : Ready p gain) (frames : ℕ) : Ready (p.process frames) gain := by
  have hall : Ramp.Ramping ((fun r => r.next.1)^[frames] (p.ramps gain)) ∧
      ((fun r : Ramp => r.next.1)^[frames] (p.ramps gain)).remaining ≤ rampFrames gain := by
    induction frames with
    | zero => exact ⟨h.ramping, h.short⟩
    | succ frames ih =>
      rw [Function.iterate_succ_apply']
      refine ⟨ih.1.next, le_trans ?_ ih.2⟩
      unfold Ramp.next
      split
      · exact le_rfl
      · exact Nat.sub_le _ _
  exact ⟨hall.1, hall.2⟩

theorem after_ready (defaults : Gain → ℚ) (calls : List Call) (gain : Gain) : Ready (after defaults calls) gain := by
  induction calls using List.reverseRecOn with
  | nil => exact reset_ready _ gain
  | append_singleton calls c ih =>
    unfold after at *
    rw [List.foldl_append]
    cases c with
    | applyParams gains => exact ih.setRampTargets gains _
    | process frames => exact ih.process frames
    | reset => exact reset_ready _ gain

/-- a gain of a processor that is playing approaches its new value as it should, unless more than one step is left of a ramp and
the value is where the gain is, or is that of a ramp that has passed it -/
theorem gain_settles_iff (defaults : Gain → ℚ) (calls : List Call) (gains : Gain → ℚ) (gain : Gain)
    (hstarted : (after defaults calls).started = true) :
    Ramp.Settles ((after defaults calls).ramps gain).current (gains gain) (rampFrames gain)
        (Ramp.value (((after defaults calls).applyParams gains).ramps gain)) ↔
      ((after defaults calls).ramps gain).remaining ≤ 1 ∨
        gains gain ≠ ((after defaults calls).ramps gain).target ∧ gains gain ≠ ((after defaults calls).ramps gain).current ∨
        gains gain = ((after defaults calls).ramps gain).target ∧ ((after defaults calls).ramps gain).Heads := by
  have hready := after_ready defaults calls gain
  have hset : ((after defaults calls).applyParams gains).ramps gain =
      ((after defaults calls).ramps gain).set (gains gain) (rampFrames gain) false := by
    unfold applyParams setRampTargets
    rw [hstarted]
    rfl
  rw [hset, hready.ramping.settles_iff _ (rampFrames_pos gain)]
  unfold Ramp.Approaches
  rw [and_iff_left hready.short]

end HaloDownmixProcessor

end ViperFx.Iem
