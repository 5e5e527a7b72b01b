/-
The two sets of graph slots of the driver: `src/DspGraphSlots.cpp` (two ViPER graphs) and `src/IemGraphSlots.cpp` (three
IEM graphs), with the length of a `src/GraphCrossfade.cpp`.

Both are the protocol of `Core.Slots` with a layout of their own. They differ in one place, the guard and the target of
PreparePending: the ViPER slots refuse a new graph as long as a previous one is retained, the IEM slots take the graph
that is neither active nor previous, and both publish with the previous index cleared. A graph is its configuration
here; what the engine answers to `Prepare` and `ApplyTo` is not decided by the slots, so a run ranges over every answer.

Results:
  · slots_orderly : over every interleaving of the two threads the indices stay apart and in order, swaps go to later
                    generations, and a retracted graph comes back only if it was prepared again
-/
import ViperFx.Core.Slots
import ViperFx.Driver.ViperContext

namespace ViperFx.Driver

open ViperFx.Core ViperFx.Core.Slots

/-! ## Layouts -/

def kMinSampleRate : UInt32 := 8000
def kMaxSampleRate : UInt32 := 384000
def kMaxBlockFrames : ℕ := 8192

def isSupportedSampleRate (sampleRate : UInt32) : Bool := kMinSampleRate ≤ sampleRate && sampleRate ≤ kMaxSampleRate

/-- what DspGraph::Prepare checks; GraphCrossfade::Prepare checks the sample rate once more -/
def dspGraphPrepares (config : DspGraphConfig) : Bool :=
  isSupportedSampleRate config.sampleRate && config.maxFrames != 0 && config.maxFrames ≤ kMaxBlockFrames

/-- GraphCrossfade::Prepare with its default duration of 5 ms: `llround(rate * 5 / 1000)`, at least 1 -/
def transitionFrames (sampleRate : UInt32) : ℕ := max 1 ((sampleRate.toNat + 100) / 200)

def dspTarget (state : UInt32) : Option UInt32 :=
  if activeIndex state = kNone ∨ pendingIndex state ≠ kNone ∨ previousIndex state ≠ kNone then none
  else some (1 - activeIndex state)

theorem lt_two {a : UInt32} (h : a < 2) : a = 0 ∨ a = 1 := by
  have hlt : a.toNat < 2 := h
  have hof : a = UInt32.ofNat a.toNat := by simp
  rw [hof]
  interval_cases a.toNat <;> decide

def dspGraphSlots : Layout DspGraphConfig where
  count := 2
  target := dspTarget
  valid := dspGraphPrepares
  generation := DspGraphConfig.generation
  count_pos := by decide
  count_le := by decide
  target_waits := by
    intro w t h
    unfold dspTarget at h
    split_ifs at h with hguard
    push Not at hguard
    exact ⟨hguard.1, hguard.2.1⟩
  target_apart := by
    intro w t h hactive
    unfold dspTarget at h
    split_ifs at h with hguard
    push Not at hguard
    obtain rfl := Option.some.inj h
    rw [hguard.2.2]
    rcases lt_two hactive with hzero | hone
    · rw [hzero]
      decide
    · rw [hone]
      decide

/-- the record of the IEM graphs has the fields of the record of the ViPER graphs -/
abbrev IemGraphConfig := DspGraphConfig

/-- what IemGraph::Prepare checks before it calls the engine -/
def iemGraphPrepares (config : IemGraphConfig) : Bool :=
  isSupportedSampleRate config.sampleRate && config.maxFrames != 0 && config.maxFrames ≤ kMaxBlockFrames
    && config.generation != 0

/-- `while (target == active || target == previous) ++target;` -/
def skipTaken (active previous : UInt32) : ℕ → UInt32 → UInt32
  | 0, target => target
  | fuel + 1, target =>
    if target = active ∨ target = previous then skipTaken active previous fuel (target + 1) else target

/-- two of the four values are taken at most, so the loop ends below three -/
theorem skipTaken_free {active previous : UInt32} (ha : active < 4) (hp : previous < 4) :
    skipTaken active previous 3 0 < 3 ∧ skipTaken active previous 3 0 ≠ active ∧
      skipTaken active previous 3 0 ≠ previous := by
  obtain rfl | rfl | rfl | rfl := lt_four ha <;> obtain rfl | rfl | rfl | rfl := lt_four hp <;> decide

def iemTarget (state : UInt32) : Option UInt32 :=
  let active := activeIndex state
  if active = kNone ∨ pendingIndex state ≠ kNone then none
  else
    let target := skipTaken active (previousIndex state) 3 0
    if 3 ≤ target then none else some target

def iemGraphSlots : Layout IemGraphConfig where
  count := 3
  target := iemTarget
  valid := iemGraphPrepares
  generation := DspGraphConfig.generation
  count_pos := by decide
  count_le := by decide
  target_waits := by
    intro w t h
    unfold iemTarget at h
    simp only at h
    split_ifs at h with hguard
    push Not at hguard
    exact hguard
  target_apart := by
    intro w t h _
    unfold iemTarget at h
    simp only at h
    split_ifs at h
    obtain rfl := Option.some.inj h
    exact skipTaken_free (activeIndex_lt w) (previousIndex_lt w)

/-! ## Every interleaving -/

/-- the order of the ViPER slots -/
structure SlotOrder (s : State DspGraphConfig) : Prop where
  active : activeIndex s.word ≠ kNone → activeIndex s.word < 2
  pending : pendingIndex s.word ≠ kNone → pendingIndex s.word < 2
  previous : previousIndex s.word ≠ kNone → previousIndex s.word < 2
  activePending : activeIndex s.word ≠ kNone → activeIndex s.word ≠ pendingIndex s.word
  activePrevious : activeIndex s.word ≠ kNone → activeIndex s.word ≠ previousIndex s.word
  pendingPrevious : pendingIndex s.word ≠ kNone → pendingIndex s.word ≠ previousIndex s.word
  waiting : pendingIndex s.word ≠ kNone → activeIndex s.word ≠ kNone ∧ previousIndex s.word = kNone
  newer : pendingIndex s.word ≠ kNone →
    (s.config (activeIndex s.word)).generation < (s.config (pendingIndex s.word)).generation

theorem slotOrder_of_arranged {s : State DspGraphConfig} (h : Arranged dspGraphSlots s) : SlotOrder s where
  active := h.active
  pending := h.pending
  previous := h.previous
  activePending := h.activePending
  activePrevious := h.activePrevious
  pendingPrevious := by
    intro hpending
    rw [(h.behind hpending).2]
    exact hpending
  waiting := h.behind
  newer := h.newer

/-- one step of a run: the order of the slots after it, and what it may make active -/
structure SlotStep (past : List (Entry (State DspGraphConfig) (Act DspGraphConfig) Outcome))
    (entry : Entry (State DspGraphConfig) (Act DspGraphConfig) Outcome) : Prop where
  order : SlotOrder entry.after
  forward : activeIndex entry.before.word ≠ kNone →
    activeIndex entry.after.word ≠ activeIndex entry.before.word →
    (entry.before.config (activeIndex entry.before.word)).generation
      < (entry.after.config (activeIndex entry.after.word)).generation
  fresh : activeIndex entry.after.word ≠ activeIndex entry.before.word →
    ¬ Retracted past (activeIndex entry.after.word)

/-- **The graph slot protocol.** From the empty word, over every interleaving of one control and one audio thread: the
order of the slots holds in every state, every swap goes to a later generation, and a retracted graph becomes active only
after PreparePending has prepared it again. -/
theorem slots_orderly (config : UInt32 → DspGraphConfig) (acts : List (Act DspGraphConfig)) :
    SlotOrder { config } ∧ Along SlotStep (logFrom (Slots.step dspGraphSlots) { config } [] acts) := by
  have hstep : ∀ s past a, (Slots.Inv dspGraphSlots s ∧ Fresh s past) → True →
      (Slots.Inv dspGraphSlots (Slots.step dspGraphSlots s a).1 ∧
        Fresh (Slots.step dspGraphSlots s a).1 (entryOf (Slots.step dspGraphSlots) s a :: past)) ∧
      SlotStep past (entryOf (Slots.step dspGraphSlots) s a) := by
    intro s past a ⟨hinv, hfresh⟩ _
    have hmoves := step_moves (L := dspGraphSlots) s a
    exact ⟨⟨hmoves.inv hinv, hmoves.fresh hinv hfresh rfl⟩,
      ⟨slotOrder_of_arranged (hmoves.inv hinv).arranged, hmoves.newer hinv, hmoves.fresh_active hinv hfresh⟩⟩
  have hinit : Slots.Inv dspGraphSlots { config } := init_inv config
  exact ⟨slotOrder_of_arranged hinit.arranged,
    along_logFrom (C := fun _ _ => True) _ hstep acts ⟨hinit, init_fresh config⟩ trivial (.of_forall (by simp) _)⟩

end ViperFx.Driver
