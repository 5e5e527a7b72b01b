/-
The grain pool of the granular encoder: `IEMDSP/src/GranularEncoder.cpp` and `IEMDSP/src/Grain.cpp`.

A frame may start a grain: one falls due when the counter has reached the frames that were drawn, and takes a free index, if there is
one. Then every grain in use is rendered, and those that have ended are released while the array of indices is walked. The history
is a ring that the frames are written to, unless it is frozen.

What is drawn is that of `GrainDraws`, for any generator; samples, directions and gains are left out. Counters do not wrap.

Results:
  · GrainPool.renderGrains : the walk over the grains keeps the pool
  · GrainPool.frame        : so does a frame
  · frame_exhaustion       : the count of exhaustions goes up exactly when a grain falls due and all are active
  · grain_pool             : over all calls
-/
import ViperFx.Core.IndexPool
import ViperFx.Iem.HaloEncoder

namespace ViperFx.Iem

open ViperFx.Core ViperFx.Core.IndexPool

namespace GranularEncoder

def kHistorySeconds : ℕ := 8
def kMaxGrains : ℕ := 512

end GranularEncoder

open GranularEncoder

structure Grain where
  startPosition : ℕ := 0
  lengthSamples : ℕ := 1
  currentIndex : ℕ := 0
  active : Bool := false
  deriving DecidableEq

namespace Grain

def start (startPosition lengthSamples : ℕ) : Grain :=
  { startPosition, lengthSamples := max lengthSamples 1, currentIndex := 0, active := true }

/-- `RenderSample` without the sample -/
def renderSample (g : Grain) (historyFrames : ℕ) : Grain :=
  if !g.active ∨ historyFrames = 0 then g
  else if g.lengthSamples ≤ g.currentIndex then { g with active := false }
  else { g with currentIndex := g.currentIndex + 1, active := decide (g.currentIndex + 1 < g.lengthSamples) }

end Grain

/-- `EncoderConfig` with the field that only this encoder reads -/
structure GranularConfig extends EncoderConfig where
  randomSeed : UInt32

/-- parameters, a random generator and what is drawn from it -/
structure GrainDraws (P R : Type) where
  defaults : P
  clamp : P → P
  seeded : UInt32 → R
  deltaSamples : GranularConfig → P → R → ℕ × R
  positionSamples : GranularConfig → P → R → ℕ × R
  lengthSamples : GranularConfig → P → (frozen : Bool) → R → ℕ × R
  /-- window, source and direction of a grain -/
  shape : P → R → R

structure GranularEncoder (P R : Type) where
  config : GranularConfig
  params : P
  historyFrames : ℕ
  grains : ℕ → Grain := fun _ => {}
  freeIndices : ℕ → ℕ
  activeIndices : ℕ → ℕ := fun _ => 0
  freeCount : ℕ := 0
  activeCount : ℕ := 0
  random : R
  writeHead : ℕ := 0
  validHistoryFrames : ℕ := 0
  grainCounter : ℕ := 0
  deltaSamples : ℕ := 0
  poolExhaustionCount : ℕ := 0
  frozen : Bool := false

namespace GranularEncoder

variable {P R : Type} (draws : GrainDraws P R)

/-! ## The code -/

def reset (e : GranularEncoder P R) : GranularEncoder P R :=
  { e with
    grains := fun _ => {}
    freeCount := kMaxGrains
    activeCount := 0
    freeIndices := fun index => kMaxGrains - index - 1
    random := draws.seeded e.config.randomSeed
    writeHead := 0
    validHistoryFrames := 0
    grainCounter := 0
    deltaSamples := 0
    poolExhaustionCount := 0
    frozen := false }

def prepare (config : GranularConfig) : Option (GranularEncoder P R) :=
  if config.sampleRate = 0 ∨ config.maxFrames = 0 ∨ config.order = 0 ∨ kMaxAmbisonicsOrder < config.order then none
  else
    let historyFrames := config.sampleRate * kHistorySeconds
    if historyFrames = 0 ∨ 2 ^ 32 - 1 < historyFrames then none
    else some (reset draws
      { config, historyFrames, params := draws.clamp draws.defaults, freeIndices := fun _ => 0,
        random := draws.seeded config.randomSeed })

def applyParams (e : GranularEncoder P R) (params : P) : GranularEncoder P R := { e with params := draws.clamp params }

def setFreeze (e : GranularEncoder P R) (freeze : Bool) : GranularEncoder P R :=
  if !freeze then { e with frozen := false }
  else if e.validHistoryFrames ≠ 0 then { e with frozen := true }
  else e

/-- `none` where no grain is free; nothing is drawn then -/
def spawnGrain (e : GranularEncoder P R) : Option (GranularEncoder P R) :=
  if e.freeCount = 0 then none
  else
    let index := e.freeIndices (e.freeCount - 1)
    let position := draws.positionSamples e.config e.params e.random
    let startPosition := (e.writeHead + e.historyFrames - position.1 % e.historyFrames) % e.historyFrames
    let length := draws.lengthSamples e.config e.params e.frozen position.2
    some
      { e with
        freeCount := e.freeCount - 1
        grains := Function.update e.grains index (Grain.start startPosition (max 1 length.1))
        activeIndices := Function.update e.activeIndices e.activeCount index
        activeCount := e.activeCount + 1
        random := draws.shape e.params length.2 }

/-- a grain falls due -/
def due (e : GranularEncoder P R) : Bool := e.deltaSamples ≤ e.grainCounter

/-- the counter of a frame, and the grain that falls due -/
def schedule (e : GranularEncoder P R) : GranularEncoder P R :=
  if e.due then
    let delta := draws.deltaSamples e.config e.params e.random
    let e := { e with grainCounter := 0, deltaSamples := max 1 delta.1, random := delta.2 }
    (e.spawnGrain draws).getD { e with poolExhaustionCount := e.poolExhaustionCount + 1 }
  else { e with grainCounter := e.grainCounter + 1 }

/-- the loop over the grains in use, with so many left of them: the index is that much before their count -/
def renderGrains (e : GranularEncoder P R) : ℕ → GranularEncoder P R
  | 0 => e
  | left + 1 =>
    let activeIndex := e.activeCount - (left + 1)
    let grainIndex := e.activeIndices activeIndex
    let grain := (e.grains grainIndex).renderSample e.historyFrames
    let e := { e with grains := Function.update e.grains grainIndex grain }
    if !grain.active then
      -- the last one comes to this place, and is the next one to be rendered
      renderGrains
        { e with
          freeIndices := Function.update e.freeIndices e.freeCount grainIndex
          freeCount := e.freeCount + 1
          activeIndices := Function.update e.activeIndices activeIndex (e.activeIndices (e.activeCount - 1))
          activeCount := e.activeCount - 1 } left
    else renderGrains e left

/-- the write head behind a frame -/
def advance (e : GranularEncoder P R) : GranularEncoder P R :=
  if e.frozen then e
  else
    { e with
      writeHead := (e.writeHead + 1) % e.historyFrames
      validHistoryFrames :=
        if e.validHistoryFrames < e.historyFrames then e.validHistoryFrames + 1 else e.validHistoryFrames }

/-- one turn of the loop of `Process` -/
def frame (e : GranularEncoder P R) : GranularEncoder P R :=
  let e := e.schedule draws
  (e.renderGrains e.activeCount).advance

def frames (e : GranularEncoder P R) (n : ℕ) : GranularEncoder P R := (frame draws)^[n] e

/-- `Process`, which refuses a block that is too long or has a plane missing -/
def process (e : GranularEncoder P R) (n : ℕ) (planes : Bool) : GranularEncoder P R × Bool :=
  if e.config.maxFrames < n ∨ !planes then (e, false) else (e.frames draws n, true)

inductive Call (P : Type) where
  | process (frames : ℕ) (planes : Bool)
  | applyParams (params : P)
  | setFreeze (freeze : Bool)
  | reset

def call (e : GranularEncoder P R) : Call P → GranularEncoder P R
  | .process frames planes => (e.process draws frames planes).1
  | .applyParams params => e.applyParams draws params
  | .setFreeze freeze => e.setFreeze freeze
  | .reset => e.reset draws

def run (e : GranularEncoder P R) (calls : List (Call P)) : GranularEncoder P R := calls.foldl (call draws) e

/-! ## The pool -/

/-- the indices that are free, and those in use -/
def freeList (e : GranularEncoder P R) : List ℕ := firsts e.freeIndices e.freeCount
def activeList (e : GranularEncoder P R) : List ℕ := firsts e.activeIndices e.activeCount

/-- every index is free or in use, those in use are of the active grains, and the history has all positions -/
structure GrainPool (e : GranularEncoder P R) : Prop where
  shares : Shares e.freeIndices e.freeCount e.activeIndices e.activeCount (List.range kMaxGrains)
  active : ∀ i, (e.grains i).active = true ↔ i ∈ e.activeList
  head : e.writeHead < e.historyFrames
  starts : ∀ i, (e.grains i).startPosition < e.historyFrames

variable {draws} {e : GranularEncoder P R}

theorem renderSample_start (g : Grain) (historyFrames : ℕ) : (g.renderSample historyFrames).startPosition = g.startPosition := by
  unfold Grain.renderSample
  split_ifs <;> rfl

theorem reset_pool (e : GranularEncoder P R) (hhistory : 0 < e.historyFrames) : GrainPool (e.reset draws) where
  shares := by
    refine shares_free List.nodup_range ?_
    have hreverse : firsts (fun index => kMaxGrains - index - 1) kMaxGrains = (List.range kMaxGrains).reverse := by
      apply List.ext_getElem
      · rw [length_firsts, List.length_reverse, List.length_range]
      · intro i hi hi'
        rw [getElem_firsts, List.getElem_reverse, List.getElem_range, List.length_range]
        omega
    exact (List.Perm.of_eq hreverse).trans (List.reverse_perm _)
  active := by
    intro i
    exact ⟨nofun, nofun⟩
  head := hhistory
  starts := fun _ => hhistory

theorem prepare_pool {config : GranularConfig} (h : prepare draws config = some e) : GrainPool e := by
  unfold prepare at h
  dsimp only at h
  split_ifs at h with hconfig hhistory
  rw [not_or] at hhistory
  obtain rfl := Option.some.inj h
  exact reset_pool _ (Nat.pos_of_ne_zero hhistory.1)

/-- a grain is taken from the free ones -/
theorem GrainPool.spawnGrain (h : GrainPool e) {e' : GranularEncoder P R} (hspawn : e.spawnGrain draws = some e') : GrainPool e' := by
  unfold GranularEncoder.spawnGrain at hspawn
  split_ifs at hspawn with hnone
  obtain rfl := Option.some.inj hspawn
  obtain ⟨count, hcount⟩ : ∃ count, e.freeCount = count + 1 := ⟨e.freeCount - 1, by omega⟩
  have hhistory : 0 < e.historyFrames := lt_of_le_of_lt (Nat.zero_le _) h.head
  have hshares := h.shares
  rw [hcount] at hshares
  refine ⟨?_, ?_, h.head, ?_⟩
  · dsimp only
    rw [hcount]
    exact hshares.take
  · intro i
    show (Function.update e.grains _ _ i).active = true ↔
      i ∈ firsts (Function.update e.activeIndices e.activeCount (e.freeIndices (e.freeCount - 1))) (e.activeCount + 1)
    rw [mem_take, Function.update_apply]
    split_ifs with hi
    · exact iff_of_true rfl (Or.inr hi)
    · rw [or_iff_left hi]
      exact h.active i
  · intro i
    show (Function.update e.grains _ _ i).startPosition < e.historyFrames
    rw [Function.update_apply]
    split_ifs
    · exact Nat.mod_lt _ hhistory
    · exact h.starts i

theorem GrainPool.schedule (h : GrainPool e) : GrainPool (e.schedule draws) := by
  unfold GranularEncoder.schedule
  split_ifs with hdue
  · have hdrawn : GrainPool
        { e with
          grainCounter := 0
          deltaSamples := max 1 (draws.deltaSamples e.config e.params e.random).1
          random := (draws.deltaSamples e.config e.params e.random).2 } := ⟨h.shares, h.active, h.head, h.starts⟩
    dsimp only
    cases hspawn : GranularEncoder.spawnGrain draws
        { e with
          grainCounter := 0
          deltaSamples := max 1 (draws.deltaSamples e.config e.params e.random).1
          random := (draws.deltaSamples e.config e.params e.random).2 } with
    | none => exact ⟨h.shares, h.active, h.head, h.starts⟩
    | some e' => exact hdrawn.spawnGrain hspawn
  · exact ⟨h.shares, h.active, h.head, h.starts⟩

/-- **The walk over the grains keeps the pool**: whatever has ended is released on the way, once. -/
theorem GrainPool.renderGrains {left : ℕ} (h : GrainPool e) (hleft : left ≤ e.activeCount) : GrainPool (e.renderGrains left) := by
  induction left generalizing e with
  | zero => exact h
  | succ left ih =>
    obtain ⟨count, hcount⟩ : ∃ count, e.activeCount = count + 1 := ⟨e.activeCount - 1, by omega⟩
    have hindex : e.activeCount - (left + 1) < count + 1 := by omega
    unfold GranularEncoder.renderGrains
    dsimp only
    generalize hat : e.activeCount - (left + 1) = activeIndex at hindex
    generalize hgrain : (e.grains (e.activeIndices activeIndex)).renderSample e.historyFrames = grain
    have hmem : e.activeIndices activeIndex ∈ e.activeList := by
      unfold activeList
      rw [hcount]
      exact getElem_mem_firsts _ hindex
    have hstarts : ∀ i, (Function.update e.grains (e.activeIndices activeIndex) grain i).startPosition < e.historyFrames := by
      intro i
      rw [Function.update_apply]
      split_ifs
      · rw [← hgrain, renderSample_start]
        exact h.starts _
      · exact h.starts i
    cases hactive : grain.active with
    -- an ended grain is released
    | false =>
      have hshares := h.shares
      rw [hcount] at hshares
      apply ih
      · refine ⟨?_, ?_, h.head, hstarts⟩
        · dsimp only
          rw [hcount]
          exact hshares.release hindex
        · intro i
          show (Function.update e.grains _ _ i).active = true ↔
            i ∈ firsts (Function.update e.activeIndices activeIndex (e.activeIndices (e.activeCount - 1))) (e.activeCount - 1)
          have hused := hshares.mem_release hindex (x := i)
          rw [← hcount] at hused
          rw [hcount, Nat.add_sub_cancel, hused, Function.update_apply]
          split_ifs with hi
          · rw [hactive]
            exact iff_of_false Bool.false_ne_true fun hboth => hboth.2 hi
          · rw [and_iff_left hi]
            exact h.active i
      · show left ≤ e.activeCount - 1
        omega
    | true =>
      apply ih
      · refine ⟨h.shares, ?_, h.head, hstarts⟩
        intro i
        show (Function.update e.grains _ _ i).active = true ↔ i ∈ e.activeList
        rw [Function.update_apply]
        split_ifs with hi
        · rw [hi]
          exact iff_of_true hactive hmem
        · exact h.active i
      · show left ≤ e.activeCount
        omega

theorem renderGrains_exhaustion (e : GranularEncoder P R) (left : ℕ) :
    (e.renderGrains left).poolExhaustionCount = e.poolExhaustionCount := by
  induction left generalizing e with
  | zero => rfl
  | succ left ih =>
    unfold renderGrains
    dsimp only
    split
    · exact ih _
    · exact ih _

theorem advance_exhaustion (e : GranularEncoder P R) : e.advance.poolExhaustionCount = e.poolExhaustionCount := by
  unfold advance
  split <;> rfl

theorem GrainPool.advance (h : GrainPool e) : GrainPool e.advance := by
  have hhistory : 0 < e.historyFrames := lt_of_le_of_lt (Nat.zero_le _) h.head
  unfold GranularEncoder.advance
  split
  · exact h
  · exact ⟨h.shares, h.active, Nat.mod_lt _ hhistory, h.starts⟩

theorem GrainPool.frame (h : GrainPool e) : GrainPool (e.frame draws) :=
  (h.schedule.renderGrains le_rfl).advance

theorem GrainPool.frames (h : GrainPool e) (n : ℕ) : GrainPool (e.frames draws n) := by
  induction n with
  | zero => exact h
  | succ n ih =>
    unfold GranularEncoder.frames at *
    rw [Function.iterate_succ_apply']
    exact ih.frame

theorem GrainPool.call (h : GrainPool e) (c : Call P) : GrainPool (e.call draws c) := by
  cases c with
  | process n planes =>
    show GrainPool (e.process draws n planes).1
    unfold GranularEncoder.process
    split
    · exact h
    · exact h.frames n
  | applyParams params => exact ⟨h.shares, h.active, h.head, h.starts⟩
  | setFreeze freeze =>
    unfold GranularEncoder.call setFreeze
    dsimp only
    split_ifs
    · exact ⟨h.shares, h.active, h.head, h.starts⟩
    · exact ⟨h.shares, h.active, h.head, h.starts⟩
    · exact h
  | reset => exact reset_pool e (lt_of_le_of_lt (Nat.zero_le _) h.head)

theorem GrainPool.run (h : GrainPool e) (calls : List (Call P)) : GrainPool (e.run draws calls) := by
  induction calls using List.reverseRecOn with
  | nil => exact h
  | append_singleton calls c ih =>
    unfold GranularEncoder.run at *
    rw [List.foldl_append]
    exact ih.call c

/-! ## Exhaustion -/

/-- all grains are active -/
def Full (e : GranularEncoder P R) : Prop := ∀ i < kMaxGrains, (e.grains i).active = true

instance (e : GranularEncoder P R) : Decidable e.Full := inferInstanceAs (Decidable (∀ i < kMaxGrains, _))

/-- no index is free exactly when all grains are active -/
theorem GrainPool.full_iff (h : GrainPool e) : e.Full ↔ e.freeCount = 0 := by
  have hshares := h.shares
  constructor
  · intro hfull
    by_contra hsome
    have hfree : e.freeIndices 0 ∈ e.freeList := getElem_mem_firsts _ (Nat.pos_of_ne_zero hsome)
    have hname := List.mem_range.mp (hshares.perm.subset (List.mem_append_left _ hfree))
    have hused := (h.active _).mp (hfull _ hname)
    have hnodup := hshares.perm.nodup_iff.mpr hshares.distinct
    exact List.disjoint_of_nodup_append hnodup hfree hused
  · intro hnone i hi
    rw [hnone] at hshares
    exact (h.active i).mpr (hshares.all_used (List.mem_range.mpr hi))

/-- **The count of exhaustions goes up exactly when a grain falls due and all are active.** -/
theorem GrainPool.frame_exhaustion (h : GrainPool e) :
    (e.frame draws).poolExhaustionCount = e.poolExhaustionCount + if e.due = true ∧ e.Full then 1 else 0 := by
  have hlater : (e.frame draws).poolExhaustionCount = (e.schedule draws).poolExhaustionCount :=
    (advance_exhaustion _).trans (renderGrains_exhaustion _ _)
  rw [hlater]
  unfold GranularEncoder.schedule
  by_cases hdue : e.due = true
  · rw [if_pos hdue]
    unfold GranularEncoder.spawnGrain
    dsimp only
    by_cases hnone : e.freeCount = 0
    · rw [if_pos hnone, if_pos ⟨hdue, h.full_iff.mpr hnone⟩]
      rfl
    · rw [if_neg hnone, if_neg fun hboth => hnone (h.full_iff.mp hboth.2)]
      rfl
  · rw [if_neg hdue, if_neg fun hboth => hdue hboth.1]
    rfl

/-- only frames and a reset change the count -/
theorem call_exhaustion (e : GranularEncoder P R) (c : Call P) :
    (e.call draws c).poolExhaustionCount = e.poolExhaustionCount ∨ c = .reset ∨
      ∃ n planes, c = .process n planes ∧ e.call draws c = e.frames draws n := by
  cases c with
  | process n planes =>
    show (e.process draws n planes).1.poolExhaustionCount = _ ∨ _ ∨ ∃ n' planes', _ ∧ (e.process draws n planes).1 = _
    unfold process
    split
    · exact Or.inl rfl
    · exact Or.inr (Or.inr ⟨n, planes, rfl, rfl⟩)
  | applyParams params => exact Or.inl rfl
  | setFreeze freeze =>
    left
    unfold call setFreeze
    dsimp only
    split_ifs <;> rfl
  | reset => exact Or.inr (Or.inl rfl)

/-- **The bookkeeping of the grains.** After any calls, and after any number of frames of a block that runs then: every index is free
or in use and only once, a grain is active exactly when its index is in use, the write head and the start of every grain are within
the history, and the next frame counts an exhaustion exactly when a grain falls due and all are active; no other call but a reset
changes that count. -/
theorem grain_pool (draws : GrainDraws P R) {config : GranularConfig} {e : GranularEncoder P R}
    (h : prepare draws config = some e) (calls : List (Call P)) (n : ℕ) :
    (((e.run draws calls).frames draws n).freeList ++ ((e.run draws calls).frames draws n).activeList).Perm
        (List.range kMaxGrains) ∧
      (∀ i < kMaxGrains, (((e.run draws calls).frames draws n).grains i).active = true ↔
        i ∈ ((e.run draws calls).frames draws n).activeList) ∧
      ((e.run draws calls).frames draws n).writeHead < ((e.run draws calls).frames draws n).historyFrames ∧
      (∀ i < kMaxGrains, (((e.run draws calls).frames draws n).grains i).startPosition <
        ((e.run draws calls).frames draws n).historyFrames) ∧
      ((e.run draws calls).frames draws (n + 1)).poolExhaustionCount =
        ((e.run draws calls).frames draws n).poolExhaustionCount +
          (if ((e.run draws calls).frames draws n).due = true ∧ ((e.run draws calls).frames draws n).Full then 1 else 0) ∧
      ∀ c : Call P, ((e.run draws calls).call draws c).poolExhaustionCount = (e.run draws calls).poolExhaustionCount ∨
        c = .reset ∨ ∃ m planes, c = .process m planes ∧ (e.run draws calls).call draws c = (e.run draws calls).frames draws m := by
  have hrun : GrainPool (e.run draws calls) := (prepare_pool h).run calls
  have hpool : GrainPool ((e.run draws calls).frames draws n) := hrun.frames n
  have hnext : (e.run draws calls).frames draws (n + 1) = ((e.run draws calls).frames draws n).frame draws :=
    Function.iterate_succ_apply' _ _ _
  rw [hnext]
  exact ⟨hpool.shares.perm, fun i _ => hpool.active i, hpool.head, fun i _ => hpool.starts i, hpool.frame_exhaustion,
    call_exhaustion _⟩

/-- a grain of three frames every second frame -/
def steady : GrainDraws Unit Unit where
  defaults := ()
  clamp := id
  seeded := fun _ => ()
  deltaSamples := fun _ _ _ => (1, ())
  positionSamples := fun _ _ _ => (5, ())
  lengthSamples := fun _ _ _ _ => (3, ())
  shape := fun _ _ => ()

theorem grain_pool_steady :
    ∃ e : GranularEncoder Unit Unit, prepare steady ⟨⟨1, 4, 1⟩, 0⟩ = some e ∧
      (e.run steady [.process 4 true, .setFreeze true, .process 2 true]).activeCount = 1 ∧
      ((e.run steady [.process 4 true, .setFreeze true, .process 2 true]).freeList ++
        (e.run steady [.process 4 true, .setFreeze true, .process 2 true]).activeList).Perm (List.range kMaxGrains) ∧
      (e.run steady [.process 4 true, .setFreeze true, .process 2 true]).writeHead = 4 := by
  have hprepare : ∃ e : GranularEncoder Unit Unit, prepare steady ⟨⟨1, 4, 1⟩, 0⟩ = some e := ⟨_, rfl⟩
  obtain ⟨e, he⟩ := hprepare
  have hperm := (grain_pool steady he [.process 4 true, .setFreeze true, .process 2 true] 0).1
  obtain rfl := Option.some.inj he
  exact ⟨_, he, by decide +kernel, hperm, by decide +kernel⟩

end GranularEncoder

end ViperFx.Iem
