/-
The queues of the IEM engine: `IEMDSP/src/PlanarBlockScheduler.cpp`.

A ring of frames with a read index, a write index and a count. Frames are copied in and out in two pieces where the ring ends; a
block is read in place, which needs the read index and the capacity to be multiples of the block.

Results:
  · Queue.step       : every call does what it does on a queue
  · Queue.block      : the block in place is the front of the queue
  · scheduler_fifo   : each channel is a queue, whatever is called
-/
import ViperFx.Core.Ring
import ViperFx.Core.Stream
import ViperFx.Iem.AlignedPlanarBuffer

namespace ViperFx.Iem

open ViperFx.Core

structure PlanarBlockScheduler (S : Type) where
  capacity : ℕ
  ring : ℕ → S
  readIndex : ℕ := 0
  writeIndex : ℕ := 0
  count : ℕ := 0

namespace PlanarBlockScheduler

variable {S : Type}

def kBlockFrames : ℕ := 256

/-! ## The code -/

/-- the capacity in whole blocks -/
def roundedCapacity (capacityFrames : ℕ) : ℕ := (capacityFrames + kBlockFrames - 1) / kBlockFrames * kBlockFrames

/-- `Prepare` for a number of channels: a queue of zeros -/
def prepare [Zero S] (memalign : ℕ → Bool) (channels capacityFrames : ℕ) : Option (PlanarBlockScheduler S) :=
  if channels = 0 ∨ AlignedPlanarBuffer.kMaxChannels < channels ∨ capacityFrames < kBlockFrames then none
  else if 2 ^ 64 - 1 - (kBlockFrames - 1) < capacityFrames then none
  else if !AlignedPlanarBuffer.prepares memalign channels (roundedCapacity capacityFrames) then none
  else some { capacity := roundedCapacity capacityFrames, ring := fun _ => 0 }

def freeFrames (q : PlanarBlockScheduler S) : ℕ := q.capacity - q.count

def push (q : PlanarBlockScheduler S) (input : List S) : Option (PlanarBlockScheduler S) :=
  if q.freeFrames < input.length then none
  else some
    { q with
      ring := Ring.copyTwice q.ring q.capacity q.writeIndex input
      writeIndex := (q.writeIndex + input.length) % q.capacity
      count := q.count + input.length }

def pop (q : PlanarBlockScheduler S) (frames : ℕ) : Option (PlanarBlockScheduler S × List S) :=
  if q.count < frames then none
  else some
    ({ q with readIndex := (q.readIndex + frames) % q.capacity, count := q.count - frames },
      Ring.readTwice q.ring q.capacity q.readIndex frames)

def hasBlock (q : PlanarBlockScheduler S) : Bool := kBlockFrames ≤ q.count

/-- the frames that a reader of `ChannelBlock` finds -/
def channelBlock (q : PlanarBlockScheduler S) : List S := Ring.readFrom q.ring q.readIndex kBlockFrames

def consumeBlock (q : PlanarBlockScheduler S) : PlanarBlockScheduler S :=
  if !q.hasBlock then q
  else { q with readIndex := (q.readIndex + kBlockFrames) % q.capacity, count := q.count - kBlockFrames }

def reset [Zero S] (q : PlanarBlockScheduler S) : PlanarBlockScheduler S := { capacity := q.capacity, ring := fun _ => 0 }

/-! ## What a queue holds -/

/-- a scheduler of some capacity, with its frames from the next one on -/
structure Queue (q : PlanarBlockScheduler S) (capacity : ℕ) (frames : List S) : Prop where
  size : q.capacity = capacity
  count : q.count = frames.length
  read : q.readIndex < capacity
  write : q.writeIndex = (q.readIndex + q.count) % capacity
  ring : Ring.Holds q.ring capacity q.readIndex frames

variable {q : PlanarBlockScheduler S} {capacity : ℕ} {frames input : List S}

theorem reset_queue [Zero S] (q : PlanarBlockScheduler S) (hcapacity : 0 < q.capacity) : Queue q.reset q.capacity [] where
  size := rfl
  count := rfl
  read := hcapacity
  write := (Nat.zero_mod _).symm
  ring := Ring.holds_nil _ _ _

theorem Queue.push (h : Queue q capacity frames) (hroom : frames.length + input.length ≤ capacity) :
    ∃ q', q.push input = some q' ∧ Queue q' capacity (frames ++ input) ∧ q'.readIndex = q.readIndex := by
  have hfree : ¬ q.freeFrames < input.length := by
    rw [freeFrames, h.size, h.count]
    omega
  have hwrite : q.writeIndex < capacity := by
    rw [h.write]
    exact Nat.mod_lt _ (lt_of_le_of_lt (Nat.zero_le _) h.read)
  have hring : Ring.copyTwice q.ring capacity q.writeIndex input =
      Ring.writeAround q.ring capacity (q.readIndex + frames.length) input := by
    rw [Ring.copyTwice_eq _ hwrite.le (by omega)]
    refine Ring.writeAround_congr _ ?_
    rw [h.write, h.count, Nat.mod_mod]
  unfold PlanarBlockScheduler.push
  rw [if_neg hfree]
  refine ⟨_, rfl, ⟨h.size, ?_, h.read, ?_, ?_⟩, rfl⟩
  · rw [List.length_append, h.count]
  · dsimp only
    rw [h.size, h.write, Nat.mod_add_mod, Nat.add_assoc]
  · dsimp only
    rw [h.size, hring]
    exact h.ring.writeAround hroom

theorem Queue.pop (h : Queue q capacity frames) {n : ℕ} (hn : n ≤ frames.length) :
    ∃ q', q.pop n = some (q', frames.take n) ∧ Queue q' capacity (frames.drop n) := by
  have hsome : ¬ q.count < n := by
    rw [h.count]
    exact not_lt.mpr hn
  have hread : Ring.readTwice q.ring q.capacity q.readIndex n = frames.take n := by
    rw [h.size]
    exact h.ring.readTwice hn h.read.le
  unfold PlanarBlockScheduler.pop
  rw [if_neg hsome, hread]
  refine ⟨_, rfl, h.size, ?_, ?_, ?_, ?_⟩
  · rw [List.length_drop, h.count]
  · dsimp only
    rw [h.size]
    exact Nat.mod_lt _ (lt_of_le_of_lt (Nat.zero_le _) h.read)
  · dsimp only
    rw [h.write, h.size, Nat.mod_add_mod, h.count]
    congr 1
    omega
  · dsimp only
    rw [h.size]
    exact h.ring.drop n

/-- whole blocks, read in place -/
structure Aligned (q : PlanarBlockScheduler S) : Prop where
  capacity : kBlockFrames ∣ q.capacity
  read : kBlockFrames ∣ q.readIndex

theorem prepare_queue [Zero S] {memalign : ℕ → Bool} {channels capacityFrames : ℕ}
    (h : prepare memalign channels capacityFrames = some q) :
    Queue q (roundedCapacity capacityFrames) [] ∧ Aligned q ∧ capacityFrames ≤ roundedCapacity capacityFrames := by
  unfold prepare at h
  split_ifs at h with hfits
  obtain rfl := Option.some.inj h
  have hround : capacityFrames ≤ roundedCapacity capacityFrames := by
    simp only [roundedCapacity, kBlockFrames]
    omega
  have hsome : 0 < roundedCapacity capacityFrames := by
    simp only [kBlockFrames] at hfits
    omega
  exact ⟨⟨rfl, rfl, hsome, (Nat.zero_mod _).symm, Ring.holds_nil _ _ _⟩, ⟨Dvd.intro_left _ rfl, dvd_zero _⟩, hround⟩

/-- a block in place does not reach over the end of the ring -/
theorem Queue.block_inside (h : Queue q capacity frames) (haligned : Aligned q) :
    q.readIndex + kBlockFrames ≤ q.capacity := by
  obtain ⟨size, hsize⟩ := haligned.capacity
  obtain ⟨place, hplace⟩ := haligned.read
  have hread := h.read
  rw [← h.size, hplace, hsize] at hread
  have hlt : place < size := lt_of_mul_lt_mul_left hread (Nat.zero_le _)
  rw [hplace, hsize]
  calc kBlockFrames * place + kBlockFrames = kBlockFrames * (place + 1) := (Nat.mul_succ _ _).symm
    _ ≤ kBlockFrames * size := Nat.mul_le_mul_left _ hlt

theorem Queue.block (h : Queue q capacity frames) (haligned : Aligned q) (hblock : kBlockFrames ≤ frames.length) :
    q.channelBlock = frames.take kBlockFrames ∧ Queue q.consumeBlock capacity (frames.drop kBlockFrames) ∧
      Aligned q.consumeBlock := by
  have hhas : q.hasBlock = true := by
    rw [hasBlock, h.count]
    exact decide_eq_true hblock
  have hend : q.readIndex + kBlockFrames ≤ capacity := h.size ▸ h.block_inside haligned
  obtain ⟨q', hpop, hqueue⟩ := h.pop hblock
  have hconsume : q' = q.consumeBlock := by
    unfold PlanarBlockScheduler.pop at hpop
    split_ifs at hpop
    unfold consumeBlock
    rw [hhas]
    exact (Prod.mk.inj (Option.some.inj hpop)).1.symm
  subst hconsume
  refine ⟨h.ring.readFrom hblock hend, hqueue, ?_⟩
  unfold consumeBlock
  rw [hhas]
  exact ⟨haligned.capacity, (Nat.dvd_mod_iff haligned.capacity).mpr (dvd_add haligned.read dvd_rfl)⟩

/-! ## Runs of calls -/

/-- calls with what they are given: `none` where a plane of the input or of the output is missing -/
inductive Call (S : Type) where
  | push (input : Option (List S))
  | pop (frames : ℕ) (output : Bool)
  | consumeBlock
  | reset

/-- what a call gives back -/
inductive Answer (S : Type) where
  | pushed (accepted : Bool)
  | popped (frames : Option (List S))
  | done
  deriving DecidableEq

def step [Zero S] (q : PlanarBlockScheduler S) : Call S → PlanarBlockScheduler S × Answer S
  | .push none => (q, .pushed false)
  | .push (some input) => ((q.push input).getD q, .pushed (q.push input).isSome)
  | .pop _ false => (q, .popped none)
  | .pop frames true => (((q.pop frames).map Prod.fst).getD q, .popped ((q.pop frames).map Prod.snd))
  | .consumeBlock => (q.consumeBlock, .done)
  | .reset => (q.reset, .done)

/-- the same call on a first-in first-out queue of a bounded length: what is accepted joins at the back, what is removed leaves
at the front, and what is refused changes nothing -/
def fifoStep (capacity : ℕ) (queue : List S) : Call S → List S × Answer S
  | .push none => (queue, .pushed false)
  | .push (some input) =>
    if capacity < queue.length + input.length then (queue, .pushed false) else (queue ++ input, .pushed true)
  | .pop _ false => (queue, .popped none)
  | .pop frames true =>
    if queue.length < frames then (queue, .popped none) else (queue.drop frames, .popped (some (queue.take frames)))
  | .consumeBlock => (if queue.length < kBlockFrames then queue else queue.drop kBlockFrames, .done)
  | .reset => ([], .done)

def run [Zero S] (q : PlanarBlockScheduler S) (calls : List (Call S)) : PlanarBlockScheduler S × List (Answer S) :=
  feed step q calls

def fifo (capacity : ℕ) (calls : List (Call S)) : List S × List (Answer S) := feed (fifoStep capacity) [] calls

/-- a refused push has no room -/
theorem Queue.push_refused (h : Queue q capacity frames) (hfull : capacity < frames.length + input.length) :
    q.push input = none := by
  have hfits := h.ring.fits
  unfold PlanarBlockScheduler.push
  refine if_pos ?_
  rw [freeFrames, h.size, h.count]
  omega

theorem Queue.pop_refused (h : Queue q capacity frames) {n : ℕ} (hfew : frames.length < n) : q.pop n = none := by
  unfold PlanarBlockScheduler.pop
  refine if_pos ?_
  rw [h.count]
  exact hfew

theorem Queue.hasBlock_iff (h : Queue q capacity frames) : q.hasBlock = true ↔ kBlockFrames ≤ frames.length := by
  rw [hasBlock, h.count, decide_eq_true_eq]

/-- a block that is consumed leaves as a pop of its frames -/
theorem pop_block (hhas : q.hasBlock = true) : (q.pop kBlockFrames).map Prod.fst = some q.consumeBlock := by
  have hcount : ¬ q.count < kBlockFrames := not_lt.mpr (of_decide_eq_true hhas)
  unfold PlanarBlockScheduler.pop consumeBlock
  rw [if_neg hcount, hhas]
  rfl

theorem Queue.consumeBlock (h : Queue q capacity frames) :
    Queue q.consumeBlock capacity (if frames.length < kBlockFrames then frames else frames.drop kBlockFrames) := by
  by_cases hblock : frames.length < kBlockFrames
  · have hnone : q.hasBlock = false := by
      rw [← Bool.not_eq_true, h.hasBlock_iff]
      exact not_le.mpr hblock
    unfold PlanarBlockScheduler.consumeBlock
    rw [if_pos hblock, hnone]
    exact h
  · obtain ⟨q', hpop, hqueue⟩ := h.pop (not_lt.mp hblock)
    have hconsume := pop_block (h.hasBlock_iff.mpr (not_lt.mp hblock))
    rw [hpop] at hconsume
    rw [if_neg hblock, ← Option.some.inj hconsume]
    exact hqueue

/-- every call does what it does on a queue -/
theorem Queue.step [Zero S] (h : Queue q capacity frames) (call : Call S) :
    (q.step call).2 = (fifoStep capacity frames call).2 ∧
      Queue (q.step call).1 capacity (fifoStep capacity frames call).1 := by
  cases call with
  | push input =>
    cases input with
    | none => exact ⟨rfl, h⟩
    | some input =>
      unfold PlanarBlockScheduler.step fifoStep
      dsimp only
      by_cases hroom : capacity < frames.length + input.length
      · rw [h.push_refused hroom, if_pos hroom]
        exact ⟨rfl, h⟩
      · obtain ⟨q', hpush, hqueue, -⟩ := h.push (not_lt.mp hroom)
        rw [hpush, if_neg hroom]
        exact ⟨rfl, hqueue⟩
  | pop n output =>
    cases output with
    | false => exact ⟨rfl, h⟩
    | true =>
      unfold PlanarBlockScheduler.step fifoStep
      dsimp only
      by_cases hfew : frames.length < n
      · rw [h.pop_refused hfew, if_pos hfew]
        exact ⟨rfl, h⟩
      · obtain ⟨q', hpop, hqueue⟩ := h.pop (not_lt.mp hfew)
        rw [hpop, if_neg hfew]
        exact ⟨rfl, hqueue⟩
  | consumeBlock => exact ⟨rfl, h.consumeBlock⟩
  | reset =>
    have hreset := reset_queue q (lt_of_le_of_lt (Nat.zero_le _) (h.size ▸ h.read))
    rw [h.size] at hreset
    exact ⟨rfl, hreset⟩

theorem Queue.run [Zero S] (h : Queue q capacity []) (calls : List (Call S)) :
    (q.run calls).2 = (fifo capacity calls).2 ∧ Queue (q.run calls).1 capacity (fifo capacity calls).1 := by
  induction calls using List.reverseRecOn with
  | nil => exact ⟨rfl, h⟩
  | append_singleton calls call ih =>
    obtain ⟨hanswers, hqueue⟩ := ih
    obtain ⟨hanswer, hnext⟩ := hqueue.step call
    unfold PlanarBlockScheduler.run fifo at *
    rw [feed_concat, feed_concat]
    dsimp only
    rw [hanswers, hanswer]
    exact ⟨rfl, hnext⟩

/-! ## Blocks in place -/

def Call.isReset : Call S → Bool
  | .reset => true
  | _ => false

/-- the calls since the last reset and what they gave, the last one first -/
def sinceReset (turns : List (Call S × Answer S)) : List (Call S × Answer S) :=
  turns.reverse.takeWhile fun turn => !turn.1.isReset

/-- nothing has been removed by a pop since the last reset -/
def WholeBlocks (turns : List (Call S × Answer S)) : Prop :=
  ∀ turn ∈ sinceReset turns, ∀ frames, turn.2 = .popped (some frames) → frames = []

theorem WholeBlocks.concat {turns : List (Call S × Answer S)} {call : Call S} {answer : Answer S}
    (h : WholeBlocks (turns ++ [(call, answer)])) (hreset : call.isReset = false) :
    WholeBlocks turns ∧ ∀ frames, answer = .popped (some frames) → frames = [] := by
  have hsince : sinceReset (turns ++ [(call, answer)]) = (call, answer) :: sinceReset turns := by
    unfold sinceReset
    rw [List.reverse_append, List.reverse_singleton, List.singleton_append, List.takeWhile_cons, hreset]
    rfl
  unfold WholeBlocks at h
  rw [hsince, List.forall_mem_cons] at h
  exact ⟨h.2, h.1⟩

theorem consumeBlock_aligned (h : Aligned q) : Aligned q.consumeBlock := by
  unfold consumeBlock
  split
  · exact h
  · exact ⟨h.capacity, (Nat.dvd_mod_iff h.capacity).mpr (dvd_add h.read dvd_rfl)⟩

theorem push_aligned (h : Aligned q) : Aligned ((q.push input).getD q) := by
  unfold push
  split_ifs
  · exact h
  · exact ⟨h.capacity, h.read⟩

/-- a pop that gives nothing leaves the read index where it is -/
theorem pop_aligned (hread : q.readIndex < q.capacity) (h : Aligned q) {n : ℕ}
    (hnone : ∀ frames, (q.pop n).map Prod.snd = some frames → frames = []) :
    Aligned (((q.pop n).map Prod.fst).getD q) := by
  unfold pop at hnone ⊢
  split_ifs at hnone ⊢
  · exact h
  · have hempty := congrArg List.length (hnone _ rfl)
    have hzero : n = 0 := by
      unfold Ring.readTwice at hempty
      dsimp only at hempty
      rw [List.length_append, Ring.length_readFrom, Ring.length_readFrom, List.length_nil] at hempty
      omega
    subst hzero
    refine ⟨h.capacity, ?_⟩
    show kBlockFrames ∣ (q.readIndex + 0) % q.capacity
    rw [Nat.add_zero, Nat.mod_eq_of_lt hread]
    exact h.read

/-- the read index stays at the beginning of a block, whichever calls there are, as long as no pop removes frames -/
theorem Aligned.run [Zero S] (h : Queue q capacity []) (haligned : Aligned q) (calls : List (Call S))
    (hblocks : WholeBlocks (calls.zip (q.run calls).2)) : Aligned (q.run calls).1 := by
  induction calls using List.reverseRecOn with
  | nil => exact haligned
  | append_singleton calls call ih =>
    have hqueue := (h.run calls).2
    have hlength : calls.length = (feed PlanarBlockScheduler.step q calls).2.length := (length_feed _ _ _).symm
    unfold PlanarBlockScheduler.run at *
    rw [feed_concat] at hblocks ⊢
    rw [List.zip_append hlength] at hblocks
    generalize hstate : (feed PlanarBlockScheduler.step q calls).1 = q' at *
    change WholeBlocks (calls.zip (feed PlanarBlockScheduler.step q calls).2 ++ [(call, (q'.step call).2)]) at hblocks
    show Aligned (q'.step call).1
    cases call with
    | push input =>
      have hbefore := ih (hblocks.concat rfl).1
      cases input with
      | none => exact hbefore
      | some input => exact push_aligned hbefore
    | pop n output =>
      obtain ⟨hearlier, hnone⟩ := hblocks.concat rfl
      have hbefore := ih hearlier
      cases output with
      | false => exact hbefore
      | true =>
        have hread : q'.readIndex < q'.capacity := hqueue.size ▸ hqueue.read
        refine pop_aligned hread hbefore fun frames hframes => hnone frames ?_
        show Answer.popped ((q'.pop n).map Prod.snd) = _
        rw [hframes]
    | consumeBlock => exact consumeBlock_aligned (ih (hblocks.concat rfl).1)
    | reset =>
      refine ⟨?_, dvd_zero _⟩
      show kBlockFrames ∣ q'.capacity
      rw [hqueue.size, ← h.size]
      exact haligned.capacity

/-! ## Channels -/

section Channels

variable {X : Type} {channels : ℕ}

/-- one channel of a scheduler -/
def channel (q : PlanarBlockScheduler (Fin channels → X)) (c : Fin channels) : PlanarBlockScheduler X where
  capacity := q.capacity
  ring := fun slot => q.ring slot c
  readIndex := q.readIndex
  writeIndex := q.writeIndex
  count := q.count

/-- what a call gives to one channel, and what it gives back of it -/
def Call.channel (c : Fin channels) : Call (Fin channels → X) → Call X
  | .push input => .push (input.map (List.map fun frame => frame c))
  | .pop frames output => .pop frames output
  | .consumeBlock => .consumeBlock
  | .reset => .reset

def Answer.channel (c : Fin channels) : Answer (Fin channels → X) → Answer X
  | .pushed accepted => .pushed accepted
  | .popped frames => .popped (frames.map (List.map fun frame => frame c))
  | .done => .done

theorem Queue.channel {q : PlanarBlockScheduler (Fin channels → X)} {frames : List (Fin channels → X)}
    (h : Queue q capacity frames) (c : Fin channels) : Queue (q.channel c) capacity (frames.map fun frame => frame c) where
  size := h.size
  count := by rw [List.length_map]; exact h.count
  read := h.read
  write := h.write
  ring := by
    refine ⟨by rw [List.length_map]; exact h.ring.fits, ?_⟩
    intro k hk
    rw [List.length_map] at hk
    rw [List.getElem?_map, h.ring.at_slot k hk]
    rfl

/-- a queue of frames is a queue in each of its channels -/
theorem fifoStep_channel (c : Fin channels) (queue : List (Fin channels → X)) (call : Call (Fin channels → X)) :
    fifoStep capacity (queue.map fun frame => frame c) (call.channel c) =
      ((fifoStep capacity queue call).1.map fun frame => frame c, (fifoStep capacity queue call).2.channel c) := by
  cases call with
  | push input =>
    cases input with
    | none => rfl
    | some input =>
      simp only [Call.channel, Option.map_some, fifoStep, List.length_map]
      split_ifs
      · rfl
      · rw [List.map_append]
        rfl
  | pop n output =>
    cases output with
    | false => rfl
    | true =>
      simp only [Call.channel, fifoStep, List.length_map]
      split_ifs
      · rfl
      · rw [List.map_drop, Answer.channel, Option.map_some, List.map_take]
  | consumeBlock =>
    simp only [Call.channel, fifoStep, List.length_map]
    split_ifs
    · rfl
    · rw [List.map_drop]
      rfl
  | reset => rfl

theorem fifo_channel (c : Fin channels) (calls : List (Call (Fin channels → X))) :
    fifo capacity (calls.map (Call.channel c)) =
      ((fifo capacity calls).1.map fun frame => frame c, (fifo capacity calls).2.map (Answer.channel c)) := by
  induction calls using List.reverseRecOn with
  | nil => rfl
  | append_singleton calls call ih =>
    unfold fifo at *
    rw [List.map_append, List.map_singleton, feed_concat, feed_concat, ih]
    dsimp only
    rw [fifoStep_channel, List.map_append, List.map_singleton]

/-- **The scheduler is a queue**, in every channel and whatever is called: its answers are those of a first-in first-out queue of
the rounded capacity, its ring holds what the queue holds, and, where only blocks have been removed since the last reset, the
block in place lies inside the ring and is the front of the queue. -/
theorem scheduler_fifo [Zero X] {memalign : ℕ → Bool} {capacityFrames : ℕ} {q : PlanarBlockScheduler (Fin channels → X)}
    (h : prepare memalign channels capacityFrames = some q) (calls : List (Call (Fin channels → X))) (c : Fin channels) :
    (q.run calls).2.map (Answer.channel c) = (fifo (roundedCapacity capacityFrames) (calls.map (Call.channel c))).2 ∧
      Queue ((q.run calls).1.channel c) (roundedCapacity capacityFrames)
        (fifo (roundedCapacity capacityFrames) (calls.map (Call.channel c))).1 ∧
      (WholeBlocks (calls.zip (q.run calls).2) → (q.run calls).1.hasBlock = true →
        (q.run calls).1.readIndex + kBlockFrames ≤ (q.run calls).1.capacity ∧
        kBlockFrames ≤ (fifo (roundedCapacity capacityFrames) (calls.map (Call.channel c))).1.length ∧
        ((q.run calls).1.channel c).channelBlock =
          (fifo (roundedCapacity capacityFrames) (calls.map (Call.channel c))).1.take kBlockFrames) := by
  obtain ⟨hstart, haligned, -⟩ := prepare_queue h
  obtain ⟨hanswers, hqueue⟩ := hstart.run calls
  have hchannel := hqueue.channel c
  rw [fifo_channel]
  refine ⟨by rw [hanswers], hchannel, ?_⟩
  intro hblocks hhas
  have haligned' := Aligned.run hstart haligned calls hblocks
  have hlength := hchannel.hasBlock_iff.mp hhas
  have hinside := hqueue.block_inside haligned'
  exact ⟨hinside, hlength, hchannel.ring.readFrom hlength (hqueue.size ▸ hinside)⟩

/-- frames with their number in both channels -/
def numbered (n : ℕ) : List (Fin 2 → ℤ) := (List.range n).map fun k _ => k

/-- a second push that goes round the end of a ring of two blocks -/
def refilled : List (Call (Fin 2 → ℤ)) := [.push (some (numbered 300)), .consumeBlock, .push (some (numbered 400))]

theorem scheduler_fifo_refilled :
    ∃ q : PlanarBlockScheduler (Fin 2 → ℤ), prepare (fun size => decide (size < 2 ^ 32)) 2 300 = some q ∧
      (q.run refilled).2.map (Answer.channel 1) = (fifo 512 (refilled.map (Call.channel 1))).2 ∧
      Queue ((q.run refilled).1.channel 1) 512 (fifo 512 (refilled.map (Call.channel 1))).1 ∧
      (q.run refilled).1.readIndex = 256 ∧ (q.run refilled).1.writeIndex = 188 ∧
      ((q.run refilled).1.channel 1).channelBlock = (fifo 512 (refilled.map (Call.channel 1))).1.take kBlockFrames := by
  have hprepare : prepare (fun size => decide (size < 2 ^ 32)) 2 300 =
      some ({ capacity := 512, ring := fun _ => 0 } : PlanarBlockScheduler (Fin 2 → ℤ)) := rfl
  obtain ⟨hanswers, hqueue, hblock⟩ := scheduler_fifo hprepare refilled 1
  refine ⟨_, hprepare, hanswers, hqueue, by decide +kernel, by decide +kernel, (hblock ?_ (by decide +kernel)).2.2⟩
  have hgiven : (PlanarBlockScheduler.run
      ({ capacity := 512, ring := fun _ => 0 } : PlanarBlockScheduler (Fin 2 → ℤ)) refilled).2 =
      [.pushed true, .done, .pushed true] := by decide +kernel
  rw [hgiven]
  intro turn hturn frames hpopped
  have hmem := (List.of_mem_zip (List.mem_reverse.mp ((List.takeWhile_sublist _).mem hturn))).2
  rw [hpopped] at hmem
  simp at hmem

end Channels

end PlanarBlockScheduler

end ViperFx.Iem
