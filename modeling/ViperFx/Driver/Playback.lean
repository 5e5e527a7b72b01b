/-
The audio thread inside `Process` while the control thread prepares graphs: `src/ViperContext.cpp` (Process,
HandleSetConfig, ResetGraphs, CommitDaemonSnapshot) and `src/IemContext.cpp` (Process, Prepare, TryPrepareDesiredGraph,
Reset).

`Process` takes the active graph from ConsumePending and keeps it to the end of the block. It takes `previous_graph` from
a second load of the slot word and keeps it to the last place where it uses it. A `Player` is the slot word with both
threads: the control thread works through the slot calls of one command (`script`), the audio thread is at some point of
`Process` (`Block`). What decides a branch outside the slots (the mailbox, the clock, the audio formats, the engines) is
the `choice` of a step.

Results:
  · viper_graphs_kept : where RESET and ENABLE do not release a graph that Process is using, no graph in use is prepared
  · iem_graphs_kept   : the same for the IEM graphs, where PreparePending and Process itself release graphs too
-/
import ViperFx.Driver.GraphSlots

namespace ViperFx.Driver

open ViperFx.Core ViperFx.Core.Slots

/-! ## Threads -/

/-- a call of the control thread to the slots -/
inductive SlotCall where
  | retractPending
  | releasePrevious
  /-- `if (Active() == nullptr) return` -/
  | requireActive
  /-- `Active() == nullptr ? PrepareInitial(..) : PreparePending(..)` -/
  | choosePrepare
  | prepareInitial
  | preparePending
  deriving DecidableEq

/-- what `Process` does after a ReleasePrevious -/
inductive Rest where
  | resting
  | decoding
  | taking
  | ending
  /-- `previous_graph->Reset()` of the IEM context -/
  | resetting (previous : UInt32)
  deriving DecidableEq

/-- where the audio thread is in `Process` -/
inductive Block where
  | idle
  | consuming
  /-- ConsumePending has swapped; `rateChanged` is what it reported -/
  | swapped (active : UInt32) (rateChanged : Bool)
  /-- before the pause since the last block is looked at -/
  | resting (active : UInt32)
  /-- before the input is checked and converted -/
  | decoding (active : UInt32)
  /-- before `previous_graph = Previous()` -/
  | taking (active : UInt32)
  /-- inside `active_graph->Process`; without a previous graph `previous` is kNone -/
  | running (active previous : UInt32)
  /-- inside `previous_graph->Process` -/
  | fading (active previous : UInt32)
  /-- previous_graph is not used any more -/
  | faded (active : UInt32)
  /-- `previous_graph->Process` has failed in the IEM context -/
  | failing (active previous : UInt32)
  | resetting (active previous : UInt32)
  | ending (active : UInt32)
  /-- inside ReleasePrevious -/
  | releasing (active : UInt32) (rest : Rest)
  deriving DecidableEq

def Rest.block (active : UInt32) : Rest → Block
  | .resting => .resting active
  | .decoding => .decoding active
  | .taking => .taking active
  | .ending => .ending active
  | .resetting previous => .resetting active previous

/-- the graph `Process` has as its active_graph -/
def Block.activeGraph : Block → Option UInt32
  | .idle | .consuming => none
  | .swapped a _ | .resting a | .decoding a | .taking a | .running a _ | .fading a _ | .faded a | .failing a _
  | .resetting a _ | .ending a | .releasing a _ => some a

/-- the graph `Process` has as its previous_graph and still uses -/
def Block.previousGraph : Block → Option UInt32
  | .running _ q | .fading _ q | .failing _ q | .resetting _ q | .releasing _ (.resetting q) =>
    if q = kNone then none else some q
  | _ => none

structure Player where
  core : State DspGraphConfig
  /-- the slot calls that are left of the command in progress -/
  script : List SlotCall := []
  /-- the sample rate and block size of the command in progress -/
  format : UInt32 × ℕ := (0, 0)
  graphGeneration : UInt64 := 0
  block : Block := .idle

namespace Player

/-- the configuration a command prepares -/
def graphConfig (p : Player) : DspGraphConfig := ⟨p.format.1, p.format.2, p.graphGeneration + 1⟩

section Step

variable (L : Layout DspGraphConfig)

/-- one step of the control thread; `ok` is what Prepare or ApplyTo answers, or that a compare-and-swap is not spurious -/
def control (p : Player) (ok : Bool) : Player :=
  match p.core.control with
  | .idle =>
    match p.script with
    | [] => p
    | .requireActive :: rest => { p with script := if activeIndex p.core.word = kNone then [] else rest }
    | .choosePrepare :: rest =>
      { p with script := (if activeIndex p.core.word = kNone then .prepareInitial else .preparePending) :: rest }
    | .retractPending :: rest => { p with core := (Slots.step L p.core .retractPending).1, script := rest }
    | .releasePrevious :: rest => { p with core := (Slots.step L p.core .releasePrevious).1, script := rest }
    | .prepareInitial :: rest =>
      { p with core := (Slots.step L p.core (.prepareInitial p.graphConfig)).1, script := rest }
    | .preparePending :: rest =>
      { p with core := (Slots.step L p.core (.preparePending p.graphConfig)).1, script := rest }
  | .preparing .. => { p with core := (Slots.step L p.core (.prepared ok)).1 }
  | .applying .. => { p with core := (Slots.step L p.core (.applied ok)).1 }
  | .publishing .. | .retracting _ | .releasing _ =>
    let moved := Slots.step L p.core (.exchange !ok)
    -- graph_generation_ is advanced when the graph it was drawn for is published
    let published := match moved.2 with | .published _ => true | _ => false
    { p with
      core := moved.1
      graphGeneration := if published then p.graphGeneration + 1 else p.graphGeneration }

/-- ReleasePrevious is called on the audio thread -/
def release (p : Player) (active : UInt32) (rest : Rest) : Player :=
  let core := (Slots.step L p.core .audioRelease).1
  { p with core, block := if core.audio = .idle then rest.block active else .releasing active rest }

/-- ReleasePrevious goes on -/
def releaseOn (p : Player) (active : UInt32) (rest : Rest) (ok : Bool) : Player :=
  let core := (Slots.step L p.core (.audioExchange !ok)).1
  { p with core, block := if core.audio = .idle then rest.block active else .releasing active rest }

/-- what ConsumePending has come to; without a swap `Process` goes on at `rest` -/
def consumed (p : Player) (rest : Rest) (moved : State DspGraphConfig × Outcome) : Player :=
  { p with
    core := moved.1
    block := match moved.2 with
      | .consumed a => if a = kNone then .idle else rest.block a
      | .swapped q a => .swapped a ((moved.1.config q).sampleRate ≠ (moved.1.config a).sampleRate)
      | _ => .consuming }

def consume (p : Player) (rest : Rest) : Player := p.consumed rest (Slots.step L p.core .consumePending)

def consumeOn (p : Player) (rest : Rest) (ok : Bool) : Player :=
  p.consumed rest (Slots.step L p.core (.audioExchange !ok))

/-- `previous_graph = graph_slots_.Previous()` -/
def take (p : Player) (active : UInt32) : Player := { p with block := .running active (previousIndex p.core.word) }

end Step

end Player

/-! ## The ViPER context -/

inductive ViperCommand where
  | setConfig (sampleRate : UInt32)
  | reset
  | enable
  | setParam
  | commitSnapshot (sampleRate : UInt32)
  deriving DecidableEq

/-- the slot calls of a command whose own checks have passed -/
def ViperCommand.calls : ViperCommand → List SlotCall
  | .setConfig _ => [.retractPending, .choosePrepare]
  | .reset | .enable => [.releasePrevious]
  | .setParam => []
  | .commitSnapshot _ => [.requireActive, .retractPending, .preparePending]

def ViperCommand.format : ViperCommand → UInt32 × ℕ
  | .setConfig sampleRate | .commitSnapshot sampleRate => (sampleRate, kMaxBlockFrames)
  | .reset | .enable | .setParam => (0, 0)

/-- one step of the audio thread in ViperContext::Process -/
def viperProcess (p : Player) (choice : Bool) : Player :=
  match p.block with
  -- a call that is refused at once does not touch the slots
  | .idle => if choice then p.consume dspGraphSlots .resting else p
  | .consuming => p.consumeOn dspGraphSlots .resting choice
  | .swapped a rateChanged =>
    if rateChanged then p.release dspGraphSlots a .resting else { p with block := .resting a }
  -- the first block, or one after a pause of more than 100 ms
  | .resting a => if choice then p.release dspGraphSlots a .decoding else { p with block := .decoding a }
  | .decoding a => { p with block := if choice then .taking a else .idle }
  | .taking a => p.take a
  | .running a q =>
    { p with block := if !choice then .idle else if q = kNone then .ending a else .fading a q }
  | .fading a _ => { p with block := if choice then .faded a else .idle }
  -- the crossfade is over
  | .faded a => if choice then p.release dspGraphSlots a .ending else { p with block := .ending a }
  | .releasing a rest => p.releaseOn dspGraphSlots a rest choice
  | .ending _ | .failing _ _ | .resetting _ _ => { p with block := .idle }

/-! ## The IEM context -/

/-- the end of TryPrepareDesiredGraph -/
inductive IemDispatch where
  /-- no graph is wanted, or the pending one is the one wanted -/
  | settled
  /-- the active graph is the one wanted -/
  | cancelled
  | rebuilt
  deriving DecidableEq

inductive IemCommand where
  | prepare (sampleRate : UInt32) (maxBlockFrames : ℕ)
  | dispatchRawParam (outcome : IemDispatch) (sampleRate : UInt32) (maxBlockFrames : ℕ)
  | reset
  deriving DecidableEq

def IemCommand.calls : IemCommand → List SlotCall
  | .prepare _ _ => [.choosePrepare]
  | .dispatchRawParam .settled _ _ => []
  | .dispatchRawParam .cancelled _ _ => [.retractPending]
  | .dispatchRawParam .rebuilt _ _ => [.retractPending, .preparePending]
  | .reset => [.releasePrevious]

def IemCommand.format : IemCommand → UInt32 × ℕ
  | .prepare sampleRate frames | .dispatchRawParam _ sampleRate frames => (sampleRate, frames)
  | .reset => (0, 0)

/-- one step of the audio thread in IemContext::Process -/
def iemProcess (p : Player) (choice : Bool) : Player :=
  match p.block with
  | .idle => if choice then p.consume iemGraphSlots .taking else p
  | .consuming => p.consumeOn iemGraphSlots .taking choice
  -- neither graph is enabled, so no transition is needed
  | .swapped a rateChanged =>
    if rateChanged || choice then p.release iemGraphSlots a .taking else { p with block := .taking a }
  | .taking a => p.take a
  | .running a q =>
    if !choice then p.release iemGraphSlots a .ending
    else { p with block := if q = kNone then .ending a else .fading a q }
  | .fading a q => { p with block := if choice then .faded a else .failing a q }
  | .failing a q => p.release iemGraphSlots a (.resetting q)
  | .faded a => if choice then p.release iemGraphSlots a .ending else { p with block := .ending a }
  | .releasing a rest => p.releaseOn iemGraphSlots a rest choice
  | .ending _ | .resetting _ _ | .resting _ | .decoding _ => { p with block := .idle }

/-! ## Runs -/

/-- a command arrives, or one of the threads takes a step -/
inductive Move (K : Type) where
  | command (command : K)
  | control (ok : Bool)
  | audio (choice : Bool)
  deriving DecidableEq

/-- a command is taken when the one before it has ended -/
def Player.begin (p : Player) (calls : List SlotCall) (format : UInt32 × ℕ) : Player :=
  match p.core.control, p.script with
  | .idle, [] => { p with script := calls, format }
  | _, _ => p

def viperStep (p : Player) : Move ViperCommand → Player × Unit
  | .command c => (p.begin c.calls c.format, ())
  | .control ok => (p.control dspGraphSlots ok, ())
  | .audio choice => (viperProcess p choice, ())

def iemStep (p : Player) : Move IemCommand → Player × Unit
  | .command c => (p.begin c.calls c.format, ())
  | .control ok => (p.control iemGraphSlots ok, ())
  | .audio choice => (iemProcess p choice, ())

/-- the graph the control thread is filling -/
def filling : Slots.Call DspGraphConfig → Option UInt32
  | .preparing _ t _ _ | .applying _ t _ => some t
  | .idle | .publishing _ _ _ | .retracting _ | .releasing _ => none

/-- the control thread fills a graph that `Process` has as its active_graph or previous_graph -/
def Player.Clashes (p : Player) : Prop :=
  ∃ i, filling p.core.control = some i ∧ (p.block.activeGraph = some i ∨ p.block.previousGraph = some i)

/-! ## The graphs in use stand in the word -/

/-- the protocol invariant, and the word names the graphs that `Process` has -/
structure Player.Kept (L : Layout DspGraphConfig) (p : Player) : Prop where
  slots : Slots.Inv L p.core
  consuming : ∀ e, p.core.audio = .consuming e → p.block = .consuming
  active : ∀ a, p.block.activeGraph = some a → a ≠ kNone ∧ activeIndex p.core.word = a
  previous : ∀ q, p.block.previousGraph = some q → q ≠ kNone ∧ previousIndex p.core.word = q

theorem Block.active_of_previous {b : Block} {q : UInt32} (h : b.previousGraph = some q) :
    ∃ a, b.activeGraph = some a := by
  cases b with
  | idle => cases h
  | consuming => cases h
  | _ => exact ⟨_, rfl⟩

namespace Player

variable {L : Layout DspGraphConfig} {p : Player}

theorem init_kept (config : UInt32 → DspGraphConfig) : Kept L { core := { config } } :=
  ⟨init_inv config, fun _ h => (by cases h), fun _ h => (by cases h), fun _ h => (by cases h)⟩

/-- what PreparePending fills is neither of the graphs the word names -/
theorem Kept.clear (h : Kept L p) : ¬ p.Clashes := by
  rintro ⟨i, hfilling, huses⟩
  have hrelies := h.slots.control
  -- PrepareInitial works while the word is empty, so `Process` has no graph at all
  have hempty : p.core.word = empty → False := by
    intro hword
    rcases huses with hactive | hprevious
    · obtain ⟨hne, hindex⟩ := h.active i hactive
      rw [hword] at hindex
      exact hne (hindex.symm.trans empty_read.1)
    · obtain ⟨hne, hindex⟩ := h.previous i hprevious
      rw [hword] at hindex
      exact hne (hindex.symm.trans empty_read.2.2)
  have hreserved : ∀ {e}, Reserved L p.core i e → False := by
    intro e hr
    rcases huses with hactive | hprevious
    · obtain ⟨-, hindex⟩ := h.active i hactive
      exact hr.apart (hindex.symm.trans hr.active)
    · obtain ⟨hne, hindex⟩ := h.previous i hprevious
      rcases hr.previous with hsame | hnone
      · exact hr.aside (hindex.symm.trans hsame)
      · exact hne (hindex.symm.trans hnone)
  cases hat : p.core.control with
  | idle => rw [hat] at hfilling; cases hfilling
  | publishing => rw [hat] at hfilling; cases hfilling
  | retracting => rw [hat] at hfilling; cases hfilling
  | releasing => rw [hat] at hfilling; cases hfilling
  | preparing initial t config e =>
    rw [hat] at hfilling hrelies
    obtain rfl : t = i := Option.some.inj hfilling
    cases initial with
    | true => exact hempty hrelies.1
    | false => exact hreserved hrelies.1
  | applying initial t e =>
    rw [hat] at hfilling hrelies
    obtain rfl : t = i := Option.some.inj hfilling
    cases initial with
    | true => exact hempty hrelies.1
    | false => exact hreserved hrelies.1

/-! ## The control thread -/

theorem Kept.begin (h : Kept L p) (calls : List SlotCall) (format : UInt32 × ℕ) : Kept L (p.begin calls format) := by
  unfold Player.begin
  split
  · exact ⟨h.slots, h.consuming, h.active, h.previous⟩
  · exact h

/-- a step of the control thread is at most one step of the slots, and `Process` stays where it is -/
theorem control_core (p : Player) (ok : Bool) : (p.control L ok).block = p.block ∧
    ((p.control L ok).core = p.core ∨ ∃ a, a.byControl = true ∧ (p.control L ok).core = (Slots.step L p.core a).1 ∧
      ∀ spurious, a = .exchange spurious → spurious = !ok) := by
  unfold Player.control
  split
  · split
    · exact ⟨rfl, .inl rfl⟩
    · exact ⟨rfl, .inl rfl⟩
    · exact ⟨rfl, .inl rfl⟩
    · exact ⟨rfl, .inr ⟨_, rfl, rfl, fun _ h => by cases h⟩⟩
    · exact ⟨rfl, .inr ⟨_, rfl, rfl, fun _ h => by cases h⟩⟩
    · exact ⟨rfl, .inr ⟨_, rfl, rfl, fun _ h => by cases h⟩⟩
    · exact ⟨rfl, .inr ⟨_, rfl, rfl, fun _ h => by cases h⟩⟩
  · exact ⟨rfl, .inr ⟨_, rfl, rfl, fun _ h => by cases h⟩⟩
  · exact ⟨rfl, .inr ⟨_, rfl, rfl, fun _ h => by cases h⟩⟩
  · exact ⟨rfl, .inr ⟨.exchange !ok, rfl, rfl, fun _ h => (Act.exchange.inj h).symm⟩⟩
  · exact ⟨rfl, .inr ⟨.exchange !ok, rfl, rfl, fun _ h => (Act.exchange.inj h).symm⟩⟩
  · exact ⟨rfl, .inr ⟨.exchange !ok, rfl, rfl, fun _ h => (Act.exchange.inj h).symm⟩⟩

/-- the control thread takes no graph from `Process` that is still in use there -/
def Spares (p : Player) (ok : Bool) : Prop :=
  ∀ q, p.block.previousGraph = some q →
    (ok = true → p.core.control ≠ .releasing p.core.word) ∧ ∀ i, p.core.control ≠ .publishing false i p.core.word

theorem Kept.control (h : Kept L p) {ok : Bool} (hspares : p.Spares ok) : Kept L (p.control L ok) := by
  obtain ⟨hblock, hsame | ⟨a, hact, hcore, hok⟩⟩ := control_core (L := L) p ok
  · exact ⟨hsame ▸ h.slots, by rw [hsame, hblock]; exact h.consuming, by rw [hsame, hblock]; exact h.active,
      by rw [hsame, hblock]; exact h.previous⟩
  · have hleaves := control_leaves hact h.slots
    refine ⟨hcore ▸ (step_moves p.core a).inv h.slots, ?_, ?_, ?_⟩
    · rw [hcore, hblock, hleaves.audio]
      exact h.consuming
    · rw [hcore, hblock]
      intro i hi
      obtain ⟨hne, hindex⟩ := h.active i hi
      exact ⟨hne, (hleaves.active (hindex ▸ hne)).trans hindex⟩
    · rw [hcore, hblock]
      intro q hq
      obtain ⟨hne, hindex⟩ := h.previous q hq
      obtain ⟨i, hi⟩ := Block.active_of_previous hq
      obtain ⟨hsome, hword⟩ := h.active i hi
      obtain ⟨hrelease, hpublish⟩ := hspares q hq
      rcases hleaves.previous (hword ▸ hsome) with hprev | ⟨hat, rfl⟩ | ⟨t, spurious, hat, rfl⟩
      · exact ⟨hne, hprev.trans hindex⟩
      · have htrue : ok = true := by
          have := hok false rfl
          simpa using this.symm
        exact absurd hat (hrelease htrue)
      · exact absurd hat (hpublish t)

/-! ## The audio thread -/

/-- `Process` goes on with the active graph it has, and without another previous graph -/
theorem Kept.goto (h : Kept L p) {b b' : Block} (hat : p.block = b) (hnot : b ≠ .consuming)
    (hactive : b'.activeGraph = b.activeGraph) (hprevious : b'.previousGraph = none ∨ b'.previousGraph = b.previousGraph) :
    Kept L { p with block := b' } := by
  subst hat
  refine ⟨h.slots, fun e he => absurd (h.consuming e he) hnot, fun a ha => h.active a (hactive ▸ ha), fun q hq => ?_⟩
  have hq' : b'.previousGraph = some q := hq
  rcases hprevious with hnone | hsame
  · rw [hnone] at hq'
    cases hq'
  · exact h.previous q (hsame ▸ hq')

/-- `Process` returns -/
theorem Kept.leave (h : Kept L p) (hnot : p.block ≠ .consuming) : Kept L { p with block := .idle } :=
  ⟨h.slots, fun e he => absurd (h.consuming e he) hnot, fun _ ha => (by cases ha), fun _ hq => (by cases hq)⟩

theorem Kept.take (h : Kept L p) {a : UInt32} (hat : p.block = .taking a) : Kept L (p.take a) := by
  refine ⟨h.slots, fun e he => absurd (h.consuming e he) (by rw [hat]; exact Block.noConfusion), ?_, ?_⟩
  · intro i hi
    exact h.active i (by rw [hat]; exact hi)
  · intro q hq
    have hq' : (if previousIndex p.core.word = kNone then none else some (previousIndex p.core.word)) = some q := hq
    split_ifs at hq' with hnone
    obtain rfl := Option.some.inj hq'
    exact ⟨hnone, rfl⟩

theorem Rest.block_active (a : UInt32) (rest : Rest) : (rest.block a).activeGraph = some a := by
  cases rest <;> rfl

/-- the graph that is used after the release -/
theorem Rest.block_previous (a : UInt32) (rest : Rest) :
    (rest.block a).previousGraph = (Block.releasing a rest).previousGraph := by
  cases rest <;> rfl

/-- a release, called or going on, of a `Process` that has `a` and uses what `rest` uses -/
theorem Kept.released (h : Kept L p) {a : UInt32} {rest : Rest} {t : State DspGraphConfig} {released : Prop}
    (hinv : Slots.Inv L t) (hleaves : ReleaseLeaves p.core t released) (hactive : p.block.activeGraph = some a)
    (hprevious : ∀ q, (rest.block a).previousGraph = some q → p.block.previousGraph = some q ∧ ¬ released) :
    Kept L { p with core := t, block := if t.audio = .idle then rest.block a else .releasing a rest } := by
  have huses : ∀ b : Block, b = rest.block a ∨ b = .releasing a rest → Kept L { p with core := t, block := b } := by
    intro b hb
    have hbactive : b.activeGraph = some a := by
      rcases hb with rfl | rfl
      · exact Rest.block_active a rest
      · rfl
    have hbprevious : b.previousGraph = (rest.block a).previousGraph := by
      rcases hb with rfl | rfl
      · rfl
      · exact (Rest.block_previous a rest).symm
    refine ⟨hinv, fun e he => absurd he (hleaves.audio e), ?_, ?_⟩
    · intro i hi
      obtain ⟨hne, hindex⟩ := h.active a hactive
      obtain rfl : a = i := Option.some.inj (hbactive.symm.trans hi)
      exact ⟨hne, hleaves.active.trans hindex⟩
    · intro q hq
      obtain ⟨hq', hkept⟩ := hprevious q (hbprevious ▸ hq)
      obtain ⟨hne, hindex⟩ := h.previous q hq'
      rcases hleaves.previous with hsame | hreleased
      · exact ⟨hne, hsame.trans hindex⟩
      · exact absurd hreleased hkept
  split_ifs
  · exact huses _ (.inl rfl)
  · exact huses _ (.inr rfl)

theorem Kept.not_consuming (h : Kept L p) (hnot : p.block ≠ .consuming) : ∀ e, p.core.audio ≠ .consuming e :=
  fun e he => hnot (h.consuming e he)

theorem Kept.release (h : Kept L p) {a : UInt32} {rest : Rest} {b : Block} (hat : p.block = b) (hnot : b ≠ .consuming)
    (hactive : b.activeGraph = some a)
    (hprevious : (rest.block a).previousGraph = none ∨ (rest.block a).previousGraph = b.previousGraph) :
    Kept L (p.release L a rest) := by
  subst hat
  refine h.released ((step_moves p.core _).inv h.slots) (audioRelease_leaves (h.not_consuming hnot)) hactive
    fun q hq => ⟨?_, id⟩
  rcases hprevious with hnone | hsame
  · rw [hnone] at hq
    cases hq
  · exact hsame ▸ hq

theorem Kept.releaseOn (h : Kept L p) {a : UInt32} {rest : Rest} {ok : Bool} (hat : p.block = .releasing a rest)
    (hkeeps : ∀ q, p.block.previousGraph = some q → ok = true → p.core.audio ≠ .releasing p.core.word) :
    Kept L (p.releaseOn L a rest ok) := by
  have hnot : p.block ≠ .consuming := by rw [hat]; exact Block.noConfusion
  refine h.released ((step_moves p.core _).inv h.slots) (audioExchange_leaves (h.not_consuming hnot) _)
    (by rw [hat]; rfl) fun q hq => ?_
  have hq' : p.block.previousGraph = some q := by rw [hat, ← Rest.block_previous]; exact hq
  refine ⟨hq', fun ⟨haudio, hreal⟩ => hkeeps q hq' (by simpa using hreal) haudio⟩

/-- ConsumePending, called or going on -/
theorem Kept.consumed (h : Kept L p) {t : State DspGraphConfig} {o : Outcome} (hmoves : Moves L p.core t o)
    (rest : Rest) (hrest : ∀ a, (rest.block a).previousGraph = none) : Kept L (p.consumed rest (t, o)) := by
  have hinv := hmoves.inv h.slots
  -- until ConsumePending returns, `Process` has no graph
  have hloop : Kept L { p with core := t, block := .consuming } :=
    ⟨hinv, fun _ _ => rfl, fun _ ha => (by cases ha), fun _ hq => (by cases hq)⟩
  cases hmoves with
  | turns c a o hc ha ho =>
    rcases ho with rfl | ⟨rfl, rfl⟩
    · exact hloop
    · unfold Player.consumed
      simp only
      split_ifs with hnone
      · exact ⟨hinv, fun _ he => (by cases he), fun _ ha => (by cases ha), fun _ hq => (by cases hq)⟩
      · refine ⟨hinv, fun _ he => (by cases he), fun i hi => ?_, fun q hq => ?_⟩
        · obtain rfl : activeIndex p.core.word = i := Option.some.inj ((Rest.block_active _ rest).symm.trans hi)
          exact ⟨hnone, rfl⟩
        · have hq' : (rest.block (activeIndex p.core.word)).previousGraph = some q := hq
          rw [hrest] at hq'
          cases hq'
  | swaps hat =>
    have hpending : pendingIndex p.core.word ≠ kNone := by
      have := h.slots.audio
      rwa [hat] at this
    refine ⟨hinv, fun _ he => (by cases he), fun i hi => ?_, fun _ hq => (by cases hq)⟩
    obtain rfl : pendingIndex p.core.word = i := Option.some.inj hi
    exact ⟨hpending, pack_active (pendingIndex_lt _) kNone_lt (activeIndex_lt _)⟩
  | applies initial i e hat => cases initial <;> exact hloop
  | beginsInitial config hword => exact hloop
  | beginsPending config i htarget hnewer => exact hloop
  | fills initial i config e hat => exact hloop
  | publishes initial i hat => exact hloop
  | retracts hat => exact hloop
  | releases c a hat => exact hloop

end Player

/-! ## ViPER graphs in use -/

/-- a RESET or ENABLE takes the previous graph out of the slots -/
def Player.releasesPrevious {K : Type} (p : Player) : Move K → Bool
  | .control ok =>
    match p.core.control with
    | .releasing e => ok && p.core.word == e
    | _ => false
  | .command _ | .audio _ => false

/-- the points of ViperContext::Process -/
def Block.Viper : Block → Prop
  | .failing _ _ | .resetting _ _ | .releasing _ (.resetting _) => False
  | _ => True

theorem Rest.viper {a : UInt32} {rest : Rest} (h : (Block.releasing a rest).Viper) :
    (rest.block a).Viper ∧ (rest.block a).previousGraph = none := by
  cases rest with
  | resetting q => exact absurd h id
  | _ => exact ⟨trivial, rfl⟩

structure ViperKept (p : Player) : Prop where
  kept : p.Kept dspGraphSlots
  block : p.block.Viper

theorem release_viper {p : Player} {a : UInt32} {rest : Rest} (h : (Block.releasing a rest).Viper) :
    (p.release dspGraphSlots a rest).block.Viper := by
  unfold Player.release
  simp only
  split_ifs
  · exact (Rest.viper h).1
  · exact h

theorem releaseOn_viper {p : Player} {a : UInt32} {rest : Rest} {ok : Bool} (h : (Block.releasing a rest).Viper) :
    (p.releaseOn dspGraphSlots a rest ok).block.Viper := by
  unfold Player.releaseOn
  simp only
  split_ifs
  · exact (Rest.viper h).1
  · exact h

theorem consumed_viper {p : Player} {moved : State DspGraphConfig × Outcome} :
    (p.consumed .resting moved).block.Viper := by
  unfold Player.consumed
  simp only
  split
  · split_ifs <;> trivial
  · trivial
  · trivial

/-- the audio thread keeps the graphs it has in the word by itself -/
theorem ViperKept.audio {p : Player} (h : ViperKept p) (choice : Bool) : ViperKept (viperProcess p choice) := by
  have hkept := h.kept
  cases hat : p.block with
  | idle =>
    simp only [viperProcess, hat]
    split_ifs
    · exact ⟨hkept.consumed (step_moves _ _) .resting fun _ => rfl, consumed_viper⟩
    · exact h
  | consuming =>
    simp only [viperProcess, hat]
    exact ⟨hkept.consumed (step_moves _ _) .resting fun _ => rfl, consumed_viper⟩
  | swapped a rateChanged =>
    simp only [viperProcess, hat]
    split_ifs
    · exact ⟨hkept.release hat Block.noConfusion rfl (.inl rfl), release_viper trivial⟩
    · exact ⟨hkept.goto hat Block.noConfusion rfl (.inl rfl), trivial⟩
  | resting a =>
    simp only [viperProcess, hat]
    split_ifs
    · exact ⟨hkept.release hat Block.noConfusion rfl (.inl rfl), release_viper trivial⟩
    · exact ⟨hkept.goto hat Block.noConfusion rfl (.inl rfl), trivial⟩
  | decoding a =>
    simp only [viperProcess, hat]
    cases choice with
    | true => exact ⟨hkept.goto hat Block.noConfusion rfl (.inl rfl), trivial⟩
    | false => exact ⟨hkept.leave (hat ▸ Block.noConfusion), trivial⟩
  | taking a =>
    simp only [viperProcess, hat]
    exact ⟨hkept.take hat, trivial⟩
  | running a q =>
    simp only [viperProcess, hat]
    split_ifs
    · exact ⟨hkept.leave (hat ▸ Block.noConfusion), trivial⟩
    · exact ⟨hkept.goto hat Block.noConfusion rfl (.inl rfl), trivial⟩
    · exact ⟨hkept.goto hat Block.noConfusion rfl (.inr rfl), trivial⟩
  | fading a q =>
    simp only [viperProcess, hat]
    cases choice with
    | true => exact ⟨hkept.goto hat Block.noConfusion rfl (.inl rfl), trivial⟩
    | false => exact ⟨hkept.leave (hat ▸ Block.noConfusion), trivial⟩
  | faded a =>
    simp only [viperProcess, hat]
    split_ifs
    · exact ⟨hkept.release hat Block.noConfusion rfl (.inl rfl), release_viper trivial⟩
    · exact ⟨hkept.goto hat Block.noConfusion rfl (.inl rfl), trivial⟩
  | releasing a rest =>
    have hviper : (Block.releasing a rest).Viper := hat ▸ h.block
    simp only [viperProcess, hat]
    refine ⟨hkept.releaseOn hat fun q hq => ?_, releaseOn_viper hviper⟩
    rw [hat, ← Player.Rest.block_previous, (Rest.viper hviper).2] at hq
    cases hq
  | ending a =>
    simp only [viperProcess, hat]
    exact ⟨hkept.leave (hat ▸ Block.noConfusion), trivial⟩
  | failing a q => exact absurd h.block (by rw [hat]; exact id)
  | resetting a q => exact absurd h.block (by rw [hat]; exact id)

/-- PreparePending of the ViPER slots publishes only into a word without a previous graph -/
theorem viper_spares {p : Player} (h : p.Kept dspGraphSlots) {ok : Bool}
    (hkeeps : ok = true → p.core.control = .releasing p.core.word → p.block.previousGraph = none) : p.Spares ok := by
  intro q hq
  refine ⟨fun htrue hat => ?_, fun i hat => ?_⟩
  · rw [hkeeps htrue hat] at hq
    cases hq
  · obtain ⟨hne, hindex⟩ := h.previous q hq
    have hrelies := h.slots.control
    rw [hat] at hrelies
    have htarget : dspTarget p.core.word = some i := hrelies.1.target
    unfold dspTarget at htarget
    split_ifs at htarget with hguard
    push Not at hguard
    exact hne (hindex.symm.trans hguard.2.2)

/-- the log of a run of the ViPER context that starts with empty slots -/
def viperPlayback (config : UInt32 → DspGraphConfig) (moves : List (Move ViperCommand)) :
    List (Entry Player (Move ViperCommand) Unit) := logFrom viperStep { core := { config } } [] moves

/-- **ViPER graphs in use.** Over every interleaving of a control and an audio thread in which RESET and ENABLE do not
take a graph out of the slots that the running Process still uses, no graph that Process has is ever being prepared. -/
theorem viper_graphs_kept (config : UInt32 → DspGraphConfig) (moves : List (Move ViperCommand))
    (hkeeps : Along (fun _ entry => entry.before.releasesPrevious entry.event = true →
      entry.before.block.previousGraph = none) (viperPlayback config moves)) :
    Along (fun _ entry => ¬ entry.after.Clashes) (viperPlayback config moves) := by
  refine along_logFrom (I := fun p _ => ViperKept p) _ (fun p past m h hcond => ?_) moves
    ⟨Player.init_kept config, trivial⟩ trivial hkeeps
  suffices hnext : ViperKept (viperStep p m).1 from ⟨hnext, hnext.kept.clear⟩
  cases m with
  | command c =>
    refine ⟨h.kept.begin _ _, ?_⟩
    simp only [viperStep, Player.begin]
    split <;> exact h.block
  | control ok =>
    have hspares : p.Spares ok := by
      refine viper_spares h.kept fun htrue hat => hcond ?_
      simp [entryOf, Player.releasesPrevious, hat, htrue]
    refine ⟨h.kept.control hspares, ?_⟩
    show (p.control dspGraphSlots ok).block.Viper
    rw [(Player.control_core p ok).1]
    exact h.block
  | audio choice => exact h.audio choice

/-- slots whose graphs were never prepared -/
def unprepared : UInt32 → DspGraphConfig := fun _ => ⟨0, 0, 0⟩

/-- a configuration, a first block, and a second configuration that waits to be swapped in -/
def reconfigured : List (Move ViperCommand) :=
  [.command (.setConfig 48000)] ++ List.replicate 6 (.control true) ++ List.replicate 6 (.audio true)
    ++ [.command (.setConfig 48000)] ++ List.replicate 6 (.control true)

/-- a block of the crossfade ends, and then a RESET releases the previous graph for the next configuration -/
theorem viper_graphs_kept_reset :
    Along (fun _ entry => ¬ entry.after.Clashes) (viperPlayback unprepared
      (reconfigured ++ [.audio true, .audio true, .audio true, .audio false] ++ List.replicate 4 (.audio true)
        ++ [.audio false, .audio true, .command .reset, .control true, .control true, .command (.setConfig 48000)]
        ++ List.replicate 6 (.control true))) :=
  viper_graphs_kept _ _ (by decide +kernel)

/-- a RESET during the crossfade releases graph 0, and the next configuration prepares it under the running Process -/
theorem viper_graph_taken :
    ¬ ∀ config moves, Along (fun _ entry => ¬ entry.after.Clashes) (viperPlayback config moves) := by
  intro h
  have hrun := h unprepared (reconfigured
    ++ [.audio true, .audio true, .audio true, .audio false, .audio true, .audio true]
    ++ [.command .reset, .control true, .control true, .command (.setConfig 48000)]
    ++ List.replicate 3 (.control true))
  exact hrun.1 ⟨0, by decide, .inr (by decide)⟩

/-! ## IEM graphs in use -/

/-- a step of either thread that takes the previous graph out of the slots: a release, or a PreparePending that publishes
with the previous index cleared -/
def Player.takesPrevious {K : Type} (p : Player) : Move K → Bool
  | .control ok =>
    match p.core.control with
    | .releasing e => ok && p.core.word == e
    | .publishing false _ e => p.core.word == e
    | _ => false
  | .audio choice =>
    match p.core.audio with
    | .releasing e => choice && p.core.word == e
    | _ => false
  | .command _ => false

theorem iem_audio {p : Player} (h : p.Kept iemGraphSlots) (choice : Bool)
    (hkeeps : p.takesPrevious (.audio choice : Move IemCommand) = true → p.block.previousGraph = none) :
    (iemProcess p choice).Kept iemGraphSlots := by
  cases hat : p.block with
  | idle =>
    simp only [iemProcess, hat]
    split_ifs
    · exact h.consumed (step_moves _ _) .taking fun _ => rfl
    · exact h
  | consuming =>
    simp only [iemProcess, hat]
    exact h.consumed (step_moves _ _) .taking fun _ => rfl
  | swapped a rateChanged =>
    simp only [iemProcess, hat]
    split_ifs
    · exact h.release hat Block.noConfusion rfl (.inl rfl)
    · exact h.goto hat Block.noConfusion rfl (.inl rfl)
  | taking a =>
    simp only [iemProcess, hat]
    exact h.take hat
  | running a q =>
    simp only [iemProcess, hat]
    split_ifs
    · exact h.release hat Block.noConfusion rfl (.inl rfl)
    · exact h.goto hat Block.noConfusion rfl (.inl rfl)
    · exact h.goto hat Block.noConfusion rfl (.inr rfl)
  | fading a q =>
    simp only [iemProcess, hat]
    cases choice with
    | true => exact h.goto hat Block.noConfusion rfl (.inl rfl)
    | false => exact h.goto hat Block.noConfusion rfl (.inr rfl)
  | failing a q =>
    simp only [iemProcess, hat]
    exact h.release hat Block.noConfusion rfl (.inr rfl)
  | faded a =>
    simp only [iemProcess, hat]
    split_ifs
    · exact h.release hat Block.noConfusion rfl (.inl rfl)
    · exact h.goto hat Block.noConfusion rfl (.inl rfl)
  | releasing a rest =>
    simp only [iemProcess, hat]
    refine h.releaseOn hat fun q hq htrue haudio => ?_
    rw [hkeeps (by simp [Player.takesPrevious, haudio, htrue])] at hq
    cases hq
  | ending a =>
    simp only [iemProcess, hat]
    exact h.leave (hat ▸ Block.noConfusion)
  | resetting a q =>
    simp only [iemProcess, hat]
    exact h.leave (hat ▸ Block.noConfusion)
  | resting a =>
    simp only [iemProcess, hat]
    exact h.leave (hat ▸ Block.noConfusion)
  | decoding a =>
    simp only [iemProcess, hat]
    exact h.leave (hat ▸ Block.noConfusion)

/-- the log of a run of the IEM context that starts with empty slots -/
def iemPlayback (config : UInt32 → DspGraphConfig) (moves : List (Move IemCommand)) :
    List (Entry Player (Move IemCommand) Unit) := logFrom iemStep { core := { config } } [] moves

/-- **IEM graphs in use.** Over every interleaving of a control and an audio thread in which no step takes a graph out of
the slots that the running Process still uses as its previous_graph, no graph that Process has is ever being prepared. -/
theorem iem_graphs_kept (config : UInt32 → DspGraphConfig) (moves : List (Move IemCommand))
    (hkeeps : Along (fun _ entry => entry.before.takesPrevious entry.event = true →
      entry.before.block.previousGraph = none) (iemPlayback config moves)) :
    Along (fun _ entry => ¬ entry.after.Clashes) (iemPlayback config moves) := by
  refine along_logFrom (I := fun p _ => p.Kept iemGraphSlots) _ (fun p past m h hcond => ?_) moves
    (Player.init_kept config) trivial hkeeps
  suffices hnext : (iemStep p m).1.Kept iemGraphSlots from ⟨hnext, hnext.clear⟩
  cases m with
  | command c => exact h.begin _ _
  | control ok =>
    refine h.control fun q hq => ⟨fun htrue hat => ?_, fun i hat => ?_⟩
    · have hnone : p.block.previousGraph = none := hcond (by simp [entryOf, Player.takesPrevious, hat, htrue])
      rw [hnone] at hq
      cases hq
    · have hnone : p.block.previousGraph = none := hcond (by simp [entryOf, Player.takesPrevious, hat])
      rw [hnone] at hq
      cases hq
  | audio choice => exact iem_audio h choice hcond

/-- a first graph, a first block, and a second graph that waits to be swapped in -/
def rebuilt : List (Move IemCommand) :=
  [.command (.prepare 48000 8192)] ++ List.replicate 5 (.control true) ++ List.replicate 4 (.audio true)
    ++ [.command (.dispatchRawParam .rebuilt 48000 8192)] ++ List.replicate 5 (.control true)

/-- a block of the crossfade ends, and then the next graph is built, which drops the previous index -/
theorem iem_graphs_kept_rebuilt :
    Along (fun _ entry => ¬ entry.after.Clashes) (iemPlayback unprepared
      (rebuilt ++ [.audio true, .audio true, .audio false, .audio true, .audio true, .audio true, .audio false]
        ++ [.audio true] ++ [.command (.dispatchRawParam .rebuilt 48000 8192)] ++ List.replicate 5 (.control true))) :=
  iem_graphs_kept _ _ (by decide +kernel)

/-- during the crossfade one parameter publishes a third graph and drops the previous index, and the next parameter
cancels it and prepares graph 0 under the running Process -/
theorem iem_graph_taken :
    ¬ ∀ config moves, Along (fun _ entry => ¬ entry.after.Clashes) (iemPlayback config moves) := by
  intro h
  have hrun := h unprepared (rebuilt ++ [.audio true, .audio true, .audio false, .audio true]
    ++ [.command (.dispatchRawParam .rebuilt 48000 8192)] ++ List.replicate 5 (.control true)
    ++ [.command (.dispatchRawParam .rebuilt 48000 8192)] ++ List.replicate 3 (.control true))
  exact hrun.1 ⟨0, by decide, .inr (by decide)⟩

end ViperFx.Driver
