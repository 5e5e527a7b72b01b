/-
Parameters across graph swaps: `src/ViperContext.cpp` (Process from ConsumePending over ConsumeLatest to the block,
HandleSetConfig, CommitDaemonSnapshot, DispatchRawParam) with `src/ParameterMailbox.cpp`.

A block reads the slot word and then the parameter mailbox, and the two are independent. A graph runs with the parameters that
`Prepare` has given it until ApplyParams replaces them. A `ParameterPlayer` is the player of `Playback` with the mailbox and the
parameters of the graphs; a step is one step of the mailbox or one of the player, and the two threads interleave in any order.
What the parameters are made of is left open (`Record`), and so is what an update makes of them.

Results:
  · updates_kept : where no update passes over a waiting graph, and no graph of a commit is swapped in before the commit
                   publishes, a block runs with the parameters published last
-/
import ViperFx.Driver.Mailboxes
import ViperFx.Driver.Playback

namespace ViperFx.Driver

open ViperFx.Core ViperFx.Core.Slots

/-! ## Threads -/

/-- `staged_params` of CommitDaemonSnapshot; `adopted` when PreparePending has taken the graph -/
structure StagedParams (F V : Type) where
  params : F → V
  adopted : Bool := false

structure ParameterPlayer (F V : Type) where
  player : Player
  mailbox : Mailbox.State F V
  /-- the parameters that each graph runs with -/
  graphParams : UInt32 → F → V
  parameterSnapshot : F → V
  stagedParams : Option (StagedParams F V) := none
  /-- the running `Process` has been through ConsumeLatest -/
  consumed : Bool := false
  /-- how many Publish calls had returned when the last `Process` was called -/
  publishedBefore : ℕ := 0

/-- a command arrives, with the parameters it leads to, or one of the threads takes a step -/
inductive ParameterMove (F V : Type) where
  | setConfig (sampleRate : UInt32)
  | commitSnapshot (sampleRate : UInt32) (params : F → V)
  /-- a record that UpdateParameterSnapshot takes -/
  | dispatchRawParam (params : F → V)
  | control (ok : Bool)
  | audio (choice : Bool)

namespace ParameterPlayer

variable {F V : Type}

/-- the parameters that the graph of the command in progress is prepared with -/
def prepareParams (s : ParameterPlayer F V) : F → V :=
  match s.stagedParams with
  | some staged => staged.params
  | none => s.parameterSnapshot

/-- a step of the control thread on the slots -/
def prepareGraph (s : ParameterPlayer F V) (ok : Bool) : ParameterPlayer F V :=
  let player := s.player.control dspGraphSlots ok
  { s with
    player
    -- `Prepare` installs the parameters with the configuration
    graphParams := match s.player.core.control with
      | .preparing _ t config _ =>
        if dspGraphSlots.valid config && ok then Function.update s.graphParams t s.prepareParams else s.graphParams
      | _ => s.graphParams
    stagedParams := s.stagedParams.map fun staged =>
      { staged with adopted := staged.adopted || player.graphGeneration != s.player.graphGeneration } }

/-- `Engine().ApplyParams` of the active graph, and of the previous one if there is one -/
def applyParams (s : ParameterPlayer F V) (active : UInt32) (params : F → V) : UInt32 → F → V :=
  let previous := previousIndex s.player.core.word
  let applied := Function.update s.graphParams active params
  if previous = kNone then applied else Function.update applied previous params

/-- ConsumeLatest has taken a step, and perhaps its last one -/
def consumeOn (s : ParameterPlayer F V) (active : UInt32) (mailbox : Mailbox.State F V) : ParameterPlayer F V :=
  match mailbox.consumer, mailbox.log with
  | .idle, .copied _ params _ true :: _ =>
    { s with mailbox, consumed := true, graphParams := s.applyParams active params }
  | .idle, _ => { s with mailbox, consumed := true }
  | _, _ => { s with mailbox }

/-- a command is taken when the one before it has ended -/
def ready (s : ParameterPlayer F V) : Bool :=
  match s.player.core.control, s.player.script, s.mailbox.producer, s.stagedParams with
  | .idle, [], .idle, none => true
  | _, _, _, _ => false

def begin (s : ParameterPlayer F V) (command : ViperCommand) : ParameterPlayer F V :=
  { s with player := s.player.begin command.calls command.format }

section Step

variable [DecidableEq F] (L : Mailbox.Layout F V)

/-- `parameter_mailbox_.Publish(parameter_snapshot_)` is called -/
def publish (s : ParameterPlayer F V) (params : F → V) : ParameterPlayer F V :=
  { s with
    parameterSnapshot := params
    mailbox := (Mailbox.step L s.mailbox (.publish params)).getD s.mailbox }

/-- CommitDaemonSnapshot after PreparePending -/
def settle (s : ParameterPlayer F V) (staged : StagedParams F V) : ParameterPlayer F V :=
  if staged.adopted then { s.publish L staged.params with stagedParams := none } else { s with stagedParams := none }

def control (s : ParameterPlayer F V) (ok : Bool) : ParameterPlayer F V :=
  match Mailbox.produce L s.mailbox with
  | some mailbox => { s with mailbox }
  | none =>
    match s.player.core.control, s.player.script, s.stagedParams with
    | .idle, [], some staged => s.settle L staged
    | _, _, _ => s.prepareGraph ok

def consumeLatest (s : ParameterPlayer F V) (active : UInt32) : ParameterPlayer F V :=
  match s.mailbox.consumer with
  | .idle => { s with mailbox := (Mailbox.step L s.mailbox .consume).getD s.mailbox }
  | _ =>
    match Mailbox.read L s.mailbox with
    | some mailbox => s.consumeOn active mailbox
    | none => s

/-- ConsumeLatest stands between ConsumePending and the pause since the last block -/
def process (s : ParameterPlayer F V) (choice : Bool) : ParameterPlayer F V :=
  match s.player.block, s.consumed with
  | .resting active, false => s.consumeLatest L active
  | .idle, _ =>
    if choice then
      { s with
        player := viperProcess s.player true
        consumed := false
        publishedBefore := Mailbox.count s.mailbox.log }
    else s
  | _, _ => { s with player := viperProcess s.player choice }

end Step

end ParameterPlayer

section Run

variable {F V : Type} [DecidableEq F] (L : Mailbox.Layout F V)

def parameterStep (s : ParameterPlayer F V) : ParameterMove F V → ParameterPlayer F V × Unit
  | .setConfig sampleRate => (if s.ready then s.begin (.setConfig sampleRate) else s, ())
  | .commitSnapshot sampleRate params =>
    (if s.ready then { s.begin (.commitSnapshot sampleRate) with stagedParams := some ⟨params, false⟩ } else s, ())
  | .dispatchRawParam params => (if s.ready then s.publish L params else s, ())
  | .control ok => (s.control L ok, ())
  | .audio choice => (s.process L choice, ())

/-- a context as it is made, with empty slots -/
def newPlayer (config : UInt32 → DspGraphConfig) (graphParams : UInt32 → F → V) (params : F → V) :
    ParameterPlayer F V where
  player := { core := { config } }
  mailbox := Mailbox.init L params
  graphParams
  parameterSnapshot := L.initial

def parameterRun (config : UInt32 → DspGraphConfig) (graphParams : UInt32 → F → V) (params : F → V)
    (moves : List (ParameterMove F V)) : List (Entry (ParameterPlayer F V) (ParameterMove F V) Unit) :=
  logFrom (parameterStep L) (newPlayer L config graphParams params) [] moves

end Run

/-! ## Where an update can be lost -/

/-- an update of that number or a later one has these parameters -/
def isCurrent {F V : Type} [DecidableEq (F → V)] (log : List (Mailbox.Event F V)) (number : ℕ) (params : F → V) : Bool :=
  log.any fun
    | .published n value _ _ => decide (number ≤ n) && decide (value = params)
    | _ => false

namespace ParameterPlayer

variable {F V : Type}

/-- the parameters of a Publish that has begun, or of a commit that has yet to publish -/
def upcoming (s : ParameterPlayer F V) : Option (F → V) :=
  match s.mailbox.producer.value, s.stagedParams with
  | some value, _ => some value
  | none, some staged => if staged.adopted then some staged.params else none
  | none, none => none

variable [DecidableEq (F → V)]

/-- ConsumeLatest copies an update while a graph waits that was prepared with older parameters -/
def passesOver (s : ParameterPlayer F V) : Bool :=
  match s.mailbox.consumer with
  | .copying _ number _ [] =>
    let waiting := pendingIndex s.player.core.word
    waiting != kNone && !isCurrent s.mailbox.log number (s.graphParams waiting)
      && s.upcoming != some (s.graphParams waiting)
  | _ => false

/-- ConsumePending swaps in the graph of a commit that has yet to publish its parameters -/
def swapsEarly (s : ParameterPlayer F V) (choice : Bool) : Bool :=
  match s.player.core.audio, s.stagedParams with
  | .consuming e, some staged =>
    choice && s.player.core.word == e && staged.adopted && staged.params != s.parameterSnapshot
  | _, _ => false

/-- a step on which no update is lost -/
def keeps (s : ParameterPlayer F V) : ParameterMove F V → Bool
  | .audio choice => !s.passesOver && !s.swapsEarly choice
  | _ => true

end ParameterPlayer

/-- the parameters of the last Publish that has returned -/
def lastPublished {F V : Type} : List (Mailbox.Event F V) → Option (F → V)
  | [] => none
  | .published _ value _ _ :: _ => some value
  | _ :: before => lastPublished before

/-- a block that is processed without a Publish since `Process` was called runs with the parameters published last -/
def ParameterPlayer.UpToDate {F V : Type} (s : ParameterPlayer F V) : Prop :=
  ∀ active previous params, s.player.block = .running active previous → s.mailbox.producer.value = none →
    Mailbox.count s.mailbox.log = s.publishedBefore → lastPublished s.mailbox.log = some params →
      s.graphParams active = params

/-! ## What a step of the player does -/

/-- where the control thread can be inside the calls that are allowed -/
def CallWithin (allowed : SlotCall → Prop) : Slots.Call DspGraphConfig → Prop
  | .idle => True
  | .preparing initial _ _ _ | .applying initial _ _ | .publishing initial _ _ =>
    allowed (if initial then .prepareInitial else .preparePending)
  | .retracting _ => allowed .retractPending
  | .releasing _ => allowed .releasePrevious

structure Player.Within (allowed : SlotCall → Prop) (p : Player) : Prop where
  script : ∀ call ∈ p.script, allowed call
  control : CallWithin allowed p.core.control

theorem Player.control_within {allowed : SlotCall → Prop} {p : Player} (h : p.Within allowed)
    (hchoose : allowed .choosePrepare → allowed .prepareInitial ∧ allowed .preparePending) (ok : Bool) :
    (p.control dspGraphSlots ok).Within allowed := by
  have hcontrol := h.control
  cases hat : p.core.control with
  | idle =>
    cases hscript : p.script with
    | nil =>
      simp only [Player.control, hat, hscript]
      exact h
    | cons call rest =>
      have hcall : allowed call := h.script call (hscript ▸ List.mem_cons_self)
      have hrest : ∀ c ∈ rest, allowed c := fun c hc => h.script c (hscript ▸ List.mem_cons_of_mem _ hc)
      cases call with
      | requireActive =>
        simp only [Player.control, hat, hscript]
        refine ⟨fun c hc => ?_, hcontrol⟩
        dsimp only at hc
        split_ifs at hc
        · cases hc
        · exact hrest c hc
      | choosePrepare =>
        simp only [Player.control, hat, hscript]
        refine ⟨fun c hc => ?_, hcontrol⟩
        rcases List.mem_cons.mp hc with rfl | hc
        · split_ifs
          · exact (hchoose hcall).1
          · exact (hchoose hcall).2
        · exact hrest c hc
      | retractPending =>
        simp only [Player.control, hat, hscript]
        refine ⟨hrest, ?_⟩
        simp only [Slots.step, hat, retractLoop]
        split_ifs
        · trivial
        · exact hcall
      | releasePrevious =>
        simp only [Player.control, hat, hscript]
        refine ⟨hrest, ?_⟩
        simp only [Slots.step, hat, releaseLoop]
        split_ifs
        · trivial
        · exact hcall
      | prepareInitial =>
        simp only [Player.control, hat, hscript]
        refine ⟨hrest, ?_⟩
        simp only [Slots.step, hat]
        split_ifs
        · exact hcontrol
        · exact hcall
      | preparePending =>
        simp only [Player.control, hat, hscript]
        refine ⟨hrest, ?_⟩
        simp only [Slots.step, hat]
        split
        · split_ifs
          · exact hcontrol
          · exact hcall
        · exact hcontrol
  | preparing initial t config e =>
    rw [hat] at hcontrol
    simp only [Player.control, hat]
    refine ⟨h.script, ?_⟩
    simp only [Slots.step, hat]
    split_ifs
    · exact hcontrol
    · trivial
  | applying initial t e =>
    rw [hat] at hcontrol
    simp only [Player.control, hat]
    refine ⟨h.script, ?_⟩
    cases ok with
    | true =>
      simp only [Slots.step, hat]
      exact hcontrol
    | false =>
      simp only [Slots.step, hat]
      trivial
  | publishing initial t e =>
    simp only [Player.control, hat]
    refine ⟨h.script, ?_⟩
    simp only [Slots.step, hat]
    split_ifs <;> trivial
  | retracting e =>
    rw [hat] at hcontrol
    simp only [Player.control, hat]
    refine ⟨h.script, ?_⟩
    simp only [Slots.step, hat, retractLoop]
    split_ifs
    · trivial
    · trivial
    · exact hcontrol
  | releasing e =>
    rw [hat] at hcontrol
    simp only [Player.control, hat]
    refine ⟨h.script, ?_⟩
    simp only [Slots.step, hat, releaseLoop]
    split_ifs
    · trivial
    · trivial
    · exact hcontrol

/-- a step of the control thread does not swap, and counts what it publishes -/
theorem Player.control_moves (p : Player) (ok : Bool) :
    ∃ o, Moves dspGraphSlots p.core (p.control dspGraphSlots ok).core o ∧ (∀ q i, o ≠ .swapped q i) ∧
      ∀ i, o = .published i → (p.control dspGraphSlots ok).graphGeneration = p.graphGeneration + 1 := by
  have hunswapped : ∀ a : Act DspGraphConfig, a.byControl = true → ∀ q i,
      (Slots.step dspGraphSlots p.core a).2 ≠ .swapped q i := by
    intro a hact q i h
    rw [(swapped_inv h).2] at hact
    cases hact
  have hcall : ∀ a : Act DspGraphConfig, a.byControl = true → (∀ spurious, a ≠ .exchange spurious) → ∀ generation,
      ∃ o, Moves dspGraphSlots p.core (Slots.step dspGraphSlots p.core a).1 o ∧ (∀ q i, o ≠ .swapped q i) ∧
        ∀ i, o = .published i → generation = p.graphGeneration + 1 := by
    intro a hact hne generation
    refine ⟨_, step_moves p.core a, hunswapped a hact, fun i h => ?_⟩
    obtain ⟨spurious, ha⟩ := published_inv h
    exact absurd ha (hne spurious)
  cases hat : p.core.control with
  | idle =>
    cases hscript : p.script with
    | nil =>
      simp only [Player.control, hat, hscript]
      exact ⟨.silent, .stays _, nofun, nofun⟩
    | cons call rest =>
      cases call with
      | requireActive =>
        simp only [Player.control, hat, hscript]
        exact ⟨.silent, .stays _, nofun, nofun⟩
      | choosePrepare =>
        simp only [Player.control, hat, hscript]
        exact ⟨.silent, .stays _, nofun, nofun⟩
      | retractPending =>
        simp only [Player.control, hat, hscript]
        exact hcall .retractPending rfl nofun _
      | releasePrevious =>
        simp only [Player.control, hat, hscript]
        exact hcall .releasePrevious rfl nofun _
      | prepareInitial =>
        simp only [Player.control, hat, hscript]
        exact hcall (.prepareInitial p.graphConfig) rfl nofun _
      | preparePending =>
        simp only [Player.control, hat, hscript]
        exact hcall (.preparePending p.graphConfig) rfl nofun _
  | preparing initial t config e =>
    simp only [Player.control, hat]
    exact hcall (.prepared ok) rfl nofun _
  | applying initial t e =>
    simp only [Player.control, hat]
    exact hcall (.applied ok) rfl nofun _
  | publishing initial t e =>
    simp only [Player.control, hat]
    refine ⟨_, step_moves p.core (.exchange !ok), hunswapped _ rfl, fun i h => ?_⟩
    rw [h]
    rfl
  | retracting e =>
    simp only [Player.control, hat]
    refine ⟨_, step_moves p.core (.exchange !ok), hunswapped _ rfl, fun i h => ?_⟩
    rw [h]
    rfl
  | releasing e =>
    simp only [Player.control, hat]
    refine ⟨_, step_moves p.core (.exchange !ok), hunswapped _ rfl, fun i h => ?_⟩
    rw [h]
    rfl

/-- a step of `Process` leaves the control thread alone, and swaps only by the compare-and-swap of ConsumePending -/
theorem viperProcess_moves (p : Player) (choice : Bool) :
    (viperProcess p choice).core.control = p.core.control ∧ (viperProcess p choice).script = p.script ∧
    ∃ o, Moves dspGraphSlots p.core (viperProcess p choice).core o ∧ (∀ i, o ≠ .published i) ∧
      ∀ q i, o = .swapped q i → p.core.audio = .consuming p.core.word ∧ choice = true := by
  have hslots : ∀ a : Act DspGraphConfig, a.byControl = false → (a = .audioExchange false → choice = true) →
      ∀ p' : Player, p'.core = (Slots.step dspGraphSlots p.core a).1 → p'.script = p.script →
        p'.core.control = p.core.control ∧ p'.script = p.script ∧ ∃ o, Moves dspGraphSlots p.core p'.core o ∧
          (∀ i, o ≠ .published i) ∧ ∀ q i, o = .swapped q i → p.core.audio = .consuming p.core.word ∧ choice = true := by
    intro a hact hchoice p' hcore hscript
    refine ⟨hcore ▸ audio_control hact, hscript, _, hcore ▸ step_moves p.core a, ?_, ?_⟩
    · intro i h
      obtain ⟨spurious, ha⟩ := published_inv h
      rw [ha] at hact
      cases hact
    · intro q i h
      obtain ⟨haudio, ha⟩ := swapped_inv h
      exact ⟨haudio, hchoice ha⟩
  have hexchange : (.audioExchange !choice : Act DspGraphConfig) = .audioExchange false → choice = true := by
    intro h
    simpa using Act.audioExchange.inj h
  have hsilent : (∀ i, (.silent : Outcome) ≠ .published i) ∧
      ∀ q i, (.silent : Outcome) = .swapped q i → p.core.audio = .consuming p.core.word ∧ choice = true := by
    constructor
    · intro i h
      cases h
    · intro q i h
      cases h
  have hconsume : (.consumePending : Act DspGraphConfig) = .audioExchange false → choice = true := by
    intro h
    cases h
  have hrelease : (.audioRelease : Act DspGraphConfig) = .audioExchange false → choice = true := by
    intro h
    cases h
  have hstill : ∀ b : Block, { p with block := b }.core.control = p.core.control ∧ { p with block := b }.script = p.script ∧
      ∃ o, Moves dspGraphSlots p.core { p with block := b }.core o ∧ (∀ i, o ≠ .published i) ∧
        ∀ q i, o = .swapped q i → p.core.audio = .consuming p.core.word ∧ choice = true :=
    fun b => ⟨rfl, rfl, .silent, .stays _, hsilent.1, hsilent.2⟩
  cases hat : p.block with
  | idle =>
    simp only [viperProcess, hat]
    split_ifs
    · exact hslots .consumePending rfl hconsume _ rfl rfl
    · exact ⟨rfl, rfl, .silent, .stays _, hsilent.1, hsilent.2⟩
  | consuming =>
    simp only [viperProcess, hat]
    exact hslots (.audioExchange !choice) rfl hexchange _ rfl rfl
  | releasing a rest =>
    simp only [viperProcess, hat]
    exact hslots (.audioExchange !choice) rfl hexchange _ rfl rfl
  | swapped a rateChanged =>
    simp only [viperProcess, hat]
    split_ifs
    · exact hslots .audioRelease rfl hrelease _ rfl rfl
    · exact hstill _
  | resting a =>
    simp only [viperProcess, hat]
    split_ifs
    · exact hslots .audioRelease rfl hrelease _ rfl rfl
    · exact hstill _
  | faded a =>
    simp only [viperProcess, hat]
    split_ifs
    · exact hslots .audioRelease rfl hrelease _ rfl rfl
    · exact hstill _
  | decoding | taking | running | fading | ending | failing | resetting =>
    unfold viperProcess
    rw [hat]
    exact ⟨rfl, rfl, .silent, .stays _, hsilent.1, hsilent.2⟩

/-- the points of `Process` behind ConsumeLatest -/
def Block.Past : Block → Prop
  | .idle | .consuming | .swapped _ _ | .resting _ => False
  | .releasing _ rest => rest ≠ .resting
  | .decoding _ | .taking _ | .running _ _ | .fading _ _ | .faded _ | .failing _ _ | .resetting _ _ | .ending _ => True

/-- `Process` comes there from the point where ConsumeLatest stands -/
theorem viperProcess_past {p : Player} {choice : Bool} (h : (viperProcess p choice).block.Past) :
    p.block.Past ∨ ∃ a, p.block = .resting a := by
  have hconsumed : ∀ moved, ¬ (p.consumed .resting moved).block.Past := by
    intro moved
    unfold Player.consumed
    simp only
    split
    · split_ifs <;> exact id
    · exact id
    · exact id
  have hresting : ∀ (core : State DspGraphConfig) a,
      ¬ (if core.audio = .idle then Rest.resting.block a else .releasing a .resting).Past := by
    intro core a
    split_ifs
    · exact id
    · exact fun hne => hne rfl
  cases hat : p.block with
  | idle =>
    simp only [viperProcess, hat] at h
    split_ifs at h
    · exact absurd h (hconsumed _)
    · rw [hat] at h
      exact absurd h id
  | consuming =>
    simp only [viperProcess, hat] at h
    exact absurd h (hconsumed _)
  | swapped a rateChanged =>
    simp only [viperProcess, hat] at h
    split_ifs at h
    · exact absurd h (hresting _ a)
    · exact absurd h id
  | resting a => exact .inr ⟨a, rfl⟩
  | releasing a rest =>
    by_cases hrest : rest = .resting
    · subst hrest
      simp only [viperProcess, hat] at h
      exact absurd h (hresting _ a)
    · exact .inl hrest
  | decoding | taking | running | fading | faded | failing | resetting | ending => exact .inl trivial

/-! ## Parameters and the log -/

section Fits

variable {F V : Type} {L : Mailbox.Layout F V} {log : List (Mailbox.Event F V)} {number : ℕ} {params : F → V}

/-- the parameters that were published as that number -/
def Stood (L : Mailbox.Layout F V) (log : List (Mailbox.Event F V)) (number : ℕ) (params : F → V) : Prop :=
  ∃ generation, Mailbox.Stands L log number ⟨params, generation⟩

/-- the parameters are not older than the last update that was copied; `upcoming` comes after all that was published -/
def Fits (L : Mailbox.Layout F V) (log : List (Mailbox.Event F V)) (upcoming : Option (F → V)) (params : F → V) : Prop :=
  ∃ number, (Mailbox.lastCopied log).1 ≤ number ∧
    (Stood L log number params ∨ number = Mailbox.count log + 1 ∧ upcoming = some params)

theorem Stood.mono (h : Stood L log number params) (e : Mailbox.Event F V) : Stood L (e :: log) number params := by
  obtain ⟨generation, hstands⟩ := h
  exact ⟨generation, hstands.mono e⟩

theorem Stood.le (hlog : Along (Mailbox.EntryOk L) log) (h : Stood L log number params) : number ≤ Mailbox.count log := by
  obtain ⟨generation, hstands⟩ := h
  exact hstands.le hlog

theorem Stood.fits (h : Stood L log number params) (hle : (Mailbox.lastCopied log).1 ≤ number) (upcoming : Option (F → V)) :
    Fits L log upcoming params := ⟨number, hle, .inl h⟩

theorem fits_upcoming (hlog : Along (Mailbox.EntryOk L) log) (params : F → V) : Fits L log (some params) params :=
  ⟨Mailbox.count log + 1, (Mailbox.lastCopied_le hlog).trans (Nat.le_succ _), .inr ⟨rfl, rfl⟩⟩

theorem Fits.later (h : Fits L log none params) (upcoming : Option (F → V)) : Fits L log upcoming params := by
  obtain ⟨number, hle, hstood | ⟨-, hnone⟩⟩ := h
  · exact hstood.fits hle upcoming
  · cases hnone

/-- neither the start of a read nor a read without a copy makes a difference -/
theorem Fits.quiet {upcoming : Option (F → V)} {e : Mailbox.Event F V} (h : Fits L log upcoming params)
    (hlast : Mailbox.lastCopied (e :: log) = Mailbox.lastCopied log) (hcount : Mailbox.count (e :: log) = Mailbox.count log) :
    Fits L (e :: log) upcoming params := by
  obtain ⟨number, hle, hfits⟩ := h
  refine ⟨number, hlast ▸ hle, ?_⟩
  rcases hfits with hstood | ⟨hnumber, hupcoming⟩
  · exact .inl (hstood.mono e)
  · exact .inr ⟨hcount ▸ hnumber, hupcoming⟩

/-- what was upcoming is published -/
theorem Fits.published {value : F → V} (h : Fits L log (some value) params) (generation : ℕ) (restart : Bool) :
    Fits L (.published (Mailbox.count log + 1) value generation restart :: log) none params := by
  obtain ⟨number, hle, hstood | ⟨rfl, hvalue⟩⟩ := h
  · exact ⟨number, hle, .inl (hstood.mono _)⟩
  · obtain rfl := Option.some.inj hvalue
    exact ⟨_, hle, .inl ⟨generation, .inr ⟨restart, List.mem_cons_self⟩⟩⟩

theorem lastPublished_mem (hlog : Along (Mailbox.EntryOk L) log) (h : lastPublished log = some params) :
    ∃ generation restart, .published (Mailbox.count log) params generation restart ∈ log := by
  induction log with
  | nil => cases h
  | cons e log ih =>
    cases e with
    | published number value generation restart =>
      obtain rfl := Option.some.inj h
      have hnumber : number = Mailbox.count log + 1 := hlog.1.1
      exact ⟨generation, restart, hnumber ▸ List.mem_cons_self⟩
    | started | copied | refused =>
      obtain ⟨generation, restart, hmem⟩ := ih hlog.2 h
      exact ⟨generation, restart, List.mem_cons_of_mem _ hmem⟩

end Fits

/-! ## The invariant -/

/-- the calls of SET_CONFIG and of a commit; a commit does not prepare a first graph -/
def stagingCalls (committing : Bool) : SlotCall → Prop
  | .releasePrevious => False
  | .choosePrepare | .prepareInitial => committing = false
  | .requireActive | .retractPending | .preparePending => True

/-- what the two threads keep: the parameters of the graphs that the word names, and how far `Process` has come -/
structure ParameterPlayer.Follows {F V : Type} (L : Mailbox.Layout F V) (s : ParameterPlayer F V) : Prop where
  player : ViperKept s.player
  mailbox : Mailbox.Inv L s.mailbox
  calls : s.player.Within (stagingCalls s.stagedParams.isSome)
  publishing : ∀ value, s.mailbox.producer.value = some value →
    s.player.core.control = .idle ∧ s.player.script = [] ∧ s.stagedParams = none ∧ value = s.parameterSnapshot
  published : s.mailbox.producer.value = none →
    Stood L s.mailbox.log (Mailbox.count s.mailbox.log) s.parameterSnapshot
  named : Named (fun i => Fits L s.mailbox.log s.mailbox.producer.value (s.graphParams i))
    (fun i => Fits L s.mailbox.log s.upcoming (s.graphParams i)) (fun i => s.graphParams i = s.prepareParams) s.player.core
  reading : s.mailbox.consumer ≠ .idle → (∃ active, s.player.block = .resting active) ∧ s.consumed = false ∧
    s.publishedBefore ≤ Mailbox.countAtStart s.mailbox.log
  past : s.player.block.Past → s.consumed = true
  copied : s.consumed = true → s.publishedBefore ≤ (Mailbox.lastCopied s.mailbox.log).1
  began : s.publishedBefore ≤ Mailbox.count s.mailbox.log

namespace ParameterPlayer

section Steps

variable {F V : Type} {L : Mailbox.Layout F V} {s : ParameterPlayer F V}

theorem upcoming_value {value : F → V} (h : s.mailbox.producer.value = some value) : s.upcoming = some value := by
  unfold upcoming
  rw [h]

theorem upcoming_staged {staged : StagedParams F V} (h : s.mailbox.producer.value = none)
    (hstaged : s.stagedParams = some staged) : s.upcoming = if staged.adopted then some staged.params else none := by
  unfold upcoming
  rw [h, hstaged]

theorem upcoming_none (h : s.mailbox.producer.value = none) (hstaged : s.stagedParams = none) : s.upcoming = none := by
  unfold upcoming
  rw [h, hstaged]

theorem producer_idle (h : s.mailbox.producer.value = none) : s.mailbox.producer = .idle := by
  cases hp : s.mailbox.producer with
  | idle => rfl
  | loading | searching | writing =>
    rw [hp] at h
    cases h

theorem ready_iff : s.ready = true ↔ s.player.core.control = .idle ∧ s.player.script = [] ∧
    s.mailbox.producer.value = none ∧ s.stagedParams = none := by
  unfold ready
  constructor
  · intro h
    split at h
    · rename_i hcontrol hscript hproducer hstaged
      exact ⟨hcontrol, hscript, by rw [hproducer]; rfl, hstaged⟩
    · cases h
  · rintro ⟨hcontrol, hscript, hproducer, hstaged⟩
    rw [hcontrol, hscript, producer_idle hproducer, hstaged]

/-- nothing is filled while the control thread is between two calls -/
theorem unfilled {P : UInt32 → Prop} (h : s.player.core.control = .idle) : ∀ i, s.player.core.control.filled = some i → P i := by
  intro i hi
  rw [h] at hi
  cases hi

theorem init_follows (config : UInt32 → DspGraphConfig) (graphParams : UInt32 → F → V) (params : F → V) :
    (newPlayer L config graphParams params).Follows L where
  player := ⟨Player.init_kept config, trivial⟩
  mailbox := Mailbox.init_inv L params
  calls := ⟨nofun, trivial⟩
  publishing := nofun
  published := fun _ => ⟨0, .inl ⟨rfl, rfl⟩⟩
  named := ⟨fun h => absurd empty_read.1 h, fun h => absurd empty_read.2.1 h, nofun⟩
  reading := fun h => absurd rfl h
  past := nofun
  copied := nofun
  began := le_rfl

/-! ## Commands -/

/-- SET_CONFIG or a commit begins -/
theorem Follows.begun (h : s.Follows L) (hready : s.ready = true) (command : ViperCommand)
    (staged : Option (StagedParams F V)) (hcalls : ∀ call ∈ command.calls, stagingCalls staged.isSome call)
    (hadopted : ∀ new ∈ staged, new.adopted = false) : { s.begin command with stagedParams := staged }.Follows L := by
  obtain ⟨hcontrol, hscript, hproducer, hstaged⟩ := ready_iff.mp hready
  have hbegin : s.begin command = { s with player := { s.player with script := command.calls, format := command.format } } := by
    unfold begin Player.begin
    rw [hcontrol, hscript]
  rw [hbegin]
  have hupcoming : upcoming { s with
      player := { s.player with script := command.calls, format := command.format }
      stagedParams := staged } = s.upcoming := by
    rw [upcoming_none hproducer hstaged]
    cases hnew : staged with
    | none => exact upcoming_none hproducer rfl
    | some new => simp [upcoming, hproducer, hadopted new hnew]
  refine ⟨⟨⟨h.player.kept.slots, h.player.kept.consuming, h.player.kept.active, h.player.kept.previous⟩, h.player.block⟩,
    h.mailbox, ⟨hcalls, ?_⟩, ?_, h.published, ?_, h.reading, h.past, h.copied, h.began⟩
  · simp only [hcontrol]
    trivial
  · intro value hvalue
    cases hproducer.symm.trans hvalue
  · exact ⟨h.named.active, fun hne => hupcoming ▸ h.named.pending hne, unfilled hcontrol⟩

/-! ## The control thread -/

theorem prepareGraph_staged (s : ParameterPlayer F V) (ok : Bool) :
    (s.prepareGraph ok).prepareParams = s.prepareParams ∧
      (s.prepareGraph ok).stagedParams.isSome = s.stagedParams.isSome := by
  unfold prepareGraph prepareParams
  cases s.stagedParams <;> exact ⟨rfl, rfl⟩

/-- only the graph that is being prepared gets other parameters -/
theorem prepareGraph_other {ok : Bool} {i : UInt32}
    (hi : ∀ initial config e, s.player.core.control ≠ .preparing initial i config e) :
    (s.prepareGraph ok).graphParams i = s.graphParams i := by
  cases hat : s.player.core.control with
  | preparing initial t config e =>
    have hne : i ≠ t := by
      rintro rfl
      exact hi initial config e hat
    simp only [prepareGraph, hat]
    split_ifs
    · exact Function.update_of_ne hne _ _
    · rfl
  | idle | applying | publishing | retracting | releasing => simp only [prepareGraph, hat]

/-- the graph that `Prepare` has filled has the parameters of the command -/
theorem prepareGraph_filled {ok initial : Bool} {i e e' : UInt32} {config : DspGraphConfig}
    (hat : s.player.core.control = .preparing initial i config e)
    (hnext : (s.prepareGraph ok).player.core.control = .applying initial i e') :
    (s.prepareGraph ok).graphParams i = s.prepareParams := by
  have hfills : (dspGraphSlots.valid config && ok) = true := by
    by_contra hnot
    have hnot' : ¬ (dspGraphSlots.valid config = true ∧ ok = true) := by simpa using hnot
    unfold prepareGraph Player.control at hnext
    simp only [hat, Slots.step, if_neg hnot'] at hnext
    cases hnext
  unfold prepareGraph
  simp only [hat, hfills, if_true, Function.update_self]

/-- a waiting graph stays what it is when the control thread takes a step, and a commit adopts the graph it publishes -/
theorem prepareGraph_upcoming (hproducer : s.mailbox.producer.value = none) (ok : Bool) :
    (s.prepareGraph ok).upcoming = s.upcoming ∨ s.upcoming = none := by
  cases hstaged : s.stagedParams with
  | none =>
    exact .inr (upcoming_none hproducer hstaged)
  | some staged =>
    rw [upcoming_staged hproducer hstaged]
    cases hadopted : staged.adopted with
    | false => exact .inr rfl
    | true =>
      left
      simp [upcoming, prepareGraph, hproducer, hstaged, hadopted]

/-- what is published has parameters that no later update is missing from -/
theorem Follows.prepared (h : s.Follows L) (hproducer : s.mailbox.producer.value = none) (ok : Bool) {params : F → V}
    (hparams : params = s.prepareParams) :
    (s.stagedParams = none → ∀ upcoming, Fits L s.mailbox.log upcoming params) ∧
    ((s.player.control dspGraphSlots ok).graphGeneration = s.player.graphGeneration + 1 →
      Fits L s.mailbox.log (s.prepareGraph ok).upcoming params) := by
  have hlast := Mailbox.lastCopied_le h.mailbox.log
  have hfirst : s.stagedParams = none → ∀ upcoming, Fits L s.mailbox.log upcoming params := by
    intro hstaged upcoming
    have hsnapshot : params = s.parameterSnapshot := by
      rw [hparams]
      unfold prepareParams
      rw [hstaged]
    exact Stood.fits (hsnapshot ▸ h.published hproducer) hlast upcoming
  refine ⟨hfirst, fun hgeneration => ?_⟩
  cases hstaged : s.stagedParams with
  | none => exact hfirst hstaged _
  | some staged =>
    have hadvanced : ((s.player.control dspGraphSlots ok).graphGeneration != s.player.graphGeneration) = true := by
      rw [hgeneration]
      refine bne_iff_ne.mpr fun heq => ?_
      have hnat := congrArg UInt64.toNat heq
      have hlt := UInt64.toNat_lt s.player.graphGeneration
      rw [UInt64.toNat_add] at hnat
      simp only [UInt64.toNat_one] at hnat
      omega
    have hsome : (s.prepareGraph ok).upcoming = some params := by
      rw [hparams]
      simp [upcoming, prepareGraph, prepareParams, hproducer, hstaged, hadvanced]
    rw [hsome]
    exact fits_upcoming h.mailbox.log params

/-- a step of the control thread on the slots -/
theorem Follows.prepareGraph (h : s.Follows L) (hproducer : s.mailbox.producer.value = none) (ok : Bool) :
    (s.prepareGraph ok).Follows L := by
  have hslots := h.player.kept.slots
  have hspares : s.player.Spares ok := by
    refine viper_spares h.player.kept fun _ hat => ?_
    have hcalls := h.calls.control
    rw [hat] at hcalls
    exact absurd hcalls id
  obtain ⟨hparams, hisSome⟩ := prepareGraph_staged s ok
  obtain ⟨o, hmoves, hunswapped, hpublished⟩ := Player.control_moves s.player ok
  have hblock : (s.prepareGraph ok).player.block = s.player.block :=
    (Player.control_core (L := dspGraphSlots) s.player ok).1
  have hlast := Mailbox.lastCopied_le h.mailbox.log
  -- the word names the same graphs before the step, with the parameters they have after it
  have hbase : Named (fun i => Fits L s.mailbox.log s.mailbox.producer.value ((s.prepareGraph ok).graphParams i))
      (fun i => Fits L s.mailbox.log (s.prepareGraph ok).upcoming ((s.prepareGraph ok).graphParams i))
      (fun i => (s.prepareGraph ok).graphParams i = s.prepareParams) s.player.core := by
    refine ⟨fun hne => ?_, fun hne => ?_, fun i hi => ?_⟩
    · have hother : ∀ initial config e, s.player.core.control ≠ .preparing initial (activeIndex s.player.core.word) config e :=
        fun initial config e hat => (hslots.filled hat).1 rfl
      rw [prepareGraph_other hother]
      exact h.named.active hne
    · have hother : ∀ initial config e, s.player.core.control ≠ .preparing initial (pendingIndex s.player.core.word) config e :=
        fun initial config e hat => hne (hslots.filled hat).2
      have hpending := h.named.pending hne
      rw [prepareGraph_other hother]
      rcases prepareGraph_upcoming hproducer ok with hsame | hnone
      · rw [hsame]
        exact hpending
      · rw [hnone] at hpending
        exact hpending.later _
    · have hother : ∀ initial config e, s.player.core.control ≠ .preparing initial i config e := by
        intro initial config e hat
        rw [hat] at hi
        cases hi
      rw [prepareGraph_other hother]
      exact h.named.filled i hi
  refine ⟨⟨h.player.kept.control hspares, ?_⟩, h.mailbox, ?_, ?_, h.published, ?_, ?_, ?_, h.copied, h.began⟩
  · rw [hblock]
    exact h.player.block
  · rw [hisSome]
    exact Player.control_within h.calls (fun hchoose => ⟨hchoose, trivial⟩) ok
  · intro value hvalue
    cases hproducer.symm.trans hvalue
  · rw [hparams]
    refine hmoves.named hslots hbase (fun initial i config e hat hnext => prepareGraph_filled hat hnext) ?_ ?_
      fun q i ho => absurd ho (hunswapped q i)
    · intro i e hat _ hi
      have hcalls := h.calls.control
      rw [hat] at hcalls
      have hfirst : s.stagedParams.isSome = false := hcalls
      have hstaged : s.stagedParams = none := by simpa using hfirst
      exact (h.prepared hproducer ok hi).1 hstaged _
    · intro i e hat ho hi
      exact (h.prepared hproducer ok hi).2 (hpublished i ho)
  · rw [hblock]
    exact h.reading
  · rw [hblock]
    exact h.past

theorem isCurrent_iff [DecidableEq (F → V)] {log : List (Mailbox.Event F V)} {number : ℕ} {params : F → V} :
    isCurrent log number params = true ↔ ∃ n generation restart, number ≤ n ∧ .published n params generation restart ∈ log := by
  unfold isCurrent
  rw [List.any_eq_true]
  constructor
  · rintro ⟨e, hmem, he⟩
    cases e with
    | published n value generation restart =>
      simp only [Bool.and_eq_true, decide_eq_true_eq] at he
      obtain ⟨hle, rfl⟩ := he
      exact ⟨n, generation, restart, hle, hmem⟩
    | started | copied | refused => cases he
  · rintro ⟨n, generation, restart, hle, hmem⟩
    exact ⟨_, hmem, by simpa using hle⟩

theorem applyParams_active (s : ParameterPlayer F V) (active : UInt32) (params : F → V) :
    s.applyParams active params active = params := by
  unfold applyParams
  split_ifs
  · exact Function.update_self ..
  · by_cases hsame : active = previousIndex s.player.core.word
    · rw [← hsame, Function.update_self]
    · rw [Function.update_of_ne hsame, Function.update_self]

theorem applyParams_other {active i : UInt32} {params : F → V} (hactive : i ≠ active)
    (hprevious : previousIndex s.player.core.word = kNone ∨ i ≠ previousIndex s.player.core.word) :
    s.applyParams active params i = s.graphParams i := by
  unfold applyParams
  split_ifs with hnone
  · exact Function.update_of_ne hactive _ _
  · rw [Function.update_of_ne (hprevious.resolve_left hnone), Function.update_of_ne hactive]

/-- a step of `Process` on the slots keeps what is known of the graphs, unless it swaps in a graph too early -/
theorem Follows.swapped [DecidableEq (F → V)] (h : s.Follows L) {choice : Bool} (hkeeps : s.swapsEarly choice = false) :
    Named (fun i => Fits L s.mailbox.log s.mailbox.producer.value (s.graphParams i))
      (fun i => Fits L s.mailbox.log s.upcoming (s.graphParams i)) (fun i => s.graphParams i = s.prepareParams)
      (viperProcess s.player choice).core := by
  obtain ⟨hcontrol, -, o, hmoves, hunpublished, hswapped⟩ := viperProcess_moves s.player choice
  refine hmoves.named h.player.kept.slots h.named ?_ ?_ ?_ ?_
  · intro initial i config e hat hnext
    rw [hcontrol, hat] at hnext
    cases hnext
  · intro i e _ ho
    exact absurd ho (hunpublished i)
  · intro i e _ ho
    exact absurd ho (hunpublished i)
  · intro q i ho hi
    obtain ⟨haudio, rfl⟩ := hswapped q i ho
    cases hproducer : s.mailbox.producer.value with
    | some value =>
      rw [upcoming_value hproducer] at hi
      exact hi
    | none =>
      cases hstaged : s.stagedParams with
      | none =>
        rw [upcoming_none hproducer hstaged] at hi
        exact hi
      | some staged =>
        rw [upcoming_staged hproducer hstaged] at hi
        split_ifs at hi with hadopted
        · have hsame : staged.params = s.parameterSnapshot := by
            unfold swapsEarly at hkeeps
            simpa [haudio, hstaged, hadopted] using hkeeps
          obtain ⟨number, hle, hstood | ⟨hnumber, hparams⟩⟩ := hi
          · exact hstood.fits hle _
          · have hpublished := h.published hproducer
            rw [← hsame, Option.some.inj hparams] at hpublished
            exact hpublished.fits (Mailbox.lastCopied_le h.mailbox.log) _
        · exact hi

/-- a step of `Process` outside ConsumeLatest -/
theorem Follows.proceeds [DecidableEq (F → V)] (h : s.Follows L) {choice : Bool} (hkeeps : s.swapsEarly choice = false)
    (hidle : s.mailbox.consumer = .idle) (hresting : ∀ active, s.player.block = .resting active → s.consumed = true) :
    { s with player := viperProcess s.player choice }.Follows L := by
  obtain ⟨hcontrol, hscript, -⟩ := viperProcess_moves s.player choice
  refine ⟨h.player.audio choice, h.mailbox, ⟨?_, ?_⟩, ?_, h.published, h.swapped hkeeps, fun hne => absurd hidle hne, ?_,
    h.copied, h.began⟩
  · rw [hscript]
    exact h.calls.script
  · rw [hcontrol]
    exact h.calls.control
  · rw [hcontrol, hscript]
    exact h.publishing
  · intro hpast
    rcases viperProcess_past hpast with hpast | ⟨active, hat⟩
    · exact h.past hpast
    · exact hresting active hat

/-- `Process` is called -/
theorem Follows.called [DecidableEq (F → V)] (h : s.Follows L) (hkeeps : s.swapsEarly true = false)
    (hat : s.player.block = .idle) (hidle : s.mailbox.consumer = .idle) :
    { s with
      player := viperProcess s.player true
      consumed := false
      publishedBefore := Mailbox.count s.mailbox.log }.Follows L := by
  have hnext : { s with player := viperProcess s.player true }.Follows L := by
    refine h.proceeds hkeeps hidle fun active hresting => ?_
    rw [hat] at hresting
    cases hresting
  refine ⟨hnext.player, hnext.mailbox, hnext.calls, hnext.publishing, hnext.published, hnext.named,
    fun hne => absurd hidle hne, fun hpast => ?_, nofun, le_rfl⟩
  rcases viperProcess_past hpast with hpast | ⟨active, hresting⟩
  · rw [hat] at hpast
    exact absurd hpast id
  · rw [hat] at hresting
    cases hresting

/-- the block that is processed has been through ConsumeLatest, and its graph is named by the word -/
theorem Follows.upToDate (h : s.Follows L) : s.UpToDate := by
  intro active previous params hat hproducer hcount hparams
  obtain ⟨hne, hactive⟩ := h.player.kept.active active (by rw [hat]; rfl)
  obtain ⟨generation, restart, hmem⟩ := lastPublished_mem h.mailbox.log hparams
  have hlast := Mailbox.lastCopied_le h.mailbox.log
  have hcopied := h.copied (h.past (by rw [hat]; trivial))
  have hfits := h.named.active (hactive ▸ hne)
  rw [hactive, hproducer] at hfits
  obtain ⟨number, hle, ⟨generation', hstands⟩ | ⟨-, hnone⟩⟩ := hfits
  · have hnumber := hstands.le h.mailbox.log
    obtain rfl : number = Mailbox.count s.mailbox.log := by omega
    rcases hstands with ⟨hzero, -⟩ | ⟨restart', hmem'⟩
    · have hpos := (Mailbox.number_le h.mailbox.log hmem).1
      omega
    · exact (Mailbox.published_unique h.mailbox.log hmem hmem').1
  · cases hnone

variable [DecidableEq F]

/-- a Publish is called, by DispatchRawParam or at the end of a commit -/
theorem Follows.publishes (h : s.Follows L) (hcontrol : s.player.core.control = .idle) (hscript : s.player.script = [])
    (hproducer : s.mailbox.producer.value = none) {params : F → V}
    (hupcoming : s.upcoming = none ∨ s.upcoming = some params) : { s.publish L params with stagedParams := none }.Follows L := by
  have hstep : Mailbox.step L s.mailbox (.publish params) = some { s.mailbox with producer := .loading params false } := by
    simp only [Mailbox.step, producer_idle hproducer]
  have hpublish : s.publish L params =
      { s with parameterSnapshot := params, mailbox := { s.mailbox with producer := .loading params false } } := by
    unfold publish
    rw [hstep]
    rfl
  rw [hpublish]
  refine ⟨h.player, Mailbox.step_inv h.mailbox hstep, ⟨?_, ?_⟩, ?_, nofun, ?_, h.reading, h.past, h.copied, h.began⟩
  · intro call hcall
    rw [hscript] at hcall
    cases hcall
  · rw [hcontrol]
    trivial
  · intro value hvalue
    exact ⟨hcontrol, hscript, rfl, (Option.some.inj hvalue).symm⟩
  · refine ⟨fun hne => ?_, fun hne => ?_, unfilled hcontrol⟩
    · have hactive := h.named.active hne
      rw [hproducer] at hactive
      exact hactive.later _
    · have hpending := h.named.pending hne
      rcases hupcoming with hnone | hsome
      · rw [hnone] at hpending
        exact hpending.later _
      · rwa [hsome] at hpending

/-- a step inside `Publish` -/
theorem Follows.produces (h : s.Follows L) {mailbox : Mailbox.State F V} (hstep : Mailbox.produce L s.mailbox = some mailbox) :
    { s with mailbox }.Follows L := by
  obtain ⟨hconsumer, value, hvalue, ⟨hlog, hnext⟩ | ⟨hidle, generation, restart, hlog⟩⟩ := Mailbox.produce_cases hstep
  · obtain ⟨hcontrol, hscript, hstaged, hsnapshot⟩ := h.publishing value hvalue
    have hupcoming : upcoming { s with mailbox } = s.upcoming := (upcoming_value hnext).trans (upcoming_value hvalue).symm
    refine ⟨h.player, Mailbox.produce_inv h.mailbox hstep, h.calls, ?_, ?_, ?_, ?_, h.past, ?_, ?_⟩
    · intro value' hvalue'
      obtain rfl := Option.some.inj (hnext.symm.trans hvalue')
      exact h.publishing value hvalue
    · intro hnone
      cases hnext.symm.trans hnone
    · refine h.named.mono (fun i hi => ?_) (fun i hi => ?_) fun i hi => hi
      · dsimp only
        rwa [hlog, hnext, ← hvalue]
      · dsimp only
        rwa [hlog, hupcoming]
    · dsimp only
      rw [hconsumer, hlog]
      exact h.reading
    · dsimp only
      rw [hlog]
      exact h.copied
    · dsimp only
      rw [hlog]
      exact h.began
  · obtain ⟨hcontrol, hscript, hstaged, rfl⟩ := h.publishing value hvalue
    have hproducer : mailbox.producer.value = none := by rw [hidle]; rfl
    have hupcoming : upcoming { s with mailbox } = none := upcoming_none hproducer hstaged
    refine ⟨h.player, Mailbox.produce_inv h.mailbox hstep, h.calls, ?_, ?_, ?_, ?_, h.past, ?_, ?_⟩
    · intro value' hvalue'
      cases hproducer.symm.trans hvalue'
    · intro _
      dsimp only
      rw [hlog]
      exact ⟨generation, .inr ⟨restart, List.mem_cons_self⟩⟩
    · refine ⟨fun hne => ?_, fun hne => ?_, unfilled hcontrol⟩
      · have hactive := h.named.active hne
        dsimp only
        rw [hlog, hproducer]
        exact Fits.published (hvalue ▸ hactive) generation restart
      · have hpending := h.named.pending hne
        rw [upcoming_value hvalue] at hpending
        dsimp only
        rw [hlog, hupcoming]
        exact hpending.published generation restart
    · dsimp only
      rw [hconsumer, hlog]
      exact h.reading
    · dsimp only
      rw [hlog]
      exact h.copied
    · dsimp only
      rw [hlog]
      exact h.began.trans (Nat.le_succ _)

theorem Follows.control (h : s.Follows L) (ok : Bool) : (s.control L ok).Follows L := by
  unfold ParameterPlayer.control
  split
  · rename_i mailbox hstep
    exact h.produces hstep
  · rename_i hstep
    have hproducer : s.mailbox.producer.value = none := by
      cases hp : s.mailbox.producer with
      | idle => rfl
      | loading => simp [Mailbox.produce, hp] at hstep
      | searching => simp [Mailbox.produce, hp] at hstep
      | writing value restart generation target todo => cases todo <;> simp [Mailbox.produce, hp] at hstep
    split
    · rename_i staged hcontrol hscript hstaged
      have hupcoming := upcoming_staged hproducer hstaged
      unfold settle
      split_ifs with hadopted
      · exact h.publishes hcontrol hscript hproducer (.inr (by rw [hupcoming, if_pos hadopted]))
      · refine ⟨h.player, h.mailbox, ⟨?_, ?_⟩, ?_, h.published, ?_, h.reading, h.past, h.copied, h.began⟩
        · intro call hcall
          rw [hscript] at hcall
          cases hcall
        · rw [hcontrol]
          trivial
        · intro value hvalue
          cases hproducer.symm.trans hvalue
        · refine ⟨h.named.active, fun hne => ?_, unfilled hcontrol⟩
          have hpending := h.named.pending hne
          rw [hupcoming, if_neg hadopted] at hpending
          exact hpending.later _
    · exact h.prepareGraph hproducer ok

/-! ## The audio thread -/

/-- ConsumeLatest is called -/
theorem Follows.starts (h : s.Follows L) {active : UInt32} (hat : s.player.block = .resting active)
    (hconsumed : s.consumed = false) (hidle : s.mailbox.consumer = .idle) :
    { s with mailbox := (Mailbox.step L s.mailbox .consume).getD s.mailbox }.Follows L := by
  have hstep : Mailbox.step L s.mailbox .consume =
      some { s.mailbox with consumer := .loading, log := .started :: s.mailbox.log } := by
    simp only [Mailbox.step, hidle]
  rw [hstep]
  refine ⟨h.player, Mailbox.step_inv h.mailbox hstep, h.calls, h.publishing, fun hnone => (h.published hnone).mono _, ?_,
    fun _ => ⟨⟨active, hat⟩, hconsumed, h.began⟩, h.past, h.copied, h.began⟩
  exact h.named.mono (fun i hi => hi.quiet rfl rfl) (fun i hi => hi.quiet rfl rfl) fun i hi => hi

/-- ConsumeLatest goes on, and perhaps returns with an update or without one -/
theorem Follows.reads [DecidableEq (F → V)] (h : s.Follows L) (hrestarts : L.restarts = false)
    (husable : ∀ value, L.usable value = true) {active : UInt32} (hat : s.player.block = .resting active)
    (hconsumed : s.consumed = false) {mailbox : Mailbox.State F V} (hstep : Mailbox.read L s.mailbox = some mailbox)
    (hkeeps : s.passesOver = false) : (s.consumeOn active mailbox).Follows L := by
  have hinv : Mailbox.Inv L mailbox := Mailbox.read_inv h.mailbox hstep
  have hbusy : s.mailbox.consumer ≠ .idle := by
    intro hidle
    simp [Mailbox.read, hidle] at hstep
  obtain ⟨-, -, hstart⟩ := h.reading hbusy
  obtain ⟨hproducer, hreads⟩ := Mailbox.read_reads hstep
  have hupcoming : ∀ (consumed : Bool) graphParams, upcoming { s with mailbox, consumed, graphParams } = s.upcoming := by
    intro consumed graphParams
    unfold upcoming
    rw [hproducer]
  cases hreads with
  | goes hnext hlog =>
    have hon : s.consumeOn active mailbox = { s with mailbox } := by
      unfold consumeOn
      split
      · rename_i hidle _
        exact absurd hidle hnext
      · rename_i hidle _
        exact absurd hidle hnext
      · rfl
    rw [hon]
    refine ⟨h.player, hinv, h.calls, ?_, ?_, ?_, ?_, h.past, ?_, ?_⟩
    · dsimp only
      rw [hproducer]
      exact h.publishing
    · dsimp only
      rw [hproducer, hlog]
      exact h.published
    · dsimp only
      rw [hproducer, hlog, hupcoming s.consumed s.graphParams]
      exact h.named
    · intro _
      dsimp only
      rw [hlog]
      exact ⟨⟨active, hat⟩, hconsumed, hstart⟩
    · dsimp only
      rw [hlog]
      exact h.copied
    · dsimp only
      rw [hlog]
      exact h.began
  | refuses hnext hlog =>
    have hon : s.consumeOn active mailbox = { s with mailbox, consumed := true } := by
      unfold consumeOn
      split
      · rename_i hcopied
        rw [hlog] at hcopied
        cases hcopied
      · rfl
      · rename_i hbusy' _
        exact absurd hnext hbusy'
    -- the update that the read found is one that was copied before
    have hentry : Mailbox.EntryOk L s.mailbox.log .refused := by
      have hall := hinv.log
      rw [hlog] at hall
      exact hall.1
    obtain ⟨-, number, slot, hstands, hfresh, hold⟩ := hentry
    have hnumber : slot.generation = number := hstands.counted h.mailbox.log hrestarts
    have hcounted := Mailbox.lastCopied_counted h.mailbox.log hrestarts
    rw [hon]
    refine ⟨h.player, hinv, h.calls, ?_, ?_, ?_, fun hne => absurd hnext hne, fun _ => rfl, fun _ => ?_, ?_⟩
    · dsimp only
      rw [hproducer]
      exact h.publishing
    · dsimp only
      rw [hproducer, hlog]
      exact fun hnone => (h.published hnone).mono _
    · dsimp only
      rw [hproducer, hlog, hupcoming true s.graphParams]
      exact h.named.mono (fun i hi => hi.quiet rfl rfl) (fun i hi => hi.quiet rfl rfl) fun i hi => hi
    · dsimp only
      rw [hlog]
      show s.publishedBefore ≤ (Mailbox.lastCopied s.mailbox.log).1
      omega
    · dsimp only
      rw [hlog]
      exact h.began
  | copies published number generation ok hcopying hnext hlog =>
    have hentry : Mailbox.EntryOk L s.mailbox.log (.copied number s.mailbox.params generation ok) := by
      have hall := hinv.log
      rw [hlog] at hall
      exact hall.1
    obtain ⟨hstands, hfresh, hordered, -, hok⟩ := hentry
    have hok' : ok = true := hok.trans (husable _)
    subst hok'
    have hon : s.consumeOn active mailbox =
        { s with mailbox, consumed := true, graphParams := s.applyParams active s.mailbox.params } := by
      unfold consumeOn
      rw [hnext, hlog]
    have hstood : Stood L mailbox.log number s.mailbox.params := by
      rw [hlog]
      exact ⟨generation, hstands.mono _⟩
    have hlast : (Mailbox.lastCopied mailbox.log).1 = number := by rw [hlog]; rfl
    have harranged := h.player.kept.slots.arranged
    obtain ⟨-, hactive⟩ := h.player.kept.active active (by rw [hat]; rfl)
    rw [hon]
    refine ⟨h.player, hinv, h.calls, ?_, ?_, ⟨?_, ?_, ?_⟩, fun hne => absurd hnext hne, fun _ => rfl, fun _ => ?_, ?_⟩
    · dsimp only
      rw [hproducer]
      exact h.publishing
    · dsimp only
      rw [hproducer, hlog]
      exact fun hnone => (h.published hnone).mono _
    · intro _
      dsimp only
      rw [hactive, applyParams_active]
      exact hstood.fits hlast.le _
    · intro hne
      obtain ⟨hlive, hnone⟩ := harranged.behind hne
      have hapart : pendingIndex s.player.core.word ≠ active := hactive ▸ (harranged.activePending hlive).symm
      have hpending := h.named.pending hne
      -- the step passes over no waiting graph
      have hcurrent : isCurrent s.mailbox.log number (s.graphParams (pendingIndex s.player.core.word)) = true ∨
          s.upcoming = some (s.graphParams (pendingIndex s.player.core.word)) := by
        unfold passesOver at hkeeps
        rw [hcopying] at hkeeps
        by_contra hnot
        push Not at hnot
        simp [hne, hnot.1, hnot.2] at hkeeps
      dsimp only
      rw [applyParams_other hapart (.inl hnone), hupcoming]
      rcases hcurrent with hlater | hsome
      · obtain ⟨n, generation', restart', hle, hmem⟩ := isCurrent_iff.mp hlater
        refine ⟨n, hlast.trans_le hle, .inl ⟨generation', .inr ⟨restart', ?_⟩⟩⟩
        rw [hlog]
        exact List.mem_cons_of_mem _ hmem
      · rw [hsome]
        exact fits_upcoming hinv.log _
    · intro i hi
      obtain ⟨hne, hprevious⟩ := h.player.kept.slots.filled_apart hi
      dsimp only
      rw [applyParams_other (hactive ▸ hne) hprevious]
      exact h.named.filled i hi
    · dsimp only
      rw [hlast]
      exact hstart.trans hfresh
    · dsimp only
      rw [hlog]
      exact h.began

theorem Follows.process [DecidableEq (F → V)] (h : s.Follows L) (hrestarts : L.restarts = false)
    (husable : ∀ value, L.usable value = true) {choice : Bool} (hkeeps : s.keeps (.audio choice) = true) :
    (s.process L choice).Follows L := by
  obtain ⟨hpasses, hswaps⟩ : s.passesOver = false ∧ s.swapsEarly choice = false := by
    simpa [keeps] using hkeeps
  have hidle : (∀ active, s.player.block = .resting active → s.consumed = true) → s.mailbox.consumer = .idle := by
    intro hresting
    by_contra hbusy
    obtain ⟨⟨active, hat⟩, hconsumed, -⟩ := h.reading hbusy
    rw [hresting active hat] at hconsumed
    cases hconsumed
  unfold ParameterPlayer.process
  split
  · rename_i active hat hconsumed
    unfold consumeLatest
    split
    · rename_i hstart
      exact h.starts hat hconsumed hstart
    · split
      · rename_i mailbox hstep
        exact h.reads hrestarts husable hat hconsumed hstep hpasses
      · exact h
  · rename_i hat
    have hnot : s.mailbox.consumer = .idle := hidle fun active hresting => by
      rw [hat] at hresting
      cases hresting
    split_ifs with hchoice
    · subst hchoice
      exact h.called hswaps hat hnot
    · exact h
  · rename_i hcalled hreads
    have hresting : ∀ active, s.player.block = .resting active → s.consumed = true := by
      intro active hat
      cases hconsumed : s.consumed with
      | true => rfl
      | false => exact absurd hconsumed (hreads active hat)
    exact h.proceeds hswaps (hidle hresting) hresting

/-- **One step.** -/
theorem Follows.step [DecidableEq (F → V)] (h : s.Follows L) (hrestarts : L.restarts = false)
    (husable : ∀ value, L.usable value = true) {move : ParameterMove F V} (hkeeps : s.keeps move = true) :
    (parameterStep L s move).1.Follows L := by
  cases move with
  | setConfig sampleRate =>
    unfold parameterStep
    split_ifs with hready
    · have hstaged := (ready_iff.mp hready).2.2.2
      have hbegun := h.begun hready (.setConfig sampleRate) none (by simp [ViperCommand.calls, stagingCalls]) nofun
      have hsame : { s.begin (.setConfig sampleRate) with stagedParams := none } = s.begin (.setConfig sampleRate) := by
        rw [← hstaged]
        rfl
      rwa [hsame] at hbegun
    · exact h
  | commitSnapshot sampleRate params =>
    unfold parameterStep
    split_ifs with hready
    · refine h.begun hready (.commitSnapshot sampleRate) (some ⟨params, false⟩) (by simp [ViperCommand.calls, stagingCalls]) ?_
      intro new hnew
      obtain rfl := Option.some.inj hnew
      rfl
    · exact h
  | dispatchRawParam params =>
    unfold parameterStep
    split_ifs with hready
    · obtain ⟨hcontrol, hscript, hproducer, hstaged⟩ := ready_iff.mp hready
      have hpublishes : { s.publish L params with stagedParams := none }.Follows L :=
        h.publishes hcontrol hscript hproducer (.inl (upcoming_none hproducer hstaged))
      have hsame : { s.publish L params with stagedParams := none } = s.publish L params := by
        rw [← hstaged]
        rfl
      rwa [hsame] at hpublishes
    · exact h
  | control ok => exact h.control ok
  | audio choice => exact h.process hrestarts husable hkeeps

end Steps

end ParameterPlayer

/-! ## Runs -/

/-- **No update is lost, where none passes over a waiting graph.** In every run in which ConsumeLatest copies no update while a
graph waits that was prepared with older parameters, and ConsumePending swaps in no graph of a commit before the commit
publishes, every block that is processed without a Publish since `Process` was called runs with the parameters published last. -/
theorem updates_kept {F V : Type} [DecidableEq F] [DecidableEq (F → V)] (viperParams : Record F) (initial : F → V)
    (config : UInt32 → DspGraphConfig) (graphParams : UInt32 → F → V) (params : F → V) (moves : List (ParameterMove F V))
    (hkeeps : Along (fun _ entry => entry.before.keeps entry.event = true)
      (parameterRun (parameterMailbox viperParams initial) config graphParams params moves)) :
    Along (fun _ entry => entry.after.UpToDate)
      (parameterRun (parameterMailbox viperParams initial) config graphParams params moves) := by
  refine along_logFrom (I := fun s _ => s.Follows (parameterMailbox viperParams initial)) _ (fun s past move h hcond => ?_) moves
    (ParameterPlayer.init_follows config graphParams params) trivial hkeeps
  have hnext := h.step rfl (fun _ => rfl) hcond
  exact ⟨hnext, hnext.upToDate⟩

/-- a record of one parameter -/
def oneParam : Record Unit := ⟨[()], fun _ => List.mem_singleton_self ()⟩

/-- a run of the context with one parameter that is first off -/
def oneParamRun (moves : List (ParameterMove Unit Bool)) : List (Entry (ParameterPlayer Unit Bool) (ParameterMove Unit Bool) Unit) :=
  parameterRun (parameterMailbox oneParam fun _ => false) unprepared (fun _ _ => false) (fun _ => false) moves

/-- a first graph, and a block that has been through ConsumePending -/
def firstBlock : List (ParameterMove Unit Bool) :=
  [.setConfig 48000] ++ List.replicate 6 (.control true) ++ [.audio true]

/-- an update is published before a second configuration, whose graph the second block swaps in -/
theorem updates_kept_reconfigured :
    Along (fun _ entry => entry.after.UpToDate) (oneParamRun
      (firstBlock ++ [.dispatchRawParam fun _ => true] ++ List.replicate 6 (.control true) ++ [.setConfig 44100]
        ++ List.replicate 6 (.control true) ++ List.replicate 23 (.audio true))) :=
  updates_kept _ _ _ _ _ _ (by decide +kernel)

/-- the update is published while the graph of the second configuration waits: it is copied into the graph that the second
block swaps out, and the graph that it swaps in never gets it -/
theorem update_lost : ¬ ∀ moves, Along (fun _ entry => entry.after.UpToDate) (oneParamRun moves) := by
  intro h
  have hrun := h (firstBlock ++ [.setConfig 44100] ++ List.replicate 6 (.control true) ++ [.dispatchRawParam fun _ => true]
    ++ List.replicate 6 (.control true) ++ List.replicate 25 (.audio true))
  have hgraph := hrun.1 1 3 (fun _ => true) (by decide +kernel) (by decide +kernel) (by decide +kernel) (by decide +kernel)
  exact absurd (congrFun hgraph ()) (by decide +kernel)

end ViperFx.Driver
