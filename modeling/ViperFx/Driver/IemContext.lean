/-
The IEM chain of a context: `src/IemContext.cpp`, with `src/IemGraphSlots.cpp`, `src/IemGraph.cpp` and
`src/IemResources.cpp`.

Calls take turns here. What `IemEngine::Prepare` and `IemEngine::Process` answer is part of the call, so a run ranges over
every answer; a block is its length. A graph is what the context reads of it: its configuration, the parameters its engine
runs with, its resource generation and what is left of its transition.

The control side stages a graph in two ways. `Prepare`, for a new rate, does not cancel a pending graph and is refused
beside one. `TryPrepareDesiredGraph`, for a new structure, cancels a pending graph of another structure, and then leaves
the active graph in place when that has the structure, whatever its rate is.

Results:
  · structural_convergence : after a SUCCESS the graph of the next block has the structure and the resources asked for
  · host_rate              : when no rate is refused or cancelled, blocks run at the rate prepared last
-/
import ViperFx.Driver.GraphSlots
import ViperFx.Iem.IemParams

namespace ViperFx.Driver

open ViperFx.Iem

structure IemGraph where
  config : IemGraphConfig
  params : IemParams
  resourceGeneration : UInt64 := 0
  remainingFrames : ℕ := 0

namespace IemGraph

/-- IemGraph::Prepare, with the answer of its engine -/
def prepare (answer : Bool) (config : IemGraphConfig) (params : IemParams) : Option IemGraph :=
  if iemGraphPrepares config ∧ answer then some { config, params } else none

/-- the fields a graph is built for stay as they are -/
def applyParams (g : IemGraph) (params : IemParams) : IemGraph :=
  { g with params := { params with
      order := g.params.order
      encoderMode := g.params.encoderMode
      renderMode := g.params.renderMode
      latencyProfile := g.params.latencyProfile
      headphoneEq := g.params.headphoneEq } }

def reset (g : IemGraph) : IemGraph := { g with remainingFrames := 0 }

/-- StartDryToWet and StartFadeThroughSilence run equally long -/
def startTransition (g : IemGraph) : IemGraph := { g with remainingFrames := transitionFrames g.config.sampleRate }

end IemGraph

structure IemSlots where
  active : Option IemGraph := none
  pending : Option IemGraph := none
  previous : Option IemGraph := none

namespace IemSlots

/-- the graph that the next block will use -/
def next (g : IemSlots) : Option IemGraph := g.pending.or g.active

def prepareInitial (g : IemSlots) (answer : Bool) (config : IemGraphConfig) (params : IemParams)
    (resourceGeneration : UInt64) : Option IemSlots :=
  if g.active.isSome ∨ g.pending.isSome ∨ g.previous.isSome then none
  else (IemGraph.prepare answer config params).map fun graph => { active := some { graph with resourceGeneration } }

/-- of three graphs one is neither active nor previous; the state that is published has no previous graph -/
def preparePending (g : IemSlots) (answer : Bool) (config : IemGraphConfig) (params : IemParams)
    (resourceGeneration : UInt64) : Option IemSlots :=
  match g.active with
  | none => none
  | some active =>
    if g.pending.isSome ∨ config.generation ≤ active.config.generation then none
    else (IemGraph.prepare answer config params).map fun graph =>
      { active := g.active, pending := some { graph with resourceGeneration } }

def cancelPending (g : IemSlots) : IemSlots := { g with pending := none }

def releasePrevious (g : IemSlots) : IemSlots := { g with previous := none }

end IemSlots

structure IemContext where
  slots : IemSlots := {}
  resourceGeneration : UInt64 := 0
  /-- parameters published since the last block that consumed them -/
  parameterMailbox : Option IemParams := none
  parameterSnapshot : IemParams := {}
  graphGeneration : UInt64 := 0
  hostSampleRate : UInt32 := 0
  maxBlockFrames : ℕ := 0
  lastPreparationResult : IemPreparationResult := .none
  structuralDirty : Bool := false
  prepared : Bool := false

namespace IemContext

/-! ## The control side -/

/-- a graph is ready for the structure asked for -/
def succeed (s : IemContext) : IemContext := { s with structuralDirty := false, lastPreparationResult := .success }

/-- Active()->Transition().StartDryToWet() -/
def startActive (s : IemContext) : IemContext :=
  { s with slots := { s.slots with active := s.slots.active.map (·.startTransition) } }

/-- the configuration of the next graph -/
def graphConfig (s : IemContext) (hostSampleRate : UInt32) (maxBlockFrames : ℕ) : IemGraphConfig :=
  ⟨hostSampleRate, maxBlockFrames, s.graphGeneration + 1⟩

/-- what `Prepare` takes -/
def isSupported (hostSampleRate : UInt32) (maxBlockFrames : ℕ) : Bool :=
  isSupportedSampleRate hostSampleRate && maxBlockFrames != 0 && maxBlockFrames ≤ kMaxBlockFrames

/-- the staging of `Prepare`: a pending graph is not cancelled for it -/
def stage (s : IemContext) (hostSampleRate : UInt32) (maxBlockFrames : ℕ) (answer : Bool) : Option IemSlots :=
  let config := s.graphConfig hostSampleRate maxBlockFrames
  if s.slots.active.isNone then s.slots.prepareInitial answer config s.parameterSnapshot s.resourceGeneration
  else s.slots.preparePending answer config s.parameterSnapshot s.resourceGeneration

/-- what `Prepare` adopts with its graph -/
def accept (s : IemContext) (slots : IemSlots) (hostSampleRate : UInt32) (maxBlockFrames : ℕ) : IemContext :=
  { s with
    slots := slots
    hostSampleRate := hostSampleRate
    maxBlockFrames := maxBlockFrames
    graphGeneration := s.graphGeneration + 1
    prepared := true }.succeed

def prepare (s : IemContext) (hostSampleRate : UInt32) (maxBlockFrames : ℕ) (answer : Bool) : IemContext × Bool :=
  if ¬ isSupported hostSampleRate maxBlockFrames then (s, false)
  else match s.stage hostSampleRate maxBlockFrames answer with
    | none => (s, false)
    | some slots =>
      let s := s.accept slots hostSampleRate maxBlockFrames
      (if slots.pending.isNone ∧ s.parameterSnapshot.enable then s.startActive else s, true)

/-- the lambda `matches_desired` -/
def matchesDesired (s : IemContext) (graph : Option IemGraph) : Bool :=
  graph.any fun g => !hasStructuralDifference g.params s.parameterSnapshot && g.resourceGeneration == s.resourceGeneration

/-- TryPrepareDesiredGraph; CancelPending only ever answers true -/
def tryPrepareDesiredGraph (s : IemContext) (answer : Bool) : IemContext :=
  if ¬ s.prepared ∨ ¬ s.parameterSnapshot.enable then s
  else if s.matchesDesired s.slots.pending then s.succeed
  else
    let s := { s with slots := s.slots.cancelPending }
    if s.matchesDesired s.slots.active then s.succeed
    else match s.slots.preparePending answer (s.graphConfig s.hostSampleRate s.maxBlockFrames) s.parameterSnapshot
        s.resourceGeneration with
      | some slots => { s with slots := slots, graphGeneration := s.graphGeneration + 1 }.succeed
      | none => { s with lastPreparationResult := .failed }

def resetGraph (graph : Option IemGraph) : Option IemGraph := graph.map (·.reset)

def reset (s : IemContext) : IemContext :=
  let s := { s with slots := { active := resetGraph s.slots.active, pending := resetGraph s.slots.pending } }
  if s.slots.active.any (·.params.enable) then s.startActive else s

/-- an update that UpdateIemParameterSnapshot took -/
def dispatchUpdated (s : IemContext) (params : IemParams) (answer : Bool) : IemContext :=
  let structuralChange := hasStructuralDifference s.parameterSnapshot params
  let s := { s with
    parameterSnapshot := params
    structuralDirty := s.structuralDirty || structuralChange
    parameterMailbox := some params }
  if s.parameterSnapshot.enable ∧ s.structuralDirty then s.tryPrepareDesiredGraph answer
  else if structuralChange then { s with lastPreparationResult := .deferred }
  else s

/-- kCommandResetRotation; what it does to the engines is not read -/
def resetRotation (s : IemContext) : IemContext :=
  let values := ((s.parameterSnapshot.dynamic.put kParamRotationYaw 0 0).put kParamRotationPitch 0 0).put kParamRotationRoll 0 0
  let params := { s.parameterSnapshot with dynamic := values }
  { s with parameterSnapshot := params, parameterMailbox := some params }

/-- IemResources::CaptureRaw -/
def captureRaw (s : IemContext) (param val1 : ℤ) : Option UInt64 :=
  if param ≠ kParamIemResourceReset ∨ val1 ≠ 1 ∨ s.resourceGeneration = UInt64.ofNat (2 ^ 64 - 1) then none
  else some (s.resourceGeneration + 1)

def dispatchCommand (s : IemContext) (param val1 : ℤ) (answer : Bool) : IemContext :=
  -- Freeze only reaches the engines of the graphs
  if param = kCommandGranularFreeze then s
  else if param = kCommandResetRotation then s.resetRotation
  else if param = kCommandResetIemRuntime then s.reset
  else match s.captureRaw param val1 with
    | none => s
    | some generation =>
      let s := { s with resourceGeneration := generation, structuralDirty := true }
      if ¬ s.prepared ∨ ¬ s.parameterSnapshot.enable then { s with lastPreparationResult := .deferred }
      else s.tryPrepareDesiredGraph answer

def dispatchRawParam (s : IemContext) (param val1 val2 : ℤ) (answer : Bool) : IemContext × Bool :=
  match updateIemParameterSnapshot s.parameterSnapshot param val1 val2 with
  | (.notIem, _) => (s, false)
  | (.invalid, _) => ({ s with lastPreparationResult := .invalidParameter }, true)
  | (.updated, params) => (s.dispatchUpdated params answer, true)
  | (.command, _) => (s.dispatchCommand param val1 answer, true)

/-! ## The audio side -/

/-- ConsumePending, with the transition of a swapped-in graph -/
def swapPending (s : IemContext) : IemContext :=
  match s.slots.pending with
  | none => s
  | some pending =>
    let previous := s.slots.active
    let transitionNeeded := pending.params.enable || previous.any (·.params.enable)
    let sampleRateChanged := previous.any fun g => g.config.sampleRate ≠ pending.config.sampleRate
    let active := if transitionNeeded then pending.startTransition else pending
    { s with slots := {
        active := some active
        previous := if sampleRateChanged ∨ ¬ transitionNeeded then none else previous } }

def consumeLatest (s : IemContext) : IemContext :=
  match s.parameterMailbox with
  | none => s
  | some latest =>
    { s with
      parameterMailbox := none
      slots := { s.slots with
        active := s.slots.active.map (·.applyParams latest)
        previous := s.slots.previous.map (·.applyParams latest) } }

/-- GraphCrossfade::Apply -/
def IemGraph.fade (g : IemGraph) (frames : ℕ) : IemGraph := { g with remainingFrames := g.remainingFrames - frames }

/-- the graphs of a block, with the answers of their engines -/
def runGraphs (s : IemContext) (active : IemGraph) (frames : ℕ) (activeAnswer previousAnswer : Bool) :
    IemContext × Bool :=
  if ¬ activeAnswer then ({ s with slots := { s.slots.releasePrevious with active := some active.reset } }, false)
  else match s.slots.previous with
    | some _ =>
      if ¬ previousAnswer then ({ s with slots := s.slots.releasePrevious }, false)
      else
        let faded := { s.slots with active := some (IemGraph.fade active frames) }
        ({ s with slots := if active.remainingFrames ≤ frames then faded.releasePrevious else faded }, true)
    | none =>
      (if active.params.enable then { s with slots := { s.slots with active := some (IemGraph.fade active frames) } }
        else s, true)

def process (s : IemContext) (frames : ℕ) (activeAnswer previousAnswer : Bool) : IemContext × Bool :=
  if ¬ s.prepared ∨ frames = 0 ∨ s.maxBlockFrames < frames then (s, false)
  else
    let swapped := s.swapPending
    if swapped.slots.active.isNone then (swapped, false)
    else
      let s := swapped.consumeLatest
      match s.slots.active with
      | none => (s, false)
      | some active => s.runGraphs active frames activeAnswer previousAnswer

end IemContext

/-! ## Runs -/

inductive IemCall where
  | prepare (hostSampleRate : UInt32) (maxBlockFrames : ℕ) (answer : Bool)
  | dispatchRawParam (param val1 val2 : ℤ) (answer : Bool)
  | reset
  | process (frames : ℕ) (activeAnswer previousAnswer : Bool)

def IemCall.run (s : IemContext) : IemCall → IemContext
  | .prepare rate frames answer => (s.prepare rate frames answer).1
  | .dispatchRawParam param val1 val2 answer => (s.dispatchRawParam param val1 val2 answer).1
  | .reset => s.reset
  | .process frames activeAnswer previousAnswer => (s.process frames activeAnswer previousAnswer).1

/-- a context after a sequence of calls -/
def IemContext.after (calls : List IemCall) : IemContext := calls.foldl (fun s call => call.run s) {}

namespace IemContext

/-! ## The structure asked for -/

theorem difference_self (params : IemParams) : hasStructuralDifference params params = false := by
  simp [hasStructuralDifference]

/-- parameters without a structural difference differ from the same ones -/
theorem difference_congr {a b : IemParams} (h : hasStructuralDifference a b = false) (left : IemParams) :
    hasStructuralDifference left b = hasStructuralDifference left a := by
  simp only [hasStructuralDifference, ne_eq, decide_not, Bool.or_eq_false_iff, Bool.not_eq_false', decide_eq_true_eq] at h
  obtain ⟨⟨⟨⟨hencoder, hrender⟩, horder⟩, heq⟩, hlatency⟩ := h
  simp only [hasStructuralDifference, hencoder, hrender, horder, heq, hlatency]

/-- a SUCCESS is only reported for a prepared context, and then the next graph is the one asked for -/
def Converged (s : IemContext) : Prop :=
  s.lastPreparationResult = .success → s.prepared = true ∧ s.matchesDesired s.slots.next = true

/-- matches_desired reads the structure and the resource generation of a graph -/
theorem matchesDesired_map (s : IemContext) (f : IemGraph → IemGraph)
    (hparams : ∀ g, hasStructuralDifference (f g).params s.parameterSnapshot
      = hasStructuralDifference g.params s.parameterSnapshot)
    (hresources : ∀ g, (f g).resourceGeneration = g.resourceGeneration) (graph : Option IemGraph) :
    s.matchesDesired (graph.map f) = s.matchesDesired graph := by
  cases graph with
  | none => rfl
  | some g => simp [matchesDesired, hparams, hresources]

theorem matchesDesired_prepared {s : IemContext} {answer : Bool} {config : IemGraphConfig} {graph : IemGraph}
    (h : IemGraph.prepare answer config s.parameterSnapshot = some graph) :
    s.matchesDesired (some { graph with resourceGeneration := s.resourceGeneration }) = true := by
  unfold IemGraph.prepare at h
  split_ifs at h
  obtain rfl := Option.some.inj h
  simp [matchesDesired, difference_self]

/-- everything PreparePending can do -/
theorem preparePending_cases (g : IemSlots) (answer : Bool) (config : IemGraphConfig) (params : IemParams)
    (resourceGeneration : UInt64) :
    g.preparePending answer config params resourceGeneration = none ∨
      ∃ active graph, g.active = some active ∧ g.pending = none ∧ ¬ config.generation ≤ active.config.generation ∧
        IemGraph.prepare answer config params = some graph ∧
        g.preparePending answer config params resourceGeneration =
          some { active := some active, pending := some { graph with resourceGeneration } } := by
  unfold IemSlots.preparePending
  cases hactive : g.active with
  | none => exact .inl rfl
  | some active =>
    dsimp only
    by_cases hrefused : g.pending.isSome ∨ config.generation ≤ active.config.generation
    · exact .inl (by rw [if_pos hrefused])
    · rw [if_neg hrefused]
      simp only [not_or, Option.not_isSome_iff_eq_none] at hrefused
      cases hgraph : IemGraph.prepare answer config params with
      | none => exact .inl rfl
      | some graph => exact .inr ⟨active, graph, rfl, hrefused.1, hrefused.2, rfl, rfl⟩

/-- everything `Prepare` can stage -/
theorem stage_cases (s : IemContext) (rate : UInt32) (frames : ℕ) (answer : Bool) :
    s.stage rate frames answer = none ∨
    ∃ graph, IemGraph.prepare answer (s.graphConfig rate frames) s.parameterSnapshot = some graph ∧
      (s.stage rate frames answer = some { active := some { graph with resourceGeneration := s.resourceGeneration } } ∨
      ∃ active, s.slots.active = some active ∧ s.slots.pending = none ∧ s.stage rate frames answer =
        some { active := some active, pending := some { graph with resourceGeneration := s.resourceGeneration } }) := by
  unfold stage
  dsimp only
  cases hactive : s.slots.active with
  | none =>
    have hnone : (none : Option IemGraph).isNone = true := rfl
    rw [if_pos hnone]
    unfold IemSlots.prepareInitial
    split_ifs
    · exact .inl rfl
    · cases hgraph : IemGraph.prepare answer (s.graphConfig rate frames) s.parameterSnapshot with
      | none => exact .inl rfl
      | some graph => exact .inr ⟨graph, rfl, .inl rfl⟩
  | some active =>
    have hsome : ¬ (some active).isNone = true := by simp
    rw [if_neg hsome]
    obtain hnone | ⟨a, graph, ha, hpending, -, hgraph, hslots⟩ :=
      preparePending_cases s.slots answer (s.graphConfig rate frames) s.parameterSnapshot s.resourceGeneration
    · exact .inl hnone
    · obtain rfl : active = a := Option.some.inj (hactive.symm.trans ha)
      exact .inr ⟨graph, hgraph, .inr ⟨active, rfl, hpending, hslots⟩⟩

theorem prepare_converged {s : IemContext} (h : s.Converged) (rate : UInt32) (frames : ℕ) (answer : Bool) :
    (s.prepare rate frames answer).1.Converged := by
  unfold prepare
  by_cases hsupported : isSupported rate frames
  swap
  · rw [if_pos hsupported]
    exact h
  · rw [if_neg (not_not.2 hsupported)]
    obtain hnone | ⟨graph, hgraph, hslots | ⟨active, -, -, hslots⟩⟩ := stage_cases s rate frames answer
    · rw [hnone]
      exact h
    · rw [hslots]
      intro _
      have hmatch := matchesDesired_prepared hgraph
      dsimp only
      split_ifs
      · exact ⟨rfl, hmatch⟩
      · exact ⟨rfl, hmatch⟩
    · rw [hslots]
      intro _
      have hmatch := matchesDesired_prepared hgraph
      dsimp only
      split_ifs
      · exact ⟨rfl, hmatch⟩
      · exact ⟨rfl, hmatch⟩

/-- everything TryPrepareDesiredGraph can do -/
inductive Tried (s : IemContext) (answer : Bool) : IemContext → Prop
  | idle (hidle : ¬ (s.prepared = true ∧ s.parameterSnapshot.enable = true)) : Tried s answer s
  | kept (hprepared : s.prepared = true) (hpending : s.matchesDesired s.slots.pending = true) : Tried s answer s.succeed
  | fallen (hprepared : s.prepared = true) (henable : s.parameterSnapshot.enable = true)
      (hpending : ¬ s.matchesDesired s.slots.pending = true) (hactive : s.matchesDesired s.slots.active = true) :
      Tried s answer ({ s with slots := s.slots.cancelPending } : IemContext).succeed
  | staged (slots : IemSlots) (hprepared : s.prepared = true)
      (hslots : s.slots.cancelPending.preparePending answer (s.graphConfig s.hostSampleRate s.maxBlockFrames)
        s.parameterSnapshot s.resourceGeneration = some slots) :
      Tried s answer ({ s with slots := slots, graphGeneration := s.graphGeneration + 1 } : IemContext).succeed
  | failed (hprepared : s.prepared = true) (henable : s.parameterSnapshot.enable = true)
      (hpending : ¬ s.matchesDesired s.slots.pending = true) (hactive : ¬ s.matchesDesired s.slots.active = true)
      (hslots : s.slots.cancelPending.preparePending answer (s.graphConfig s.hostSampleRate s.maxBlockFrames)
        s.parameterSnapshot s.resourceGeneration = none) :
      Tried s answer { s with slots := s.slots.cancelPending, lastPreparationResult := .failed }

theorem tryPrepare_tried (s : IemContext) (answer : Bool) : Tried s answer (s.tryPrepareDesiredGraph answer) := by
  unfold tryPrepareDesiredGraph
  by_cases hidle : ¬ s.prepared ∨ ¬ s.parameterSnapshot.enable
  · rw [if_pos hidle]
    exact .idle (fun h => hidle.elim (absurd h.1) (absurd h.2))
  · rw [if_neg hidle]
    simp only [not_or, not_not] at hidle
    obtain ⟨hprepared, henable⟩ := hidle
    dsimp only
    split_ifs with hpending hactive
    · exact .kept hprepared hpending
    · exact .fallen hprepared henable hpending hactive
    · rw [show graphConfig { s with slots := s.slots.cancelPending } s.hostSampleRate s.maxBlockFrames =
        s.graphConfig s.hostSampleRate s.maxBlockFrames from rfl]
      cases hslots : s.slots.cancelPending.preparePending answer (s.graphConfig s.hostSampleRate s.maxBlockFrames)
        s.parameterSnapshot s.resourceGeneration with
      | some slots => exact .staged slots hprepared hslots
      | none => exact .failed hprepared henable hpending hactive hslots

/-- TryPrepareDesiredGraph may only change nothing where no SUCCESS stands -/
theorem tryPrepare_converged {s : IemContext} (answer : Bool) (henable : s.parameterSnapshot.enable = true)
    (hprepared : s.lastPreparationResult = .success → s.prepared = true) :
    (s.tryPrepareDesiredGraph answer).Converged := by
  have htried := tryPrepare_tried s answer
  generalize s.tryPrepareDesiredGraph answer = s' at htried ⊢
  cases htried with
  | idle hidle =>
    intro hsuccess
    exact absurd ⟨hprepared hsuccess, henable⟩ hidle
  | kept hready hpending =>
    intro _
    refine ⟨hready, ?_⟩
    cases hslot : s.slots.pending with
    | none => simp [hslot, matchesDesired] at hpending
    | some pending =>
      rw [hslot] at hpending
      show s.matchesDesired (s.slots.pending.or s.slots.active) = true
      rw [hslot]
      exact hpending
  | fallen hready _ _ hactive =>
    intro _
    exact ⟨hready, hactive⟩
  | staged slots hready hslots =>
    intro _
    obtain hnone | ⟨active, graph, -, -, -, hgraph, hstaged⟩ := preparePending_cases s.slots.cancelPending answer
      (s.graphConfig s.hostSampleRate s.maxBlockFrames) s.parameterSnapshot s.resourceGeneration
    · rw [hnone] at hslots
      cases hslots
    · obtain rfl := Option.some.inj (hstaged.symm.trans hslots)
      exact ⟨hready, matchesDesired_prepared hgraph⟩
  | failed _ _ _ _ _ =>
    intro hsuccess
    cases hsuccess

theorem resetGraph_matches (s : IemContext) (graph : Option IemGraph) :
    s.matchesDesired (resetGraph graph) = s.matchesDesired graph :=
  matchesDesired_map s IemGraph.reset (fun _ => rfl) (fun _ => rfl) graph

theorem startTransition_matches (s : IemContext) (graph : Option IemGraph) :
    s.matchesDesired (graph.map (·.startTransition)) = s.matchesDesired graph :=
  matchesDesired_map s IemGraph.startTransition (fun _ => rfl) (fun _ => rfl) graph

theorem applyParams_matches (s : IemContext) (params : IemParams) (graph : Option IemGraph) :
    s.matchesDesired (graph.map (·.applyParams params)) = s.matchesDesired graph :=
  matchesDesired_map s (IemGraph.applyParams · params) (fun _ => rfl) (fun _ => rfl) graph

/-- a graph of the next block matches when the two graphs it comes from do -/
theorem matchesDesired_or (s : IemContext) {pending pending' active active' : Option IemGraph}
    (hpending : s.matchesDesired pending' = s.matchesDesired pending) (hsome : pending'.isSome = pending.isSome)
    (hactive : s.matchesDesired active' = s.matchesDesired active) :
    s.matchesDesired (pending'.or active') = s.matchesDesired (pending.or active) := by
  cases pending <;> cases pending' <;> simp_all

theorem reset_converged {s : IemContext} (h : s.Converged) : s.reset.Converged := by
  intro hsuccess
  have hresult : s.lastPreparationResult = .success := by
    unfold reset at hsuccess
    dsimp only at hsuccess
    split_ifs at hsuccess <;> exact hsuccess
  obtain ⟨hprepared, hmatch⟩ := h hresult
  have hpending : (resetGraph s.slots.pending).isSome = s.slots.pending.isSome := by
    cases s.slots.pending <;> rfl
  unfold reset
  dsimp only
  split_ifs
  · refine ⟨hprepared, ?_⟩
    calc s.matchesDesired ((resetGraph s.slots.pending).or ((resetGraph s.slots.active).map (·.startTransition)))
        = s.matchesDesired (s.slots.pending.or s.slots.active) :=
          s.matchesDesired_or (resetGraph_matches s _) hpending
            ((startTransition_matches s _).trans (resetGraph_matches s _))
      _ = true := hmatch
  · refine ⟨hprepared, ?_⟩
    calc s.matchesDesired ((resetGraph s.slots.pending).or (resetGraph s.slots.active))
        = s.matchesDesired (s.slots.pending.or s.slots.active) :=
          s.matchesDesired_or (resetGraph_matches s _) hpending (resetGraph_matches s _)
      _ = true := hmatch

/-- a change of the snapshot that is not structural leaves what matches -/
theorem Converged.of_snapshot {s s' : IemContext} (h : s.Converged)
    (hresult : s'.lastPreparationResult = s.lastPreparationResult) (hprepared : s'.prepared = s.prepared)
    (hslots : s'.slots = s.slots) (hgeneration : s'.resourceGeneration = s.resourceGeneration)
    (hsame : hasStructuralDifference s.parameterSnapshot s'.parameterSnapshot = false) : s'.Converged := by
  intro hsuccess
  obtain ⟨hready, hmatch⟩ := h (hresult.symm.trans hsuccess)
  refine ⟨hprepared.trans hready, ?_⟩
  rw [hslots]
  have hgraph (graph : Option IemGraph) : s'.matchesDesired graph = s.matchesDesired graph := by
    simp only [matchesDesired, hgeneration, difference_congr hsame]
  rw [hgraph]
  exact hmatch

theorem dispatchUpdated_converged {s : IemContext} (h : s.Converged) (params : IemParams) (answer : Bool) :
    (s.dispatchUpdated params answer).Converged := by
  unfold dispatchUpdated
  dsimp only
  split_ifs with htry hchange
  · exact tryPrepare_converged answer htry.1 (fun hsuccess => (h hsuccess).1)
  · intro hsuccess
    cases hsuccess
  · exact h.of_snapshot rfl rfl rfl rfl (by simpa using hchange)

theorem dispatchCommand_converged {s : IemContext} (h : s.Converged) (param val1 : ℤ) (answer : Bool) :
    (s.dispatchCommand param val1 answer).Converged := by
  unfold dispatchCommand
  split_ifs
  · exact h
  · exact h.of_snapshot rfl rfl rfl rfl (by simp [resetRotation, hasStructuralDifference])
  · exact reset_converged h
  · cases hcapture : s.captureRaw param val1 with
    | none => exact h
    | some generation =>
      dsimp only
      split_ifs with hidle
      · intro hsuccess
        cases hsuccess
      · simp only [not_or, not_not] at hidle
        exact tryPrepare_converged answer hidle.2 (fun _ => hidle.1)

theorem dispatchRawParam_converged {s : IemContext} (h : s.Converged) (param val1 val2 : ℤ) (answer : Bool) :
    (s.dispatchRawParam param val1 val2 answer).1.Converged := by
  unfold dispatchRawParam
  rcases updateIemParameterSnapshot s.parameterSnapshot param val1 val2 with ⟨result, params⟩
  cases result with
  | notIem => exact h
  | updated => exact dispatchUpdated_converged h params answer
  | command => exact dispatchCommand_converged h param val1 answer
  | invalid =>
    intro hsuccess
    cases hsuccess

/-- the swap makes the next graph the active one -/
theorem swapPending_next (s : IemContext) :
    s.swapPending.slots.pending = none ∧ s.matchesDesired s.swapPending.slots.active = s.matchesDesired s.slots.next := by
  unfold swapPending
  cases hpending : s.slots.pending with
  | none => exact ⟨hpending, by rw [IemSlots.next, hpending]; rfl⟩
  | some pending =>
    refine ⟨rfl, ?_⟩
    rw [IemSlots.next, hpending]
    dsimp only
    split_ifs
    · exact startTransition_matches s (some pending)
    · rfl

theorem swapPending_converged {s : IemContext} (h : s.Converged) : s.swapPending.Converged := by
  have hsame : s.swapPending.lastPreparationResult = s.lastPreparationResult ∧ s.swapPending.prepared = s.prepared ∧
      ∀ graph, s.swapPending.matchesDesired graph = s.matchesDesired graph := by
    unfold swapPending
    cases s.slots.pending <;> exact ⟨rfl, rfl, fun _ => rfl⟩
  obtain ⟨hresult, hprepared, hmatches⟩ := hsame
  obtain ⟨hnone, hactive⟩ := s.swapPending_next
  intro hsuccess
  obtain ⟨hready, hmatch⟩ := h (hresult.symm.trans hsuccess)
  refine ⟨hprepared.trans hready, ?_⟩
  rw [hmatches, IemSlots.next, hnone, Option.none_or, hactive]
  exact hmatch

theorem consumeLatest_converged {s : IemContext} (h : s.Converged) : s.consumeLatest.Converged := by
  unfold consumeLatest
  cases s.parameterMailbox with
  | none => exact h
  | some latest =>
    intro hsuccess
    obtain ⟨hready, hmatch⟩ := h hsuccess
    refine ⟨hready, ?_⟩
    calc s.matchesDesired (s.slots.pending.or (s.slots.active.map (·.applyParams latest)))
        = s.matchesDesired (s.slots.pending.or s.slots.active) :=
          s.matchesDesired_or rfl rfl (applyParams_matches s latest _)
      _ = true := hmatch

/-- everything a block does to the context once its graphs are known: a pending graph is left alone, and of the active one
only the transition changes -/
theorem runGraphs_cases {s : IemContext} {active : IemGraph} (hactive : s.slots.active = some active) (frames : ℕ)
    (activeAnswer previousAnswer : Bool) :
    ∃ remaining previous, (s.runGraphs active frames activeAnswer previousAnswer).1 = { s with slots := {
      active := some { active with remainingFrames := remaining }, pending := s.slots.pending, previous := previous } } := by
  unfold runGraphs
  rcases hslots : s.slots with ⟨slotActive, pending, previous⟩
  rw [hslots] at hactive
  dsimp only at hactive
  subst hactive
  cases activeAnswer with
  | false => exact ⟨_, _, rfl⟩
  | true =>
    cases previous with
    | some previous =>
      cases previousAnswer with
      | false => exact ⟨_, _, rfl⟩
      | true =>
        by_cases hdone : active.remainingFrames ≤ frames
        · refine ⟨active.remainingFrames - frames, none, ?_⟩
          simp [hdone, IemSlots.releasePrevious, IemGraph.fade]
        · refine ⟨active.remainingFrames - frames, some previous, ?_⟩
          simp [hdone, IemGraph.fade]
    | none =>
      by_cases henable : active.params.enable = true
      · refine ⟨active.remainingFrames - frames, none, ?_⟩
        simp [henable, IemGraph.fade]
      · refine ⟨active.remainingFrames, none, ?_⟩
        simp only [henable, Bool.false_eq_true, if_false, not_true_eq_false]
        rw [← hslots]

theorem runGraphs_converged {s : IemContext} (h : s.Converged) {active : IemGraph} (hactive : s.slots.active = some active)
    (frames : ℕ) (activeAnswer previousAnswer : Bool) :
    (s.runGraphs active frames activeAnswer previousAnswer).1.Converged := by
  obtain ⟨remaining, previous, hran⟩ := runGraphs_cases hactive frames activeAnswer previousAnswer
  rw [hran]
  intro hsuccess
  obtain ⟨hready, hnext⟩ := h hsuccess
  refine ⟨hready, ?_⟩
  calc s.matchesDesired (s.slots.pending.or (some { active with remainingFrames := remaining }))
      = s.matchesDesired (s.slots.pending.or s.slots.active) :=
        s.matchesDesired_or rfl rfl (by rw [hactive]; rfl)
    _ = true := hnext

theorem process_converged {s : IemContext} (h : s.Converged) (frames : ℕ) (activeAnswer previousAnswer : Bool) :
    (s.process frames activeAnswer previousAnswer).1.Converged := by
  unfold process
  dsimp only
  split_ifs
  · exact h
  · exact swapPending_converged h
  · have hlatest := consumeLatest_converged (swapPending_converged h)
    cases hactive : s.swapPending.consumeLatest.slots.active with
    | none => exact hlatest
    | some active => exact runGraphs_converged hlatest hactive frames activeAnswer previousAnswer

theorem call_converged {s : IemContext} (h : s.Converged) (call : IemCall) : (call.run s).Converged := by
  cases call with
  | prepare rate frames answer => exact prepare_converged h rate frames answer
  | dispatchRawParam param val1 val2 answer => exact dispatchRawParam_converged h param val1 val2 answer
  | reset => exact reset_converged h
  | process frames activeAnswer previousAnswer => exact process_converged h frames activeAnswer previousAnswer

theorem run_converged (calls : List IemCall) : (IemContext.after calls).Converged := by
  have hrun (s : IemContext) (h : s.Converged) : (calls.foldl (fun s call => call.run s) s).Converged := by
    induction calls generalizing s with
    | nil => exact h
    | cons call calls ih => exact ih _ (call_converged h call)
  refine hrun {} ?_
  intro hsuccess
  cases hsuccess

/-- **Structural convergence.** After any calls, when the context is prepared and enabled and the last preparation was a
SUCCESS, the graph of the next block has the structure of the snapshot and the current resources. -/
theorem structural_convergence (calls : List IemCall) :
    (IemContext.after calls).prepared = true → (IemContext.after calls).parameterSnapshot.enable = true →
    (IemContext.after calls).lastPreparationResult = .success →
    ∃ g, (IemContext.after calls).slots.next = some g ∧
      hasStructuralDifference g.params (IemContext.after calls).parameterSnapshot = false ∧
      g.resourceGeneration = (IemContext.after calls).resourceGeneration := by
  intro _ _ hsuccess
  obtain ⟨-, hmatch⟩ := run_converged calls hsuccess
  cases hnext : (IemContext.after calls).slots.next with
  | none => simp [hnext, matchesDesired] at hmatch
  | some g =>
    refine ⟨g, rfl, ?_⟩
    simpa [hnext, matchesDesired] using hmatch

/-- an order set while disabled, and the switch -/
theorem structural_convergence_restored :
    ∃ g, (IemContext.after [.prepare 48000 256 true, .dispatchRawParam kParamIemOrder 2 0 true,
        .dispatchRawParam kParamIemEnable 1 0 true]).slots.next = some g ∧
      hasStructuralDifference g.params (IemContext.after [.prepare 48000 256 true,
        .dispatchRawParam kParamIemOrder 2 0 true, .dispatchRawParam kParamIemEnable 1 0 true]).parameterSnapshot = false ∧
      g.resourceGeneration = (IemContext.after [.prepare 48000 256 true, .dispatchRawParam kParamIemOrder 2 0 true,
        .dispatchRawParam kParamIemEnable 1 0 true]).resourceGeneration :=
  structural_convergence [.prepare 48000 256 true, .dispatchRawParam kParamIemOrder 2 0 true,
    .dispatchRawParam kParamIemEnable 1 0 true] (by decide) (by decide) (by decide)

/-! ## The rate asked for -/

/-- the rate of the latest `Prepare` with supported arguments -/
def requestedRate (calls : List IemCall) : Option UInt32 :=
  calls.foldl (fun rate call =>
    match call with
    | .prepare hostSampleRate maxBlockFrames _ => if isSupported hostSampleRate maxBlockFrames then some hostSampleRate else rate
    | _ => rate) none

/-- a graph of the next generation would be newer than the active one -/
def newer (s : IemContext) (active : IemGraph) : Prop := ¬ s.graphGeneration + 1 ≤ active.config.generation

/-- the context in which a command calls TryPrepareDesiredGraph, when it does -/
def desired (s : IemContext) (param val1 val2 : ℤ) : Option IemContext :=
  match updateIemParameterSnapshot s.parameterSnapshot param val1 val2 with
  | (.updated, params) =>
    let s := { s with
      parameterSnapshot := params
      structuralDirty := s.structuralDirty || hasStructuralDifference s.parameterSnapshot params
      parameterMailbox := some params }
    if s.parameterSnapshot.enable ∧ s.structuralDirty then some s else none
  | (.command, _) =>
    if param = kCommandGranularFreeze ∨ param = kCommandResetRotation ∨ param = kCommandResetIemRuntime then none
    else match s.captureRaw param val1 with
      | none => none
      | some generation => some { s with resourceGeneration := generation, structuralDirty := true }
  | _ => none

/-- a call does not lose the rate: a new rate finds no pending graph and an engine that takes it, and a pending graph of
a new rate is only cancelled for another one -/
def KeepsRate (s : IemContext) : IemCall → Prop
  | .prepare rate frames answer => isSupported rate frames → s.slots.active = none ∨ s.hostSampleRate = rate ∨
      s.slots.pending = none ∧ answer = true ∧ ∀ active ∈ s.slots.active, s.newer active
  | .dispatchRawParam param val1 val2 answer => ∀ d ∈ s.desired param val1 val2, ∀ active ∈ s.slots.active,
      s.slots.pending.isSome → active.config.sampleRate ≠ s.hostSampleRate → d.parameterSnapshot.enable = true →
      d.matchesDesired s.slots.pending = true ∨
        d.matchesDesired s.slots.active = false ∧ answer = true ∧ s.newer active
  | .reset => True
  | .process _ _ _ => True

/-- every call of a run keeps the rate -/
def Steady (s : IemContext) : List IemCall → Prop
  | [] => True
  | call :: calls => s.KeepsRate call ∧ Steady (call.run s) calls

/-- the next graph runs at the host's rate, which is the rate asked for; the frames are supported -/
structure AtRate (s : IemContext) (rate : Option UInt32) : Prop where
  unprepared : s.prepared = false → s.slots.active = none ∧ s.slots.pending = none
  filled : s.prepared = true → s.slots.active.isSome
  host : s.prepared = true → rate = some s.hostSampleRate
  next : ∀ g ∈ s.slots.next, g.config.sampleRate = s.hostSampleRate
  supported : s.prepared = true → isSupported s.hostSampleRate s.maxBlockFrames = true

/-- a change that leaves preparation, and which graphs there are with which configuration -/
structure SameGraphs (s s' : IemContext) : Prop where
  prepared : s'.prepared = s.prepared
  host : s'.hostSampleRate = s.hostSampleRate
  frames : s'.maxBlockFrames = s.maxBlockFrames
  active : s'.slots.active.map (·.config) = s.slots.active.map (·.config)
  pending : s'.slots.pending.map (·.config) = s.slots.pending.map (·.config)

theorem SameGraphs.of_eq {s s' : IemContext} (hprepared : s'.prepared = s.prepared)
    (hhost : s'.hostSampleRate = s.hostSampleRate) (hframes : s'.maxBlockFrames = s.maxBlockFrames)
    (hslots : s'.slots = s.slots) : SameGraphs s s' :=
  ⟨hprepared, hhost, hframes, by rw [hslots], by rw [hslots]⟩

theorem next_config (g : IemSlots) :
    g.next.map (·.config) = (g.pending.map (·.config)).or (g.active.map (·.config)) := by
  cases h : g.pending <;> simp [IemSlots.next, h]

theorem map_none {x y : Option IemGraph} (h : y.map (·.config) = x.map (·.config)) (hx : x = none) : y = none := by
  subst hx
  simpa using h

theorem map_isSome {x y : Option IemGraph} (h : y.map (·.config) = x.map (·.config)) : y.isSome = x.isSome := by
  have := congrArg Option.isSome h
  simpa using this

/-- the configuration of a graph that changed otherwise is that of the graph before -/
theorem map_mem {x y : Option IemGraph} (h : y.map (·.config) = x.map (·.config)) {g : IemGraph} (hg : g ∈ y) :
    ∃ g' ∈ x, g'.config = g.config := by
  obtain rfl : y = some g := hg
  cases x with
  | none => simp at h
  | some g' => exact ⟨g', rfl, by simpa using h.symm⟩

theorem AtRate.same {s s' : IemContext} {rate : Option UInt32} (h : AtRate s rate) (hsame : SameGraphs s s') :
    AtRate s' rate where
  unprepared := by
    intro hunprepared
    obtain ⟨hactive, hpending⟩ := h.unprepared (hsame.prepared.symm.trans hunprepared)
    exact ⟨map_none hsame.active hactive, map_none hsame.pending hpending⟩
  filled := by
    intro hprepared
    rw [map_isSome hsame.active]
    exact h.filled (hsame.prepared.symm.trans hprepared)
  host := by
    intro hprepared
    rw [hsame.host]
    exact h.host (hsame.prepared.symm.trans hprepared)
  next := by
    intro g hg
    have hnext : s'.slots.next.map (·.config) = s.slots.next.map (·.config) := by
      rw [next_config, next_config, hsame.active, hsame.pending]
    obtain ⟨g', hg', hconfig⟩ := map_mem hnext hg
    rw [← hconfig, hsame.host]
    exact h.next g' hg'
  supported := by
    intro hprepared
    rw [hsame.host, hsame.frames]
    exact h.supported (hsame.prepared.symm.trans hprepared)

theorem reset_same (s : IemContext) : SameGraphs s s.reset := by
  have hreset (graph : Option IemGraph) : (resetGraph graph).map (·.config) = graph.map (·.config) := by
    cases graph <;> rfl
  have hstart (graph : Option IemGraph) :
      ((resetGraph graph).map (·.startTransition)).map (·.config) = graph.map (·.config) := by
    cases graph <;> rfl
  unfold reset
  dsimp only
  split_ifs
  · exact ⟨rfl, rfl, rfl, hstart _, hreset _⟩
  · exact ⟨rfl, rfl, rfl, hreset _, hreset _⟩

theorem consumeLatest_same (s : IemContext) : SameGraphs s s.consumeLatest := by
  unfold consumeLatest
  cases s.parameterMailbox with
  | none => exact ⟨rfl, rfl, rfl, rfl, rfl⟩
  | some latest =>
    have happly (graph : Option IemGraph) : (graph.map (·.applyParams latest)).map (·.config) = graph.map (·.config) := by
      cases graph <;> rfl
    exact ⟨rfl, rfl, rfl, happly _, rfl⟩

/-- a supported configuration of a next generation is one that IemGraph::Prepare takes -/
theorem graph_prepares {rate : UInt32} {frames : ℕ} {generation : UInt64} (hsupported : isSupported rate frames = true)
    (hgeneration : generation ≠ 0) : iemGraphPrepares ⟨rate, frames, generation⟩ = true := by
  simp only [isSupported, Bool.and_eq_true] at hsupported
  simp [iemGraphPrepares, hsupported, hgeneration]

theorem newer_generation {s : IemContext} {active : IemGraph} (h : s.newer active) : s.graphGeneration + 1 ≠ 0 := by
  intro hzero
  unfold newer at h
  rw [hzero] at h
  exact h UInt64.zero_le

/-- PreparePending takes what nothing is in the way of -/
theorem preparePending_accepts {g : IemSlots} (config : IemGraphConfig) (params : IemParams) (resourceGeneration : UInt64)
    {active : IemGraph} (hactive : g.active = some active) (hpending : g.pending = none)
    (hnewer : ¬ config.generation ≤ active.config.generation) (hprepares : iemGraphPrepares config = true) :
    ∃ graph, graph.config = config ∧
      g.preparePending true config params resourceGeneration = some { active := some active, pending := some graph } := by
  refine ⟨{ config, params, resourceGeneration }, rfl, ?_⟩
  unfold IemSlots.preparePending IemGraph.prepare
  simp [hactive, hpending, hnewer, hprepares]

theorem startActive_same (s : IemContext) : SameGraphs s s.startActive := by
  refine ⟨rfl, rfl, rfl, ?_, rfl⟩
  unfold startActive
  cases s.slots.active <;> rfl

theorem prepare_config {answer : Bool} {config : IemGraphConfig} {params : IemParams} {graph : IemGraph}
    (h : IemGraph.prepare answer config params = some graph) : graph.config = config := by
  unfold IemGraph.prepare at h
  split_ifs at h
  obtain rfl := Option.some.inj h
  rfl

theorem unprepared_of_empty {s : IemContext} {rate : Option UInt32} (h : AtRate s rate) (hactive : s.slots.active = none) :
    s.prepared = false := by
  by_contra hprepared
  have hfilled := h.filled (by simpa using hprepared)
  rw [hactive] at hfilled
  cases hfilled

/-- a rate that is refused is one that the context already has -/
theorem refused_atRate {s : IemContext} {rate : Option UInt32} (h : AtRate s rate) {newRate : UInt32} {frames : ℕ}
    {answer : Bool} (hsupported : isSupported newRate frames = true) (hkeeps : s.KeepsRate (.prepare newRate frames answer))
    (hrefused : s.stage newRate frames answer = none) : AtRate s (some newRate) := by
  cases hactive : s.slots.active with
  | none =>
    have hunprepared := unprepared_of_empty h hactive
    exact ⟨h.unprepared, by simp [hunprepared], by simp [hunprepared], h.next, by simp [hunprepared]⟩
  | some active =>
    obtain hnone | hhost | ⟨hpending, rfl, hnewer⟩ := hkeeps hsupported
    · rw [hactive] at hnone
      cases hnone
    · exact ⟨h.unprepared, h.filled, fun _ => by rw [hhost], h.next, h.supported⟩
    · exfalso
      have hnew := hnewer active hactive
      obtain ⟨graph, -, hslots⟩ := preparePending_accepts (s.graphConfig newRate frames) s.parameterSnapshot
        s.resourceGeneration hactive hpending hnew (graph_prepares hsupported (newer_generation hnew))
      unfold stage at hrefused
      simp [hactive, hslots] at hrefused

theorem accept_atRate (s : IemContext) {slots : IemSlots} {newRate : UInt32} {frames : ℕ}
    (hsupported : isSupported newRate frames = true) (hactive : slots.active.isSome = true)
    (hnext : ∀ g ∈ slots.next, g.config.sampleRate = newRate) : AtRate (s.accept slots newRate frames) (some newRate) :=
  ⟨nofun, fun _ => hactive, fun _ => rfl, hnext, fun _ => hsupported⟩

theorem prepare_atRate {s : IemContext} {rate : Option UInt32} (h : AtRate s rate) {newRate : UInt32} {frames : ℕ}
    {answer : Bool} (hkeeps : s.KeepsRate (.prepare newRate frames answer)) :
    AtRate (s.prepare newRate frames answer).1 (if isSupported newRate frames then some newRate else rate) := by
  unfold prepare
  by_cases hsupported : isSupported newRate frames
  · rw [if_neg (not_not.2 hsupported), if_pos hsupported]
    cases hstage : s.stage newRate frames answer with
    | none => exact refused_atRate h hsupported hkeeps hstage
    | some slots =>
      have hslots : slots.active.isSome = true ∧ ∀ g ∈ slots.next, g.config.sampleRate = newRate := by
        obtain hnone | ⟨graph, hgraph, hsome | ⟨active, -, -, hsome⟩⟩ := stage_cases s newRate frames answer
        · rw [hnone] at hstage
          cases hstage
        all_goals
          obtain rfl := Option.some.inj (hsome.symm.trans hstage)
          have hrate : graph.config.sampleRate = newRate := by rw [prepare_config hgraph]; rfl
          simp [IemSlots.next, hrate]
      have haccepted := accept_atRate s hsupported hslots.1 hslots.2
      dsimp only
      split_ifs
      · exact haccepted.same (startActive_same _)
      · exact haccepted
  · rw [if_pos hsupported, if_neg hsupported]
    exact h

/-- a graph of the host's rate is staged, or the active one, of the host's rate, is left -/
theorem restaged_atRate {s : IemContext} {rate : Option UInt32} (h : AtRate s rate) (hprepared : s.prepared = true)
    {slots : IemSlots} (hactive : slots.active.isSome) (hnext : ∀ g ∈ slots.next, g.config.sampleRate = s.hostSampleRate)
    {s' : IemContext} (hslots : s'.slots = slots) (hprepared' : s'.prepared = s.prepared)
    (hhost : s'.hostSampleRate = s.hostSampleRate) (hframes : s'.maxBlockFrames = s.maxBlockFrames) : AtRate s' rate := by
  refine ⟨by simp [hprepared', hprepared], ?_, ?_, ?_, ?_⟩
  · intro _
    rw [hslots]
    exact hactive
  · intro _
    rw [hhost]
    exact h.host hprepared
  · rw [hslots, hhost]
    exact hnext
  · intro _
    rw [hhost, hframes]
    exact h.supported hprepared

/-- TryPrepareDesiredGraph keeps the rate when it keeps the pending graph, stages another, or falls back to an active
graph of the host's rate -/
theorem tryPrepare_atRate {s : IemContext} {rate : Option UInt32} (h : AtRate s rate) (answer : Bool)
    (hkeeps : s.parameterSnapshot.enable = true → ∀ active ∈ s.slots.active, s.slots.pending.isSome →
      active.config.sampleRate ≠ s.hostSampleRate →
      s.matchesDesired s.slots.pending = true ∨ s.matchesDesired s.slots.active = false ∧ answer = true ∧ s.newer active) :
    AtRate (s.tryPrepareDesiredGraph answer) rate := by
  have htried := tryPrepare_tried s answer
  generalize s.tryPrepareDesiredGraph answer = s' at htried ⊢
  -- without a pending graph of the structure, the active one has the host's rate, or a graph of it can be staged
  have hfallback (hprepared : s.prepared = true) (henable : s.parameterSnapshot.enable = true)
      (hpending : ¬ s.matchesDesired s.slots.pending = true) : ∃ active, s.slots.active = some active ∧
        (active.config.sampleRate = s.hostSampleRate ∨
          s.matchesDesired s.slots.active = false ∧ answer = true ∧ s.newer active) := by
    obtain ⟨active, hactive⟩ := Option.isSome_iff_exists.1 (h.filled hprepared)
    refine ⟨active, hactive, ?_⟩
    by_cases hrate : active.config.sampleRate = s.hostSampleRate
    · exact .inl hrate
    · cases hslot : s.slots.pending with
      | none => exact .inl (h.next active (by rw [IemSlots.next, hslot, hactive]; rfl))
      | some pending =>
        obtain hmatch | hnew := hkeeps henable active hactive (by rw [hslot]; rfl) hrate
        · exact absurd hmatch hpending
        · exact .inr hnew
  have hleft {active : IemGraph} (hactive : s.slots.active = some active)
      (hrate : active.config.sampleRate = s.hostSampleRate) :
      s.slots.cancelPending.active.isSome = true ∧ ∀ g ∈ s.slots.cancelPending.next, g.config.sampleRate = s.hostSampleRate := by
    simp [IemSlots.next, IemSlots.cancelPending, hactive, hrate]
  cases htried with
  | idle _ => exact h
  | kept _ _ => exact h.same (.of_eq rfl rfl rfl rfl)
  | fallen hprepared henable hpending hmatch =>
    obtain ⟨active, hactive, hrate | ⟨hdiffers, -⟩⟩ := hfallback hprepared henable hpending
    · exact restaged_atRate h hprepared (hleft hactive hrate).1 (hleft hactive hrate).2 rfl rfl rfl rfl
    · rw [hmatch] at hdiffers
      cases hdiffers
  | staged slots hprepared hslots =>
    obtain hnone | ⟨active, graph, -, -, -, hgraph, hstaged⟩ := preparePending_cases s.slots.cancelPending answer
      (s.graphConfig s.hostSampleRate s.maxBlockFrames) s.parameterSnapshot s.resourceGeneration
    · rw [hnone] at hslots
      cases hslots
    · obtain rfl := Option.some.inj (hstaged.symm.trans hslots)
      have hrate : graph.config.sampleRate = s.hostSampleRate := by rw [prepare_config hgraph]; rfl
      have hnext : ∀ g ∈ IemSlots.next { active := some active, pending := some { graph with
          resourceGeneration := s.resourceGeneration } }, g.config.sampleRate = s.hostSampleRate := by
        simpa [IemSlots.next] using hrate
      exact restaged_atRate h hprepared rfl hnext rfl rfl rfl rfl
  | failed hprepared henable hpending _ hslots =>
    obtain ⟨active, hactive, hrate | ⟨-, rfl, hnew⟩⟩ := hfallback hprepared henable hpending
    · exact restaged_atRate h hprepared (hleft hactive hrate).1 (hleft hactive hrate).2 rfl rfl rfl rfl
    · obtain ⟨graph, -, hstaged⟩ := preparePending_accepts (g := s.slots.cancelPending)
        (s.graphConfig s.hostSampleRate s.maxBlockFrames) s.parameterSnapshot s.resourceGeneration hactive rfl hnew
        (graph_prepares (h.supported hprepared) (newer_generation hnew))
      rw [hslots] at hstaged
      cases hstaged

/-- what a command does to the graphs -/
theorem dispatch_cases (s : IemContext) (param val1 val2 : ℤ) (answer : Bool) :
    SameGraphs s (s.dispatchRawParam param val1 val2 answer).1 ∨
    ∃ d, s.desired param val1 val2 = some d ∧ d.slots = s.slots ∧ d.prepared = s.prepared ∧
      d.hostSampleRate = s.hostSampleRate ∧ d.maxBlockFrames = s.maxBlockFrames ∧ d.graphGeneration = s.graphGeneration ∧
      SameGraphs (d.tryPrepareDesiredGraph answer) (s.dispatchRawParam param val1 val2 answer).1 := by
  unfold dispatchRawParam desired
  rcases updateIemParameterSnapshot s.parameterSnapshot param val1 val2 with ⟨result, params⟩
  cases result with
  | notIem => exact .inl (.of_eq rfl rfl rfl rfl)
  | invalid => exact .inl (.of_eq rfl rfl rfl rfl)
  | updated =>
    dsimp only
    unfold dispatchUpdated
    dsimp only
    split_ifs
    · exact .inr ⟨_, rfl, rfl, rfl, rfl, rfl, rfl, .of_eq rfl rfl rfl rfl⟩
    · exact .inl (.of_eq rfl rfl rfl rfl)
    · exact .inl (.of_eq rfl rfl rfl rfl)
  | command =>
    dsimp only
    unfold dispatchCommand
    by_cases hfreeze : param = kCommandGranularFreeze
    · rw [if_pos hfreeze]
      exact .inl (.of_eq rfl rfl rfl rfl)
    by_cases hrotation : param = kCommandResetRotation
    · rw [if_neg hfreeze, if_pos hrotation]
      exact .inl (.of_eq rfl rfl rfl rfl)
    by_cases hruntime : param = kCommandResetIemRuntime
    · rw [if_neg hfreeze, if_neg hrotation, if_pos hruntime]
      exact .inl (reset_same s)
    rw [if_neg hfreeze, if_neg hrotation, if_neg hruntime, if_neg (by simp [hfreeze, hrotation, hruntime])]
    cases s.captureRaw param val1 with
    | none => exact .inl (.of_eq rfl rfl rfl rfl)
    | some generation =>
      dsimp only
      split_ifs
      · exact .inl (.of_eq rfl rfl rfl rfl)
      · exact .inr ⟨_, rfl, rfl, rfl, rfl, rfl, rfl, .of_eq rfl rfl rfl rfl⟩

theorem dispatch_atRate {s : IemContext} {rate : Option UInt32} (h : AtRate s rate) {param val1 val2 : ℤ} {answer : Bool}
    (hkeeps : s.KeepsRate (.dispatchRawParam param val1 val2 answer)) :
    AtRate (s.dispatchRawParam param val1 val2 answer).1 rate := by
  obtain hsame | ⟨d, hd, hslots, hprepared, hhost, hframes, hgeneration, hsame⟩ := dispatch_cases s param val1 val2 answer
  · exact h.same hsame
  · have hdesired : AtRate d rate := h.same (.of_eq hprepared hhost hframes hslots)
    refine (tryPrepare_atRate hdesired answer ?_).same hsame
    intro henable active hactive hpending hrate
    rw [hslots] at hactive hpending ⊢
    rw [hhost] at hrate
    have hnewer : d.newer active ↔ s.newer active := by simp only [newer, hgeneration]
    rw [hnewer]
    exact hkeeps d hd active hactive hpending hrate henable

theorem swapPending_atRate {s : IemContext} {rate : Option UInt32} (h : AtRate s rate) : AtRate s.swapPending rate := by
  unfold swapPending
  cases hpending : s.slots.pending with
  | none => exact h
  | some pending =>
    have hprepared : s.prepared = true := by
      by_contra hunprepared
      have hnone := (h.unprepared (by simpa using hunprepared)).2
      rw [hpending] at hnone
      cases hnone
    have hrate : pending.config.sampleRate = s.hostSampleRate := h.next pending (by rw [IemSlots.next, hpending]; rfl)
    refine restaged_atRate h hprepared rfl ?_ rfl rfl rfl rfl
    intro g hg
    dsimp only [IemSlots.next] at hg
    split_ifs at hg
    · obtain rfl : pending.startTransition = g := by simpa using hg
      exact hrate
    · obtain rfl : pending = g := by simpa using hg
      exact hrate

theorem runGraphs_same {s : IemContext} {active : IemGraph} (hactive : s.slots.active = some active) (frames : ℕ)
    (activeAnswer previousAnswer : Bool) : SameGraphs s (s.runGraphs active frames activeAnswer previousAnswer).1 := by
  obtain ⟨remaining, previous, hran⟩ := runGraphs_cases hactive frames activeAnswer previousAnswer
  rw [hran]
  exact ⟨rfl, rfl, rfl, by rw [hactive]; rfl, rfl⟩

/-- a block keeps the rate, and when it succeeds it ran on a graph of that rate -/
theorem process_atRate {s : IemContext} {rate : Option UInt32} (h : AtRate s rate) (frames : ℕ)
    (activeAnswer previousAnswer : Bool) :
    AtRate (s.process frames activeAnswer previousAnswer).1 rate ∧
    ((s.process frames activeAnswer previousAnswer).2 = true →
      ∃ r g, rate = some r ∧ (s.process frames activeAnswer previousAnswer).1.slots.active = some g ∧
        g.config.sampleRate = r) := by
  have hlatest : AtRate s.swapPending.consumeLatest rate := (swapPending_atRate h).same (consumeLatest_same _)
  have hpending : s.swapPending.consumeLatest.slots.pending = none :=
    map_none (consumeLatest_same s.swapPending).pending s.swapPending_next.1
  unfold process
  by_cases hrefused : ¬ s.prepared ∨ frames = 0 ∨ s.maxBlockFrames < frames
  · rw [if_pos hrefused]
    exact ⟨h, nofun⟩
  · rw [if_neg hrefused]
    dsimp only
    by_cases hempty : s.swapPending.slots.active.isNone = true
    · rw [if_pos hempty]
      exact ⟨swapPending_atRate h, nofun⟩
    · rw [if_neg hempty]
      cases hactive : s.swapPending.consumeLatest.slots.active with
      | none => exact ⟨hlatest, nofun⟩
      | some active =>
        dsimp only
        have hran := hlatest.same (runGraphs_same hactive frames activeAnswer previousAnswer)
        refine ⟨hran, ?_⟩
        intro _
        have hprepared : s.swapPending.consumeLatest.prepared = true := by
          by_contra hunprepared
          have hnone := (hlatest.unprepared (by simpa using hunprepared)).1
          rw [hactive] at hnone
          cases hnone
        have hrate := hlatest.next active (by rw [IemSlots.next, hpending, hactive]; rfl)
        obtain ⟨remaining, previous, hgraphs⟩ := runGraphs_cases hactive frames activeAnswer previousAnswer
        rw [hgraphs]
        exact ⟨_, _, hlatest.host hprepared, rfl, hrate⟩

theorem requestedRate_append (calls : List IemCall) (call : IemCall) :
    requestedRate (calls ++ [call]) = match call with
      | .prepare rate frames _ => if isSupported rate frames then some rate else requestedRate calls
      | _ => requestedRate calls := by
  unfold requestedRate
  rw [List.foldl_append]
  rfl

theorem call_atRate {s : IemContext} {calls : List IemCall} (h : AtRate s (requestedRate calls)) {call : IemCall}
    (hkeeps : s.KeepsRate call) : AtRate (call.run s) (requestedRate (calls ++ [call])) := by
  rw [requestedRate_append]
  cases call with
  | prepare rate frames answer => exact prepare_atRate h hkeeps
  | dispatchRawParam param val1 val2 answer => exact dispatch_atRate h hkeeps
  | reset => exact h.same (reset_same s)
  | process frames activeAnswer previousAnswer => exact (process_atRate h frames activeAnswer previousAnswer).1

theorem run_atRate {s : IemContext} {past : List IemCall} (h : AtRate s (requestedRate past)) (calls : List IemCall)
    (hsteady : Steady s calls) :
    AtRate (calls.foldl (fun s call => call.run s) s) (requestedRate (past ++ calls)) := by
  induction calls generalizing s past with
  | nil => simpa using h
  | cons call calls ih =>
    have hnext := ih (call_atRate h hsteady.1) hsteady.2
    simpa using hnext

/-- **IEM runs at the rate asked for.** In a run of calls that keep the rate, every block that succeeds runs on an active
graph of the rate of the latest supported `Prepare`. -/
theorem host_rate (calls : List IemCall) (hsteady : Steady {} calls) (frames : ℕ) (activeAnswer previousAnswer : Bool)
    (hprocessed : ((IemContext.after calls).process frames activeAnswer previousAnswer).2 = true) :
    ∃ r g, requestedRate calls = some r ∧
      ((IemContext.after calls).process frames activeAnswer previousAnswer).1.slots.active = some g ∧
      g.config.sampleRate = r := by
  have hinit : AtRate {} (requestedRate []) := ⟨fun _ => ⟨rfl, rfl⟩, nofun, nofun, nofun, nofun⟩
  have hrun : AtRate (IemContext.after calls) (requestedRate calls) := run_atRate hinit calls hsteady
  exact (process_atRate hrun frames activeAnswer previousAnswer).2 hprocessed

theorem host_rate_reconfigured :
    ∃ r g, requestedRate [.prepare 48000 256 true, .process 256 true true, .prepare 44100 256 true] = some r ∧
      ((IemContext.after [.prepare 48000 256 true, .process 256 true true, .prepare 44100 256 true]).process
        256 true true).1.slots.active = some g ∧ g.config.sampleRate = r :=
  host_rate [.prepare 48000 256 true, .process 256 true true, .prepare 44100 256 true]
    ⟨fun _ => .inl rfl, trivial, fun _ => .inr (.inr ⟨rfl, rfl, fun active hactive => by
      obtain rfl := Option.some.inj hactive
      unfold newer
      decide⟩), trivial⟩ 256 true true (by decide)

/-- a second rate before a block has run is refused beside the pending graph of the first, and the next block runs at the
first -/
theorem rate_lost :
    ¬ ∀ (calls : List IemCall) (frames : ℕ) (activeAnswer previousAnswer : Bool) (r : UInt32) (g : IemGraph),
      requestedRate calls = some r → ((IemContext.after calls).process frames activeAnswer previousAnswer).2 = true →
      ((IemContext.after calls).process frames activeAnswer previousAnswer).1.slots.active = some g →
      g.config.sampleRate = r := by
  intro h
  have hrate := h [.prepare 48000 256 true, .prepare 44100 256 true, .prepare 96000 256 true] 256 true true 96000
    { config := ⟨44100, 256, 2⟩, params := {} } (by decide) (by decide) (by rfl)
  exact absurd hrate (by decide)

end IemContext

end ViperFx.Driver
