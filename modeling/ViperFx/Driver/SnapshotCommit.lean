/-
What a COMMIT does to the audio side of a context: `ViperContext::CommitDaemonSnapshot` against the audio thread, and
against an earlier state.

The audio thread swaps graphs (`DspGraphSlots::ConsumePending`, `ReleasePrevious`) without the lock that a COMMIT holds.
Its steps are only visible to a COMMIT before `RetractPending` and between `RetractPending` and `PreparePending`: from a
state with nothing pending and nothing previous they do nothing, so the compare-exchange at the end of `PreparePending`
cannot fail. `commitAmid` is a COMMIT with the audio thread at those points.

Results:
  · commitAmid_atomic        : a COMMIT amid audio steps is a COMMIT between audio steps
  · commit_all_or_nothing_iff: exactly when a refused COMMIT leaves everything as it was, and what an accepted one makes
  · replay_same_kernel, replay_same_ddc : what of an earlier state survives a replay
  · snapshot_determines      : what a snapshot determines, and what it leaves to the earlier state
-/
import ViperFx.Driver.ViperContext

namespace ViperFx.Driver

open ViperFx.Protocol ViperFx.Channel

/-! ## The audio thread -/

namespace DspGraphSlots

variable {E : Engine}

def consumePending (g : DspGraphSlots E) : DspGraphSlots E :=
  match g.pending with
  | none => g
  | some graph => { active := some graph, pending := none, previous := g.active }

def releasePrevious (g : DspGraphSlots E) : DspGraphSlots E := { g with previous := none }

end DspGraphSlots

/-- a step of the audio thread on the graph slots -/
inductive AudioStep where
  | consumePending
  | releasePrevious
  deriving DecidableEq

section Audio

variable {E : Engine}

def AudioStep.run : AudioStep → DspGraphSlots E → DspGraphSlots E
  | .consumePending, g => g.consumePending
  | .releasePrevious, g => g.releasePrevious

/-- the slots after some steps of the audio thread -/
def DspGraphSlots.hear (steps : List AudioStep) (g : DspGraphSlots E) : DspGraphSlots E :=
  steps.foldl (fun g step => step.run g) g

def Dsp.hear (steps : List AudioStep) (d : Dsp E) : Dsp E := { d with graphSlots := d.graphSlots.hear steps }

theorem DspGraphSlots.hear_append (a b : List AudioStep) (g : DspGraphSlots E) : g.hear (a ++ b) = (g.hear a).hear b :=
  List.foldl_append

theorem Dsp.hear_append (a b : List AudioStep) (d : Dsp E) : d.hear (a ++ b) = (d.hear a).hear b := by
  simp [Dsp.hear, DspGraphSlots.hear_append]

/-- the steps that still have an effect once the pending graph is retracted -/
def releases (steps : List AudioStep) : List AudioStep := steps.filter (· = .releasePrevious)

theorem DspGraphSlots.hear_retracted (steps : List AudioStep) (g : DspGraphSlots E) :
    g.retractPending.hear steps = (g.hear (releases steps)).retractPending := by
  induction steps generalizing g with
  | nil => rfl
  | cons step steps ih =>
    cases step with
    | consumePending => exact ih g
    | releasePrevious => exact ih g.releasePrevious

theorem DspGraphSlots.hear_releases_active (steps : List AudioStep) (g : DspGraphSlots E) :
    (g.hear (releases steps)).active = g.active := by
  induction steps generalizing g with
  | nil => rfl
  | cons step steps ih =>
    cases step with
    | consumePending => exact ih g
    | releasePrevious => exact ih g.releasePrevious

end Audio

/-! ## A COMMIT amid audio steps -/

section Amid

variable (E : Engine)

/-- the checks and the replay on scratch copies, before anything is touched -/
def stageSnapshot (d : Dsp E) (request : CommitRequest) : Except String (E.Params × DspResources) :=
  if d.disableReason ≠ .none then .error ("driver is bypassed: " ++ d.disableReasonMessage)
  else if d.graphSlots.active.isNone then .error "driver is not configured yet"
  else replayRecords E d.parameterSnapshot d.resources request.parameters

def commitConfig (d : Dsp E) : DspGraphConfig := ⟨d.samplingRate, E.maxBlockFrames, d.graphGeneration + 1⟩

/-- the rest of a COMMIT, on the slots that `RetractPending` and the audio thread left -/
def adoptStaged (d : Dsp E) (request : CommitRequest) (slots : DspGraphSlots E) (params : E.Params)
    (resources : DspResources) : Dsp E × Except String (UInt64 × UInt64) :=
  match slots.preparePending (commitConfig E d) params resources with
  | none => ({ d with graphSlots := slots }, .error "failed to prepare snapshot DSP graph")
  | some prepared =>
    let iem := request.iemParameters.foldl E.dispatchIem d.iemContext
    ({ d with
      graphSlots := prepared
      graphGeneration := (commitConfig E d).generation
      resources := resources
      parameterSnapshot := params
      parameterMailbox := some params
      iemContext := iem
      enable := request.snapshot.masterEnabled }, .ok (E.iemResourceGeneration iem, (commitConfig E d).generation))

theorem commitDaemonSnapshot_eq (d : Dsp E) (request : CommitRequest) :
    commitDaemonSnapshot E d request = match stageSnapshot E d request with
      | .error e => (d, .error e)
      | .ok (params, resources) => adoptStaged E d request d.graphSlots.retractPending params resources := by
  unfold commitDaemonSnapshot stageSnapshot
  split_ifs with hdis hact
  · rfl
  · rfl
  · rfl

/-- a COMMIT with audio steps before it, between `RetractPending` and `PreparePending`, and after it -/
def commitAmid (before between after : List AudioStep) (d : Dsp E) (request : CommitRequest) :
    Dsp E × Except String (UInt64 × UInt64) :=
  let d := d.hear before
  let p : Dsp E × Except String (UInt64 × UInt64) := match stageSnapshot E d request with
    | .error e => (d.hear between, .error e)
    | .ok (params, resources) => adoptStaged E d request (d.graphSlots.retractPending.hear between) params resources
  (p.1.hear after, p.2)

/-- **A COMMIT is one step for the audio thread.** -/
theorem commitAmid_atomic (before between after : List AudioStep) (d : Dsp E) (request : CommitRequest) :
    ∃ earlier later, commitAmid E before between after d request =
      (Dsp.hear later (commitDaemonSnapshot E (d.hear earlier) request).1,
        (commitDaemonSnapshot E (d.hear earlier) request).2) := by
  cases hstage : stageSnapshot E (d.hear before) request with
  | error e =>
    refine ⟨before, between ++ after, ?_⟩
    simp [commitAmid, commitDaemonSnapshot_eq, hstage, Dsp.hear_append]
  | ok p =>
    obtain ⟨params, resources⟩ := p
    refine ⟨before ++ releases between, after, ?_⟩
    -- a release changes nothing that staging reads
    have hsame : stageSnapshot E (d.hear (before ++ releases between)) request = .ok (params, resources) := by
      rw [← hstage, Dsp.hear_append]
      simp [stageSnapshot, Dsp.hear, DspGraphSlots.hear_releases_active]
    simp only [commitAmid, hstage, commitDaemonSnapshot_eq, hsame]
    rw [Dsp.hear_append, DspGraphSlots.hear_retracted]
    rfl

end Amid

/-! ## All or nothing -/

section AllOrNothing

variable (E : Engine)

/-- one record on the scratch copies; none when the parameter table or the resources refuse it -/
def acceptRecord (p : E.Params × DspResources) (r : RawParamRecord) : Option (E.Params × DspResources) :=
  match E.updateParameterSnapshot p.1 r with
  | none => none
  | some params =>
    match p.2.captureRaw E.ids E.kernelCrc r with
    | (_, .invalid) => none
    | (resources, _) => some (params, resources)

theorem replayRecords_ok_iff (params : E.Params) (resources : DspResources) (records : List RawParamRecord)
    (q : E.Params × DspResources) :
    replayRecords E params resources records = .ok q ↔
      records.foldlM (acceptRecord E) (params, resources) = some q := by
  induction records generalizing params resources with
  | nil => simp [replayRecords]
  | cons r rest ih =>
    rw [replayRecords, List.foldlM_cons, acceptRecord]
    cases E.updateParameterSnapshot params r with
    | none => simp
    | some params' =>
      rcases resources.captureRaw E.ids E.kernelCrc r with ⟨resources', _ | _ | _ | _ | _⟩
      all_goals simp [ih]

/-- a refused COMMIT leaves everything as it was; an accepted one folds every record into parameters and resources, and
the next audio block runs on a graph prepared from exactly those -/
def AllOrNothing (d : Dsp E) (request : CommitRequest) : Prop :=
  match commitDaemonSnapshot E d request with
  | (d', .error _) => d' = d
  | (d', .ok _) =>
    ∃ graph, request.parameters.foldlM (acceptRecord E) (d.parameterSnapshot, d.resources) =
        some (d'.parameterSnapshot, d'.resources) ∧
      E.prepare (commitConfig E d) d'.parameterSnapshot d'.resources = some graph ∧
      d'.graphSlots.consumePending.active = some (commitConfig E d, graph)

/-- the engine or the slots refuse the graph of a snapshot whose records are all accepted, while the graph of an earlier
snapshot is still pending -/
def DropsPending (d : Dsp E) (request : CommitRequest) : Prop :=
  d.disableReason = .none ∧ d.graphSlots.active.isSome ∧ d.graphSlots.pending.isSome ∧
    ∃ params resources, request.parameters.foldlM (acceptRecord E) (d.parameterSnapshot, d.resources) =
        some (params, resources) ∧
      d.graphSlots.retractPending.preparePending (commitConfig E d) params resources = none

theorem stageSnapshot_ok {d : Dsp E} {request : CommitRequest} {params : E.Params} {resources : DspResources}
    (h : stageSnapshot E d request = .ok (params, resources)) :
    d.disableReason = .none ∧ d.graphSlots.active.isSome ∧
      request.parameters.foldlM (acceptRecord E) (d.parameterSnapshot, d.resources) = some (params, resources) := by
  unfold stageSnapshot at h
  split_ifs at h with hdis hact
  refine ⟨not_not.mp hdis, ?_, (replayRecords_ok_iff E _ _ _ _).mp h⟩
  simpa [Option.isSome_iff_ne_none] using hact

theorem stageSnapshot_of_fold {d : Dsp E} {request : CommitRequest} {params : E.Params} {resources : DspResources}
    (hdis : d.disableReason = .none) (hact : d.graphSlots.active.isSome)
    (hfold : request.parameters.foldlM (acceptRecord E) (d.parameterSnapshot, d.resources) = some (params, resources)) :
    stageSnapshot E d request = .ok (params, resources) := by
  unfold stageSnapshot
  rw [if_neg (not_not.mpr hdis), if_neg (by simpa [Option.isSome_iff_ne_none] using hact)]
  exact (replayRecords_ok_iff E _ _ _ _).mpr hfold

theorem preparePending_some {g slots : DspGraphSlots E} {config : DspGraphConfig} {params : E.Params}
    {resources : DspResources} (h : g.preparePending config params resources = some slots) :
    ∃ graph, E.prepare config params resources = some graph ∧ slots = { g with pending := some (config, graph) } := by
  unfold DspGraphSlots.preparePending at h
  split at h
  · cases h
  · split_ifs at h
    obtain ⟨graph, hgraph, rfl⟩ := Option.map_eq_some_iff.mp h
    exact ⟨graph, hgraph, rfl⟩

/-- **All-or-nothing COMMIT, and exactly when it is not.** The audio thread may act at any point of the COMMIT: the
outcome is that of a COMMIT between two of its steps. -/
theorem commit_all_or_nothing_iff (d : Dsp E) (request : CommitRequest) :
    (AllOrNothing E d request ↔ ¬ DropsPending E d request) ∧
    ∀ before between after, ∃ earlier later, commitAmid E before between after d request =
      (Dsp.hear later (commitDaemonSnapshot E (d.hear earlier) request).1,
        (commitDaemonSnapshot E (d.hear earlier) request).2) := by
  refine ⟨?_, fun before between after => commitAmid_atomic E before between after d request⟩
  unfold AllOrNothing
  rw [commitDaemonSnapshot_eq]
  cases hstage : stageSnapshot E d request with
  | error e =>
    refine iff_of_true rfl ?_
    rintro ⟨hdis, hact, -, params, resources, hfold, -⟩
    rw [stageSnapshot_of_fold E hdis hact hfold] at hstage
    cases hstage
  | ok p =>
    obtain ⟨params, resources⟩ := p
    obtain ⟨hdis, hact, hfold⟩ := stageSnapshot_ok E hstage
    simp only [adoptStaged]
    cases hprepare : d.graphSlots.retractPending.preparePending (commitConfig E d) params resources with
    | some slots =>
      obtain ⟨graph, hgraph, rfl⟩ := preparePending_some E hprepare
      refine iff_of_true ⟨graph, hfold, hgraph, rfl⟩ ?_
      rintro ⟨-, -, -, params', resources', hfold', hnone⟩
      rw [hfold] at hfold'
      cases hfold'
      rw [hprepare] at hnone
      cases hnone
    | none =>
      -- the retracted slots are the old ones exactly when nothing was pending
      constructor
      · rintro heq ⟨-, -, hpending, -⟩
        have hslots := congrArg (fun d : Dsp E => d.graphSlots.pending) heq
        simp only [DspGraphSlots.retractPending] at hslots
        rw [← hslots] at hpending
        cases hpending
      · intro hkeep
        have hpending : d.graphSlots.pending = none := by
          by_contra hsome
          exact hkeep ⟨hdis, hact, Option.isSome_iff_ne_none.mpr hsome, params, resources, hfold, hprepare⟩
        have hslots : d.graphSlots.retractPending = d.graphSlots := by
          simp [DspGraphSlots.retractPending, ← hpending]
        rw [hslots]

end AllOrNothing

/-! ## An earlier snapshot lost -/

/-- an engine with one parameter, whose graphs take values up to 100 -/
def gainEngine : Engine where
  Params := ℤ
  Iem := Unit
  Graph := ℤ
  ids := ⟨1, 2, 3, 4, 5⟩
  initialParams := 0
  initialIem := ()
  maxBlockFrames := 4096
  updateParameterSnapshot := fun _ r => some r.val1.toInt
  kernelCrc := crc32
  prepare := fun _ gain _ => if gain ≤ 100 then some gain else none
  dispatchIem := fun iem _ => iem
  iemResourceGeneration := fun _ => 0

def gainOf (d : Dsp gainEngine) : ℤ := d.parameterSnapshot

/-- a context after its first SET_CONFIG -/
def configuredGain : Dsp gainEngine :=
  { samplingRate := 48000, graphGeneration := 1, graphSlots := { active := some (⟨48000, 4096, 1⟩, (0 : ℤ)) } }

def gainSnapshot (appGeneration : UInt64) (parameters : Bytes) : Snapshot where
  schemaVersion := 1
  driverProtocolVersion := 1
  deviceKey := [115, 124]
  deviceKeyHash := hashDeviceKey [115, 124]
  bootId := 1
  daemonGeneration := 1
  appGeneration := appGeneration
  createdAtMillis := 1
  masterEnabled := true
  globalMode := false
  parameters := parameters
  iemParameters := []
  resources := []
  resourceGeneration := 0
  graphGeneration := 0

/-- a request that sets the gain -/
def setGain (appGeneration : UInt64) (gain : Int32) : CommitRequest :=
  ⟨gainSnapshot appGeneration [], [{ param := 100, val1 := gain, val2 := 0, val3 := 0, arrSize := 0, payload := [] }], []⟩

/-- the context after a first snapshot is accepted and before audio flows -/
def gainPending : Dsp gainEngine := (commitDaemonSnapshot gainEngine configuredGain (setGain 1 50)).1

/-- **A refused COMMIT loses the prepared graph of an accepted snapshot.** The graph of gain 50 is pending; the engine
refuses the graph of gain 200; nothing is pending any more. The parameters of gain 50 are still in the mailbox, for the
active graph to take. -/
theorem refused_commit_drops_pending : ¬ AllOrNothing gainEngine gainPending (setGain 2 200) := by
  intro h
  have hpending : gainPending.graphSlots.pending.isSome = true := rfl
  have hafter : (commitDaemonSnapshot gainEngine gainPending (setGain 2 200)).1.graphSlots.pending = none := rfl
  have hsame : (commitDaemonSnapshot gainEngine gainPending (setGain 2 200)).1 = gainPending := h
  rw [hsame] at hafter
  rw [hafter] at hpending
  cases hpending

/-! ## What a replay leaves of the earlier state -/

/-- what a record does to the resources -/
inductive RecordKind where
  | prepare
  | clear
  | set
  | commit
  | ddc
  | other
  deriving DecidableEq

def recordKind (ids : ParamIds) (r : RawParamRecord) : RecordKind :=
  if r.param = ids.convolverPrepareBuffer then if r.val3 ≠ 0 then .clear else .prepare
  else if r.param = ids.convolverSetBuffer then .set
  else if r.param = ids.convolverCommitBuffer then .commit
  else if r.param = ids.ddcCoefficients then .ddc
  else .other

namespace DspResources

/-- the staged upload: buffer, fill and channels -/
def upload (d : DspResources) : Bytes × ℕ × ℕ := (d.pendingConvolver, d.pendingConvolverSize, d.pendingConvolverChannels)

/-- the committed kernel: samples, channels and id -/
def kernel (d : DspResources) : Bytes × ℕ × Int32 := (d.convolverKernel, d.convolverChannels, d.convolverKernelId)

def ddcBanks (d : DspResources) : List Bytes × List Bytes := (d.ddc44100, d.ddc48000)

/-- the upload after an accepted record -/
def uploadAfter (r : RawParamRecord) (u : Bytes × ℕ × ℕ) : RecordKind → Bytes × ℕ × ℕ
  | .prepare => (List.replicate (4 * r.val1.toInt.toNat) 0, 0, r.val2.toInt.toNat)
  | .clear | .commit => ([], 0, 0)
  | .set =>
    let copySize := min r.arrSize.toNat (u.1.length / 4 - u.2.1)
    (u.1.take (4 * u.2.1) ++ r.payload.take (4 * copySize) ++ u.1.drop (4 * u.2.1 + 4 * copySize), u.2.1 + copySize, u.2.2)
  | .ddc | .other => u

/-- the kernel after an accepted record, from the upload and the kernel before it -/
def kernelAfter (r : RawParamRecord) (u : Bytes × ℕ × ℕ) (k : Bytes × ℕ × Int32) : RecordKind → Bytes × ℕ × Int32
  | .clear => ([], 0, 0)
  | .commit => (u.1, u.2.2, r.val3)
  | _ => k

def ddcAfter (r : RawParamRecord) (banks : List Bytes × List Bytes) : RecordKind → List Bytes × List Bytes
  | .ddc =>
    (sections r.payload 0 (r.arrSize.toNat / 5), sections r.payload r.arrSize.toNat (r.arrSize.toNat / 5))
  | _ => banks

/-- **What an accepted record does**, part by part -/
theorem captureRaw_accepted (ids : ParamIds) (kernelCrc : Bytes → UInt32) (d : DspResources) (r : RawParamRecord)
    (h : (d.captureRaw ids kernelCrc r).2 ≠ .invalid) :
    (d.captureRaw ids kernelCrc r).1.upload = uploadAfter r d.upload (recordKind ids r) ∧
      (d.captureRaw ids kernelCrc r).1.kernel = kernelAfter r d.upload d.kernel (recordKind ids r) ∧
      (d.captureRaw ids kernelCrc r).1.ddcBanks = ddcAfter r d.ddcBanks (recordKind ids r) := by
  unfold captureRaw recordKind at *
  split_ifs at h ⊢ with hprepare hval hset hcommit hddc
  · simp only [prepareBuffer, if_pos hval]
    exact ⟨rfl, rfl, rfl⟩
  · simp only [prepareBuffer, if_neg hval] at h ⊢
    split_ifs at h ⊢
    · exact absurd rfl h
    · exact ⟨rfl, rfl, rfl⟩
  · simp only [setBuffer] at h ⊢
    split_ifs at h ⊢
    · exact absurd rfl h
    · exact ⟨rfl, rfl, rfl⟩
  · simp only [commitBuffer] at h ⊢
    split_ifs at h ⊢
    · exact absurd rfl h
    · exact ⟨rfl, rfl, rfl⟩
  · simp only [ddcCoefficients] at h ⊢
    split_ifs at h ⊢
    · exact absurd rfl h
    · exact ⟨rfl, rfl, rfl⟩
  · exact ⟨rfl, rfl, rfl⟩

end DspResources

section Replay

variable (ids : ParamIds)

/-- the first record that acts on the upload starts it anew, or none does -/
def startsUpload : List RawParamRecord → Bool
  | [] => true
  | r :: rest =>
    match recordKind ids r with
    | .prepare | .clear => true
    | .set | .commit => false
    | .ddc | .other => startsUpload rest

/-- a record commits or clears the kernel -/
def replacesKernel (records : List RawParamRecord) : Bool :=
  records.any fun r => recordKind ids r = .clear ∨ recordKind ids r = .commit

/-- a record replaces the DDC banks -/
def replacesDdc (records : List RawParamRecord) : Bool := records.any fun r => recordKind ids r = .ddc

end Replay

section TwoRuns

variable (E : Engine)

theorem acceptRecord_some {p q : E.Params × DspResources} {r : RawParamRecord} (h : acceptRecord E p r = some q) :
    E.updateParameterSnapshot p.1 r = some q.1 ∧ (p.2.captureRaw E.ids E.kernelCrc r).2 ≠ .invalid ∧
      q.2 = (p.2.captureRaw E.ids E.kernelCrc r).1 := by
  unfold acceptRecord at h
  cases hu : E.updateParameterSnapshot p.1 r with
  | none => rw [hu] at h; cases h
  | some params =>
    rw [hu] at h
    rcases hc : p.2.captureRaw E.ids E.kernelCrc r with ⟨resources, _ | _ | _ | _ | _⟩
    all_goals
      rw [hc] at h
      cases h
    all_goals exact ⟨rfl, by simp, rfl⟩

theorem foldlM_cons_some {p q : E.Params × DspResources} {r : RawParamRecord} {rest : List RawParamRecord}
    (h : (r :: rest).foldlM (acceptRecord E) p = some q) :
    ∃ m, acceptRecord E p r = some m ∧ rest.foldlM (acceptRecord E) m = some q := by
  rw [List.foldlM_cons] at h
  exact Option.bind_eq_some_iff.mp h

/-- the parameters of a replay come from the earlier parameters and the records alone -/
theorem replay_same_params {records : List RawParamRecord} {p q p' q' : E.Params × DspResources}
    (hp : records.foldlM (acceptRecord E) p = some p') (hq : records.foldlM (acceptRecord E) q = some q')
    (h : p.1 = q.1) : p'.1 = q'.1 := by
  induction records generalizing p q with
  | nil =>
    cases hp
    cases hq
    exact h
  | cons r rest ih =>
    obtain ⟨m, hm, hp⟩ := foldlM_cons_some E hp
    obtain ⟨n, hn, hq⟩ := foldlM_cons_some E hq
    have hmn : some m.1 = some n.1 := by
      rw [← (acceptRecord_some E hm).1, ← (acceptRecord_some E hn).1, h]
    exact ih hp hq (Option.some.inj hmn)

/-- **The kernel after a replay** depends on the earlier upload only if a record goes on with it, and on the earlier
kernel only if no record replaces it. -/
theorem replay_same_kernel {records : List RawParamRecord} {p q p' q' : E.Params × DspResources}
    (hp : records.foldlM (acceptRecord E) p = some p') (hq : records.foldlM (acceptRecord E) q = some q')
    (hupload : startsUpload E.ids records = true ∨ p.2.upload = q.2.upload)
    (hkernel : replacesKernel E.ids records = true ∨ p.2.kernel = q.2.kernel) : p'.2.kernel = q'.2.kernel := by
  induction records generalizing p q with
  | nil =>
    cases hp
    cases hq
    simpa [replacesKernel] using hkernel
  | cons r rest ih =>
    obtain ⟨m, hm, hp⟩ := foldlM_cons_some E hp
    obtain ⟨n, hn, hq⟩ := foldlM_cons_some E hq
    obtain ⟨-, hmvalid, hmres⟩ := acceptRecord_some E hm
    obtain ⟨-, hnvalid, hnres⟩ := acceptRecord_some E hn
    obtain ⟨hmu, hmk, -⟩ := DspResources.captureRaw_accepted E.ids E.kernelCrc p.2 r hmvalid
    obtain ⟨hnu, hnk, -⟩ := DspResources.captureRaw_accepted E.ids E.kernelCrc q.2 r hnvalid
    rw [← hmres] at hmu hmk
    rw [← hnres] at hnu hnk
    cases hkind : recordKind E.ids r with
    | prepare =>
      refine ih hp hq (.inr ?_) (hkernel.imp (fun h => ?_) fun h => ?_)
      · rw [hmu, hnu, hkind, DspResources.uploadAfter, DspResources.uploadAfter]
      · simpa [replacesKernel, hkind] using h
      · rw [hmk, hnk, hkind, DspResources.kernelAfter, DspResources.kernelAfter, h]
        all_goals simp
    | clear =>
      refine ih hp hq (.inr ?_) (.inr ?_)
      · rw [hmu, hnu, hkind, DspResources.uploadAfter, DspResources.uploadAfter]
      · rw [hmk, hnk, hkind, DspResources.kernelAfter, DspResources.kernelAfter]
    | set =>
      have hsame : p.2.upload = q.2.upload := hupload.resolve_left (by simp [startsUpload, hkind])
      refine ih hp hq (.inr ?_) (hkernel.imp (fun h => ?_) fun h => ?_)
      · rw [hmu, hnu, hkind, hsame]
      · simpa [replacesKernel, hkind] using h
      · rw [hmk, hnk, hkind, hsame, h]
    | commit =>
      have hsame : p.2.upload = q.2.upload := hupload.resolve_left (by simp [startsUpload, hkind])
      refine ih hp hq (.inr ?_) (.inr ?_)
      · rw [hmu, hnu, hkind, hsame]
      · rw [hmk, hnk, hkind, hsame, DspResources.kernelAfter, DspResources.kernelAfter]
    | ddc | other =>
      refine ih hp hq (hupload.imp (fun h => ?_) fun h => ?_) (hkernel.imp (fun h => ?_) fun h => ?_)
      · simpa [startsUpload, hkind] using h
      · rw [hmu, hnu, hkind, h]
      · simpa [replacesKernel, hkind] using h
      · rw [hmk, hnk, hkind]
        exact h

/-- **The DDC banks after a replay** are the same exactly if a record replaces them or they were the same before. -/
theorem replay_same_ddc {records : List RawParamRecord} {p q p' q' : E.Params × DspResources}
    (hp : records.foldlM (acceptRecord E) p = some p') (hq : records.foldlM (acceptRecord E) q = some q') :
    p'.2.ddcBanks = q'.2.ddcBanks ↔ replacesDdc E.ids records = true ∨ p.2.ddcBanks = q.2.ddcBanks := by
  induction records generalizing p q with
  | nil =>
    cases hp
    cases hq
    simp [replacesDdc]
  | cons r rest ih =>
    obtain ⟨m, hm, hp⟩ := foldlM_cons_some E hp
    obtain ⟨n, hn, hq⟩ := foldlM_cons_some E hq
    obtain ⟨-, hmvalid, hmres⟩ := acceptRecord_some E hm
    obtain ⟨-, hnvalid, hnres⟩ := acceptRecord_some E hn
    obtain ⟨-, -, hmd⟩ := DspResources.captureRaw_accepted E.ids E.kernelCrc p.2 r hmvalid
    obtain ⟨-, -, hnd⟩ := DspResources.captureRaw_accepted E.ids E.kernelCrc q.2 r hnvalid
    rw [← hmres] at hmd
    rw [← hnres] at hnd
    rw [ih hp hq, hmd, hnd]
    by_cases hkind : recordKind E.ids r = .ddc
    · simp [replacesDdc, hkind, DspResources.ddcAfter]
    · have hkeep : ∀ banks, DspResources.ddcAfter r banks (recordKind E.ids r) = banks := by
        intro banks
        cases hk : recordKind E.ids r with
        | ddc => exact absurd hk hkind
        | _ => rfl
      simp [replacesDdc, hkind, hkeep]

theorem commitDaemonSnapshot_accepted {d : Dsp E} {request : CommitRequest} {generations : UInt64 × UInt64}
    (h : (commitDaemonSnapshot E d request).2 = .ok generations) :
    request.parameters.foldlM (acceptRecord E) (d.parameterSnapshot, d.resources) =
        some ((commitDaemonSnapshot E d request).1.parameterSnapshot, (commitDaemonSnapshot E d request).1.resources) ∧
      (commitDaemonSnapshot E d request).1.enable = request.snapshot.masterEnabled := by
  rw [commitDaemonSnapshot_eq] at h ⊢
  cases hstage : stageSnapshot E d request with
  | error e => rw [hstage] at h; cases h
  | ok p =>
    obtain ⟨params, resources⟩ := p
    obtain ⟨-, -, hfold⟩ := stageSnapshot_ok E hstage
    rw [hstage] at h
    simp only [adoptStaged] at h ⊢
    cases hprepare : d.graphSlots.retractPending.preparePending (commitConfig E d) params resources with
    | none => rw [hprepare] at h; cases h
    | some slots => exact ⟨hfold, rfl⟩

/-- an applied COMMIT handed the records of the staged snapshot to the audio side -/
theorem applied_request {x : ViperContext E} {r : ApplyResult} (h : (x.commitResult E).2.2 = .ok r)
    (happlied : r.outcome = .applied) :
    ∃ request generations, decodeSnapshot x.snapshotApply.staged = .ok request.snapshot ∧
      decodeParameterStream E.ids request.snapshot.parameters = .ok request.parameters ∧
      (commitDaemonSnapshot E x.dsp request).2 = .ok generations ∧
      (x.commitResult E).2.1 = (commitDaemonSnapshot E x.dsp request).1 := by
  obtain ⟨-, hb⟩ | ⟨-, e, -, hb⟩ | ⟨-, -, hb⟩ | ⟨-, request, f, hv, hf, ⟨m, -, hb⟩ | ⟨resource, graph, hok, hb⟩⟩ :=
    Controller.commit_cases E.ids (some (commitDaemonSnapshot E)) x.snapshotApply x.dsp
  all_goals
    rw [ViperContext.commitResult, hb] at h
    cases h
  · cases happlied
  · obtain rfl := Option.some.inj hf
    obtain ⟨-, -, hdecode, -, -, -, -, -, hparams, -⟩ := Controller.examine_candidate hv
    exact ⟨request, _, hdecode, hparams, hok, by rw [ViperContext.commitResult, hb]⟩

/-- **What a snapshot determines.** After the same snapshot is applied to two contexts, their master switches agree;
their parameters agree if they did before; their kernels agree if the records replace the kernel, or it agreed before,
and do not go on with an upload that differs; their DDC banks agree exactly if the records replace them or they agreed
before. -/
theorem snapshot_determines (x y : ViperContext E) (r r' : ApplyResult)
    (hsame : decodeSnapshot x.snapshotApply.staged = decodeSnapshot y.snapshotApply.staged)
    (hx : (x.commitResult E).2.2 = .ok r) (hxapplied : r.outcome = .applied)
    (hy : (y.commitResult E).2.2 = .ok r') (hyapplied : r'.outcome = .applied) :
    ∃ snapshot records, decodeSnapshot x.snapshotApply.staged = .ok snapshot ∧
      decodeParameterStream E.ids snapshot.parameters = .ok records ∧
      (x.commitResult E).2.1.enable = (y.commitResult E).2.1.enable ∧
      (x.dsp.parameterSnapshot = y.dsp.parameterSnapshot →
        (x.commitResult E).2.1.parameterSnapshot = (y.commitResult E).2.1.parameterSnapshot) ∧
      (startsUpload E.ids records = true ∨ x.dsp.resources.upload = y.dsp.resources.upload →
        replacesKernel E.ids records = true ∨ x.dsp.resources.kernel = y.dsp.resources.kernel →
        (x.commitResult E).2.1.resources.kernel = (y.commitResult E).2.1.resources.kernel) ∧
      ((x.commitResult E).2.1.resources.ddcBanks = (y.commitResult E).2.1.resources.ddcBanks ↔
        replacesDdc E.ids records = true ∨ x.dsp.resources.ddcBanks = y.dsp.resources.ddcBanks) := by
  obtain ⟨request, g, hdecode, hparams, hok, hdsp⟩ := applied_request E hx hxapplied
  obtain ⟨request', g', hdecode', hparams', hok', hdsp'⟩ := applied_request E hy hyapplied
  have hsnapshot : request.snapshot = request'.snapshot := by
    rw [hdecode, hdecode'] at hsame
    exact Except.ok.inj hsame
  have hrecords : request.parameters = request'.parameters := by
    rw [hsnapshot, hparams'] at hparams
    exact (Except.ok.inj hparams).symm
  obtain ⟨hfold, henable⟩ := commitDaemonSnapshot_accepted E hok
  obtain ⟨hfold', henable'⟩ := commitDaemonSnapshot_accepted E hok'
  rw [← hrecords] at hfold'
  refine ⟨request.snapshot, request.parameters, hdecode, hparams, ?_, ?_, ?_, ?_⟩
  · rw [hdsp, hdsp', henable, henable', hsnapshot]
  · rw [hdsp, hdsp']
    exact replay_same_params E hfold hfold'
  · rw [hdsp, hdsp']
    exact replay_same_kernel E hfold hfold'
  · rw [hdsp, hdsp']
    exact replay_same_ddc E hfold hfold'

end TwoRuns

/-! ## Two histories -/

/-- the bytes of a snapshot without records -/
def emptySnapshotBytes : Bytes := snapshotBytes (gainSnapshot 2 [])

/-- a context after SET_CONFIG and a SET_PARAM of gain 50 -/
def tunedGain : Dsp gainEngine :=
  { configuredGain with parameterSnapshot := (50 : ℤ), parameterMailbox := some (50 : ℤ) }

/-- a context that has staged the bytes of a snapshot -/
def stagedSnapshot (bytes : Bytes) (dsp : Dsp gainEngine) : ViperContext gainEngine where
  snapshotApply := {
    deviceKeyHash := hashDeviceKey [115, 124], staging := true, staged := bytes
    metadata := {
      appGeneration := 2, daemonGeneration := 1, deviceKeyHash := hashDeviceKey [115, 124]
      totalSize := bytes.length.toUInt32, crc32 := crc32 bytes } }
  dsp := dsp

/-- a context that has staged the snapshot without records -/
def stagedEmpty (dsp : Dsp gainEngine) : ViperContext gainEngine := stagedSnapshot emptySnapshotBytes dsp

/-- **The earlier state shows through.** The same snapshot is applied to a new context and to one that was at gain 50:
the one ends at gain 0, the other at gain 50. -/
theorem earlier_gain_survives :
    ((stagedEmpty configuredGain).commitResult gainEngine).2.2.toOption = some ⟨.applied, 2, 1, 0, 2⟩ ∧
    ((stagedEmpty tunedGain).commitResult gainEngine).2.2.toOption = some ⟨.applied, 2, 1, 0, 2⟩ ∧
    gainOf ((stagedEmpty configuredGain).commitResult gainEngine).2.1 = 0 ∧
    gainOf ((stagedEmpty tunedGain).commitResult gainEngine).2.1 = 50 := by
  decide +kernel

/-- sixteen samples, whatever they are -/
def sixteenSamples : Bytes := (List.range 64).map UInt8.ofNat

/-- the upload of the sixteen samples as the kernel 7, and a gain -/
def uploadRecords : List RawParamRecord :=
  [⟨1, 16, 1, 0, 0, []⟩, ⟨2, 0, 0, 0, 16, sixteenSamples⟩, ⟨3, 16, (crc32 sixteenSamples).toInt32, 7, 0, []⟩,
    ⟨100, 70, 0, 0, 0, []⟩]

def uploadSnapshotBytes : Bytes := snapshotBytes (gainSnapshot 2 (streamBytes uploadRecords))

/-- a context that has a kernel, and another one under way -/
def tunedKernel : Dsp gainEngine :=
  { tunedGain with resources := {
      pendingConvolver := List.replicate 128 0, pendingConvolverSize := 4, pendingConvolverChannels := 2
      convolverKernel := List.replicate 64 1, convolverChannels := 1, convolverKernelId := 3 } }

/-- a new context and one with a kernel of its own end with the kernel of the snapshot, and with the same master switch
and DDC banks -/
theorem same_snapshot_same_kernel :
    ((stagedSnapshot uploadSnapshotBytes configuredGain).commitResult gainEngine).2.1.resources.kernel =
      (sixteenSamples, 1, 7) ∧
    ((stagedSnapshot uploadSnapshotBytes tunedKernel).commitResult gainEngine).2.1.resources.kernel =
      (sixteenSamples, 1, 7) ∧
    ((stagedSnapshot uploadSnapshotBytes configuredGain).commitResult gainEngine).2.1.enable =
      ((stagedSnapshot uploadSnapshotBytes tunedKernel).commitResult gainEngine).2.1.enable ∧
    ((stagedSnapshot uploadSnapshotBytes configuredGain).commitResult gainEngine).2.1.resources.ddcBanks =
      ((stagedSnapshot uploadSnapshotBytes tunedKernel).commitResult gainEngine).2.1.resources.ddcBanks := by
  obtain ⟨snapshot, records, hsnapshot, hrecords, hswitch, -, hkernel, hbanks⟩ := snapshot_determines gainEngine
    (stagedSnapshot uploadSnapshotBytes configuredGain) (stagedSnapshot uploadSnapshotBytes tunedKernel)
    ⟨.applied, 2, 1, 0, 2⟩ ⟨.applied, 2, 1, 0, 2⟩ rfl
    (ok_of_toOption (by decide +kernel)) rfl (ok_of_toOption (by decide +kernel)) rfl
  have hdecoded : decodeSnapshot uploadSnapshotBytes = .ok (gainSnapshot 2 (streamBytes uploadRecords)) :=
    ok_of_toOption (by decide +kernel)
  obtain rfl : gainSnapshot 2 (streamBytes uploadRecords) = snapshot := Except.ok.inj (hdecoded.symm.trans hsnapshot)
  have hstream : decodeParameterStream gainEngine.ids (streamBytes uploadRecords) = .ok uploadRecords :=
    ok_of_toOption (by decide +kernel)
  obtain rfl : uploadRecords = records := Except.ok.inj (hstream.symm.trans hrecords)
  have hnew : ((stagedSnapshot uploadSnapshotBytes configuredGain).commitResult gainEngine).2.1.resources.kernel =
      (sixteenSamples, 1, 7) := by decide +kernel
  -- the upload starts anew and ends with a kernel of its own, so what the second context had does not matter
  have hsame := hkernel (.inl (by decide +kernel)) (.inl (by decide +kernel))
  exact ⟨hnew, hsame.symm.trans hnew, hswitch, hbanks.mpr (.inr rfl)⟩

end ViperFx.Driver
