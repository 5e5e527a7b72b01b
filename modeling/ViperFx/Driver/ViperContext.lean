/-
One effect instance of the driver as the daemon meets it: `src/ViperContext.cpp` (HandleSnapshotCommand and
CommitDaemonSnapshot), with `src/DspResources.cpp` and `src/DspGraphSlots.cpp`.

A context has its SnapshotApplyController and everything the audio side owns (`Dsp`). A COMMIT replays the records of a
snapshot onto scratch copies, prepares a pending graph, and only then adopts them. The parameter table and the DSP graph
belong to the ViPERDSP submodule, which is not part of the repository: they are fields of `Engine`, and so is the IEM
chain, of which a COMMIT only sees the dispatch of raw records. Audio samples are four bytes each.

Results:
  · commitDaemonSnapshot_refused     : a refused COMMIT leaves parameters, resources and the master switch as they were
  · handle_reaction                  : everything a command can do to a context, with the answer
-/
import ViperFx.Channel.Machine
import ViperFx.Driver.SnapshotApply

namespace ViperFx.Driver

open ViperFx.Protocol ViperFx.Channel

/-! ## Resources -/

def kMaxConvolverSamples : ℤ := 4 * 1024 * 1024

inductive ResourceCaptureResult where
  | notResource
  | updated
  | committed
  | cleared
  | invalid
  deriving DecidableEq

structure DspResources where
  pendingConvolver : Bytes := []
  pendingConvolverSize : ℕ := 0
  pendingConvolverChannels : ℕ := 0
  convolverKernel : Bytes := []
  convolverChannels : ℕ := 0
  convolverKernelId : Int32 := 0
  ddc44100 : List Bytes := []
  ddc48000 : List Bytes := []
  deriving DecidableEq

namespace DspResources

def clearPendingConvolver (d : DspResources) : DspResources :=
  { d with pendingConvolver := [], pendingConvolverSize := 0, pendingConvolverChannels := 0 }

/-- the number of samples a transfer has announced -/
def pendingSamples (d : DspResources) : ℕ := d.pendingConvolver.length / 4

def prepareBuffer (d : DspResources) (r : RawParamRecord) : DspResources × ResourceCaptureResult :=
  let val1 := r.val1.toInt
  let val2 := r.val2.toInt
  if r.val3 ≠ 0 then
    ({ d.clearPendingConvolver with convolverKernel := [], convolverChannels := 0, convolverKernelId := 0 }, .cleared)
  else if (val2 ≠ 1 ∧ val2 ≠ 2 ∧ val2 ≠ 4) ∨ kMaxConvolverSamples < val1 ∨ val1 < 16 * val2 ∨ val1.tmod val2 ≠ 0 then
    (d.clearPendingConvolver, .invalid)
  else
    ({ d with
      pendingConvolver := List.replicate (4 * val1.toNat) 0
      pendingConvolverSize := 0
      pendingConvolverChannels := val2.toNat }, .updated)

/-- the next samples of the kernel; what does not fit is dropped -/
def setBuffer (d : DspResources) (r : RawParamRecord) : DspResources × ResourceCaptureResult :=
  if r.payload.isEmpty ∨ r.arrSize = 0 ∨ d.pendingConvolver.isEmpty then (d, .invalid)
  else
    let copySize := min r.arrSize.toNat (d.pendingSamples - d.pendingConvolverSize)
    let front := 4 * d.pendingConvolverSize
    ({ d with
      pendingConvolver := d.pendingConvolver.take front ++ r.payload.take (4 * copySize)
        ++ d.pendingConvolver.drop (front + 4 * copySize)
      pendingConvolverSize := d.pendingConvolverSize + copySize }, .updated)

def commitBuffer (kernelCrc : Bytes → UInt32) (d : DspResources) (r : RawParamRecord) :
    DspResources × ResourceCaptureResult :=
  let complete := 0 < r.val1.toInt ∧ r.val1.toInt.toNat = d.pendingSamples ∧ d.pendingConvolverSize = d.pendingSamples
    ∧ d.pendingConvolverChannels ≠ 0 ∧ d.pendingSamples % d.pendingConvolverChannels = 0
  if ¬ complete ∨ kernelCrc d.pendingConvolver ≠ r.val2.toUInt32 then (d.clearPendingConvolver, .invalid)
  else
    ({ d with
      convolverKernel := d.pendingConvolver
      convolverChannels := d.pendingConvolverChannels
      convolverKernelId := r.val3 }.clearPendingConvolver, .committed)

/-- the biquad sections of five coefficients from position `start` (in coefficients) on -/
def sections (payload : Bytes) (start count : ℕ) : List Bytes :=
  (List.range count).map fun k => (payload.drop (4 * (start + 5 * k))).take 20

def ddcCoefficients (d : DspResources) (r : RawParamRecord) : DspResources × ResourceCaptureResult :=
  let size := r.arrSize.toNat
  if r.payload.isEmpty ∨ size < 5 ∨ 80 < size ∨ size % 5 ≠ 0 then (d, .invalid)
  else
    ({ d with
      ddc44100 := sections r.payload 0 (size / 5)
      ddc48000 := sections r.payload size (size / 5) }, .committed)

def captureRaw (ids : ParamIds) (kernelCrc : Bytes → UInt32) (d : DspResources) (r : RawParamRecord) :
    DspResources × ResourceCaptureResult :=
  if r.param = ids.convolverPrepareBuffer then d.prepareBuffer r
  else if r.param = ids.convolverSetBuffer then d.setBuffer r
  else if r.param = ids.convolverCommitBuffer then d.commitBuffer kernelCrc r
  else if r.param = ids.ddcCoefficients then d.ddcCoefficients r
  else (d, .notResource)

end DspResources

/-! ## The engine and its graphs -/

structure DspGraphConfig where
  sampleRate : UInt32
  maxFrames : ℕ
  generation : UInt64
  deriving DecidableEq

/-- what the ViPERDSP submodule and the IEM chain provide -/
structure Engine where
  Params : Type
  Iem : Type
  Graph : Type
  ids : ParamIds
  initialParams : Params
  initialIem : Iem
  maxBlockFrames : ℕ
  /-- UpdateParameterSnapshot; none when the record is INVALID -/
  updateParameterSnapshot : Params → RawParamRecord → Option Params
  kernelCrc : Bytes → UInt32
  /-- DspGraph::Prepare followed by DspResources::ApplyTo -/
  prepare : DspGraphConfig → Params → DspResources → Option Graph
  dispatchIem : Iem → RawParamRecord → Iem
  iemResourceGeneration : Iem → UInt64

structure DspGraphSlots (E : Engine) where
  active : Option (DspGraphConfig × E.Graph) := none
  pending : Option (DspGraphConfig × E.Graph) := none
  previous : Option (DspGraphConfig × E.Graph) := none

namespace DspGraphSlots

variable {E : Engine}

def retractPending (g : DspGraphSlots E) : DspGraphSlots E := { g with pending := none }

def preparePending (g : DspGraphSlots E) (config : DspGraphConfig) (params : E.Params) (resources : DspResources) :
    Option (DspGraphSlots E) :=
  match g.active with
  | none => none
  | some active =>
    if g.pending.isSome ∨ g.previous.isSome ∨ config.generation ≤ active.1.generation then none
    else (E.prepare config params resources).map fun graph => { g with pending := some (config, graph) }

end DspGraphSlots

/-! ## The context -/

inductive DisableReason where
  | unknown
  | none
  | invalidFrameCount
  | invalidSamplingRate
  | invalidChannelCount
  | invalidFormat
  deriving DecidableEq

/-- the audio side of a context -/
structure Dsp (E : Engine) where
  disableReason : DisableReason := .none
  disableReasonMessage : String := ""
  samplingRate : UInt32 := 0
  graphSlots : DspGraphSlots E := {}
  graphGeneration : UInt64 := 0
  resources : DspResources := {}
  parameterSnapshot : E.Params := E.initialParams
  parameterMailbox : Option E.Params := none
  iemContext : E.Iem := E.initialIem
  enable : Bool := false

structure ViperContext (E : Engine) where
  snapshotApply : Controller := {}
  dsp : Dsp E := {}

section Commit

variable (E : Engine)

/-- the scratch copies after the records of a snapshot, or the first record that is refused -/
def replayRecords : E.Params → DspResources → List RawParamRecord → Except String (E.Params × DspResources)
  | params, resources, [] => .ok (params, resources)
  | params, resources, r :: rest =>
    match E.updateParameterSnapshot params r with
    | none => .error ("snapshot parameter rejected: " ++ toString r.param)
    | some params' =>
      match resources.captureRaw E.ids E.kernelCrc r with
      | (_, .invalid) => .error ("snapshot resource rejected: " ++ toString r.param)
      | (resources', _) => replayRecords params' resources' rest

def commitDaemonSnapshot : Committer (Dsp E) := fun d request =>
  if d.disableReason ≠ .none then (d, .error ("driver is bypassed: " ++ d.disableReasonMessage))
  else if d.graphSlots.active.isNone then (d, .error "driver is not configured yet")
  else match replayRecords E d.parameterSnapshot d.resources request.parameters with
    | .error e => (d, .error e)
    | .ok (stagedParams, stagedResources) =>
      -- a pending graph the audio thread has not consumed is superseded
      let slots := d.graphSlots.retractPending
      let config : DspGraphConfig := ⟨d.samplingRate, E.maxBlockFrames, d.graphGeneration + 1⟩
      match slots.preparePending config stagedParams stagedResources with
      | none => ({ d with graphSlots := slots }, .error "failed to prepare snapshot DSP graph")
      | some prepared =>
        let iem := request.iemParameters.foldl E.dispatchIem d.iemContext
        ({ d with
          graphSlots := prepared
          graphGeneration := config.generation
          resources := stagedResources
          parameterSnapshot := stagedParams
          parameterMailbox := some stagedParams
          iemContext := iem
          enable := request.snapshot.masterEnabled }, .ok (E.iemResourceGeneration iem, config.generation))

/-- what the audio of a context depends on: parameters, resources, the IEM chain and the master switch -/
def Dsp.audible {E : Engine} (d : Dsp E) : E.Params × DspResources × E.Iem × Bool :=
  (d.parameterSnapshot, d.resources, d.iemContext, d.enable)

/-- **A refused COMMIT changes nothing audible.** -/
theorem commitDaemonSnapshot_refused (d : Dsp E) (request : CommitRequest) (e : String)
    (h : (commitDaemonSnapshot E d request).2 = .error e) :
    (commitDaemonSnapshot E d request).1.audible = d.audible := by
  unfold commitDaemonSnapshot at h ⊢
  split_ifs with hdis hact
  · rfl
  · rfl
  · rw [if_neg hdis, if_neg hact] at h
    cases hr : replayRecords E d.parameterSnapshot d.resources request.parameters with
    | error m => rfl
    | ok p =>
      obtain ⟨params, resources⟩ := p
      rw [hr] at h
      simp only at h ⊢
      split
      · rfl
      · rename_i prepared hp
        rw [hp] at h
        cases h

end Commit

/-! ## Commands -/

namespace ViperContext

variable (E : Engine)

def setDaemonRoute (x : ViperContext E) (deviceKeyHash : Bytes) : ViperContext E :=
  { x with snapshotApply := x.snapshotApply.setDeviceKeyHash deviceKeyHash }

/-- what `Commit` of the controller answers, with this context's committer behind it -/
def commitResult (x : ViperContext E) : Controller × Dsp E × Except ApplyError ApplyResult :=
  x.snapshotApply.commit E.ids (some (commitDaemonSnapshot E)) x.dsp

def abortSnapshot (x : ViperContext E) (reason : ApplyError) : ViperContext E :=
  { x with snapshotApply := x.snapshotApply.abort reason }

def metadataOf (b : SnapshotBegin) : SnapshotMetadata :=
  ⟨b.appGeneration, b.daemonGeneration, b.deviceKeyHash, b.totalSize, b.crc32⟩

def refusal (e : ApplyError) : SnapshotAck := { errorCode := e.code }

def handleSnapshotCommand (x : ViperContext E) (type : SnapshotCommandType) (payload : Bytes) :
    ViperContext E × SnapshotAck :=
  match type with
  | .routeAnnounce =>
    match decodeRouteAnnounce payload with
    | .error _ => (x, refusal .badMetadata)
    | .ok announce => (x.setDaemonRoute E announce.deviceKeyHash, { accepted := true })
  | .snapshotBegin =>
    match decodeSnapshotBegin payload with
    | .error _ => (x, refusal .badMetadata)
    | .ok b =>
      let p := x.snapshotApply.begin (metadataOf b)
      let ack : SnapshotAck :=
        match p.2 with
        | .ok () => { accepted := true }
        | .error e => refusal e
      ({ x with snapshotApply := p.1 },
        { ack with appGeneration := b.appGeneration, daemonGeneration := b.daemonGeneration })
  | .snapshotChunk =>
    match decodeSnapshotChunk payload with
    | .error _ => (x.abortSnapshot E .chunkRange, refusal .chunkRange)
    | .ok c =>
      let p := x.snapshotApply.append c.offset c.data
      ({ x with snapshotApply := p.1 },
        match p.2 with
        | .ok () => { accepted := true }
        | .error e => refusal e)
  | .snapshotCommit =>
    match decodeSnapshotCommit payload with
    | .error _ => (x.abortSnapshot E .badMetadata, refusal .badMetadata)
    | .ok c =>
      let p := x.commitResult E
      ({ snapshotApply := p.1, dsp := p.2.1 },
        match p.2.2 with
        | .ok r =>
          { accepted := true, appGeneration := r.appGeneration, daemonGeneration := r.daemonGeneration,
            resourceGeneration := r.resourceGeneration, graphGeneration := r.graphGeneration }
        | .error e =>
          { refusal e with appGeneration := c.appGeneration, daemonGeneration := c.daemonGeneration })
  | .snapshotAbort => (x.abortSnapshot E .aborted, { accepted := true, errorCode := ApplyError.aborted.code })

/-! ## What a command can do -/

/-- a COMMIT with this payload is accepted with this outcome -/
def Lands (x : ViperContext E) (payload : Bytes) (outcome : ApplyOutcome) : Prop :=
  (∃ c, decodeSnapshotCommit payload = .ok c) ∧ ∃ r, (x.commitResult E).2.2 = .ok r ∧ r.outcome = outcome

/-- everything a context can do with a command, with the answer it gives -/
inductive Reaction (x : ViperContext E) (type : SnapshotCommandType) (payload : Bytes) :
    ViperContext E → SnapshotAck → Prop
  | adopted (hash : Bytes) (x' : ViperContext E) (ack : SnapshotAck) (htype : type = .routeAnnounce)
      (hdecode : decodeRouteAnnounce payload = .ok { deviceKeyHash := hash }) (hx : x' = x.setDaemonRoute E hash)
      (hack : ack.accepted = true) : Reaction x type payload x' ack
  | opened (b : SnapshotBegin) (x' : ViperContext E) (ack : SnapshotAck) (htype : type = .snapshotBegin)
      (hdecode : decodeSnapshotBegin payload = .ok b) (hidle : x.snapshotApply.staging = false)
      (hroute : b.deviceKeyHash = x.snapshotApply.deviceKeyHash)
      (hx : x' = { x with
        snapshotApply := { x.snapshotApply with metadata := metadataOf b, staged := [], staging := true }.succeed })
      (hack : ack.accepted = true) : Reaction x type payload x' ack
  | extended (c : SnapshotChunk) (x' : ViperContext E) (ack : SnapshotAck) (htype : type = .snapshotChunk)
      (hdecode : decodeSnapshotChunk payload = .ok c) (hstaging : x.snapshotApply.staging = true)
      (hoffset : x.snapshotApply.appendError c.offset c.data = none)
      (hx : x' = { x with snapshotApply := { x.snapshotApply with staged := x.snapshotApply.staged ++ c.data } })
      (hack : ack.accepted = true) : Reaction x type payload x' ack
  | applied (request : CommitRequest) (resource graph : UInt64) (x' : ViperContext E) (ack : SnapshotAck)
      (htype : type = .snapshotCommit) (hstaging : x.snapshotApply.staging = true)
      (hexamine : x.snapshotApply.examine E.ids = .candidate request)
      (hcommit : (commitDaemonSnapshot E x.dsp request).2 = .ok (resource, graph))
      (hresult : x.Lands E payload .applied)
      (hx : x' = ⟨x.snapshotApply.adopt request resource graph, (commitDaemonSnapshot E x.dsp request).1⟩)
      (hack : ack.accepted = true) : Reaction x type payload x' ack
  | repeated (x' : ViperContext E) (ack : SnapshotAck) (htype : type = .snapshotCommit)
      (hstaging : x.snapshotApply.staging = true) (hexamine : x.snapshotApply.examine E.ids = .idempotent)
      (hresult : x.Lands E payload .idempotent)
      (hx : x' = { x with snapshotApply := x.snapshotApply.reset.succeed }) (hack : ack.accepted = true) :
      Reaction x type payload x' ack
  | aborted (x' : ViperContext E) (ack : SnapshotAck) (htype : type = .snapshotAbort)
      (hx : x' = x.abortSnapshot E .aborted) (hack : ack.accepted = true) : Reaction x type payload x' ack
  | kept (x' : ViperContext E) (ack : SnapshotAck)
      (htype : type = .routeAnnounce ∨ type = .snapshotBegin ∨
        x.snapshotApply.staging = false ∧ (type = .snapshotChunk ∨ type = .snapshotCommit))
      (hx : x' = x ∨ ∃ e, x' = { x with snapshotApply := x.snapshotApply.fail e })
      (hresult : type = .snapshotCommit → ∀ outcome, ¬ x.Lands E payload outcome) (hack : ack.accepted = false) :
      Reaction x type payload x' ack
  | dropped (e e' : ApplyError) (x' : ViperContext E) (ack : SnapshotAck)
      (htype : type = .snapshotChunk ∨ type = .snapshotCommit)
      (hx : x'.snapshotApply = (x.snapshotApply.abort e).fail e') (hdsp : x'.dsp.audible = x.dsp.audible)
      (hresult : type = .snapshotCommit → ∀ outcome, ¬ x.Lands E payload outcome) (hack : ack.accepted = false) :
      Reaction x type payload x' ack

theorem handle_begin (x : ViperContext E) (payload : Bytes) :
    Reaction E x .snapshotBegin payload (x.handleSnapshotCommand E .snapshotBegin payload).1
      (x.handleSnapshotCommand E .snapshotBegin payload).2 := by
  simp only [handleSnapshotCommand]
  cases hd : decodeSnapshotBegin payload with
  | error m => exact .kept _ _ (.inr (.inl rfl)) (.inl rfl) (fun h => by cases h) rfl
  | ok b =>
    obtain ⟨e, -, he⟩ | ⟨hidle, -, -, -, -, hroute, hb⟩ := Controller.begin_cases x.snapshotApply (metadataOf b)
    · simp only [he]
      exact .kept _ _ (.inr (.inl rfl)) (.inr ⟨e, rfl⟩) (fun h => by cases h) rfl
    · simp only [hb]
      exact .opened b _ _ rfl hd hidle hroute rfl rfl

theorem handle_chunk (x : ViperContext E) (payload : Bytes) :
    Reaction E x .snapshotChunk payload (x.handleSnapshotCommand E .snapshotChunk payload).1
      (x.handleSnapshotCommand E .snapshotChunk payload).2 := by
  simp only [handleSnapshotCommand]
  cases hd : decodeSnapshotChunk payload with
  | error m => exact .dropped .chunkRange .chunkRange _ _ (.inl rfl) rfl rfl (fun h => by cases h) rfl
  | ok c =>
    cases hs : x.snapshotApply.staging with
    | false =>
      have hb : x.snapshotApply.append c.offset c.data = (x.snapshotApply.fail .notStaging, .error .notStaging) := by
        simp [Controller.append, hs]
      simp only [hb]
      exact .kept _ _ (.inr (.inr ⟨hs, .inl rfl⟩)) (.inr ⟨_, rfl⟩) (fun h => by cases h) rfl
    | true =>
      cases he : x.snapshotApply.appendError c.offset c.data with
      | some e =>
        have hb : x.snapshotApply.append c.offset c.data = ((x.snapshotApply.abort e).fail e, .error e) := by
          simp [Controller.append, hs, he]
        simp only [hb]
        exact .dropped e e _ _ (.inl rfl) rfl rfl (fun h => by cases h) rfl
      | none =>
        have hb : x.snapshotApply.append c.offset c.data =
            ({ x.snapshotApply with staged := x.snapshotApply.staged ++ c.data }, .ok ()) := by
          simp [Controller.append, hs, he]
        simp only [hb]
        exact .extended c _ _ rfl hd hs he (by rfl) rfl

theorem not_lands_of_error {x : ViperContext E} {e : ApplyError} (h : (x.commitResult E).2.2 = .error e)
    (payload : Bytes) (outcome : ApplyOutcome) : ¬ x.Lands E payload outcome := by
  rintro ⟨-, r, hr, -⟩
  rw [h] at hr
  cases hr

theorem handle_commit (x : ViperContext E) (payload : Bytes) :
    Reaction E x .snapshotCommit payload (x.handleSnapshotCommand E .snapshotCommit payload).1
      (x.handleSnapshotCommand E .snapshotCommit payload).2 := by
  simp only [handleSnapshotCommand]
  cases hd : decodeSnapshotCommit payload with
  | error m =>
    refine .dropped .badMetadata .badMetadata _ _ (.inr rfl) rfl rfl (fun _ outcome hl => ?_) rfl
    obtain ⟨⟨c, hc⟩, -⟩ := hl
    rw [hd] at hc
    cases hc
  | ok c =>
    obtain ⟨hs, hb⟩ | ⟨-, e, -, hb⟩ | ⟨hs, hv, hb⟩ | ⟨hs, request, f, hv, hf, ⟨m, hm, hb⟩ | ⟨resource, graph, hr, hb⟩⟩ :=
      Controller.commit_cases E.ids (some (commitDaemonSnapshot E)) x.snapshotApply x.dsp
    · have hne := not_lands_of_error E (x := x) (e := .notStaging) (by rw [commitResult, hb]) payload
      simp only [commitResult, hb]
      exact .kept _ _ (.inr (.inr ⟨hs, .inr rfl⟩)) (.inr ⟨_, rfl⟩) (fun _ => hne) rfl
    · have hne := not_lands_of_error E (x := x) (e := e) (by rw [commitResult, hb]) payload
      simp only [commitResult, hb]
      exact .dropped e e _ _ (.inr rfl) rfl rfl (fun _ => hne) rfl
    · simp only [commitResult, hb]
      exact .repeated _ _ rfl hs hv ⟨⟨c, hd⟩, _, by rw [commitResult, hb], rfl⟩ rfl rfl
    · obtain rfl := Option.some.inj hf
      have hne := not_lands_of_error E (x := x) (e := .graphPrepareFailed) (by rw [commitResult, hb]) payload
      simp only [commitResult, hb]
      exact .dropped _ _ _ _ (.inr rfl) rfl (commitDaemonSnapshot_refused E _ _ m hm) (fun _ => hne) rfl
    · obtain rfl := Option.some.inj hf
      simp only [commitResult, hb]
      exact .applied request resource graph _ _ rfl hs hv hr ⟨⟨c, hd⟩, _, by rw [commitResult, hb], rfl⟩ rfl rfl

/-- **Everything a context can do with a command.** -/
theorem handle_reaction (x : ViperContext E) (type : SnapshotCommandType) (payload : Bytes) :
    Reaction E x type payload (x.handleSnapshotCommand E type payload).1
      (x.handleSnapshotCommand E type payload).2 := by
  cases type with
  | snapshotBegin => exact handle_begin E x payload
  | snapshotChunk => exact handle_chunk E x payload
  | snapshotCommit => exact handle_commit E x payload
  | snapshotAbort => exact .aborted _ _ rfl rfl rfl
  | routeAnnounce =>
    simp only [handleSnapshotCommand]
    cases hd : decodeRouteAnnounce payload with
    | error m => exact .kept _ _ (.inl rfl) (.inl rfl) (fun h => by cases h) rfl
    | ok announce => exact .adopted announce.deviceKeyHash _ _ rfl (decodeRouteAnnounce_current hd) rfl rfl

end ViperContext

end ViperFx.Driver
