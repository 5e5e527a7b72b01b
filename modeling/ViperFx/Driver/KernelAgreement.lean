/-
The convolver kernel of the resources against that of the engines: `ViperContext::DispatchRawParam` and `HandleSetConfig`, with
`DspResources::ApplyTo`.

A raw record goes to the resources and then to every engine in a slot, each with a staging area of its own. A graph that
SET_CONFIG stages gets the committed kernel of the resources, but not the upload they have open: it sees the rest of the upload
only, refuses it, and refuses the commit that the resources accept.

The ViPER engine is not in the repository. `ViperEngine` is its interface, and `StagesUploads` what is relied on: it stages and
commits as `CaptureRaw` does, loads what it is given, and is prepared without a kernel or an upload.

Results:
  · Follows.capture   : an engine that follows the resources still does after a record
  · kernels_agree     : the kernel of the next graph is that of the resources as long as no upload is committed that this graph
                        was staged amid
  · kernel_lost       : a configuration amid an upload
-/
import ViperFx.Driver.SetConfig

namespace ViperFx.Driver

open ViperFx.Protocol ViperFx.Channel

/-! ## The engine -/

/-- the ViPER engine and its parameter table, with the IEM chain as `Engine` has it -/
structure ViperEngine where
  Params : Type
  Iem : Type
  State : Type
  ids : ParamIds
  initialParams : Params
  initialIem : Iem
  kernelCrc : Bytes → UInt32
  updateParameterSnapshot : Params → RawParamRecord → Option Params
  isUpdated : Params → RawParamRecord → Bool
  /-- what DspGraph::Prepare makes of its engine, whatever that was: unloaded, reset, and with the snapshot applied -/
  prepared : UInt32 → Params → State
  loadDdcCoefficients : State → List Bytes → List Bytes → State
  /-- samples, frames, channels and id -/
  loadConvolverKernel : State → Bytes → ℕ → ℕ → Int32 → State
  getConvolverKernelId : State → Int32
  dispatchRawParam : State → RawParamRecord → State
  applyParams : State → Params → State
  resetAllEffects : State → State
  process : State → ℕ → State
  isIem : RawParamRecord → Bool
  dispatchIem : Iem → RawParamRecord → Iem
  prepareIem : Iem → UInt32 → ℕ → Iem
  resetIem : Iem → Iem
  processIem : Iem → ℕ → Iem
  iemResourceGeneration : Iem → UInt64

namespace DspResources

def hasConvolverKernel (d : DspResources) : Bool :=
  !d.convolverKernel.isEmpty && (d.convolverChannels == 1 || d.convolverChannels == 2 || d.convolverChannels == 4)
    && d.convolverKernel.length / 4 % d.convolverChannels == 0

def hasDdcCoefficients (d : DspResources) : Bool := !d.ddc44100.isEmpty && d.ddc44100.length == d.ddc48000.length

end DspResources

namespace ViperEngine

variable (V : ViperEngine)

/-- DspResources::ApplyTo -/
def applyTo (resources : DspResources) (engine : V.State) : Option V.State :=
  let engine :=
    if resources.hasDdcCoefficients then V.loadDdcCoefficients engine resources.ddc44100 resources.ddc48000 else engine
  if resources.hasConvolverKernel then
    let frames := resources.convolverKernel.length / 4 / resources.convolverChannels
    let engine := V.loadConvolverKernel engine resources.convolverKernel frames resources.convolverChannels
      resources.convolverKernelId
    if V.getConvolverKernelId engine ≠ resources.convolverKernelId then none else some engine
  else some engine

/-- the graphs of a context are engines that were prepared -/
def engine : Engine where
  Params := V.Params
  Iem := V.Iem
  Graph := V.State
  ids := V.ids
  initialParams := V.initialParams
  initialIem := V.initialIem
  maxBlockFrames := kMaxBlockFrames
  updateParameterSnapshot := V.updateParameterSnapshot
  kernelCrc := V.kernelCrc
  prepare := fun config params resources =>
    if dspGraphPrepares config then V.applyTo resources (V.prepared config.sampleRate params) else none
  dispatchIem := V.dispatchIem
  iemResourceGeneration := V.iemResourceGeneration

def ops : EngineOps V.engine where
  isIem := V.isIem
  isUpdated := V.isUpdated
  dispatchRawParam := V.dispatchRawParam
  applyParams := V.applyParams
  reset := V.resetAllEffects
  process := V.process
  prepareIem := V.prepareIem
  resetIem := V.resetIem
  processIem := V.processIem

end ViperEngine

/-- the staged upload and the id of the kernel: what `CaptureRaw` decides by, and what the agreement is about -/
structure KernelView where
  upload : Bytes × ℕ × ℕ := ([], 0, 0)
  kernelId : Int32 := 0
  deriving DecidableEq

def DspResources.view (d : DspResources) : KernelView := ⟨d.upload, d.convolverKernelId⟩

/-- a record of an upload: PrepareBuffer, SetBuffer or CommitBuffer -/
def isUpload (ids : ParamIds) (r : RawParamRecord) : Bool := recordKind ids r ∉ [.ddc, .other]

/-- what is relied on of the engine: every engine has resources of its own, and does with an upload what `CaptureRaw` does -/
structure StagesUploads (V : ViperEngine) where
  held : V.State → DspResources
  prepared : ∀ rate params, (held (V.prepared rate params)).view = {}
  loadDdc : ∀ engine a b, (held (V.loadDdcCoefficients engine a b)).view = (held engine).view
  loadKernel : ∀ engine samples frames channels id,
    (held (V.loadConvolverKernel engine samples frames channels id)).view = { (held engine).view with kernelId := id }
  kernelId : ∀ engine, V.getConvolverKernelId engine = (held engine).convolverKernelId
  dispatch : ∀ engine r, (held (V.dispatchRawParam engine r)).view = ((held engine).captureRaw V.ids V.kernelCrc r).1.view
  applyParams : ∀ engine params, (held (V.applyParams engine params)).view = (held engine).view
  reset : ∀ engine, (held (V.resetAllEffects engine)).view = (held engine).view
  process : ∀ engine frames, (held (V.process engine frames)).view = (held engine).view
  /-- an upload is neither a parameter of the table nor one of the IEM chain -/
  uploads : ∀ params r, isUpload V.ids r = true → V.isUpdated params r = false ∧ V.isIem r = false

/-! ## One record -/

section Capture

variable {ids : ParamIds} {kernelCrc : Bytes → UInt32} {d e : DspResources} {r : RawParamRecord}

/-- what a record does to upload and kernel id depends on these alone -/
theorem captureRaw_view (h : d.view = e.view) (r : RawParamRecord) :
    (d.captureRaw ids kernelCrc r).1.view = (e.captureRaw ids kernelCrc r).1.view := by
  obtain ⟨_, _, _, _, _, _, _, _⟩ := d
  obtain ⟨_, _, _, _, _, _, _, _⟩ := e
  simp only [DspResources.view, DspResources.upload, KernelView.mk.injEq, Prod.mk.injEq] at h
  obtain ⟨⟨rfl, rfl, rfl⟩, rfl⟩ := h
  unfold DspResources.captureRaw DspResources.prepareBuffer DspResources.setBuffer DspResources.commitBuffer
    DspResources.ddcCoefficients
  dsimp only [DspResources.pendingSamples]
  split_ifs <;> rfl

/-- PrepareBuffer opens or gives up an upload whatever was staged -/
theorem captureRaw_prepare (hkind : recordKind ids r = .prepare ∨ recordKind ids r = .clear)
    (hid : d.convolverKernelId = e.convolverKernelId) :
    (d.captureRaw ids kernelCrc r).1.view = (e.captureRaw ids kernelCrc r).1.view := by
  have hparam : r.param = ids.convolverPrepareBuffer := by
    unfold recordKind at hkind
    split_ifs at hkind <;> simp_all
  unfold DspResources.captureRaw
  rw [if_pos hparam, if_pos hparam]
  unfold DspResources.prepareBuffer
  dsimp only
  split_ifs
  · rfl
  · simp [DspResources.view, DspResources.upload, DspResources.clearPendingConvolver, hid]
  · simp [DspResources.view, DspResources.upload, hid]

/-- an engine without an upload refuses what belongs to one -/
theorem captureRaw_empty (hkind : recordKind ids r ≠ .prepare) (hclear : recordKind ids r ≠ .clear)
    (hupload : d.upload = ([], 0, 0)) : (d.captureRaw ids kernelCrc r).1.view = d.view := by
  obtain ⟨_, _, _, _, _, _, _, _⟩ := d
  simp only [DspResources.upload, Prod.mk.injEq] at hupload
  obtain ⟨rfl, rfl, rfl⟩ := hupload
  unfold recordKind at hkind hclear
  unfold DspResources.captureRaw
  split_ifs at hkind hclear ⊢ with hprepare hval hset hcommit hddc
  · exact absurd rfl hclear
  · exact absurd rfl hkind
  · simp [DspResources.setBuffer]
  · have hnone : ¬(0 < r.val1.toInt ∧ r.val1.toInt.toNat = 0) := by omega
    simp only [DspResources.commitBuffer, DspResources.pendingSamples, List.length_nil, Nat.zero_div]
    rw [if_pos (Or.inl fun h => hnone ⟨h.1, h.2.1⟩)]
    rfl
  · unfold DspResources.ddcCoefficients
    dsimp only
    split_ifs <;> rfl
  · rfl

theorem captureRaw_set (hkind : recordKind ids r = .set) :
    (d.captureRaw ids kernelCrc r).1.convolverKernelId = d.convolverKernelId := by
  unfold recordKind at hkind
  unfold DspResources.captureRaw
  split_ifs at hkind ⊢
  unfold DspResources.setBuffer
  dsimp only
  split_ifs <;> rfl

theorem captureRaw_other (hkind : isUpload ids r = false) : (d.captureRaw ids kernelCrc r).1.view = d.view := by
  unfold isUpload recordKind at hkind
  unfold DspResources.captureRaw
  split_ifs at hkind ⊢
  · simp at hkind
  · simp at hkind
  · simp at hkind
  · simp at hkind
  · unfold DspResources.ddcCoefficients
    dsimp only
    split_ifs <;> rfl
  · rfl

/-- CommitBuffer describes the upload that is staged: its samples have all arrived and have the checksum it gives -/
def DspResources.Completes (kernelCrc : Bytes → UInt32) (d : DspResources) (r : RawParamRecord) : Prop :=
  0 < r.val1.toInt ∧ r.val1.toInt.toNat = d.pendingSamples ∧ d.pendingConvolverSize = d.pendingSamples ∧
    d.pendingConvolverChannels ≠ 0 ∧ d.pendingSamples % d.pendingConvolverChannels = 0 ∧
    kernelCrc d.pendingConvolver = r.val2.toUInt32

/-- CommitBuffer ends the upload; what it commits has the id it is given -/
theorem captureRaw_commit (hkind : recordKind ids r = .commit) :
    (d.Completes kernelCrc r → (d.captureRaw ids kernelCrc r).1.view = ⟨([], 0, 0), r.val3⟩) ∧
      (¬ d.Completes kernelCrc r → (d.captureRaw ids kernelCrc r).1.view = ⟨([], 0, 0), d.convolverKernelId⟩) := by
  have hcapture : d.captureRaw ids kernelCrc r = d.commitBuffer kernelCrc r := by
    unfold recordKind at hkind
    unfold DspResources.captureRaw
    split_ifs at hkind ⊢
    rfl
  rw [hcapture]
  unfold DspResources.commitBuffer DspResources.Completes
  dsimp only
  constructor
  · rintro ⟨hpositive, hcount, hsize, hchannels, hwhole, hcrc⟩
    rw [if_neg (by simp [hpositive, hcount, hsize, hchannels, hwhole, hcrc])]
    rfl
  · intro hrefused
    rw [if_pos]
    · rfl
    · by_contra hcomplete
      simp only [not_or, not_not] at hcomplete
      obtain ⟨⟨hpositive, hcount, hsize, hchannels, hwhole⟩, hcrc⟩ := hcomplete
      exact hrefused ⟨hpositive, hcount, hsize, hchannels, hwhole, hcrc⟩

/-- the resources between two records: an upload has one, two or four channels, and so has the kernel -/
structure KernelOk (d : DspResources) : Prop where
  channels : d.pendingConvolverChannels ∈ [0, 1, 2, 4]
  closed : d.pendingConvolver = [] → d.upload = ([], 0, 0)
  kernel : d.hasConvolverKernel = true ∨ d.convolverKernelId = 0

theorem KernelOk.prepareBuffer (h : KernelOk d) (r : RawParamRecord) : KernelOk (d.prepareBuffer r).1 := by
  unfold DspResources.prepareBuffer
  dsimp only
  split_ifs with hclear hguard
  · exact ⟨by simp [DspResources.clearPendingConvolver], fun _ => rfl, .inr rfl⟩
  · exact ⟨by simp [DspResources.clearPendingConvolver], fun _ => rfl, h.kernel⟩
  · have hchannels : r.val2.toInt = 1 ∨ r.val2.toInt = 2 ∨ r.val2.toInt = 4 := by
      by_contra hnone
      simp only [not_or] at hnone
      exact hguard (.inl ⟨hnone.1, hnone.2.1, hnone.2.2⟩)
    refine ⟨?_, ?_, h.kernel⟩
    · rcases hchannels with hval | hval | hval <;> simp [hval]
    · intro hempty
      simp only [not_or, not_lt] at hguard
      have hlength := congrArg List.length hempty
      simp only [List.length_replicate, List.length_nil] at hlength
      omega

/-- samples arrive in an upload that stays open -/
theorem setBuffer_open (hopen : d.pendingConvolver ≠ []) (r : RawParamRecord) : (d.setBuffer r).1.pendingConvolver ≠ [] := by
  unfold DspResources.setBuffer
  dsimp only
  split_ifs with hguard
  · exact hopen
  · intro hempty
    simp only [not_or, List.isEmpty_iff] at hguard
    simp only [List.append_eq_nil_iff, List.take_eq_nil_iff, List.drop_eq_nil_iff, hguard.1, hopen, or_false] at hempty
    have hlength : d.pendingConvolver.length ≠ 0 := by simpa using hopen
    omega

theorem KernelOk.setBuffer (h : KernelOk d) (r : RawParamRecord) : KernelOk (d.setBuffer r).1 := by
  have hstays := setBuffer_open (d := d) (r := r)
  unfold DspResources.setBuffer at hstays ⊢
  dsimp only at hstays ⊢
  split_ifs at hstays ⊢ with hguard
  · exact h
  · simp only [not_or, List.isEmpty_iff] at hguard
    exact ⟨h.channels, fun hempty => absurd hempty (hstays hguard.2.2), h.kernel⟩

theorem KernelOk.commitBuffer (h : KernelOk d) (r : RawParamRecord) : KernelOk (d.commitBuffer kernelCrc r).1 := by
  unfold DspResources.commitBuffer
  dsimp only
  split_ifs with hguard
  · exact ⟨by simp [DspResources.clearPendingConvolver], fun _ => rfl, h.kernel⟩
  · refine ⟨by simp [DspResources.clearPendingConvolver], fun _ => rfl, .inl ?_⟩
    simp only [not_or, not_not] at hguard
    obtain ⟨⟨hpositive, hsize, -, hsome, hwhole⟩, -⟩ := hguard
    have hnonempty : d.pendingConvolver ≠ [] := by
      intro hnil
      rw [DspResources.pendingSamples, hnil, List.length_nil] at hsize
      omega
    have hchannels := h.channels
    simp only [List.mem_cons, List.not_mem_nil, or_false, hsome, false_or] at hchannels
    simp only [DspResources.hasConvolverKernel, DspResources.clearPendingConvolver, Bool.and_eq_true, Bool.or_eq_true,
      Bool.not_eq_true', List.isEmpty_eq_false_iff, beq_iff_eq]
    exact ⟨⟨hnonempty, or_assoc.mpr hchannels⟩, hwhole⟩

theorem KernelOk.capture (h : KernelOk d) (r : RawParamRecord) : KernelOk (d.captureRaw ids kernelCrc r).1 := by
  unfold DspResources.captureRaw
  split_ifs
  · exact h.prepareBuffer r
  · exact h.setBuffer r
  · exact h.commitBuffer r
  · unfold DspResources.ddcCoefficients
    dsimp only
    split_ifs
    · exact h
    · exact ⟨h.channels, h.closed, h.kernel⟩
  · exact h

/-- only a record that ends the upload closes it -/
theorem captureRaw_open (hends : recordKind ids r ∉ [.prepare, .clear, .commit]) (hopen : d.pendingConvolver ≠ []) :
    (d.captureRaw ids kernelCrc r).1.pendingConvolver ≠ [] := by
  unfold recordKind at hends
  unfold DspResources.captureRaw
  split_ifs at hends ⊢
  · simp at hends
  · simp at hends
  · exact setBuffer_open hopen r
  · simp at hends
  · unfold DspResources.ddcCoefficients
    dsimp only
    split_ifs <;> exact hopen
  · exact hopen

end Capture

/-! ## An engine that follows the resources -/

/-- the records after which nothing of an earlier upload is left -/
def endsUpload (ids : ParamIds) (r : RawParamRecord) : Bool := recordKind ids r ∈ [.prepare, .clear, .commit]

theorem endsUpload_isUpload {ids : ParamIds} {r : RawParamRecord} (h : endsUpload ids r = true) : isUpload ids r = true := by
  unfold endsUpload at h
  unfold isUpload
  cases hkind : recordKind ids r <;> simp_all

/-- the engine has the kernel of the resources and stages their upload, or none if it came late -/
def Follows (late : Prop) [Decidable late] (resources held : DspResources) : Prop :=
  held.view = ⟨if late then ([], 0, 0) else resources.upload, resources.convolverKernelId⟩

section Follow

variable {ids : ParamIds} {kernelCrc : Bytes → UInt32} {late : Prop} [Decidable late] {resources held : DspResources}

theorem Follows.of_view {late' : Prop} [Decidable late'] (h : held.view = resources.view) (hlate : ¬ late') :
    Follows late' resources held := by
  unfold Follows
  rw [if_neg hlate]
  exact h

theorem Follows.kernelId (h : Follows late resources held) : held.convolverKernelId = resources.convolverKernelId :=
  congrArg KernelView.kernelId h

theorem Follows.upload (h : Follows late resources held) (hlate : late) : held.upload = ([], 0, 0) := by
  have hupload : held.upload = if late then ([], 0, 0) else resources.upload := congrArg KernelView.upload h
  rwa [if_pos hlate] at hupload

/-- **An engine that follows the resources still does after a record**, unless it came late and the record commits the upload -/
theorem Follows.capture (h : Follows late resources held) (r : RawParamRecord)
    (hcommit : recordKind ids r = .commit → resources.Completes kernelCrc r → late → r.val3 = resources.convolverKernelId) :
    Follows (late ∧ endsUpload ids r = false) (resources.captureRaw ids kernelCrc r).1
      (held.captureRaw ids kernelCrc r).1 := by
  by_cases hlate : late
  · have hempty := h.upload hlate
    cases hkind : recordKind ids r with
    | prepare => exact .of_view (captureRaw_prepare (.inl hkind) h.kernelId) (by simp [endsUpload, hkind])
    | clear => exact .of_view (captureRaw_prepare (.inr hkind) h.kernelId) (by simp [endsUpload, hkind])
    | set =>
      have hlate' : late ∧ endsUpload ids r = false := ⟨hlate, by simp [endsUpload, hkind]⟩
      unfold Follows
      rw [if_pos hlate', captureRaw_set hkind, captureRaw_empty (by rw [hkind]; decide) (by rw [hkind]; decide) hempty,
        DspResources.view, hempty, h.kernelId]
    | commit =>
      apply Follows.of_view
      · rw [captureRaw_empty (by rw [hkind]; decide) (by rw [hkind]; decide) hempty, DspResources.view, hempty, h.kernelId]
        by_cases hcompletes : resources.Completes kernelCrc r
        · rw [(captureRaw_commit hkind).1 hcompletes, hcommit hkind hcompletes hlate]
        · rw [(captureRaw_commit hkind).2 hcompletes]
      · simp [endsUpload, hkind]
    | ddc | other =>
      have hupload : isUpload ids r = false := by simp [isUpload, hkind]
      have hlate' : late ∧ endsUpload ids r = false := ⟨hlate, by simp [endsUpload, hkind]⟩
      have hresources : (resources.captureRaw ids kernelCrc r).1.view = resources.view := captureRaw_other hupload
      have hid : (resources.captureRaw ids kernelCrc r).1.convolverKernelId = resources.convolverKernelId :=
        congrArg KernelView.kernelId hresources
      unfold Follows
      rw [if_pos hlate', captureRaw_other hupload, hid, DspResources.view, hempty, h.kernelId]
  -- the engine stages what the resources stage
  · have hsame : held.view = resources.view := by
      unfold Follows at h
      rwa [if_neg hlate] at h
    exact .of_view (captureRaw_view hsame r) fun hboth => hlate hboth.1

/-- an engine that came late refuses the commit that the resources accept -/
theorem Follows.lost (h : Follows late resources held) {r : RawParamRecord} (hlate : late)
    (hkind : recordKind ids r = .commit) (hcompletes : resources.Completes kernelCrc r) :
    (held.captureRaw ids kernelCrc r).1.convolverKernelId = resources.convolverKernelId ∧
      (resources.captureRaw ids kernelCrc r).1.convolverKernelId = r.val3 := by
  have hheld : (held.captureRaw ids kernelCrc r).1.view = held.view :=
    captureRaw_empty (by rw [hkind]; decide) (by rw [hkind]; decide) (h.upload hlate)
  have hresources : (resources.captureRaw ids kernelCrc r).1.view = ⟨([], 0, 0), r.val3⟩ :=
    (captureRaw_commit hkind).1 hcompletes
  exact ⟨(congrArg KernelView.kernelId hheld).trans h.kernelId, congrArg KernelView.kernelId hresources⟩

end Follow

/-! ## Slots -/

namespace DspGraphSlots

variable {E : Engine}

/-- the graph that the next block will use -/
def nextGraph (g : DspGraphSlots E) : Option (DspGraphConfig × E.Graph) := g.pending.or g.active

theorem nextGraph_mapGraphs {g : DspGraphSlots E} {f : E.Graph → E.Graph} {graph : DspGraphConfig × E.Graph}
    (hnext : graph ∈ g.nextGraph) : (graph.1, f graph.2) ∈ (g.mapGraphs f).nextGraph := by
  unfold nextGraph at hnext ⊢
  unfold mapGraphs
  cases hpending : g.pending with
  | none =>
    rw [hpending, Option.none_or] at hnext
    exact Option.mem_map_of_mem _ hnext
  | some pending =>
    rw [hpending, Option.some_or] at hnext
    exact Option.mem_map_of_mem _ hnext

/-- everything the staging of HandleSetConfig makes -/
theorem stage_slots {g g' : DspGraphSlots E} {config : DspGraphConfig} {params : E.Params} {resources : DspResources}
    (hstage : g.stage config params resources = some g') :
    ∃ graph, E.prepare config params resources = some graph ∧
      (g'.active = some (config, graph) ∧ g'.pending = none ∨
        ∃ a, g.active = some a ∧ ¬ config.generation ≤ a.1.generation ∧ g'.active = some a ∧
          g'.pending = some (config, graph)) := by
  unfold stage at hstage
  dsimp only at hstage
  split_ifs at hstage
  · unfold prepareInitial at hstage
    split_ifs at hstage
    obtain ⟨graph, hgraph, rfl⟩ := Option.map_eq_some_iff.mp hstage
    exact ⟨graph, hgraph, .inl ⟨rfl, rfl⟩⟩
  · unfold preparePending at hstage
    cases hactive : g.retractPending.active with
    | none =>
      rw [hactive] at hstage
      exact nomatch hstage
    | some active =>
      rw [hactive] at hstage
      dsimp only at hstage
      split_ifs at hstage with hbusy
      obtain ⟨graph, hgraph, rfl⟩ := Option.map_eq_some_iff.mp hstage
      exact ⟨graph, hgraph, .inr ⟨active, hactive, fun hold => hbusy (.inr (.inr hold)), rfl, rfl⟩⟩

end DspGraphSlots

/-- the active and the pending graph, with the property that a late active graph has a late successor -/
structure AllGraphs {E : Engine} (P : DspGraphConfig → E.Graph → Prop) (late : DspGraphConfig → Prop)
    (g : DspGraphSlots E) : Prop where
  active : ∀ graph ∈ g.active, P graph.1 graph.2
  pending : ∀ graph ∈ g.pending, P graph.1 graph.2
  order : ∀ a ∈ g.active, ∀ p ∈ g.pending, late a.1 → late p.1

section Slots

variable {E : Engine} {P Q : DspGraphConfig → E.Graph → Prop} {late : DspGraphConfig → Prop} {g : DspGraphSlots E}

theorem AllGraphs.next (h : AllGraphs P late g) {graph : DspGraphConfig × E.Graph} (hnext : graph ∈ g.nextGraph) :
    P graph.1 graph.2 := by
  unfold DspGraphSlots.nextGraph at hnext
  cases hpending : g.pending with
  | none =>
    rw [hpending, Option.none_or] at hnext
    exact h.active graph hnext
  | some pending =>
    rw [hpending, Option.some_or] at hnext
    exact h.pending graph (hpending.trans hnext)

/-- no graph is late when the next one is not -/
theorem AllGraphs.early (h : AllGraphs P late g) (hnext : ∀ graph ∈ g.nextGraph, ¬ late graph.1) :
    AllGraphs (fun config graph => P config graph ∧ ¬ late config) late g := by
  unfold DspGraphSlots.nextGraph at hnext
  cases hpending : g.pending with
  | none =>
    rw [hpending] at hnext
    exact
      { active := fun graph hmem => ⟨h.active graph hmem, hnext graph hmem⟩
        pending := fun graph hmem => nomatch hpending.symm.trans hmem
        order := h.order }
  | some pending =>
    rw [hpending] at hnext
    have hlate : ¬ late pending.1 := hnext pending rfl
    refine ⟨?_, ?_, h.order⟩
    · intro graph hmem
      exact ⟨h.active graph hmem, fun hgraph => hlate (h.order graph hmem pending hpending hgraph)⟩
    · intro graph hmem
      obtain rfl : pending = graph := Option.some.inj (hpending.symm.trans hmem)
      exact ⟨h.pending pending hmem, hlate⟩

theorem AllGraphs.imp (h : AllGraphs P late g) {late' : DspGraphConfig → Prop}
    (hpq : ∀ config graph, P config graph → Q config graph) (hlate : ∀ a p, (late a → late p) → late' a → late' p) :
    AllGraphs Q late' g :=
  ⟨fun graph hmem => hpq _ _ (h.active graph hmem), fun graph hmem => hpq _ _ (h.pending graph hmem),
    fun a ha p hp => hlate _ _ (h.order a ha p hp)⟩

theorem forall_map {f : E.Graph → E.Graph} (hf : ∀ config graph, P config graph → Q config (f graph))
    {slot : Option (DspGraphConfig × E.Graph)} (h : ∀ graph ∈ slot, P graph.1 graph.2) :
    ∀ graph ∈ slot.map (Prod.map id f), Q graph.1 graph.2 := by
  intro graph hmem
  obtain ⟨before, hbefore, rfl⟩ := Option.map_eq_some_iff.mp hmem
  exact hf _ _ (h before hbefore)

theorem AllGraphs.mapGraphs (h : AllGraphs P late g) {f : E.Graph → E.Graph}
    (hf : ∀ config graph, P config graph → Q config (f graph)) : AllGraphs Q late (g.mapGraphs f) := by
  refine ⟨forall_map hf h.active, forall_map hf h.pending, ?_⟩
  intro a ha p hp
  obtain ⟨before, hbefore, rfl⟩ := Option.map_eq_some_iff.mp ha
  obtain ⟨after, hafter, rfl⟩ := Option.map_eq_some_iff.mp hp
  exact h.order before hbefore after hafter

theorem AllGraphs.mapActive (h : AllGraphs P late g) {f : E.Graph → E.Graph}
    (hf : ∀ config graph, P config graph → P config (f graph)) (previous : Option (DspGraphConfig × E.Graph)) :
    AllGraphs P late { g with active := g.active.map (Prod.map id f), previous := previous } := by
  refine ⟨forall_map hf h.active, h.pending, ?_⟩
  intro a ha p hp
  obtain ⟨before, hbefore, rfl⟩ := Option.map_eq_some_iff.mp ha
  exact h.order before hbefore p hp

theorem AllGraphs.retractPending (h : AllGraphs P late g) : AllGraphs P late g.retractPending :=
  ⟨h.active, nofun, fun _ _ => nofun⟩

theorem AllGraphs.releasePrevious (h : AllGraphs P late g) : AllGraphs P late g.releasePrevious :=
  ⟨h.active, h.pending, h.order⟩

theorem AllGraphs.consumePending (h : AllGraphs P late g) : AllGraphs P late g.consumePending := by
  unfold DspGraphSlots.consumePending
  cases hpending : g.pending with
  | none => exact h
  | some graph => exact ⟨fun x hx => h.pending x (hpending.trans hx), nofun, fun _ _ => nofun⟩

/-- the steps of a block on a graph keep `P` -/
structure KeptByBlocks (O : EngineOps E) (P : DspGraphConfig → E.Graph → Prop) : Prop where
  process : ∀ config graph frames, P config graph → P config (O.process graph frames)
  applyParams : ∀ config graph params, P config graph → P config (O.applyParams graph params)
  reset : ∀ config graph, P config graph → P config (O.reset graph)

variable {O : EngineOps E} (hkept : KeptByBlocks O P) {s : EffectContext E} (h : AllGraphs P late s.dsp.graphSlots)
include hkept h

omit hkept in
theorem AllGraphs.swapPending : AllGraphs P late s.swapPending.dsp.graphSlots := by
  unfold EffectContext.swapPending
  cases hpending : s.dsp.graphSlots.pending with
  | none => exact h
  | some pending =>
    dsimp only
    split_ifs
    · exact h.consumePending.releasePrevious
    · exact h.consumePending

theorem AllGraphs.consumeLatest : AllGraphs P late (s.consumeLatest O).dsp.graphSlots := by
  unfold EffectContext.consumeLatest
  cases s.dsp.parameterMailbox with
  | none => exact h
  | some params => exact h.mapActive (fun config graph => hkept.applyParams config graph params) _

theorem AllGraphs.restart (elapsed : ℕ) : AllGraphs P late (s.restart O elapsed).dsp.graphSlots := by
  unfold EffectContext.restart
  split_ifs
  · exact h
  · exact h.mapActive hkept.reset none

theorem AllGraphs.runGraphs (frames : ℕ) : AllGraphs P late (s.runGraphs O frames).1.dsp.graphSlots := by
  have hran : AllGraphs P late (s.dsp.graphSlots.mapRunning fun graph => O.process graph frames) :=
    h.mapActive (fun config graph => hkept.process config graph frames) _
  unfold EffectContext.runGraphs
  cases hactive : s.dsp.graphSlots.active with
  | none => exact h
  | some active =>
    dsimp only
    split_ifs
    · exact h
    · have hprocessed := h.mapActive (fun config graph => hkept.process config graph frames) s.dsp.graphSlots.previous
      rw [hactive] at hprocessed
      exact hprocessed
    · exact hran.releasePrevious
    · exact hran.releasePrevious
    · exact hran
    · exact hran

/-- a block keeps what its steps on a graph keep -/
theorem AllGraphs.process (inBuffer outBuffer : Option AudioBuffer) (elapsed : ℕ) :
    AllGraphs P late (s.process O inBuffer outBuffer elapsed).1.dsp.graphSlots := by
  unfold EffectContext.process
  split_ifs
  · exact h
  · cases EffectContext.blockFrames s.config inBuffer outBuffer with
    | none => exact h
    | some frames =>
      have hprelude := AllGraphs.restart hkept (AllGraphs.consumeLatest hkept h.swapPending) elapsed
      dsimp only
      unfold EffectContext.processBlock
      dsimp only
      split_ifs
      · exact h.swapPending
      · exact hprelude
      · exact AllGraphs.runGraphs hkept hprelude frames
      · exact hprelude
  · exact h

end Slots

/-! ## Runs -/

/-- SET_PARAM, SET_CONFIG and blocks, with the commands that let blocks run -/
inductive KernelEvent where
  | setParam (record : RawParamRecord)
  | setConfig (new : EffectConfig)
  | block (inBuffer outBuffer : Option AudioBuffer) (elapsed : ℕ)
  | enable
  | disable
  | reset

def KernelEvent.event : KernelEvent → ContextEvent
  | .setParam record => .command (.setParam record)
  | .setConfig new => .setConfig new
  | .block inBuffer outBuffer elapsed => .block inBuffer outBuffer elapsed
  | .enable => .command .enable
  | .disable => .command .disable
  | .reset => .command .reset

/-- a context, with the generations of the graphs that were staged amid the upload its resources have open -/
structure KernelRun (V : ViperEngine) where
  context : EffectContext V.engine := {}
  amid : List UInt64 := []

namespace KernelRun

variable {V : ViperEngine}

/-- SET_CONFIG is valid and its graph gets a slot -/
def stagesGraph (s : EffectContext V.engine) (new : EffectConfig) : Bool :=
  (s.config.merge new).refusal.isNone &&
    (s.dsp.graphSlots.stage (s.stagedConfig new) s.dsp.parameterSnapshot s.dsp.resources).isSome

def step (run : KernelRun V) (event : KernelEvent) : KernelRun V where
  context := event.event.run V.ops run.context
  amid :=
    match event with
    | .setParam r => if endsUpload V.ids r then [] else run.amid
    | .setConfig new =>
      if stagesGraph run.context new && !run.context.dsp.resources.pendingConvolver.isEmpty then
        (run.context.stagedConfig new).generation :: run.amid
      else run.amid
    | _ => run.amid

def after (run : KernelRun V) (events : List KernelEvent) : KernelRun V := events.foldl step run

/-- a record does not commit, under an id of its own, an upload that the next graph was staged amid -/
def Whole (run : KernelRun V) : KernelEvent → Prop
  | .setParam r =>
    recordKind V.ids r = .commit → run.context.dsp.resources.Completes V.kernelCrc r →
      r.val3 ≠ run.context.dsp.resources.convolverKernelId →
        ∀ graph ∈ run.context.dsp.graphSlots.nextGraph, graph.1.generation ∉ run.amid
  | _ => True

def AllWhole (run : KernelRun V) : List KernelEvent → Prop
  | [] => True
  | event :: events => run.Whole event ∧ (run.step event).AllWhole events

/-- the graph that the next block will use has the kernel of the resources, when they have no upload open -/
def Agrees (run : KernelRun V) : Prop :=
  run.context.dsp.resources.pendingConvolver = [] →
    ∀ graph ∈ run.context.dsp.graphSlots.nextGraph,
      V.getConvolverKernelId graph.2 = run.context.dsp.resources.convolverKernelId

/-- every engine that a block may come to use follows the resources -/
structure Followed (K : StagesUploads V) (run : KernelRun V) : Prop where
  resources : KernelOk run.context.dsp.resources
  graphs : AllGraphs
    (fun config engine => Follows (config.generation ∈ run.amid) run.context.dsp.resources (K.held engine))
    (fun config => config.generation ∈ run.amid) run.context.dsp.graphSlots
  closed : run.context.dsp.resources.pendingConvolver = [] → run.amid = []

variable {K : StagesUploads V} {run : KernelRun V}

theorem Followed.agrees (h : Followed K run) : run.Agrees := by
  intro _ graph hnext
  exact (K.kernelId graph.2).trans (h.graphs.next hnext).kernelId

/-! ### SET_PARAM -/

section SetParam

variable {r : RawParamRecord}

/-- what every record is, by the kind of it -/
theorem setParam_cases (K : StagesUploads V) (s : EffectContext V.engine) (r : RawParamRecord) :
    (isUpload V.ids r = false ∧ (s.dispatchRawParam V.ops r).dsp.graphSlots = s.dsp.graphSlots ∧
      (s.dispatchRawParam V.ops r).dsp.resources.view = s.dsp.resources.view) ∨
    (s.dispatchRawParam V.ops r).dsp.graphSlots = s.dsp.graphSlots.mapGraphs (fun engine => V.dispatchRawParam engine r) ∧
      (s.dispatchRawParam V.ops r).dsp.resources = (s.dsp.resources.captureRaw V.ids V.kernelCrc r).1 := by
  have huploads := K.uploads s.dsp.parameterSnapshot r
  unfold EffectContext.dispatchRawParam
  dsimp only
  by_cases hiem : V.ops.isIem r = true
  · rw [if_pos hiem]
    have hupload : isUpload V.ids r = false := by
      by_contra hupload
      exact absurd (hiem.symm.trans (huploads (by simpa using hupload)).2) nofun
    exact .inl ⟨hupload, rfl, rfl⟩
  · rw [if_neg hiem]
    by_cases hupdated : V.ops.isUpdated s.dsp.parameterSnapshot r = true
    · rw [if_pos hupdated]
      have hupload : isUpload V.ids r = false := by
        by_contra hupload
        exact absurd (hupdated.symm.trans (huploads (by simpa using hupload)).1) nofun
      exact .inl ⟨hupload, rfl, captureRaw_other hupload⟩
    · rw [if_neg hupdated]
      exact .inr ⟨rfl, rfl⟩

theorem setParam_kernelOk {s : EffectContext V.engine} (h : KernelOk s.dsp.resources) (r : RawParamRecord) :
    KernelOk (s.dispatchRawParam V.ops r).dsp.resources := by
  unfold EffectContext.dispatchRawParam
  dsimp only
  split_ifs
  · exact h
  · exact h.capture r
  · exact h.capture r

/-- a graph that stays early or late with the upload that is left -/
theorem mem_amid_iff (generation : UInt64) :
    generation ∈ (run.step (.setParam r)).amid ↔ generation ∈ run.amid ∧ endsUpload V.ids r = false := by
  show generation ∈ (if endsUpload V.ids r then [] else run.amid) ↔ _
  split_ifs with hends
  · simp [hends]
  · simp [hends]

/-- an engine does with a record what `CaptureRaw` does -/
theorem dispatch_follows (K : StagesUploads V) {late : Prop} [Decidable late] {resources : DspResources} {engine : V.State}
    (h : Follows late resources (K.held engine))
    (hcommit : recordKind V.ids r = .commit → resources.Completes V.kernelCrc r → late →
      r.val3 = resources.convolverKernelId) :
    Follows (late ∧ endsUpload V.ids r = false) (resources.captureRaw V.ids V.kernelCrc r).1
      (K.held (V.dispatchRawParam engine r)) :=
  (K.dispatch engine r).trans (h.capture r hcommit)

theorem Followed.setParam (h : Followed K run) (hwhole : run.Whole (.setParam r)) : Followed K (run.step (.setParam r)) := by
  have hresources : KernelOk (run.step (.setParam r)).context.dsp.resources := setParam_kernelOk h.resources r
  obtain ⟨hupload, hslots, hview⟩ | ⟨hslots, hcapture⟩ := setParam_cases K run.context r
  -- not a record of an upload
  · have hends : endsUpload V.ids r = false := by
      by_contra hends
      exact absurd ((endsUpload_isUpload (by simpa using hends)).symm.trans hupload) nofun
    have hamid : (run.step (.setParam r)).amid = run.amid := by simp [step, hends]
    have hpending : (run.step (.setParam r)).context.dsp.resources.upload = run.context.dsp.resources.upload :=
      congrArg KernelView.upload hview
    have hid : (run.step (.setParam r)).context.dsp.resources.convolverKernelId =
        run.context.dsp.resources.convolverKernelId := congrArg KernelView.kernelId hview
    have hgraphs := h.graphs
    rw [← hslots] at hgraphs
    refine ⟨hresources, ?_, ?_⟩
    · rw [hamid]
      refine hgraphs.imp ?_ fun _ _ => id
      intro config engine hfollows
      unfold Follows at hfollows ⊢
      rw [hpending, hid]
      exact hfollows
    · intro hempty
      rw [hamid]
      exact h.closed ((congrArg Prod.fst hpending).symm.trans hempty)
  -- a record that every engine sees
  · have hengines : AllGraphs
        (fun config engine => Follows (config.generation ∈ run.amid) run.context.dsp.resources (K.held engine) ∧
          (recordKind V.ids r = .commit → run.context.dsp.resources.Completes V.kernelCrc r → config.generation ∈ run.amid →
            r.val3 = run.context.dsp.resources.convolverKernelId))
        (fun config => config.generation ∈ run.amid) run.context.dsp.graphSlots := by
      by_cases hcommits : recordKind V.ids r = .commit ∧ run.context.dsp.resources.Completes V.kernelCrc r ∧
          r.val3 ≠ run.context.dsp.resources.convolverKernelId
      · obtain ⟨hkind, hcompletes, hid⟩ := hcommits
        refine (h.graphs.early (hwhole hkind hcompletes hid)).imp ?_ fun _ _ => id
        intro config engine hfollows
        exact ⟨hfollows.1, fun _ _ hlate => absurd hlate hfollows.2⟩
      · refine h.graphs.imp ?_ fun _ _ => id
        intro config engine hfollows
        exact ⟨hfollows, fun hkind hcompletes _ => by_contra fun hid => hcommits ⟨hkind, hcompletes, hid⟩⟩
    have hdispatched := hengines.mapGraphs (f := fun engine => V.dispatchRawParam engine r)
      (Q := fun config engine => Follows (config.generation ∈ (run.step (.setParam r)).amid)
        (run.step (.setParam r)).context.dsp.resources (K.held engine)) (by
        intro config engine hfollows
        have hcaptured := dispatch_follows K hfollows.1 hfollows.2
        rw [← hcapture] at hcaptured
        unfold Follows at hcaptured ⊢
        simp only [mem_amid_iff]
        exact hcaptured)
    rw [← hslots] at hdispatched
    refine ⟨hresources, ?_, ?_⟩
    · refine hdispatched.imp (fun _ _ => id) ?_
      intro a p horder hlate
      rw [mem_amid_iff] at hlate ⊢
      exact ⟨horder hlate.1, hlate.2⟩
    · intro hempty
      show (if endsUpload V.ids r then [] else run.amid) = []
      split_ifs with hends
      · rfl
      · apply h.closed
        by_contra hopen
        have hstays : recordKind V.ids r ∉ [.prepare, .clear, .commit] := by simpa [endsUpload] using hends
        exact captureRaw_open hstays hopen ((congrArg DspResources.pendingConvolver hcapture).symm.trans hempty)

/-- a commit of an upload that the next graph was staged amid leaves that graph with the kernel before -/
theorem Followed.disagrees (h : Followed K run) {event : KernelEvent} (hbroken : ¬ run.Whole event) :
    ¬ (run.step event).Agrees := by
  cases event with
  | setParam r =>
    simp only [Whole, not_forall, not_not] at hbroken
    obtain ⟨hkind, hcompletes, hid, graph, hnext, hlate⟩ := hbroken
    obtain ⟨hupload, -⟩ | ⟨hslots, hcapture⟩ := setParam_cases K run.context r
    · simp [isUpload, hkind] at hupload
    · intro hagrees
      have hlost := (h.graphs.next hnext).lost hlate hkind hcompletes
      have hclosed : (run.context.dsp.resources.captureRaw V.ids V.kernelCrc r).1.view = ⟨([], 0, 0), r.val3⟩ :=
        (captureRaw_commit hkind).1 hcompletes
      have hempty : (run.step (.setParam r)).context.dsp.resources.pendingConvolver = [] :=
        (congrArg DspResources.pendingConvolver hcapture).trans (congrArg (fun v => v.upload.1) hclosed)
      have hnext' : (graph.1, V.dispatchRawParam graph.2 r) ∈ (run.step (.setParam r)).context.dsp.graphSlots.nextGraph := by
        show _ ∈ (run.context.dispatchRawParam V.ops r).dsp.graphSlots.nextGraph
        rw [hslots]
        exact DspGraphSlots.nextGraph_mapGraphs hnext
      have hsame := hagrees hempty _ hnext'
      have hheld : (K.held (V.dispatchRawParam graph.2 r)).convolverKernelId =
          ((K.held graph.2).captureRaw V.ids V.kernelCrc r).1.convolverKernelId :=
        congrArg KernelView.kernelId (K.dispatch graph.2 r)
      have hresources : (run.step (.setParam r)).context.dsp.resources.convolverKernelId = r.val3 :=
        (congrArg DspResources.convolverKernelId hcapture).trans hlost.2
      apply hid
      calc r.val3 = (run.step (.setParam r)).context.dsp.resources.convolverKernelId := hresources.symm
        _ = V.getConvolverKernelId (V.dispatchRawParam graph.2 r) := hsame.symm
        _ = (K.held (V.dispatchRawParam graph.2 r)).convolverKernelId := K.kernelId _
        _ = ((K.held graph.2).captureRaw V.ids V.kernelCrc r).1.convolverKernelId := hheld
        _ = run.context.dsp.resources.convolverKernelId := hlost.1
  | setConfig | block | enable | disable | reset => exact absurd trivial hbroken

end SetParam

/-! ### SET_CONFIG -/

/-- a graph that is prepared now has the committed kernel, and no upload -/
theorem prepare_follows (K : StagesUploads V) {resources : DspResources} (hresources : KernelOk resources)
    {config : DspGraphConfig} {params : V.Params} {engine : V.State}
    (h : V.engine.prepare config params resources = some engine) :
    (K.held engine).view = ⟨([], 0, 0), resources.convolverKernelId⟩ := by
  have happly : V.applyTo resources (V.prepared config.sampleRate params) = some engine := by
    simp only [ViperEngine.engine] at h
    split_ifs at h
    exact h
  unfold ViperEngine.applyTo at happly
  dsimp only at happly
  -- the coefficients do not matter to the kernel
  have hddc : (K.held (if resources.hasDdcCoefficients = true then
      V.loadDdcCoefficients (V.prepared config.sampleRate params) resources.ddc44100 resources.ddc48000
      else V.prepared config.sampleRate params)).view = {} := by
    split_ifs
    · rw [K.loadDdc, K.prepared]
    · exact K.prepared _ _
  generalize (if resources.hasDdcCoefficients = true then
    V.loadDdcCoefficients (V.prepared config.sampleRate params) resources.ddc44100 resources.ddc48000
    else V.prepared config.sampleRate params) = loaded at hddc happly
  split_ifs at happly with hkernel
  · obtain rfl := Option.some.inj happly
    rw [K.loadKernel, hddc]
  · obtain rfl := Option.some.inj happly
    rw [hddc, hresources.kernel.resolve_left hkernel]

/-- everything SET_CONFIG does to a run -/
theorem setConfig_run (run : KernelRun V) (new : EffectConfig) :
    (run.step (.setConfig new)).context.dsp.resources = run.context.dsp.resources ∧
      ((run.step (.setConfig new)).amid = run.amid ∧
          ((run.step (.setConfig new)).context.dsp.graphSlots = run.context.dsp.graphSlots ∨
            (run.step (.setConfig new)).context.dsp.graphSlots = run.context.dsp.graphSlots.retractPending) ∨
        run.context.dsp.graphSlots.stage (run.context.stagedConfig new) run.context.dsp.parameterSnapshot
            run.context.dsp.resources = some (run.step (.setConfig new)).context.dsp.graphSlots ∧
          (run.step (.setConfig new)).amid =
            if run.context.dsp.resources.pendingConvolver = [] then run.amid
            else (run.context.stagedConfig new).generation :: run.amid) := by
  have hcontext : (run.step (.setConfig new)).context = run.context.setConfig V.ops new := rfl
  have hamid : (run.step (.setConfig new)).amid =
      if stagesGraph run.context new && !run.context.dsp.resources.pendingConvolver.isEmpty then
        (run.context.stagedConfig new).generation :: run.amid
      else run.amid := rfl
  rw [hcontext, hamid]
  cases hrefusal : (run.context.config.merge new).refusal with
  | some refusal =>
    have hstages : stagesGraph run.context new = false := by simp [stagesGraph, hrefusal]
    have hsame : (run.context.setConfig V.ops new).dsp.resources = run.context.dsp.resources ∧
        (run.context.setConfig V.ops new).dsp.graphSlots = run.context.dsp.graphSlots := by
      unfold EffectContext.setConfig
      dsimp only
      rw [hrefusal]
      exact ⟨rfl, rfl⟩
    rw [hstages]
    exact ⟨hsame.1, .inl ⟨rfl, .inl hsame.2⟩⟩
  | none =>
    obtain ⟨hrefused, -⟩ | ⟨hstage, hslots, -, -, hresources⟩ | ⟨slots, hstage, hslots, -, -, -, -, -, hresources⟩ :=
      EffectContext.setConfig_cases V.ops run.context new
    · exact absurd hrefusal hrefused
    · have hstages : stagesGraph run.context new = false := by simp [stagesGraph, hstage]
      rw [hstages]
      exact ⟨hresources, .inl ⟨rfl, .inr hslots⟩⟩
    · have hstages : stagesGraph run.context new = true := by simp [stagesGraph, hrefusal, hstage]
      rw [hstages, hslots]
      refine ⟨hresources, .inr ⟨hstage, ?_⟩⟩
      by_cases hclosed : run.context.dsp.resources.pendingConvolver = []
      · simp [hclosed]
      · simp [hclosed]

theorem Followed.setConfig (h : Followed K run) (new : EffectConfig) : Followed K (run.step (.setConfig new)) := by
  obtain ⟨hresources, ⟨hamid, hslots | hslots⟩ | ⟨hstage, hamid⟩⟩ := setConfig_run run new
  · exact ⟨by rw [hresources]; exact h.resources, by rw [hslots, hresources, hamid]; exact h.graphs,
      by rw [hresources, hamid]; exact h.closed⟩
  · exact ⟨by rw [hresources]; exact h.resources, by rw [hslots, hresources, hamid]; exact h.graphs.retractPending,
      by rw [hresources, hamid]; exact h.closed⟩
  · have hclosed : (run.step (.setConfig new)).context.dsp.resources.pendingConvolver = [] →
        (run.step (.setConfig new)).amid = [] := by
      intro hempty
      rw [hresources] at hempty
      rw [hamid, if_pos hempty]
      exact h.closed hempty
    obtain ⟨graph, hprepare, hslots⟩ := DspGraphSlots.stage_slots hstage
    have hview := prepare_follows K h.resources hprepare
    -- the new graph stages nothing, and came late if there is something to stage
    have hnew : Follows ((run.context.stagedConfig new).generation ∈ (run.step (.setConfig new)).amid)
        (run.step (.setConfig new)).context.dsp.resources (K.held graph) := by
      unfold Follows
      rw [hview, hresources, hamid]
      by_cases hempty : run.context.dsp.resources.pendingConvolver = []
      · rw [if_pos hempty, h.closed hempty, h.resources.closed hempty]
        simp
      · rw [if_neg hempty]
        simp
    refine ⟨by rw [hresources]; exact h.resources, ?_, hclosed⟩
    obtain ⟨hactive, hpending⟩ | ⟨a, ha, hnewer, hactive, hpending⟩ := hslots
    · refine ⟨?_, ?_, ?_⟩
      · intro x hx
        obtain rfl : (_, graph) = x := Option.some.inj (hactive.symm.trans hx)
        exact hnew
      · intro x hx
        exact nomatch hpending.symm.trans hx
      · intro x _ p hp
        exact nomatch hpending.symm.trans hp
    -- the active graph is older
    · have hold : a.1.generation ∈ (run.step (.setConfig new)).amid ↔ a.1.generation ∈ run.amid := by
        rw [hamid]
        split_ifs
        · rfl
        · have hne : a.1.generation ≠ (run.context.stagedConfig new).generation := by
            intro heq
            exact hnewer (heq ▸ UInt64.le_refl _)
          simp [hne]
      refine ⟨?_, ?_, ?_⟩
      · intro x hx
        obtain rfl : a = x := Option.some.inj (hactive.symm.trans hx)
        have hfollows := h.graphs.active a ha
        unfold Follows at hfollows ⊢
        rw [hresources]
        simp only [hold]
        exact hfollows
      · intro x hx
        obtain rfl : (_, graph) = x := Option.some.inj (hpending.symm.trans hx)
        exact hnew
      · intro x hx p hp hlate
        obtain rfl : a = x := Option.some.inj (hactive.symm.trans hx)
        obtain rfl : (_, graph) = p := Option.some.inj (hpending.symm.trans hp)
        rw [hold] at hlate
        rw [hamid, if_neg]
        · exact List.mem_cons_self
        · intro hempty
          rw [h.closed hempty] at hlate
          exact nomatch hlate

/-! ### Blocks and commands -/

theorem Followed.same (h : Followed K run) {event : KernelEvent} (hamid : (run.step event).amid = run.amid)
    (hresources : (run.step event).context.dsp.resources = run.context.dsp.resources)
    (hgraphs : AllGraphs
      (fun config engine => Follows (config.generation ∈ run.amid) run.context.dsp.resources (K.held engine))
      (fun config => config.generation ∈ run.amid) (run.step event).context.dsp.graphSlots) :
    Followed K (run.step event) := by
  refine ⟨?_, ?_, ?_⟩
  · rw [hresources]
    exact h.resources
  · rw [hresources, hamid]
    exact hgraphs
  · rw [hresources, hamid]
    exact h.closed

theorem follows_kept (K : StagesUploads V) (amid : List UInt64) (resources : DspResources) :
    KeptByBlocks V.ops fun config engine => Follows (config.generation ∈ amid) resources (K.held engine) where
  process := fun _ engine frames h => (K.process engine frames).trans h
  applyParams := fun _ engine params h => (K.applyParams engine params).trans h
  reset := fun _ engine h => (K.reset engine).trans h

/-- ENABLE and RESET reset every graph -/
theorem Followed.resetGraphs (h : Followed K run) :
    AllGraphs (fun config engine => Follows (config.generation ∈ run.amid) run.context.dsp.resources (K.held engine))
      (fun config => config.generation ∈ run.amid) (run.context.resetGraphs V.ops).dsp.graphSlots :=
  (h.graphs.mapGraphs (follows_kept K run.amid run.context.dsp.resources).reset).releasePrevious

theorem Followed.step (h : Followed K run) {event : KernelEvent} (hwhole : run.Whole event) : Followed K (run.step event) := by
  cases event with
  | setParam r => exact h.setParam hwhole
  | setConfig new => exact h.setConfig new
  | block inBuffer outBuffer elapsed =>
    exact h.same rfl (EffectContext.process_resources V.ops run.context inBuffer outBuffer elapsed)
      (AllGraphs.process (follows_kept K run.amid run.context.dsp.resources) h.graphs inBuffer outBuffer elapsed)
  | enable => exact h.same rfl rfl h.resetGraphs
  | disable => exact h.same rfl rfl h.graphs
  | reset => exact h.same rfl rfl h.resetGraphs

/-! ### Runs -/

theorem followed_iff (h : Followed K run) (events : List KernelEvent) :
    (∀ n, (run.after (events.take n)).Agrees) ↔ run.AllWhole events := by
  induction events generalizing run with
  | nil =>
    constructor
    · intro _
      exact trivial
    · intro _ n
      rw [List.take_nil]
      exact h.agrees
  | cons event events ih =>
    constructor
    · intro hagrees
      have hwhole : run.Whole event := by
        by_contra hbroken
        exact h.disagrees hbroken (hagrees 1)
      exact ⟨hwhole, (ih (h.step hwhole)).1 fun n => hagrees (n + 1)⟩
    · rintro ⟨hwhole, hrest⟩ n
      cases n with
      | zero => exact h.agrees
      | succ n => exact (ih (h.step hwhole)).2 hrest n

theorem followed_initial (K : StagesUploads V) : Followed K ({} : KernelRun V) where
  resources := ⟨List.mem_cons_self, fun _ => rfl, .inr rfl⟩
  graphs := ⟨nofun, nofun, nofun⟩
  closed := fun _ => rfl

/-- **The kernel of the next graph is that of the resources**, in every state of a run where no upload is open, exactly when no
upload that the next graph was staged amid is ever committed under an id of its own -/
theorem kernels_agree (K : StagesUploads V) (events : List KernelEvent) :
    (∀ n, (after ({} : KernelRun V) (events.take n)).Agrees) ↔ AllWhole ({} : KernelRun V) events :=
  followed_iff (followed_initial K) events

end KernelRun

/-! ## A configuration amid an upload -/

/-- an engine that is nothing but its resources -/
def copyEngine : ViperEngine where
  Params := Unit
  Iem := Unit
  State := DspResources
  ids := ⟨1, 2, 3, 4, 5⟩
  initialParams := ()
  initialIem := ()
  kernelCrc := crc32
  updateParameterSnapshot := fun _ _ => some ()
  isUpdated := fun _ r => !isUpload ⟨1, 2, 3, 4, 5⟩ r
  prepared := fun _ _ => {}
  loadDdcCoefficients := fun engine a b => { engine with ddc44100 := a, ddc48000 := b }
  loadConvolverKernel := fun engine samples _ channels id =>
    { engine with convolverKernel := samples, convolverChannels := channels, convolverKernelId := id }
  getConvolverKernelId := fun engine => engine.convolverKernelId
  dispatchRawParam := fun engine r => (engine.captureRaw ⟨1, 2, 3, 4, 5⟩ crc32 r).1
  applyParams := fun engine _ => engine
  resetAllEffects := fun engine => engine
  process := fun engine _ => engine
  isIem := fun _ => false
  dispatchIem := fun iem _ => iem
  prepareIem := fun iem _ _ => iem
  resetIem := fun iem => iem
  processIem := fun iem _ => iem
  iemResourceGeneration := fun _ => 0

def copyUploads : StagesUploads copyEngine where
  held := fun engine => engine
  prepared := fun _ _ => rfl
  loadDdc := fun _ _ _ => rfl
  loadKernel := fun _ _ _ _ _ => rfl
  kernelId := fun _ => rfl
  dispatch := fun _ _ => rfl
  applyParams := fun _ _ => rfl
  reset := fun _ => rfl
  process := fun _ _ => rfl
  uploads := fun _ _ hupload => ⟨congrArg not hupload, rfl⟩

/-- the records of a mono kernel of sixteen samples, all zero -/
def prepareKernel : RawParamRecord := ⟨1, 16, 1, 0, 0, []⟩

def setKernel : RawParamRecord := ⟨2, 0, 0, 0, 16, List.replicate 64 0⟩

def commitKernel (id : Int32) : RawParamRecord := ⟨3, 16, 0x758D6336, id, 0, []⟩

namespace KernelRun

/-- a configuration before the upload, and one after it -/
theorem kernels_agree_configured :
    (after ({} : KernelRun copyEngine) (List.take 5 [.setConfig (stereoFloat 48000), .setParam prepareKernel,
      .setParam setKernel, .setParam (commitKernel 7), .setConfig (stereoFloat 44100)])).Agrees :=
  (kernels_agree copyUploads [.setConfig (stereoFloat 48000), .setParam prepareKernel, .setParam setKernel,
    .setParam (commitKernel 7), .setConfig (stereoFloat 44100)]).2
    ⟨trivial, nofun, nofun, fun _ _ _ => by decide +kernel, trivial, trivial⟩ 5

/-- a configuration amid the upload: the resources accept the commit, the engine that is next refuses it -/
theorem kernel_lost :
    ¬ ∀ n, (after ({} : KernelRun copyEngine) (List.take n [.setConfig (stereoFloat 48000), .setParam prepareKernel,
      .setConfig (stereoFloat 44100), .setParam setKernel, .setParam (commitKernel 7)])).Agrees := by
  intro hagrees
  exact absurd (hagrees 5 (by decide +kernel)) (by decide +kernel)

end KernelRun

end ViperFx.Driver
