/-
GET_PARAM and the size of its reply: `ViperContext::HandleCommand` and `HandleGetParam`.

The command is copied to the reply, header and parameter, and the value is written behind the parameter, rounded up to a word. Eight
replies report a size by themselves and do not look at the capacity; the two telemetry replies compute the size they need and compare
it first. As in `SetParam`, what is read of the command is logged, and so is what is written to the reply.

Results:
  · valueReply_consistent, telemetryReply_consistent : the two kinds of reply
  · get_param_fits                                   : exactly which commands get a reply that fits and is sized consistently
-/
import ViperFx.Driver.SetParam

namespace ViperFx.Driver

open ViperFx.Protocol ViperFx.Channel

/-! ## The code -/

def kParamGetEnabled : UInt32 := 1
def kParamGetConfigure : UInt32 := 2
def kParamGetStreaming : UInt32 := 3
def kParamGetSamplingRate : UInt32 := 4
def kParamGetConvolutionKernelId : UInt32 := 5
def kParamGetDriverVersionCode : UInt32 := 6
def kParamGetDriverVersionName : UInt32 := 7
def kParamGetArchitecture : UInt32 := 8
def kParamGetTelemetry : UInt32 := 9
def kParamGetIemTelemetry : UInt32 := 10

def kTelemetryWireSize : ℕ := 320
def kIemTelemetryWireSize : ℕ := 168

def enospc : Int32 := -28
def enodata : Int32 := -61

/-- bytes written to the reply -/
structure Write where
  offset : ℕ
  bytes : Bytes
  deriving DecidableEq

def Write.access (w : Write) : Access := ⟨w.offset, w.bytes.length⟩

/-- what the build and the other components answer -/
structure ParamProbes (E : Engine) where
  processedFrames : E.Graph → UInt64
  samplingRate : E.Graph → UInt32
  convolverKernelId : E.Graph → UInt32
  versionCode : Int32
  versionName : Bytes
  architecture : Bytes
  /-- the analyzer's telemetry as it goes over the wire, when there is any -/
  telemetry : Option { wire : Bytes // wire.length = kTelemetryWireSize }
  iemTelemetry : Option { wire : Bytes // wire.length = kIemTelemetryWireSize }

/-- the context, and the frames that the last question about streaming was answered with -/
structure ParamContext (E : Engine) where
  context : EffectContext E
  lastStreamingFrames : UInt64 := 0

structure GetParamAnswer (E : Engine) where
  state : ParamContext E
  status : Int32
  replySize : UInt32
  /-- the size that the reply names for its value -/
  vsize : UInt32 := 0
  writes : List Write

/-- sizeof(effect_param_t) + reply_param->psize + offset + reply_param->vsize, as the uint32_t it is assigned to -/
def reportedSize (psize offset vsize : UInt32) : UInt32 :=
  UInt32.ofNat (effectParamSize + psize.toNat + offset.toNat + vsize.toNat)

/-- the size that a telemetry reply needs -/
def requiredSize (offset : UInt32) (wireSize : ℕ) : UInt32 := UInt32.ofNat (effectParamSize + offset.toNat + wireSize)

section Code

variable {E : Engine} (P : ParamProbes E)

/-- status, vsize and the value of a reply -/
def valueWrites (offset vsize : UInt32) (value : Bytes) : List Write :=
  [⟨0, putU32 0⟩, ⟨8, putU32 vsize⟩, ⟨effectParamSize + offset.toNat, value⟩]

/-- a reply that reports its own size; `copied` is the copy of the command -/
def valueReply (state : ParamContext E) (copied : Write) (psize offset : UInt32) (value : Bytes) : GetParamAnswer E where
  state := state
  status := 0
  replySize := reportedSize psize offset (UInt32.ofNat value.length)
  vsize := UInt32.ofNat value.length
  writes := copied :: valueWrites offset (UInt32.ofNat value.length) (value.take (UInt32.ofNat value.length).toNat)

/-- a reply that checks the capacity first -/
def telemetryReply (state : ParamContext E) (copied : Write) (offset replySize : UInt32) (wireSize : ℕ)
    (telemetry : Option { wire : Bytes // wire.length = wireSize }) : GetParamAnswer E :=
  let required := requiredSize offset wireSize
  if replySize < required then { state, status := enospc, replySize := required, writes := [copied] }
  else match telemetry with
    | none => { state, status := enodata, replySize, writes := [copied] }
    | some wire =>
      { state, status := 0, replySize := required, vsize := UInt32.ofNat wireSize
        writes := copied :: valueWrites offset (UInt32.ofNat wireSize) wire.1 }

/-- the switch over the parameter -/
def answerParam (state : ParamContext E) (copied : Write) (param psize replySize : UInt32) : GetParamAnswer E :=
  let offset := valueOffset psize
  let s := state.context
  let active := s.dsp.graphSlots.active.map Prod.snd
  let value := valueReply state copied psize offset
  if param = kParamGetEnabled then value (putU32 (if s.dsp.enable then 1 else 0))
  else if param = kParamGetConfigure then value (putU32 (if s.dsp.disableReason = .none then 1 else 0))
  else if param = kParamGetStreaming then
    let frames := (active.map P.processedFrames).getD 0
    let isProcessing : UInt32 := if frames ≠ state.lastStreamingFrames ∧ 0 < frames then 1 else 0
    valueReply { state with lastStreamingFrames := frames } copied psize offset (putU32 isProcessing)
  else if param = kParamGetSamplingRate then value (putU32 ((active.map P.samplingRate).getD 0))
  else if param = kParamGetConvolutionKernelId then value (putU32 ((active.map P.convolverKernelId).getD 0))
  else if param = kParamGetDriverVersionCode then value (putU32 P.versionCode.toUInt32)
  else if param = kParamGetDriverVersionName then value P.versionName
  else if param = kParamGetArchitecture then value P.architecture
  else if param = kParamGetTelemetry then
    telemetryReply state copied offset replySize kTelemetryWireSize P.telemetry
  else if param = kParamGetIemTelemetry then
    telemetryReply state copied offset replySize kIemTelemetryWireSize P.iemTelemetry
  else { state, status := einval, replySize, writes := [copied] }

/-- HandleGetParam -/
def handleGetParam (state : ParamContext E) (replySize : UInt32) : Reads (GetParamAnswer E) := do
  let psize ← Reads.word 4
  Reads.touch [⟨0, effectParamSize + psize.toNat⟩]
  let memory ← Reads.contents
  let copied : Write := ⟨0, memory.bytes 0 (effectParamSize + psize.toNat)⟩
  let param ← Reads.word effectParamSize
  return answerParam P state copied param psize replySize

/-- HandleCommand with EFFECT_CMD_GET_PARAM, and what it reads of the command; null pointers are `none` and `false` -/
def getParamCommand (state : ParamContext E) (cmdSize : UInt32) (cmdData : Option Memory) (replySize : Option UInt32)
    (replyData : Bool) : GetParamAnswer E × List Access :=
  let refused : GetParamAnswer E := { state, status := einval, replySize := replySize.getD 0, writes := [] }
  match cmdData with
  | none => (refused, [])
  | some memory =>
    if cmdSize.toNat < effectParamSize ∨ (replySize.getD 0).toNat < effectParamSize ∨ ¬replyData then (refused, [])
    else (handleGetParam P state (replySize.getD 0)).run memory []

end Code

/-! ## Replies that fit -/

/-- the parameter size rounded up to a word -/
def roundedSize (psize : UInt32) : ℕ := (psize.toNat + 3) / 4 * 4

theorem valueOffset_toNat (psize : UInt32) (h : roundedSize psize < 2 ^ 32) : (valueOffset psize).toNat = roundedSize psize := by
  unfold valueOffset
  rw [UInt32.toNat_ofNat']
  exact Nat.mod_eq_of_lt h

/-- what a reply is to keep: the size it reports, the bytes it writes and the bytes it was made from -/
structure GetParamAnswer.Consistent {E : Engine} (answer : GetParamAnswer E) (reads : List Access) (psize : UInt32)
    (cmdSize capacity : ℕ) : Prop where
  size : answer.replySize.toNat = effectParamSize + roundedSize psize + answer.vsize.toNat
  written : ∀ w ∈ answer.writes, w.access.Inside capacity
  read : ∀ a ∈ reads, a.Inside cmdSize

/-- the size of the value that a parameter has -/
def valueSize {E : Engine} (P : ParamProbes E) (param : UInt32) : ℕ :=
  if param = kParamGetDriverVersionName then P.versionName.length
  else if param = kParamGetArchitecture then P.architecture.length
  else 4

/-- the command covers its parameter, the reply has room for it, and the reply's size comes out right: never for a parameter of
some size, except for telemetry as long as the size does not wrap -/
structure GetParamFits {E : Engine} (P : ParamProbes E) (cmdSize capacity : UInt32) (memory : Memory) : Prop where
  param : effectParamSize + 4 ≤ cmdSize.toNat
  copied : effectParamSize + (memory.word 4).toNat ≤ cmdSize.toNat ∧ effectParamSize + (memory.word 4).toNat ≤ capacity.toNat
  value : memory.word effectParamSize ≠ kParamGetTelemetry → memory.word effectParamSize ≠ kParamGetIemTelemetry →
    memory.word 4 = 0 ∧
      effectParamSize + (UInt32.ofNat (valueSize P (memory.word effectParamSize))).toNat ≤ capacity.toNat
  telemetry : memory.word effectParamSize = kParamGetTelemetry →
    effectParamSize + roundedSize (memory.word 4) + kTelemetryWireSize < 2 ^ 32
  iemTelemetry : memory.word effectParamSize = kParamGetIemTelemetry →
    effectParamSize + roundedSize (memory.word 4) + kIemTelemetryWireSize < 2 ^ 32

/-! ## The two kinds of reply -/

section Replies

variable {E : Engine} {P : ParamProbes E} {state : ParamContext E} {copied : Write} {param psize replySize : UInt32}

/-- the reply to a parameter that is not telemetry reports its own size -/
theorem answerParam_value (hstatus : (answerParam P state copied param psize replySize).status = 0)
    (htelemetry : param ≠ kParamGetTelemetry) (hiem : param ≠ kParamGetIemTelemetry) :
    ∃ after value, value.length = valueSize P param ∧
      answerParam P state copied param psize replySize = valueReply after copied psize (valueOffset psize) value := by
  unfold answerParam at hstatus ⊢
  dsimp only at hstatus ⊢
  split_ifs at hstatus ⊢ with h1 h2 h3 h4 h5 h6 h7 h8
  all_goals first
    | exact ⟨_, _, by subst_vars; rfl, rfl⟩
    | exact absurd (show einval = 0 from hstatus) (by decide)

theorem answerParam_telemetry : answerParam P state copied kParamGetTelemetry psize replySize =
    telemetryReply state copied (valueOffset psize) replySize kTelemetryWireSize P.telemetry := rfl

theorem answerParam_iemTelemetry : answerParam P state copied kParamGetIemTelemetry psize replySize =
    telemetryReply state copied (valueOffset psize) replySize kIemTelemetryWireSize P.iemTelemetry := rfl

/-- the accesses of a reply that has been put together -/
theorem valueWrites_inside {offset vsize : UInt32} {value : Bytes} {capacity : ℕ} (hcapacity : effectParamSize ≤ capacity) :
    (∀ w ∈ valueWrites offset vsize value, w.access.Inside capacity) ↔
      value.length = 0 ∨ effectParamSize + offset.toNat + value.length ≤ capacity := by
  simp only [effectParamSize] at hcapacity
  simp only [valueWrites, List.mem_cons, List.not_mem_nil, or_false, forall_eq_or_imp, forall_eq, Access.inside_iff, Write.access,
    putU32_length, effectParamSize]
  omega

/-- a reply of a parameter that reports its own size is consistent for a parameter of no size only -/
theorem valueReply_consistent {after : ParamContext E} {value : Bytes} {reads : List Access} {cmdSize : ℕ} {capacity : UInt32}
    (hcopied : copied.access = ⟨0, effectParamSize + psize.toNat⟩) (hcapacity : effectParamSize ≤ capacity.toNat) :
    (valueReply after copied psize (valueOffset psize) value).Consistent reads psize cmdSize capacity.toNat ↔
      (∀ a ∈ reads, a.Inside cmdSize) ∧ psize = 0 ∧
        effectParamSize + (UInt32.ofNat value.length).toNat ≤ capacity.toNat := by
  have hpsize := psize.toNat_lt
  have hcap := capacity.toNat_lt
  have hlength : (value.take (UInt32.ofNat value.length).toNat).length = (UInt32.ofNat value.length).toNat := by
    rw [List.length_take, UInt32.toNat_ofNat', Nat.min_eq_left (Nat.mod_le _ _)]
  constructor
  · rintro ⟨hsize, hwritten, hread⟩
    have hsize : (reportedSize psize (valueOffset psize) (UInt32.ofNat value.length)).toNat =
      effectParamSize + roundedSize psize + (UInt32.ofNat value.length).toNat := hsize
    -- the size is reported in 32 bits, so the parameter does not round up to more
    have hbound := (reportedSize psize (valueOffset psize) (UInt32.ofNat value.length)).toNat_lt
    have hoffset := valueOffset_toNat psize (by omega)
    rw [reportedSize, UInt32.toNat_ofNat', hoffset] at hsize
    have hzero : psize.toNat = 0 := by omega
    have hnone : psize = 0 := UInt32.toNat_inj.mp hzero
    refine ⟨hread, hnone, ?_⟩
    have hvalue := (valueWrites_inside hcapacity).mp fun w hw => hwritten w (List.mem_cons_of_mem _ hw)
    rw [hlength, hoffset, hnone] at hvalue
    simp only [roundedSize, UInt32.toNat_zero] at hvalue
    omega
  · rintro ⟨hread, rfl, hroom⟩
    refine ⟨?_, ?_, hread⟩
    · show (reportedSize 0 (valueOffset 0) (UInt32.ofNat value.length)).toNat =
        effectParamSize + roundedSize 0 + (UInt32.ofNat value.length).toNat
      rw [reportedSize, UInt32.toNat_ofNat', Nat.mod_eq_of_lt]
      · rfl
      · have hzero : (valueOffset 0).toNat = 0 := rfl
        rw [hzero, UInt32.toNat_zero]
        omega
    · intro w hw
      rcases List.mem_cons.mp hw with rfl | hw
      · rw [hcopied, Access.inside_iff]
        exact .inr (by simpa using hcapacity)
      · refine (valueWrites_inside hcapacity).mpr (.inr ?_) w hw
        rw [hlength]
        exact hroom

/-- a telemetry reply is consistent when the size it compares does not wrap -/
theorem telemetryReply_consistent {wireSize : ℕ} (hwire : wireSize < 2 ^ 32)
    {telemetry : Option { wire : Bytes // wire.length = wireSize }} {reads : List Access} {cmdSize : ℕ}
    (hcopied : copied.access = ⟨0, effectParamSize + psize.toNat⟩) (hcapacity : effectParamSize ≤ replySize.toNat)
    (hstatus : (telemetryReply state copied (valueOffset psize) replySize wireSize telemetry).status = 0) :
    (telemetryReply state copied (valueOffset psize) replySize wireSize telemetry).Consistent reads psize cmdSize replySize.toNat ↔
      (∀ a ∈ reads, a.Inside cmdSize) ∧ effectParamSize + psize.toNat ≤ replySize.toNat ∧
        effectParamSize + roundedSize psize + wireSize < 2 ^ 32 := by
  have hvsize : (UInt32.ofNat wireSize).toNat = wireSize := by
    rw [UInt32.toNat_ofNat', Nat.mod_eq_of_lt hwire]
  unfold telemetryReply at hstatus ⊢
  dsimp only at hstatus ⊢
  by_cases hsmall : replySize < requiredSize (valueOffset psize) wireSize
  · rw [if_pos hsmall] at hstatus
    exact absurd (show enospc = 0 from hstatus) (by decide)
  rw [if_neg hsmall] at hstatus ⊢
  have hroom : (requiredSize (valueOffset psize) wireSize).toNat ≤ replySize.toNat := by
    exact UInt32.le_iff_toNat_le.mp (UInt32.not_lt.mp hsmall)
  cases telemetry with
  | none => exact absurd (show enodata = 0 from hstatus) (by decide)
  | some wire =>
    dsimp only
    constructor
    · rintro ⟨hsize, hwritten, hread⟩
      have hsize : (requiredSize (valueOffset psize) wireSize).toNat =
        effectParamSize + roundedSize psize + (UInt32.ofNat wireSize).toNat := hsize
      have hbound := (requiredSize (valueOffset psize) wireSize).toNat_lt
      have hcopy := hwritten copied List.mem_cons_self
      rw [hcopied, Access.inside_iff] at hcopy
      simp only [effectParamSize] at hcopy ⊢
      refine ⟨hread, by omega, ?_⟩
      rw [hvsize] at hsize
      simp only [effectParamSize] at hsize
      omega
    · rintro ⟨hread, hcopy, hfits⟩
      have hoffset := valueOffset_toNat psize (by omega)
      have hrequired : (requiredSize (valueOffset psize) wireSize).toNat = effectParamSize + roundedSize psize + wireSize := by
        rw [requiredSize, UInt32.toNat_ofNat', hoffset, Nat.mod_eq_of_lt hfits]
      refine ⟨?_, ?_, hread⟩
      · show (requiredSize (valueOffset psize) wireSize).toNat = effectParamSize + roundedSize psize + (UInt32.ofNat wireSize).toNat
        rw [hrequired, hvsize]
      · intro w hw
        rcases List.mem_cons.mp hw with rfl | hw
        · rw [hcopied, Access.inside_iff]
          exact .inr (by simpa using hcopy)
        · refine (valueWrites_inside hcapacity).mpr (.inr ?_) w hw
          rw [wire.2, hoffset]
          omega

end Replies

/-! ## GET_PARAM -/

section GetParam

variable {E : Engine} (P : ParamProbes E)

theorem run_handleGetParam (state : ParamContext E) (replySize : UInt32) (memory : Memory) :
    (handleGetParam P state replySize).run memory [] =
      (answerParam P state ⟨0, memory.bytes 0 (effectParamSize + (memory.word 4).toNat)⟩ (memory.word effectParamSize)
        (memory.word 4) replySize, [⟨4, 4⟩, ⟨0, effectParamSize + (memory.word 4).toNat⟩, ⟨effectParamSize, 4⟩]) := rfl

/-- **A reply that fits.** A command that is answered with status 0 gets a reply with the size that its value and its parameter
have, written inside the capacity and made from bytes inside the command, exactly when the command covers its parameter, there is
room for the copy and the value, and the parameter has no size at all or is one of the telemetry parameters. -/
theorem get_param_fits (state : ParamContext E) (cmdSize capacity : UInt32) (memory : Memory) (replyData : Bool)
    (hstatus : (getParamCommand P state cmdSize (some memory) (some capacity) replyData).1.status = 0) :
    (getParamCommand P state cmdSize (some memory) (some capacity) replyData).1.Consistent
        (getParamCommand P state cmdSize (some memory) (some capacity) replyData).2 (memory.word 4) cmdSize.toNat capacity.toNat ↔
      GetParamFits P cmdSize capacity memory := by
  unfold getParamCommand at hstatus ⊢
  dsimp only [Option.getD_some] at hstatus ⊢
  by_cases hrefused : cmdSize.toNat < effectParamSize ∨ capacity.toNat < effectParamSize ∨ ¬replyData = true
  · rw [if_pos hrefused] at hstatus
    exact absurd (show einval = 0 from hstatus) (by decide)
  rw [if_neg hrefused, run_handleGetParam] at hstatus ⊢
  dsimp only at hstatus ⊢
  push Not at hrefused
  obtain ⟨hheader, hcapacity, -⟩ := hrefused
  have hcopied : (⟨0, memory.bytes 0 (effectParamSize + (memory.word 4).toNat)⟩ : Write).access =
      ⟨0, effectParamSize + (memory.word 4).toNat⟩ := by
    simp [Write.access, Memory.bytes]
  have hreads : (∀ a ∈ [(⟨4, 4⟩ : Access), ⟨0, effectParamSize + (memory.word 4).toNat⟩, ⟨effectParamSize, 4⟩],
      a.Inside cmdSize.toNat) ↔
      effectParamSize + 4 ≤ cmdSize.toNat ∧ effectParamSize + (memory.word 4).toNat ≤ cmdSize.toNat := by
    simp only [List.mem_cons, List.not_mem_nil, or_false, forall_eq_or_imp, forall_eq, Access.inside_iff, effectParamSize] at hheader ⊢
    omega
  by_cases htelemetry : memory.word effectParamSize = kParamGetTelemetry
  · have hother : memory.word effectParamSize ≠ kParamGetIemTelemetry := by rw [htelemetry]; decide
    rw [htelemetry, answerParam_telemetry] at hstatus ⊢
    rw [telemetryReply_consistent (by decide) hcopied hcapacity hstatus, hreads]
    constructor
    · rintro ⟨⟨hparam, hread⟩, hcopy, hsize⟩
      exact ⟨hparam, ⟨hread, hcopy⟩, fun h => absurd htelemetry h, fun _ => hsize, fun h => absurd h hother⟩
    · intro h
      exact ⟨⟨h.param, h.copied.1⟩, h.copied.2, h.telemetry htelemetry⟩
  · by_cases hiem : memory.word effectParamSize = kParamGetIemTelemetry
    · rw [hiem, answerParam_iemTelemetry] at hstatus ⊢
      rw [telemetryReply_consistent (by decide) hcopied hcapacity hstatus, hreads]
      constructor
      · rintro ⟨⟨hparam, hread⟩, hcopy, hsize⟩
        exact ⟨hparam, ⟨hread, hcopy⟩, fun _ h => absurd hiem h, fun h => absurd h htelemetry, fun _ => hsize⟩
      · intro h
        exact ⟨⟨h.param, h.copied.1⟩, h.copied.2, h.iemTelemetry hiem⟩
    · obtain ⟨after, value, hlength, hanswer⟩ := answerParam_value hstatus htelemetry hiem
      rw [hanswer, valueReply_consistent hcopied hcapacity, hreads, hlength]
      constructor
      · rintro ⟨⟨hparam, hread⟩, hnone, hroom⟩
        refine ⟨hparam, ⟨hread, ?_⟩, fun _ _ => ⟨hnone, hroom⟩, fun h => absurd h htelemetry, fun h => absurd h hiem⟩
        rw [hnone]
        exact hcapacity
      · intro h
        exact ⟨⟨h.param, h.copied.1⟩, h.value htelemetry hiem⟩

end GetParam

/-- a build without telemetry -/
def plainProbes : ParamProbes plainEngine where
  processedFrames := fun _ => 0
  samplingRate := fun _ => 48000
  convolverKernelId := fun _ => 0
  versionCode := 0
  versionName := ascii ['0', '.', '0', '.', '0']
  architecture := ascii ['a', 'r', 'm', '6', '4']
  telemetry := some ⟨List.replicate kTelemetryWireSize 0, List.length_replicate⟩
  iemTelemetry := none

/-- the command for a parameter whose id is four bytes -/
def getCommand (param : UInt32) : Memory := commandOf (putU32 0 ++ putU32 4 ++ putU32 0 ++ putU32 param)

/-- the reply with the telemetry has the size that was supplied for it -/
theorem get_param_fits_telemetry :
    (getParamCommand plainProbes ⟨{}, 0⟩ 16 (some (getCommand kParamGetTelemetry)) (some 336) true).1.replySize.toNat = 336 := by
  have hfits : GetParamFits plainProbes 16 336 (getCommand kParamGetTelemetry) :=
    ⟨by decide, by decide +kernel, fun h => absurd (by decide +kernel) h, fun _ => by decide +kernel, fun _ => by decide +kernel⟩
  exact ((get_param_fits plainProbes ⟨{}, 0⟩ 16 336 (getCommand kParamGetTelemetry) true (by decide +kernel)).mpr hfits).size

/-- whether the effect is enabled takes 20 bytes, and 24 are reported -/
theorem reply_oversized :
    (getParamCommand plainProbes ⟨{}, 0⟩ 16 (some (getCommand kParamGetEnabled)) (some 20) true).1.status = 0 ∧
      (getParamCommand plainProbes ⟨{}, 0⟩ 16 (some (getCommand kParamGetEnabled)) (some 20) true).1.replySize = 24 ∧
      effectParamSize + roundedSize 4 +
        (getParamCommand plainProbes ⟨{}, 0⟩ 16 (some (getCommand kParamGetEnabled)) (some 20) true).1.vsize.toNat = 20 := by
  decide +kernel

end ViperFx.Driver
