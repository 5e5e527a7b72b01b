/-
The resources of a context over a whole history of raw records: `DspResources::CaptureRaw`.

A convolver kernel arrives in calls: PrepareBuffer opens an upload, SetBuffer appends to it, CommitBuffer closes it. A call is a
record together with the fact that its array is as long as `arr_size` says, which is all that CaptureRaw knows of the array.
What the calls so far amount to is read off the history (`lastUpload`): the last accepted PrepareBuffer and everything SetBuffer
was given since. The staging area always holds the first part of it, so a kernel that is committed is the first N samples of it.

Results:
  · resources_transactional : over every sequence of calls, what each call may change and what it changes it to
-/
import ViperFx.Core.Log
import ViperFx.Driver.SnapshotCommit

namespace ViperFx.Driver

open ViperFx.Core ViperFx.Protocol

/-- a call of CaptureRaw: a pointer that is not null points at `arr_size` floats, at twice as many for DDC coefficients -/
structure CaptureCall (ids : ParamIds) where
  record : RawParamRecord
  covers : record.payload ≠ [] →
    4 * record.arrSize.toNat * (if recordKind ids record = .ddc then 2 else 1) ≤ record.payload.length

namespace CaptureCall

variable {ids : ParamIds}

/-- the floats that the call was given -/
def data (c : CaptureCall ids) : Bytes := c.record.payload.take (4 * c.record.arrSize.toNat)

theorem length_data (c : CaptureCall ids) (h : c.record.payload ≠ []) : c.data.length = 4 * c.record.arrSize.toNat := by
  have hcovers := c.covers h
  rw [data, List.length_take]
  split_ifs at hcovers <;> omega

theorem data_null {c : CaptureCall ids} (h : c.record.payload = [] ∨ c.record.arrSize = 0) : c.data = [] := by
  rcases h with h | h
  · simp [data, h]
  · simp [data, h]

end CaptureCall

section History

variable (ids : ParamIds) (kernelCrc : Bytes → UInt32)

abbrev CaptureEntry := Entry DspResources (CaptureCall ids) ResourceCaptureResult

def captureStep (d : DspResources) (c : CaptureCall ids) : DspResources × ResourceCaptureResult :=
  d.captureRaw ids kernelCrc c.record

/-- the log of new resources, newest call first -/
def captures (calls : List (CaptureCall ids)) : List (CaptureEntry ids) := logFrom (captureStep ids kernelCrc) {} [] calls

/-- an upload as the history has it: the size and channels PrepareBuffer was given, and the data SetBuffer was given since -/
structure Upload where
  size : Int32
  channels : Int32
  data : Bytes

/-- the last accepted PrepareBuffer and what followed it -/
def lastUpload : List (CaptureEntry ids) → Option Upload
  | [] => none
  | entry :: past =>
    match recordKind ids entry.event.record with
    | .prepare =>
      if entry.output = .updated then some ⟨entry.event.record.val1, entry.event.record.val2, []⟩ else lastUpload past
    | .set => (lastUpload past).map fun u => { u with data := u.data ++ entry.event.data }
    | _ => lastUpload past

/-! ## One call -/

/-- what a call answers when it does not answer INVALID -/
def answerOf : RecordKind → ResourceCaptureResult
  | .prepare | .set => .updated
  | .clear => .cleared
  | .commit | .ddc => .committed
  | .other => .notResource

variable {ids kernelCrc} {d : DspResources} {r : RawParamRecord}

theorem captureRaw_answer (h : (d.captureRaw ids kernelCrc r).2 ≠ .invalid) :
    (d.captureRaw ids kernelCrc r).2 = answerOf (recordKind ids r) := by
  unfold DspResources.captureRaw recordKind at *
  split_ifs at h ⊢ with hprepare hval hset hcommit hddc
  · simp only [DspResources.prepareBuffer, if_pos hval]
    rfl
  · simp only [DspResources.prepareBuffer, if_neg hval] at h ⊢
    split_ifs at h ⊢
    · exact absurd rfl h
    · rfl
  · simp only [DspResources.setBuffer] at h ⊢
    split_ifs at h ⊢
    · exact absurd rfl h
    · rfl
  · simp only [DspResources.commitBuffer] at h ⊢
    split_ifs at h ⊢
    · exact absurd rfl h
    · rfl
  · simp only [DspResources.ddcCoefficients] at h ⊢
    split_ifs at h ⊢
    · exact absurd rfl h
    · rfl
  · rfl

/-- a refused call at most gives up the upload -/
theorem captureRaw_refused (h : (d.captureRaw ids kernelCrc r).2 = .invalid) :
    (d.captureRaw ids kernelCrc r).1.kernel = d.kernel ∧ (d.captureRaw ids kernelCrc r).1.ddcBanks = d.ddcBanks ∧
      ((d.captureRaw ids kernelCrc r).1.upload = d.upload ∧
          (recordKind ids r = .set → r.payload = [] ∨ r.arrSize = 0 ∨ d.pendingConvolver = []) ∨
        (d.captureRaw ids kernelCrc r).1.upload = ([], 0, 0) ∧ recordKind ids r ≠ .set) := by
  unfold DspResources.captureRaw recordKind at *
  split_ifs at h ⊢ with hprepare hval hset hcommit hddc
  · simp [DspResources.prepareBuffer, hval] at h
  · simp only [DspResources.prepareBuffer, if_neg hval] at h ⊢
    split_ifs at h ⊢
    exact ⟨rfl, rfl, .inr ⟨rfl, by simp⟩⟩
  · simp only [DspResources.setBuffer] at h ⊢
    split_ifs at h ⊢ with hnone
    refine ⟨rfl, rfl, .inl ⟨rfl, fun _ => ?_⟩⟩
    simpa [List.isEmpty_iff] using hnone
  · simp only [DspResources.commitBuffer] at h ⊢
    split_ifs at h ⊢
    exact ⟨rfl, rfl, .inr ⟨rfl, by simp⟩⟩
  · simp only [DspResources.ddcCoefficients] at h ⊢
    split_ifs at h ⊢
    exact ⟨rfl, rfl, .inl ⟨rfl, by simp⟩⟩

/-- what PrepareBuffer checks before it opens an upload -/
structure Opens (size channels : Int32) : Prop where
  layout : channels.toInt = 1 ∨ channels.toInt = 2 ∨ channels.toInt = 4
  frames : 16 * channels.toInt ≤ size.toInt
  bound : size.toInt ≤ kMaxConvolverSamples
  multiple : size.toInt % channels.toInt = 0

theorem prepare_accepted (hkind : recordKind ids r = .prepare) (h : (d.captureRaw ids kernelCrc r).2 ≠ .invalid) :
    Opens r.val1 r.val2 := by
  unfold recordKind at hkind
  unfold DspResources.captureRaw at h
  split_ifs at hkind h with hprepare hval
  simp only [DspResources.prepareBuffer, if_neg hval] at h
  split_ifs at h with hguard
  · exact absurd rfl h
  · push Not at hguard
    obtain ⟨hchannels, hbound, hframes, hmultiple⟩ := hguard
    refine ⟨?_, hframes, hbound, ?_⟩
    · by_contra hnone
      push Not at hnone
      exact hnone.2.2 (hchannels hnone.1 hnone.2.1)
    · exact Int.emod_eq_zero_of_dvd (Int.dvd_of_tmod_eq_zero hmultiple)

/-- what CommitBuffer checks before it takes the upload -/
theorem commit_accepted (hkind : recordKind ids r = .commit) (h : (d.captureRaw ids kernelCrc r).2 ≠ .invalid) :
    0 < r.val1.toInt ∧ r.val1.toInt.toNat = d.pendingSamples ∧ d.pendingConvolverSize = d.pendingSamples ∧
      kernelCrc d.pendingConvolver = r.val2.toUInt32 := by
  unfold recordKind at hkind
  unfold DspResources.captureRaw at h
  split_ifs at hkind h with hprepare hval hset hcommit
  simp only [DspResources.commitBuffer] at h
  split_ifs at h with hguard
  · exact absurd rfl h
  · push Not at hguard
    obtain ⟨⟨hpos, hsize, hfill, -, -⟩, hcrc⟩ := hguard
    exact ⟨hpos, hsize, hfill, hcrc⟩

theorem set_accepted (hkind : recordKind ids r = .set) (h : (d.captureRaw ids kernelCrc r).2 ≠ .invalid) :
    r.payload ≠ [] ∧ d.pendingConvolver ≠ [] := by
  unfold recordKind at hkind
  unfold DspResources.captureRaw at h
  split_ifs at hkind h with hprepare hval hset
  simp only [DspResources.setBuffer] at h
  split_ifs at h with hguard
  · exact absurd rfl h
  · simp only [List.isEmpty_iff, not_or] at hguard
    exact ⟨hguard.1, hguard.2.2⟩

/-! ## The staging area and the history -/

/-- the staging area holds the first part of the data of an upload -/
structure Holds (d : DspResources) (u : Upload) : Prop where
  opens : Opens u.size u.channels
  length : d.pendingConvolver.length = 4 * u.size.toInt.toNat
  channels : d.pendingConvolverChannels = u.channels.toInt.toNat
  whole : 4 ∣ u.data.length
  fill : d.pendingConvolverSize = min (u.data.length / 4) u.size.toInt.toNat
  data : d.pendingConvolver.take (4 * d.pendingConvolverSize) = u.data.take (4 * d.pendingConvolverSize)

/-- the staging area is empty, or it holds the last upload of the history -/
def Staged (d : DspResources) (past : List (CaptureEntry ids)) : Prop :=
  d.upload = ([], 0, 0) ∨ ∃ u, lastUpload ids past = some u ∧ Holds d u

theorem Holds.of_upload {d d' : DspResources} {u : Upload} (h : Holds d u) (hsame : d'.upload = d.upload) : Holds d' u := by
  simp only [DspResources.upload, Prod.mk.injEq] at hsame
  obtain ⟨hbuffer, hfill, hchannels⟩ := hsame
  exact ⟨h.opens, by rw [hbuffer, h.length], by rw [hchannels, h.channels], h.whole, by rw [hfill, h.fill],
    by rw [hbuffer, hfill, h.data]⟩

theorem Holds.not_empty {u : Upload} (h : Holds d u) : d.pendingConvolver ≠ [] := by
  intro hnil
  have hlength := h.length
  have hframes := h.opens.frames
  have hlayout := h.opens.layout
  rw [hnil, List.length_nil] at hlength
  omega

/-- the fill is within the buffer, and the buffer within the limit -/
theorem Staged.bounded {past : List (CaptureEntry ids)} (h : Staged d past) :
    d.pendingConvolverSize ≤ d.pendingSamples ∧ (d.pendingSamples : ℤ) ≤ kMaxConvolverSamples := by
  rcases h with hnone | ⟨u, -, h⟩
  · simp only [DspResources.upload, Prod.mk.injEq] at hnone
    simp [DspResources.pendingSamples, hnone.1, hnone.2.1, kMaxConvolverSamples]
  · have hlength := h.length
    have hfill := h.fill
    have hbound := h.opens.bound
    have hframes := h.opens.frames
    have hlayout := h.opens.layout
    have hsamples : d.pendingSamples = u.size.toInt.toNat := by
      unfold DspResources.pendingSamples
      omega
    constructor
    · omega
    · omega

/-- **SetBuffer appends.** What fits goes behind what is there; the rest of the data is dropped. -/
theorem Holds.append {u : Upload} (h : Holds d u) {d' : DspResources} (c : CaptureCall ids) (hpayload : c.record.payload ≠ [])
    (hupload : d'.upload = DspResources.uploadAfter c.record d.upload .set) : Holds d' { u with data := u.data ++ c.data } := by
  have hdata := c.length_data hpayload
  have hlength := h.length
  have hfill := h.fill
  have hwhole := h.whole
  simp only [DspResources.upload, DspResources.uploadAfter, Prod.mk.injEq] at hupload
  obtain ⟨hbuffer, hsize, hchannels⟩ := hupload
  have hsamples : d.pendingConvolver.length / 4 = u.size.toInt.toNat := by omega
  rw [hsamples] at hbuffer hsize
  generalize hcopy : min c.record.arrSize.toNat (u.size.toInt.toNat - d.pendingConvolverSize) = copySize at hbuffer hsize
  have htake : c.record.payload.take (4 * copySize) = c.data.take (4 * copySize) := by
    rw [CaptureCall.data, List.take_take]
    congr 1
    omega
  have hfront : (d.pendingConvolver.take (4 * d.pendingConvolverSize)).length = 4 * d.pendingConvolverSize := by
    rw [List.length_take]
    omega
  have hmiddle : (c.record.payload.take (4 * copySize)).length = 4 * copySize := by
    rw [htake, List.length_take, hdata]
    omega
  have hlayout : ∀ n, 4 * (d.pendingConvolverSize + n) = 4 * d.pendingConvolverSize + 4 * n := fun n => by ring
  refine ⟨h.opens, ?_, by rw [hchannels, h.channels], ?_, ?_, ?_⟩
  · rw [hbuffer, List.length_append, List.length_append, hfront, hmiddle, List.length_drop]
    dsimp only
    omega
  · rw [List.length_append, hdata]
    omega
  · rw [hsize, List.length_append, hdata]
    dsimp only
    omega
  · rw [hsize, hbuffer, List.take_left' (by rw [List.length_append, hfront, hmiddle, hlayout]), h.data, htake]
    -- either all the data so far is in the buffer, or the buffer is full
    by_cases hfull : copySize = 0
    · rw [hfull, Nat.add_zero, List.take_append_of_le_length (by omega)]
      simp
    · have hall : u.data.length = 4 * d.pendingConvolverSize := by omega
      rw [hlayout, ← hall, List.take_length, List.take_length_add_append]

/-- **One call.** -/
theorem Staged.call {past : List (CaptureEntry ids)} (h : Staged d past) (kernelCrc : Bytes → UInt32)
    (c : CaptureCall ids) :
    Staged (captureStep ids kernelCrc d c).1 (entryOf (captureStep ids kernelCrc) d c :: past) := by
  by_cases hinvalid : (d.captureRaw ids kernelCrc c.record).2 = .invalid
  · obtain ⟨-, -, ⟨hsame, hset⟩ | ⟨hnone, -⟩⟩ := captureRaw_refused hinvalid
    · rcases h with hempty | ⟨u, hlast, hholds⟩
      · exact .inl (hsame.trans hempty)
      · have hkept : Holds (d.captureRaw ids kernelCrc c.record).1 u := hholds.of_upload hsame
        refine .inr ⟨u, ?_, hkept⟩
        cases hkind : recordKind ids c.record with
        | set =>
          have hdata : c.data = [] := by
            rcases hset hkind with hnull | hzero | hnil
            · exact CaptureCall.data_null (.inl hnull)
            · exact CaptureCall.data_null (.inr hzero)
            · exact absurd hnil hholds.not_empty
          simp [lastUpload, entryOf, hkind, hlast, hdata]
        | prepare => simp [lastUpload, entryOf, hkind, hlast, captureStep, hinvalid]
        | clear => simp [lastUpload, entryOf, hkind, hlast]
        | commit => simp [lastUpload, entryOf, hkind, hlast]
        | ddc => simp [lastUpload, entryOf, hkind, hlast]
        | other => simp [lastUpload, entryOf, hkind, hlast]
    · exact .inl hnone
  · have hupload := (DspResources.captureRaw_accepted ids kernelCrc d c.record hinvalid).1
    have hanswer := captureRaw_answer hinvalid
    cases hkind : recordKind ids c.record with
    | prepare =>
      have hopens := prepare_accepted hkind hinvalid
      rw [hkind] at hupload hanswer
      simp only [DspResources.upload, DspResources.uploadAfter, Prod.mk.injEq] at hupload
      obtain ⟨hbuffer, hsize, hchannels⟩ := hupload
      refine .inr ⟨⟨c.record.val1, c.record.val2, []⟩, ?_, hopens, ?_, hchannels, by simp, ?_, ?_⟩
      · simp [lastUpload, entryOf, hkind, captureStep, hanswer, answerOf]
      · simp [captureStep, hbuffer]
      · simp [captureStep, hsize]
      · simp [captureStep, hsize]
    | clear =>
      rw [hkind] at hupload
      exact .inl hupload
    | commit =>
      rw [hkind] at hupload
      exact .inl hupload
    | set =>
      obtain ⟨hpayload, hbuffer⟩ := set_accepted hkind hinvalid
      rw [hkind] at hupload
      rcases h with hempty | ⟨u, hlast, hholds⟩
      · simp only [DspResources.upload, Prod.mk.injEq] at hempty
        exact absurd hempty.1 hbuffer
      · refine .inr ⟨{ u with data := u.data ++ c.data }, ?_, hholds.append c hpayload hupload⟩
        simp [lastUpload, entryOf, hkind, hlast]
    | ddc =>
      rw [hkind] at hupload
      rcases h with hempty | ⟨u, hlast, hholds⟩
      · exact .inl (hupload.trans hempty)
      · refine .inr ⟨u, ?_, hholds.of_upload hupload⟩
        simp [lastUpload, entryOf, hkind, hlast]
    | other =>
      rw [hkind] at hupload
      rcases h with hempty | ⟨u, hlast, hholds⟩
      · exact .inl (hupload.trans hempty)
      · refine .inr ⟨u, ?_, hholds.of_upload hupload⟩
        simp [lastUpload, entryOf, hkind, hlast]

/-! ## Every history -/

/-- the kernel that a CommitBuffer installs: the first samples of the last upload, as many as it opened with -/
structure Installs (kernelCrc : Bytes → UInt32) (past : List (CaptureEntry ids)) (entry : CaptureEntry ids) (u : Upload) : Prop where
  last : lastUpload ids past = some u
  opens : Opens u.size u.channels
  size : entry.event.record.val1 = u.size
  samples : entry.after.convolverKernel = u.data.take (4 * u.size.toInt.toNat)
  length : entry.after.convolverKernel.length = 4 * u.size.toInt.toNat
  channels : entry.after.convolverChannels = u.channels.toInt.toNat
  crc : kernelCrc entry.after.convolverKernel = entry.event.record.val2.toUInt32
  id : entry.after.convolverKernelId = entry.event.record.val3

/-- the banks that DDC coefficients install: the two halves of the payload, in sections of five floats -/
structure Halves (entry : CaptureEntry ids) : Prop where
  low : entry.after.ddc44100.flatten = entry.event.record.payload.take (4 * entry.event.record.arrSize.toNat)
  high : entry.after.ddc48000.flatten =
    (entry.event.record.payload.drop (4 * entry.event.record.arrSize.toNat)).take (4 * entry.event.record.arrSize.toNat)
  sections : ∀ bank ∈ entry.after.ddc44100 ++ entry.after.ddc48000, bank.length = 20

/-- what a call answers for the kernel, and what becomes of the kernel -/
inductive KernelChange (kernelCrc : Bytes → UInt32) (past : List (CaptureEntry ids)) (entry : CaptureEntry ids) : Prop
  | committed (u : Upload) (hkind : recordKind ids entry.event.record = .commit) (houtput : entry.output = .committed)
      (h : Installs kernelCrc past entry u)
  | cleared (hkind : recordKind ids entry.event.record = .clear) (houtput : entry.output = .cleared)
      (h : entry.after.kernel = ([], 0, 0))
  | kept (houtput : ¬ (recordKind ids entry.event.record = .commit ∧ entry.output = .committed) ∧ entry.output ≠ .cleared)
      (h : entry.after.kernel = entry.before.kernel)

/-- what a call answers for the DDC banks, and what becomes of them -/
inductive BanksChange (entry : CaptureEntry ids) : Prop
  | committed (hkind : recordKind ids entry.event.record = .ddc) (houtput : entry.output = .committed) (h : Halves entry)
  | kept (houtput : ¬ (recordKind ids entry.event.record = .ddc ∧ entry.output = .committed))
      (h : entry.after.ddcBanks = entry.before.ddcBanks)

/-- what holds at a call, with the calls before it -/
structure Transactional (kernelCrc : Bytes → UInt32) (past : List (CaptureEntry ids)) (entry : CaptureEntry ids) : Prop where
  fill : entry.after.pendingConvolverSize ≤ entry.after.pendingSamples
  staged : (entry.after.pendingSamples : ℤ) ≤ kMaxConvolverSamples
  kernel : KernelChange kernelCrc past entry
  banks : BanksChange entry
  equal : entry.after.ddc44100.length = entry.after.ddc48000.length
  refused : entry.output = .invalid →
    entry.after.kernel = entry.before.kernel ∧ entry.after.ddcBanks = entry.before.ddcBanks

theorem sections_flatten (payload : Bytes) (start count : ℕ) (h : 4 * (start + 5 * count) ≤ payload.length) :
    (DspResources.sections payload start count).flatten = (payload.drop (4 * start)).take (20 * count) ∧
      ∀ bank ∈ DspResources.sections payload start count, bank.length = 20 := by
  induction count with
  | zero => exact ⟨by simp [DspResources.sections], by simp [DspResources.sections]⟩
  | succ count ih =>
    obtain ⟨hflat, hlength⟩ := ih (by omega)
    have hlast : DspResources.sections payload start (count + 1) =
        DspResources.sections payload start count ++ [(payload.drop (4 * (start + 5 * count))).take 20] := by
      simp [DspResources.sections, List.range_succ]
    rw [hlast]
    constructor
    · have hsplit : 4 * (start + 5 * count) = 4 * start + 20 * count := by ring
      have hnext : 20 * (count + 1) = 20 * count + 20 := by ring
      rw [List.flatten_append, hflat, hnext, List.take_add, List.drop_drop, hsplit]
      simp
    · intro bank hbank
      rcases List.mem_append.mp hbank with hbank | hbank
      · exact hlength bank hbank
      · rw [List.mem_singleton.mp hbank, List.length_take, List.length_drop]
        omega

theorem ddc_accepted (hkind : recordKind ids r = .ddc) (h : (d.captureRaw ids kernelCrc r).2 ≠ .invalid) :
    r.payload ≠ [] ∧ r.arrSize.toNat % 5 = 0 := by
  unfold recordKind at hkind
  unfold DspResources.captureRaw at h
  split_ifs at hkind h with hprepare hval hset hcommit hddc
  simp only [DspResources.ddcCoefficients] at h
  split_ifs at h with hguard
  · exact absurd rfl h
  · push Not at hguard
    exact ⟨List.isEmpty_iff.not.mp hguard.1, hguard.2.2.2⟩

/-- an accepted CommitBuffer finds the last upload complete, and installs its samples -/
theorem commit_installs {past : List (CaptureEntry ids)} (h : Staged d past) (c : CaptureCall ids)
    (hkind : recordKind ids c.record = .commit) (haccepted : (d.captureRaw ids kernelCrc c.record).2 ≠ .invalid) :
    ∃ u, Installs kernelCrc past (entryOf (captureStep ids kernelCrc) d c) u := by
  obtain ⟨hpos, hsize, hfill, hcrc⟩ := commit_accepted hkind haccepted
  have hkernel := (DspResources.captureRaw_accepted ids kernelCrc d c.record haccepted).2.1
  rw [hkind] at hkernel
  simp only [DspResources.kernel, DspResources.kernelAfter, DspResources.upload, Prod.mk.injEq] at hkernel
  obtain ⟨hsamples, hchannels, hid⟩ := hkernel
  rcases h with hempty | ⟨u, hlast, hholds⟩
  · simp only [DspResources.upload, Prod.mk.injEq] at hempty
    rw [DspResources.pendingSamples, hempty.1] at hsize
    simp only [List.length_nil, Nat.zero_div] at hsize
    omega
  · have hlength := hholds.length
    have hbuffer : d.pendingSamples = u.size.toInt.toNat := by
      unfold DspResources.pendingSamples
      omega
    have hdata := hholds.data
    rw [hfill, hbuffer, ← hlength, List.take_length, hlength] at hdata
    refine ⟨u, hlast, hholds.opens, ?_, hsamples.trans hdata, ?_, hchannels.trans hholds.channels, ?_, hid⟩
    · -- both sizes are positive, so they are equal as integers
      refine Int32.toInt_inj.mp ?_
      have hval : (entryOf (captureStep ids kernelCrc) d c).event.record.val1 = c.record.val1 := rfl
      have hframes := hholds.opens.frames
      have hlayout := hholds.opens.layout
      rw [hval]
      omega
    · exact (congrArg List.length hsamples).trans hlength
    · exact (congrArg kernelCrc hsamples).trans hcrc

/-- accepted DDC coefficients install the two halves of the payload -/
theorem ddc_halves (c : CaptureCall ids) (hkind : recordKind ids c.record = .ddc)
    (haccepted : (d.captureRaw ids kernelCrc c.record).2 ≠ .invalid) :
    Halves (entryOf (captureStep ids kernelCrc) d c) := by
  obtain ⟨hpayload, hmultiple⟩ := ddc_accepted hkind haccepted
  have hcovers := c.covers hpayload
  rw [if_pos hkind] at hcovers
  have hbanks := (DspResources.captureRaw_accepted ids kernelCrc d c.record haccepted).2.2
  rw [hkind] at hbanks
  simp only [DspResources.ddcBanks, DspResources.ddcAfter, Prod.mk.injEq] at hbanks
  obtain ⟨hlow, hhigh⟩ := hbanks
  obtain ⟨hlowFlat, hlowLength⟩ := sections_flatten c.record.payload 0 (c.record.arrSize.toNat / 5) (by omega)
  obtain ⟨hhighFlat, hhighLength⟩ := sections_flatten c.record.payload c.record.arrSize.toNat
    (c.record.arrSize.toNat / 5) (by omega)
  have htwenty : 20 * (c.record.arrSize.toNat / 5) = 4 * c.record.arrSize.toNat := by omega
  refine ⟨?_, ?_, fun bank hbank => ?_⟩
  · exact (congrArg List.flatten hlow).trans (by rw [hlowFlat, htwenty]; rfl)
  · exact (congrArg List.flatten hhigh).trans (by rw [hhighFlat, htwenty]; rfl)
  · rcases List.mem_append.mp hbank with hbank | hbank
    · exact hlowLength bank (hlow ▸ hbank)
    · exact hhighLength bank (hhigh ▸ hbank)

/-- **Resource staging is transactional.** Over every sequence of CaptureRaw calls, at each call: the fill is within the
staged buffer and the buffer within `kMaxConvolverSamples`; the kernel changes only on a COMMITTED CommitBuffer, to the first
samples of the last upload, or on CLEARED, to nothing; the DDC banks change only on COMMITTED DDC coefficients, to the halves of
their payload; and a call that answers INVALID changes neither. -/
theorem resources_transactional (ids : ParamIds) (kernelCrc : Bytes → UInt32) (calls : List (CaptureCall ids)) :
    Along (Transactional kernelCrc) (captures ids kernelCrc calls) := by
  have hstep : ∀ d past (c : CaptureCall ids), (Staged d past ∧ d.ddc44100.length = d.ddc48000.length) → True →
      (Staged (captureStep ids kernelCrc d c).1 (entryOf (captureStep ids kernelCrc) d c :: past) ∧
        (captureStep ids kernelCrc d c).1.ddc44100.length = (captureStep ids kernelCrc d c).1.ddc48000.length) ∧
      Transactional kernelCrc past (entryOf (captureStep ids kernelCrc) d c) := by
    intro d past c ⟨hstaged, hequal⟩ _
    have hnext := hstaged.call kernelCrc c
    obtain ⟨hfill, hbound⟩ := hnext.bounded
    by_cases hinvalid : (d.captureRaw ids kernelCrc c.record).2 = .invalid
    · obtain ⟨hkernel, hbanks, -⟩ := captureRaw_refused hinvalid
      have heq : (captureStep ids kernelCrc d c).1.ddc44100.length = (captureStep ids kernelCrc d c).1.ddc48000.length := by
        simp only [DspResources.ddcBanks, Prod.mk.injEq] at hbanks
        simp only [captureStep, hbanks.1, hbanks.2, hequal]
      refine ⟨⟨hnext, heq⟩, hfill, hbound, .kept ?_ hkernel, .kept ?_ hbanks, heq, fun _ => ⟨hkernel, hbanks⟩⟩
      · simp [entryOf, captureStep, hinvalid]
      · simp [entryOf, captureStep, hinvalid]
    · have hanswer := captureRaw_answer hinvalid
      obtain ⟨-, hkernel, hbanks⟩ := DspResources.captureRaw_accepted ids kernelCrc d c.record hinvalid
      have hkept : recordKind ids c.record ≠ .ddc → (d.captureRaw ids kernelCrc c.record).1.ddcBanks = d.ddcBanks := by
        intro hne
        rw [hbanks, DspResources.ddcAfter]
        exact fun h => hne h
      have heq : (captureStep ids kernelCrc d c).1.ddc44100.length = (captureStep ids kernelCrc d c).1.ddc48000.length := by
        simp only [captureStep]
        by_cases hddc : recordKind ids c.record = .ddc
        · rw [hddc] at hbanks
          simp only [DspResources.ddcBanks, DspResources.ddcAfter, Prod.mk.injEq] at hbanks
          simp [hbanks.1, hbanks.2, DspResources.sections]
        · have hsame := hkept hddc
          simp only [DspResources.ddcBanks, Prod.mk.injEq] at hsame
          rw [hsame.1, hsame.2, hequal]
      refine ⟨⟨hnext, heq⟩, hfill, hbound, ?_, ?_, heq, fun h => absurd h hinvalid⟩
      · cases hkind : recordKind ids c.record with
        | commit =>
          obtain ⟨u, hu⟩ := commit_installs hstaged c hkind hinvalid
          exact .committed u hkind (by simp [entryOf, captureStep, hanswer, hkind, answerOf]) hu
        | clear =>
          refine .cleared hkind (by simp [entryOf, captureStep, hanswer, hkind, answerOf]) ?_
          simp [entryOf, captureStep, hkernel, hkind, DspResources.kernelAfter]
        | _ =>
          refine .kept ?_ ?_
          · simp [entryOf, captureStep, hanswer, hkind, answerOf]
          · simp [entryOf, captureStep, hkernel, hkind, DspResources.kernelAfter]
      · by_cases hddc : recordKind ids c.record = .ddc
        · exact .committed hddc (by simp [entryOf, captureStep, hanswer, hddc, answerOf]) (ddc_halves c hddc hinvalid)
        · exact .kept (by simp [entryOf, hddc]) (hkept hddc)
  exact along_logFrom (C := fun _ _ => True) _ hstep calls ⟨.inl rfl, rfl⟩ trivial (.of_forall (by simp) _)

end History

/-! ## An upload -/

/-- PrepareBuffer for sixteen samples on one channel, SetBuffer with all of them, and CommitBuffer under the id 7 -/
def sixteenCalls : List (CaptureCall gainEngine.ids) :=
  [⟨⟨1, 16, 1, 0, 0, []⟩, fun h => absurd rfl h⟩, ⟨⟨2, 0, 0, 0, 16, sixteenSamples⟩, fun _ => by decide +kernel⟩,
    ⟨⟨3, 16, (crc32 sixteenSamples).toInt32, 7, 0, []⟩, fun h => absurd rfl h⟩]

/-- the upload is committed: its samples are the kernel, by way of what the history says of a COMMITTED call -/
theorem resources_transactional_upload :
    ∃ entry past, captures gainEngine.ids crc32 sixteenCalls = entry :: past ∧ entry.output = .committed ∧
      ∃ u, Installs crc32 past entry u ∧ u.data = sixteenSamples := by
  obtain ⟨entry, past, hlog⟩ : ∃ entry past, captures gainEngine.ids crc32 sixteenCalls = entry :: past := ⟨_, _, rfl⟩
  have hrun : ((captures gainEngine.ids crc32 sixteenCalls).head?.map fun e =>
        (recordKind gainEngine.ids e.event.record, e.output)) = some (.commit, .committed) ∧
      (lastUpload gainEngine.ids (captures gainEngine.ids crc32 sixteenCalls).tail).map Upload.data = some sixteenSamples := by
    decide +kernel
  have hall := resources_transactional gainEngine.ids crc32 sixteenCalls
  rw [hlog] at hall hrun
  obtain ⟨hhead, hlast⟩ := hrun
  obtain ⟨hkind, houtput⟩ := Prod.mk.inj (Option.some.inj hhead)
  refine ⟨entry, past, hlog, houtput, ?_⟩
  cases hall.1.kernel with
  | committed u _ _ h =>
    rw [List.tail_cons, h.last] at hlast
    exact ⟨u, h, Option.some.inj hlast⟩
  | cleared hclear => exact absurd (hclear.symm.trans hkind) (by decide)
  | kept hkept => exact absurd ⟨hkind, houtput⟩ hkept.1

end ViperFx.Driver
