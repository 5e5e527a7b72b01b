/-
SET_PARAM against the size of its command: `ViperContext::HandleCommand` and `HandleSetParam`, with what `DspResources::CaptureRaw`
reads of an array.

The command is memory that goes on behind its end. A computation over it logs every access, and does not learn the size:
`HandleCommand` compares it with the header and then hands over the pointer. The record that a command stands for goes to the context
as everywhere else (`EffectContext.dispatchRawParam`). Sizes are those of a 64-bit target.

Results:
  · captureReads_inside : what CaptureRaw reads of an array ends inside or outside
  · set_param_inside    : exactly which commands that are answered without an error are read inside their size
-/
import ViperFx.Driver.SetConfig

namespace ViperFx.Driver

open ViperFx.Protocol ViperFx.Channel

/-! ## Memory -/

/-- the bytes from a pointer on, inside its buffer and behind it -/
abbrev Memory := ℕ → UInt8

namespace Memory

def bytes (memory : Memory) (offset count : ℕ) : Bytes := (List.range count).map fun k => memory (offset + k)

def word (memory : Memory) (offset : ℕ) : UInt32 := UInt32.ofNat (leNat (memory.bytes offset 4))

def int (memory : Memory) (offset : ℕ) : Int32 := (memory.word offset).toInt32

end Memory

/-- so many bytes from an offset on -/
structure Access where
  offset : ℕ
  size : ℕ
  deriving DecidableEq

/-- every byte of the access has an index below the size of the buffer -/
def Access.Inside (size : ℕ) (a : Access) : Prop := ∀ i, a.offset ≤ i → i < a.offset + a.size → i < size

theorem Access.inside_iff {size : ℕ} {a : Access} : a.Inside size ↔ a.size = 0 ∨ a.offset + a.size ≤ size := by
  constructor
  · intro h
    by_cases hzero : a.size = 0
    · exact .inl hzero
    · right
      have := h (a.offset + a.size - 1) (by omega) (by omega)
      omega
  · intro h i _ hi
    omega

/-- a computation over a command, with the accesses so far -/
structure Reads (α : Type) where
  run : Memory → List Access → α × List Access

namespace Reads

variable {α β : Type}

instance : Monad Reads where
  pure a := ⟨fun _ log => (a, log)⟩
  bind m f := ⟨fun memory log => (f (m.run memory log).1).run memory (m.run memory log).2⟩

def contents : Reads Memory := ⟨fun memory log => (memory, log)⟩

def touch (accesses : List Access) : Reads Unit := ⟨fun _ log => ((), log ++ accesses)⟩

def word (offset : ℕ) : Reads UInt32 := do
  touch [⟨offset, 4⟩]
  return (← contents).word offset

def int (offset : ℕ) : Reads Int32 := do
  touch [⟨offset, 4⟩]
  return (← contents).int offset

variable {memory : Memory} {log : List Access}

@[simp] theorem run_pure (a : α) : (pure a : Reads α).run memory log = (a, log) := rfl

@[simp] theorem run_bind (m : Reads α) (f : α → Reads β) :
    (m >>= f).run memory log = (f (m.run memory log).1).run memory (m.run memory log).2 := rfl

@[simp] theorem run_contents : contents.run memory log = (memory, log) := rfl

@[simp] theorem run_touch (accesses : List Access) : (touch accesses).run memory log = ((), log ++ accesses) := rfl

@[simp] theorem run_word (offset : ℕ) : (word offset).run memory log = (memory.word offset, log ++ [⟨offset, 4⟩]) := rfl

@[simp] theorem run_int (offset : ℕ) : (int offset).run memory log = (memory.int offset, log ++ [⟨offset, 4⟩]) := rfl

@[simp] theorem run_ite (c : Prop) {_ : Decidable c} (m m' : Reads α) :
    (if c then m else m').run memory log = if c then m.run memory log else m'.run memory log := by
  split_ifs <;> rfl

end Reads

/-! ## The code -/

def einval : Int32 := -22

/-- sizeof(effect_param_t): status, psize and vsize -/
def effectParamSize : ℕ := 12

/-- the offset of the value behind the header: the parameter size rounded up to a word -/
def valueOffset (psize : UInt32) : UInt32 := UInt32.ofNat ((psize.toNat + 3) / 4 * 4)

/-- what CaptureRaw reads of the array at an offset of the command -/
def captureReads (ids : ParamIds) (d : DspResources) (r : RawParamRecord) : Option ℕ → List Access
  | none => []
  | some arr =>
    let size := r.arrSize.toNat
    match recordKind ids r with
    | .set =>
      if size = 0 ∨ d.pendingConvolver.isEmpty then []
      else [⟨arr, 4 * min size (d.pendingSamples - d.pendingConvolverSize)⟩]
    | .ddc =>
      if size < 5 ∨ 80 < size ∨ size % 5 ≠ 0 then []
      else (List.range (size / 5)).flatMap fun index => [⟨arr + 4 * (5 * index), 20⟩, ⟨arr + 4 * (size + 5 * index), 20⟩]
    | _ => []

section Code

variable {E : Engine} (O : EngineOps E)

/-- what DispatchRawParam reads of an array for the resources: nothing when the IEM chain has taken the record -/
def dispatchReads (s : EffectContext E) (r : RawParamRecord) (arr : Option ℕ) : List Access :=
  if O.isIem r then [] else captureReads E.ids s.dsp.resources r arr

/-- DispatchRawParam with a pointer into the command -/
def dispatchFrom (s : EffectContext E) (param val1 val2 val3 : Int32) (arrSize : UInt32) (arr : Option ℕ) :
    Reads (EffectContext E) := do
  let memory ← Reads.contents
  let payload := arr.elim [] fun arr => memory.bytes arr (requiredPayloadBytes E.ids param arrSize)
  let r : RawParamRecord := ⟨param, val1, val2, val3, arrSize, payload⟩
  Reads.touch (dispatchReads O s r arr)
  return s.dispatchRawParam O r

/-- HandleSetParam: the context and the status -/
def handleSetParam (s : EffectContext E) : Reads (EffectContext E × Int32) := do
  let psize ← Reads.word 4
  let offset := (valueOffset psize).toNat
  let param ← Reads.int effectParamSize
  let values := effectParamSize + offset
  let vsize ← Reads.word 8
  if vsize = 4 then
    let val1 ← Reads.int values
    return (← dispatchFrom O s param val1 0 0 0 none, 0)
  else if vsize = 8 then
    let val1 ← Reads.int values
    let val2 ← Reads.int (values + 4)
    return (← dispatchFrom O s param val1 val2 0 0 none, 0)
  else if vsize = 12 then
    let val1 ← Reads.int values
    let val2 ← Reads.int (values + 4)
    let val3 ← Reads.int (values + 8)
    return (← dispatchFrom O s param val1 val2 val3 0 none, 0)
  else if vsize = 256 ∨ vsize = 1024 then
    let arrSize ← Reads.word values
    return (← dispatchFrom O s param 0 0 0 arrSize (some (values + 4)), 0)
  else if vsize = 8192 then
    let value1 ← Reads.int values
    let arrSize ← Reads.word (values + 4)
    return (← dispatchFrom O s param value1 0 0 arrSize (some (values + 8)), 0)
  else return (s, einval)

/-- HandleCommand with EFFECT_CMD_SET_PARAM, and what it reads of the command; a null pointer is `none` -/
def setParamCommand (s : EffectContext E) (cmdSize : UInt32) (cmdData : Option Memory) (replySize : Option UInt32)
    (replyData : Bool) : (EffectContext E × Int32) × List Access :=
  match cmdData with
  | none => ((s, einval), [])
  | some memory =>
    if cmdSize.toNat < effectParamSize ∨ replySize.getD 0 ≠ 4 ∨ ¬ replyData then ((s, einval), [])
    else (handleSetParam O s).run memory []

end Code

/-! ## Arrays -/

/-- how many bytes of an array CaptureRaw reads -/
def capturedBytes (ids : ParamIds) (d : DspResources) (r : RawParamRecord) : ℕ :=
  let size := r.arrSize.toNat
  match recordKind ids r with
  | .set => if size = 0 ∨ d.pendingConvolver.isEmpty then 0 else 4 * min size (d.pendingSamples - d.pendingConvolverSize)
  | .ddc => if size < 5 ∨ 80 < size ∨ size % 5 ≠ 0 then 0 else 8 * size
  | _ => 0

/-- the accesses of CaptureRaw are inside when the last byte is -/
theorem captureReads_inside {ids : ParamIds} {d : DspResources} {r : RawParamRecord} {arr size : ℕ} :
    (∀ a ∈ captureReads ids d r (some arr), a.Inside size) ↔
      capturedBytes ids d r = 0 ∨ arr + capturedBytes ids d r ≤ size := by
  unfold captureReads capturedBytes
  cases recordKind ids r with
  | set =>
    dsimp only
    split_ifs
    · simp
    · simp only [List.mem_singleton, forall_eq, Access.inside_iff]
  | ddc =>
    dsimp only
    split_ifs with hbad
    · simp
    · have hsections : 0 < r.arrSize.toNat / 5 := by omega
      constructor
      · intro h
        -- the last section of the second bank ends where the coefficients end
        have hlast := h ⟨arr + 4 * (r.arrSize.toNat + 5 * (r.arrSize.toNat / 5 - 1)), 20⟩ (by
          rw [List.mem_flatMap]
          exact ⟨r.arrSize.toNat / 5 - 1, List.mem_range.mpr (by omega), by simp⟩)
        rw [Access.inside_iff] at hlast
        simp only at hlast
        omega
      · intro h a ha
        obtain ⟨index, hindex, ha⟩ := List.mem_flatMap.mp ha
        rw [List.mem_range] at hindex
        rw [Access.inside_iff]
        simp only [List.mem_cons, List.not_mem_nil, or_false] at ha
        rcases ha with rfl | rfl
        · simp only
          omega
        · simp only
          omega
  | prepare => simp
  | clear => simp
  | commit => simp
  | other => simp

/-! ## Commands that fit -/

/-- the bytes of the value that HandleSetParam reads by itself -/
def valueBytes (vsize : UInt32) : ℕ :=
  if vsize = 256 ∨ vsize = 1024 then 4 else if vsize = 8192 then 8 else vsize.toNat

/-- where the array of a command begins, if its value has one -/
def arrayStart (memory : Memory) : Option ℕ :=
  let values := effectParamSize + (valueOffset (memory.word 4)).toNat
  let vsize := memory.word 8
  if vsize = 256 ∨ vsize = 1024 then some (values + 4) else if vsize = 8192 then some (values + 8) else none

/-- the record that a command stands for -/
def commandRecord (ids : ParamIds) (memory : Memory) : RawParamRecord :=
  let values := effectParamSize + (valueOffset (memory.word 4)).toNat
  let vsize := memory.word 8
  let param := memory.int effectParamSize
  let payload (arrSize : UInt32) := (arrayStart memory).elim [] fun arr => memory.bytes arr (requiredPayloadBytes ids param arrSize)
  if vsize = 256 ∨ vsize = 1024 then ⟨param, 0, 0, 0, memory.word values, payload (memory.word values)⟩
  else if vsize = 8192 then ⟨param, memory.int values, 0, 0, memory.word (values + 4), payload (memory.word (values + 4))⟩
  else
    ⟨param, memory.int values, if vsize = 4 then 0 else memory.int (values + 4),
      if vsize = 12 then memory.int (values + 8) else 0, 0, []⟩

section Fit

variable {E : Engine} (O : EngineOps E)

/-- a command is large enough for its parameter, for its value and for what the resources take of its array -/
structure SetParamFits (s : EffectContext E) (cmdSize : UInt32) (memory : Memory) : Prop where
  param : effectParamSize + 4 ≤ cmdSize.toNat
  value : effectParamSize + (valueOffset (memory.word 4)).toNat + valueBytes (memory.word 8) ≤ cmdSize.toNat
  array : O.isIem (commandRecord E.ids memory) = false → ∀ arr ∈ arrayStart memory,
    capturedBytes E.ids s.dsp.resources (commandRecord E.ids memory) = 0 ∨
      arr + capturedBytes E.ids s.dsp.resources (commandRecord E.ids memory) ≤ cmdSize.toNat

/-- the words of the value -/
def valueReads (values : ℕ) (vsize : UInt32) : List Access :=
  (List.range (valueBytes vsize / 4)).map fun index => ⟨values + 4 * index, 4⟩

/-- the sizes of a value that HandleSetParam knows -/
def KnownSize (vsize : UInt32) : Prop := vsize = 4 ∨ vsize = 8 ∨ vsize = 12 ∨ vsize = 256 ∨ vsize = 1024 ∨ vsize = 8192

/-- a command with a known size of its value is dispatched -/
theorem handleSetParam_known (s : EffectContext E) (memory : Memory) (hknown : KnownSize (memory.word 8)) :
    (handleSetParam O s).run memory [] = ((s.dispatchRawParam O (commandRecord E.ids memory), 0),
      [⟨4, 4⟩, ⟨effectParamSize, 4⟩, ⟨8, 4⟩] ++
        valueReads (effectParamSize + (valueOffset (memory.word 4)).toNat) (memory.word 8) ++
        dispatchReads O s (commandRecord E.ids memory) (arrayStart memory)) := by
  rcases hknown with h | h | h | h | h | h <;>
    simp [handleSetParam, dispatchFrom, commandRecord, arrayStart, valueReads, valueBytes, List.range_succ, h]

/-- a command with any other size of its value is refused -/
theorem handleSetParam_unknown (s : EffectContext E) (memory : Memory) (hunknown : ¬KnownSize (memory.word 8)) :
    ((handleSetParam O s).run memory []).1 = (s, einval) := by
  simp only [KnownSize, not_or] at hunknown
  obtain ⟨h4, h8, h12, h256, h1024, h8192⟩ := hunknown
  simp [handleSetParam, h4, h8, h12, h256, h1024, h8192]

/-- the words of a value are inside when the value is -/
theorem valueReads_inside {values size : ℕ} {vsize : UInt32} (hknown : KnownSize vsize) :
    (∀ a ∈ valueReads values vsize, a.Inside size) ↔ values + valueBytes vsize ≤ size := by
  have hwords : 0 < valueBytes vsize ∧ valueBytes vsize % 4 = 0 := by
    rcases hknown with rfl | rfl | rfl | rfl | rfl | rfl <;> decide
  unfold valueReads
  constructor
  · intro h
    have hlast := h ⟨values + 4 * (valueBytes vsize / 4 - 1), 4⟩
      (List.mem_map.mpr ⟨valueBytes vsize / 4 - 1, List.mem_range.mpr (by omega), rfl⟩)
    rw [Access.inside_iff] at hlast
    simp only at hlast
    omega
  · intro h a ha
    obtain ⟨index, hindex, rfl⟩ := List.mem_map.mp ha
    rw [List.mem_range] at hindex
    rw [Access.inside_iff]
    simp only
    omega

/-- **SET_PARAM inside its command.** A command that is answered without an error is read inside its size exactly when the size
covers the parameter, the value that the layout of vsize asks for, and what the resources take of the declared array. -/
theorem set_param_inside (s : EffectContext E) (cmdSize : UInt32) (memory : Memory) (replySize : Option UInt32) (replyData : Bool)
    (hstatus : (setParamCommand O s cmdSize (some memory) replySize replyData).1.2 = 0) :
    (∀ a ∈ (setParamCommand O s cmdSize (some memory) replySize replyData).2, a.Inside cmdSize.toNat) ↔
      SetParamFits O s cmdSize memory := by
  unfold setParamCommand at hstatus ⊢
  dsimp only at hstatus ⊢
  by_cases hrefused : cmdSize.toNat < effectParamSize ∨ replySize.getD 0 ≠ 4 ∨ ¬replyData = true
  · rw [if_pos hrefused] at hstatus
    exact absurd (show einval = 0 from hstatus) (by decide)
  rw [if_neg hrefused] at hstatus ⊢
  have hknown : KnownSize (memory.word 8) := by
    by_contra hunknown
    rw [handleSetParam_unknown O s memory hunknown] at hstatus
    exact absurd (show einval = 0 from hstatus) (by decide)
  have hheader : effectParamSize ≤ cmdSize.toNat := Nat.not_lt.mp fun h => hrefused (.inl h)
  rw [handleSetParam_known O s memory hknown]
  dsimp only
  rw [List.forall_mem_append, List.forall_mem_append, valueReads_inside hknown]
  have hfirst : (∀ a ∈ [(⟨4, 4⟩ : Access), ⟨effectParamSize, 4⟩, ⟨8, 4⟩], a.Inside cmdSize.toNat) ↔
      effectParamSize + 4 ≤ cmdSize.toNat := by
    simp only [List.mem_cons, List.not_mem_nil, or_false, forall_eq_or_imp, forall_eq, Access.inside_iff, effectParamSize] at hheader ⊢
    omega
  have harray : (∀ a ∈ dispatchReads O s (commandRecord E.ids memory) (arrayStart memory), a.Inside cmdSize.toNat) ↔
      (O.isIem (commandRecord E.ids memory) = false → ∀ arr ∈ arrayStart memory,
        capturedBytes E.ids s.dsp.resources (commandRecord E.ids memory) = 0 ∨
          arr + capturedBytes E.ids s.dsp.resources (commandRecord E.ids memory) ≤ cmdSize.toNat) := by
    unfold dispatchReads
    cases O.isIem (commandRecord E.ids memory) with
    | true => simp
    | false =>
      cases arrayStart memory with
      | none => simp [captureReads]
      | some arr => simpa using captureReads_inside
  rw [hfirst, harray]
  exact ⟨fun h => ⟨h.1.1, h.1.2, h.2⟩, fun h => ⟨⟨h.param, h.value⟩, h.array⟩⟩

end Fit

/-! ## An array that is shorter than declared -/

/-- a command of some bytes, with zeros behind it -/
def commandOf (bytes : Bytes) : Memory := fun i => bytes.getD i 0

/-- SetBuffer with 100 samples announced and a value of 256 bytes -/
def shortUpload : Memory := commandOf (putU32 0 ++ putU32 4 ++ putU32 256 ++ putU32 2 ++ putU32 100)

/-- an upload of 100 samples has been opened -/
def openUpload : EffectContext plainEngine :=
  (EffectContext.after plainOps [.command (.setParam ⟨1, 100, 1, 0, 0, []⟩)])

/-- the same samples with a value of 1024 bytes, which has room for them -/
def roomyUpload : Memory := commandOf (putU32 0 ++ putU32 4 ++ putU32 1024 ++ putU32 2 ++ putU32 100)

/-- the array of an upload is read inside its command -/
theorem set_param_inside_upload :
    ⟨20, 400⟩ ∈ (setParamCommand plainOps openUpload 1040 (some roomyUpload) (some 4) true).2 ∧ Access.Inside 1040 ⟨20, 400⟩ := by
  have hfits : SetParamFits plainOps openUpload 1040 roomyUpload := by
    refine ⟨by decide, by decide +kernel, fun _ arr harr => ?_⟩
    have hstart : arrayStart roomyUpload = some 20 := by decide +kernel
    rw [hstart, Option.mem_some_iff] at harr
    have hbytes : capturedBytes plainEngine.ids openUpload.dsp.resources (commandRecord plainEngine.ids roomyUpload) = 400 := by
      decide +kernel
    rw [hbytes, ← harr]
    exact .inr (by decide)
  have hread : ⟨20, 400⟩ ∈ (setParamCommand plainOps openUpload 1040 (some roomyUpload) (some 4) true).2 := by decide +kernel
  exact ⟨hread, (set_param_inside plainOps openUpload 1040 roomyUpload (some 4) true (by decide +kernel)).mpr hfits _ hread⟩

/-- of a command of 272 bytes, 420 are read -/
theorem upload_overread :
    (setParamCommand plainOps openUpload 272 (some shortUpload) (some 4) true).1.2 = 0 ∧
      ⟨20, 400⟩ ∈ (setParamCommand plainOps openUpload 272 (some shortUpload) (some 4) true).2 ∧
      ¬Access.Inside (272 : UInt32).toNat ⟨20, 400⟩ := by
  refine ⟨by decide +kernel, by decide +kernel, ?_⟩
  rw [Access.inside_iff]
  decide

end ViperFx.Driver
