/-
The buffers of the IEM engine: `IEMDSP/src/AlignedPlanarBuffer.cpp`.

A buffer is one allocation with every channel rounded up to 64 bytes. What it holds is modelled where it is used, frame by frame;
here is when it can be prepared. `memalign` says which numbers of bytes `posix_memalign` gives.

Results:
  · prepares_frames : a prepared buffer has its channels, and fits the address space
-/
import Mathlib.Tactic

namespace ViperFx.Iem.AlignedPlanarBuffer

def kMaxChannels : ℕ := 16
def kAlignmentBytes : ℕ := 64
def kFloatsPerAlignment : ℕ := kAlignmentBytes / 4

def roundUp (value multiple : ℕ) : Option ℕ :=
  if multiple = 0 ∨ 2 ^ 64 - 1 - (multiple - 1) < value then none
  else some ((value + multiple - 1) / multiple * multiple)

/-- the bytes of a buffer, when their number is a `size_t` -/
def bytes (channels frames : ℕ) : Option ℕ :=
  if channels = 0 ∨ kMaxChannels < channels ∨ frames = 0 then none
  else
    match roundUp frames kFloatsPerAlignment with
    | none => none
    | some stride =>
      if (2 ^ 64 - 1) / stride < channels then none
      else if (2 ^ 64 - 1) / 4 < channels * stride then none
      else some (channels * stride * 4)

/-- `Prepare` -/
def prepares (memalign : ℕ → Bool) (channels frames : ℕ) : Bool := (bytes channels frames).elim false memalign

/-- no allocation is larger than the address space of a process -/
def FitsAddressSpace (memalign : ℕ → Bool) : Prop := ∀ size, memalign size = true → size < 2 ^ 47

variable {memalign : ℕ → Bool} {channels frames : ℕ}

theorem bytes_frames {size : ℕ} (h : bytes channels frames = some size) :
    0 < channels ∧ channels ≤ kMaxChannels ∧ frames * 4 ≤ size := by
  unfold bytes at h
  split_ifs at h with hchannels
  simp only [not_or, not_lt] at hchannels
  obtain ⟨hsome, hmost, -⟩ := hchannels
  cases hstride : roundUp frames kFloatsPerAlignment with
  | none =>
    rw [hstride] at h
    exact nomatch h
  | some stride =>
    rw [hstride] at h
    dsimp only at h
    split_ifs at h
    obtain rfl := Option.some.inj h
    have hround : frames ≤ stride := by
      unfold roundUp at hstride
      split_ifs at hstride
      obtain rfl := Option.some.inj hstride
      simp only [kFloatsPerAlignment, kAlignmentBytes]
      omega
    have hplanes : stride ≤ channels * stride := Nat.le_mul_of_pos_left _ (Nat.pos_of_ne_zero hsome)
    exact ⟨Nat.pos_of_ne_zero hsome, hmost, by omega⟩

/-- a prepared buffer has its channels, and fits the address space -/
theorem prepares_frames (haddress : FitsAddressSpace memalign) (h : prepares memalign channels frames = true) :
    0 < channels ∧ channels ≤ kMaxChannels ∧ frames < 2 ^ 45 := by
  unfold prepares at h
  cases hbytes : bytes channels frames with
  | none =>
    rw [hbytes] at h
    exact nomatch h
  | some size =>
    rw [hbytes] at h
    obtain ⟨hsome, hmost, hsize⟩ := bytes_frames hbytes
    have hlimit := haddress size h
    exact ⟨hsome, hmost, by omega⟩

end ViperFx.Iem.AlignedPlanarBuffer
