/-
Convolution in partitions: `IEMDSP/src/PartitionedMatrixConvolver.cpp`, over exact arithmetic.

Every input is convolved with one impulse response for each of the two outputs. The impulse responses are cut into segments of
`P` frames, and the input into blocks of `P` frames: when a block is complete, it and the block before it are transformed, the
spectrum is kept on a ring that remembers one spectrum for each segment, and the output of the block is read off the sum of the
products of the spectra on the ring with those of the segments. Of `pffft` only what `Core.Transform` says is used.

Results:
  · convolution : what comes out is silence for `P` frames, and then the convolution of everything that has come in
-/
import ViperFx.Core.Fourier
import ViperFx.Core.Loops
import ViperFx.Core.Stream

namespace ViperFx.Iem

open ViperFx.Core Finset

/-- a convolver for partitions of `P` frames; a spectrum takes the place of the floats at its offset -/
structure PartitionedMatrixConvolver (P : ℕ) (K S : Type) where
  inputChannels : ℕ
  irFrames : ℕ
  segmentCount : ℕ
  delayLineIndex : ℕ
  inputFill : ℕ
  outputIndex : ℕ
  kernelSpectra : ℕ → S
  inputHistory : ℕ → S
  overlap : ℕ → K
  inputBlock : ℕ → K
  outputBlock : ℕ → K

namespace PartitionedMatrixConvolver

def isPowerOfTwo (value : ℕ) : Bool := value != 0 && value &&& (value - 1) == 0

variable {K S : Type} [Field K] [AddCommGroup S] [Module K S] {P : ℕ} (fft : Transform K (2 * P) S)

def kernelOffset (c : PartitionedMatrixConvolver P K S) (output input segment : ℕ) : ℕ :=
  ((output * c.inputChannels + input) * c.segmentCount + segment) * (2 * P)

def historyOffset (c : PartitionedMatrixConvolver P K S) (input segment : ℕ) : ℕ :=
  (input * c.segmentCount + segment) * (2 * P)

def reset (c : PartitionedMatrixConvolver P K S) : PartitionedMatrixConvolver P K S :=
  { c with
    inputHistory := fun _ => 0
    overlap := fun _ => 0
    inputBlock := fun _ => 0
    outputBlock := fun _ => 0
    delayLineIndex := 0
    inputFill := 0
    outputIndex := P }

/-- a segment of an impulse response as it is transformed; the last one may be shorter than the others -/
def segmentFrames (P irFrames : ℕ) (ir : ℕ → K) (sourceBase segment : ℕ) : ℕ → K :=
  let offset := segment * P
  let count := min P (irFrames - offset)
  writeRow (fun _ => 0) 0 count fun i => ir (sourceBase + offset + i)

/-- `Build`; `allocated` when `pffft` has made a setup and there was memory for every buffer -/
def build (allocated : Bool) (inputChannels irFrames : ℕ) (ir : ℕ → K) : Option (PartitionedMatrixConvolver P K S) :=
  if inputChannels = 0 ∨ 16 < inputChannels ∨ irFrames = 0 ∨ P < 64 ∨ 4096 < P ∨ isPowerOfTwo P = false then none
  else
    let c : PartitionedMatrixConvolver P K S :=
      { inputChannels := inputChannels
        irFrames := irFrames
        segmentCount := (irFrames + P - 1) / P
        delayLineIndex := 0
        inputFill := 0
        outputIndex := 0
        kernelSpectra := fun _ => 0
        inputHistory := fun _ => 0
        overlap := fun _ => 0
        inputBlock := fun _ => 0
        outputBlock := fun _ => 0 }
    if c.segmentCount = 0 ∨ allocated = false then none
    else
      let kernels := fill c.kernelSpectra (fun k : ℕ × ℕ × ℕ => c.kernelOffset k.1 k.2.1 k.2.2)
        (fun k => fft.forward fun i => segmentFrames P irFrames ir ((k.1 * inputChannels + k.2.1) * irFrames) k.2.2 i)
        (List.range 2 ×ˢ List.range inputChannels ×ˢ List.range c.segmentCount)
      some { c with kernelSpectra := kernels }.reset

/-- one turn of the first loop of `ProcessBlock` -/
def transformInput (c : PartitionedMatrixConvolver P K S) (input : ℕ) : PartitionedMatrixConvolver P K S :=
  let offset := input * P
  let first := writeRow (fun _ => 0) 0 P fun i => c.overlap (offset + i)
  let fftInput := writeRow first P P fun i => c.inputBlock (offset + i)
  { c with
    overlap := writeRow c.overlap offset P fun i => c.inputBlock (offset + i)
    inputHistory := Function.update c.inputHistory (c.historyOffset input c.delayLineIndex) (fft.forward fun i => fftInput i) }

/-- the accumulator of an output after the loops over inputs and segments -/
def accumulator (c : PartitionedMatrixConvolver P K S) (output : ℕ) : S :=
  let scale : K := 1 / (2 * P : ℕ)
  (List.range c.inputChannels).foldl (fun sum input =>
    (List.range c.segmentCount).foldl (fun sum segment =>
      let historySegment := (c.delayLineIndex + c.segmentCount - segment) % c.segmentCount
      fft.accumulate (c.inputHistory (c.historyOffset input historySegment))
        (c.kernelSpectra (c.kernelOffset output input segment)) sum scale) sum) 0

/-- one turn of the second loop of `ProcessBlock` -/
def convolveOutput (c : PartitionedMatrixConvolver P K S) (output : ℕ) : PartitionedMatrixConvolver P K S :=
  let frames := fft.backward (c.accumulator fft output)
  { c with
    outputBlock := writeRow c.outputBlock (output * P) P fun i => if h : P + i < 2 * P then frames ⟨P + i, h⟩ else 0 }

def processBlock (c : PartitionedMatrixConvolver P K S) : PartitionedMatrixConvolver P K S :=
  let c := (List.range c.inputChannels).foldl (transformInput fft) c
  let c := (List.range 2).foldl (convolveOutput fft) c
  { c with delayLineIndex := (c.delayLineIndex + 1) % c.segmentCount, outputIndex := 0 }

/-- what one output emits next -/
def emitted (c : PartitionedMatrixConvolver P K S) (output : ℕ) : K :=
  if c.outputIndex < P then c.outputBlock (output * P + c.outputIndex) else 0

/-- a frame that has come in, with one sample for each input, takes its place in the block -/
def store (c : PartitionedMatrixConvolver P K S) (x : ℕ → K) : PartitionedMatrixConvolver P K S :=
  { c with
    outputIndex := if c.outputIndex < P then c.outputIndex + 1 else c.outputIndex
    inputBlock := fill c.inputBlock (fun channel => channel * P + c.inputFill) x (List.range c.inputChannels)
    inputFill := c.inputFill + 1 }

/-- one turn of the loop of `Process` -/
def frame (c : PartitionedMatrixConvolver P K S) (x : ℕ → K) : PartitionedMatrixConvolver P K S × (Fin 2 → K) :=
  let c' := c.store x
  (if c'.inputFill = P then { c'.processBlock fft with inputFill := 0 } else c', fun output => c.emitted output)

/-- `Process` on one block -/
def process (c : PartitionedMatrixConvolver P K S) (input : List (ℕ → K)) :
    PartitionedMatrixConvolver P K S × List (Fin 2 → K) :=
  feed (frame fft) c input

/-! ## What is to come out -/

/-- the sum over the inputs of the convolution of the input with its impulse response -/
def convolved (inputChannels irFrames : ℕ) (ir : ℕ → K) (stream : List (ℕ → K)) (output : ℕ) (m : ℤ) : K :=
  ∑ input ∈ range inputChannels, ∑ t ∈ range irFrames,
    ir ((output * inputChannels + input) * irFrames + t) * signal (fun x => x input) stream (m - t)

/-- the two blocks of an input that are transformed when block `k` is complete -/
def window (P : ℕ) (stream : List (ℕ → K)) (input : ℕ) (k : ℤ) (i : ℕ) : K :=
  signal (fun x => x input) stream (k * P - P + i)

/-- the impulse response without the segments before -/
def segmentOf (P irFrames : ℕ) (ir : ℕ → K) (sourceBase segment : ℕ) (i : ℕ) : K :=
  if i < P ∧ segment * P + i < irFrames then ir (sourceBase + (segment * P + i)) else 0

theorem segmentFrames_eq (irFrames : ℕ) (ir : ℕ → K) (sourceBase segment i : ℕ) :
    segmentFrames P irFrames ir sourceBase segment i = segmentOf P irFrames ir sourceBase segment i := by
  unfold segmentFrames segmentOf writeRow
  simp only [Nat.zero_le, true_and, zero_add, Nat.sub_zero, add_assoc]
  have hcount : i < min P (irFrames - segment * P) ↔ i < P ∧ segment * P + i < irFrames := by omega
  simp only [hcount]

/-- **One block.** The tail of the circular convolutions is the convolution of the stream. -/
theorem sum_circular (hP : 0 < P) (inputChannels irFrames : ℕ) (ir : ℕ → K) (stream : List (ℕ → K)) (output : ℕ) (k : ℤ)
    (i : ℕ) (hi : i < P) :
    ((List.range inputChannels ×ˢ List.range ((irFrames + P - 1) / P)).map fun p : ℕ × ℕ =>
      circular (fun j : Fin (2 * P) => window P stream p.1 (k - p.2) j)
        (fun j => segmentOf P irFrames ir ((output * inputChannels + p.1) * irFrames) p.2 j) ⟨P + i, second_half hi⟩).sum =
      convolved inputChannels irFrames ir stream output (k * P + i) := by
  have hcover : irFrames ≤ (irFrames + P - 1) / P * P := by
    have hround := Nat.div_add_mod (irFrames + P - 1) P
    have hrest := Nat.mod_lt (irFrames + P - 1) hP
    rw [mul_comm] at hround
    omega
  rw [sum_map_product, sum_map_range]
  unfold convolved
  refine sum_congr rfl fun input _ => ?_
  rw [sum_map_range]
  set base := (output * inputChannels + input) * irFrames
  let term : ℕ → K := fun t =>
    if t < irFrames then ir (base + t) * signal (fun x => x input) stream (k * P + i - t) else 0
  have hsegment : ∀ s : ℕ, circular (fun j : Fin (2 * P) => window P stream input (k - s) j)
      (fun j => segmentOf P irFrames ir base s j) ⟨P + i, second_half hi⟩ = ∑ u ∈ range P, term (s * P + u) := by
    intro s
    rw [circular_tail (fun j => window P stream input (k - s) j) (fun j => segmentOf P irFrames ir base s j) _ i hi]
    · refine sum_congr rfl fun u hu => ?_
      have hu := mem_range.mp hu
      have hplace : (k - s) * P - P + ((P + i - u : ℕ) : ℤ) = k * P + i - ((s * P + u : ℕ) : ℤ) := by
        rw [Nat.cast_sub (by omega)]
        push_cast
        ring
      simp only [term, window, segmentOf, hu, true_and, hplace]
      split_ifs
      · rw [mul_comm]
      · rw [mul_zero]
    · intro u hu
      exact if_neg fun hboth => absurd hboth.1 (not_lt.mpr hu)
  calc ∑ s ∈ range ((irFrames + P - 1) / P), circular (fun j : Fin (2 * P) => window P stream input (k - s) j)
        (fun j => segmentOf P irFrames ir base s j) ⟨P + i, second_half hi⟩
      = ∑ s ∈ range ((irFrames + P - 1) / P), ∑ u ∈ range P, term (s * P + u) := sum_congr rfl fun s _ => hsegment s
    _ = ∑ t ∈ range ((irFrames + P - 1) / P * P), term t := sum_blocks _ _ _
    _ = ∑ t ∈ range irFrames, term t := by
        refine (sum_subset (range_subset_range.mpr hcover) fun t _ hout => ?_).symm
        exact if_neg (by simpa using hout)
    _ = ∑ t ∈ range irFrames, ir (base + t) * signal (fun x => x input) stream (k * P + i - t) :=
        sum_congr rfl fun t ht => if_pos (mem_range.mp ht)

/-! ## The invariant -/

section Run

variable {inputChannels irFrames : ℕ} {ir : ℕ → K} {past : List (ℕ → K)} {c : PartitionedMatrixConvolver P K S}

/-- what `Build` fixes: the sizes and the spectra of the segments -/
structure Built (inputChannels irFrames : ℕ) (ir : ℕ → K) (c : PartitionedMatrixConvolver P K S) : Prop where
  channels : c.inputChannels = inputChannels
  segments : c.segmentCount = (irFrames + P - 1) / P
  kernel : ∀ output < 2, ∀ input < inputChannels, ∀ segment < (irFrames + P - 1) / P,
    c.kernelSpectra (c.kernelOffset output input segment) =
      fft.forward fun i => segmentOf P irFrames ir ((output * inputChannels + input) * irFrames) segment i

/-- `k` blocks are complete and `j` frames of the next one are there -/
structure Tracks (inputChannels irFrames : ℕ) (ir : ℕ → K) (past : List (ℕ → K)) (k j : ℕ)
    (c : PartitionedMatrixConvolver P K S) : Prop where
  built : Built fft inputChannels irFrames ir c
  length : past.length = k * P + j
  inputFill : c.inputFill = j
  delayLineIndex : c.delayLineIndex = k % c.segmentCount
  outputIndex : c.outputIndex = if k = 0 then P else j
  inputBlock : ∀ input < inputChannels, ∀ i < j,
    c.inputBlock (input * P + i) = signal (fun x => x input) past (k * P + i)
  overlap : ∀ input < inputChannels, ∀ i < P,
    c.overlap (input * P + i) = signal (fun x => x input) past (k * P - P + i)
  history : ∀ input < inputChannels, ∀ d < c.segmentCount,
    c.inputHistory (c.historyOffset input ((k + c.segmentCount - 1 - d) % c.segmentCount)) =
      fft.forward fun i => window P past input (k - 1 - d) i
  outputBlock : k ≠ 0 → ∀ output < 2, ∀ i < P,
    c.outputBlock (output * P + i) = convolved inputChannels irFrames ir past output (k * P - P + i)

/-- what the first loop of `ProcessBlock` has done after `count` turns -/
structure Loaded (c : PartitionedMatrixConvolver P K S) (count : ℕ) (c' : PartitionedMatrixConvolver P K S) : Prop where
  rest : c' = { c with overlap := c'.overlap, inputHistory := c'.inputHistory }
  overlap : ∀ input, ∀ i < P,
    c'.overlap (input * P + i) = if input < count then c.inputBlock (input * P + i) else c.overlap (input * P + i)
  history : ∀ input, ∀ segment < c.segmentCount,
    c'.inputHistory (c.historyOffset input segment) =
      if input < count ∧ segment = c.delayLineIndex then
        fft.forward fun i => if i < P then c.overlap (input * P + i) else c.inputBlock (input * P + (i - P))
      else c.inputHistory (c.historyOffset input segment)

theorem transformInputs (c : PartitionedMatrixConvolver P K S) (hP : 0 < P) (hindex : c.delayLineIndex < c.segmentCount)
    (count : ℕ) : Loaded fft c count ((List.range count).foldl (transformInput fft) c) := by
  induction count with
  | zero => exact ⟨rfl, fun _ _ _ => rfl, fun _ _ _ => rfl⟩
  | succ count ih =>
    rw [List.range_succ, List.foldl_append, List.foldl_cons, List.foldl_nil]
    generalize (List.range count).foldl (transformInput fft) c = d at ih ⊢
    have hrest := ih.rest
    have hblock : d.inputBlock = c.inputBlock := by rw [hrest]
    have hline : d.delayLineIndex = c.delayLineIndex := by rw [hrest]
    have hoffset : d.historyOffset = c.historyOffset := by rw [hrest]; rfl
    refine ⟨?_, ?_, ?_⟩
    · rw [hrest]
      rfl
    · intro input i hi
      simp only [transformInput, hblock]
      by_cases hhere : input = count
      · subst hhere
        rw [writeRow_at _ _ hi, if_pos (Nat.lt_succ_self _)]
      · rw [writeRow_other _ _ hhere hi, ih.overlap input i hi]
        have hlt : input < count ↔ input < count + 1 := by omega
        simp only [hlt]
    · intro input segment hsegment
      simp only [transformInput, hblock, hline, hoffset]
      by_cases hhere : input = count ∧ segment = c.delayLineIndex
      · obtain ⟨rfl, rfl⟩ := hhere
        rw [Function.update_self, if_pos ⟨Nat.lt_succ_self _, rfl⟩]
        refine congrArg _ (funext fun i => ?_)
        have hi := i.isLt
        simp only [writeRow]
        by_cases hfirst : (i : ℕ) < P
        · rw [if_neg (by omega), if_pos ⟨Nat.zero_le _, by omega⟩, if_pos hfirst, Nat.sub_zero, ih.overlap input i hfirst,
            if_neg (lt_irrefl _)]
        · rw [if_pos ⟨by omega, by omega⟩, if_neg hfirst]
      · have hplace : c.historyOffset input segment ≠ c.historyOffset count c.delayLineIndex := by
          intro heq
          have hrow := Nat.eq_of_mul_eq_mul_right (by omega) heq
          exact hhere (row_inj hsegment hindex hrow)
        rw [Function.update_of_ne hplace, ih.history input segment hsegment]
        have hlt : input < count ∧ segment = c.delayLineIndex ↔ input < count + 1 ∧ segment = c.delayLineIndex := by omega
        simp only [hlt]

/-- the second loop of `ProcessBlock` writes a row for each output -/
theorem convolveOutputs (c : PartitionedMatrixConvolver P K S) (count : ℕ) :
    let c' := (List.range count).foldl (convolveOutput fft) c
    c' = { c with outputBlock := c'.outputBlock } ∧
      ∀ output < count, ∀ i, (hi : i < P) →
        c'.outputBlock (output * P + i) = fft.backward (c.accumulator fft output) ⟨P + i, second_half hi⟩ := by
  induction count with
  | zero => exact ⟨rfl, fun _ h => absurd h (Nat.not_lt_zero _)⟩
  | succ count ih =>
    rw [List.range_succ, List.foldl_append, List.foldl_cons, List.foldl_nil]
    generalize (List.range count).foldl (convolveOutput fft) c = d at ih ⊢
    obtain ⟨hrest, hrows⟩ := ih
    have hsum : d.accumulator fft = c.accumulator fft := by rw [hrest]; rfl
    refine ⟨by rw [hrest]; rfl, ?_⟩
    intro output houtput i hi
    simp only [convolveOutput, hsum]
    by_cases hhere : output = count
    · subst hhere
      rw [writeRow_at _ _ hi, dif_pos (by omega)]
    · rw [writeRow_other _ _ hhere hi]
      exact hrows output (by omega) i hi

variable {fft}

/-- stepping back on a ring by less than a round leads to another place -/
theorem back_mod_ne {k n s : ℕ} (hpos : 0 < s) (hs : s < n) : (k + n - s) % n ≠ k % n := by
  intro heq
  have hback : k + (n - s) ≡ k + 0 [MOD n] := by
    have hshift : k + (n - s) = k + n - s := by omega
    rw [hshift]
    exact heq
  have hround := (Nat.modEq_zero_iff_dvd).mp (Nat.ModEq.add_left_cancel' k hback)
  exact absurd (Nat.le_of_dvd (by omega) hround) (by omega)

theorem convolved_append (later : List (ℕ → K)) (output : ℕ) {m : ℤ} (hm : m < past.length) :
    convolved inputChannels irFrames ir (past ++ later) output m = convolved inputChannels irFrames ir past output m := by
  unfold convolved
  refine sum_congr rfl fun input _ => sum_congr rfl fun t _ => ?_
  rw [signal_append (fun x => x input) past later (by omega)]

theorem window_append (later : List (ℕ → K)) (input : ℕ) {k : ℤ} {i : ℕ} (hm : k * P - P + i < past.length) :
    window P (past ++ later) input k i = window P past input k i :=
  signal_append (fun x : ℕ → K => x input) past later hm

/-- a frame that has come in is one more frame of the block -/
theorem Tracks.store {k j : ℕ} (h : Tracks fft inputChannels irFrames ir past k j c) (hj : j < P) (x : ℕ → K) :
    Tracks fft inputChannels irFrames ir (past ++ [x]) k (j + 1) (c.store x) where
  built := ⟨h.built.channels, h.built.segments, h.built.kernel⟩
  length := by rw [List.length_append, h.length]; rfl
  inputFill := by simp only [PartitionedMatrixConvolver.store, h.inputFill]
  delayLineIndex := h.delayLineIndex
  outputIndex := by
    simp only [PartitionedMatrixConvolver.store, h.outputIndex]
    split_ifs <;> omega
  inputBlock := by
    intro input hinput i hi
    have hlength := h.length
    have hchannels := h.built.channels
    simp only [PartitionedMatrixConvolver.store, h.inputFill, hchannels]
    by_cases hlast : i = j
    · subst hlast
      have hplace : (k * P + i : ℤ) = past.length := by rw [hlength]; push_cast; ring
      rw [hplace, signal_concat]
      exact fill_at _ (List.mem_range.mpr hinput) fun channel _ heq => by rw [(row_inj hj hj heq).1]
    · have hbefore : i < j := by omega
      have hplace : (k * P + i : ℤ) < past.length := by rw [hlength]; push_cast; omega
      rw [signal_append _ _ _ hplace, ← h.inputBlock input hinput i hbefore]
      exact fill_other _ fun channel _ heq => hlast (row_inj hj (by omega) heq).2.symm
  overlap := by
    intro input hinput i hi
    have hlength := h.length
    have hplace : (k * P - P + i : ℤ) < past.length := by rw [hlength]; push_cast; omega
    rw [signal_append _ _ _ hplace]
    exact h.overlap input hinput i hi
  history := by
    intro input hinput d hd
    refine (h.history input hinput d hd).trans (congrArg _ (funext fun i => ?_))
    have hlength := h.length
    have hi := i.isLt
    have hback : ((k : ℤ) - 1 - d) * P = k * P - P - d * P := by ring
    have hlag : (0 : ℤ) ≤ d * P := by positivity
    exact (window_append [x] input (by rw [hback, hlength]; push_cast; omega)).symm
  outputBlock := by
    intro hk output houtput i hi
    have hlength := h.length
    rw [convolved_append [x] output (by rw [hlength]; push_cast; omega)]
    exact h.outputBlock hk output houtput i hi

/-- what the accumulator of an output holds when the ring holds the spectra of the last blocks -/
theorem accumulator_tail [CharZero K] (hP : 0 < P) (hbuilt : Built fft inputChannels irFrames ir c) {k : ℕ}
    (hindex : c.delayLineIndex = k % c.segmentCount)
    (hhistory : ∀ input < inputChannels, ∀ segment < c.segmentCount,
      c.inputHistory (c.historyOffset input ((k + c.segmentCount - segment) % c.segmentCount)) =
        fft.forward fun i => window P past input (k - segment) i)
    {output : ℕ} (houtput : output < 2) {i : ℕ} (hi : i < P) :
    fft.backward (c.accumulator fft output) ⟨P + i, second_half hi⟩ =
      convolved inputChannels irFrames ir past output (k * P + i) := by
  have hscale : (1 / (2 * P : ℕ) : K) * (2 * P : ℕ) = 1 := by
    have hne : ((2 * P : ℕ) : K) ≠ 0 := Nat.cast_ne_zero.mpr (by omega)
    exact one_div_mul_cancel hne
  have hsegments : ∀ segment < c.segmentCount, (c.delayLineIndex + c.segmentCount - segment) % c.segmentCount =
      (k + c.segmentCount - segment) % c.segmentCount := by
    intro segment hsegment
    have hshift : ∀ a, a + c.segmentCount - segment = a + (c.segmentCount - segment) := by omega
    rw [hindex, hshift, hshift, Nat.mod_add_mod]
  have hproducts : c.accumulator fft output =
      (List.range inputChannels ×ˢ List.range c.segmentCount).foldl (fun sum p =>
        fft.accumulate (fft.forward fun j => window P past p.1 (k - p.2) j)
          (fft.forward fun j => segmentOf P irFrames ir ((output * inputChannels + p.1) * irFrames) p.2 j)
          sum (1 / (2 * P : ℕ))) 0 := by
    rw [foldl_product]
    unfold accumulator
    rw [hbuilt.channels]
    refine List.foldl_ext _ _ _ fun _ input hinput => List.foldl_ext _ _ _ fun _ segment hsegment => ?_
    have hinput := List.mem_range.mp hinput
    have hsegment := List.mem_range.mp hsegment
    have hkernel := hbuilt.kernel output houtput input hinput segment (by rw [← hbuilt.segments]; exact hsegment)
    simp only [hsegments segment hsegment, hhistory input hinput segment hsegment, hkernel]
  rw [hproducts, Transform.accumulated fft]
  simp only
  rw [hscale, one_mul, hbuilt.segments]
  exact sum_circular hP inputChannels irFrames ir past output k i hi

/-- **A complete block.** It is transformed, and its output takes the place of the output before. -/
theorem Tracks.processBlock [CharZero K] (hP : 0 < P) (hframes : 0 < irFrames) {k : ℕ}
    (h : Tracks fft inputChannels irFrames ir past k P c) :
    Tracks fft inputChannels irFrames ir past (k + 1) 0 { c.processBlock fft with inputFill := 0 } := by
  have hlength := h.length
  have hcount : 0 < c.segmentCount := by
    rw [h.built.segments]
    exact Nat.div_pos (by omega) hP
  have hindex : c.delayLineIndex < c.segmentCount := by
    rw [h.delayLineIndex]
    exact Nat.mod_lt _ hcount
  -- the block itself, and the window that it completes
  have hblock : ∀ input < inputChannels, ∀ i < P,
      c.inputBlock (input * P + i) = signal (fun x => x input) past (k * P + i) := h.inputBlock
  have hwindow : ∀ input < inputChannels,
      (fft.forward fun i : Fin (2 * P) => if i < P then c.overlap (input * P + i) else c.inputBlock (input * P + (i - P))) =
        fft.forward fun i => window P past input k i := by
    intro input hinput
    refine congrArg _ (funext fun i => ?_)
    have hi := i.isLt
    split_ifs with hfirst
    · exact h.overlap input hinput i hfirst
    · rw [hblock input hinput (i - P) (by omega), Nat.cast_sub (by omega)]
      unfold window
      congr 1
      ring
  -- the first loop
  have hloaded := transformInputs fft c hP hindex c.inputChannels
  unfold PartitionedMatrixConvolver.processBlock
  simp only
  generalize (List.range c.inputChannels).foldl (transformInput fft) c = d at hloaded ⊢
  have hd := hloaded.rest
  have hchannels : d.inputChannels = c.inputChannels := by rw [hd]
  have hsegments : d.segmentCount = c.segmentCount := by rw [hd]
  have hbuilt : Built fft inputChannels irFrames ir d := by
    rw [hd]
    exact ⟨h.built.channels, h.built.segments, h.built.kernel⟩
  have hhistory : ∀ input < inputChannels, ∀ segment < c.segmentCount,
      d.inputHistory (c.historyOffset input ((k + c.segmentCount - segment) % c.segmentCount)) =
        fft.forward fun i => window P past input (k - segment) i := by
    intro input hinput segment hsegment
    have hinput' : input < c.inputChannels := by rw [h.built.channels]; exact hinput
    rw [hloaded.history input _ (Nat.mod_lt _ hcount), h.delayLineIndex]
    cases segment with
    | zero =>
      rw [Nat.sub_zero, Nat.add_mod_right, if_pos ⟨hinput', rfl⟩, hwindow input hinput]
      simp
    | succ segment =>
      have hother : (k + c.segmentCount - (segment + 1)) % c.segmentCount ≠ k % c.segmentCount :=
        back_mod_ne (Nat.succ_pos _) hsegment
      have hplace : k + c.segmentCount - (segment + 1) = k + c.segmentCount - 1 - segment := by omega
      rw [if_neg fun hboth => hother hboth.2, hplace, h.history input hinput segment (by omega)]
      push_cast
      simp only [sub_sub, add_comm]
  -- the second loop
  obtain ⟨he, hrows⟩ := convolveOutputs fft d 2
  generalize (List.range 2).foldl (convolveOutput fft) d = e at he hrows ⊢
  have hoffset : e.historyOffset = c.historyOffset := by rw [he, hd]; rfl
  have hline : e.delayLineIndex = c.delayLineIndex := by rw [he, hd]
  have hcountE : e.segmentCount = c.segmentCount := by rw [he, hd]
  exact
    { built := by
        rw [he]
        exact ⟨hbuilt.channels, hbuilt.segments, hbuilt.kernel⟩
      length := by rw [hlength]; ring
      inputFill := rfl
      delayLineIndex := by simp only [hline, hcountE, h.delayLineIndex, Nat.mod_add_mod]
      outputIndex := by simp
      inputBlock := fun _ _ i hi => absurd hi (Nat.not_lt_zero i)
      overlap := by
        intro input hinput i hi
        have hinput' : input < c.inputChannels := by rw [h.built.channels]; exact hinput
        have hover : e.overlap = d.overlap := by rw [he]
        have hplace : ((k + 1 : ℕ) * P - P + i : ℤ) = k * P + i := by push_cast; ring
        simp only [hover]
        rw [hloaded.overlap input i hi, if_pos hinput', hblock input hinput i hi, hplace]
      history := by
        intro input hinput segment hsegment
        have hkept : e.inputHistory = d.inputHistory := by rw [he]
        have hsegment : segment < c.segmentCount := by rw [← hcountE]; exact hsegment
        have hplace : k + 1 + c.segmentCount - 1 - segment = k + c.segmentCount - segment := by omega
        have hwhich : ((k + 1 : ℕ) - 1 - segment : ℤ) = k - segment := by push_cast; ring
        have hsame := hhistory input hinput segment hsegment
        simp only [hcountE, hkept, hplace, hwhich]
        exact hsame
      outputBlock := by
        intro _ output houtput i hi
        have hplace : ((k + 1 : ℕ) * P - P + i : ℤ) = k * P + i := by push_cast; ring
        simp only [hplace]
        rw [hrows output houtput i hi]
        refine accumulator_tail hP hbuilt ?_ ?_ houtput hi
        · rw [hd]
          exact h.delayLineIndex
        · intro input hinput segment hsegment
          have hsame := hhistory input hinput segment (by rw [← hsegments]; exact hsegment)
          have hoff : d.historyOffset = c.historyOffset := by rw [hd]; rfl
          rw [hoff, hsegments]
          exact hsame }

/-- **One frame.** -/
theorem Tracks.frame [CharZero K] (hP : 0 < P) (hframes : 0 < irFrames) {k j : ℕ} (hj : j < P)
    (h : Tracks fft inputChannels irFrames ir past k j c) (x : ℕ → K) :
    ∃ k' j', j' < P ∧ Tracks fft inputChannels irFrames ir (past ++ [x]) k' j' (c.frame fft x).1 := by
  have hstored := h.store hj x
  have hfill := hstored.inputFill
  unfold PartitionedMatrixConvolver.frame
  simp only
  by_cases hfull : j + 1 = P
  · rw [if_pos (hfill.trans hfull)]
    rw [hfull] at hstored
    exact ⟨k + 1, 0, hP, hstored.processBlock hP hframes⟩
  · rw [if_neg fun heq => hfull (hfill.symm.trans heq)]
    exact ⟨k, j + 1, by omega, hstored⟩

/-- what is emitted next: silence in the first block, and the convolution of `P` frames before in every later one -/
theorem Tracks.emitted {k j : ℕ} (hj : j < P) (h : Tracks fft inputChannels irFrames ir past k j c) {output : ℕ}
    (houtput : output < 2) :
    c.emitted output =
      if past.length < P then 0 else convolved inputChannels irFrames ir past output (past.length - P) := by
  have hlength := h.length
  unfold PartitionedMatrixConvolver.emitted
  rw [h.outputIndex]
  by_cases hfirst : k = 0
  · subst hfirst
    rw [if_pos rfl, if_neg (lt_irrefl P), if_pos (by omega)]
  · have hlater : P ≤ past.length := by
      have hblocks : 1 * P ≤ k * P := Nat.mul_le_mul_right P (by omega)
      omega
    have hplace : (past.length - P : ℤ) = k * P - P + j := by rw [hlength]; push_cast; ring
    rw [if_neg hfirst, if_pos hj, if_neg (not_lt.mpr hlater), h.outputBlock hfirst output houtput j hj, hplace]

end Run

/-! ## Build, and the stream -/

theorem isPowerOfTwo_two_pow (e : ℕ) : isPowerOfTwo (2 ^ e) = true := by
  unfold isPowerOfTwo
  rw [Nat.and_two_pow_sub_one_eq_mod, Nat.mod_self]
  simp

/-- what `Build` makes of sizes within its bounds -/
theorem build_tracks {inputChannels irFrames e : ℕ} (ir : ℕ → K) (hchannels : 1 ≤ inputChannels ∧ inputChannels ≤ 16)
    (hframes : 1 ≤ irFrames) (hP : 64 ≤ P ∧ P ≤ 4096) (hpower : P = 2 ^ e) :
    ∃ c, build fft true inputChannels irFrames ir = some c ∧ Tracks fft inputChannels irFrames ir [] 0 0 c := by
  have hsegments : (irFrames + P - 1) / P ≠ 0 := (Nat.div_pos (by omega) (by omega)).ne'
  have htwo : isPowerOfTwo P = true := by
    rw [hpower]
    exact isPowerOfTwo_two_pow e
  have hguard : ¬(inputChannels = 0 ∨ 16 < inputChannels ∨ irFrames = 0 ∨ P < 64 ∨ 4096 < P ∨ isPowerOfTwo P = false) := by
    simp only [htwo, Bool.true_eq_false, or_false]
    omega
  unfold build
  rw [if_neg hguard]
  dsimp only
  rw [if_neg (by simp [hsegments])]
  refine ⟨_, rfl, ?_⟩
  have hsilent : ∀ f : (ℕ → K) → K, ∀ m, signal f [] m = 0 := fun f m => by simp [signal]
  exact
    { built := by
        refine ⟨rfl, rfl, ?_⟩
        intro output houtput input hinput segment hsegment
        refine (fill_at (k := (output, input, segment)) _ (by simp [houtput, hinput, hsegment]) ?_).trans ?_
        · rintro ⟨output', input', segment'⟩ hmem heq
          obtain ⟨-, hinput', hsegment'⟩ : output' < 2 ∧ input' < inputChannels ∧ segment' < (irFrames + P - 1) / P := by
            simpa using hmem
          have hrow := Nat.eq_of_mul_eq_mul_right (by omega) heq
          obtain ⟨hpair, rfl⟩ := row_inj hsegment' hsegment hrow
          obtain ⟨rfl, rfl⟩ := row_inj hinput' hinput hpair
          rfl
        · exact congrArg _ (funext fun i => segmentFrames_eq _ _ _ _ _)
      length := by simp
      inputFill := rfl
      delayLineIndex := rfl
      outputIndex := rfl
      inputBlock := fun _ _ i hi => absurd hi (Nat.not_lt_zero i)
      overlap := fun _ _ _ _ => (hsilent _ _).symm
      history := by
        intro input _ d _
        have hwindow : (fun i : Fin (2 * P) => window P ([] : List (ℕ → K)) input ((0 : ℕ) - 1 - d) i) = 0 :=
          funext fun i => hsilent _ _
        rw [hwindow, map_zero]
        rfl
      outputBlock := fun h => absurd rfl h }

/-- **Partitioned convolution is convolution.** Whatever the sizes within the bounds of `Build` and however the stream is split
into blocks, each output emits `P` frames of silence, and then the convolution of everything that has come in. -/
theorem convolution [CharZero K] {inputChannels irFrames e : ℕ} (ir : ℕ → K)
    (hchannels : 1 ≤ inputChannels ∧ inputChannels ≤ 16) (hframes : 1 ≤ irFrames) (hP : 64 ≤ P ∧ P ≤ 4096)
    (hpower : P = 2 ^ e) :
    ∃ c, build fft true inputChannels irFrames ir = some c ∧
      ∀ blocks : List (List (ℕ → K)),
        (feedBlocks (frame fft) c blocks).2 = (List.range blocks.flatten.length).map fun (n : ℕ) (output : Fin 2) =>
          if n < P then 0 else convolved inputChannels irFrames ir blocks.flatten output (n - P) := by
  obtain ⟨c, hbuild, hstart⟩ := build_tracks fft ir hchannels hframes hP hpower
  refine ⟨c, hbuild, fun blocks => ?_⟩
  rw [feedBlocks_eq]
  set stream := blocks.flatten
  refine List.ext_getElem (by simp) fun n hn _ => ?_
  have hn' : n < stream.length := by simpa using hn
  rw [getElem_feed (frame fft) c stream n hn', List.getElem_map, List.getElem_range]
  -- the state before frame `n`, and what it emits
  obtain ⟨k, j, hj, htracks⟩ : ∃ k j, j < P ∧
      Tracks fft inputChannels irFrames ir (stream.take n) k j (feed (frame fft) c (stream.take n)).1 := by
    have hrun := feed_invariant (frame fft)
      (I := fun past c => ∃ k j, j < P ∧ Tracks fft inputChannels irFrames ir past k j c)
      (fun past c x ⟨k, j, hj, h⟩ => h.frame (by omega) hframes hj x) ⟨0, 0, by omega, hstart⟩ (stream.take n)
    simpa using hrun
  funext output
  have hlength : (stream.take n).length = n := by simp; omega
  have hemitted := htracks.emitted hj output.isLt
  rw [hlength] at hemitted
  refine hemitted.trans ?_
  split_ifs with hfirst
  · rfl
  · refine sum_congr rfl fun input _ => sum_congr rfl fun t _ => ?_
    rw [signal_take (fun x : ℕ → K => x input) stream n (by omega)]

/-- a one on the third channel, and silence in the block after it -/
def impulse : List (List (ℕ → ℝ)) := [[fun channel => if channel = 2 then 1 else 0], List.replicate 200 fun _ => 0]

theorem flatten_impulse :
    impulse.flatten = (fun channel => if channel = 2 then 1 else 0) :: List.replicate 200 fun _ => 0 := by
  rw [impulse, List.flatten_cons, List.flatten_singleton]
  rfl

theorem signal_impulse (input : ℕ) (m : ℤ) :
    signal (fun x : ℕ → ℝ => x input) impulse.flatten m = if input = 2 ∧ m = 0 then 1 else 0 := by
  by_cases hm : m < 0
  · rw [signal_neg _ _ hm, if_neg (by omega)]
  obtain ⟨n, rfl⟩ := Int.eq_ofNat_of_zero_le (not_lt.mp hm)
  unfold signal
  rw [if_pos (by omega), Int.toNat_natCast, flatten_impulse]
  cases n with
  | zero =>
    rw [List.getElem?_cons_zero, Option.elim_some, Nat.cast_zero]
    simp only [and_true]
  | succ n =>
    rw [if_neg (by omega), List.getElem?_cons_succ, List.getElem?_replicate]
    split_ifs <;> rfl

/-- three channels and a response of three segments, which is numbered through: frame 100 of the response to the impulse comes
out of its second segment -/
theorem convolution_impulse :
    ∃ c, build (discreteFourier (2 * 64)) true 3 130 (fun i => (i : ℝ)) = some c ∧
      (feedBlocks (frame (discreteFourier (2 * 64))) c impulse).2[164]? =
        some fun (output : Fin 2) => ((((output : ℕ) * 3 + 2) * 130 + 100 : ℕ) : ℝ) := by
  have hchannels : 1 ≤ 3 ∧ 3 ≤ 16 := by norm_num
  have hframes : 1 ≤ 130 := by norm_num
  obtain ⟨c, hbuild, hrun⟩ := convolution (e := 6) (discreteFourier (2 * 64)) (fun i => (i : ℝ)) hchannels hframes
    ⟨le_rfl, by norm_num⟩ (by norm_num)
  refine ⟨c, hbuild, ?_⟩
  have hlength : impulse.flatten.length = 201 := by
    rw [flatten_impulse, List.length_cons, List.length_replicate]
  rw [hrun impulse, hlength, List.getElem?_map, List.getElem?_range (by norm_num)]
  refine congrArg some (funext fun output => ?_)
  dsimp only
  rw [if_neg (by norm_num), convolved, sum_eq_single 2, sum_eq_single 100]
  · rw [signal_impulse, if_pos (by norm_num), mul_one]
  · intro t _ ht
    rw [signal_impulse, if_neg (by omega), mul_zero]
  · intro h
    simp at h
  · intro input _ hinput
    refine sum_eq_zero fun t _ => ?_
    rw [signal_impulse, if_neg (by simp [hinput]), mul_zero]
  · intro h
    simp at h

end PartitionedMatrixConvolver

end ViperFx.Iem
