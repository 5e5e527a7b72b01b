/-
The delay of the HALO bed: `IEMDSP/src/HaloEncoder.cpp`, with the analysis and the synthesis of `HaloStft.cpp`, the history of
`HaloDialogExtractor.cpp` and the dry path of `IemPipeline.cpp`, over exact arithmetic.

The input is analysed in frames of 1024 that begin every 512. What the dialog stage answers to a frame comes from the frame
before it, and is synthesized to the output at the place where the frame after that one would begin; half of each synthesized
frame overlaps the next one. What the dialog and surround stages do to a spectrum is taken as one real matrix (`BedMatrix`), and
of the transform only that its backward direction undoes the forward one up to 1024.

Results:
  · bed_delayed : from frame 2048 on, the bed is the matrix applied to the input 1536 frames before; the ring is read and added
                  to in order; the dry path is delayed by as much
-/
import Mathlib.Data.List.GetD
import ViperFx.Core.Fourier
import ViperFx.Core.Loops
import ViperFx.Core.OverlapAdd
import ViperFx.Core.Stream
import ViperFx.Iem.IemParams

namespace ViperFx.Iem

open ViperFx.Core Finset

def kFftSize : ℕ := 1024
def kHop : ℕ := 512
def kBins : ℕ := 513
def kReportedLatency : ℕ := 1024
def kHaloBedChannels : ℕ := 7
def kMaxAmbisonicsOrder : ℕ := 3

theorem kFftSize_pos : 0 < kFftSize := by decide

theorem kHop_lt : kHop < kFftSize := by decide

/-- the real and the imaginary parts of the bins -/
structure Spectrum (K : Type) where
  re : ℕ → K
  im : ℕ → K

/-- what the dialog and surround stages make of the left and the right spectrum, for each channel of the bed -/
structure BedMatrix (K : Type) where
  left : Fin kHaloBedChannels → K
  right : Fin kHaloBedChannels → K

structure EncoderConfig where
  sampleRate : ℕ
  maxFrames : ℕ
  order : ℕ

/-- the buffers of the analysis; there is always room for another sample -/
structure HaloStft (K : Type) where
  analysisLeft : ℕ → K
  analysisRight : ℕ → K
  analysisFill : Fin kFftSize

structure HaloDialogExtractor (K : Type) where
  leftHistory : Spectrum K
  rightHistory : Spectrum K
  haveTarget : Bool

structure HaloEncoder (K : Type) where
  config : EncoderConfig
  analysis : HaloStft K
  dialog : HaloDialogExtractor K
  outputRing : OverlapRing (Fin kHaloBedChannels → K)
  readFrame : ℕ
  synthesisFrame : ℕ

section Transforms

variable {K : Type} [Field K] (fft : ExactTransform K kFftSize (Fin kFftSize → K)) (window : ℕ → K)

/-- a float of a buffer of the transform -/
def floatAt (buffer : Fin kFftSize → K) (index : ℕ) : K := if h : index < kFftSize then buffer ⟨index, h⟩ else 0

/-- the ordered spectrum of 1024 samples; the first two floats are the real bins at both ends -/
def HaloStft.analyzeChannel (time : ℕ → K) : Spectrum K :=
  let fftOut := floatAt (fft.forward fun i => time i)
  { re := fun bin => if bin = 0 then fftOut 0 else if bin = kBins - 1 then fftOut 1 else fftOut (2 * bin)
    im := fun bin => if bin = 0 then 0 else if bin = kBins - 1 then 0 else fftOut (2 * bin + 1) }

/-- the buffer that is transformed back -/
def HaloStft.fftIn (s : Spectrum K) (index : ℕ) : K :=
  if index = 0 then s.re 0
  else if index = 1 then s.re (kBins - 1)
  else if index % 2 = 0 then s.re (index / 2)
  else s.im (index / 2)

def HaloStft.inverseOne (s : Spectrum K) (ola : ℕ → K) (index : ℕ) : K :=
  let fftOut := floatAt (fft.backward fun i => HaloStft.fftIn s i)
  let scale : K := 1 / (kFftSize : K)
  ola index + fftOut index * scale * window index

/-- the synthesis buffer is cleared before -/
def HaloStft.inverseAdd (s : Spectrum K) : ℕ → K := HaloStft.inverseOne fft window s fun _ => 0

end Transforms

namespace HaloEncoder

section Model

variable {K : Type} [Field K] (fft : ExactTransform K kFftSize (Fin kFftSize → K)) (window : ℕ → K) (matrix : BedMatrix K)

def silent : Spectrum K := ⟨fun _ => 0, fun _ => 0⟩

/-- `Prepare` and the `Reset` in it; `allocated` when there was memory for every stage -/
def prepare (allocated : Bool) (config : EncoderConfig) : Option (HaloEncoder K) :=
  if config.sampleRate ≠ 96000 ∨ config.maxFrames = 0 ∨ config.order = 0 ∨ kMaxAmbisonicsOrder < config.order then none
  else if allocated = false then none
  else
    some
      { config := config
        analysis := ⟨fun _ => 0, fun _ => 0, ⟨0, kFftSize_pos⟩⟩
        dialog := ⟨silent, silent, false⟩
        outputRing := .clear (kReportedLatency + kFftSize + 4 * config.maxFrames)
        readFrame := 0
        synthesisFrame := kReportedLatency }

/-- what the dialog stage hands on: the spectra of the frame before, and silence in the first frame -/
def delayed (dialog : HaloDialogExtractor K) : Spectrum K × Spectrum K :=
  if dialog.haveTarget then (dialog.leftHistory, dialog.rightHistory) else (silent, silent)

/-- the spectrum of a channel of the bed -/
def bedSpectrum (s : Spectrum K × Spectrum K) (channel : Fin kHaloBedChannels) : Spectrum K :=
  { re := fun bin => matrix.left channel * s.1.re bin + matrix.right channel * s.2.re bin
    im := fun bin => matrix.left channel * s.1.im bin + matrix.right channel * s.2.im bin }

def renderFrame (e : HaloEncoder K) (left right : Spectrum K) : HaloEncoder K :=
  let frame := fun offset channel => HaloStft.inverseAdd fft window (bedSpectrum matrix (delayed e.dialog) channel) offset
  { e with
    dialog := ⟨left, right, true⟩
    outputRing := e.outputRing.addFrame e.synthesisFrame kFftSize frame
    synthesisFrame := e.synthesisFrame + kHop }

/-- one turn of the loop of `HaloStft::Process`, for a chunk that there is room for -/
def chunk (e : HaloEncoder K) (input : List (K × K)) : HaloEncoder K :=
  let left := writeRow e.analysis.analysisLeft e.analysis.analysisFill input.length fun i => (input.getD i (0, 0)).1
  let right := writeRow e.analysis.analysisRight e.analysis.analysisFill input.length fun i => (input.getD i (0, 0)).2
  if h : e.analysis.analysisFill + input.length < kFftSize then
    { e with analysis := ⟨left, right, ⟨e.analysis.analysisFill + input.length, h⟩⟩ }
  else
    let e := e.renderFrame fft window matrix (HaloStft.analyzeChannel fft left) (HaloStft.analyzeChannel fft right)
    { e with
      analysis :=
        ⟨writeRow left 0 kHop fun i => left (kHop + i), writeRow right 0 kHop fun i => right (kHop + i),
          ⟨kHop, kHop_lt⟩⟩ }

/-- `HaloStft::Process`, with `RenderFrame` as what is called for every frame -/
def analyze (e : HaloEncoder K) (input : List (K × K)) : HaloEncoder K :=
  match input with
  | [] => e
  | x :: xs =>
    let take := min (kFftSize - e.analysis.analysisFill) (x :: xs).length
    analyze (e.chunk fft window matrix ((x :: xs).take take)) ((x :: xs).drop take)
termination_by input.length
decreasing_by
  have hroom := e.analysis.analysisFill.isLt
  simp only [List.length_drop, List.length_cons]
  omega

/-- `ProcessBed` up to the diffusion: the directional channels of one block -/
def processBed (e : HaloEncoder K) (stereo : List (K × K)) :
    Option (HaloEncoder K × List (Fin kHaloBedChannels → K)) :=
  if e.config.maxFrames < stereo.length then none
  else
    let e := e.analyze fft window matrix stereo
    let p := e.outputRing.takeFrames e.readFrame stereo.length
    some ({ e with outputRing := p.1, readFrame := e.readFrame + stereo.length }, p.2)

/-- one call of `ProcessBed` after the other -/
def processBeds (e : HaloEncoder K) : List (List (K × K)) → Option (HaloEncoder K × List (Fin kHaloBedChannels → K))
  | [] => some (e, [])
  | stereo :: blocks =>
    (e.processBed fft window matrix stereo).bind fun p =>
      (p.1.processBeds blocks).map fun q => (q.1, p.2 ++ q.2)

def stftLatencyFrames : ℕ := kReportedLatency + kHop

end Model

/-! ## Analysis and synthesis of one frame -/

section Frame

variable {K : Type} [Field K] (fft : ExactTransform K kFftSize (Fin kFftSize → K)) (window : ℕ → K) (matrix : BedMatrix K)

/-- what the matrix makes of a stereo sample -/
def bedSample (channel : Fin kHaloBedChannels) (left right : K) : K :=
  matrix.left channel * left + matrix.right channel * right

/-- nothing of the spectrum is lost between the two orders -/
theorem fftIn_analyzeChannel (time : ℕ → K) (i : Fin kFftSize) :
    HaloStft.fftIn (HaloStft.analyzeChannel fft time) i = fft.forward (fun i => time i) i := by
  have hi : (i : ℕ) < 1024 := i.isLt
  have hfloat : ∀ j : ℕ, j = i → floatAt (fft.forward fun i => time i) j = fft.forward (fun i => time i) i := by
    rintro _ rfl
    exact dif_pos i.isLt
  unfold HaloStft.fftIn HaloStft.analyzeChannel
  have hcases : (i : ℕ) = 0 ∨ (i : ℕ) = 1 ∨ 2 ≤ (i : ℕ) ∧ (i : ℕ) % 2 = 0 ∨ 2 ≤ (i : ℕ) ∧ (i : ℕ) % 2 ≠ 0 := by omega
  have hbins : kBins - 1 = 512 := rfl
  dsimp only
  rcases hcases with hfirst | hsecond | ⟨hpair, heven⟩ | ⟨hpair, hodd⟩
  · rw [if_pos hfirst, if_pos rfl]
    exact hfloat 0 hfirst.symm
  · rw [if_neg (by omega), if_pos hsecond, if_neg (by omega), if_pos rfl]
    exact hfloat 1 hsecond.symm
  · rw [if_neg (by omega), if_neg (by omega), if_pos heven, if_neg (by omega), if_neg (by omega)]
    exact hfloat _ (by omega)
  · rw [if_neg (by omega), if_neg (by omega), if_neg hodd, if_neg (by omega), if_neg (by omega)]
    exact hfloat _ (by omega)

theorem fftIn_bedSpectrum (s : Spectrum K × Spectrum K) (channel : Fin kHaloBedChannels) (i : ℕ) :
    HaloStft.fftIn (bedSpectrum matrix s channel) i =
      bedSample matrix channel (HaloStft.fftIn s.1 i) (HaloStft.fftIn s.2 i) := by
  unfold HaloStft.fftIn bedSpectrum bedSample
  split_ifs <;> rfl

/-- **One frame.** What is synthesized from a frame is the matrix applied to its samples, under the window. -/
theorem inverseAdd_analyzed [CharZero K] (left right : ℕ → K) (channel : Fin kHaloBedChannels) {i : ℕ} (hi : i < kFftSize) :
    HaloStft.inverseAdd fft window
        (bedSpectrum matrix (HaloStft.analyzeChannel fft left, HaloStft.analyzeChannel fft right) channel) i =
      bedSample matrix channel (left i) (right i) * window i := by
  have hbuffer : (fun i : Fin kFftSize => HaloStft.fftIn (bedSpectrum matrix
      (HaloStft.analyzeChannel fft left, HaloStft.analyzeChannel fft right) channel) i) =
      fft.forward fun i => bedSample matrix channel (left i) (right i) := by
    funext i
    have hsplit : (fun i : Fin kFftSize => bedSample matrix channel (left i) (right i)) =
        (matrix.left channel • fun i : Fin kFftSize => left i) + matrix.right channel • fun i : Fin kFftSize => right i := rfl
    rw [fftIn_bedSpectrum, fftIn_analyzeChannel, fftIn_analyzeChannel, hsplit, map_add, map_smul, map_smul]
    rfl
  have hne : (kFftSize : K) ≠ 0 := Nat.cast_ne_zero.mpr kFftSize_pos.ne'
  unfold HaloStft.inverseAdd HaloStft.inverseOne
  simp only
  rw [hbuffer, fft.backward_forward, floatAt, dif_pos hi, Pi.smul_apply, smul_eq_mul, zero_add]
  field_simp

theorem inverseAdd_silent (channel : Fin kHaloBedChannels) (i : ℕ) :
    HaloStft.inverseAdd fft window (bedSpectrum matrix (silent, silent) channel) i = 0 := by
  have hbuffer : (fun i : Fin kFftSize => HaloStft.fftIn (bedSpectrum matrix (silent, silent) channel) i) = 0 := by
    funext i
    rw [fftIn_bedSpectrum]
    unfold HaloStft.fftIn bedSample silent
    split_ifs <;> simp
  unfold HaloStft.inverseAdd HaloStft.inverseOne floatAt
  simp only
  rw [hbuffer, map_zero]
  split_ifs <;> simp

end Frame

/-! ## The tape -/

section Tape

variable {K : Type} [Field K] (window : ℕ → K) (matrix : BedMatrix K)

/-- what the matrix makes of the sample at a place of the input -/
def bedAt (stream : List (K × K)) (m : ℤ) : Fin kHaloBedChannels → K :=
  fun channel => bedSample matrix channel (signal Prod.fst stream m) (signal Prod.snd stream m)

/-- where frame `k` is synthesized -/
def synthesisStart (k : ℕ) : ℕ := kReportedLatency + kHop * k

/-- what frame `k` adds to the tape -/
def synthesized (past : List (K × K)) (k p : ℕ) : Fin kHaloBedChannels → K :=
  if k ≠ 0 ∧ synthesisStart k ≤ p ∧ p < synthesisStart k + kFftSize then
    window (p - synthesisStart k) • bedAt matrix past (p - stftLatencyFrames)
  else 0

/-- the tape after `frames` frames -/
def tape (past : List (K × K)) (frames p : ℕ) : Fin kHaloBedChannels → K :=
  ∑ k ∈ range frames, synthesized window matrix past k p

theorem bedAt_append (past later : List (K × K)) {m : ℤ} (hm : m < past.length) :
    bedAt matrix (past ++ later) m = bedAt matrix past m := by
  unfold bedAt
  rw [signal_append _ _ _ hm, signal_append _ _ _ hm]

/-- what a frame adds depends on the frame before it, which is complete when the frame is rendered -/
theorem synthesized_append (past later : List (K × K)) {k : ℕ} (hk : k ≠ 0 → kHop * (k + 1) ≤ past.length) :
    synthesized window matrix (past ++ later) k = synthesized window matrix past k := by
  funext p
  unfold synthesized
  split_ifs with hinside
  · have hk := hk hinside.1
    simp only [synthesisStart, kReportedLatency, kHop, kFftSize] at hk hinside
    rw [bedAt_append]
    simp only [stftLatencyFrames, kReportedLatency, kHop]
    push_cast
    omega
  · rfl

theorem tape_append (past later : List (K × K)) {frames : ℕ} (hframes : kHop * frames ≤ past.length) :
    tape window matrix (past ++ later) frames = tape window matrix past frames := by
  funext p
  refine sum_congr rfl fun k hk => congrFun (synthesized_append window matrix past later fun _ => ?_) p
  exact (Nat.mul_le_mul_left kHop (mem_range.mp hk)).trans hframes

/-- **Overlap.** Where two frames overlap, their windows add up to one. -/
theorem tape_value (hwindow : ∀ i < kHop, window i + window (i + kHop) = 1) (past : List (K × K)) {frames p : ℕ}
    (hp : 2 * kReportedLatency ≤ p) (hframes : p < synthesisStart frames) :
    tape window matrix past frames p = bedAt matrix past (p - stftLatencyFrames) := by
  obtain ⟨k, hk⟩ : ∃ k, k = (p - kReportedLatency) / kHop := ⟨_, rfl⟩
  simp only [kReportedLatency, kHop, synthesisStart] at hp hframes hk
  have hother : ∀ j ∈ range frames, j ≠ k → j ≠ k - 1 → synthesized window matrix past j p = 0 := by
    intro j _ hj hj'
    unfold synthesized
    refine if_neg fun hinside => ?_
    simp only [synthesisStart, kReportedLatency, kHop, kFftSize] at hinside
    omega
  have hhere : ∀ j, j = k ∨ j = k - 1 →
      synthesized window matrix past j p = window (p - synthesisStart j) • bedAt matrix past (p - stftLatencyFrames) := by
    intro j hj
    unfold synthesized
    refine if_pos ?_
    simp only [synthesisStart, kReportedLatency, kHop, kFftSize]
    omega
  have hhalf : p - synthesisStart (k - 1) = p - synthesisStart k + kHop := by
    simp only [synthesisStart, kReportedLatency, kHop]
    omega
  have hplace : p - synthesisStart k < kHop := by
    simp only [synthesisStart, kReportedLatency, kHop]
    omega
  calc tape window matrix past frames p
      = synthesized window matrix past k p + synthesized window matrix past (k - 1) p := by
        refine sum_eq_add_of_mem k (k - 1) (mem_range.mpr (by omega)) (mem_range.mpr (by omega)) (by omega) ?_
        exact fun j hj hne => hother j hj hne.1 hne.2
    _ = (window (p - synthesisStart k) + window (p - synthesisStart k + kHop)) •
          bedAt matrix past (p - stftLatencyFrames) := by
        rw [hhere k (.inl rfl), hhere (k - 1) (.inr rfl), hhalf, add_smul]
    _ = bedAt matrix past (p - stftLatencyFrames) := by rw [hwindow _ hplace, one_smul]

end Tape

/-! ## The invariant -/

section Run

variable {K : Type} [Field K] (fft : ExactTransform K kFftSize (Fin kFftSize → K)) (window : ℕ → K) (matrix : BedMatrix K)

/-- `frames` frames of what has come in are complete, and the reader has taken `reader` frames -/
structure Tracks (config : EncoderConfig) (past : List (K × K)) (reader frames : ℕ) (e : HaloEncoder K) : Prop where
  prepared : e.config = config
  size : e.outputRing.size = kReportedLatency + kFftSize + 4 * config.maxFrames
  length : past.length = kHop * frames + e.analysis.analysisFill
  overlap : frames ≠ 0 → kHop ≤ e.analysis.analysisFill
  left : ∀ i : ℕ, i < e.analysis.analysisFill → e.analysis.analysisLeft i = signal Prod.fst past (kHop * frames + i : ℕ)
  right : ∀ i : ℕ, i < e.analysis.analysisFill → e.analysis.analysisRight i = signal Prod.snd past (kHop * frames + i : ℕ)
  synthesis : e.synthesisFrame = synthesisStart frames
  target : e.dialog.haveTarget = decide (frames ≠ 0)
  leftHistory : frames ≠ 0 → e.dialog.leftHistory =
    HaloStft.analyzeChannel fft fun i => signal Prod.fst past (kHop * (frames - 1) + i : ℕ)
  rightHistory : frames ≠ 0 → e.dialog.rightHistory =
    HaloStft.analyzeChannel fft fun i => signal Prod.snd past (kHop * (frames - 1) + i : ℕ)
  reading : e.readFrame = reader
  behind : reader ≤ past.length
  ring : e.outputRing.Holds reader (tape window matrix past frames)

variable {fft window matrix} {config : EncoderConfig} {past : List (K × K)} {reader frames : ℕ} {e : HaloEncoder K}

theorem analyzeChannel_congr {a b : ℕ → K} (h : ∀ i < kFftSize, a i = b i) :
    HaloStft.analyzeChannel fft a = HaloStft.analyzeChannel fft b := by
  have hsame : (fun i : Fin kFftSize => a i) = fun i : Fin kFftSize => b i :=
    funext fun i => h i i.isLt
  unfold HaloStft.analyzeChannel
  rw [hsame]

/-- a buffer after a chunk was copied to its end -/
theorem written (f : K × K → K) (buffer : ℕ → K) {start fill : ℕ} (hlength : past.length = start + fill)
    (hbuffer : ∀ i < fill, buffer i = signal f past (start + i : ℕ)) (input : List (K × K)) (i : ℕ)
    (hi : i < fill + input.length) :
    writeRow buffer fill input.length (fun i => f (input.getD i (0, 0))) i = signal f (past ++ input) (start + i : ℕ) := by
  unfold writeRow
  by_cases hnew : fill ≤ i
  · have hj : i - fill < input.length := by omega
    have hplace : ((start + i : ℕ) : ℤ) = past.length + (i - fill : ℕ) := by omega
    rw [if_pos ⟨hnew, hi⟩, hplace, signal_append_right f past input hj]
    exact congrArg f (List.getD_eq_getElem _ _ hj)
  · rw [if_neg fun h => hnew h.1, hbuffer i (by omega), signal_append f past input (by omega)]

/-- what a rendered frame adds to the tape -/
theorem Tracks.rendered [CharZero K] (h : Tracks fft window matrix config past reader frames e) {p : ℕ}
    (hp : synthesisStart frames ≤ p ∧ p < synthesisStart frames + kFftSize) :
    (fun channel => HaloStft.inverseAdd fft window (bedSpectrum matrix (delayed e.dialog) channel) (p - synthesisStart frames)) =
      synthesized window matrix past frames p := by
  funext channel
  unfold synthesized delayed
  rw [h.target]
  by_cases hfirst : frames = 0
  · rw [if_neg (by simp [hfirst]), if_neg (by simp [hfirst])]
    exact inverseAdd_silent fft window matrix channel _
  · have hplace : ((kHop * (frames - 1) + (p - synthesisStart frames) : ℕ) : ℤ) = p - stftLatencyFrames := by
      simp only [synthesisStart, stftLatencyFrames, kReportedLatency, kHop, kFftSize] at hp ⊢
      omega
    rw [if_pos (by simp [hfirst]), if_pos ⟨hfirst, hp⟩, h.leftHistory hfirst, h.rightHistory hfirst,
      inverseAdd_analyzed fft window matrix _ _ channel (by omega), hplace, mul_comm]
    rfl

/-- **One chunk.** It takes its place in the buffers, and a frame that it completes is rendered ahead of the reader. -/
theorem Tracks.chunk [CharZero K] (h : Tracks fft window matrix config past reader frames e) (input : List (K × K))
    (hroom : e.analysis.analysisFill + input.length ≤ kFftSize)
    (hahead : (past ++ input).length ≤ reader + config.maxFrames) :
    ∃ frames', Tracks fft window matrix config (past ++ input) reader frames' (e.chunk fft window matrix input) := by
  have hlength := h.length
  have hleft := written Prod.fst e.analysis.analysisLeft hlength h.left input
  have hright := written Prod.snd e.analysis.analysisRight hlength h.right input
  have hbehind := h.behind
  have htape : tape window matrix (past ++ input) frames = tape window matrix past frames :=
    tape_append window matrix past input (by omega)
  unfold HaloEncoder.chunk
  simp only
  generalize writeRow e.analysis.analysisLeft _ _ _ = left at hleft ⊢
  generalize writeRow e.analysis.analysisRight _ _ _ = right at hright ⊢
  rw [List.length_append] at hahead
  have hhistory : ∀ f : K × K → K, frames ≠ 0 →
      HaloStft.analyzeChannel fft (fun i => signal f past (kHop * (frames - 1) + i : ℕ)) =
        HaloStft.analyzeChannel fft fun i => signal f (past ++ input) (kHop * (frames - 1) + i : ℕ) := by
    intro f hne
    refine analyzeChannel_congr fun i hi => (signal_append f past input ?_).symm
    have hoverlap := h.overlap hne
    simp only [kHop, kFftSize] at hlength hoverlap hi ⊢
    omega
  split_ifs with hroom'
  · exact ⟨frames,
      { prepared := h.prepared
        size := h.size
        length := by rw [List.length_append, hlength, add_assoc]
        overlap := fun hne => (h.overlap hne).trans (Nat.le_add_right _ _)
        left := hleft
        right := hright
        synthesis := h.synthesis
        target := h.target
        leftHistory := fun hne => (h.leftHistory hne).trans (hhistory Prod.fst hne)
        rightHistory := fun hne => (h.rightHistory hne).trans (hhistory Prod.snd hne)
        reading := h.reading
        behind := by rw [List.length_append]; omega
        ring := by rw [htape]; exact h.ring }⟩
  · have hfull : e.analysis.analysisFill + input.length = kFftSize := by omega
    have hsize := h.size
    have hstart : reader ≤ e.synthesisFrame := by
      rw [h.synthesis]
      simp only [synthesisStart, kReportedLatency, kHop, kFftSize] at hlength hfull ⊢
      omega
    have hend : e.synthesisFrame + kFftSize ≤ reader + e.outputRing.size := by
      rw [h.synthesis, hsize]
      simp only [synthesisStart, kReportedLatency, kHop, kFftSize] at hlength hfull ⊢
      omega
    obtain ⟨hsize', hring⟩ := h.ring.addFrame hstart hend fun offset channel =>
      HaloStft.inverseAdd fft window (bedSpectrum matrix (delayed e.dialog) channel) offset
    have hnext : (fun p => tape window matrix past frames p +
        if e.synthesisFrame ≤ p ∧ p < e.synthesisFrame + kFftSize then
          fun channel => HaloStft.inverseAdd fft window (bedSpectrum matrix (delayed e.dialog) channel) (p - e.synthesisFrame)
        else 0) = tape window matrix (past ++ input) (frames + 1) := by
      have hlast : synthesized window matrix (past ++ input) frames = synthesized window matrix past frames := by
        refine synthesized_append window matrix past input fun hne => ?_
        have hoverlap := h.overlap hne
        rw [hlength, Nat.mul_succ]
        omega
      funext p
      have hsum : tape window matrix (past ++ input) (frames + 1) p =
          tape window matrix (past ++ input) frames p + synthesized window matrix (past ++ input) frames p :=
        sum_range_succ _ _
      rw [hsum, htape, hlast, h.synthesis]
      refine congrArg (tape window matrix past frames p + ·) ?_
      by_cases hinside : synthesisStart frames ≤ p ∧ p < synthesisStart frames + kFftSize
      · rw [if_pos hinside]
        exact h.rendered hinside
      · rw [if_neg hinside]
        exact (if_neg fun hall => hinside hall.2).symm
    rw [hnext] at hring
    have hmoved : ∀ (f : K × K → K) (buffer : ℕ → K),
        (∀ i < e.analysis.analysisFill + input.length, buffer i = signal f (past ++ input) (kHop * frames + i : ℕ)) →
        ∀ i < kHop, writeRow buffer 0 kHop (fun i => buffer (kHop + i)) i =
          signal f (past ++ input) (kHop * (frames + 1) + i : ℕ) := by
      intro f buffer hbuffer i hi
      have hplace : kHop * (frames + 1) + i = kHop * frames + (kHop + i) := by ring
      unfold writeRow
      rw [if_pos ⟨Nat.zero_le _, by omega⟩, Nat.sub_zero, hplace]
      refine hbuffer (kHop + i) ?_
      rw [hfull]
      simp only [kHop, kFftSize] at hi ⊢
      omega
    exact ⟨frames + 1,
      { prepared := h.prepared
        size := hsize'.trans hsize
        length := by
          rw [List.length_append, hlength]
          simp only [kHop, kFftSize] at hfull ⊢
          omega
        overlap := fun _ => le_rfl
        left := hmoved Prod.fst left hleft
        right := hmoved Prod.snd right hright
        synthesis := by
          simp only [HaloEncoder.renderFrame, h.synthesis, synthesisStart]
          ring
        target := by simp [HaloEncoder.renderFrame]
        leftHistory := fun _ => analyzeChannel_congr fun i hi => hleft i (by omega)
        rightHistory := fun _ => analyzeChannel_congr fun i hi => hright i (by omega)
        reading := h.reading
        behind := by rw [List.length_append]; omega
        ring := by
          simp only [HaloEncoder.renderFrame]
          exact hring }⟩

/-- the loop of `HaloStft::Process`, by its chunks -/
theorem Tracks.analyze [CharZero K] (h : Tracks fft window matrix config past reader frames e) (input : List (K × K))
    (hahead : (past ++ input).length ≤ reader + config.maxFrames) :
    ∃ frames', Tracks fft window matrix config (past ++ input) reader frames' (e.analyze fft window matrix input) := by
  induction hn : input.length using Nat.strong_induction_on generalizing past frames e input with
  | _ n ih =>
    cases input with
    | nil =>
      rw [HaloEncoder.analyze, List.append_nil]
      exact ⟨frames, h⟩
    | cons x xs =>
      rw [HaloEncoder.analyze]
      obtain ⟨room, hroom⟩ : ∃ room, room = min (kFftSize - e.analysis.analysisFill) (x :: xs).length := ⟨_, rfl⟩
      have hsome : 0 < room := by
        have hfill := e.analysis.analysisFill.isLt
        rw [hroom, List.length_cons]
        omega
      have hsplit : (past ++ (x :: xs).take room) ++ (x :: xs).drop room = past ++ (x :: xs) := by
        rw [List.append_assoc, List.take_append_drop]
      have htake : ((x :: xs).take room).length = room := by
        rw [List.length_take, hroom]
        omega
      simp only [← hroom]
      obtain ⟨frames', hchunk⟩ := h.chunk ((x :: xs).take room)
        (by rw [htake, hroom]; have hfill := e.analysis.analysisFill.isLt; omega)
        (by rw [← hsplit] at hahead; exact (List.sublist_append_left _ _).length_le.trans hahead)
      have hrest := ih ((x :: xs).drop room).length (by rw [List.length_drop, hn]; simp at hn; omega) hchunk
        ((x :: xs).drop room) (by rw [hsplit]; exact hahead) rfl
      rwa [hsplit] at hrest

/-- **One block.** The reader gets what is on the tape, where no frame to come will add anything. -/
theorem Tracks.processBed [CharZero K] (h : Tracks fft window matrix config past past.length frames e)
    (hwindow : ∀ i < kHop, window i + window (i + kHop) = 1) (stereo : List (K × K))
    (hframes : stereo.length ≤ config.maxFrames) :
    ∃ e' bed frames', e.processBed fft window matrix stereo = some (e', bed) ∧
      Tracks fft window matrix config (past ++ stereo) (past ++ stereo).length frames' e' ∧
      bed.length = stereo.length ∧
      ∀ i, (hi : i < bed.length) → 2 * kReportedLatency ≤ past.length + i →
        bed[i] = bedAt matrix (past ++ stereo) ((past.length + i : ℕ) - stftLatencyFrames) := by
  obtain ⟨frames', hanalyzed⟩ := h.analyze stereo (by rw [List.length_append]; omega)
  have hguard : ¬e.config.maxFrames < stereo.length := by rw [h.prepared]; omega
  unfold HaloEncoder.processBed
  rw [if_neg hguard]
  generalize e.analyze fft window matrix stereo = d at hanalyzed ⊢
  obtain ⟨hsize, hbed, hring⟩ := hanalyzed.ring.takeFrames stereo.length
  rw [← hanalyzed.reading] at hbed hsize
  refine ⟨_, _, frames', rfl, ?_, ?_, ?_⟩
  · exact
      { prepared := hanalyzed.prepared
        size := hsize.trans hanalyzed.size
        length := hanalyzed.length
        overlap := hanalyzed.overlap
        left := hanalyzed.left
        right := hanalyzed.right
        synthesis := hanalyzed.synthesis
        target := hanalyzed.target
        leftHistory := hanalyzed.leftHistory
        rightHistory := hanalyzed.rightHistory
        reading := by simp only [hanalyzed.reading, List.length_append]
        behind := le_rfl
        ring := by
          rw [List.length_append]
          simp only [hanalyzed.reading]
          exact hring }
  · rw [hbed]
    simp
  · intro i hi hlater
    have hi' : i < stereo.length := by
      rw [hbed] at hi
      simpa using hi
    have hlength := hanalyzed.length
    have hfill := d.analysis.analysisFill.isLt
    rw [List.length_append] at hlength
    simp only [hbed, List.getElem_map, List.getElem_range]
    rw [hanalyzed.reading]
    refine tape_value window matrix hwindow _ hlater ?_
    simp only [synthesisStart, kReportedLatency, kHop, kFftSize] at hlength hfill ⊢
    omega

/-- the run: block after block -/
theorem Tracks.processBeds [CharZero K] (h : Tracks fft window matrix config past past.length frames e)
    (hwindow : ∀ i < kHop, window i + window (i + kHop) = 1) (blocks : List (List (K × K)))
    (hframes : ∀ stereo ∈ blocks, stereo.length ≤ config.maxFrames) :
    ∃ e' bed frames', e.processBeds fft window matrix blocks = some (e', bed) ∧
      Tracks fft window matrix config (past ++ blocks.flatten) (past ++ blocks.flatten).length frames' e' ∧
      bed.length = blocks.flatten.length ∧
      ∀ i, (hi : i < bed.length) → 2 * kReportedLatency ≤ past.length + i →
        bed[i] = bedAt matrix (past ++ blocks.flatten) ((past.length + i : ℕ) - stftLatencyFrames) := by
  induction blocks generalizing past frames e with
  | nil => exact ⟨e, [], frames, rfl, by simpa using h, rfl, fun i hi => absurd hi (Nat.not_lt_zero i)⟩
  | cons stereo blocks ih =>
    obtain ⟨e₁, bed₁, frames₁, hrun₁, htracks₁, hlength₁, hbed₁⟩ := h.processBed hwindow stereo
      (hframes stereo List.mem_cons_self)
    obtain ⟨e₂, bed₂, frames₂, hrun₂, htracks₂, hlength₂, hbed₂⟩ := ih htracks₁
      fun later hlater => hframes later (List.mem_cons_of_mem _ hlater)
    refine ⟨e₂, bed₁ ++ bed₂, frames₂, ?_, ?_, ?_, ?_⟩
    · simp [HaloEncoder.processBeds, hrun₁, hrun₂]
    · rwa [List.flatten_cons, ← List.append_assoc]
    · rw [List.length_append, hlength₁, hlength₂, List.flatten_cons, List.length_append]
    · intro i hi hlater
      rw [List.flatten_cons, ← List.append_assoc]
      by_cases hfirst : i < bed₁.length
      · have hinside : ((past.length + i : ℕ) - stftLatencyFrames : ℤ) < (past ++ stereo).length := by
          rw [List.length_append]
          omega
        rw [List.getElem_append_left hfirst, hbed₁ i hfirst hlater, bedAt_append matrix _ _ hinside]
      · rw [List.length_append] at hi
        have hplace : (past ++ stereo).length + (i - bed₁.length) = past.length + i := by
          rw [List.length_append]
          omega
        rw [List.getElem_append_right (by omega), hbed₂ _ (by omega) (by rw [hplace]; exact hlater), hplace]

end Run

end HaloEncoder

/-! ## The dry path -/

namespace IemPipeline

open HaloEncoder

/-- the latency of the wet path as `Prepare` adds it up, with the latencies that the stages behind the encoder report -/
def wetLatencyFrames (encoder : EncoderMode) (render : RenderMode) (downmix decoder headphoneEq : ℕ) : ℕ :=
  let usesHaloDownmix := render = .simple ∨ render = .off ∧ encoder ≠ .halo
  let wet := if encoder = .halo then stftLatencyFrames else 0
  let wet := if usesHaloDownmix then wet + downmix else wet
  if render = .ku100 then wet + (decoder + headphoneEq) else wet

/-- the dry sample that goes with a frame; the ring has as many frames as the latency of the wet path -/
def delayedDry {K : Type} {wet : ℕ} (d : DelayLine wet (K × K)) (stereo : K × K) : DelayLine wet (K × K) × (K × K) :=
  if wet = 0 then (d, stereo) else d.delay stereo

theorem delayedDry_eq {K : Type} [Zero K] {wet : ℕ} (hwet : 0 < wet) (stream : List (K × K)) (n : ℕ) (hn : n < stream.length)
    {hn' : n < (feed delayedDry (.clear 0 : DelayLine wet (K × K)) stream).2.length} :
    (feed delayedDry (.clear 0 : DelayLine wet (K × K)) stream).2[n] = signal id stream (n - wet) := by
  have hdelay : (delayedDry : DelayLine wet (K × K) → K × K → _) = DelayLine.delay := by
    funext d x
    exact if_neg hwet.ne'
  simp only [hdelay]
  exact DelayLine.delay_eq hwet stream n hn

end IemPipeline

namespace HaloEncoder

open IemPipeline

variable {K : Type} [Field K] (fft : ExactTransform K kFftSize (Fin kFftSize → K)) (window : ℕ → K) (matrix : BedMatrix K)

theorem prepare_tracks {config : EncoderConfig} (hrate : config.sampleRate = 96000) (hframes : 1 ≤ config.maxFrames)
    (horder : 1 ≤ config.order ∧ config.order ≤ kMaxAmbisonicsOrder) :
    ∃ e, prepare true config = some e ∧ Tracks fft window matrix config [] 0 0 e := by
  have hguard : ¬(config.sampleRate ≠ 96000 ∨ config.maxFrames = 0 ∨ config.order = 0 ∨ kMaxAmbisonicsOrder < config.order) := by
    omega
  unfold prepare
  rw [if_neg hguard, if_neg (by decide)]
  exact ⟨_, rfl,
    { prepared := rfl
      size := rfl
      length := rfl
      overlap := fun h => absurd rfl h
      left := fun i hi => absurd hi (Nat.not_lt_zero i)
      right := fun i hi => absurd hi (Nat.not_lt_zero i)
      synthesis := rfl
      target := rfl
      leftHistory := fun h => absurd rfl h
      rightHistory := fun h => absurd rfl h
      reading := rfl
      behind := le_rfl
      ring := OverlapRing.clear_holds (Nat.add_pos_left (by decide) _) }⟩

/-- **The HALO bed is delayed by the latency it reports.** Whatever the blocks of at most `maxFrames` frames: every block is
rendered, the bed at a frame from 2048 on is the matrix applied to the input `stftLatencyFrames` before, and the ring is read and
added to in order. The dry path is delayed by that latency and those of the stages behind the encoder. -/
theorem bed_delayed [CharZero K] (hwindow : ∀ i < kHop, window i + window (i + kHop) = 1) {config : EncoderConfig}
    (hrate : config.sampleRate = 96000) (hframes : 1 ≤ config.maxFrames)
    (horder : 1 ≤ config.order ∧ config.order ≤ kMaxAmbisonicsOrder) :
    stftLatencyFrames = 1536 ∧
    ∃ e, prepare true config = some e ∧
      ∀ blocks : List (List (K × K)), (∀ stereo ∈ blocks, stereo.length ≤ config.maxFrames) →
        ∃ e' bed, e.processBeds fft window matrix blocks = some (e', bed) ∧
          bed.length = blocks.flatten.length ∧
          (∀ n, (hn : n < bed.length) → 2048 ≤ n → bed[n] = bedAt matrix blocks.flatten (n - stftLatencyFrames)) ∧
          OverlapRing.Clean e'.outputRing.size e'.outputRing.log ∧
          ∀ render downmix decoder headphoneEq,
            let dry := (feed delayedDry (.clear 0 : DelayLine (wetLatencyFrames .halo render downmix decoder headphoneEq)
              (K × K)) blocks.flatten).2
            dry.length = blocks.flatten.length ∧
              ∀ n, (hn : n < dry.length) →
                dry[n] = signal id blocks.flatten (n - (stftLatencyFrames + match render with
                  | .off => 0
                  | .simple => downmix
                  | .ku100 => decoder + headphoneEq : ℕ)) := by
  refine ⟨rfl, ?_⟩
  obtain ⟨e, hprepared, hstart⟩ := prepare_tracks fft window matrix hrate hframes horder
  refine ⟨e, hprepared, fun blocks hblocks => ?_⟩
  obtain ⟨e', bed, frames, hrun, htracks, hlength, hbed⟩ := hstart.processBeds hwindow blocks hblocks
  refine ⟨e', bed, hrun, hlength, ?_, htracks.ring.clean, ?_⟩
  · intro n hn hlater
    simpa using hbed n hn (by simpa [kReportedLatency] using hlater)
  · intro render downmix decoder headphoneEq
    have hwet : wetLatencyFrames .halo render downmix decoder headphoneEq = stftLatencyFrames + match render with
        | .off => 0
        | .simple => downmix
        | .ku100 => decoder + headphoneEq := by
      cases render <;> simp [wetLatencyFrames]
    have hpos : 0 < wetLatencyFrames .halo render downmix decoder headphoneEq := by
      rw [hwet]
      exact Nat.add_pos_left (by decide) _
    refine ⟨length_feed _ _ _, fun n hn => ?_⟩
    rw [delayedDry_eq hpos blocks.flatten n (by rwa [length_feed] at hn), hwet]

/-- the window that is prepared -/
noncomputable def hann (i : ℕ) : ℝ := 0.5 - 0.5 * Real.cos (2.0 * Real.pi * i / kFftSize)

theorem hann_overlap (i : ℕ) : hann i + hann (i + kHop) = 1 := by
  have hhalf : 2.0 * Real.pi * ((i + kHop : ℕ) : ℝ) / kFftSize = 2.0 * Real.pi * i / kFftSize + Real.pi := by
    have htwo : (2.0 : ℝ) = 2 := by norm_num
    simp only [kHop, kFftSize, htwo]
    push_cast
    ring
  unfold hann
  rw [hhalf, Real.cos_add_pi]
  ring

/-- a bed that takes the left channel, and five blocks of 512 frames of a constant -/
theorem bed_delayed_constant :
    ∃ e e' bed, prepare true ⟨96000, 512, 1⟩ = some e ∧
      processBeds (orderedFourier 512) hann ⟨fun _ => 1, fun _ => 0⟩ e
        (List.replicate 5 (List.replicate 512 ((1 : ℝ), (0 : ℝ)))) = some (e', bed) ∧
      bed[2048]? = some fun _ => 1 := by
  obtain ⟨-, e, hprepared, hrun⟩ := bed_delayed (orderedFourier 512) hann ⟨fun _ => 1, fun _ => 0⟩
    (fun i _ => hann_overlap i) (show (⟨96000, 512, 1⟩ : EncoderConfig).sampleRate = 96000 from rfl) (by norm_num) ⟨le_rfl, by decide⟩
  obtain ⟨e', bed, hbeds, hlength, hbed, -, -⟩ := hrun (List.replicate 5 (List.replicate 512 (1, 0)))
    fun stereo hstereo => by rw [List.eq_of_mem_replicate hstereo, List.length_replicate]
  refine ⟨e, e', bed, hprepared, hbeds, ?_⟩
  have hlong : 2048 < bed.length := by
    rw [hlength, List.flatten_replicate_replicate, List.length_replicate]
    norm_num
  have hconstant : ∀ f : ℝ × ℝ → ℝ,
      signal f (List.replicate 5 (List.replicate 512 ((1 : ℝ), (0 : ℝ)))).flatten ((2048 : ℕ) - stftLatencyFrames) = f (1, 0) := by
    intro f
    have hplace : ((2048 : ℕ) - stftLatencyFrames : ℤ) = (512 : ℕ) := by
      simp only [stftLatencyFrames, kReportedLatency, kHop]
      norm_num
    rw [List.flatten_replicate_replicate, hplace, signal_natCast f _ 512 (by rw [List.length_replicate]; norm_num),
      List.getElem_replicate]
  rw [List.getElem?_eq_getElem hlong, hbed 2048 hlong le_rfl]
  refine congrArg some (funext fun channel => ?_)
  unfold bedAt bedSample
  rw [hconstant, hconstant]
  norm_num

end HaloEncoder

end ViperFx.Iem
