/-
The HALO upmix with its stages: `IEMDSP/src/HaloEncoder.cpp`, up to the diffusion.

`HaloEncoder` takes what the dialog and surround stages do to a spectrum as one fixed matrix; here they are the stages of
`HaloSteering`, whose shares change from bin to bin and from frame to frame. Seen through weights under which every frame keeps a
fixed mixture of its two spectra (`Keeps`), the upmix is the encoder with that mixture for a matrix (`observe_renderFrame`), and
what is proved of the delay of that encoder holds of the upmix (`Observed.run`).

`rendered` keeps what was rendered since the last `Reset`; no answer depends on it.

Results:
  · sides_kept      : the difference of the sides comes out 1536 frames later, and without a dialog so does each side
  · frames_shared   : every bin of every frame that was rendered
-/
import ViperFx.Iem.HaloSteering

namespace ViperFx.Iem

open ViperFx.Core Set

/-! ## The analysis, with a callback -/

namespace HaloStft

section Process

variable {K σ τ : Type} [Field K] (fft : ExactTransform K kFftSize (Fin kFftSize → K))

/-- one turn of the loop of `Process`, for a chunk that there is room for -/
def processChunk (onFrame : σ → Spectrum K → Spectrum K → σ) (a : HaloStft K) (s : σ) (input : List (K × K)) :
    HaloStft K × σ :=
  let left := writeRow a.analysisLeft a.analysisFill input.length fun i => (input.getD i (0, 0)).1
  let right := writeRow a.analysisRight a.analysisFill input.length fun i => (input.getD i (0, 0)).2
  if h : a.analysisFill + input.length < kFftSize then (⟨left, right, ⟨a.analysisFill + input.length, h⟩⟩, s)
  else
    (⟨writeRow left 0 kHop fun i => left (kHop + i), writeRow right 0 kHop fun i => right (kHop + i), ⟨kHop, kHop_lt⟩⟩,
      onFrame s (analyzeChannel fft left) (analyzeChannel fft right))

def process (onFrame : σ → Spectrum K → Spectrum K → σ) (a : HaloStft K) (s : σ) (input : List (K × K)) : HaloStft K × σ :=
  match input with
  | [] => (a, s)
  | x :: xs =>
    let take := min (kFftSize - a.analysisFill) (x :: xs).length
    let p := processChunk fft onFrame a s ((x :: xs).take take)
    process onFrame p.1 p.2 ((x :: xs).drop take)
termination_by input.length
decreasing_by
  have hroom := a.analysisFill.isLt
  simp only [List.length_drop, List.length_cons]
  omega

variable {fft} {onFrame : σ → Spectrum K → Spectrum K → σ} {onFrame' : τ → Spectrum K → Spectrum K → τ}

/-- **Frames.** What every frame keeps is kept, and what is observed of every frame is observed of all that comes in. -/
theorem process_observe {I : σ → Prop} (observe : σ → τ) (hkeep : ∀ s left right, I s → I (onFrame s left right))
    (hframe : ∀ s left right, I s → observe (onFrame s left right) = onFrame' (observe s) left right) (a : HaloStft K) {s : σ}
    (hs : I s) (input : List (K × K)) :
    I (process fft onFrame a s input).2 ∧
      process fft onFrame' a (observe s) input =
        ((process fft onFrame a s input).1, observe (process fft onFrame a s input).2) := by
  induction hn : input.length using Nat.strong_induction_on generalizing a s input with
  | _ n ih =>
    cases input with
    | nil =>
      unfold process
      exact ⟨hs, rfl⟩
    | cons x xs =>
      obtain ⟨room, hroom⟩ : ∃ room, room = min (kFftSize - a.analysisFill) (x :: xs).length := ⟨_, rfl⟩
      have hsome : 0 < room := by
        have hfill := a.analysisFill.isLt
        rw [hroom, List.length_cons]
        omega
      have hchunk : I (processChunk fft onFrame a s ((x :: xs).take room)).2 ∧
          processChunk fft onFrame' a (observe s) ((x :: xs).take room) =
            ((processChunk fft onFrame a s ((x :: xs).take room)).1,
              observe (processChunk fft onFrame a s ((x :: xs).take room)).2) := by
        unfold processChunk
        dsimp only
        split_ifs
        · exact ⟨hs, rfl⟩
        · exact ⟨hkeep _ _ _ hs, by rw [hframe _ _ _ hs]⟩
      rw [process, process, ← hroom, hchunk.2]
      exact ih ((x :: xs).drop room).length (by rw [List.length_drop, hn]; simp at hn; omega) _ hchunk.1 _ rfl

/-- what every frame keeps is kept -/
theorem process_keeps {I : σ → Prop} (hkeep : ∀ s left right, I s → I (onFrame s left right)) (a : HaloStft K) {s : σ}
    (hs : I s) (input : List (K × K)) : I (process fft onFrame a s input).2 :=
  (process_observe id hkeep (fun _ _ _ _ => rfl) a hs input).1

end Process

end HaloStft

/-- the analysis of the encoder, by its callback -/
theorem HaloEncoder.analyze_eq {K : Type} [Field K] (fft : ExactTransform K kFftSize (Fin kFftSize → K)) (window : ℕ → K)
    (matrix : BedMatrix K) (e : HaloEncoder K) (a : HaloStft K) (input : List (K × K)) :
    HaloEncoder.analyze fft window matrix { e with analysis := a } input =
      { (HaloStft.process fft (HaloEncoder.renderFrame fft window matrix) a e input).2 with
        analysis := (HaloStft.process fft (HaloEncoder.renderFrame fft window matrix) a e input).1 } := by
  induction hn : input.length using Nat.strong_induction_on generalizing e a input with
  | _ n ih =>
    cases input with
    | nil =>
      unfold HaloEncoder.analyze HaloStft.process
      rfl
    | cons x xs =>
      obtain ⟨room, hroom⟩ : ∃ room, room = min (kFftSize - a.analysisFill) (x :: xs).length := ⟨_, rfl⟩
      have hsome : 0 < room := by
        have hfill := a.analysisFill.isLt
        rw [hroom, List.length_cons]
        omega
      have hchunk : HaloEncoder.chunk fft window matrix { e with analysis := a } ((x :: xs).take room) =
          { (HaloStft.processChunk fft (HaloEncoder.renderFrame fft window matrix) a e ((x :: xs).take room)).2 with
            analysis := (HaloStft.processChunk fft (HaloEncoder.renderFrame fft window matrix) a e ((x :: xs).take room)).1 } := by
        unfold HaloEncoder.chunk HaloStft.processChunk
        dsimp only
        split_ifs <;> rfl
      rw [HaloEncoder.analyze, HaloStft.process]
      dsimp only
      rw [← hroom, hchunk]
      exact ih ((x :: xs).drop room).length (by rw [List.length_drop, hn]; simp at hn; omega) _ _ _ rfl

/-! ### The frames of a stream -/

namespace HaloStft

section Hears

variable {K σ : Type} [Field K] (fft : ExactTransform K kFftSize (Fin kFftSize → K))

/-- the spectra of frame `k` -/
def frameAt (stream : List (K × K)) (k : ℕ) : Spectrum K × Spectrum K :=
  (analyzeChannel fft fun i => signal Prod.fst stream (kHop * k + i : ℕ),
    analyzeChannel fft fun i => signal Prod.snd stream (kHop * k + i : ℕ))

/-- `frames` frames of the stream are complete, and the buffers hold what comes after them up to `position` -/
structure Hears (stream : List (K × K)) (position frames : ℕ) (a : HaloStft K) : Prop where
  length : position = kHop * frames + a.analysisFill
  overlap : frames ≠ 0 → kHop ≤ a.analysisFill
  left : ∀ i : ℕ, i < a.analysisFill → a.analysisLeft i = signal Prod.fst stream (kHop * frames + i : ℕ)
  right : ∀ i : ℕ, i < a.analysisFill → a.analysisRight i = signal Prod.snd stream (kHop * frames + i : ℕ)

variable {fft} {onFrame : σ → Spectrum K → Spectrum K → σ} {stream : List (K × K)} {position frames : ℕ} {a : HaloStft K} {s : σ}
  {I : ℕ → σ → Prop}

/-- a buffer after a part of the stream was copied to its end -/
theorem written_stream (f : K × K → K) (buffer : ℕ → K) {start fill : ℕ} (hposition : position = start + fill)
    (hbuffer : ∀ i < fill, buffer i = signal f stream (start + i : ℕ)) {input later : List (K × K)}
    (hstream : stream.drop position = input ++ later) (hinside : position ≤ stream.length) (i : ℕ) (hi : i < fill + input.length) :
    writeRow buffer fill input.length (fun i => f (input.getD i (0, 0))) i = signal f stream (start + i : ℕ) := by
  have hsplit : stream.take position ++ input ++ later = stream := by
    rw [List.append_assoc, ← hstream, List.take_append_drop]
  have hpast : (stream.take position).length = position := by
    rw [List.length_take]
    omega
  have hold : ∀ i < fill, buffer i = signal f (stream.take position) (start + i : ℕ) := by
    intro i hi
    rw [hbuffer i hi, signal_take f stream position (by omega)]
  have hnew := HaloEncoder.written f buffer (hpast.trans hposition) hold input i hi
  rw [hnew]
  conv_rhs => rw [← hsplit]
  refine (signal_append f _ later ?_).symm
  rw [List.length_append, hpast]
  omega

/-- **One chunk.** It takes its place in the buffers, and a frame that it completes is handed over. -/
theorem Hears.processChunk (h : Hears stream position frames a)
    (hframe : ∀ k s, I k s → I (k + 1) (onFrame s (frameAt fft stream k).1 (frameAt fft stream k).2)) (hs : I frames s)
    {input later : List (K × K)} (hstream : stream.drop position = input ++ later) (hinside : position ≤ stream.length)
    (hroom : a.analysisFill + input.length ≤ kFftSize) :
    ∃ frames', Hears stream (position + input.length) frames' (processChunk fft onFrame a s input).1 ∧
      I frames' (processChunk fft onFrame a s input).2 := by
  have hlength := h.length
  have hleft := written_stream Prod.fst a.analysisLeft hlength h.left hstream hinside
  have hright := written_stream Prod.snd a.analysisRight hlength h.right hstream hinside
  unfold HaloStft.processChunk
  dsimp only
  generalize writeRow a.analysisLeft _ _ _ = left at hleft ⊢
  generalize writeRow a.analysisRight _ _ _ = right at hright ⊢
  split_ifs with hfill
  · refine ⟨frames, ⟨?_, ?_, hleft, hright⟩, hs⟩
    · simp only
      omega
    · intro hne
      exact (h.overlap hne).trans (Nat.le_add_right _ _)
  · have hfull : a.analysisFill + input.length = kFftSize := by omega
    have hspectra : (analyzeChannel fft left, analyzeChannel fft right) = frameAt fft stream frames := by
      unfold frameAt
      rw [HaloEncoder.analyzeChannel_congr fun i hi => hleft i (by rwa [hfull]),
        HaloEncoder.analyzeChannel_congr fun i hi => hright i (by rwa [hfull])]
    have hmoved : ∀ (f : K × K → K) (buffer : ℕ → K),
        (∀ i < a.analysisFill + input.length, buffer i = signal f stream (kHop * frames + i : ℕ)) →
        ∀ i < kHop, writeRow buffer 0 kHop (fun i => buffer (kHop + i)) i = signal f stream (kHop * (frames + 1) + i : ℕ) := by
      intro f buffer hbuffer i hi
      have hplace : kHop * (frames + 1) + i = kHop * frames + (kHop + i) := by ring
      unfold writeRow
      rw [if_pos ⟨Nat.zero_le _, by omega⟩, Nat.sub_zero, hplace]
      refine hbuffer (kHop + i) ?_
      rw [hfull]
      simp only [kHop, kFftSize] at hi ⊢
      omega
    refine ⟨frames + 1, ⟨?_, fun _ => le_rfl, hmoved _ left hleft, hmoved _ right hright⟩, ?_⟩
    · simp only [kHop, kFftSize] at hfull hlength ⊢
      omega
    · have hnext := hframe frames s hs
      rwa [← hspectra] at hnext

/-- **What is handed over** are the frames of the stream, one after the other. -/
theorem Hears.process (h : Hears stream position frames a)
    (hframe : ∀ k s, I k s → I (k + 1) (onFrame s (frameAt fft stream k).1 (frameAt fft stream k).2)) (hs : I frames s)
    {input later : List (K × K)} (hstream : stream.drop position = input ++ later) (hinside : position ≤ stream.length) :
    ∃ frames', Hears stream (position + input.length) frames' (process fft onFrame a s input).1 ∧
      I frames' (process fft onFrame a s input).2 := by
  induction hn : input.length using Nat.strong_induction_on generalizing position frames a s input with
  | _ n ih =>
    cases input with
    | nil =>
      unfold HaloStft.process
      subst hn
      exact ⟨frames, h, hs⟩
    | cons x xs =>
      obtain ⟨room, hroom⟩ : ∃ room, room = min (kFftSize - a.analysisFill) (x :: xs).length := ⟨_, rfl⟩
      have hfill := a.analysisFill.isLt
      have hsome : 0 < room := by
        rw [hroom, List.length_cons]
        omega
      have htake : ((x :: xs).take room).length = room := by
        rw [List.length_take, hroom]
        omega
      have hfirst : stream.drop position = (x :: xs).take room ++ ((x :: xs).drop room ++ later) := by
        rw [← List.append_assoc, List.take_append_drop]
        exact hstream
      have hlong : (stream.drop position).length = (x :: xs).length + later.length := by
        rw [hstream, List.length_append]
      rw [List.length_drop] at hlong
      have hnext : stream.drop (position + ((x :: xs).take room).length) = (x :: xs).drop room ++ later := by
        rw [← List.drop_drop, hfirst, List.drop_left]
      obtain ⟨frames', hhears, hkept⟩ := h.processChunk hframe hs hfirst hinside (by rw [htake]; omega)
      rw [HaloStft.process, ← hroom]
      have hrest := ih ((x :: xs).drop room).length (by rw [List.length_drop, hn]; simp at hn; omega) hhears hkept hnext
        (by rw [htake]; omega) rfl
      have hplace : position + ((x :: xs).take room).length + ((x :: xs).drop room).length = position + n := by
        rw [htake, List.length_drop, hn]
        omega
      rwa [hplace] at hrest

end Hears

end HaloStft

/-! ## Model -/

/-- what was rendered: the newest frame, what the net was shown, and the bed of the frame before -/
structure RenderedFrame (K : Type) where
  newest : Spectrum K × Spectrum K
  shown : Fin kHistoryFrames → HaloDialogFeatureFrame K
  bed : Fin kHaloBedChannels → Spectrum K

structure HaloUpmix (K : Type) where
  config : EncoderConfig
  analysis : HaloStft K
  dialog : HaloDialogStage K
  surround : HaloSurroundAssigner K
  bed : Fin kHaloBedChannels → Spectrum K
  outputRing : OverlapRing (Fin kHaloBedChannels → K)
  readFrame : ℕ
  synthesisFrame : ℕ
  rendered : List (RenderedFrame K) := []

inductive HaloCall (K : Type) where
  | applyParams (params : Record.HaloParams K)
  | processBed (stereo : List (K × K))
  | reset

namespace HaloUpmix

section Model

variable {K : Type} [Field K] [LinearOrder K] (fft : ExactTransform K kFftSize (Fin kFftSize → K)) (window : ℕ → K)
  (math : FloatMath K) (net : FannDialogNet K)

/-- the parameters of `IemParams{}` -/
def initialParams : Record.HaloParams K where
  lfe :=
    { coefficients96k := ⟨0.00000953702965, 0.0000190740593, 0.00000953702965, 1.99379110, -0.993829250⟩
      gainLinear := 0.0316227766 }

def applyParams (u : HaloUpmix K) (params : Record.HaloParams K) : HaloUpmix K :=
  { u with dialog := u.dialog.applyParams params, surround := u.surround.applyParams params }

def reset (u : HaloUpmix K) : HaloUpmix K :=
  { u with
    analysis := ⟨fun _ => 0, fun _ => 0, ⟨0, kFftSize_pos⟩⟩
    dialog := u.dialog.reset
    surround := u.surround.reset
    outputRing := .clear u.outputRing.size
    readFrame := 0
    synthesisFrame := kReportedLatency
    rendered := [] }

/-- `allocated` when every stage could be prepared -/
def prepare (allocated : Bool) (config : EncoderConfig) : Option (HaloUpmix K) :=
  if config.sampleRate ≠ 96000 ∨ config.maxFrames = 0 ∨ config.order = 0 ∨ kMaxAmbisonicsOrder < config.order then none
  else if allocated = false then none
  else
    let blank : HaloUpmix K :=
      { config := config
        analysis := ⟨fun _ => 0, fun _ => 0, ⟨0, kFftSize_pos⟩⟩
        dialog := ⟨⟨HaloEncoder.silent, HaloEncoder.silent, false⟩, initialParams, fun _ => 0, id, fun _ => 0⟩
        surround := ⟨initialParams, fun _ => 0, fun _ => 0, fun _ => 0, fun _ => 0, fun _ => 0, 0, .empty⟩
        bed := fun _ => HaloEncoder.silent
        outputRing := .clear (kReportedLatency + kFftSize + 4 * config.maxFrames)
        readFrame := 0
        synthesisFrame := kReportedLatency }
    some (blank.reset.applyParams initialParams)

def renderFrame (u : HaloUpmix K) (left right : Spectrum K) : HaloUpmix K :=
  let p := u.dialog.processFrame math net left right
  let q := u.surround.processFrame math p.2 u.bed
  let frame := fun offset channel => HaloStft.inverseAdd fft window (q.2 channel) offset
  { u with
    dialog := p.1
    surround := q.1
    bed := q.2
    outputRing := u.outputRing.addFrame u.synthesisFrame kFftSize frame
    synthesisFrame := u.synthesisFrame + kHop
    rendered := u.rendered ++ [⟨(left, right), u.dialog.ordered math left right, q.2⟩] }

/-- `ProcessBed` up to the diffusion -/
def processBed (u : HaloUpmix K) (stereo : List (K × K)) : Option (HaloUpmix K × List (Fin kHaloBedChannels → K)) :=
  if u.config.maxFrames < stereo.length then none
  else
    let p := HaloStft.process fft (renderFrame fft window math net) u.analysis u stereo
    let q := p.2.outputRing.takeFrames p.2.readFrame stereo.length
    some ({ p.2 with analysis := p.1, outputRing := q.1, readFrame := p.2.readFrame + stereo.length }, q.2)

/-- a call, and the bed it answers with; a block that is too long changes nothing -/
def call (u : HaloUpmix K) : HaloCall K → HaloUpmix K × List (Fin kHaloBedChannels → K)
  | .applyParams params => (u.applyParams params, [])
  | .processBed stereo => (processBed fft window math net u stereo).getD (u, [])
  | .reset => (u.reset, [])

end Model

/-- what comes in with the blocks that are not too long -/
def heard {K : Type} (config : EncoderConfig) (calls : List (HaloCall K)) : List (K × K) :=
  calls.flatMap fun
    | .processBed stereo => if config.maxFrames < stereo.length then [] else stereo
    | _ => []

theorem heard_processBed {K : Type} (config : EncoderConfig) (stereo : List (K × K)) :
    heard config [.processBed stereo] = if config.maxFrames < stereo.length then [] else stereo := by
  simp [heard]

theorem heard_cons {K : Type} (config : EncoderConfig) (c : HaloCall K) (calls : List (HaloCall K)) :
    heard config (c :: calls) = heard config [c] ++ heard config calls := by
  simp [heard]

/-! ## What is observed through weights -/

section Observe

variable {K : Type} [Field K]

/-- the sum of the channels under weights, on every channel -/
def weigh (w : Fin kHaloBedChannels → K) : (Fin kHaloBedChannels → K) →+ (Fin kHaloBedChannels → K) where
  toFun v := fun _ => ∑ channel, w channel * v channel
  map_zero' := by simp [Pi.zero_def]
  map_add' v v' := by
    funext channel
    simp only [Pi.add_apply, mul_add, Finset.sum_add_distrib]

/-- the matrix with the same row for every channel -/
def rowMatrix (a b : K) : BedMatrix K := ⟨fun _ => a, fun _ => b⟩

/-- the encoder that the upmix looks like through the weights -/
def observe (w : Fin kHaloBedChannels → K) (u : HaloUpmix K) : HaloEncoder K where
  config := u.config
  analysis := u.analysis
  dialog := u.dialog.toHaloDialogExtractor
  outputRing := u.outputRing.map (weigh w)
  readFrame := u.readFrame
  synthesisFrame := u.synthesisFrame

theorem fftIn_weighed {w : Fin kHaloBedChannels → K} {a b : K} {bed : Fin kHaloBedChannels → Spectrum K} {left right : Spectrum K}
    (hre : ∀ bin < kBins, ∑ channel, w channel * (bed channel).re bin = a * left.re bin + b * right.re bin)
    (him : ∀ bin < kBins, ∑ channel, w channel * (bed channel).im bin = a * left.im bin + b * right.im bin)
    {i : ℕ} (hi : i < kFftSize) (channel : Fin kHaloBedChannels) :
    ∑ channel, w channel * HaloStft.fftIn (bed channel) i =
      HaloStft.fftIn (HaloEncoder.bedSpectrum (rowMatrix a b) (left, right) channel) i := by
  have hhalf : i / 2 < kBins := by
    simp only [kFftSize, kBins] at hi ⊢
    omega
  unfold HaloStft.fftIn
  split_ifs
  · exact hre 0 (by decide)
  · exact hre (kBins - 1) (by decide)
  · exact hre _ hhalf
  · exact him _ hhalf

/-- what is weighed after the synthesis could be weighed before -/
theorem inverseAdd_weighed (fft : ExactTransform K kFftSize (Fin kFftSize → K)) (window : ℕ → K) {w : Fin kHaloBedChannels → K}
    {bed : Fin kHaloBedChannels → Spectrum K} {t : Spectrum K}
    (h : ∀ i < kFftSize, ∑ channel, w channel * HaloStft.fftIn (bed channel) i = HaloStft.fftIn t i) (i : ℕ) :
    ∑ channel, w channel * HaloStft.inverseAdd fft window (bed channel) i = HaloStft.inverseAdd fft window t i := by
  have hbuffer : (fun i : Fin kFftSize => HaloStft.fftIn t i) =
      ∑ channel, w channel • fun i : Fin kFftSize => HaloStft.fftIn (bed channel) i := by
    funext i
    rw [Finset.sum_apply, ← h i i.isLt]
    rfl
  unfold HaloStft.inverseAdd HaloStft.inverseOne
  dsimp only
  rw [hbuffer, map_sum]
  simp only [zero_add, map_smul]
  by_cases hi : i < kFftSize
  · simp only [floatAt, dif_pos hi, Finset.sum_apply, Pi.smul_apply, smul_eq_mul, Finset.sum_mul]
    apply Finset.sum_congr rfl
    intro channel _
    ring
  · simp [floatAt, hi]

end Observe

/-! ## Frames -/

section Frames

variable {K : Type} [Field K] [LinearOrder K] [IsStrictOrderedRing K]
  (fft : ExactTransform K kFftSize (Fin kFftSize → K)) (window : ℕ → K) (math : FloatMath K) (net : FannDialogNet K)

open HaloSurroundAssigner HaloDialogStage

omit [IsStrictOrderedRing K] in
theorem renderFrame_surround (u : HaloUpmix K) (left right : Spectrum K) :
    (u.renderFrame fft window math net left right).surround =
      (u.surround.processFrame math (u.dialog.processFrame math net left right).2 u.bed).1 := by
  dsimp only [renderFrame]

omit [IsStrictOrderedRing K] in
theorem renderFrame_bed (u : HaloUpmix K) (left right : Spectrum K) :
    (u.renderFrame fft window math net left right).bed =
      (u.surround.processFrame math (u.dialog.processFrame math net left right).2 u.bed).2 := by
  dsimp only [renderFrame]

/-- **One frame.** Every bin of the frame before is steered. -/
theorem renderFrame_steered (u : HaloUpmix K) (left right : Spectrum K) :
    (u.renderFrame fft window math net left right).surround.params = u.surround.params ∧
    (u.surround.params.InRange → u.surround.Steady → (u.renderFrame fft window math net left right).surround.Steady) ∧
    ∀ bin < kBins, ∃ s : Steering K, (∃ mask ∈ Icc (0 : K) 1, s.dialog = isolatePrime u.dialog.params * mask) ∧
      SteeredAt s (u.renderFrame fft window math net left right).bed (HaloEncoder.delayed u.dialog.toHaloDialogExtractor).1
        (HaloEncoder.delayed u.dialog.toHaloDialogExtractor).2 bin ∧
      (u.surround.params.InRange → u.surround.Steady → s.dialog ∈ Icc (0 : K) 1 → s.InRange) := by
  have hsplit : ∀ bin < kBins, ∃ g, (∃ mask ∈ Icc (0 : K) 1, g = isolatePrime u.dialog.params * mask) ∧
      SplitAt (u.dialog.processFrame math net left right).2 (HaloEncoder.delayed u.dialog.toHaloDialogExtractor).1
        (HaloEncoder.delayed u.dialog.toHaloDialogExtractor).2 g bin := by
    intro bin hbin
    obtain ⟨mask, hmask, hsplit⟩ := processFrame_split math net u.dialog left right hbin
    exact ⟨_, ⟨mask, hmask, rfl⟩, hsplit⟩
  rw [renderFrame_surround, renderFrame_bed]
  exact processFrame_assigned math u.bed hsplit

/-- under the weights every frame is the mixture of its two spectra, as long as the parameters are such -/
def Keeps (w : Fin kHaloBedChannels → K) (a b : K) (such : Record.HaloParams K → Prop) : Prop :=
  ∀ params, such params → ∀ (s : Steering K) (mask : K), s.dialog = isolatePrime params * mask →
    ∀ left right, ∑ channel, w channel * s.upmix left right channel = a * left + b * right

variable {w : Fin kHaloBedChannels → K} {a b : K} {such : Record.HaloParams K → Prop}

/-- **What is observed of a frame.** The upmix renders it as the encoder with the fixed matrix does. -/
theorem observe_renderFrame (hkeeps : Keeps w a b such) {u : HaloUpmix K} (hparams : such u.dialog.params)
    (left right : Spectrum K) :
    (u.renderFrame fft window math net left right).observe w =
      (u.observe w).renderFrame fft window (rowMatrix a b) left right := by
  have hsteered := (renderFrame_steered fft window math net u left right).2.2
  have hframe : (fun offset => weigh w fun channel =>
      HaloStft.inverseAdd fft window ((u.renderFrame fft window math net left right).bed channel) offset) =
      fun offset channel => HaloStft.inverseAdd fft window
        (HaloEncoder.bedSpectrum (rowMatrix a b) (HaloEncoder.delayed u.dialog.toHaloDialogExtractor) channel) offset := by
    funext offset channel
    apply inverseAdd_weighed
    intro i hi
    apply fftIn_weighed ?_ ?_ hi
    · intro bin hbin
      obtain ⟨s, ⟨mask, -, hdialog⟩, hat, -⟩ := hsteered bin hbin
      rw [← hkeeps _ hparams s mask hdialog]
      exact Finset.sum_congr rfl fun channel _ => congrArg (w channel * ·) (hat channel).1
    · intro bin hbin
      obtain ⟨s, ⟨mask, -, hdialog⟩, hat, -⟩ := hsteered bin hbin
      rw [← hkeeps _ hparams s mask hdialog]
      exact Finset.sum_congr rfl fun channel _ => congrArg (w channel * ·) (hat channel).2
  have hring := OverlapRing.map_addFrame (weigh w) u.outputRing u.synthesisFrame kFftSize fun offset channel =>
    HaloStft.inverseAdd fft window ((u.renderFrame fft window math net left right).bed channel) offset
  rw [hframe] at hring
  have hobserved : (u.renderFrame fft window math net left right).observe w =
      { config := u.config
        analysis := u.analysis
        dialog := (u.dialog.processFrame math net left right).1.toHaloDialogExtractor
        outputRing := (u.outputRing.addFrame u.synthesisFrame kFftSize fun offset channel =>
          HaloStft.inverseAdd fft window ((u.renderFrame fft window math net left right).bed channel) offset).map (weigh w)
        readFrame := u.readFrame
        synthesisFrame := u.synthesisFrame + kHop } := by
    dsimp only [renderFrame, observe]
  rw [hobserved, hring, processFrame_history]
  rfl

end Frames

/-! ## What is kept -/

section Kept

variable {K : Type} [Field K]

def sideDifference : Fin kHaloBedChannels → K := ![1, -1, 0, 1, -1, 1, -1]

/-- the left side and the centre -/
def leftFold : Fin kHaloBedChannels → K := ![1, 0, 1, 1, 0, 1, 0]

def rightFold : Fin kHaloBedChannels → K := ![0, 1, 1, 0, 1, 0, 1]

open HaloBedChannel

theorem sum_channels (w v : Fin kHaloBedChannels → K) :
    ∑ channel, w channel * v channel =
      w l * v l + w r * v r + w c * v c + w ls * v ls + w rs * v rs + w lsr * v lsr + w rsr * v rsr :=
  Fin.sum_univ_seven _

theorem sum_sideDifference (v : Fin kHaloBedChannels → K) :
    ∑ channel, sideDifference channel * v channel = leftSide v - rightSide v := by
  have hsum : ∑ channel, sideDifference channel * v channel =
      1 * v l + -1 * v r + 0 * v c + 1 * v ls + -1 * v rs + 1 * v lsr + -1 * v rsr := sum_channels sideDifference v
  rw [hsum, leftSide, rightSide]
  ring

theorem sum_leftFold (v : Fin kHaloBedChannels → K) : ∑ channel, leftFold channel * v channel = leftSide v + v c := by
  have hsum : ∑ channel, leftFold channel * v channel =
      1 * v l + 0 * v r + 1 * v c + 1 * v ls + 0 * v rs + 1 * v lsr + 0 * v rsr := sum_channels leftFold v
  rw [hsum, leftSide]
  ring

theorem sum_rightFold (v : Fin kHaloBedChannels → K) : ∑ channel, rightFold channel * v channel = rightSide v + v c := by
  have hsum : ∑ channel, rightFold channel * v channel =
      0 * v l + 1 * v r + 1 * v c + 0 * v ls + 1 * v rs + 0 * v lsr + 1 * v rsr := sum_channels rightFold v
  rw [hsum, rightSide]
  ring

variable [LinearOrder K] [IsStrictOrderedRing K]

theorem keeps_difference : Keeps (sideDifference : Fin kHaloBedChannels → K) 1 (-1) fun _ => True := by
  intro params _ s mask _ left right
  rw [sum_sideDifference, s.sides]
  ring

/-- nothing is taken out for a dialog -/
def NoDialog (params : Record.HaloParams K) : Prop := params.dialogIsolateThousandths = 0

theorem keeps_left : Keeps (leftFold : Fin kHaloBedChannels → K) 1 0 NoDialog := by
  intro params hparams s mask hdialog left right
  rw [HaloDialogStage.isolatePrime_zero hparams, zero_mul] at hdialog
  rw [sum_leftFold, (s.folded left right hdialog).1]
  ring

theorem keeps_right : Keeps (rightFold : Fin kHaloBedChannels → K) 0 1 NoDialog := by
  intro params hparams s mask hdialog left right
  rw [HaloDialogStage.isolatePrime_zero hparams, zero_mul] at hdialog
  rw [sum_rightFold, (s.folded left right hdialog).2]
  ring

end Kept

/-! ## Runs -/

section Run

variable {K : Type} [Field K] [LinearOrder K] [IsStrictOrderedRing K]
  (fft : ExactTransform K kFftSize (Fin kFftSize → K)) (window : ℕ → K) (math : FloatMath K) (net : FannDialogNet K)
  {w : Fin kHaloBedChannels → K} {a b : K} {such : Record.HaloParams K → Prop}

/-- **What is observed of a block.** -/
theorem observe_processBed (hkeeps : Keeps w a b such) {u : HaloUpmix K} (hparams : such u.dialog.params)
    (stereo : List (K × K)) :
    (u.observe w).processBed fft window (rowMatrix a b) stereo =
      (u.processBed fft window math net stereo).map fun p => (p.1.observe w, p.2.map (weigh w)) := by
  have hkeep : ∀ (v : HaloUpmix K) left right, such v.dialog.params →
      such (v.renderFrame fft window math net left right).dialog.params := fun v left right hv => hv
  have hframe : ∀ (v : HaloUpmix K) left right, such v.dialog.params →
      (v.renderFrame fft window math net left right).observe w =
        (v.observe w).renderFrame fft window (rowMatrix a b) left right :=
    fun v left right hv => observe_renderFrame fft window math net hkeeps hv left right
  have hprocess : HaloStft.process fft (HaloEncoder.renderFrame fft window (rowMatrix a b)) u.analysis (u.observe w) stereo =
      ((HaloStft.process fft (renderFrame fft window math net) u.analysis u stereo).1,
        (HaloStft.process fft (renderFrame fft window math net) u.analysis u stereo).2.observe w) :=
    (HaloStft.process_observe (observe w) hkeep hframe u.analysis hparams stereo).2
  have hanalyzed : (u.observe w).analyze fft window (rowMatrix a b) stereo =
      { (HaloStft.process fft (renderFrame fft window math net) u.analysis u stereo).2.observe w with
        analysis := (HaloStft.process fft (renderFrame fft window math net) u.analysis u stereo).1 } := by
    have heq := HaloEncoder.analyze_eq fft window (rowMatrix a b) (u.observe w) u.analysis stereo
    rw [hprocess] at heq
    exact heq
  unfold HaloEncoder.processBed processBed
  rw [hanalyzed]
  have hconfig : (u.observe w).config = u.config := rfl
  rw [hconfig]
  by_cases hlong : u.config.maxFrames < stereo.length
  · rw [if_pos hlong, if_pos hlong]
    rfl
  · rw [if_neg hlong, if_neg hlong]
    have htaken := OverlapRing.map_takeFrames (weigh w)
      (HaloStft.process fft (renderFrame fft window math net) u.analysis u stereo).2.outputRing
      (HaloStft.process fft (renderFrame fft window math net) u.analysis u stereo).2.readFrame stereo.length
    generalize HaloStft.process fft (renderFrame fft window math net) u.analysis u stereo = p at htaken ⊢
    change some _ = some _
    dsimp only [observe]
    rw [htaken]

variable {fft window math net}

omit [IsStrictOrderedRing K] in
/-- what every frame keeps, and the reader and the analysis leave alone, a block keeps -/
theorem processBed_keeps {I : HaloUpmix K → Prop}
    (hframe : ∀ (v : HaloUpmix K) left right, I v → I (v.renderFrame fft window math net left right))
    (hread : ∀ (v : HaloUpmix K) analysis start count readFrame, I v →
      I { v with analysis := analysis, outputRing := (v.outputRing.takeFrames start count).1, readFrame := readFrame })
    {u : HaloUpmix K} (hu : I u) {stereo : List (K × K)} {p : HaloUpmix K × List (Fin kHaloBedChannels → K)}
    (h : u.processBed fft window math net stereo = some p) : I p.1 := by
  unfold processBed at h
  by_cases hlong : u.config.maxFrames < stereo.length
  · rw [if_pos hlong] at h
    cases h
  · rw [if_neg hlong] at h
    cases h
    exact hread _ _ _ _ _ (HaloStft.process_keeps hframe u.analysis hu stereo)

/-- what comes out for an input is what is expected of it through the weights -/
def Delivers (w : Fin kHaloBedChannels → K) (a b : K) (past input : List (K × K)) (bed : List (Fin kHaloBedChannels → K)) : Prop :=
  bed.length = input.length ∧ ∀ i, (hi : i < bed.length) → 2 * kReportedLatency ≤ past.length + i →
    weigh w bed[i] = HaloEncoder.bedAt (rowMatrix a b) (past ++ input) ((past.length + i : ℕ) - HaloEncoder.stftLatencyFrames)

omit [LinearOrder K] [IsStrictOrderedRing K] in
theorem Delivers.append {past first second : List (K × K)} {bed₁ bed₂ : List (Fin kHaloBedChannels → K)}
    (h₁ : Delivers w a b past first bed₁) (h₂ : Delivers w a b (past ++ first) second bed₂) :
    Delivers w a b past (first ++ second) (bed₁ ++ bed₂) := by
  refine ⟨by rw [List.length_append, List.length_append, h₁.1, h₂.1], ?_⟩
  intro i hi hlater
  rw [← List.append_assoc]
  by_cases hfirst : i < bed₁.length
  · have hlength := h₁.1
    have hinside : ((past.length + i : ℕ) - HaloEncoder.stftLatencyFrames : ℤ) < (past ++ first).length := by
      rw [List.length_append]
      omega
    rw [List.getElem_append_left hfirst, h₁.2 i hfirst hlater, HaloEncoder.bedAt_append _ _ _ hinside]
  · rw [List.length_append] at hi
    have hplace : (past ++ first).length + (i - bed₁.length) = past.length + i := by
      rw [List.length_append, ← h₁.1]
      omega
    rw [List.getElem_append_right (by omega), h₂.2 _ (by omega) (by rw [hplace]; exact hlater), hplace]

variable (fft window w a b such)

/-- the observed encoder has tracked the input, and the parameters are such -/
structure Observed (config : EncoderConfig) (past : List (K × K)) (u : HaloUpmix K) : Prop where
  tracks : ∃ frames, HaloEncoder.Tracks fft window (rowMatrix a b) config past past.length frames (u.observe w)
  params : such u.dialog.params

variable (math net)
variable {fft window w a b such} {config : EncoderConfig} {past : List (K × K)} {u : HaloUpmix K}

theorem Observed.processBed (h : Observed fft window w a b such config past u) (hkeeps : Keeps w a b such)
    (hwindow : ∀ i < kHop, window i + window (i + kHop) = 1) {stereo : List (K × K)} (hframes : stereo.length ≤ config.maxFrames) :
    ∃ p, u.processBed fft window math net stereo = some p ∧ Observed fft window w a b such config (past ++ stereo) p.1 ∧
      Delivers w a b past stereo p.2 := by
  obtain ⟨frames, htracks⟩ := h.tracks
  obtain ⟨e', bed, frames', hrun, htracks', hlength, hbed⟩ := htracks.processBed hwindow stereo hframes
  rw [observe_processBed fft window math net hkeeps h.params stereo] at hrun
  obtain ⟨p, hp, hsame⟩ := Option.map_eq_some_iff.mp hrun
  cases hsame
  have hparams : such p.1.dialog.params :=
    processBed_keeps (I := fun v => such v.dialog.params) (fun v left right hv => hv) (fun v _ _ _ _ hv => hv) h.params hp
  refine ⟨p, hp, ⟨⟨frames', htracks'⟩, hparams⟩, ?_, ?_⟩
  · rwa [List.length_map] at hlength
  · intro i hi hlater
    have hat := hbed i (by rwa [List.length_map]) hlater
    rwa [List.getElem_map] at hat

/-- **One call.** -/
theorem Observed.call (h : Observed fft window w a b such config past u) (hkeeps : Keeps w a b such)
    (hwindow : ∀ i < kHop, window i + window (i + kHop) = 1) {c : HaloCall K} (hreset : c ≠ .reset)
    (hsuch : ∀ params, c = .applyParams params → such params) :
    Observed fft window w a b such config (past ++ heard config [c]) (u.call fft window math net c).1 ∧
      Delivers w a b past (heard config [c]) (u.call fft window math net c).2 := by
  cases c with
  | applyParams params =>
    have hquiet : heard config [.applyParams params] = ([] : List (K × K)) := rfl
    rw [hquiet, List.append_nil]
    exact ⟨⟨h.tracks, hsuch params rfl⟩, rfl, fun i hi => absurd hi (Nat.not_lt_zero i)⟩
  | processBed stereo =>
    rw [heard_processBed]
    by_cases hlong : config.maxFrames < stereo.length
    · have hrefused : u.processBed fft window math net stereo = none := by
        obtain ⟨frames, htracks⟩ := h.tracks
        have hconfig : u.config = config := htracks.prepared
        unfold HaloUpmix.processBed
        rw [hconfig, if_pos hlong]
      unfold HaloUpmix.call
      dsimp only
      rw [if_pos hlong, List.append_nil, hrefused]
      exact ⟨h, rfl, fun i hi => absurd hi (Nat.not_lt_zero i)⟩
    · obtain ⟨p, hp, hobserved, hdelivers⟩ := h.processBed math net hkeeps hwindow (not_lt.mp hlong)
      unfold HaloUpmix.call
      dsimp only
      rw [if_neg hlong, hp]
      exact ⟨hobserved, hdelivers⟩
  | reset => exact absurd rfl hreset

/-- the run: call after call -/
theorem Observed.run (h : Observed fft window w a b such config past u) (hkeeps : Keeps w a b such)
    (hwindow : ∀ i < kHop, window i + window (i + kHop) = 1) {calls : List (HaloCall K)} (hreset : .reset ∉ calls)
    (hsuch : ∀ params, .applyParams params ∈ calls → such params) :
    Observed fft window w a b such config (past ++ heard config calls) (feed (HaloUpmix.call fft window math net) u calls).1 ∧
      Delivers w a b past (heard config calls) (feed (HaloUpmix.call fft window math net) u calls).2.flatten := by
  induction calls generalizing past u with
  | nil =>
    have hquiet : heard config [] = ([] : List (K × K)) := rfl
    rw [hquiet, List.append_nil]
    exact ⟨h, rfl, fun i hi => absurd hi (Nat.not_lt_zero i)⟩
  | cons c calls ih =>
    have hcall := h.call math net hkeeps hwindow (c := c) (fun heq => hreset (heq ▸ List.mem_cons_self))
      fun params heq => hsuch params (heq ▸ List.mem_cons_self)
    have hrest := ih hcall.1 (fun hmem => hreset (List.mem_cons_of_mem _ hmem))
      fun params hmem => hsuch params (List.mem_cons_of_mem _ hmem)
    rw [heard_cons, ← List.append_assoc]
    exact ⟨hrest.1, hcall.2.append hrest.2⟩

/-! ## From the start and from a reset -/

/-- the encoder keeps its configuration and the size of its ring -/
structure Shaped (config : EncoderConfig) (u : HaloUpmix K) : Prop where
  prepared : u.config = config
  ring : u.outputRing.size = kReportedLatency + kFftSize + 4 * config.maxFrames

omit [IsStrictOrderedRing K] in
theorem Shaped.call (h : Shaped config u) (c : HaloCall K) : Shaped config (u.call fft window math net c).1 := by
  cases c with
  | applyParams params => exact ⟨h.prepared, h.ring⟩
  | processBed stereo =>
    unfold HaloUpmix.call
    dsimp only
    cases hblock : u.processBed fft window math net stereo with
    | none => exact h
    | some p =>
      apply processBed_keeps (I := Shaped config) ?_ ?_ h hblock
      · intro v left right hv
        exact ⟨hv.prepared, (OverlapRing.addFrame_size _ _ _ _).trans hv.ring⟩
      · intro v _ start count _ hv
        exact ⟨hv.prepared, (OverlapRing.takeFrames_size _ _ _).trans hv.ring⟩
  | reset => exact ⟨h.prepared, h.ring⟩

omit [IsStrictOrderedRing K] in
theorem Shaped.run (h : Shaped config u) (calls : List (HaloCall K)) :
    Shaped config (feed (HaloUpmix.call fft window math net) u calls).1 :=
  @feed_invariant _ _ _ _ (fun _ => Shaped config) (fun _ _ c hs => hs.call math net c) [] u h calls

omit [LinearOrder K] [IsStrictOrderedRing K] in
theorem prepare_shaped (hrate : config.sampleRate = 96000) (hframes : 1 ≤ config.maxFrames)
    (horder : 1 ≤ config.order ∧ config.order ≤ kMaxAmbisonicsOrder) :
    ∃ u : HaloUpmix K, prepare true config = some u ∧ Shaped config u := by
  have hguard : ¬(config.sampleRate ≠ 96000 ∨ config.maxFrames = 0 ∨ config.order = 0 ∨ kMaxAmbisonicsOrder < config.order) := by
    omega
  unfold prepare
  rw [if_neg hguard, if_neg (by decide)]
  exact ⟨_, rfl, rfl, rfl⟩

omit [LinearOrder K] [IsStrictOrderedRing K] in
/-- **After a reset** the observed encoder is as it was prepared. -/
theorem Shaped.reset_observed (h : Shaped config u) (hrate : config.sampleRate = 96000) (hframes : 1 ≤ config.maxFrames)
    (horder : 1 ≤ config.order ∧ config.order ≤ kMaxAmbisonicsOrder) (hsuch : such u.dialog.params) :
    Observed fft window w a b such config [] u.reset := by
  obtain ⟨e, hprepared, htracks⟩ := HaloEncoder.prepare_tracks fft window (rowMatrix a b) hrate hframes horder
  have hguard : ¬(config.sampleRate ≠ 96000 ∨ config.maxFrames = 0 ∨ config.order = 0 ∨ kMaxAmbisonicsOrder < config.order) := by
    omega
  unfold HaloEncoder.prepare at hprepared
  rw [if_neg hguard, if_neg (by decide)] at hprepared
  have hsame : u.reset.observe w = e := by
    refine Eq.trans ?_ (Option.some.inj hprepared)
    unfold observe reset
    dsimp only
    rw [h.prepared, h.ring, OverlapRing.map_clear]
    rfl
  exact ⟨⟨0, hsame ▸ htracks⟩, hsuch⟩

/-- **The upmix keeps the sides.** Whatever was called before a `Reset`, and whatever calls come after it: as many frames come out
as come in, the left channels less the right ones are from frame 2048 on what the left input was less the right one 1536 frames
before, and as long as no dialog is to be isolated each side with the centre is what its input was. -/
theorem sides_kept (hwindow : ∀ i < kHop, window i + window (i + kHop) = 1) (hrate : config.sampleRate = 96000)
    (hframes : 1 ≤ config.maxFrames) (horder : 1 ≤ config.order ∧ config.order ≤ kMaxAmbisonicsOrder) :
    ∃ u : HaloUpmix K, prepare true config = some u ∧
      ∀ (before calls : List (HaloCall K)) (v : HaloUpmix K) (bed : List (Fin kHaloBedChannels → K)),
        (feed (HaloUpmix.call fft window math net) u before).1 = v →
        .reset ∉ calls →
        (feed (HaloUpmix.call fft window math net) v.reset calls).2.flatten = bed →
        bed.length = (heard config calls).length ∧
        (∀ n, (hn : n < bed.length) → 2048 ≤ n →
          leftSide bed[n] - rightSide bed[n] =
            signal Prod.fst (heard config calls) (n - HaloEncoder.stftLatencyFrames) -
              signal Prod.snd (heard config calls) (n - HaloEncoder.stftLatencyFrames)) ∧
        (NoDialog v.dialog.params → (∀ params, .applyParams params ∈ calls → NoDialog params) →
          ∀ n, (hn : n < bed.length) → 2048 ≤ n →
            leftSide bed[n] + bed[n] HaloBedChannel.c =
              signal Prod.fst (heard config calls) (n - HaloEncoder.stftLatencyFrames) ∧
            rightSide bed[n] + bed[n] HaloBedChannel.c =
              signal Prod.snd (heard config calls) (n - HaloEncoder.stftLatencyFrames)) := by
  obtain ⟨u, hprepared, hshaped⟩ := prepare_shaped (K := K) hrate hframes horder
  refine ⟨u, hprepared, ?_⟩
  rintro before calls v bed hbefore hreset rfl
  have hv : Shaped config v := by
    rw [← hbefore]
    exact hshaped.run math net before
  -- what the weights see of a frame of the bed
  have hobserve : ∀ {w : Fin kHaloBedChannels → K} {a b : K} {such : Record.HaloParams K → Prop}, Keeps w a b such →
      such v.dialog.params → (∀ params, .applyParams params ∈ calls → such params) →
      Delivers w a b [] (heard config calls) (feed (HaloUpmix.call fft window math net) v.reset calls).2.flatten := by
    intro w a b such hkeeps hstart hsuch
    exact ((hv.reset_observed hrate hframes horder hstart).run math net hkeeps hwindow hreset hsuch).2
  have hat : ∀ {w : Fin kHaloBedChannels → K} {a b : K} {bed : List (Fin kHaloBedChannels → K)},
      Delivers w a b [] (heard config calls) bed → ∀ n, (hn : n < bed.length) → 2048 ≤ n →
      ∑ channel, w channel * bed[n] channel =
        a * signal Prod.fst (heard config calls) (n - HaloEncoder.stftLatencyFrames) +
          b * signal Prod.snd (heard config calls) (n - HaloEncoder.stftLatencyFrames) := by
    intro w a b bed hdelivers n hn hlater
    have hplace : ([] : List (K × K)).length + n = n := Nat.zero_add n
    have hvalue := congrFun (hdelivers.2 n hn (by rw [hplace]; exact hlater)) HaloBedChannel.l
    rw [hplace, List.nil_append] at hvalue
    exact hvalue
  have hdifference := hobserve keeps_difference trivial fun _ _ => trivial
  refine ⟨hdifference.1, ?_, ?_⟩
  · intro n hn hlater
    have hsum := hat hdifference n hn hlater
    rw [sum_sideDifference] at hsum
    rw [hsum]
    ring
  · intro hstart hsuch n hn hlater
    have hleft := hat (hobserve keeps_left hstart hsuch) n hn hlater
    have hright := hat (hobserve keeps_right hstart hsuch) n hn hlater
    rw [sum_leftFold, one_mul, zero_mul, add_zero] at hleft
    rw [sum_rightFold, one_mul, zero_mul, zero_add] at hright
    exact ⟨hleft, hright⟩

/-! ## The frames -/

/-- how frame `k` was rendered: what the net was shown for it, and the shares of its bins, which are those of the frame before -/
structure SharedOut (frames : List (Spectrum K × Spectrum K)) (k : ℕ) (f : RenderedFrame K) : Prop where
  shown : ∀ i, f.shown i = HaloDialogStage.levelsAt math frames (k + i - (kHistoryFrames - 1 : ℕ))
  bins : ∀ bin < kBins, ∃ s : Steering K, s.InRange ∧ HaloSurroundAssigner.SteeredAt s f.bed
    (HaloDialogStage.lastFrame (frames.take k)).1 (HaloDialogStage.lastFrame (frames.take k)).2 bin

/-- the parameters are in range, the stages are steady, and every frame was shared out -/
structure Served (u : HaloUpmix K) : Prop where
  dialogParams : u.dialog.params.InRange
  surroundParams : u.surround.params.InRange
  steady : u.surround.Steady
  recalls : HaloDialogStage.Recalls math (u.rendered.map RenderedFrame.newest) u.dialog
  shared : ∀ k, (hk : k < u.rendered.length) → SharedOut math (u.rendered.map RenderedFrame.newest) k u.rendered[k]

omit [LinearOrder K] [IsStrictOrderedRing K] in
theorem initialParams_inRange : (initialParams : Record.HaloParams K).InRange := by
  have hparams : ∀ v ∈ ([0, 500, 300, 750, 0, 500, 300, 200, 200, 800, 816, 475] : List ℤ), Record.Within v 0 1000 := by decide
  have hlfe : ∀ v ∈ ([750000, 0, 272727] : List ℤ), Record.Within v 0 1000000 := by decide
  exact ⟨hparams, hlfe⟩

variable {math}

omit [IsStrictOrderedRing K] in
/-- what a later frame does not change -/
theorem SharedOut.concat {frames : List (Spectrum K × Spectrum K)} {k : ℕ} {f : RenderedFrame K} (h : SharedOut math frames k f)
    (hk : k < frames.length) (frame : Spectrum K × Spectrum K) : SharedOut math (frames ++ [frame]) k f where
  shown := by
    intro i
    have hi := i.isLt
    rw [h.shown i]
    refine (signal_append _ _ _ ?_).symm
    simp only [kHistoryFrames] at hi ⊢
    omega
  bins := by
    rw [List.take_append_of_le_length hk.le]
    exact h.bins

/-- **One frame** -/
theorem Served.renderFrame (h : Served math u) (left right : Spectrum K) :
    Served math (u.renderFrame fft window math net left right) := by
  obtain ⟨hparams, hsteady, hbins⟩ := renderFrame_steered fft window math net u left right
  have hrendered : (u.renderFrame fft window math net left right).rendered =
      u.rendered ++ [⟨(left, right), u.dialog.ordered math left right, (u.renderFrame fft window math net left right).bed⟩] := by
    dsimp only [HaloUpmix.renderFrame]
  have hdialog : (u.renderFrame fft window math net left right).dialog = (u.dialog.processFrame math net left right).1 := by
    dsimp only [HaloUpmix.renderFrame]
  generalize u.renderFrame fft window math net left right = v at *
  have hframes : v.rendered.map RenderedFrame.newest = u.rendered.map RenderedFrame.newest ++ [(left, right)] := by
    rw [hrendered, List.map_append]
    rfl
  have hlength : (u.rendered.map RenderedFrame.newest).length = u.rendered.length := List.length_map _
  have hisolate := HaloDialogStage.isolatePrime_mem h.dialogParams
  have hnew : SharedOut math (u.rendered.map RenderedFrame.newest ++ [(left, right)]) u.rendered.length
      ⟨(left, right), u.dialog.ordered math left right, v.bed⟩ := by
    constructor
    · intro i
      rw [← hlength]
      exact h.recalls.ordered left right i
    · intro bin hbin
      obtain ⟨s, ⟨mask, hmask, hs⟩, hsteered, hrange⟩ := hbins bin hbin
      rw [← hlength, List.take_left, ← h.recalls.last]
      exact ⟨s, hrange h.surroundParams h.steady (hs ▸ mul_mem_unit hisolate hmask), hsteered⟩
  exact
    { dialogParams := by
        rw [hdialog, HaloDialogStage.processFrame_params]
        exact h.dialogParams
      surroundParams := by
        rw [hparams]
        exact h.surroundParams
      steady := hsteady h.surroundParams h.steady
      recalls := by
        rw [hframes, hdialog]
        exact h.recalls.processFrame net left right
      shared := by
        intro k hk
        rw [hframes]
        rw [hrendered, List.length_append, List.length_singleton] at hk
        rcases Nat.lt_succ_iff_lt_or_eq.mp hk with hearlier | rfl
        · simp only [hrendered, List.getElem_append_left hearlier]
          exact (h.shared k hearlier).concat (hlength.symm ▸ hearlier) _
        · simp only [hrendered, List.getElem_concat_length]
          exact hnew }

theorem reset_served (hdialog : u.dialog.params.InRange) (hsurround : u.surround.params.InRange) : Served math u.reset where
  dialogParams := hdialog
  surroundParams := hsurround
  steady :=
    { c := fun _ => ⟨le_rfl, zero_le_one⟩
      f := fun _ => ⟨le_rfl, zero_le_one⟩
      b := fun _ => ⟨le_rfl, zero_le_one⟩
      alpha := fun _ => ⟨le_rfl, zero_le_one⟩
      dialogAlpha := ⟨le_rfl, zero_le_one⟩ }
  recalls := HaloDialogStage.reset_recalls math u.dialog
  shared := fun k hk => absurd hk (Nat.not_lt_zero k)

/-- both stages have parameters in range -/
structure Sane (u : HaloUpmix K) : Prop where
  dialog : u.dialog.params.InRange
  surround : u.surround.params.InRange

theorem Sane.call (h : Sane u) {c : HaloCall K} (hparams : ∀ params, c = .applyParams params → params.InRange) :
    Sane (u.call fft window math net c).1 := by
  cases c with
  | applyParams params => exact ⟨hparams params rfl, hparams params rfl⟩
  | processBed stereo =>
    unfold HaloUpmix.call
    dsimp only
    cases hblock : u.processBed fft window math net stereo with
    | none => exact h
    | some p =>
      apply processBed_keeps (I := Sane) ?_ ?_ h hblock
      · intro v left right hv
        refine ⟨hv.dialog, ?_⟩
        rw [(renderFrame_steered fft window math net v left right).1]
        exact hv.surround
      · intro v _ _ _ _ hv
        exact ⟨hv.dialog, hv.surround⟩
  | reset => exact ⟨h.dialog, h.surround⟩

theorem Sane.run (h : Sane u) {calls : List (HaloCall K)} (hparams : ∀ params, .applyParams params ∈ calls → params.InRange) :
    Sane (feed (HaloUpmix.call fft window math net) u calls).1 := by
  induction calls generalizing u with
  | nil => exact h
  | cons c calls ih =>
    have hcall : Sane (HaloUpmix.call fft window math net u c).1 :=
      h.call net fun params heq => hparams params (heq ▸ List.mem_cons_self)
    exact ih hcall fun params hmem => hparams params (List.mem_cons_of_mem _ hmem)

omit [LinearOrder K] [IsStrictOrderedRing K] in
theorem prepare_params (h : prepare true config = some u) :
    u.dialog.params = initialParams ∧ u.surround.params = initialParams := by
  unfold prepare at h
  split_ifs at h
  · cases h
    exact ⟨rfl, rfl⟩

omit [LinearOrder K] [IsStrictOrderedRing K] in
theorem prepare_sane (h : prepare true config = some u) : Sane u := by
  obtain ⟨hdialog, hsurround⟩ := prepare_params h
  exact ⟨hdialog ▸ initialParams_inRange, hsurround ▸ initialParams_inRange⟩

/-- the first `k` frames of the stream have been rendered -/
structure RenderedTo (fft : ExactTransform K kFftSize (Fin kFftSize → K)) (math : FloatMath K) (stream : List (K × K)) (k : ℕ)
    (u : HaloUpmix K) : Prop where
  served : Served math u
  length : u.rendered.length = k
  frames : u.rendered.map RenderedFrame.newest = (List.range k).map (HaloStft.frameAt fft stream)

/-- the stream has been heard up to `position`, and its frames have been rendered -/
def Renders (fft : ExactTransform K kFftSize (Fin kFftSize → K)) (math : FloatMath K) (stream : List (K × K)) (position : ℕ)
    (u : HaloUpmix K) : Prop :=
  ∃ k, HaloStft.Hears stream position k u.analysis ∧ RenderedTo fft math stream k u

variable {stream : List (K × K)} {position : ℕ}

theorem RenderedTo.renderFrame {k : ℕ} (h : RenderedTo fft math stream k u) :
    RenderedTo fft math stream (k + 1)
      (u.renderFrame fft window math net (HaloStft.frameAt fft stream k).1 (HaloStft.frameAt fft stream k).2) where
  served := h.served.renderFrame net _ _
  length := by simp [HaloUpmix.renderFrame, h.length]
  frames := by
    rw [List.range_succ, List.map_append, ← h.frames]
    simp [HaloUpmix.renderFrame]

/-- **One call.** What is heard of it is the next of the stream, and the frames that it completes are rendered. -/
theorem Renders.call (h : Renders fft math stream position u) (hshaped : Shaped config u) {c : HaloCall K} (hreset : c ≠ .reset)
    (hparams : ∀ params, c = .applyParams params → params.InRange) {later : List (K × K)}
    (hstream : stream.drop position = heard config [c] ++ later) (hinside : position ≤ stream.length) :
    Renders fft math stream (position + (heard config [c]).length) (u.call fft window math net c).1 := by
  obtain ⟨k, hhears, hrendered⟩ := h
  have hserved := hrendered.served
  cases c with
  | applyParams params =>
    have hrange := hparams params rfl
    refine ⟨k, hhears, ⟨⟨hrange, hrange, ?_, ?_, hserved.shared⟩, hrendered.length, hrendered.frames⟩⟩
    · exact ⟨hserved.steady.c, hserved.steady.f, hserved.steady.b, hserved.steady.alpha, hserved.steady.dialogAlpha⟩
    · exact ⟨hserved.recalls.map, hserved.recalls.recent, hserved.recalls.last⟩
  | processBed stereo =>
    rw [heard_processBed] at hstream ⊢
    unfold HaloUpmix.call HaloUpmix.processBed
    dsimp only
    rw [hshaped.prepared]
    by_cases hlong : config.maxFrames < stereo.length
    · rw [if_pos hlong, if_pos hlong]
      exact ⟨k, hhears, hrendered⟩
    · rw [if_neg hlong] at hstream
      rw [if_neg hlong, if_neg hlong]
      have hframe : ∀ j (v : HaloUpmix K), RenderedTo fft math stream j v → RenderedTo fft math stream (j + 1)
          (v.renderFrame fft window math net (HaloStft.frameAt fft stream j).1 (HaloStft.frameAt fft stream j).2) :=
        fun j v hv => hv.renderFrame net
      obtain ⟨k', hhears', hrendered'⟩ := hhears.process hframe hrendered hstream hinside
      have hserved' := hrendered'.served
      exact ⟨k', hhears', ⟨hserved'.dialogParams, hserved'.surroundParams, hserved'.steady, hserved'.recalls, hserved'.shared⟩,
        hrendered'.length, hrendered'.frames⟩
  | reset => exact absurd rfl hreset

theorem Renders.run (h : Renders fft math stream position u) (hshaped : Shaped config u) {calls : List (HaloCall K)}
    (hreset : .reset ∉ calls) (hparams : ∀ params, .applyParams params ∈ calls → params.InRange)
    (hstream : stream.drop position = heard config calls) (hinside : position ≤ stream.length) :
    Renders fft math stream (position + (heard config calls).length)
      (feed (HaloUpmix.call fft window math net) u calls).1 := by
  induction calls generalizing position u with
  | nil => exact h
  | cons c calls ih =>
    rw [heard_cons] at hstream ⊢
    have hlong : stream.length - position = (heard config [c]).length + (heard config calls).length := by
      rw [← List.length_drop, hstream, List.length_append]
    have hnext : stream.drop (position + (heard config [c]).length) = heard config calls := by
      rw [← List.drop_drop, hstream, List.drop_left]
    have hcall : Renders fft math stream (position + (heard config [c]).length) (u.call fft window math net c).1 :=
      h.call net hshaped (fun heq => hreset (heq ▸ List.mem_cons_self)) (fun params heq => hparams params (heq ▸ List.mem_cons_self))
        hstream hinside
    rw [List.length_append, ← Nat.add_assoc]
    exact ih hcall (hshaped.call math net c) (fun hmem => hreset (List.mem_cons_of_mem _ hmem))
      (fun params hmem => hparams params (List.mem_cons_of_mem _ hmem)) hnext (by omega)

/-- **Every frame is shared out.** Whatever was called before a `Reset` and whatever calls come after it, with parameters in
range: what has been rendered are the frames of the input that are complete. For each of them the net was shown the levels of the
last six frames in order, and the bed is that of the frame before: in every bin the shares are between zero and one and make a
whole, and no channel has more power than the louder side had there, the centre at most twice as much. -/
theorem frames_shared (hrate : config.sampleRate = 96000) (hframes : 1 ≤ config.maxFrames)
    (horder : 1 ≤ config.order ∧ config.order ≤ kMaxAmbisonicsOrder) :
    ∃ u : HaloUpmix K, prepare true config = some u ∧
      ∀ (before calls : List (HaloCall K)) (v e : HaloUpmix K) (frames : List (Spectrum K × Spectrum K)),
        (feed (HaloUpmix.call fft window math net) u before).1 = v →
        .reset ∉ calls →
        (∀ params, .applyParams params ∈ before ++ calls → params.InRange) →
        (feed (HaloUpmix.call fft window math net) v.reset calls).1 = e →
        (List.range e.rendered.length).map (HaloStft.frameAt fft (heard config calls)) = frames →
        (∃ fill < kFftSize, (heard config calls).length = kHop * e.rendered.length + fill ∧
          (e.rendered.length ≠ 0 → kHop ≤ fill)) ∧
        ∀ k, (hk : k < e.rendered.length) →
          (∀ i, e.rendered[k].shown i = HaloDialogStage.levelsAt math frames (k + i - (kHistoryFrames - 1 : ℕ))) ∧
          ∀ left right : Spectrum K, HaloDialogStage.lastFrame (frames.take k) = (left, right) →
            ∀ bin < kBins, ∃ s : Steering K, s.InRange ∧
              HaloSurroundAssigner.SteeredAt s e.rendered[k].bed left right bin ∧
              ∀ channel, mag2 ((e.rendered[k].bed channel).re bin) ((e.rendered[k].bed channel).im bin) ≤
                (if channel = HaloBedChannel.c then 2 else 1) *
                  max (mag2 (left.re bin) (left.im bin)) (mag2 (right.re bin) (right.im bin)) := by
  obtain ⟨u, hprepared, hshaped⟩ := prepare_shaped (K := K) hrate hframes horder
  refine ⟨u, hprepared, ?_⟩
  rintro before calls v e frames rfl hreset hparams rfl rfl
  have hv : Shaped config (feed (HaloUpmix.call fft window math net) u before).1 := hshaped.run math net before
  have hsane : Sane (feed (HaloUpmix.call fft window math net) u before).1 :=
    (prepare_sane hprepared).run net fun params hmem => hparams params (List.mem_append_left _ hmem)
  generalize (feed (HaloUpmix.call fft window math net) u before).1 = v at hv hsane ⊢
  have hstart : Renders fft math (heard config calls) 0 v.reset := by
    refine ⟨0, ?_, ⟨reset_served hsane.dialog hsane.surround, rfl, rfl⟩⟩
    exact
      { length := rfl
        overlap := fun hne => absurd rfl hne
        left := fun i hi => absurd hi (Nat.not_lt_zero i)
        right := fun i hi => absurd hi (Nat.not_lt_zero i) }
  have hshaped' : Shaped config v.reset := ⟨hv.prepared, hv.ring⟩
  obtain ⟨k, hhears, hserved, rfl, hmap⟩ : Renders fft math (heard config calls) (0 + (heard config calls).length)
      (feed (HaloUpmix.call fft window math net) v.reset calls).1 :=
    hstart.run net hshaped' hreset (fun params hmem => hparams params (List.mem_append_right _ hmem)) rfl (Nat.zero_le _)
  generalize (feed (HaloUpmix.call fft window math net) v.reset calls).1 = e at *
  constructor
  · refine ⟨_, e.analysis.analysisFill.isLt, ?_, hhears.overlap⟩
    rw [← hhears.length, zero_add]
  · intro k hk
    rw [← hmap]
    obtain ⟨hshown, hbins⟩ := hserved.shared k hk
    refine ⟨hshown, ?_⟩
    intro left right hbefore bin hbin
    rw [hbefore] at hbins
    obtain ⟨s, hrange, hsteered⟩ := hbins bin hbin
    refine ⟨s, hrange, hsteered, ?_⟩
    intro channel
    rw [(hsteered channel).1, (hsteered channel).2]
    exact hrange.power _ _ _ _ channel

end Run

/-! ## The mathematics of the reals -/

/-- the functions that the C library approximates -/
noncomputable def realMath : FloatMath ℝ where
  exp := Real.exp
  log := Real.log
  atan2 y x := Complex.arg ⟨x, y⟩
  pow := Real.rpow
  exp_zero := Real.exp_zero
  exp_pos := Real.exp_pos
  exp_monotone := Real.exp_monotone
  exp_log _ h := Real.exp_log h
  pow_eq x y h := by
    change x ^ y = _
    rw [Real.rpow_def_of_pos h, mul_comm]

/-- five blocks of 512 frames of a constant on the left, as it is shipped -/
theorem sides_kept_constant :
    ∃ u bed v, prepare true ⟨96000, 512, 1⟩ = some u ∧
      (feed (HaloUpmix.call (orderedFourier 512) HaloEncoder.hann realMath ⟨fun _ => 0⟩) u.reset
        (List.replicate 5 (.processBed (List.replicate 512 ((1 : ℝ), (0 : ℝ)))))).2.flatten = bed ∧
      bed[2048]? = some v ∧ leftSide v - rightSide v = 1 ∧ leftSide v + v HaloBedChannel.c = 1 ∧
      rightSide v + v HaloBedChannel.c = 0 := by
  obtain ⟨u, hprepared, hkept⟩ := @sides_kept ℝ _ _ _ (orderedFourier 512) HaloEncoder.hann realMath ⟨fun _ => 0⟩
    ⟨96000, 512, 1⟩ (fun i _ => HaloEncoder.hann_overlap i) rfl (by norm_num) ⟨le_rfl, by decide⟩
  have hsilent : HaloCall.reset ∉ List.replicate 5 (HaloCall.processBed (List.replicate 512 ((1 : ℝ), (0 : ℝ)))) := by
    intro hmem
    cases List.eq_of_mem_replicate hmem
  obtain ⟨bed, hbed⟩ : ∃ bed, (feed (HaloUpmix.call (orderedFourier 512) HaloEncoder.hann realMath ⟨fun _ => 0⟩) u.reset
      (List.replicate 5 (.processBed (List.replicate 512 ((1 : ℝ), (0 : ℝ)))))).2.flatten = bed := ⟨_, rfl⟩
  obtain ⟨hlength, hdifference, hsides⟩ := hkept [] _ u bed rfl hsilent hbed
  have hheard : heard ⟨96000, 512, 1⟩ (List.replicate 5 (.processBed (List.replicate 512 ((1 : ℝ), (0 : ℝ))))) =
      List.replicate 2560 (1, 0) := by
    unfold heard
    rw [List.flatMap_replicate]
    dsimp only
    rw [if_neg (by rw [List.length_replicate]; norm_num), List.flatten_replicate_replicate]
  have hplace : ((2048 : ℕ) - HaloEncoder.stftLatencyFrames : ℤ) = (512 : ℕ) := by
    simp only [HaloEncoder.stftLatencyFrames, kReportedLatency, kHop]
    norm_num
  have hconstant : ∀ f : ℝ × ℝ → ℝ,
      signal f (List.replicate 2560 ((1 : ℝ), (0 : ℝ))) ((2048 : ℕ) - HaloEncoder.stftLatencyFrames) = f (1, 0) := by
    intro f
    rw [hplace, signal_natCast f _ 512 (by rw [List.length_replicate]; norm_num), List.getElem_replicate]
  rw [hheard] at hlength hdifference hsides
  have hnone : NoDialog u.dialog.params := by
    rw [(prepare_params hprepared).1]
    rfl
  have hcalls : ∀ params : Record.HaloParams ℝ,
      .applyParams params ∈ List.replicate 5 (HaloCall.processBed (List.replicate 512 ((1 : ℝ), (0 : ℝ)))) → NoDialog params := by
    intro params hmem
    cases List.eq_of_mem_replicate hmem
  have hlong : 2048 < bed.length := by
    rw [hlength, List.length_replicate]
    norm_num
  refine ⟨u, bed, bed[2048], hprepared, hbed, List.getElem?_eq_getElem hlong, ?_, ?_, ?_⟩
  · rw [hdifference 2048 hlong le_rfl, hconstant, hconstant, sub_zero]
  · rw [(hsides hnone hcalls 2048 hlong le_rfl).1, hconstant]
  · rw [(hsides hnone hcalls 2048 hlong le_rfl).2, hconstant]

/-- a block of 1536 frames has two frames to render; the second is that of the first -/
theorem frames_shared_constant :
    ∃ u e f s left right, prepare true ⟨96000, 1536, 1⟩ = some u ∧
      (feed (HaloUpmix.call (orderedFourier 512) HaloEncoder.hann realMath ⟨fun _ => 0⟩) u.reset
        [.applyParams initialParams, .processBed (List.replicate 1536 ((1 : ℝ), (0 : ℝ)))]).1 = e ∧
      e.rendered[1]? = some f ∧
      HaloStft.frameAt (orderedFourier 512) (List.replicate 1536 ((1 : ℝ), (0 : ℝ))) 0 = (left, right) ∧
      Steering.InRange s ∧ HaloSurroundAssigner.SteeredAt s f.bed left right 0 := by
  generalize hstream : List.replicate 1536 ((1 : ℝ), (0 : ℝ)) = stream
  have hlength : stream.length = 1536 := by rw [← hstream, List.length_replicate]
  obtain ⟨u, hprepared, hshared⟩ := @frames_shared ℝ _ _ _ (orderedFourier 512) HaloEncoder.hann realMath ⟨fun _ => 0⟩
    ⟨96000, 1536, 1⟩ rfl (by norm_num) ⟨le_rfl, by decide⟩
  have hparams : ∀ params : Record.HaloParams ℝ,
      .applyParams params ∈ [] ++ [HaloCall.applyParams initialParams, .processBed stream] → params.InRange := by
    intro params hmem
    simp only [List.nil_append, List.mem_cons, HaloCall.applyParams.injEq, reduceCtorEq, List.not_mem_nil, or_false] at hmem
    rw [hmem]
    exact initialParams_inRange
  obtain ⟨e, he⟩ : ∃ e, (feed (HaloUpmix.call (orderedFourier 512) HaloEncoder.hann realMath ⟨fun _ => 0⟩) u.reset
      [.applyParams initialParams, .processBed stream]).1 = e := ⟨_, rfl⟩
  have hheard : heard ⟨96000, 1536, 1⟩ [.applyParams initialParams, .processBed stream] = stream := by
    simp [heard, hlength]
  obtain ⟨⟨fill, hfill, hcount, hoverlap⟩, hframes⟩ := hshared [] _ u e _ rfl (by simp) hparams he rfl
  rw [hheard] at hcount hframes
  have htwo : e.rendered.length = 2 := by
    rw [hlength] at hcount
    simp only [kHop, kFftSize] at hcount hfill hoverlap
    omega
  have hone : 1 < e.rendered.length := by omega
  obtain ⟨-, hbins⟩ := hframes 1 hone
  obtain ⟨s, hrange, hsteered, -⟩ := hbins _ _ (by rw [htwo]) 0 (by decide)
  exact ⟨u, e, e.rendered[1], s, _, _, hprepared, he, List.getElem?_eq_getElem hone, rfl, hrange, hsteered⟩

end HaloUpmix

end ViperFx.Iem
