/-
The crossfade between two graphs: `src/GraphCrossfade.cpp`.

A table has the gains of every frame of a transition. `Start` sets the position to its beginning, `Apply` mixes the frames of a
block until the table ends, and the transition is over when it has. A frame is the two samples of a channel pair, and a block has the
frames of the wet and of the dry buffer; what is done with samples is that of `GainOps`. A read outside of a table has no result.

Results:
  · after_apply      : a block after some frames of a transition
  · fade_remaining   : the graphs of the IEM chain count down the frames that are left
  · crossfade_split  : a transition does not depend on how the signals are split
-/
import ViperFx.Core.Stream
import ViperFx.Driver.IemContext

namespace ViperFx.Driver

open ViperFx.Core

inductive CrossfadeMode where
  | crossfade
  | fadeThroughSilence
  deriving DecidableEq

/-- what is done with gains and samples -/
structure GainOps (F : Type) where
  zero : F
  one : F
  mul : F → F → F
  add : F → F → F
  isFinite : F → Bool
  isPositive : F → Bool
  /-- the frames of some milliseconds at a sample rate, rounded -/
  llround : (sampleRate : UInt32) → (durationMs : F) → ℕ
  /-- one position over another -/
  quotient : ℕ → ℕ → F
  /-- the normalized gains of the crossfade at a progress -/
  dryGain : F → F
  wetGain : F → F
  /-- a progress is at most one half -/
  isFirstHalf : F → Bool
  /-- the gains of the fade to silence and back -/
  fadeOut : F → F
  fadeIn : F → F

/-- the gains of a transition, as many of one kind as of the other -/
structure GainTables (F : Type) where
  dryGains : List F := []
  wetGains : List F := []
  sizes : dryGains.length = wetGains.length := by rfl

structure GraphCrossfade (F : Type) where
  tables : GainTables F := {}
  position : ℕ := 0
  active : Bool := false
  mode : CrossfadeMode := .crossfade

namespace GraphCrossfade

variable {F : Type}

/-! ## The code -/

def transitionFrames (c : GraphCrossfade F) : ℕ := c.tables.wetGains.length

def reset (c : GraphCrossfade F) : GraphCrossfade F :=
  { c with position := c.transitionFrames, active := false, mode := .crossfade }

def progress (ops : GainOps F) (position frames : ℕ) : F := if frames = 1 then ops.one else ops.quotient position (frames - 1)

/-- the tables of a number of frames -/
def gainTables (ops : GainOps F) (frames : ℕ) : GainTables F :=
  if frames = 1 then { dryGains := [ops.zero], wetGains := [ops.one] }
  else
    { dryGains := (List.range frames).map fun i => ops.dryGain (ops.quotient i (frames - 1))
      wetGains := (List.range frames).map fun i => ops.wetGain (ops.quotient i (frames - 1))
      sizes := by simp }

def prepare (ops : GainOps F) (c : GraphCrossfade F) (sampleRate : UInt32) (durationMs : F) : Option (GraphCrossfade F) :=
  if !isSupportedSampleRate sampleRate || !ops.isFinite durationMs || !ops.isPositive durationMs then none
  else some (reset { c with tables := gainTables ops (max 1 (ops.llround sampleRate durationMs)) })

/-- what both kinds of transition start with -/
def start (c : GraphCrossfade F) (mode : CrossfadeMode) : GraphCrossfade F :=
  if c.tables.wetGains.isEmpty then { c with active := false, position := 0 }
  else { c with position := 0, active := true, mode }

def startDryToWet (c : GraphCrossfade F) : GraphCrossfade F := c.start .crossfade

def startFadeThroughSilence (c : GraphCrossfade F) : GraphCrossfade F := c.start .fadeThroughSilence

def isActive (c : GraphCrossfade F) : Bool := c.active

def remainingFrames (c : GraphCrossfade F) : ℕ :=
  if !c.active || c.transitionFrames ≤ c.position then 0 else c.transitionFrames - c.position

variable (ops : GainOps F)

/-- the gains at the position, of the dry and of the wet sample -/
def gains (c : GraphCrossfade F) : Option (F × F) := do
  let dryGain ← c.tables.dryGains[c.position]?
  let wetGain ← c.tables.wetGains[c.position]?
  match c.mode with
  | .crossfade => some (dryGain, wetGain)
  | .fadeThroughSilence =>
    let progress := progress ops c.position c.transitionFrames
    if ops.isFirstHalf progress then some (ops.fadeOut progress, ops.zero) else some (ops.zero, ops.fadeIn progress)

/-- a frame of two samples, mixed with gains -/
def mixFrame (gains : F × F) (wet dry : F × F) : F × F :=
  (ops.add (ops.mul dry.1 gains.1) (ops.mul wet.1 gains.2), ops.add (ops.mul dry.2 gains.1) (ops.mul wet.2 gains.2))

/-- the loop over some frames of a block; the others stay as they are -/
def mixFrames (c : GraphCrossfade F) : ℕ → List ((F × F) × (F × F)) → Option (GraphCrossfade F × List (F × F))
  | frames + 1, (wet, dry) :: block => do
    let gains ← c.gains ops
    let rest ← mixFrames { c with position := c.position + 1 } frames block
    some (rest.1, mixFrame ops gains wet dry :: rest.2)
  | _, block => some (c, block.map Prod.fst)

/-- `Apply` to a block of wet and dry frames: the wet ones after it -/
def apply (c : GraphCrossfade F) (block : List ((F × F) × (F × F))) : Option (GraphCrossfade F × List (F × F)) :=
  if !c.active || block.isEmpty then some (c, block.map Prod.fst)
  else do
    let mixed ← c.mixFrames ops (min block.length c.remainingFrames) block
    some ({ mixed.1 with active := mixed.1.active && mixed.1.position < mixed.1.transitionFrames }, mixed.2)

/-- blocks one after the other -/
def applyAll (c : GraphCrossfade F) : List (List ((F × F) × (F × F))) → Option (GraphCrossfade F × List (List (F × F)))
  | [] => some (c, [])
  | block :: blocks => do
    let mixed ← c.apply ops block
    let rest ← applyAll mixed.1 blocks
    some (rest.1, mixed.2 :: rest.2)

/-! ## A frame of a transition -/

/-- the gains of a frame of a transition -/
def gainsAt (c : GraphCrossfade F) (i : ℕ) : Option (F × F) := { c with position := i }.gains ops

/-- a frame after a transition, with its number from the start on -/
def faded (c : GraphCrossfade F) (i : ℕ) (frame : (F × F) × (F × F)) : F × F :=
  (gainsAt ops c i).elim frame.1 fun gains => mixFrame ops gains frame.1 frame.2

/-- the frames of a block that begins at some frame of a transition -/
def fadedFrom (c : GraphCrossfade F) (i : ℕ) : List ((F × F) × (F × F)) → List (F × F)
  | [] => []
  | frame :: block => faded ops c i frame :: fadedFrom c (i + 1) block

variable {ops} {c : GraphCrossfade F}

/-- there are gains for the frames of a transition -/
theorem gainsAt_of_lt {i : ℕ} (hi : i < c.transitionFrames) : ∃ gains, gainsAt ops c i = some gains := by
  have hwet : i < c.tables.wetGains.length := hi
  have hdry : i < c.tables.dryGains.length := c.tables.sizes ▸ hi
  unfold gainsAt gains
  dsimp only
  rw [List.getElem?_eq_getElem hdry, List.getElem?_eq_getElem hwet, Option.bind_eq_bind, Option.bind_some, Option.bind_some]
  cases c.mode with
  | crossfade => exact ⟨_, rfl⟩
  | fadeThroughSilence =>
    dsimp only
    split_ifs
    · exact ⟨_, rfl⟩
    · exact ⟨_, rfl⟩

/-- and there are none for other frames -/
theorem gainsAt_of_ge {i : ℕ} (hi : c.transitionFrames ≤ i) : gainsAt ops c i = none := by
  have hdry : c.tables.dryGains.length ≤ i := c.tables.sizes ▸ hi
  unfold gainsAt gains
  dsimp only
  rw [List.getElem?_eq_none hdry]
  rfl

theorem fadedFrom_append (i : ℕ) (block rest : List ((F × F) × (F × F))) :
    fadedFrom ops c i (block ++ rest) = fadedFrom ops c i block ++ fadedFrom ops c (i + block.length) rest := by
  induction block generalizing i with
  | nil => rfl
  | cons frame block ih =>
    rw [List.cons_append, fadedFrom, fadedFrom, ih, List.length_cons, Nat.add_right_comm, Nat.add_assoc]
    rfl

theorem fadedFrom_done {i : ℕ} (hi : c.transitionFrames ≤ i) (block : List ((F × F) × (F × F))) :
    fadedFrom ops c i block = block.map Prod.fst := by
  induction block generalizing i with
  | nil => rfl
  | cons frame block ih =>
    rw [fadedFrom, ih (by omega), List.map_cons, faded, gainsAt_of_ge hi]
    rfl

theorem length_fadedFrom (i : ℕ) (block : List ((F × F) × (F × F))) : (fadedFrom ops c i block).length = block.length := by
  induction block generalizing i with
  | nil => rfl
  | cons frame block ih => rw [fadedFrom, List.length_cons, List.length_cons, ih]

/-- the frames of a block that a transition still mixes, and the others -/
theorem fadedFrom_take {i frames : ℕ} {block : List ((F × F) × (F × F))} (hblock : frames ≤ block.length)
    (hend : frames = block.length ∨ c.transitionFrames ≤ i + frames) :
    fadedFrom ops c i (block.take frames) ++ (block.drop frames).map Prod.fst = fadedFrom ops c i block := by
  conv_rhs => rw [← List.take_append_drop frames block, fadedFrom_append, List.length_take_of_le hblock]
  rcases hend with rfl | hend
  · rw [List.drop_length]
    rfl
  · rw [fadedFrom_done hend]

/-- frames behind a transition stay as they are -/
theorem drop_fadedFrom (block : List ((F × F) × (F × F))) :
    (fadedFrom ops c 0 block).drop c.transitionFrames = (block.drop c.transitionFrames).map Prod.fst := by
  rcases Nat.le_total c.transitionFrames block.length with hin | hout
  · have hlength : (fadedFrom ops c 0 (block.take c.transitionFrames)).length = c.transitionFrames := by
      rw [length_fadedFrom, List.length_take_of_le hin]
    rw [← fadedFrom_take hin (Or.inr (Nat.le_add_left _ _)), List.drop_left' hlength]
  · rw [List.drop_of_length_le (by rw [length_fadedFrom]; exact hout), List.drop_of_length_le hout]
    rfl

/-! ## A block of a transition -/

/-- a transition after some frames -/
def after (c : GraphCrossfade F) (frames : ℕ) : GraphCrossfade F :=
  { c with position := min frames c.transitionFrames, active := decide (frames < c.transitionFrames) }

/-- a transition begins with its first frame -/
theorem start_eq (c : GraphCrossfade F) (mode : CrossfadeMode) : c.start mode = (c.start mode).after 0 := by
  unfold start
  split_ifs with hempty
  · have hnone : c.tables.wetGains.length = 0 := by rw [List.isEmpty_iff.mp hempty, List.length_nil]
    unfold after transitionFrames
    dsimp only
    rw [hnone]
    rfl
  · have hsome : 0 < c.tables.wetGains.length := by
      rw [List.isEmpty_iff] at hempty
      exact List.length_pos_iff.mpr hempty
    unfold after transitionFrames
    dsimp only
    rw [Nat.zero_min, decide_eq_true hsome]

theorem start_tables (c : GraphCrossfade F) (mode : CrossfadeMode) : (c.start mode).tables = c.tables := by
  unfold start
  split <;> rfl

/-- the loop over frames of a transition that are not past its end -/
theorem mixFrames_eq {frames i : ℕ} {active : Bool} {block : List ((F × F) × (F × F))} (hblock : frames ≤ block.length)
    (hend : i + frames ≤ c.transitionFrames) :
    mixFrames ops { c with position := i, active } frames block =
      some ({ c with position := i + frames, active },
        fadedFrom ops c i (block.take frames) ++ (block.drop frames).map Prod.fst) := by
  induction frames generalizing i block with
  | zero =>
    cases block with
    | nil => rfl
    | cons frame block => rfl
  | succ frames ih =>
    cases block with
    | nil => exact absurd hblock (Nat.not_succ_le_zero _)
    | cons frame block =>
      obtain ⟨wet, dry⟩ := frame
      obtain ⟨gains, hgains⟩ : ∃ gains, gainsAt ops c i = some gains := gainsAt_of_lt (by omega)
      have hread : GraphCrossfade.gains ops { c with position := i, active } = some gains := hgains
      have hlast : i + 1 + frames ≤ c.transitionFrames := by omega
      have hrest := ih (Nat.le_of_succ_le_succ hblock) hlast
      rw [mixFrames, hread, Option.bind_eq_bind, Option.bind_some]
      dsimp only
      rw [hrest, Option.bind_eq_bind, Option.bind_some, List.take_succ_cons, fadedFrom, List.drop_succ_cons, faded, hgains,
        Nat.add_right_comm, Nat.add_assoc]
      rfl

/-- the frames left of a transition, as the graphs count them down; it is active as long as there are some -/
theorem remaining_after (c : GraphCrossfade F) (frames : ℕ) : (c.after frames).remainingFrames = c.transitionFrames - frames := by
  have hframes : (c.after frames).transitionFrames = c.transitionFrames := rfl
  have hposition : (c.after frames).position = min frames c.transitionFrames := rfl
  have hactive : (c.after frames).active = decide (frames < c.transitionFrames) := rfl
  unfold remainingFrames
  rw [hframes, hposition, hactive]
  rcases Nat.lt_or_ge frames c.transitionFrames with hrunning | hended
  · have hmore : decide (c.transitionFrames ≤ frames) = false := decide_eq_false (not_le.mpr hrunning)
    rw [min_eq_left hrunning.le, decide_eq_true hrunning, hmore]
    rfl
  · rw [decide_eq_false (not_lt.mpr hended), Nat.sub_eq_zero_of_le hended]
    rfl

variable (ops) in
/-- **A block of a transition.** Whatever has been applied before, the frames up to the end of the transition are mixed, every gain
is read inside of the tables, and the transition goes on behind the block. -/
theorem after_apply (c : GraphCrossfade F) (frames : ℕ) (block : List ((F × F) × (F × F))) :
    (c.after frames).apply ops block = some (c.after (frames + block.length), fadedFrom ops c frames block) := by
  rcases Nat.lt_or_ge frames c.transitionFrames with hrunning | hended
  · have hactive : (c.after frames).active = true := decide_eq_true hrunning
    have hleft := remaining_after c frames
    have hat : c.after frames = { c with position := frames, active := true } := by
      unfold after
      rw [min_eq_left hrunning.le, decide_eq_true hrunning]
    cases block with
    | nil =>
      unfold apply
      rw [hactive]
      rfl
    | cons frame rest =>
      generalize hblock : frame :: rest = block
      have hsome : block.isEmpty = false := by rw [← hblock]; rfl
      obtain ⟨mixed, hcount⟩ : ∃ mixed, min block.length (c.transitionFrames - frames) = mixed := ⟨_, rfl⟩
      have hmixed : mixFrames ops { c with position := frames, active := true } mixed block =
          some ({ c with position := frames + mixed, active := true }, fadedFrom ops c frames block) := by
        rw [mixFrames_eq (by omega) (by omega), fadedFrom_take (by omega) (by omega)]
      have hposition : min (frames + block.length) c.transitionFrames = frames + mixed := by omega
      have hmore : frames + mixed < c.transitionFrames ↔ frames + block.length < c.transitionFrames := by omega
      unfold apply
      rw [hactive, hsome, hleft, hat, hcount, hmixed, if_neg (show ¬(!true || false) = true from Bool.false_ne_true),
        Option.bind_eq_bind, Option.bind_some]
      unfold after
      rw [hposition, ← decide_eq_decide.mpr hmore]
      rfl
  -- the transition is over, and nothing more is done
  · have hidle : (c.after frames).active = false := decide_eq_false (not_lt.mpr hended)
    have hlater : c.after (frames + block.length) = c.after frames := by
      unfold after
      rw [min_eq_right hended, min_eq_right (by omega), decide_eq_false (not_lt.mpr hended), decide_eq_false (by omega)]
    unfold apply
    rw [hidle, hlater, fadedFrom_done hended]
    rfl

/-- the graphs of the IEM chain count the frames down that are left of their transition -/
theorem fade_remaining {g : IemGraph} {frames : ℕ} (h : g.remainingFrames = (c.after frames).remainingFrames)
    {block : List ((F × F) × (F × F))} {c' : GraphCrossfade F} {wet : List (F × F)}
    (happly : (c.after frames).apply ops block = some (c', wet)) :
    (IemContext.IemGraph.fade g block.length).remainingFrames = c'.remainingFrames := by
  rw [after_apply] at happly
  obtain ⟨rfl, -⟩ := Prod.mk.inj (Option.some.inj happly)
  rw [IemContext.IemGraph.fade, h, remaining_after, remaining_after, Nat.sub_sub]

/-- a prepared crossfade is at the end of its tables, which have the frames of its duration -/
theorem prepare_frames {c' : GraphCrossfade F} {sampleRate : UInt32} {durationMs : F}
    (h : prepare ops c sampleRate durationMs = some c') :
    c'.transitionFrames = max 1 (ops.llround sampleRate durationMs) ∧ c'.position = c'.transitionFrames ∧
      c'.isActive = false := by
  unfold prepare at h
  split_ifs at h
  obtain rfl := Option.some.inj h
  refine ⟨?_, rfl, rfl⟩
  show (gainTables ops (max 1 (ops.llround sampleRate durationMs))).wetGains.length = _
  unfold gainTables
  split_ifs with hone
  · exact hone.symm
  · rw [List.length_map, List.length_range]

variable (ops) in
/-- blocks of a transition, one after the other -/
theorem after_applyAll (c : GraphCrossfade F) (frames : ℕ) (blocks : List (List ((F × F) × (F × F)))) :
    ∃ wets, (c.after frames).applyAll ops blocks = some (c.after (frames + blocks.flatten.length), wets) ∧
      wets.map List.length = blocks.map List.length ∧ wets.flatten = fadedFrom ops c frames blocks.flatten := by
  induction blocks generalizing frames with
  | nil => exact ⟨[], rfl, rfl, rfl⟩
  | cons block blocks ih =>
    obtain ⟨wets, hrest, hlengths, hflatten⟩ := ih (frames + block.length)
    refine ⟨fadedFrom ops c frames block :: wets, ?_, ?_, ?_⟩
    · rw [applyAll, after_apply, Option.bind_eq_bind, Option.bind_some]
      dsimp only
      rw [hrest, Option.bind_eq_bind, Option.bind_some, List.flatten_cons, List.length_append, Nat.add_assoc]
    · rw [List.map_cons, List.map_cons, length_fadedFrom, hlengths]
    · rw [List.flatten_cons, List.flatten_cons, fadedFrom_append, hflatten]

/-- **A transition does not depend on how the signals are split.** From a start in either mode, blocks give the frames and the
state that one block of them all gives, with every gain read inside of the tables; the position stays within the tables, the frames
behind the transition are left as they are, and it is active until all of its frames have been applied. -/
theorem crossfade_split (ops : GainOps F) (c : GraphCrossfade F) (mode : CrossfadeMode)
    (blocks : List (List ((F × F) × (F × F)))) :
    ∃ c' wets, (c.start mode).applyAll ops blocks = some (c', wets) ∧
      (c.start mode).apply ops blocks.flatten = some (c', wets.flatten) ∧
      wets.map List.length = blocks.map List.length ∧
      c'.position ≤ c'.tables.wetGains.length ∧ c'.tables = c.tables ∧
      wets.flatten.drop c.transitionFrames = (blocks.flatten.drop c.transitionFrames).map Prod.fst ∧
      (c'.isActive = false ↔ c.transitionFrames ≤ blocks.flatten.length) := by
  have hstart := start_eq c mode
  have htables := start_tables c mode
  generalize c.start mode = s at hstart htables
  have hframes : c.transitionFrames = s.transitionFrames := by rw [transitionFrames, transitionFrames, htables]
  obtain ⟨wets, hall, hlengths, hflatten⟩ := after_applyAll ops s 0 blocks
  have hone := after_apply ops s 0 blocks.flatten
  rw [← hstart] at hall hone
  refine ⟨_, wets, hall, ?_, hlengths, min_le_right _ _, htables, ?_, ?_⟩
  · rw [hone, hflatten]
  · rw [hframes, hflatten, drop_fadedFrom]
  · rw [hframes, isActive, after, decide_eq_false_iff_not, not_lt, Nat.zero_add]

end GraphCrossfade

end ViperFx.Driver
