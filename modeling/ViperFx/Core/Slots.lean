/-
Handing objects from a control thread to an audio thread through one atomic word.

The word packs three two-bit indices: the object in use, the one prepared to replace it, and the one it replaced. The
control thread prepares an object outside the word and publishes it by compare-and-swap, the audio thread swaps it in and
later gives the replaced one back. A step of the machine is one atomic access to the word, or the return of one of the
two calls that fill an object (`Prepare`, `ApplyTo`), so a long preparation stands between a load and its
compare-and-swap. A weak compare-and-swap may fail spuriously; a failed one reloads, as the loops of the source do.

What a user of the protocol chooses is its `Layout`: how many objects there are, and which of them may be prepared when
the word reads so and so.

Results:
  · pack_active, pack_pending, pack_previous : the indices packed are the indices read
  · step_moves         : everything a step can do
  · Moves.inv          : the step lemma of the protocol invariant
  · Moves.newer        : where one object replaces another, it is of a later generation
  · Moves.fresh_active : a retracted object becomes active only after it was prepared again
  · Moves.named        : what is known of an object when it is filled, while it is pending, and while it is active
  · control_leaves     : the indices that the control thread leaves to the audio thread
-/
import ViperFx.Core.Log

namespace ViperFx.Core.Slots

/-! ## The word -/

def kNone : UInt32 := 3

def pack (active pending previous : UInt32) : UInt32 := active ||| (pending <<< 2) ||| (previous <<< 4)

def activeIndex (state : UInt32) : UInt32 := state &&& 3

def pendingIndex (state : UInt32) : UInt32 := (state >>> 2) &&& 3

def previousIndex (state : UInt32) : UInt32 := (state >>> 4) &&& 3

def empty : UInt32 := pack kNone kNone kNone

/-- the word a new protocol starts with -/
example : empty = 0x3F := by decide

theorem and_three_lt (w : UInt32) : w &&& 3 < 4 := by
  have h : (w &&& 3).toNat ≤ 3 := by
    rw [UInt32.toNat_and]
    exact Nat.and_le_right
  exact Nat.lt_succ_of_le h

theorem activeIndex_lt (w : UInt32) : activeIndex w < 4 := and_three_lt w

theorem pendingIndex_lt (w : UInt32) : pendingIndex w < 4 := and_three_lt _

theorem previousIndex_lt (w : UInt32) : previousIndex w < 4 := and_three_lt _

theorem kNone_lt : kNone < 4 := by decide

theorem lt_four {a : UInt32} (h : a < 4) : a = 0 ∨ a = 1 ∨ a = 2 ∨ a = 3 := by
  have hlt : a.toNat < 4 := h
  have hof : a = UInt32.ofNat a.toNat := by simp
  rw [hof]
  interval_cases a.toNat <;> decide

section Pack

variable {a p q : UInt32}

/-- the three indices come back out of the word -/
theorem pack_read (ha : a < 4) (hp : p < 4) (hq : q < 4) :
    activeIndex (pack a p q) = a ∧ pendingIndex (pack a p q) = p ∧ previousIndex (pack a p q) = q := by
  obtain rfl | rfl | rfl | rfl := lt_four ha <;> obtain rfl | rfl | rfl | rfl := lt_four hp <;>
    obtain rfl | rfl | rfl | rfl := lt_four hq <;> decide

theorem pack_active (ha : a < 4) (hp : p < 4) (hq : q < 4) : activeIndex (pack a p q) = a := (pack_read ha hp hq).1

theorem pack_pending (ha : a < 4) (hp : p < 4) (hq : q < 4) : pendingIndex (pack a p q) = p := (pack_read ha hp hq).2.1

theorem pack_previous (ha : a < 4) (hp : p < 4) (hq : q < 4) : previousIndex (pack a p q) = q :=
  (pack_read ha hp hq).2.2

end Pack

/-! ## The machine -/

/-- how the objects of one protocol are chosen and compared -/
structure Layout (C : Type) where
  /-- the number of objects -/
  count : UInt32
  /-- which object may be prepared to replace the active one, when the word reads so -/
  target : UInt32 → Option UInt32
  /-- whether `Prepare` takes a configuration -/
  valid : C → Bool
  generation : C → UInt64
  count_pos : 0 < count
  count_le : count ≤ 3
  target_waits : ∀ w t, target w = some t → activeIndex w ≠ kNone ∧ pendingIndex w = kNone
  target_apart : ∀ w t, target w = some t → activeIndex w < count →
    t < count ∧ t ≠ activeIndex w ∧ t ≠ previousIndex w

/-- where the control thread is; `initial` tells PrepareInitial from PreparePending -/
inductive Call (C : Type) where
  | idle
  /-- inside `Prepare` of the target -/
  | preparing (initial : Bool) (target : UInt32) (config : C) (expected : UInt32)
  /-- inside `ApplyTo` of the target -/
  | applying (initial : Bool) (target : UInt32) (expected : UInt32)
  /-- before the compare-and-swap that publishes the target -/
  | publishing (initial : Bool) (target : UInt32) (expected : UInt32)
  | retracting (expected : UInt32)
  | releasing (expected : UInt32)

/-- where the audio thread is -/
inductive Take where
  | idle
  | consuming (expected : UInt32)
  | releasing (expected : UInt32)
  deriving DecidableEq

structure State (C : Type) where
  word : UInt32 := empty
  /-- the configuration each object was last prepared with -/
  config : UInt32 → C
  control : Call C := .idle
  audio : Take := .idle

/-- an atomic step of one of the two threads -/
inductive Act (C : Type) where
  | prepareInitial (config : C)
  | preparePending (config : C)
  | retractPending
  | releasePrevious
  /-- `Prepare` returns; a valid configuration may still be refused -/
  | prepared (ok : Bool)
  /-- `ApplyTo` returns -/
  | applied (ok : Bool)
  | exchange (spurious : Bool)
  | consumePending
  | audioRelease
  | audioExchange (spurious : Bool)

/-- what a step did that the rest of a run can be asked about -/
inductive Outcome where
  | silent
  /-- PreparePending has filled the object -/
  | prepared (target : UInt32)
  | published (target : UInt32)
  | retracted (index : UInt32)
  /-- ConsumePending returns with the pending object now active -/
  | swapped (previous active : UInt32)
  /-- ConsumePending returns with nothing changed -/
  | consumed (active : UInt32)
  deriving DecidableEq

section Machine

variable {C : Type} (L : Layout C)

/-- the loop of RetractPending after a load -/
def retractLoop (s : State C) : State C :=
  if pendingIndex s.word = kNone then { s with control := .idle } else { s with control := .retracting s.word }

/-- the loop of ReleasePrevious after a load, on the control thread -/
def releaseLoop (s : State C) : State C :=
  if previousIndex s.word = kNone then { s with control := .idle } else { s with control := .releasing s.word }

/-- the loop of ConsumePending after a load -/
def consumeLoop (s : State C) : State C × Outcome :=
  if pendingIndex s.word = kNone then ({ s with audio := .idle }, .consumed (activeIndex s.word))
  else ({ s with audio := .consuming s.word }, .silent)

/-- the loop of ReleasePrevious after a load, on the audio thread -/
def audioReleaseLoop (s : State C) : State C :=
  if previousIndex s.word = kNone then { s with audio := .idle } else { s with audio := .releasing s.word }

/-- what PrepareInitial and PreparePending publish -/
def desired (initial : Bool) (target expected : UInt32) : UInt32 :=
  if initial then pack 0 kNone kNone else pack (activeIndex expected) target kNone

def step (s : State C) : Act C → State C × Outcome
  | .prepareInitial config =>
    match s.control with
    | .idle => if s.word ≠ empty then (s, .silent) else ({ s with control := .preparing true 0 config empty }, .silent)
    | _ => (s, .silent)
  | .preparePending config =>
    match s.control, L.target s.word with
    | .idle, some t =>
      if L.generation config ≤ L.generation (s.config (activeIndex s.word)) then (s, .silent)
      else ({ s with control := .preparing false t config s.word }, .silent)
    | _, _ => (s, .silent)
  | .retractPending =>
    match s.control with
    | .idle => (retractLoop s, .silent)
    | _ => (s, .silent)
  | .releasePrevious =>
    match s.control with
    | .idle => (releaseLoop s, .silent)
    | _ => (s, .silent)
  | .prepared ok =>
    match s.control with
    | .preparing initial t config e =>
      if L.valid config ∧ ok then
        ({ s with config := Function.update s.config t config, control := .applying initial t e }, .silent)
      else ({ s with control := .idle }, .silent)
    | _ => (s, .silent)
  | .applied ok =>
    match s.control with
    | .applying initial t e =>
      if !ok then ({ s with control := .idle }, .silent)
      else ({ s with control := .publishing initial t e }, if initial then .silent else .prepared t)
    | _ => (s, .silent)
  | .exchange spurious =>
    match s.control with
    | .publishing initial t e =>
      if s.word = e then ({ s with word := desired initial t e, control := .idle }, .published t)
      else ({ s with control := .idle }, .silent)
    | .retracting e =>
      if s.word = e ∧ !spurious then
        ({ s with word := pack (activeIndex e) kNone (previousIndex e), control := .idle }, .retracted (pendingIndex e))
      else (retractLoop s, .silent)
    | .releasing e =>
      if s.word = e ∧ !spurious then
        ({ s with word := pack (activeIndex e) (pendingIndex e) kNone, control := .idle }, .silent)
      else (releaseLoop s, .silent)
    | _ => (s, .silent)
  | .consumePending =>
    match s.audio with
    | .idle => consumeLoop s
    | _ => (s, .silent)
  | .audioRelease =>
    match s.audio with
    | .idle => (audioReleaseLoop s, .silent)
    | _ => (s, .silent)
  | .audioExchange spurious =>
    match s.audio with
    | .consuming e =>
      if s.word = e ∧ !spurious then
        ({ s with word := pack (pendingIndex e) kNone (activeIndex e), audio := .idle },
          .swapped (activeIndex e) (pendingIndex e))
      else consumeLoop s
    | .releasing e =>
      if s.word = e ∧ !spurious then
        ({ s with word := pack (activeIndex e) (pendingIndex e) kNone, audio := .idle }, .silent)
      else (audioReleaseLoop s, .silent)
    | .idle => (s, .silent)

/-! ## What a step can do -/

/-- a thread that goes on without touching the word: it returns, or it loaded the word for its loop -/
def Call.Turns (s : State C) (c : Call C) : Prop :=
  c = s.control ∨ c = .idle ∨ (c = .retracting s.word ∧ pendingIndex s.word ≠ kNone) ∨ c = .releasing s.word

def Take.Turns (s : State C) (a : Take) : Prop :=
  a = s.audio ∨ a = .idle ∨ (a = .consuming s.word ∧ pendingIndex s.word ≠ kNone) ∨ a = .releasing s.word

/-- everything a step of either thread can do -/
inductive Moves (s : State C) : State C → Outcome → Prop
  | turns (c : Call C) (a : Take) (o : Outcome) (hc : c.Turns s) (ha : a.Turns s)
      (ho : o = .silent ∨ (o = .consumed (activeIndex s.word) ∧ a = .idle)) : Moves s { s with control := c, audio := a } o
  | beginsInitial (config : C) (hword : s.word = empty) :
      Moves s { s with control := .preparing true 0 config empty } .silent
  | beginsPending (config : C) (t : UInt32) (htarget : L.target s.word = some t)
      (hnewer : L.generation (s.config (activeIndex s.word)) < L.generation config) :
      Moves s { s with control := .preparing false t config s.word } .silent
  | fills (initial : Bool) (t : UInt32) (config : C) (e : UInt32) (hat : s.control = .preparing initial t config e) :
      Moves s { s with config := Function.update s.config t config, control := .applying initial t e } .silent
  | applies (initial : Bool) (t e : UInt32) (hat : s.control = .applying initial t e) :
      Moves s { s with control := .publishing initial t e } (if initial then .silent else .prepared t)
  | publishes (initial : Bool) (t : UInt32) (hat : s.control = .publishing initial t s.word) :
      Moves s { s with word := desired initial t s.word, control := .idle } (.published t)
  | retracts (hat : s.control = .retracting s.word) :
      Moves s { s with word := pack (activeIndex s.word) kNone (previousIndex s.word), control := .idle }
        (.retracted (pendingIndex s.word))
  | releases (c : Call C) (a : Take)
      (hat : (s.control = .releasing s.word ∧ c = .idle ∧ a = s.audio) ∨
        (c = s.control ∧ s.audio = .releasing s.word ∧ a = .idle)) :
      Moves s { s with word := pack (activeIndex s.word) (pendingIndex s.word) kNone, control := c, audio := a } .silent
  | swaps (hat : s.audio = .consuming s.word) :
      Moves s { s with word := pack (pendingIndex s.word) kNone (activeIndex s.word), audio := .idle }
        (.swapped (activeIndex s.word) (pendingIndex s.word))

variable {L}

theorem Moves.stays (s : State C) : Moves L s s .silent := .turns s.control s.audio _ (.inl rfl) (.inl rfl) (.inl rfl)

/-- the control thread goes on without touching the word -/
theorem Moves.turnsControl {s : State C} {c : Call C} (hc : c.Turns s) : Moves L s { s with control := c } .silent :=
  .turns c s.audio _ hc (.inl rfl) (.inl rfl)

theorem retractLoop_moves (s : State C) : Moves L s (retractLoop s) .silent := by
  unfold retractLoop
  split_ifs with hpending
  · exact .turnsControl (.inr (.inl rfl))
  · exact .turnsControl (.inr (.inr (.inl ⟨rfl, hpending⟩)))

theorem releaseLoop_moves (s : State C) : Moves L s (releaseLoop s) .silent := by
  unfold releaseLoop
  split_ifs
  · exact .turnsControl (.inr (.inl rfl))
  · exact .turnsControl (.inr (.inr (.inr rfl)))

theorem consumeLoop_moves (s : State C) : Moves L s (consumeLoop s).1 (consumeLoop s).2 := by
  unfold consumeLoop
  split_ifs with hpending
  · exact .turns s.control .idle _ (.inl rfl) (.inr (.inl rfl)) (.inr ⟨rfl, rfl⟩)
  · exact .turns s.control (.consuming s.word) _ (.inl rfl) (.inr (.inr (.inl ⟨rfl, hpending⟩))) (.inl rfl)

theorem audioReleaseLoop_moves (s : State C) : Moves L s (audioReleaseLoop s) .silent := by
  unfold audioReleaseLoop
  split_ifs
  · exact .turns s.control .idle _ (.inl rfl) (.inr (.inl rfl)) (.inl rfl)
  · exact .turns s.control (.releasing s.word) _ (.inl rfl) (.inr (.inr (.inr rfl))) (.inl rfl)

theorem exchange_moves (s : State C) (spurious : Bool) :
    Moves L s (step L s (.exchange spurious)).1 (step L s (.exchange spurious)).2 := by
  cases hat : s.control with
  | publishing initial t e =>
    simp only [step, hat]
    split_ifs with hword
    · subst hword
      exact .publishes initial t hat
    · exact .turnsControl (.inr (.inl rfl))
  | retracting e =>
    simp only [step, hat]
    split_ifs with hword
    · obtain ⟨rfl, -⟩ := hword
      exact .retracts hat
    · exact retractLoop_moves s
  | releasing e =>
    simp only [step, hat]
    split_ifs with hword
    · obtain ⟨rfl, -⟩ := hword
      exact .releases .idle s.audio (.inl ⟨hat, rfl, rfl⟩)
    · exact releaseLoop_moves s
  | idle => simpa only [step, hat] using Moves.stays s
  | preparing => simpa only [step, hat] using Moves.stays s
  | applying => simpa only [step, hat] using Moves.stays s

theorem audioExchange_moves (s : State C) (spurious : Bool) :
    Moves L s (step L s (.audioExchange spurious)).1 (step L s (.audioExchange spurious)).2 := by
  cases hat : s.audio with
  | idle => simpa only [step, hat] using Moves.stays s
  | consuming e =>
    simp only [step, hat]
    split_ifs with hword
    · obtain ⟨rfl, -⟩ := hword
      exact .swaps hat
    · exact consumeLoop_moves s
  | releasing e =>
    simp only [step, hat]
    split_ifs with hword
    · obtain ⟨rfl, -⟩ := hword
      exact .releases s.control .idle (.inr ⟨rfl, hat, rfl⟩)
    · exact audioReleaseLoop_moves s

/-- `Moves` leaves out nothing a step does -/
theorem step_moves (s : State C) (a : Act C) : Moves L s (step L s a).1 (step L s a).2 := by
  cases a with
  | prepareInitial config =>
    simp only [step]
    split
    · split_ifs with hword
      · exact .stays s
      · exact .beginsInitial config (not_not.mp hword)
    · exact .stays s
  | preparePending config =>
    simp only [step]
    split
    · rename_i t _ htarget
      split_ifs with hold
      · exact .stays s
      · exact .beginsPending config t htarget (UInt64.not_le.mp hold)
    · exact .stays s
  | retractPending =>
    simp only [step]
    split
    · exact retractLoop_moves s
    · exact .stays s
  | releasePrevious =>
    simp only [step]
    split
    · exact releaseLoop_moves s
    · exact .stays s
  | prepared ok =>
    simp only [step]
    split
    · rename_i initial t config e hat
      split_ifs
      · exact .fills initial t config e hat
      · exact .turnsControl (.inr (.inl rfl))
    · exact .stays s
  | applied ok =>
    simp only [step]
    split
    · rename_i initial t e hat
      cases ok with
      | false => exact .turnsControl (.inr (.inl rfl))
      | true => exact .applies initial t e hat
    · exact .stays s
  | exchange spurious => exact exchange_moves s spurious
  | consumePending =>
    simp only [step]
    split
    · exact consumeLoop_moves s
    · exact .stays s
  | audioRelease =>
    simp only [step]
    split
    · exact audioReleaseLoop_moves s
    · exact .stays s
  | audioExchange spurious => exact audioExchange_moves s spurious

end Machine

/-! ## The invariant -/

section Invariant

variable {C : Type} (L : Layout C)

/-- the indices of the word are those of distinct objects, and a pending object waits behind an older active one -/
structure Arranged (s : State C) : Prop where
  active : activeIndex s.word ≠ kNone → activeIndex s.word < L.count
  pending : pendingIndex s.word ≠ kNone → pendingIndex s.word < L.count
  previous : previousIndex s.word ≠ kNone → previousIndex s.word < L.count
  activePending : activeIndex s.word ≠ kNone → activeIndex s.word ≠ pendingIndex s.word
  activePrevious : activeIndex s.word ≠ kNone → activeIndex s.word ≠ previousIndex s.word
  behind : pendingIndex s.word ≠ kNone → activeIndex s.word ≠ kNone ∧ previousIndex s.word = kNone
  newer : pendingIndex s.word ≠ kNone →
    L.generation (s.config (activeIndex s.word)) < L.generation (s.config (pendingIndex s.word))

/-- while PreparePending works on `t`, the word keeps what it loaded, up to a release of the previous object -/
structure Reserved (s : State C) (t e : UInt32) : Prop where
  target : L.target e = some t
  below : t < L.count
  apart : t ≠ activeIndex e
  aside : t ≠ previousIndex e
  active : activeIndex s.word = activeIndex e
  pending : pendingIndex s.word = kNone
  previous : previousIndex s.word = previousIndex e ∨ previousIndex s.word = kNone

/-- what the control thread can rely on where it is -/
def Call.Relies (s : State C) : Call C → Prop
  | .preparing true t _ e | .applying true t e | .publishing true t e => s.word = empty ∧ t = 0 ∧ e = empty
  | .preparing false t config e =>
    Reserved L s t e ∧ L.generation (s.config (activeIndex s.word)) < L.generation config
  | .applying false t e | .publishing false t e =>
    Reserved L s t e ∧ L.generation (s.config (activeIndex s.word)) < L.generation (s.config t)
  | .retracting e => pendingIndex e ≠ kNone
  | .idle | .releasing _ => True

def Take.Relies : Take → Prop
  | .consuming e => pendingIndex e ≠ kNone
  | .idle | .releasing _ => True

structure Inv (s : State C) : Prop where
  arranged : Arranged L s
  control : s.control.Relies L s
  audio : s.audio.Relies

variable {L} {s t : State C}

theorem empty_read : activeIndex empty = kNone ∧ pendingIndex empty = kNone ∧ previousIndex empty = kNone := by decide

theorem desired_initial (i e : UInt32) :
    activeIndex (desired true i e) = 0 ∧ pendingIndex (desired true i e) = kNone :=
  (pack_read (by decide) kNone_lt kNone_lt).imp_right And.left

/-- a word without indices is arranged -/
theorem Arranged.of_empty (hword : s.word = empty) : Arranged L s := by
  have hactive : activeIndex s.word = kNone := hword ▸ empty_read.1
  have hpending : pendingIndex s.word = kNone := hword ▸ empty_read.2.1
  have hprevious : previousIndex s.word = kNone := hword ▸ empty_read.2.2
  exact ⟨absurd hactive, absurd hpending, absurd hprevious, absurd hactive, absurd hactive, absurd hpending,
    absurd hpending⟩

theorem lt_four_of_count {i : UInt32} (h : i < L.count) : i < 4 := by
  have hi : i.toNat < L.count.toNat := h
  have hcount : L.count.toNat ≤ 3 := L.count_le
  exact Nat.lt_of_lt_of_le hi (Nat.le_succ_of_le hcount)

theorem init_inv (config : UInt32 → C) : Inv L { config } := ⟨.of_empty rfl, trivial, trivial⟩

/-- the word and the configurations it names decide whether a state is arranged -/
theorem Arranged.congr (h : Arranged L s) (hword : t.word = s.word)
    (hactive : t.config (activeIndex s.word) = s.config (activeIndex s.word))
    (hpending : pendingIndex s.word ≠ kNone → t.config (pendingIndex s.word) = s.config (pendingIndex s.word)) :
    Arranged L t := by
  refine ⟨hword ▸ h.active, hword ▸ h.pending, hword ▸ h.previous, hword ▸ h.activePending, hword ▸ h.activePrevious,
    hword ▸ h.behind, ?_⟩
  rw [hword]
  intro hp
  rw [hactive, hpending hp]
  exact h.newer hp

theorem Reserved.congr {i e : UInt32} (h : Reserved L s i e) (hword : t.word = s.word) : Reserved L t i e :=
  { h with active := hword ▸ h.active, pending := hword ▸ h.pending, previous := hword ▸ h.previous }

theorem Reserved.live {i e : UInt32} (h : Reserved L s i e) : activeIndex s.word ≠ kNone :=
  h.active ▸ (L.target_waits e i h.target).1

/-- what the control thread relies on is a matter of the word and the configurations -/
theorem Call.Relies.congr {c : Call C} (h : c.Relies L s) (hword : t.word = s.word) (hconfig : t.config = s.config) :
    c.Relies L t := by
  cases c with
  | idle => trivial
  | releasing => trivial
  | retracting => exact h
  | preparing initial i config e =>
    cases initial with
    | true => exact ⟨hword.trans h.1, h.2⟩
    | false => exact ⟨h.1.congr hword, by rw [hword, hconfig]; exact h.2⟩
  | applying initial i e =>
    cases initial with
    | true => exact ⟨hword.trans h.1, h.2⟩
    | false => exact ⟨h.1.congr hword, by rw [hword, hconfig]; exact h.2⟩
  | publishing initial i e =>
    cases initial with
    | true => exact ⟨hword.trans h.1, h.2⟩
    | false => exact ⟨h.1.congr hword, by rw [hword, hconfig]; exact h.2⟩

/-! ## One step -/

theorem Arranged.turns (h : Arranged L s) (c : Call C) (a : Take) : Arranged L { s with control := c, audio := a } :=
  h.congr rfl rfl fun _ => rfl

/-- the object that is being prepared is not the active one -/
theorem Inv.filled {initial : Bool} {i e : UInt32} {config : C} (h : Inv L s)
    (hat : s.control = .preparing initial i config e) : i ≠ activeIndex s.word ∧ pendingIndex s.word = kNone := by
  have hrelies := h.control
  rw [hat] at hrelies
  cases initial with
  | true =>
    obtain ⟨hword, rfl, -⟩ := hrelies
    rw [hword]
    decide
  | false =>
    obtain ⟨hreserved, -⟩ := hrelies
    rw [hreserved.active]
    exact ⟨hreserved.apart, hreserved.pending⟩

theorem Inv.fills {initial : Bool} {i e : UInt32} {config : C} (h : Inv L s)
    (hat : s.control = .preparing initial i config e) :
    Inv L { s with config := Function.update s.config i config, control := .applying initial i e } := by
  obtain ⟨hactive, hpending⟩ := h.filled hat
  have hsame : Function.update s.config i config (activeIndex s.word) = s.config (activeIndex s.word) :=
    Function.update_of_ne hactive.symm _ _
  refine ⟨h.arranged.congr rfl hsame fun hne => absurd hpending hne, ?_, h.audio⟩
  have hrelies := h.control
  rw [hat] at hrelies
  cases initial with
  | true => exact hrelies
  | false =>
    refine ⟨hrelies.1.congr rfl, ?_⟩
    show L.generation (Function.update s.config i config _) < L.generation (Function.update s.config i config i)
    rw [hsame, Function.update_self]
    exact hrelies.2

theorem Inv.publishes {initial : Bool} {i : UInt32} (h : Inv L s) (hat : s.control = .publishing initial i s.word) :
    Inv L { s with word := desired initial i s.word, control := .idle } := by
  have hrelies := h.control
  rw [hat] at hrelies
  refine ⟨?_, trivial, h.audio⟩
  cases initial with
  | true =>
    have hone : (0 : UInt32) < L.count := L.count_pos
    refine ⟨?_, ?_, ?_, ?_, ?_, ?_, ?_⟩ <;> simp only [desired, if_true] <;> intro hne
    · exact hone
    · exact absurd (by decide) hne
    · exact absurd (by decide) hne
    · decide
    · decide
    · exact absurd (by decide) hne
    · exact absurd (by decide) hne
  | false =>
    obtain ⟨hreserved, hnewer⟩ := hrelies
    obtain ⟨hreada, hreadp, hreadq⟩ := pack_read (activeIndex_lt s.word) (lt_four_of_count hreserved.below) kNone_lt
    refine ⟨?_, ?_, ?_, ?_, ?_, ?_, ?_⟩ <;>
      simp only [desired, Bool.false_eq_true, if_false, hreada, hreadp, hreadq] <;> intro hne
    · exact h.arranged.active hne
    · exact hreserved.below
    · exact absurd rfl hne
    · exact hreserved.apart.symm
    · exact hne
    · exact ⟨hreserved.live, trivial⟩
    · exact hnewer

theorem Inv.retracts (h : Inv L s) :
    Inv L { s with word := pack (activeIndex s.word) kNone (previousIndex s.word), control := .idle } := by
  obtain ⟨hreada, hreadp, hreadq⟩ := pack_read (activeIndex_lt s.word) kNone_lt (previousIndex_lt s.word)
  refine ⟨⟨?_, ?_, ?_, ?_, ?_, ?_, ?_⟩, trivial, h.audio⟩ <;> simp only [hreada, hreadp, hreadq] <;> intro hne
  · exact h.arranged.active hne
  · exact absurd rfl hne
  · exact h.arranged.previous hne
  · exact hne
  · exact h.arranged.activePrevious hne
  · exact absurd rfl hne
  · exact absurd rfl hne

theorem Arranged.releases (h : Arranged L s) (c : Call C) (a : Take) :
    Arranged L { s with
      word := pack (activeIndex s.word) (pendingIndex s.word) kNone, control := c, audio := a } := by
  obtain ⟨hreada, hreadp, hreadq⟩ := pack_read (activeIndex_lt s.word) (pendingIndex_lt s.word) kNone_lt
  refine ⟨?_, ?_, ?_, ?_, ?_, ?_, ?_⟩ <;> simp only [hreada, hreadp, hreadq] <;> intro hne
  · exact h.active hne
  · exact h.pending hne
  · exact absurd rfl hne
  · exact h.activePending hne
  · exact hne
  · exact ⟨(h.behind hne).1, trivial⟩
  · exact h.newer hne

/-- a release by the audio thread leaves the control thread what it relies on -/
theorem Call.Relies.releases {c : Call C} (h : c.Relies L s) (a : Take) :
    c.Relies L { s with word := pack (activeIndex s.word) (pendingIndex s.word) kNone, audio := a } := by
  obtain ⟨hreada, hreadp, hreadq⟩ := pack_read (activeIndex_lt s.word) (pendingIndex_lt s.word) kNone_lt
  have hreserved : ∀ {i e : UInt32}, Reserved L s i e →
      Reserved L { s with word := pack (activeIndex s.word) (pendingIndex s.word) kNone, audio := a } i e :=
    fun hr => { hr with active := hreada.trans hr.active, pending := hreadp.trans hr.pending, previous := .inr hreadq }
  have hinitial : ∀ {i e : UInt32}, s.word = empty ∧ i = 0 ∧ e = empty →
      pack (activeIndex s.word) (pendingIndex s.word) kNone = empty ∧ i = 0 ∧ e = empty := by
    rintro i e ⟨hword, hi⟩
    exact ⟨by rw [hword]; decide, hi⟩
  cases c with
  | idle => trivial
  | releasing => trivial
  | retracting => exact h
  | preparing initial i config e =>
    cases initial with
    | true => exact hinitial h
    | false => exact ⟨hreserved h.1, by simp only [hreada]; exact h.2⟩
  | applying initial i e =>
    cases initial with
    | true => exact hinitial h
    | false => exact ⟨hreserved h.1, by simp only [hreada]; exact h.2⟩
  | publishing initial i e =>
    cases initial with
    | true => exact hinitial h
    | false => exact ⟨hreserved h.1, by simp only [hreada]; exact h.2⟩

/-- while something is pending, the control thread prepares nothing -/
theorem Call.Relies.swaps {c : Call C} (h : c.Relies L s) (hpending : pendingIndex s.word ≠ kNone) (w : UInt32)
    (a : Take) : c.Relies L { s with word := w, audio := a } := by
  have hinitial : ∀ {i e : UInt32}, ¬ (s.word = empty ∧ i = 0 ∧ e = empty) := by
    rintro i e ⟨hword, -⟩
    exact hpending (hword ▸ empty_read.2.1)
  have hreserved : ∀ {i e : UInt32}, ¬ Reserved L s i e := fun hr => hpending hr.pending
  cases c with
  | idle => trivial
  | releasing => trivial
  | retracting => exact h
  | preparing initial i config e =>
    cases initial with
    | true => exact absurd h hinitial
    | false => exact absurd h.1 hreserved
  | applying initial i e =>
    cases initial with
    | true => exact absurd h hinitial
    | false => exact absurd h.1 hreserved
  | publishing initial i e =>
    cases initial with
    | true => exact absurd h hinitial
    | false => exact absurd h.1 hreserved

theorem Inv.swaps (h : Inv L s) (hat : s.audio = .consuming s.word) :
    Inv L { s with word := pack (pendingIndex s.word) kNone (activeIndex s.word), audio := .idle } := by
  have hpending : pendingIndex s.word ≠ kNone := by
    have := h.audio
    rwa [hat] at this
  obtain ⟨hactive, -⟩ := h.arranged.behind hpending
  obtain ⟨hreada, hreadp, hreadq⟩ := pack_read (pendingIndex_lt s.word) kNone_lt (activeIndex_lt s.word)
  refine ⟨⟨?_, ?_, ?_, ?_, ?_, ?_, ?_⟩, h.control.swaps hpending _ _, trivial⟩ <;>
    simp only [hreada, hreadp, hreadq] <;> intro hne
  · exact h.arranged.pending hpending
  · exact absurd rfl hne
  · exact h.arranged.active hactive
  · exact hpending
  · exact (h.arranged.activePending hactive).symm
  · exact absurd rfl hne
  · exact absurd rfl hne

theorem Call.Turns.relies {c : Call C} (h : c.Turns s) (hinv : Inv L s) (a : Take) :
    c.Relies L { s with control := c, audio := a } := by
  rcases h with rfl | rfl | ⟨rfl, hpending⟩ | rfl
  · exact hinv.control.congr rfl rfl
  · trivial
  · exact hpending
  · trivial

theorem Take.Turns.relies {a : Take} (h : a.Turns s) (hinv : Inv L s) : a.Relies := by
  rcases h with rfl | rfl | ⟨rfl, hpending⟩ | rfl
  · exact hinv.audio
  · trivial
  · exact hpending
  · trivial

theorem Moves.inv {o : Outcome} (h : Moves L s t o) (hinv : Inv L s) : Inv L t := by
  cases h with
  | turns c a o hc ha ho => exact ⟨hinv.arranged.turns c a, hc.relies hinv a, ha.relies hinv⟩
  | beginsInitial config hword => exact ⟨hinv.arranged.turns _ _, ⟨hword, rfl, rfl⟩, hinv.audio⟩
  | beginsPending config i htarget hnewer =>
    obtain ⟨hactive, hpending⟩ := L.target_waits _ i htarget
    obtain ⟨hbelow, hapart, haside⟩ := L.target_apart _ i htarget (hinv.arranged.active hactive)
    exact ⟨hinv.arranged.turns _ _, ⟨⟨htarget, hbelow, hapart, haside, rfl, hpending, .inl rfl⟩, hnewer⟩, hinv.audio⟩
  | fills initial i config e hat => exact hinv.fills hat
  | applies initial i e hat =>
    refine ⟨hinv.arranged.turns _ _, ?_, hinv.audio⟩
    have hrelies := hinv.control
    rw [hat] at hrelies
    cases initial with
    | true => exact hrelies
    | false => exact ⟨hrelies.1.congr rfl, hrelies.2⟩
  | publishes initial i hat => exact hinv.publishes hat
  | retracts hat => exact hinv.retracts
  | releases c a hat =>
    refine ⟨hinv.arranged.releases c a, ?_, ?_⟩
    · rcases hat with ⟨-, rfl, -⟩ | ⟨rfl, -, -⟩
      · trivial
      · exact hinv.control.releases a
    · rcases hat with ⟨-, -, rfl⟩ | ⟨-, -, rfl⟩
      · exact hinv.audio
      · trivial
  | swaps hat => exact hinv.swaps hat

/-- the active object changes when there was none, or in a swap with the pending one -/
theorem Moves.active {o : Outcome} (h : Moves L s t o) (hinv : Inv L s) :
    activeIndex t.word = activeIndex s.word ∨ activeIndex s.word = kNone ∨
      (pendingIndex s.word ≠ kNone ∧ activeIndex t.word = pendingIndex s.word ∧ t.config = s.config) := by
  cases h with
  | turns c a o hc ha ho => exact .inl rfl
  | beginsInitial config hword => exact .inl rfl
  | beginsPending config i htarget hnewer => exact .inl rfl
  | fills initial i config e hat => exact .inl rfl
  | applies initial i e hat => exact .inl rfl
  | publishes initial i hat =>
    have hrelies := hinv.control
    rw [hat] at hrelies
    cases initial with
    | true => exact .inr (.inl (by rw [hrelies.1]; exact empty_read.1))
    | false => exact .inl (pack_active (activeIndex_lt _) (lt_four_of_count hrelies.1.below) kNone_lt)
  | retracts hat => exact .inl (pack_active (activeIndex_lt _) kNone_lt (previousIndex_lt _))
  | releases c a hat => exact .inl (pack_active (activeIndex_lt _) (pendingIndex_lt _) kNone_lt)
  | swaps hat =>
    have hpending : pendingIndex s.word ≠ kNone := by
      have := hinv.audio
      rwa [hat] at this
    exact .inr (.inr ⟨hpending, pack_active (pendingIndex_lt _) kNone_lt (activeIndex_lt _), rfl⟩)

/-- **Swaps go forward.** Where one object replaces another, its configuration is of a later generation. -/
theorem Moves.newer {o : Outcome} (h : Moves L s t o) (hinv : Inv L s) (hactive : activeIndex s.word ≠ kNone)
    (hchanged : activeIndex t.word ≠ activeIndex s.word) :
    L.generation (s.config (activeIndex s.word)) < L.generation (t.config (activeIndex t.word)) := by
  rcases h.active hinv with hsame | hnone | ⟨hpending, hnew, hconfig⟩
  · exact absurd hsame hchanged
  · exact absurd hnone hactive
  · rw [hnew, hconfig]
    exact hinv.arranged.newer hpending

/-! ## What the word names -/

/-- the object that is filled and not yet published -/
def Call.filled : Call C → Option UInt32
  | .applying _ i _ | .publishing _ i _ => some i
  | .idle | .preparing _ _ _ _ | .retracting _ | .releasing _ => none

/-- `P` of the active object, `Q` of the pending one, `R` of one that is filled -/
structure Named (P Q R : UInt32 → Prop) (s : State C) : Prop where
  active : activeIndex s.word ≠ kNone → P (activeIndex s.word)
  pending : pendingIndex s.word ≠ kNone → Q (pendingIndex s.word)
  filled : ∀ i, s.control.filled = some i → R i

section Named

variable {P Q R P' Q' R' : UInt32 → Prop}

theorem Named.mono (h : Named P Q R s) (hp : ∀ i, P i → P' i) (hq : ∀ i, Q i → Q' i) (hr : ∀ i, R i → R' i) :
    Named P' Q' R' s :=
  ⟨fun hne => hp _ (h.active hne), fun hne => hq _ (h.pending hne), fun i hi => hr i (h.filled i hi)⟩

theorem Named.of_read {a p : UInt32} (ha : activeIndex t.word = a) (hp : pendingIndex t.word = p)
    (hactive : a ≠ kNone → P a) (hpending : p ≠ kNone → Q p) (hfilled : ∀ i, t.control.filled = some i → R i) :
    Named P Q R t := by
  subst ha hp
  exact ⟨hactive, hpending, hfilled⟩

theorem Call.Turns.filled {c : Call C} (h : c.Turns s) {i : UInt32} (hi : c.filled = some i) :
    s.control.filled = some i := by
  rcases h with rfl | rfl | ⟨rfl, -⟩ | rfl
  · exact hi
  · cases hi
  · cases hi
  · cases hi

/-- **What the word names.** `R` comes with the filling, publishing takes it to `P` or `Q`, and a swap takes `Q` to `P`. -/
theorem Moves.named {o : Outcome} (h : Moves L s t o) (hinv : Inv L s) (hn : Named P Q R s)
    (hfills : ∀ initial i config e, s.control = .preparing initial i config e → t.control = .applying initial i e → R i)
    (hfirst : ∀ i e, s.control = .publishing true i e → o = .published i → R i → P i)
    (hpublishes : ∀ i e, s.control = .publishing false i e → o = .published i → R i → Q i)
    (hswaps : ∀ q i, o = .swapped q i → Q i → P i) : Named P Q R t := by
  cases h with
  | turns c a o hc ha ho => exact ⟨hn.active, hn.pending, fun i hi => hn.filled i (hc.filled hi)⟩
  | beginsInitial config hword => exact ⟨hn.active, hn.pending, nofun⟩
  | beginsPending config i htarget hnewer => exact ⟨hn.active, hn.pending, nofun⟩
  | fills initial i config e hat =>
    refine ⟨hn.active, hn.pending, fun j hj => ?_⟩
    obtain rfl : i = j := Option.some.inj hj
    exact hfills initial i config e hat rfl
  | applies initial i e hat =>
    refine ⟨hn.active, hn.pending, fun j hj => hn.filled j ?_⟩
    rw [hat]
    exact hj
  | publishes initial i hat =>
    have hrelies := hinv.control
    have hfilled : R i := hn.filled i (by rw [hat]; rfl)
    rw [hat] at hrelies
    cases initial with
    | true =>
      obtain ⟨hactive, hpending⟩ := desired_initial i s.word
      obtain ⟨-, rfl, -⟩ := hrelies
      exact .of_read hactive hpending (fun _ => hfirst 0 _ hat rfl hfilled) (absurd rfl) nofun
    | false =>
      obtain ⟨hactive, hpending, -⟩ := pack_read (activeIndex_lt s.word) (lt_four_of_count hrelies.1.below) kNone_lt
      exact .of_read hactive hpending hn.active (fun _ => hpublishes i _ hat rfl hfilled) nofun
  | retracts hat =>
    obtain ⟨hactive, hpending, -⟩ := pack_read (activeIndex_lt s.word) kNone_lt (previousIndex_lt s.word)
    exact .of_read hactive hpending hn.active (absurd rfl) nofun
  | releases c a hat =>
    obtain ⟨hactive, hpending, -⟩ := pack_read (activeIndex_lt s.word) (pendingIndex_lt s.word) kNone_lt
    refine .of_read hactive hpending hn.active hn.pending fun i hi => ?_
    rcases hat with ⟨-, rfl, -⟩ | ⟨rfl, -, -⟩
    · cases hi
    · exact hn.filled i hi
  | swaps hat =>
    have hwaits : pendingIndex s.word ≠ kNone := by
      have := hinv.audio
      rwa [hat] at this
    obtain ⟨hactive, hpending, -⟩ := pack_read (pendingIndex_lt s.word) kNone_lt (activeIndex_lt s.word)
    exact .of_read hactive hpending (fun _ => hswaps _ _ rfl (hn.pending hwaits)) (absurd rfl) hn.filled

end Named

/-- what is filled and not yet published is neither the active nor the previous object -/
theorem Inv.filled_apart (h : Inv L s) {i : UInt32} (hi : s.control.filled = some i) :
    i ≠ activeIndex s.word ∧ (previousIndex s.word = kNone ∨ i ≠ previousIndex s.word) := by
  have hrelies := h.control
  have hfirst : ∀ {e}, s.word = empty ∧ i = 0 ∧ e = empty →
      i ≠ activeIndex s.word ∧ (previousIndex s.word = kNone ∨ i ≠ previousIndex s.word) := by
    rintro e ⟨hword, rfl, -⟩
    rw [hword]
    decide
  have hlater : ∀ {e}, Reserved L s i e →
      i ≠ activeIndex s.word ∧ (previousIndex s.word = kNone ∨ i ≠ previousIndex s.word) := by
    intro e hr
    refine ⟨hr.active ▸ hr.apart, ?_⟩
    rcases hr.previous with hsame | hnone
    · exact .inr (hsame ▸ hr.aside)
    · exact .inl hnone
  cases hat : s.control with
  | idle | preparing | retracting | releasing =>
    rw [hat] at hi
    cases hi
  | applying initial j e =>
    rw [hat] at hi hrelies
    obtain rfl : j = i := Option.some.inj hi
    cases initial with
    | true => exact hfirst hrelies
    | false => exact hlater hrelies.1
  | publishing initial j e =>
    rw [hat] at hi hrelies
    obtain rfl : j = i := Option.some.inj hi
    cases initial with
    | true => exact hfirst hrelies
    | false => exact hlater hrelies.1

/-! ## What each thread leaves alone -/

def Act.byControl : Act C → Bool
  | .prepareInitial _ | .preparePending _ | .retractPending | .releasePrevious | .prepared _ | .applied _
  | .exchange _ => true
  | .consumePending | .audioRelease | .audioExchange _ => false

theorem consumeLoop_outcome (s : State C) :
    (consumeLoop s).2 = .consumed (activeIndex s.word) ∨ (consumeLoop s).2 = .silent := by
  unfold consumeLoop
  split_ifs
  · exact .inl rfl
  · exact .inr rfl

/-- only the compare-and-swap of ConsumePending swaps -/
theorem swapped_inv {a : Act C} {q i : UInt32} (h : (step L s a).2 = .swapped q i) :
    s.audio = .consuming s.word ∧ a = .audioExchange false := by
  have hloop := consumeLoop_outcome s
  cases a with
  | audioExchange spurious =>
    simp only [step] at h
    grind
  | prepareInitial | preparePending | retractPending | releasePrevious | prepared | applied | exchange | audioRelease
  | consumePending =>
    simp only [step] at h
    grind

/-- only the compare-and-swap of a preparation publishes -/
theorem published_inv {a : Act C} {i : UInt32} (h : (step L s a).2 = .published i) :
    ∃ spurious, a = .exchange spurious := by
  have hloop := consumeLoop_outcome s
  cases a with
  | exchange spurious => exact ⟨spurious, rfl⟩
  | prepareInitial | preparePending | retractPending | releasePrevious | prepared | applied | audioRelease
  | consumePending | audioExchange =>
    simp only [step] at h
    grind

/-- the audio thread leaves the control thread where it is -/
theorem audio_control {a : Act C} (hact : a.byControl = false) : (step L s a).1.control = s.control := by
  cases a with
  | consumePending | audioRelease | audioExchange =>
    simp only [step, consumeLoop, audioReleaseLoop]
    grind
  | prepareInitial | preparePending | retractPending | releasePrevious | prepared | applied | exchange => cases hact

/-- a step of the control thread that takes the previous index out of the word -/
def Call.TakesPrevious (s : State C) (a : Act C) : Prop :=
  (s.control = .releasing s.word ∧ a = .exchange false) ∨
    ∃ i spurious, s.control = .publishing false i s.word ∧ a = .exchange spurious

/-- the control thread leaves the active and, unless it takes it, the previous index in place -/
structure ControlLeaves (s t : State C) (a : Act C) : Prop where
  audio : t.audio = s.audio
  active : activeIndex s.word ≠ kNone → activeIndex t.word = activeIndex s.word
  previous : activeIndex s.word ≠ kNone → previousIndex t.word = previousIndex s.word ∨ Call.TakesPrevious s a

theorem ControlLeaves.of_word {a : Act C} (haudio : t.audio = s.audio) (hword : t.word = s.word) : ControlLeaves s t a :=
  ⟨haudio, fun _ => by rw [hword], fun _ => .inl (by rw [hword])⟩

theorem retractLoop_leaves (a : Act C) : ControlLeaves s (retractLoop s) a := by
  unfold retractLoop
  split_ifs <;> exact .of_word rfl rfl

theorem releaseLoop_leaves (a : Act C) : ControlLeaves s (releaseLoop s) a := by
  unfold releaseLoop
  split_ifs <;> exact .of_word rfl rfl

theorem exchange_leaves (h : Inv L s) (spurious : Bool) :
    ControlLeaves s (step L s (.exchange spurious)).1 (.exchange spurious) := by
  have hrelies := h.control
  cases hat : s.control with
  | idle => simp only [step, hat]; exact .of_word rfl rfl
  | preparing => simp only [step, hat]; exact .of_word rfl rfl
  | applying => simp only [step, hat]; exact .of_word rfl rfl
  | publishing initial i e =>
    rw [hat] at hrelies
    simp only [step, hat]
    split_ifs with hword
    · subst hword
      cases initial with
      | true =>
        have hnone : activeIndex s.word = kNone := by rw [hrelies.1]; exact empty_read.1
        exact ⟨rfl, absurd hnone, absurd hnone⟩
      | false =>
        have hread : activeIndex (desired false i s.word) = activeIndex s.word :=
          pack_active (activeIndex_lt _) (lt_four_of_count hrelies.1.below) kNone_lt
        exact ⟨rfl, fun _ => hread, fun _ => .inr (.inr ⟨i, spurious, hat, rfl⟩)⟩
    · exact .of_word rfl rfl
  | retracting e =>
    simp only [step, hat]
    split_ifs with hword
    · obtain ⟨rfl, -⟩ := hword
      obtain ⟨hreada, -, hreadq⟩ := pack_read (activeIndex_lt s.word) kNone_lt (previousIndex_lt s.word)
      exact ⟨rfl, fun _ => hreada, fun _ => .inl hreadq⟩
    · exact retractLoop_leaves _
  | releasing e =>
    simp only [step, hat]
    split_ifs with hword
    · obtain ⟨rfl, hreal⟩ := hword
      obtain ⟨hreada, -, -⟩ := pack_read (activeIndex_lt s.word) (pendingIndex_lt s.word) kNone_lt
      have hspurious : spurious = false := by simpa using hreal
      exact ⟨rfl, fun _ => hreada, fun _ => .inr (.inl ⟨hat, by rw [hspurious]⟩)⟩
    · exact releaseLoop_leaves _

theorem control_leaves {a : Act C} (hact : a.byControl = true) (h : Inv L s) :
    ControlLeaves s (step L s a).1 a := by
  cases a with
  | prepareInitial config =>
    simp only [step]
    split
    · split_ifs <;> exact .of_word rfl rfl
    · exact .of_word rfl rfl
  | preparePending config =>
    simp only [step]
    split
    · split_ifs <;> exact .of_word rfl rfl
    · exact .of_word rfl rfl
  | retractPending =>
    simp only [step]
    split
    · exact retractLoop_leaves _
    · exact .of_word rfl rfl
  | releasePrevious =>
    simp only [step]
    split
    · exact releaseLoop_leaves _
    · exact .of_word rfl rfl
  | prepared ok =>
    simp only [step]
    split
    · split_ifs <;> exact .of_word rfl rfl
    · exact .of_word rfl rfl
  | applied ok =>
    simp only [step]
    split
    · split_ifs <;> exact .of_word rfl rfl
    · exact .of_word rfl rfl
  | exchange spurious => exact exchange_leaves h spurious
  | consumePending => cases hact
  | audioRelease => cases hact
  | audioExchange spurious => cases hact

/-- the audio thread in ReleasePrevious leaves the active index in place -/
structure ReleaseLeaves (s t : State C) (released : Prop) : Prop where
  active : activeIndex t.word = activeIndex s.word
  previous : previousIndex t.word = previousIndex s.word ∨ released
  audio : ∀ e, t.audio ≠ .consuming e

theorem audioRelease_leaves (h : ∀ e, s.audio ≠ .consuming e) :
    ReleaseLeaves s (step L s .audioRelease).1 False := by
  simp only [step]
  split
  · unfold audioReleaseLoop
    split_ifs <;> exact ⟨rfl, .inl rfl, fun e he => by cases he⟩
  · exact ⟨rfl, .inl rfl, h⟩

theorem audioExchange_leaves (h : ∀ e, s.audio ≠ .consuming e) (spurious : Bool) :
    ReleaseLeaves s (step L s (.audioExchange spurious)).1 (s.audio = .releasing s.word ∧ spurious = false) := by
  cases hat : s.audio with
  | idle =>
    simp only [step, hat]
    exact ⟨rfl, .inl rfl, fun e he => by rw [hat] at he; cases he⟩
  | consuming e => exact absurd hat (h e)
  | releasing e =>
    simp only [step, hat]
    split_ifs with hword
    · obtain ⟨rfl, hreal⟩ := hword
      obtain ⟨hreada, -, -⟩ := pack_read (activeIndex_lt s.word) (pendingIndex_lt s.word) kNone_lt
      exact ⟨hreada, .inr ⟨rfl, by simpa using hreal⟩, fun e he => by cases he⟩
    · unfold audioReleaseLoop
      split_ifs <;> exact ⟨rfl, .inl rfl, fun e he => by cases he⟩

/-! ## Retracted objects -/

/-- the object was retracted, and PreparePending has not filled it again since -/
def Retracted : List (Entry (State C) (Act C) Outcome) → UInt32 → Prop
  | [], _ => False
  | entry :: past, i => entry.output = .retracted i ∨ (entry.output ≠ .prepared i ∧ Retracted past i)

/-- nothing that is retracted stands where it could be published -/
structure Fresh (s : State C) (past : List (Entry (State C) (Act C) Outcome)) : Prop where
  pending : pendingIndex s.word ≠ kNone → ¬ Retracted past (pendingIndex s.word)
  publishing : ∀ i e, s.control = .publishing false i e → ¬ Retracted past i
  unborn : activeIndex s.word = kNone → ∀ i, ¬ Retracted past i

theorem Retracted.older {entry : Entry (State C) (Act C) Outcome} {past : List (Entry (State C) (Act C) Outcome)}
    {i : UInt32} (h : Retracted (entry :: past) i) (hout : entry.output ≠ .retracted i) : Retracted past i := by
  rcases h with h | ⟨-, h⟩
  · exact absurd h hout
  · exact h

/-- a step that retracts nothing leaves fresh what it leaves in place -/
theorem Fresh.quiet {past : List (Entry (State C) (Act C) Outcome)} {entry : Entry (State C) (Act C) Outcome}
    (h : Fresh s past) (hout : ∀ i, entry.output ≠ .retracted i)
    (hpending : pendingIndex t.word = pendingIndex s.word ∨ pendingIndex t.word = kNone)
    (hactive : activeIndex t.word = kNone → activeIndex s.word = kNone)
    (hcontrol : ∀ i e, t.control = .publishing false i e → s.control = .publishing false i e) :
    Fresh t (entry :: past) := by
  refine ⟨?_, ?_, ?_⟩
  · intro hne hr
    rcases hpending with hsame | hnone
    · rw [hsame] at hne hr
      exact h.pending hne (hr.older (hout _))
    · exact hne hnone
  · intro i e hat hr
    exact h.publishing i e (hcontrol i e hat) (hr.older (hout _))
  · intro hnone i hr
    exact h.unborn (hactive hnone) i (hr.older (hout _))

theorem Moves.fresh {o : Outcome} {past : List (Entry (State C) (Act C) Outcome)}
    {entry : Entry (State C) (Act C) Outcome} (h : Moves L s t o) (hinv : Inv L s) (hfresh : Fresh s past)
    (hout : entry.output = o) : Fresh t (entry :: past) := by
  cases h with
  | turns c a o hc ha ho =>
    refine hfresh.quiet (fun i => ?_) (.inl rfl) id fun i e hat => ?_
    · rw [hout]
      rcases ho with rfl | ⟨rfl, -⟩ <;> exact Outcome.noConfusion
    · rcases hc with rfl | rfl | ⟨rfl, -⟩ | rfl
      · exact hat
      · cases hat
      · cases hat
      · cases hat
  | beginsInitial config hword =>
    exact hfresh.quiet (fun i => by rw [hout]; exact Outcome.noConfusion) (.inl rfl) id fun i e hat => by cases hat
  | beginsPending config i htarget hnewer =>
    exact hfresh.quiet (fun i => by rw [hout]; exact Outcome.noConfusion) (.inl rfl) id fun i e hat => by cases hat
  | fills initial i config e hat =>
    exact hfresh.quiet (fun i => by rw [hout]; exact Outcome.noConfusion) (.inl rfl) id fun i e hat => by cases hat
  | applies initial i e hat =>
    have hquiet : ∀ j, entry.output ≠ .retracted j := by
      intro j
      rw [hout]
      cases initial <;> exact Outcome.noConfusion
    refine ⟨fun hne hr => hfresh.pending hne (hr.older (hquiet _)), ?_,
      fun hnone j hr => hfresh.unborn hnone j (hr.older (hquiet _))⟩
    intro j e' hat' hr
    cases initial with
    | true => cases hat'
    | false =>
      obtain ⟨-, rfl, -⟩ := Call.publishing.inj hat'
      rcases hr with hr | ⟨hr, -⟩
      · exact hquiet _ hr
      · exact hr hout
  | publishes initial i hat =>
    have hquiet : ∀ j, entry.output ≠ .retracted j := fun j => by rw [hout]; exact Outcome.noConfusion
    have hrelies := hinv.control
    rw [hat] at hrelies
    refine ⟨?_, fun j e' hat' => (by cases hat'), ?_⟩
    · cases initial with
      | true => exact fun hne => absurd (desired_initial i s.word).2 hne
      | false =>
        have hread : pendingIndex (desired false i s.word) = i :=
          pack_pending (activeIndex_lt _) (lt_four_of_count hrelies.1.below) kNone_lt
        show pendingIndex (desired false i s.word) ≠ kNone → _
        rw [hread]
        exact fun _ hr => hfresh.publishing i s.word hat (hr.older (hquiet _))
    · intro hnone j hr
      cases initial with
      | true => exact absurd ((desired_initial i s.word).1.symm.trans hnone) (by decide)
      | false =>
        have hread : activeIndex (desired false i s.word) = activeIndex s.word :=
          pack_active (activeIndex_lt _) (lt_four_of_count hrelies.1.below) kNone_lt
        exact hrelies.1.live (hread.symm.trans hnone)
  | retracts hat =>
    have hpending : pendingIndex s.word ≠ kNone := by
      have := hinv.control
      rwa [hat] at this
    obtain ⟨hreada, hreadp, -⟩ := pack_read (activeIndex_lt s.word) kNone_lt (previousIndex_lt s.word)
    refine ⟨fun hne => absurd hreadp hne, fun j e' hat' => (by cases hat'), fun hnone => ?_⟩
    exact absurd (hreada.symm.trans hnone) (hinv.arranged.behind hpending).1
  | releases c a hat =>
    obtain ⟨hreada, hreadp, -⟩ := pack_read (activeIndex_lt s.word) (pendingIndex_lt s.word) kNone_lt
    refine hfresh.quiet (fun i => by rw [hout]; exact Outcome.noConfusion) (.inl hreadp) hreada.symm.trans
      fun i e hat' => ?_
    rcases hat with ⟨-, rfl, -⟩ | ⟨rfl, -, -⟩
    · cases hat'
    · exact hat'
  | swaps hat =>
    have hpending : pendingIndex s.word ≠ kNone := by
      have := hinv.audio
      rwa [hat] at this
    obtain ⟨hreada, hreadp, -⟩ := pack_read (pendingIndex_lt s.word) kNone_lt (activeIndex_lt s.word)
    exact hfresh.quiet (fun i => by rw [hout]; exact Outcome.noConfusion) (.inr hreadp)
      (fun hnone => absurd (hreada.symm.trans hnone) hpending) fun i e hat' => hat'

/-- **Retracted objects stay out.** What becomes active was not retracted, or was filled again since. -/
theorem Moves.fresh_active {o : Outcome} {past : List (Entry (State C) (Act C) Outcome)} (h : Moves L s t o)
    (hinv : Inv L s) (hfresh : Fresh s past) (hchanged : activeIndex t.word ≠ activeIndex s.word) :
    ¬ Retracted past (activeIndex t.word) := by
  rcases h.active hinv with hsame | hnone | ⟨hpending, hnew, -⟩
  · exact absurd hsame hchanged
  · exact hfresh.unborn hnone _
  · rw [hnew]
    exact hfresh.pending hpending

theorem init_fresh (config : UInt32 → C) : Fresh { config } [] := ⟨fun _ => id, fun _ _ _ => id, fun _ _ => id⟩

end Invariant

end ViperFx.Core.Slots
