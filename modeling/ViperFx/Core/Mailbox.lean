/-
A mailbox of three slots between one producer and one consumer, without locks.

The producer fills a slot that is neither the published one nor the one the consumer says it reads, and then publishes it. The
consumer says that it reads the published slot, makes sure that it is still the published one, and copies it. A step of the
machine is one atomic load or store, or the copy of one cell of a slot, and the two threads interleave in any order. What is
published has a number, which no thread sees: the count of what was published so far.

`Layout` is what differs between mailboxes: in which order the cells are written and read, whether the consumer refuses what it
already has, and whether the producer may let its generations begin anew.

Results:
  · search_spec        : the search of the producer ends at a slot that is free
  · step_inv, run_inv  : the invariant
  · produce_cases, read_reads : what a step of either thread adds to the log
  · Linearizable.of_inv : what the two threads can rely on
-/
import ViperFx.Core.Log

namespace ViperFx.Core.Mailbox

/-- a cell of a slot: the generation, or a field of the value -/
inductive Cell (F : Type) where
  | generation
  | field (f : F)
deriving DecidableEq

structure Slot (F V : Type) where
  value : F → V
  generation : ℕ

/-- what differs between mailboxes -/
structure Layout (F V : Type) where
  /-- the cells in the order in which they are written -/
  writes : List (Cell F)
  /-- the fields in the order in which they are copied after the generation -/
  reads : List F
  initial : F → V
  /-- the consumer does not copy what is not newer than what it has -/
  filtered : Bool
  /-- the producer may let the generations begin anew -/
  restarts : Bool
  /-- what the consumer answers when it has copied a value -/
  usable : (F → V) → Bool
  writes_all : ∀ cell, cell ∈ writes
  reads_all : ∀ f, f ∈ reads
  filtered_runs : filtered = true → restarts = false
  initial_refused : filtered = true ∨ usable initial = false

/-- where the producer is; `restart` when the generations begin anew with this value -/
inductive Producer (F V : Type) where
  | idle
  /-- before the load of the published index -/
  | loading (value : F → V) (restart : Bool)
  /-- before the load of the reading index -/
  | searching (value : F → V) (restart : Bool) (published : ℕ)
  /-- before the next cell is written, or the slot is published -/
  | writing (value : F → V) (restart : Bool) (generation target : ℕ) (todo : List (Cell F))

/-- where the consumer is; `number` is that of the value it has made sure of -/
inductive Consumer (F : Type) where
  | idle
  /-- before the first load of the published index -/
  | loading
  /-- before the store of the reading index -/
  | storing (published : ℕ)
  /-- before the second load of the published index -/
  | checking (published : ℕ)
  /-- before the reading index is taken back, to begin again -/
  | retrying
  /-- before the load of the generation -/
  | reading (published number : ℕ)
  /-- before the next field is copied, or the reading index is taken back -/
  | copying (published number generation : ℕ) (todo : List F)
  /-- before the reading index is taken back, with nothing newer there -/
  | refusing (published number generation : ℕ)

inductive Event (F V : Type) where
  | published (number : ℕ) (value : F → V) (generation : ℕ) (restart : Bool)
  | started
  | copied (number : ℕ) (value : F → V) (generation : ℕ) (ok : Bool)
  | refused

structure State (F V : Type) where
  slots : ℕ → Slot F V
  published : ℕ := 0
  reading : Option ℕ := none
  nextGeneration : ℕ := 0
  producer : Producer F V := .idle
  consumer : Consumer F := .idle
  /-- the last generation and the value that the consumer passes by reference -/
  lastGeneration : ℕ := 0
  params : F → V
  /-- what was published and read, the latest first -/
  log : List (Event F V) := []

inductive Act (F V : Type) where
  | publish (value : F → V)
  | restart (value : F → V)
  | produce
  | consume
  | read

section Machine

variable {F V : Type} [DecidableEq F]

/-- `while (target == published || target == reading) ++target` -/
def search (published : ℕ) (reading : Option ℕ) (target : ℕ) : ℕ :=
  if target = published ∨ reading = some target then search published reading (target + 1) else target
termination_by published + reading.getD 0 + 1 - target
decreasing_by
  rename_i h
  rcases h with rfl | rfl
  · omega
  · simp only [Option.getD_some]
    omega

/-- the count of what was published -/
def count : List (Event F V) → ℕ
  | [] => 0
  | .published .. :: before => count before + 1
  | _ :: before => count before

def Slot.write (s : Slot F V) (value : F → V) (generation : ℕ) : Cell F → Slot F V
  | .generation => { s with generation := generation }
  | .field f => { s with value := Function.update s.value f (value f) }

/-- a step of the producer inside `Publish`; only the producer sees the generation counter -/
def produce (L : Layout F V) (s : State F V) : Option (State F V) :=
  match s.producer with
  | .idle => none
  | .loading value restart => some { s with producer := .searching value restart s.published }
  | .searching value restart published =>
    some { s with
      producer := .writing value restart (s.nextGeneration + 1) (search published s.reading 0) L.writes
      nextGeneration := s.nextGeneration + 1 }
  | .writing value restart generation target (cell :: todo) =>
    some { s with
      slots := Function.update s.slots target ((s.slots target).write value generation cell)
      producer := .writing value restart generation target todo }
  | .writing value restart generation target [] =>
    some { s with
      published := target
      producer := .idle
      log := .published (count s.log + 1) value generation restart :: s.log }

/-- a step of the consumer inside `ConsumeLatest` -/
def read (L : Layout F V) (s : State F V) : Option (State F V) :=
  match s.consumer with
  | .idle => none
  | .loading => some { s with consumer := .storing s.published }
  | .storing published => some { s with reading := some published, consumer := .checking published }
  | .checking published =>
    if published ≠ s.published then some { s with consumer := .retrying }
    else some { s with consumer := .reading published (count s.log) }
  | .retrying => some { s with reading := none, consumer := .loading }
  | .reading published number =>
    let generation := (s.slots published).generation
    if L.filtered = true ∧ generation ≤ s.lastGeneration then
      some { s with consumer := .refusing published number generation }
    else some { s with consumer := .copying published number generation L.reads }
  | .copying published number generation (f :: todo) =>
    some { s with
      params := Function.update s.params f ((s.slots published).value f)
      consumer := .copying published number generation todo }
  | .copying _ number generation [] =>
    some { s with
      reading := none
      consumer := .idle
      lastGeneration := if L.filtered then generation else s.lastGeneration
      log := .copied number s.params generation (L.usable s.params) :: s.log }
  | .refusing _ _ _ => some { s with reading := none, consumer := .idle, log := .refused :: s.log }

def step (L : Layout F V) (s : State F V) : Act F V → Option (State F V)
  | .publish value =>
    match s.producer with
    | .idle => some { s with producer := .loading value false }
    | _ => none
  | .restart value =>
    match s.producer with
    | .idle => if L.restarts then some { s with producer := .loading value true, nextGeneration := 0 } else none
    | _ => none
  | .produce => produce L s
  | .consume =>
    match s.consumer with
    | .idle => some { s with consumer := .loading, log := .started :: s.log }
    | _ => none
  | .read => read L s

/-- a mailbox as it is made; what the consumer's variable holds is of no consequence -/
def init (L : Layout F V) (params : F → V) : State F V := { slots := fun _ => ⟨L.initial, 0⟩, params := params }

inductive Reachable (L : Layout F V) : State F V → Prop
  | init (params : F → V) : Reachable L (init L params)
  | step {s s' : State F V} (act : Act F V) : Reachable L s → step L s act = some s' → Reachable L s'

end Machine

/-! ## The search -/

theorem search_free {published : ℕ} {reading : Option ℕ} {target : ℕ} (h : target ≠ published ∧ reading ≠ some target) :
    search published reading target = target := by
  rw [search, if_neg fun h' => h'.elim h.1 h.2]

theorem search_taken {published : ℕ} {reading : Option ℕ} {target : ℕ} (h : target = published ∨ reading = some target) :
    search published reading target = search published reading (target + 1) := by
  rw [search, if_pos h]

/-- **The search ends inside the three slots**, at one that is neither published nor being read. -/
theorem search_spec (published : ℕ) (reading : Option ℕ) :
    search published reading 0 < 3 ∧ search published reading 0 ≠ published ∧ reading ≠ some (search published reading 0) := by
  have hends : ∀ target, target < 3 → (target ≠ published ∧ reading ≠ some target) →
      search published reading target < 3 ∧ search published reading target ≠ published ∧
        reading ≠ some (search published reading target) := by
    intro target hlt hfree
    rw [search_free hfree]
    exact ⟨hlt, hfree⟩
  by_cases h0 : 0 = published ∨ reading = some 0
  · rw [search_taken h0]
    by_cases h1 : 1 = published ∨ reading = some 1
    · rw [search_taken h1]
      refine hends 2 (by omega) ⟨?_, ?_⟩
      · rintro rfl
        rcases h0 with h0 | h0
        · omega
        · rcases h1 with h1 | h1
          · omega
          · rw [h0] at h1
            cases h1
      · intro h2
        rw [h2] at h0 h1
        rcases h0 with h0 | h0
        · rcases h1 with h1 | h1
          · omega
          · cases h1
        · cases h0
    · exact hends 1 (by omega) (not_or.mp h1)
  · exact hends 0 (by omega) (not_or.mp h0)

/-! ## The log -/

section Log

variable {F V : Type}

/-- the generation of what was published last -/
def latestGeneration : List (Event F V) → ℕ
  | [] => 0
  | .published _ _ generation _ :: _ => generation
  | _ :: before => latestGeneration before

/-- the count of what was published when the last read began -/
def countAtStart : List (Event F V) → ℕ
  | [] => 0
  | .started :: before => count before
  | _ :: before => countAtStart before

/-- number and generation of what was copied last -/
def lastCopied : List (Event F V) → ℕ × ℕ
  | [] => (0, 0)
  | .copied number _ generation _ :: _ => (number, generation)
  | _ :: before => lastCopied before

/-- what was published as the value of that number; the initial value has number 0 -/
def Stands (L : Layout F V) (log : List (Event F V)) (number : ℕ) (slot : Slot F V) : Prop :=
  number = 0 ∧ slot = ⟨L.initial, 0⟩ ∨ ∃ restart, .published number slot.value slot.generation restart ∈ log

/-- what holds of an event and the log before it -/
def EntryOk (L : Layout F V) (before : List (Event F V)) : Event F V → Prop
  | .published number _ generation restart =>
    number = count before + 1 ∧ generation = (if restart then 1 else latestGeneration before + 1) ∧
      (restart = true → L.restarts = true)
  | .started => True
  | .copied number value generation ok =>
    Stands L before number ⟨value, generation⟩ ∧ countAtStart before ≤ number ∧ (lastCopied before).1 ≤ number ∧
      (L.filtered = true → (lastCopied before).2 < generation) ∧ ok = L.usable value
  | .refused =>
    L.filtered = true ∧ ∃ number slot, Stands L before number slot ∧ countAtStart before ≤ number ∧
      slot.generation ≤ (lastCopied before).2

variable {L : Layout F V} {log : List (Event F V)}

theorem Stands.mono {number : ℕ} {slot : Slot F V} (h : Stands L log number slot) (e : Event F V) :
    Stands L (e :: log) number slot := by
  rcases h with h | ⟨restart, h⟩
  · exact .inl h
  · exact .inr ⟨restart, List.mem_cons_of_mem _ h⟩

theorem countAtStart_le (log : List (Event F V)) : countAtStart log ≤ count log := by
  induction log with
  | nil => rfl
  | cons e log ih =>
    cases e with
    | published => exact ih.trans (Nat.le_succ _)
    | started => exact le_rfl
    | copied => exact ih
    | refused => exact ih

theorem count_append (later log : List (Event F V)) : count log ≤ count (later ++ log) := by
  induction later with
  | nil => rfl
  | cons e later ih =>
    cases e with
    | published => exact ih.trans (Nat.le_succ _)
    | started => exact ih
    | copied => exact ih
    | refused => exact ih

/-- the numbers count what was published -/
theorem number_le (h : Along (EntryOk L) log) {number generation : ℕ} {value : F → V} {restart : Bool}
    (hmem : .published number value generation restart ∈ log) : 1 ≤ number ∧ number ≤ count log := by
  obtain ⟨later, before, rfl⟩ := List.append_of_mem hmem
  have hentry := h.cut
  have hcount := count_append later (.published number value generation restart :: before)
  have hnumber : number = count before + 1 := hentry.1
  have hlast : count (.published number value generation restart :: before) = count before + 1 := rfl
  omega

theorem Stands.le (h : Along (EntryOk L) log) {number : ℕ} {slot : Slot F V} (hs : Stands L log number slot) :
    number ≤ count log := by
  rcases hs with ⟨rfl, -⟩ | ⟨restart, hmem⟩
  · exact Nat.zero_le _
  · exact (number_le h hmem).2

theorem lastCopied_le (h : Along (EntryOk L) log) : (lastCopied log).1 ≤ count log := by
  induction log with
  | nil => rfl
  | cons e log ih =>
    have hbefore := ih h.2
    cases e with
    | published => exact hbefore.trans (Nat.le_succ _)
    | started => exact hbefore
    | copied number value generation ok =>
      have hstands : Stands L log number ⟨value, generation⟩ := h.1.1
      exact hstands.le h.2
    | refused => exact hbefore

end Log

/-! ## The invariant -/

section Invariant

variable {F V : Type} {L : Layout F V} {s s' : State F V}

/-- a cell that the producer has written -/
def Written (slot : Slot F V) (value : F → V) (generation : ℕ) : Cell F → Prop
  | .generation => slot.generation = generation
  | .field f => slot.value f = value f

def ProducerOk (L : Layout F V) (s : State F V) : Prop :=
  match s.producer with
  | .idle => s.nextGeneration = latestGeneration s.log
  | .loading _ restart =>
    (restart = true → L.restarts = true) ∧ s.nextGeneration = if restart then 0 else latestGeneration s.log
  | .searching _ restart published =>
    (restart = true → L.restarts = true) ∧ (s.nextGeneration = if restart then 0 else latestGeneration s.log) ∧
      published = s.published
  | .writing value restart generation target todo =>
    (restart = true → L.restarts = true) ∧ (generation = if restart then 1 else latestGeneration s.log + 1) ∧
      s.nextGeneration = generation ∧ target < 3 ∧ target ≠ s.published ∧
      ∀ cell, cell ∉ todo → Written (s.slots target) value generation cell

/-- the slot the producer is filling -/
def Producer.target : Producer F V → Option ℕ
  | .writing _ _ _ target _ => some target
  | _ => none

/-- the consumer has made sure of a slot: it says so, the value in it stands, and the producer is not filling it -/
structure Holding (L : Layout F V) (s : State F V) (published number : ℕ) : Prop where
  reading : s.reading = some published
  inside : published < 3
  stands : Stands L s.log number (s.slots published)
  fresh : countAtStart s.log ≤ number
  ordered : (lastCopied s.log).1 ≤ number
  apart : s.producer.target ≠ some published

def ConsumerOk (L : Layout F V) (s : State F V) : Prop :=
  match s.consumer with
  | .idle | .loading | .retrying => True
  | .storing published => published < 3
  | .checking published => published < 3 ∧ s.reading = some published
  | .reading published number => Holding L s published number
  | .copying published number generation todo =>
    Holding L s published number ∧ (s.slots published).generation = generation ∧
      (L.filtered = true → s.lastGeneration < generation) ∧ ∀ f, f ∉ todo → s.params f = (s.slots published).value f
  | .refusing published number generation =>
    Holding L s published number ∧ (s.slots published).generation = generation ∧ L.filtered = true ∧
      generation ≤ s.lastGeneration

structure Inv (L : Layout F V) (s : State F V) : Prop where
  published : s.published < 3
  current : Stands L s.log (count s.log) (s.slots s.published)
  log : Along (EntryOk L) s.log
  last : L.filtered = true → s.lastGeneration = (lastCopied s.log).2
  producer : ProducerOk L s
  consumer : ConsumerOk L s

theorem init_inv (L : Layout F V) (params : F → V) : Inv L (init L params) where
  published := Nat.zero_lt_succ 2
  current := .inl ⟨rfl, rfl⟩
  log := trivial
  last := fun _ => rfl
  producer := rfl
  consumer := trivial

/-- what the consumer holds stays as it is when the producer leaves the slot, the reading index and the log alone -/
theorem ConsumerOk.frame (h : ConsumerOk L s) (hconsumer : s'.consumer = s.consumer) (hreading : s'.reading = s.reading)
    (hlast : s'.lastGeneration = s.lastGeneration) (hparams : s'.params = s.params)
    (hholding : ∀ published number, Holding L s published number →
      Holding L s' published number ∧ s'.slots published = s.slots published) : ConsumerOk L s' := by
  unfold ConsumerOk at h ⊢
  rw [hconsumer]
  cases hc : s.consumer with
  | idle => trivial
  | loading => trivial
  | retrying => trivial
  | storing published =>
    rw [hc] at h
    exact h
  | checking published =>
    rw [hc] at h
    exact ⟨h.1, hreading.trans h.2⟩
  | reading published number =>
    rw [hc] at h
    exact (hholding published number h).1
  | copying published number generation todo =>
    rw [hc] at h
    obtain ⟨hhold, hgeneration, hnewer, hcopied⟩ := h
    obtain ⟨hhold', hslot⟩ := hholding published number hhold
    dsimp only
    rw [hslot, hlast, hparams]
    exact ⟨hhold', hgeneration, hnewer, hcopied⟩
  | refusing published number generation =>
    rw [hc] at h
    obtain ⟨hhold, hgeneration, hfiltered, holder⟩ := h
    obtain ⟨hhold', hslot⟩ := hholding published number hhold
    dsimp only
    rw [hslot, hlast]
    exact ⟨hhold', hgeneration, hfiltered, holder⟩

theorem ProducerOk.target_ne (h : ProducerOk L s) {published : ℕ} (hsame : published = s.published) :
    s.producer.target ≠ some published := by
  unfold ProducerOk at h
  cases hp : s.producer with
  | idle => nofun
  | loading => nofun
  | searching => nofun
  | writing value restart generation target todo =>
    rw [hp] at h
    intro heq
    have hfree := h.2.2.2.2.1
    exact hfree ((Option.some.inj heq).trans hsame)

variable [DecidableEq F]

theorem written_write (slot : Slot F V) (value : F → V) (generation : ℕ) (cell : Cell F) :
    Written (slot.write value generation cell) value generation cell := by
  cases cell with
  | generation => rfl
  | field f => exact Function.update_self _ _ _

theorem Written.write {slot : Slot F V} {value : F → V} {generation : ℕ} {cell' : Cell F}
    (h : Written slot value generation cell') (cell : Cell F) :
    Written (slot.write value generation cell) value generation cell' := by
  cases cell with
  | generation =>
    cases cell' with
    | generation => rfl
    | field f => exact h
  | field f =>
    cases cell' with
    | generation => exact h
    | field f' =>
      by_cases hsame : f' = f
      · subst hsame
        exact Function.update_self _ _ _
      · exact (Function.update_of_ne hsame _ _).trans h

/-- **A step of the producer.** -/
theorem produce_inv (h : Inv L s) (hstep : produce L s = some s') : Inv L s' := by
  obtain ⟨hpublished, hcurrent, hlog, hlast, hproducer, hconsumer⟩ := h
  unfold produce at hstep
  unfold ProducerOk at hproducer
  cases hp : s.producer with
  | idle =>
    rw [hp] at hstep
    cases hstep
  | loading value restart =>
    rw [hp] at hstep hproducer
    simp only [Option.some.injEq] at hstep
    subst hstep
    refine ⟨hpublished, hcurrent, hlog, hlast, ⟨hproducer.1, hproducer.2, rfl⟩, hconsumer.frame rfl rfl rfl rfl ?_⟩
    intro published number hhold
    exact ⟨{ hhold with apart := nofun }, rfl⟩
  | searching value restart published =>
    rw [hp] at hstep hproducer
    simp only [Option.some.injEq] at hstep
    subst hstep
    obtain ⟨hrestart, hnext, rfl⟩ := hproducer
    obtain ⟨hinside, hfree, hunread⟩ := search_spec s.published s.reading
    refine ⟨hpublished, hcurrent, hlog, hlast, ⟨hrestart, ?_, rfl, hinside, hfree, ?_⟩, hconsumer.frame rfl rfl rfl rfl ?_⟩
    · rw [hnext]
      split_ifs <;> rfl
    · exact fun cell hcell => absurd (L.writes_all cell) hcell
    · intro published number hhold
      refine ⟨{ hhold with apart := fun htarget => hunread ?_ }, rfl⟩
      exact hhold.reading.trans htarget.symm
  | writing value restart generation target todo =>
    rw [hp] at hstep hproducer
    obtain ⟨hrestart, hgeneration, hnext, hinside, hfree, hwritten⟩ := hproducer
    have happart : ∀ published number, Holding L s published number → published ≠ target := by
      intro published number hhold heq
      have htarget := hhold.apart
      rw [hp, heq] at htarget
      exact htarget rfl
    cases todo with
    | cons cell todo =>
      simp only [Option.some.injEq] at hstep
      subst hstep
      refine ⟨hpublished, ?_, hlog, hlast, ⟨hrestart, hgeneration, hnext, hinside, hfree, ?_⟩,
        hconsumer.frame rfl rfl rfl rfl ?_⟩
      · simp only
        rw [Function.update_of_ne hfree.symm]
        exact hcurrent
      · intro cell' hcell'
        simp only
        rw [Function.update_self]
        by_cases hsame : cell' = cell
        · subst hsame
          exact written_write _ _ _ _
        · exact (hwritten cell' fun hmem => (List.mem_cons.mp hmem).elim hsame hcell').write cell
      · intro published number hhold
        have hne := happart published number hhold
        have hslot : Function.update s.slots target ((s.slots target).write value generation cell) published =
            s.slots published := Function.update_of_ne hne _ _
        refine ⟨{ hhold with stands := ?_, apart := ?_ }, hslot⟩
        · simp only
          rw [hslot]
          exact hhold.stands
        · exact fun htarget => hne (Option.some.inj htarget).symm
    | nil =>
      simp only [Option.some.injEq] at hstep
      subst hstep
      have hvalue : (s.slots target).value = value := funext fun f => hwritten (.field f) List.not_mem_nil
      have hslot : (s.slots target).generation = generation := hwritten .generation List.not_mem_nil
      refine ⟨hinside, .inr ⟨restart, ?_⟩, ⟨⟨rfl, hgeneration, hrestart⟩, hlog⟩, hlast, hnext, hconsumer.frame rfl rfl rfl rfl ?_⟩
      · rw [hvalue, hslot]
        exact List.mem_cons_self
      · intro published number hhold
        exact ⟨{ hhold with stands := hhold.stands.mono _, apart := nofun }, rfl⟩

/-- **A step of the consumer.** -/
theorem read_inv (h : Inv L s) (hstep : read L s = some s') : Inv L s' := by
  obtain ⟨hpublished, hcurrent, hlog, hlast, hproducer, hconsumer⟩ := h
  unfold read at hstep
  unfold ConsumerOk at hconsumer
  cases hc : s.consumer with
  | idle =>
    rw [hc] at hstep
    cases hstep
  | loading =>
    rw [hc] at hstep
    simp only [Option.some.injEq] at hstep
    subst hstep
    exact ⟨hpublished, hcurrent, hlog, hlast, hproducer, hpublished⟩
  | storing published =>
    rw [hc] at hstep hconsumer
    simp only [Option.some.injEq] at hstep
    subst hstep
    exact ⟨hpublished, hcurrent, hlog, hlast, hproducer, hconsumer, rfl⟩
  | checking published =>
    rw [hc] at hstep hconsumer
    simp only at hstep
    split_ifs at hstep with hmoved
    · simp only [Option.some.injEq] at hstep
      subst hstep
      exact ⟨hpublished, hcurrent, hlog, hlast, hproducer, trivial⟩
    · simp only [Option.some.injEq] at hstep
      subst hstep
      have hsame : published = s.published := not_not.mp hmoved
      have hstands := hcurrent
      rw [← hsame] at hstands
      refine ⟨hpublished, hcurrent, hlog, hlast, hproducer,
        ⟨hconsumer.2, hconsumer.1, hstands, countAtStart_le _, lastCopied_le hlog, ?_⟩⟩
      exact hproducer.target_ne hsame
  | retrying =>
    rw [hc] at hstep
    simp only [Option.some.injEq] at hstep
    subst hstep
    exact ⟨hpublished, hcurrent, hlog, hlast, hproducer, trivial⟩
  | reading published number =>
    rw [hc] at hstep hconsumer
    simp only at hstep
    split_ifs at hstep with holder
    · simp only [Option.some.injEq] at hstep
      subst hstep
      exact ⟨hpublished, hcurrent, hlog, hlast, hproducer, { hconsumer with }, rfl, holder.1, holder.2⟩
    · simp only [Option.some.injEq] at hstep
      subst hstep
      refine ⟨hpublished, hcurrent, hlog, hlast, hproducer, { hconsumer with }, rfl, ?_, ?_⟩
      · exact fun hfiltered => not_le.mp fun hle => holder ⟨hfiltered, hle⟩
      · exact fun f hf => absurd (L.reads_all f) hf
  | copying published number generation todo =>
    rw [hc] at hstep hconsumer
    obtain ⟨hhold, hgeneration, hnewer, hcopied⟩ := hconsumer
    cases todo with
    | cons f todo =>
      simp only [Option.some.injEq] at hstep
      subst hstep
      refine ⟨hpublished, hcurrent, hlog, hlast, hproducer, { hhold with }, hgeneration, hnewer, ?_⟩
      intro f' hf'
      simp only
      by_cases hsame : f' = f
      · subst hsame
        rw [Function.update_self]
      · rw [Function.update_of_ne hsame]
        exact hcopied f' fun hmem => (List.mem_cons.mp hmem).elim hsame hf'
    | nil =>
      simp only [Option.some.injEq] at hstep
      subst hstep
      have hvalue : s.params = (s.slots published).value := funext fun f => hcopied f List.not_mem_nil
      have hstands : Stands L s.log number ⟨s.params, generation⟩ := by
        rw [hvalue, ← hgeneration]
        exact hhold.stands
      refine ⟨hpublished, hcurrent.mono _, ⟨⟨hstands, hhold.fresh, hhold.ordered, ?_, rfl⟩, hlog⟩, ?_, hproducer, trivial⟩
      · intro hfiltered
        rw [← hlast hfiltered]
        exact hnewer hfiltered
      · intro hfiltered
        exact if_pos hfiltered
  | refusing published number generation =>
    rw [hc] at hstep hconsumer
    simp only [Option.some.injEq] at hstep
    subst hstep
    obtain ⟨hhold, hgeneration, hfiltered, holder⟩ := hconsumer
    refine ⟨hpublished, hcurrent.mono _, ⟨⟨hfiltered, number, _, hhold.stands, hhold.fresh, ?_⟩, hlog⟩, hlast, hproducer, trivial⟩
    rw [← hlast hfiltered, hgeneration]
    exact holder

theorem step_inv (h : Inv L s) {act : Act F V} (hstep : step L s act = some s') : Inv L s' := by
  cases act with
  | publish value =>
    unfold step at hstep
    cases hp : s.producer with
    | idle =>
      rw [hp] at hstep
      simp only [Option.some.injEq] at hstep
      subst hstep
      have hnext := h.producer
      unfold ProducerOk at hnext
      rw [hp] at hnext
      refine ⟨h.published, h.current, h.log, h.last, ⟨nofun, hnext⟩, h.consumer.frame rfl rfl rfl rfl ?_⟩
      exact fun published number hhold => ⟨{ hhold with apart := nofun }, rfl⟩
    | loading | searching | writing =>
      rw [hp] at hstep
      cases hstep
  | restart value =>
    unfold step at hstep
    cases hp : s.producer with
    | idle =>
      rw [hp] at hstep
      simp only at hstep
      split_ifs at hstep with hrestarts
      simp only [Option.some.injEq] at hstep
      subst hstep
      refine ⟨h.published, h.current, h.log, h.last, ⟨fun _ => hrestarts, rfl⟩, h.consumer.frame rfl rfl rfl rfl ?_⟩
      exact fun published number hhold => ⟨{ hhold with apart := nofun }, rfl⟩
    | loading | searching | writing =>
      rw [hp] at hstep
      cases hstep
  | produce => exact produce_inv h hstep
  | consume =>
    unfold step at hstep
    cases hc : s.consumer with
    | idle =>
      rw [hc] at hstep
      simp only [Option.some.injEq] at hstep
      subst hstep
      exact ⟨h.published, h.current.mono _, ⟨trivial, h.log⟩, h.last, h.producer, trivial⟩
    | loading | storing | checking | retrying | reading | copying | refusing =>
      rw [hc] at hstep
      cases hstep
  | read => exact read_inv h hstep

theorem run_inv (h : Reachable L s) : Inv L s := by
  induction h with
  | init params => exact init_inv L params
  | step act _ hstep ih => exact step_inv ih hstep

/-! ## What a step adds to the log -/

/-- the value inside `Publish` -/
def Producer.value : Producer F V → Option (F → V)
  | .idle => none
  | .loading value _ | .searching value _ _ | .writing value _ _ _ _ => some value

/-- a step of the producer takes its value further, or publishes it -/
theorem produce_cases (hstep : produce L s = some s') :
    s'.consumer = s.consumer ∧ ∃ value, s.producer.value = some value ∧
      (s'.log = s.log ∧ s'.producer.value = some value ∨
        s'.producer = .idle ∧ ∃ generation restart,
          s'.log = .published (count s.log + 1) value generation restart :: s.log) := by
  unfold produce at hstep
  cases hp : s.producer with
  | idle =>
    rw [hp] at hstep
    cases hstep
  | loading value restart =>
    rw [hp] at hstep
    cases hstep
    exact ⟨rfl, value, rfl, .inl ⟨rfl, rfl⟩⟩
  | searching value restart published =>
    rw [hp] at hstep
    cases hstep
    exact ⟨rfl, value, rfl, .inl ⟨rfl, rfl⟩⟩
  | writing value restart generation target todo =>
    rw [hp] at hstep
    cases todo with
    | nil =>
      cases hstep
      exact ⟨rfl, value, rfl, .inr ⟨rfl, generation, restart, rfl⟩⟩
    | cons cell todo =>
      cases hstep
      exact ⟨rfl, value, rfl, .inl ⟨rfl, rfl⟩⟩

/-- a step of the consumer goes on with the read, or ends it with a copy or without one -/
inductive Reads (s s' : State F V) : Prop
  | goes (hconsumer : s'.consumer ≠ .idle) (hlog : s'.log = s.log)
  | copies (published number generation : ℕ) (ok : Bool) (hat : s.consumer = .copying published number generation [])
      (hconsumer : s'.consumer = .idle) (hlog : s'.log = .copied number s.params generation ok :: s.log)
  | refuses (hconsumer : s'.consumer = .idle) (hlog : s'.log = .refused :: s.log)

theorem read_reads (hstep : read L s = some s') : s'.producer = s.producer ∧ Reads s s' := by
  unfold read at hstep
  cases hc : s.consumer with
  | idle =>
    rw [hc] at hstep
    cases hstep
  | loading | storing | retrying =>
    rw [hc] at hstep
    cases hstep
    exact ⟨rfl, .goes nofun rfl⟩
  | checking published =>
    rw [hc] at hstep
    simp only at hstep
    split_ifs at hstep <;> cases hstep
    · exact ⟨rfl, .goes nofun rfl⟩
    · exact ⟨rfl, .goes nofun rfl⟩
  | reading published number =>
    rw [hc] at hstep
    simp only at hstep
    split_ifs at hstep <;> cases hstep
    · exact ⟨rfl, .goes nofun rfl⟩
    · exact ⟨rfl, .goes nofun rfl⟩
  | copying published number generation todo =>
    rw [hc] at hstep
    cases todo with
    | nil =>
      cases hstep
      exact ⟨rfl, .copies published number generation _ hc rfl rfl⟩
    | cons f todo =>
      cases hstep
      exact ⟨rfl, .goes nofun rfl⟩
  | refusing published number generation =>
    rw [hc] at hstep
    cases hstep
    exact ⟨rfl, .refuses rfl rfl⟩

end Invariant

/-! ## What the threads can rely on -/

section Linearizable

variable {F V : Type} {L : Layout F V} {log before later : List (Event F V)}

theorem published_unique (h : Along (EntryOk L) log) {number generation generation' : ℕ} {value value' : F → V}
    {restart restart' : Bool} (hmem : .published number value generation restart ∈ log)
    (hmem' : .published number value' generation' restart' ∈ log) : value' = value ∧ generation' = generation := by
  induction log with
  | nil => cases hmem
  | cons e log ih =>
    have hnewest : ∀ {value value' : F → V} {generation generation' : ℕ} {restart restart' : Bool},
        e = .published number value generation restart → .published number value' generation' restart' ∉ log := by
      rintro value value' generation generation' restart restart' rfl holder
      have hnumber : number = count log + 1 := h.1.1
      have hle := (number_le h.2 holder).2
      omega
    rcases List.mem_cons.mp hmem with heq | holder
    · rcases List.mem_cons.mp hmem' with heq' | holder'
      · rw [← heq] at heq'
        simp only [Event.published.injEq] at heq'
        exact ⟨heq'.2.1, heq'.2.2.1⟩
      · exact absurd holder' (hnewest heq.symm)
    · rcases List.mem_cons.mp hmem' with heq' | holder'
      · exact absurd holder (hnewest heq'.symm)
      · exact ih h.2 holder holder'

/-- what was published before something else was published before it -/
theorem Stands.older {number number' generation' : ℕ} {value' : F → V} {restart' : Bool} {slot : Slot F V}
    (h : Along (EntryOk L) (later ++ .published number' value' generation' restart' :: before)) (hlt : number < number')
    (hs : Stands L (later ++ .published number' value' generation' restart' :: before) number slot) :
    Stands L before number slot := by
  rcases hs with hs | ⟨restart, hmem⟩
  · exact .inl hs
  · refine .inr ⟨restart, ?_⟩
    rcases List.mem_append.mp hmem with hlater | hmem
    · obtain ⟨newer, older, rfl⟩ := List.append_of_mem hlater
      rw [List.append_assoc] at h
      have hnumber : number = count (older ++ .published number' value' generation' restart' :: before) + 1 := h.cut.1
      have hnumber' : number' = count before + 1 := h.suffix.2.suffix.1.1
      have hcount := count_append older (.published number' value' generation' restart' :: before)
      have hlast : count (.published number' value' generation' restart' :: before) = count before + 1 := rfl
      omega
    · rcases List.mem_cons.mp hmem with heq | hmem
      · simp only [Event.published.injEq] at heq
        omega
      · exact hmem

/-- as long as the generations do not begin anew, none is above the last -/
theorem Stands.le_latest (h : Along (EntryOk L) log) {number : ℕ} {slot : Slot F V} (hs : Stands L log number slot)
    (hruns : ∀ k value generation, number < k → .published k value generation true ∉ log) :
    slot.generation ≤ latestGeneration log := by
  induction log with
  | nil =>
    rcases hs with ⟨-, rfl⟩ | ⟨restart, hmem⟩
    · exact le_rfl
    · cases hmem
  | cons e log ih =>
    have hruns' : ∀ k value generation, number < k → .published k value generation true ∉ log :=
      fun k value generation hk hmem => hruns k value generation hk (List.mem_cons_of_mem _ hmem)
    have hbefore : Stands L log number slot → slot.generation ≤ latestGeneration log := fun hs => ih h.2 hs hruns'
    cases e with
    | published number' value' generation' restart' =>
      by_cases hsame : number = number'
      · rcases hs with ⟨rfl, rfl⟩ | ⟨restart, hmem⟩
        · exact Nat.zero_le _
        · subst hsame
          exact (published_unique h List.mem_cons_self hmem).2.le
      · have hnumber : number' = count log + 1 := h.1.1
        have hstands : Stands L log number slot := by
          rcases hs with hs | ⟨restart, hmem⟩
          · exact .inl hs
          · rcases List.mem_cons.mp hmem with heq | hmem
            · simp only [Event.published.injEq] at heq
              exact absurd heq.1 hsame
            · exact .inr ⟨restart, hmem⟩
        have hle := hstands.le h.2
        have hgeneration : generation' = if restart' then 1 else latestGeneration log + 1 := h.1.2.1
        cases restart' with
        | true => exact absurd List.mem_cons_self (hruns number' value' generation' (by omega))
        | false => exact (hbefore hstands).trans (by rw [hgeneration]; exact Nat.le_succ _)
    | started => exact hbefore (hs.imp_right fun ⟨restart, hmem⟩ => ⟨restart, (List.mem_cons.mp hmem).resolve_left nofun⟩)
    | copied => exact hbefore (hs.imp_right fun ⟨restart, hmem⟩ => ⟨restart, (List.mem_cons.mp hmem).resolve_left nofun⟩)
    | refused => exact hbefore (hs.imp_right fun ⟨restart, hmem⟩ => ⟨restart, (List.mem_cons.mp hmem).resolve_left nofun⟩)

/-- later numbers have later generations, as long as the generations do not begin anew between the two -/
theorem Stands.generation_le (h : Along (EntryOk L) log) {number number' : ℕ} {slot slot' : Slot F V}
    (hs : Stands L log number slot) (hs' : Stands L log number' slot') (hle : number ≤ number')
    (hruns : ∀ k value generation, number < k → .published k value generation true ∉ log) :
    slot.generation ≤ slot'.generation := by
  rcases hs' with ⟨rfl, rfl⟩ | ⟨restart', hmem'⟩
  · rcases hs with ⟨-, rfl⟩ | ⟨restart, hmem⟩
    · exact le_rfl
    · have hpos := (number_le h hmem).1
      omega
  · rcases hle.lt_or_eq with hlt | rfl
    · obtain ⟨later, before, rfl⟩ := List.append_of_mem hmem'
      have hentry := h.cut
      have hbefore := (hs.older h hlt).le_latest h.suffix.2 fun k value generation hk hmem =>
        hruns k value generation hk (List.mem_append_right _ (List.mem_cons_of_mem _ hmem))
      have hnumber : slot'.generation = if restart' then 1 else latestGeneration before + 1 := hentry.2.1
      cases restart' with
      | true => exact absurd hmem' (hruns _ _ _ hlt)
      | false =>
        rw [hnumber]
        exact hbefore.trans (Nat.le_succ _)
    · rcases hs with ⟨rfl, rfl⟩ | ⟨restart, hmem⟩
      · exact Nat.zero_le _
      · exact (published_unique h hmem' hmem).2.le

/-- without restarts the generations are the numbers -/
theorem Stands.counted (h : Along (EntryOk L) log) (hrestarts : L.restarts = false) {number : ℕ} {slot : Slot F V}
    (hs : Stands L log number slot) : slot.generation = number := by
  have hlatest : latestGeneration log = count log ∧
      ∀ number value generation restart, .published number value generation restart ∈ log → generation = number := by
    clear hs
    induction log with
    | nil => exact ⟨rfl, nofun⟩
    | cons e log ih =>
      obtain ⟨hcount, hall⟩ := ih h.2
      cases e with
      | published number value generation restart =>
        have hrestart : restart = false := by
          cases restart with
          | false => rfl
          | true =>
            have hon : L.restarts = true := h.1.2.2 rfl
            rw [hrestarts] at hon
            cases hon
        have hnumber : number = count log + 1 := h.1.1
        have hgeneration : generation = if restart then 1 else latestGeneration log + 1 := h.1.2.1
        have hnew : generation = number := by
          rw [hgeneration, hrestart, hcount, hnumber]
          rfl
        refine ⟨hnew.trans hnumber, ?_⟩
        intro number' value' generation' restart' hmem
        rcases List.mem_cons.mp hmem with heq | hmem
        · simp only [Event.published.injEq] at heq
          rw [heq.1, heq.2.2.1, hnew]
        · exact hall _ _ _ _ hmem
      | started => exact ⟨hcount, fun _ _ _ _ hmem => hall _ _ _ _ ((List.mem_cons.mp hmem).resolve_left nofun)⟩
      | copied => exact ⟨hcount, fun _ _ _ _ hmem => hall _ _ _ _ ((List.mem_cons.mp hmem).resolve_left nofun)⟩
      | refused => exact ⟨hcount, fun _ _ _ _ hmem => hall _ _ _ _ ((List.mem_cons.mp hmem).resolve_left nofun)⟩
  rcases hs with ⟨rfl, rfl⟩ | ⟨restart, hmem⟩
  · rfl
  · exact hlatest.2 _ _ _ _ hmem

/-- without restarts the last copy is known by its number as well as by its generation -/
theorem lastCopied_counted (h : Along (EntryOk L) log) (hrestarts : L.restarts = false) :
    (lastCopied log).2 = (lastCopied log).1 := by
  induction log with
  | nil => rfl
  | cons e log ih =>
    cases e with
    | published => exact ih h.2
    | started => exact ih h.2
    | copied number value generation ok =>
      have hstands : Stands L log number ⟨value, generation⟩ := h.1.1
      exact hstands.counted h.2 hrestarts
    | refused => exact ih h.2

/-- the last copy is none of those before another one -/
theorem lastCopied_ge (h : Along (EntryOk L) (later ++ before)) :
    (lastCopied before).1 ≤ (lastCopied (later ++ before)).1 ∧
      (L.filtered = true → (lastCopied before).2 ≤ (lastCopied (later ++ before)).2) := by
  induction later with
  | nil => exact ⟨le_rfl, fun _ => le_rfl⟩
  | cons e later ih =>
    obtain ⟨hnumber, hgeneration⟩ := ih h.2
    cases e with
    | published => exact ⟨hnumber, hgeneration⟩
    | started => exact ⟨hnumber, hgeneration⟩
    | refused => exact ⟨hnumber, hgeneration⟩
    | copied number value generation ok =>
      have hentry := h.1
      exact ⟨hnumber.trans hentry.2.2.1, fun hfiltered => (hgeneration hfiltered).trans (hentry.2.2.2.1 hfiltered).le⟩

theorem lastCopied_mem (h : 0 < (lastCopied log).2) :
    ∃ value ok, .copied (lastCopied log).1 value (lastCopied log).2 ok ∈ log := by
  induction log with
  | nil => exact absurd h (Nat.lt_irrefl 0)
  | cons e log ih =>
    cases e with
    | copied number value generation ok => exact ⟨value, ok, List.mem_cons_self⟩
    | published | started | refused =>
      obtain ⟨value, ok, hmem⟩ := ih h
      exact ⟨value, ok, List.mem_cons_of_mem _ hmem⟩

theorem countAtStart_eq (during : List (Event F V)) (h : .started ∉ during) :
    countAtStart (during ++ .started :: before) = count before := by
  induction during with
  | nil => rfl
  | cons e during ih =>
    have hrest := ih fun hmem => h (List.mem_cons_of_mem _ hmem)
    cases e with
    | started => exact absurd List.mem_cons_self h
    | published => exact hrest
    | copied => exact hrest
    | refused => exact hrest

/-- the slot the consumer has made sure of and reads -/
def Consumer.source : Consumer F → Option ℕ
  | .reading published _ => some published
  | .copying published _ _ _ => some published
  | .refusing published _ _ => some published
  | _ => none

/-- what the two threads can rely on in a state and in the log that has led to it -/
structure Linearizable (L : Layout F V) (s : State F V) : Prop where
  /-- the search of the producer has ended inside the three slots -/
  inside : ∀ target, s.producer.target = some target → target < 3
  /-- no slot is copied while it is written -/
  apart : ∀ target, s.producer.target = some target → s.consumer.source ≠ some target
  /-- what was obtained is one published value with its own generation -/
  whole : ∀ later before number value generation, s.log = later ++ .copied number value generation true :: before →
    (∃ restart, .published number value generation restart ∈ before) ∧
      ∀ value' generation' restart', .published number value' generation' restart' ∈ s.log →
        value' = value ∧ generation' = generation
  /-- without restarts the generations count what was published -/
  counted : L.restarts = false → ∀ number value generation restart,
    .published number value generation restart ∈ s.log → generation = number
  /-- what is obtained with the filter is newer than what was obtained before -/
  increasing : L.filtered = true → ∀ later middle before number value generation ok number' value' generation' ok',
    s.log = later ++ .copied number' value' generation' ok' :: (middle ++ .copied number value generation ok :: before) →
      generation < generation'
  /-- what is obtained without it is not older, as long as the generations do not begin anew after the first read began -/
  monotone : ∀ later middle during before number value generation ok number' value' generation' ok',
    s.log = later ++ .copied number' value' generation' ok' ::
      (middle ++ .copied number value generation ok :: (during ++ .started :: before)) →
    .started ∉ during →
    (∀ k w g, .published k w g true ∉ middle ++ .copied number value generation ok :: during) →
      generation ≤ generation'
  /-- a read comes back with what was published before it began or with something newer, or the consumer already has that -/
  fresh : ∀ later e during before, s.log = later ++ e :: (during ++ .started :: before) → .started ∉ during →
    ∀ k w g restart, .published k w g restart ∈ before →
      (∀ number value generation ok, e = .copied number value generation ok → k ≤ number) ∧
      (e = .refused → ∃ number value generation ok,
        .copied number value generation ok ∈ during ++ .started :: before ∧ k ≤ number)

theorem Linearizable.of_inv {s : State F V} (h : Inv L s) : Linearizable L s where
  inside := by
    intro target htarget
    have hproducer := h.producer
    unfold ProducerOk at hproducer
    cases hp : s.producer with
    | idle | loading | searching =>
      rw [hp] at htarget
      cases htarget
    | writing value restart generation slot todo =>
      rw [hp] at htarget hproducer
      have hslot : slot = target := Option.some.inj htarget
      rw [← hslot]
      exact hproducer.2.2.2.1
  apart := by
    intro target htarget hsource
    have hconsumer := h.consumer
    unfold ConsumerOk at hconsumer
    have hholding : ∀ number, ¬Holding L s target number := fun number hhold => hhold.apart htarget
    cases hc : s.consumer with
    | idle | loading | storing | checking | retrying =>
      rw [hc] at hsource
      cases hsource
    | reading published number =>
      rw [hc] at hsource hconsumer
      have hslot : published = target := Option.some.inj hsource
      exact hholding number (hslot ▸ hconsumer)
    | copying published number generation todo =>
      rw [hc] at hsource hconsumer
      have hslot : published = target := Option.some.inj hsource
      exact hholding number (hslot ▸ hconsumer.1)
    | refusing published number generation =>
      rw [hc] at hsource hconsumer
      have hslot : published = target := Option.some.inj hsource
      exact hholding number (hslot ▸ hconsumer.1)
  whole := by
    intro later before number value generation hlog
    have hall := h.log
    rw [hlog] at hall
    obtain ⟨hstands, -, -, hfiltered, husable⟩ := hall.cut
    rcases hstands with ⟨rfl, hinitial⟩ | ⟨restart, hmem⟩
    · rw [Slot.mk.injEq] at hinitial
      rcases L.initial_refused with hon | hoff
      · have hnewer := hfiltered hon
        omega
      · rw [hinitial.1, hoff] at husable
        cases husable
    · have hlogged : .published number value generation restart ∈ s.log := by
        rw [hlog]
        exact List.mem_append_right _ (List.mem_cons_of_mem _ hmem)
      exact ⟨⟨restart, hmem⟩, fun value' generation' restart' hmem' => published_unique h.log hlogged hmem'⟩
  counted := by
    intro hrestarts number value generation restart hmem
    have hstands : Stands L s.log number ⟨value, generation⟩ := .inr ⟨restart, hmem⟩
    exact hstands.counted h.log hrestarts
  increasing := by
    intro hfiltered later middle before number value generation ok number' value' generation' ok' hlog
    have hall := h.log
    rw [hlog] at hall
    have hentry := hall.cut
    have hlast := (lastCopied_ge hall.suffix.2).2 hfiltered
    exact hlast.trans_lt (hentry.2.2.2.1 hfiltered)
  monotone := by
    intro later middle during before number value generation ok number' value' generation' ok' hlog hstarted hruns
    have hall := h.log
    rw [hlog] at hall
    have hentry' := hall.cut
    have hpast := hall.suffix.2
    have hentry := hpast.cut
    have hle : number ≤ number' := (lastCopied_ge hpast).1.trans hentry'.2.2.1
    have hstart : count before ≤ number := by
      rw [← countAtStart_eq during hstarted]
      exact hentry.2.1
    -- what was published before the first read began has a number that is not above that of the first value
    have hanew : ∀ k w g, number < k → .published k w g true ∉
        middle ++ .copied number value generation ok :: (during ++ .started :: before) := by
      intro k w g hk hmem
      have hsplit : middle ++ .copied number value generation ok :: (during ++ .started :: before) =
          (middle ++ .copied number value generation ok :: during) ++ .started :: before := by simp
      rw [hsplit] at hmem
      rcases List.mem_append.mp hmem with hmem | hmem
      · exact hruns k w g hmem
      · have hold := (List.mem_cons.mp hmem).resolve_left nofun
        have hcount := (number_le hpast.suffix.2.suffix.2 hold).2
        omega
    have hstands : Stands L (middle ++ .copied number value generation ok :: (during ++ .started :: before)) number
        ⟨value, generation⟩ := by
      rcases hentry.1 with hinitial | ⟨restart, hmem⟩
      · exact .inl hinitial
      · exact .inr ⟨restart, List.mem_append_right _ (List.mem_cons_of_mem _ hmem)⟩
    exact hstands.generation_le hpast hentry'.1 hle hanew
  fresh := by
    intro later e during before hlog hstarted k w g restart hmem
    have hall := h.log
    rw [hlog] at hall
    have hentry := hall.cut
    have hpast := hall.suffix.2
    have hk := number_le hpast.suffix.2 hmem
    have hcount : countAtStart (during ++ .started :: before) = count before := countAtStart_eq during hstarted
    constructor
    · rintro number value generation ok rfl
      have hfresh : countAtStart (during ++ .started :: before) ≤ number := hentry.2.1
      omega
    · rintro rfl
      obtain ⟨hfiltered, number, slot, hstands, hfresh, holder⟩ := hentry
      have hrestarts := L.filtered_runs hfiltered
      have hgeneration := hstands.counted hpast hrestarts
      have hsome : 0 < (lastCopied (during ++ .started :: before)).2 := by omega
      obtain ⟨value, ok, hcopied⟩ := lastCopied_mem hsome
      refine ⟨_, value, _, ok, hcopied, ?_⟩
      obtain ⟨newer, older, hsplit⟩ := List.append_of_mem hcopied
      rw [hsplit] at hpast
      have hstands' := hpast.cut.1
      have hgeneration' := hstands'.counted hpast.suffix.2 hrestarts
      simp only at hgeneration'
      omega

end Linearizable

end ViperFx.Core.Mailbox
