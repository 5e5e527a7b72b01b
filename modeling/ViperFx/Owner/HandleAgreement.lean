/-
The daemon and its owner agree on the effect handle.

What the daemon will publish of the handle on a connection is what it publishes now, changed by each frame under way. That
view is what the invariant speaks of: on every open connection it is nothing or the handle that the owner holds, except
while a synchronized step of the owner has changed the handle and not reported it yet. A report is lost only where it is not
needed, on an owner without an open connection: its next one starts with nothing published.

This rests on the socket fields of the owner. `closeLink` clears them without the lock and without looking at what they hold,
so a callback whose send failed on one link can clear the fields of the next.

Results:
  · step_sound            : every step keeps the invariant, unless a callback clears the output of an open link
  · owner_handle_agrees   : in every run without such a step, a ready supervisor publishes the handle that the owner holds
  · cleared_by_callback   : a run in which the daemon publishes a handle that its owner has replaced
-/
import ViperFx.Owner.OwnerMain

namespace ViperFx.Owner

open ViperFx.Daemon

/-! ## Views -/

/-- the effect id that is published, if one is -/
def published (s : OwnerSupervisor) : Option UInt32 := if s.ready then some s.effectId else none

/-- what is published after the frame, if `before` is before it -/
def hear (before : Option UInt32) : OwnerFrame → Option UInt32
  | .owned owned => some owned.effectId
  | .ownerFailed _ | .released => none
  | .hello _ | .sessionDelta _ | .rejected => before

/-- what a report makes the daemon publish -/
def Report.claim (r : Report) : Option UInt32 := hear none r.frame

theorem hear_report (before : Option UInt32) (r : Report) : hear before r.frame = r.claim := by
  cases r <;> rfl

theorem hear_mono (frames : List OwnerFrame) {id : UInt32} (before : Option UInt32)
    (h : frames.foldl hear none = some id) : frames.foldl hear before = some id := by
  induction frames generalizing before with
  | nil => cases h
  | cons frame frames ih =>
    rw [List.foldl_cons] at h ⊢
    cases frame with
    | owned owned => exact h
    | ownerFailed failed => exact h
    | released => exact h
    | hello hello => exact ih before h
    | sessionDelta delta => exact ih before h
    | rejected => exact ih before h

namespace OwnerSystem

/-- what the daemon publishes of the handle behind a connection -/
def publishedOf (s : OwnerSystem) (c : ℕ) : Option UInt32 :=
  if s.daemon.client = some c then published s.daemon.supervisor else none

/-- what it will publish once it has handled the frames under way -/
def view (s : OwnerSystem) (c : ℕ) : Option UInt32 := (s.connection c).toDaemon.foldl hear (s.publishedOf c)

theorem close_owner (s : OwnerSystem) (c d : ℕ) : ((s.close c).connection d).owner = (s.connection d).owner := by
  unfold close
  by_cases hd : d = c
  · rw [hd, setConnection_self]
  · rw [setConnection_of_ne hd]

theorem close_closed (s : OwnerSystem) (c d : ℕ) (h : ((s.close c).connection d).closed = false) :
    (s.connection d).closed = false := by
  unfold close at h
  by_cases hd : d = c
  · rw [hd, setConnection_self] at h
    cases h
  · rw [setConnection_of_ne hd] at h
    exact h

theorem close_toDaemon (s : OwnerSystem) (c d : ℕ) : ((s.close c).connection d).toDaemon = (s.connection d).toDaemon := by
  unfold close
  by_cases hd : d = c
  · rw [hd, setConnection_self]
  · rw [setConnection_of_ne hd]

/-- a callback that clears the output finds no open connection there -/
def timely (s : OwnerSystem) : Move → Bool
  | .owner p .callbackCloses =>
    match (s.process p).callback with
    | some (.clearsOutput _) => (s.sink p).isNone
    | _ => true
  | _ => true

/-- every step of the run is timely -/
def Steady : OwnerSystem → List Move → Prop
  | _, [] => True
  | s, move :: moves => s.timely move = true ∧ Steady (s.step move) moves

instance decidableSteady : (s : OwnerSystem) → (moves : List Move) → Decidable (Steady s moves)
  | _, [] => .isTrue trivial
  | s, move :: moves =>
    have := decidableSteady (s.step move) moves
    inferInstanceAs (Decidable (s.timely move = true ∧ Steady (s.step move) moves))

/-- a connection of process `p` that is open -/
structure Up (s : OwnerSystem) (c p : ℕ) : Prop where
  owner : (s.connection c).owner = some p
  opened : (s.connection c).closed = false

/-- the connection of the daemon is up, no frame of the owner is under way on it, and the owner is between two synchronized
steps -/
structure Quiet (s : OwnerSystem) (c p : ℕ) : Prop where
  connected : s.daemon.client = some c
  up : s.Up c p
  drained : (s.connection c).toDaemon = []
  unlocked : (s.process p).pending = none

end OwnerSystem

namespace OwnerProcess

def heldId (q : OwnerProcess) : Option UInt32 := q.held.map fun effect => effect.id.toUInt32

end OwnerProcess

/-! ## The invariant -/

namespace SocketThread

/-- the connection that the thread has opened and not yet served -/
def candidate : SocketThread → Option ℕ
  | .opening _ c => some c
  | _ => none

/-- the candidate, once the thread has put it into the socket field -/
def placed : SocketThread → Option ℕ
  | .opening .setsSocket _ => none
  | .opening _ c => some c
  | _ => none

/-- the connection that the thread has put into the output field and not yet found closed -/
def holds : SocketThread → Option ℕ
  | .opening .saysHello c | .opening .serves c | .serving c => some c
  | _ => none

end SocketThread

/-- what the socket thread keeps of the two socket fields -/
structure Threaded (connection : ℕ → Connection) (p : ℕ) (q : OwnerProcess) : Prop where
  candidate : ∀ c, q.main.candidate = some c → (connection c).owner = some p
  socket : ∀ c d, q.main.placed = some c → q.socket = some d → d = c
  output : ∀ c, q.output = some c →
    (connection c).owner = some p ∧ ((connection c).closed = false → q.main.holds = some c)

theorem Threaded.mono {connection connection' : ℕ → Connection} {p : ℕ} {q : OwnerProcess} (h : Threaded connection p q)
    (howner : ∀ c, (connection' c).owner = (connection c).owner)
    (hclosed : ∀ c, (connection' c).closed = false → (connection c).closed = false) : Threaded connection' p q := by
  refine ⟨fun c hc => ?_, h.socket, fun c hc => ?_⟩
  · rw [howner]
    exact h.candidate c hc
  · rw [howner]
    exact ⟨(h.output c hc).1, fun hopen => (h.output c hc).2 (hclosed c hopen)⟩

structure Sound (s : OwnerSystem) : Prop where
  idle : s.daemon.client = none → published s.daemon.supervisor = none
  fresh : ∀ c, (s.connection c).owner = none → (s.connection c).toDaemon = [] ∧ s.daemon.client ≠ some c
  living : ∀ c p, s.Up c p → (s.process p).alive = true
  silent : ∀ c p, s.Up c p → (s.process p).output ≠ some c → s.view c = none
  agreed : ∀ c p, s.Up c p → (s.process p).pending = none → ∀ id, s.view c = some id → (s.process p).heldId = some id
  pending : ∀ p report sender, (s.process p).pending = some (report, sender) → report.claim = (s.process p).heldId
  threaded : ∀ p, Threaded s.connection p (s.process p)

theorem sound_start (ownerEnabled : Bool) (daemonGeneration : UInt64) (survivor : ℤ) (alive : Bool) :
    Sound (.start ownerEnabled daemonGeneration survivor alive) := by
  have hview : ∀ c, (OwnerSystem.start ownerEnabled daemonGeneration survivor alive).view c = none := fun c => rfl
  refine ⟨fun _ => ?_, fun c _ => ⟨rfl, fun h => (nomatch h)⟩, fun c p h => (nomatch h.owner), fun c p _ _ => hview c,
    fun c p h => (nomatch h.owner), fun p report sender h => (nomatch h), fun p => ⟨fun c h => (nomatch h),
    fun c d h => (nomatch h), fun c h => (nomatch h)⟩⟩
  -- a survivor is awaited, not ready
  show published (OwnerEndpoint.start ownerEnabled daemonGeneration survivor alive).supervisor = none
  unfold OwnerEndpoint.start OwnerSupervisor.seedSurvivingOwner
  dsimp only
  split_ifs <;> rfl

namespace Sound

variable {s t : OwnerSystem} {p : ℕ}

/-! ## Changes of the connections and of the daemon -/

/-- the processes stay, connections are closed but not opened, and nothing more is published than before -/
theorem follow (h : Sound s) (hprocess : t.process = s.process)
    (howner : ∀ c, (t.connection c).owner = (s.connection c).owner)
    (hclosed : ∀ c, (t.connection c).closed = false → (s.connection c).closed = false)
    (hqueue : ∀ c, (s.connection c).toDaemon = [] → (t.connection c).toDaemon = [])
    (hidle : t.daemon.client = none → published t.daemon.supervisor = none)
    (hclient : ∀ c, t.daemon.client = some c → (s.connection c).owner ≠ none)
    (hview : ∀ c p, t.Up c p → ∀ id, t.view c = some id → s.view c = some id) : Sound t := by
  have hup : ∀ c p, t.Up c p → s.Up c p := fun c p hc => ⟨(howner c).symm.trans hc.owner, hclosed c hc.opened⟩
  refine ⟨hidle, fun c hc => ?_, fun c p hc => ?_, fun c p hc hout => ?_, fun c p hc hpending id hid => ?_,
    fun p report sender hp => ?_, fun p => ?_⟩
  · rw [howner] at hc
    exact ⟨hqueue c (h.fresh c hc).1, fun hsome => hclient c hsome hc⟩
  · rw [hprocess]
    exact h.living c p (hup c p hc)
  · rw [hprocess] at hout
    have hnone := h.silent c p (hup c p hc) hout
    cases hv : t.view c with
    | none => rfl
    | some id => exact absurd (hnone.symm.trans (hview c p hc id hv)) (by simp)
  · rw [hprocess] at hpending ⊢
    exact h.agreed c p (hup c p hc) hpending id (hview c p hc id hid)
  · rw [hprocess] at hp ⊢
    exact h.pending p report sender hp
  · rw [hprocess]
    exact (h.threaded p).mono howner hclosed

/-- connections are closed, or queues to an owner change -/
theorem connections (h : Sound s) (k : ℕ → Connection) (howner : ∀ c, (k c).owner = (s.connection c).owner)
    (hclosed : ∀ c, (k c).closed = false → (s.connection c).closed = false)
    (hqueue : ∀ c, (k c).toDaemon = (s.connection c).toDaemon) : Sound { s with connection := k } := by
  refine h.follow rfl howner hclosed (fun c hc => (hqueue c).trans hc) h.idle (fun c hc hnone => (h.fresh c hnone).2 hc)
    fun c p _ id hid => ?_
  have hsame : OwnerSystem.view { s with connection := k } c = s.view c := by
    unfold OwnerSystem.view
    rw [show ({ s with connection := k } : OwnerSystem).connection c = k c from rfl, hqueue]
    rfl
  rw [← hsame]
  exact hid

theorem setConnection (h : Sound s) (c : ℕ) (k : Connection) (howner : k.owner = (s.connection c).owner)
    (hclosed : k.closed = false → (s.connection c).closed = false)
    (hqueue : k.toDaemon = (s.connection c).toDaemon) : Sound (s.setConnection c k) := by
  refine h.connections _ (fun d => ?_) (fun d => ?_) (fun d => ?_)
  all_goals
    rw [Function.update_apply]
    split_ifs with hd
  · rw [howner, hd]
  · rfl
  · rw [hd]
    exact hclosed
  · exact id
  · rw [hqueue, hd]
  · rfl

theorem close (h : Sound s) (c : ℕ) : Sound (s.close c) := h.setConnection c _ rfl (fun hc => (nomatch hc)) rfl

theorem closeCurrent (h : Sound s) (current : Option ℕ) : Sound (s.closeCurrent current) := by
  cases current with
  | none => exact h
  | some c => exact h.close c

theorem command (h : Sound s) (c : ℕ) (sends : Bool) (commands : List OwnerCommand) :
    Sound (s.command c sends commands) := by
  unfold OwnerSystem.command
  split_ifs
  · exact h.setConnection c _ rfl id rfl
  · exact h

/-! ## Changes of a process -/

@[simp] theorem setProcess_view (p c : ℕ) (q : OwnerProcess) : (s.setProcess p q).view c = s.view c := rfl

theorem setProcess (h : Sound s) (q : OwnerProcess) (halive : ∀ c, s.Up c p → q.alive = true)
    (hsilent : ∀ c, s.Up c p → q.output ≠ some c → s.view c = none)
    (hagreed : ∀ c, s.Up c p → q.pending = none → ∀ id, s.view c = some id → q.heldId = some id)
    (hpending : ∀ report sender, q.pending = some (report, sender) → report.claim = q.heldId)
    (hthreaded : Threaded s.connection p q) : Sound (s.setProcess p q) := by
  have hsame : (s.setProcess p q).process p = q := s.setProcess_self p q
  have hother : ∀ p', p' ≠ p → (s.setProcess p q).process p' = s.process p' := fun p' hp => s.setProcess_of_ne hp q
  have hup : ∀ {c p'}, (s.setProcess p q).Up c p' → s.Up c p' := fun hc => ⟨hc.owner, hc.opened⟩
  refine ⟨h.idle, h.fresh, fun c p' hc => ?_, fun c p' hc hout => ?_, fun c p' hc hnone id hid => ?_,
    fun p' report sender hp => ?_, fun p' => ?_⟩
  all_goals
    by_cases hpp : p' = p
    · subst hpp
      simp only [hsame] at *
      first
        | exact halive c (hup hc)
        | exact hsilent c (hup hc) hout
        | exact hagreed c (hup hc) hnone id hid
        | exact hpending report sender hp
        | exact hthreaded
    · simp only [hother p' hpp] at *
      first
        | exact h.living c p' (hup hc)
        | exact h.silent c p' (hup hc) hout
        | exact h.agreed c p' (hup hc) hnone id hid
        | exact h.pending p' report sender hp
        | exact h.threaded p'

/-- a thread of the process moves on; the handle stays, and no open connection loses the output -/
theorem moveOn (h : Sound s) (q : OwnerProcess) (halive : q.alive = (s.process p).alive)
    (heffect : q.effectOwner = (s.process p).effectOwner) (hpending : q.pending = (s.process p).pending)
    (houtput : ∀ c, s.Up c p → (s.process p).output = some c → q.output = some c)
    (hthreaded : Threaded s.connection p q) : Sound (s.setProcess p q) := by
  have hheld : q.heldId = (s.process p).heldId := by
    unfold OwnerProcess.heldId OwnerProcess.held
    rw [heffect]
  refine h.setProcess q (fun c hc => halive.trans (h.living c p hc)) (fun c hc hout => ?_) (fun c hc hnone id hid => ?_)
    (fun report sender hp => ?_) hthreaded
  · exact h.silent c p hc fun hbefore => hout (houtput c hc hbefore)
  · rw [hpending] at hnone
    rw [hheld]
    exact h.agreed c p hc hnone id hid
  · rw [hpending] at hp
    rw [hheld]
    exact h.pending p report sender hp

/-- a synchronized step changes the handle and is about to report it -/
theorem synchronize (h : Sound s) (q : OwnerProcess) (report : Report) (sender : Sender)
    (halive : q.alive = (s.process p).alive) (hmain : q.main = (s.process p).main)
    (hsocket : q.socket = (s.process p).socket) (houtput : q.output = (s.process p).output)
    (hpending : q.pending = some (report, sender)) (hclaim : report.claim = q.heldId) : Sound (s.setProcess p q) := by
  refine h.setProcess q (fun c hc => halive.trans (h.living c p hc)) (fun c hc hout => ?_) (fun c _ hnone => ?_)
    (fun report' sender' hp => ?_) ?_
  · rw [houtput] at hout
    exact h.silent c p hc hout
  · rw [hpending] at hnone
    cases hnone
  · rw [hpending, Option.some.injEq, Prod.mk.injEq] at hp
    rw [← hp.1]
    exact hclaim
  · obtain ⟨hcandidate, hplaced, hout⟩ := h.threaded p
    rw [← hmain] at hcandidate hplaced hout
    rw [← hsocket] at hplaced
    rw [← houtput] at hout
    exact ⟨hcandidate, hplaced, hout⟩

theorem exit (h : Sound s) (p : ℕ) : Sound (s.exit p) := by
  have hclosed := h.connections
    (fun c => if (s.connection c).owner = some p then { s.connection c with closed := true } else s.connection c)
    (fun c => by split_ifs <;> rfl) (fun c => by split_ifs <;> simp) (fun c => by split_ifs <;> rfl)
  -- no connection of the process is open any more
  have hnone : ∀ c, ¬ OwnerSystem.Up
      { s with connection := fun c =>
          if (s.connection c).owner = some p then { s.connection c with closed := true } else s.connection c } c p := by
    rintro c ⟨howner, hopen⟩
    by_cases hp : (s.connection c).owner = some p
    · simp [hp] at hopen
    · simp [hp] at howner
  exact hclosed.setProcess {} (fun c hc => absurd hc (hnone c)) (fun c hc => absurd hc (hnone c))
    (fun c hc => absurd hc (hnone c)) (fun report sender hp => (nomatch hp))
    ⟨fun c hc => (nomatch hc), fun c d hc => (nomatch hc), fun c hc => (nomatch hc)⟩

/-! ## Frames -/

/-- what a synchronized step is about to send can be encoded, and the daemon decodes it to the frame that is queued here -/
theorem pending_decoded (h : Sound s) {report : Report} {sender : Sender}
    (hpending : (s.process p).pending = some (report, sender)) :
    ∃ bytes, report.payload = .ok bytes ∧ report.decoded bytes = .ok report.frame := by
  refine report.payload_decoded ?_
  rintro control rfl
  have hheld := h.pending p _ sender hpending
  obtain ⟨effect, -, hid⟩ := Option.map_eq_some_iff.mp hheld.symm
  exact effect.issued (OwnerWire.int32_eq_zero.mp hid)

theorem sink_eq {c : ℕ} (h : Sound s) (hsink : s.sink p = some c) :
    (s.process p).output = some c ∧ s.Up c p ∧ (s.process p).main.holds = some c := by
  unfold OwnerSystem.sink at hsink
  rw [Option.filter_eq_some_iff] at hsink
  obtain ⟨hout, hopen⟩ := hsink
  have hopen : (s.connection c).closed = false := by simpa using hopen
  obtain ⟨howner, hholds⟩ := (h.threaded p).output c hout
  exact ⟨hout, ⟨howner, hopen⟩, hholds hopen⟩

theorem write_view_self (c : ℕ) (frame : OwnerFrame) : (s.write c frame).view c = hear (s.view c) frame := by
  unfold OwnerSystem.view OwnerSystem.write
  rw [OwnerSystem.setConnection_self, List.foldl_append]
  rfl

theorem write_view_of_ne {c d : ℕ} (hd : d ≠ c) (frame : OwnerFrame) : (s.write c frame).view d = s.view d := by
  unfold OwnerSystem.view OwnerSystem.write
  rw [OwnerSystem.setConnection_of_ne hd]
  rfl

@[simp] theorem write_owner (c d : ℕ) (frame : OwnerFrame) :
    ((s.write c frame).connection d).owner = (s.connection d).owner := by
  by_cases hd : d = c
  · subst hd
    simp [OwnerSystem.write]
  · simp [OwnerSystem.write, hd]

@[simp] theorem write_closed (c d : ℕ) (frame : OwnerFrame) :
    ((s.write c frame).connection d).closed = (s.connection d).closed := by
  by_cases hd : d = c
  · subst hd
    simp [OwnerSystem.write]
  · simp [OwnerSystem.write, hd]

theorem of_write_up {c d p' : ℕ} {frame : OwnerFrame} (h : (s.write c frame).Up d p') : s.Up d p' :=
  ⟨(write_owner c d frame).symm.trans h.owner, (write_closed c d frame).symm.trans h.opened⟩

/-- a process writes a frame that says nothing of the handle, or the report of the step it is in -/
theorem write {c : ℕ} {frame : OwnerFrame} (h : Sound s) (hsink : s.sink p = some c)
    (hframe : (s.process p).pending = none → ∀ before, hear before frame = before) : Sound (s.write c frame) := by
  obtain ⟨hout, hup, -⟩ := h.sink_eq hsink
  refine ⟨h.idle, fun d hd => ?_, fun d p' hd => h.living d p' (of_write_up hd), fun d p' hd hother => ?_,
    fun d p' hd hnone id hid => ?_, h.pending, fun p' => ?_⟩
  · rw [write_owner] at hd
    have hne : d ≠ c := by
      rintro rfl
      exact absurd (hd.symm.trans hup.owner) (by simp)
    obtain ⟨hempty, hclient⟩ := h.fresh d hd
    refine ⟨?_, hclient⟩
    rw [OwnerSystem.write, OwnerSystem.setConnection_of_ne hne]
    exact hempty
  · have hbefore := of_write_up hd
    by_cases hdc : d = c
    · subst hdc
      obtain rfl : p' = p := Option.some.inj (hbefore.owner.symm.trans hup.owner)
      exact absurd hout hother
    · rw [write_view_of_ne hdc]
      exact h.silent d p' hbefore hother
  · have hbefore := of_write_up hd
    by_cases hdc : d = c
    · subst hdc
      obtain rfl : p' = p := Option.some.inj (hbefore.owner.symm.trans hup.owner)
      rw [write_view_self, hframe hnone] at hid
      exact h.agreed d p' hbefore hnone id hid
    · rw [write_view_of_ne hdc] at hid
      exact h.agreed d p' hbefore hnone id hid
  · exact (h.threaded p').mono (fun d => write_owner c d frame) fun d hd => (write_closed c d frame).symm.trans hd

/-- the report of a synchronized step goes out, or is lost with the link -/
theorem report (h : Sound s) (report : Report) (sender : Sender) (hpending : (s.process p).pending = some (report, sender)) :
    Sound (s.report p report sender) := by
  have hclaim := h.pending p report sender hpending
  have hthreaded := h.threaded p
  unfold OwnerSystem.report
  cases hsink : s.sink p with
  | some c =>
    have hwritten : Sound (s.write c report.frame) :=
      h.write hsink fun hnone => absurd (hpending.symm.trans hnone) (by simp)
    obtain ⟨hout, hup, -⟩ := h.sink_eq hsink
    refine hwritten.setProcess _ (fun d hd => hwritten.living d p hd) (fun d hd hother => ?_) (fun d hd _ id hid => ?_)
      (fun report sender hp => (nomatch hp)) ?_
    · exact hwritten.silent d p hd hother
    · by_cases hdc : d = c
      · subst hdc
        rw [write_view_self, hear_report, hclaim] at hid
        exact hid
      · have hsilent := hwritten.silent d p hd (fun hd => hdc (Option.some.inj (hd.symm.trans hout)))
        exact absurd (hsilent.symm.trans hid) (by simp)
    · obtain ⟨hcandidate, hplaced, houtput⟩ := hwritten.threaded p
      exact ⟨hcandidate, hplaced, houtput⟩
  | none =>
    cases sender with
    | socketThread => exact h.exit p
    | watchdog =>
      refine h.setProcess _ (fun c hc => h.living c p hc) (fun c hc hother => h.silent c p hc hother)
        (fun c hc _ id hid => ?_) (fun report sender hp => (nomatch hp)) ⟨hthreaded.candidate, hthreaded.socket, hthreaded.output⟩
      -- without a sink nothing is published on any open connection
      have hsilent : s.view c = none := by
        refine h.silent c p hc fun hout => ?_
        simp [OwnerSystem.sink, hout, hc.opened] at hsink
      exact absurd (hsilent.symm.trans hid) (by simp)

/-! ## Steps of a process -/

theorem connect {c : ℕ} (h : Sound s) (halive : (s.process p).alive = true) (hmain : (s.process p).main = .connecting)
    (hfresh : (s.connection c).owner = none) :
    Sound ((s.setConnection c { owner := some p }).setProcess p { s.process p with main := .opening .setsSocket c }) := by
  have hsame : (s.setConnection c { owner := some p }).connection c = { owner := some p } := s.setConnection_self c _
  have hother : ∀ d, d ≠ c → (s.setConnection c { owner := some p }).connection d = s.connection d := fun d hd =>
    s.setConnection_of_ne hd _
  have hempty : (s.setConnection c { owner := some p }).view c = none := by
    unfold OwnerSystem.view
    rw [hsame]
    exact if_neg (h.fresh c hfresh).2
  have hview : ∀ d, d ≠ c → (s.setConnection c { owner := some p }).view d = s.view d := by
    intro d hd
    unfold OwnerSystem.view
    rw [hother d hd]
    rfl
  have hup : ∀ d p', d ≠ c → (s.setConnection c { owner := some p }).Up d p' → s.Up d p' := by
    intro d p' hd hup
    exact ⟨(congrArg Connection.owner (hother d hd)).symm.trans hup.owner,
      (congrArg Connection.closed (hother d hd)).symm.trans hup.opened⟩
  -- the fields of no process hold a connection that no process has made
  have hthreaded : ∀ p', Threaded (s.setConnection c { owner := some p }).connection p' (s.process p') := by
    intro p'
    obtain ⟨hcandidate, hplaced, houtput⟩ := h.threaded p'
    have hmade : ∀ d, (s.connection d).owner = some p' → d ≠ c := by
      rintro d hd rfl
      exact absurd (hfresh.symm.trans hd) (by simp)
    refine ⟨fun d hd => ?_, hplaced, fun d hd => ?_⟩
    · rw [hother d (hmade d (hcandidate d hd))]
      exact hcandidate d hd
    · rw [hother d (hmade d (houtput d hd).1)]
      exact houtput d hd
  have hmid : Sound (s.setConnection c { owner := some p }) := by
    refine ⟨h.idle, fun d hd => ?_, fun d p' hd => ?_, fun d p' hd hout => ?_, fun d p' hd hnone id hid => ?_, h.pending,
      hthreaded⟩
    · have hdc : d ≠ c := by
        rintro rfl
        rw [hsame] at hd
        cases hd
      rw [hother d hdc] at hd ⊢
      exact h.fresh d hd
    · by_cases hdc : d = c
      · subst hdc
        have howner := hd.owner
        rw [hsame] at howner
        obtain rfl := Option.some.inj howner
        exact halive
      · exact h.living d p' (hup d p' hdc hd)
    · by_cases hdc : d = c
      · subst hdc
        exact hempty
      · rw [hview d hdc]
        exact h.silent d p' (hup d p' hdc hd) hout
    · by_cases hdc : d = c
      · subst hdc
        exact absurd (hempty.symm.trans hid) (by simp)
      · rw [hview d hdc] at hid
        exact h.agreed d p' (hup d p' hdc hd) hnone id hid
  refine hmid.moveOn _ rfl rfl rfl (fun d _ hd => hd) ⟨fun d hd => ?_, fun d e hd => (nomatch hd), fun d hd => ?_⟩
  · obtain rfl : c = d := Option.some.inj hd
    rw [hsame]
  · obtain ⟨howner, hholds⟩ := (hthreaded p).output d hd
    refine ⟨howner, fun hopen => ?_⟩
    have hnone := hholds hopen
    rw [hmain] at hnone
    cases hnone

/-- an output that is not that of an open connection -/
theorem output_of_sink {c : ℕ} (hsink : s.sink p = none) (hout : (s.process p).output = some c)
    (hopen : (s.connection c).closed = false) : False := by
  simp [OwnerSystem.sink, hout, hopen] at hsink

theorem sink_of_holds (h : Sound s) (hholds : (s.process p).main.holds = none) : s.sink p = none := by
  cases hsink : s.sink p with
  | none => rfl
  | some c => exact absurd (hholds.symm.trans (h.sink_eq hsink).2.2) (by simp)

theorem openLink (h : Sound s) {stage : Opening} {candidate : ℕ} (hello : Protocol.OwnerHello)
    (hmain : (s.process p).main = .opening stage candidate) : Sound (s.openLink p hello candidate stage) := by
  obtain ⟨hcandidate, hplaced, houtput⟩ := h.threaded p
  have howner : (s.connection candidate).owner = some p := hcandidate candidate (by rw [hmain]; rfl)
  cases stage with
  | setsSocket =>
    refine h.moveOn _ rfl rfl rfl (fun c _ hc => hc) ⟨fun c hc => ?_, fun c d hc hd => ?_, fun c hc => ?_⟩
    · rw [← Option.some.inj hc]
      exact howner
    · exact (Option.some.inj hd).symm.trans (Option.some.inj hc)
    · refine ⟨(houtput c hc).1, fun hopen => ?_⟩
      have hholds := (houtput c hc).2 hopen
      rw [hmain] at hholds
      cases hholds
  | setsOutput =>
    -- whatever the field held before, its connection is closed
    have hsink : s.sink p = none := h.sink_of_holds (by rw [hmain]; rfl)
    refine h.moveOn _ rfl rfl rfl (fun c hup hc => (output_of_sink hsink hc hup.opened).elim)
      ⟨fun c hc => ?_, fun c d hc hd => ?_, fun c hc => ?_⟩
    · rw [← Option.some.inj hc]
      exact howner
    · exact hplaced c d (by rw [hmain]; exact hc) hd
    · obtain rfl := Option.some.inj hc
      exact ⟨howner, fun _ => rfl⟩
  | saysHello =>
    unfold OwnerSystem.openLink
    dsimp only
    split_ifs with hlock
    · exact h
    cases hsink : s.sink p with
    | some c =>
      have hwritten : Sound (s.write c (.hello hello)) := h.write hsink fun _ _ => rfl
      obtain ⟨hcandidate, hplaced, houtput⟩ := hwritten.threaded p
      refine hwritten.moveOn _ rfl rfl rfl (fun c _ hc => hc) ⟨fun d hd => ?_, fun d e hd he => ?_, fun d hd => ?_⟩
      · exact hcandidate d (by rw [show ((s.write c (.hello hello)).process p).main = _ from hmain]; exact hd)
      · exact hplaced d e (by rw [show ((s.write c (.hello hello)).process p).main = _ from hmain]; exact hd) he
      · refine ⟨(houtput d hd).1, fun hopen => ?_⟩
        have hholds := (houtput d hd).2 hopen
        rw [show ((s.write c (.hello hello)).process p).main = _ from hmain] at hholds
        exact hholds
    | none =>
      have hclosed := h.close candidate
      refine hclosed.moveOn _ rfl rfl rfl (fun c _ hc => hc)
        ⟨fun d hd => (nomatch hd), fun d e hd => (nomatch hd), fun d hd => ?_⟩
      obtain ⟨hown, hholds⟩ := (hclosed.threaded p).output d hd
      refine ⟨hown, fun hopen => ?_⟩
      have hholds := hholds hopen
      rw [show ((s.close candidate).process p).main = _ from hmain] at hholds
      obtain rfl : candidate = d := Option.some.inj hholds
      rw [OwnerSystem.close, OwnerSystem.setConnection_self] at hopen
      cases hopen
  | serves =>
    unfold OwnerSystem.openLink
    dsimp only
    cases hsocket : (s.process p).socket with
    | none => exact h.exit p
    | some input =>
      obtain rfl : input = candidate := hplaced candidate input (by rw [hmain]; rfl) hsocket
      refine h.moveOn _ rfl rfl rfl (fun c _ hc => hc)
        ⟨fun d hd => (nomatch hd), fun d e hd => (nomatch hd), fun d hd => ⟨(houtput d hd).1, fun hopen => ?_⟩⟩
      have hholds := (houtput d hd).2 hopen
      rw [hmain] at hholds
      exact hholds

/-- a thread moves on and may clear the socket, or an output that is not that of an open connection -/
theorem letGo (h : Sound s) (q : OwnerProcess) (halive : q.alive = (s.process p).alive)
    (heffect : q.effectOwner = (s.process p).effectOwner) (hpending : q.pending = (s.process p).pending)
    (hsocket : q.socket = (s.process p).socket ∨ q.socket = none)
    (houtput : q.output = (s.process p).output ∨ q.output = none ∧ s.sink p = none)
    (hmain : Threaded s.connection p { s.process p with main := q.main }) : Sound (s.setProcess p q) := by
  obtain ⟨hcandidate, hplaced, hout⟩ := hmain
  refine h.moveOn q halive heffect hpending (fun c hup hc => ?_) ⟨hcandidate, fun c d hc hd => ?_, fun c hc => ?_⟩
  · rcases houtput with hsame | ⟨-, hsink⟩
    · rw [hsame]
      exact hc
    · exact (output_of_sink hsink hc hup.opened).elim
  · rcases hsocket with hsame | hnone
    · rw [hsame] at hd
      exact hplaced c d hc hd
    · rw [hnone] at hd
      cases hd
  · rcases houtput with hsame | ⟨hnone, -⟩
    · rw [hsame] at hc
      exact hout c hc
    · rw [hnone] at hc
      cases hc

/-- without a sink the socket thread may leave the link -/
theorem leaves (h : Sound s) (hsink : s.sink p = none) {main : SocketThread} (hcandidate : main.candidate = none)
    (hplaced : main.placed = none) : Threaded s.connection p { s.process p with main } := by
  refine ⟨fun c hc => ?_, fun c d hc => ?_, fun c hc => ⟨((h.threaded p).output c hc).1, fun hopen => ?_⟩⟩
  · exact absurd (hcandidate.symm.trans hc) (by simp)
  · exact absurd (hplaced.symm.trans hc) (by simp)
  · exact (output_of_sink hsink hc hopen).elim

/-- one statement of `closeLink` in either thread -/
theorem closeLink (h : Sound s) (stage : Closing) (main : SocketThread) (callback : Option Closing)
    (hclears : ∀ current, stage = .clearsOutput current → s.sink p = none)
    (hmain : Threaded s.connection p { s.process p with main }) :
    Sound ((s.closeCurrent ((s.process p).closeLink stage).2.2).setProcess p
      { ((s.process p).closeLink stage).1 with main, callback }) := by
  cases stage with
  | reads => exact h.letGo _ rfl rfl rfl (.inl rfl) (.inl rfl) hmain
  | clearsSocket current => exact h.letGo _ rfl rfl rfl (.inr rfl) (.inl rfl) hmain
  | clearsOutput current => exact h.letGo _ rfl rfl rfl (.inl rfl) (.inr ⟨rfl, hclears current rfl⟩) hmain
  | closes current =>
    cases current with
    | none => exact h.letGo _ rfl rfl rfl (.inl rfl) (.inl rfl) hmain
    | some c =>
      exact (h.close c).letGo _ rfl rfl rfl (.inl rfl) (.inl rfl) (hmain.mono (s.close_owner c) (s.close_closed c))

/-! ## Handles -/

section Handles

variable (q : OwnerProcess) (platform : Platform)

/-- the report of a creation names the effect that was made -/
theorem create_claim (o : EffectOwner) (ho : o.effect = none) (selector : Int32) (control : Bool) (reason : Reason) :
    (if (o.createAndEnable selector platform).2 then
        Report.owned (o.createAndEnable selector platform).1.effectId control
      else .ownerFailed reason).claim =
    (o.createAndEnable selector platform).1.effect.map fun effect => effect.id.toUInt32 := by
  have hcreate : o.createAndEnable selector platform = ({ effect := platform.made, selector }, platform.made.isSome) := by
    simp [EffectOwner.createAndEnable, ho]
  rw [hcreate]
  cases platform.made with
  | none => rfl
  | some effect => rfl

theorem ownSession_claim : ∃ report, (q.ownSession platform).pending = some (report, .socketThread) ∧
    report.claim = (q.ownSession platform).heldId := by
  unfold OwnerProcess.ownSession
  by_cases hid : (q.effectOwner.getD {}).effectId = 0
  · rw [if_pos hid]
    exact ⟨_, rfl, create_claim platform {} rfl _ _ _⟩
  · rw [if_neg hid]
    refine ⟨_, rfl, ?_⟩
    -- an id that is not zero is that of an effect
    unfold OwnerProcess.heldId OwnerProcess.held
    cases howner : q.effectOwner with
    | none => simp [howner, EffectOwner.effectId] at hid
    | some current =>
      cases heffect : current.effect with
      | none => simp [howner, heffect, EffectOwner.effectId] at hid
      | some effect => simp [heffect, Report.claim, Report.frame, hear, EffectOwner.effectId]

theorem ownSession_fields : (q.ownSession platform).alive = q.alive ∧ (q.ownSession platform).main = q.main ∧
    (q.ownSession platform).socket = q.socket ∧ (q.ownSession platform).output = q.output := by
  unfold OwnerProcess.ownSession
  dsimp only
  split_ifs <;> exact ⟨rfl, rfl, rfl, rfl⟩

theorem checkHandleLiveness_fields : (q.checkHandleLiveness platform).alive = q.alive ∧
    (q.checkHandleLiveness platform).main = q.main ∧ (q.checkHandleLiveness platform).socket = q.socket ∧
    (q.checkHandleLiveness platform).output = q.output := by
  unfold OwnerProcess.checkHandleLiveness
  cases q.effectOwner with
  | none => exact ⟨rfl, rfl, rfl, rfl⟩
  | some current =>
    dsimp only
    split_ifs <;> exact ⟨rfl, rfl, rfl, rfl⟩

theorem checkHandleLiveness_claim : q.checkHandleLiveness platform = q ∨
    ∃ report, (q.checkHandleLiveness platform).pending = some (report, .watchdog) ∧
      report.claim = (q.checkHandleLiveness platform).heldId := by
  unfold OwnerProcess.checkHandleLiveness
  cases howner : q.effectOwner with
  | none => exact .inl rfl
  | some current =>
    dsimp only
    by_cases halive : current.isAlive platform = true
    · rw [if_pos halive]
      exact .inl rfl
    · rw [if_neg halive]
      exact .inr ⟨_, rfl, create_claim platform current.release rfl _ _ _⟩

end Handles

theorem handle (h : Sound s) (platform : Platform) (command : OwnerCommand) : Sound (s.handle p platform command) := by
  cases command with
  | helloAck accepted =>
    unfold OwnerSystem.handle
    dsimp only
    split_ifs
    · exact h
    · exact h.exit p
  | ownSession requestId =>
    obtain ⟨report, hpending, hclaim⟩ := ownSession_claim (s.process p) platform
    obtain ⟨halive, hmain, hsocket, houtput⟩ := ownSession_fields (s.process p) platform
    exact h.synchronize _ report .socketThread halive hmain hsocket houtput hpending hclaim
  | releaseSession requestId => exact h.synchronize _ .released .socketThread rfl rfl rfl rfl rfl rfl

theorem ownerStep (h : Sound s) (move : OwnerMove) (halive : (s.process p).alive = true)
    (htimely : s.timely (.owner p move) = true) : Sound (s.ownerStep p move) := by
  cases move with
  | connect c =>
    unfold OwnerSystem.ownerStep
    dsimp only
    split_ifs with hc
    · exact h.connect halive hc.1 hc.2
    · exact h
  | opens hello =>
    unfold OwnerSystem.ownerStep
    cases hmain : (s.process p).main with
    | opening stage candidate => exact h.openLink hello hmain
    | _ => exact h
  | handle platform =>
    unfold OwnerSystem.ownerStep
    cases hmain : (s.process p).main with
    | serving input =>
      dsimp only
      cases hqueue : (s.connection input).toOwner with
      | nil => exact h
      | cons command rest =>
        dsimp only
        split_ifs
        · exact h
        · have hread := h.setConnection input { s.connection input with toOwner := rest } rfl id rfl
          exact hread.handle platform command
    | _ => exact h
  | readEnds =>
    unfold OwnerSystem.ownerStep
    cases hmain : (s.process p).main with
    | serving input =>
      dsimp only
      split_ifs with hclosed
      · have hclosed : (s.connection input).closed = true := by
          rw [Bool.and_eq_true] at hclosed
          exact hclosed.1
        have hsink : s.sink p = none := by
          cases hsink : s.sink p with
          | none => rfl
          | some c =>
            obtain ⟨-, hup, hholds⟩ := h.sink_eq hsink
            rw [hmain] at hholds
            obtain rfl : input = c := Option.some.inj hholds
            exact absurd (hclosed.symm.trans hup.opened) (by simp)
        exact h.letGo _ rfl rfl rfl (.inl rfl) (.inl rfl) (h.leaves hsink rfl rfl)
      · exact h
    | _ => exact h
  | publish delta =>
    unfold OwnerSystem.ownerStep
    cases hmain : (s.process p).main with
    | serving input =>
      dsimp only
      split_ifs
      · exact h
      · cases hsink : s.sink p with
        | some c => exact h.write hsink fun _ _ => rfl
        | none => exact h.letGo _ rfl rfl rfl (.inl rfl) (.inl rfl) (h.leaves hsink rfl rfl)
    | _ => exact h
  | closes =>
    unfold OwnerSystem.ownerStep
    cases hmain : (s.process p).main with
    | closing stage back =>
      have hsink : s.sink p = none := h.sink_of_holds (by rw [hmain]; rfl)
      refine h.closeLink stage _ _ (fun _ _ => hsink) (h.leaves hsink ?_ ?_)
      all_goals cases stage <;> cases back <;> rfl
    | _ => exact h
  | watch platform =>
    unfold OwnerSystem.ownerStep
    dsimp only
    split_ifs
    · exact h
    · obtain ⟨halive, hmain, hsocket, houtput⟩ := checkHandleLiveness_fields (s.process p) platform
      rcases checkHandleLiveness_claim (s.process p) platform with hsame | ⟨report, hpending, hclaim⟩
      · rw [hsame]
        exact h.moveOn _ rfl rfl rfl (fun _ _ hc => hc) (h.threaded p)
      · exact h.synchronize _ report .watchdog halive hmain hsocket houtput hpending hclaim
  | report =>
    unfold OwnerSystem.ownerStep
    cases hpending : (s.process p).pending with
    | some pending => exact h.report pending.1 pending.2 hpending
    | none => exact h
  | callback delta =>
    unfold OwnerSystem.ownerStep
    dsimp only
    split_ifs
    · exact h
    · cases hsink : s.sink p with
      | some c => exact h.write hsink fun _ _ => rfl
      | none =>
        obtain ⟨hcandidate, hplaced, houtput⟩ := h.threaded p
        exact h.moveOn _ rfl rfl rfl (fun _ _ hc => hc) ⟨hcandidate, hplaced, houtput⟩
  | callbackCloses =>
    unfold OwnerSystem.ownerStep
    cases hcallback : (s.process p).callback with
    | none => exact h
    | some stage =>
      have hclears : ∀ current, stage = .clearsOutput current → s.sink p = none := by
        rintro current rfl
        simpa only [OwnerSystem.timely, hcallback, Option.isNone_iff_eq_none] using htimely
      have hmain : ((s.process p).closeLink stage).1.main = (s.process p).main := by
        cases stage <;> rfl
      refine h.closeLink stage ((s.process p).closeLink stage).1.main _ hclears ?_
      rw [hmain]
      exact h.threaded p
  | exit => exact h.exit p

/-! ## Steps of the daemon -/

section Daemon

theorem published_poll (d : OwnerSupervisor) (shouldOwn : Bool) (now : TimePoint) (spawned : ℤ) :
    published (d.poll shouldOwn now spawned).1 = none ∨ published (d.poll shouldOwn now spawned).1 = published d := by
  have hpolled := poll_polled d shouldOwn now spawned
  generalize (d.poll shouldOwn now spawned).1 = t at hpolled ⊢
  generalize (d.poll shouldOwn now spawned).2 = calls at hpolled
  cases hpolled with
  | off hstate =>
    left
    simp [published, OwnerSupervisor.ready, OwnerSupervisor.switchOff, hstate]
  | stillOff hstate => exact .inr rfl
  | settled => exact .inr rfl
  | waiting => exact .inr rfl
  | gaveUp => exact .inl rfl
  | delayed => exact .inr rfl
  | exhausted => exact .inl rfl
  | refused _ _ _ _ _ _ _ hafter =>
    left
    rcases hafter with hafter | hafter <;> simp [published, OwnerSupervisor.ready, hafter]
  | spawned => exact .inl rfl

theorem published_dropClient (d : OwnerEndpoint) (h : d.client = none → published d.supervisor = none) :
    published d.dropClient.supervisor = none := by
  unfold OwnerEndpoint.dropClient
  split_ifs with hnone
  · exact h (Option.isNone_iff_eq_none.mp hnone)
  · rfl

theorem published_driveOwner (d : OwnerEndpoint) (now : TimePoint) (spawned : ℤ) (sends : Bool) :
    (d.driveOwner now spawned sends).1.client = d.client ∧
      (d.driveOwner now spawned sends).1.supervisor = (d.supervisor.poll d.ownerEnabled now spawned).1 := by
  unfold OwnerEndpoint.driveOwner
  dsimp only
  split_ifs <;> exact ⟨rfl, rfl⟩

theorem published_onConnected (d : OwnerSupervisor) (pid : ℤ) : published (d.onConnected pid) = published d := by
  unfold published OwnerSupervisor.ready OwnerSupervisor.onConnected
  by_cases hstate : d.state = .owned <;> simp [hstate]

/-- a frame is heard on its connection, or the daemon refuses the owner -/
theorem published_handleFrame (d : OwnerEndpoint) (frame : OwnerFrame) (h : d.client ≠ none) :
    (d.handleFrame frame).1.client = d.client ∧
        published (d.handleFrame frame).1.supervisor = hear (published d.supervisor) frame ∨
      (d.handleFrame frame).1.client = none ∧ published (d.handleFrame frame).1.supervisor = none := by
  cases frame with
  | hello hello =>
    unfold OwnerEndpoint.handleFrame OwnerEndpoint.handleHello OwnerEndpoint.onOwnerHello
    dsimp only
    split_ifs
    · exact .inl ⟨rfl, published_onConnected _ _⟩
    · exact .inl ⟨rfl, rfl⟩
    · exact .inl ⟨rfl, published_onConnected _ _⟩
    · exact .inr ⟨d.dropClient_client, published_dropClient d fun hnone => absurd hnone h⟩
  | owned owned => exact .inl ⟨rfl, rfl⟩
  | ownerFailed failed => exact .inl ⟨rfl, rfl⟩
  | rejected => exact .inl ⟨rfl, rfl⟩
  | released =>
    refine .inl ⟨rfl, ?_⟩
    by_cases hstate : d.supervisor.state = .owned <;>
      simp [OwnerEndpoint.handleFrame, OwnerEndpoint.onReleased, OwnerSupervisor.onReleased, published,
        OwnerSupervisor.ready, OwnerSupervisor.resetOwnerObservations, hear, hstate]
  | sessionDelta delta =>
    refine .inl ⟨rfl, ?_⟩
    unfold OwnerEndpoint.handleFrame OwnerSupervisor.onSessionDelta
    dsimp only
    split_ifs <;> rfl

end Daemon

/-! ### Connections under a step of the daemon -/

section Serve

variable (e : EndpointEvent) (sends : Bool)

@[simp] theorem serve_daemon : (s.serve e sends).daemon = (endpointStep s.daemon e).1 := by
  unfold OwnerSystem.serve
  dsimp only
  cases s.daemon.client <;> rfl

@[simp] theorem command_connection (c d : ℕ) (commands : List OwnerCommand) :
    ((s.command c sends commands).connection d).owner = (s.connection d).owner ∧
      ((s.command c sends commands).connection d).closed = (s.connection d).closed ∧
      ((s.command c sends commands).connection d).toDaemon = (s.connection d).toDaemon := by
  unfold OwnerSystem.command
  split_ifs
  · by_cases hd : d = c
    · rw [hd, OwnerSystem.setConnection_self]
      exact ⟨rfl, rfl, rfl⟩
    · rw [OwnerSystem.setConnection_of_ne hd]
      exact ⟨rfl, rfl, rfl⟩
  · exact ⟨rfl, rfl, rfl⟩

/-- the daemon closes no connection but its own, and that one when it lets go of it -/
theorem serve_connection (c : ℕ) :
    ((s.serve e sends).connection c).owner = (s.connection c).owner ∧
      ((s.serve e sends).connection c).toDaemon = (s.connection c).toDaemon ∧
      (((s.serve e sends).connection c).closed = false → (s.connection c).closed = false ∧
        (s.daemon.client = some c → (endpointStep s.daemon e).1.client = some c)) := by
  unfold OwnerSystem.serve
  dsimp only
  cases hclient : s.daemon.client with
  | none => exact ⟨rfl, rfl, fun hopen => ⟨hopen, fun h => (nomatch h)⟩⟩
  | some d =>
    obtain ⟨howner, hclosed, hqueue⟩ := command_connection (s := s) sends d c (endpointStep s.daemon e).2
    dsimp only
    split_ifs with hkept
    · refine ⟨howner, hqueue, fun hopen => ⟨hclosed.symm.trans hopen, fun h => ?_⟩⟩
      rw [hkept, h]
    · refine ⟨(OwnerSystem.close_owner _ d c).trans howner, (OwnerSystem.close_toDaemon _ d c).trans hqueue, fun hopen => ?_⟩
      refine ⟨hclosed.symm.trans (OwnerSystem.close_closed _ d c hopen), fun h => ?_⟩
      obtain rfl : d = c := Option.some.inj h
      rw [show ∀ r : OwnerSystem, ((r.close d).connection d).closed = true from fun r => by simp [OwnerSystem.close]] at hopen
      cases hopen

theorem serve_process : (s.serve e sends).process = s.process := by
  unfold OwnerSystem.serve OwnerSystem.command
  dsimp only
  cases s.daemon.client with
  | none => rfl
  | some c =>
    dsimp only
    split_ifs <;> rfl

/-- the daemon handles an event, in `r`, which has its processes and connections from `s` and may lack the frame of the
event -/
theorem serve {r : OwnerSystem} (h : Sound s) (hprocess : r.process = s.process) (hdaemon : r.daemon = s.daemon)
    (howner : ∀ c, (r.connection c).owner = (s.connection c).owner)
    (hclosed : ∀ c, (r.connection c).closed = (s.connection c).closed)
    (hqueue : ∀ c, (s.connection c).toDaemon = [] → (r.connection c).toDaemon = [])
    (hidle : (endpointStep s.daemon e).1.client = none → published (endpointStep s.daemon e).1.supervisor = none)
    (hclient : ∀ c, (endpointStep s.daemon e).1.client = some c → (s.connection c).owner ≠ none)
    (hview : ∀ c, (s.daemon.client = some c → (endpointStep s.daemon e).1.client = some c) →
      ∀ id, (r.connection c).toDaemon.foldl hear (if (endpointStep s.daemon e).1.client = some c then
        published (endpointStep s.daemon e).1.supervisor else none) = some id → s.view c = some id) :
    Sound (r.serve e sends) := by
  have hnext : (r.serve e sends).daemon = (endpointStep s.daemon e).1 := by
    rw [serve_daemon, hdaemon]
  refine h.follow ((serve_process e sends).trans hprocess) (fun c => ?_) (fun c hopen => ?_) (fun c hempty => ?_) ?_ ?_
    fun c p hup id hid => ?_
  · rw [(serve_connection e sends c).1, howner]
  · rw [← hclosed]
    exact ((serve_connection e sends c).2.2 hopen).1
  · rw [(serve_connection e sends c).2.1]
    exact hqueue c hempty
  · rw [hnext]
    exact hidle
  · rw [hnext]
    exact hclient
  · have hkept := ((serve_connection e sends c).2.2 hup.opened).2
    rw [hdaemon] at hkept
    refine hview c hkept id ?_
    rw [← hid, OwnerSystem.view, OwnerSystem.publishedOf, (serve_connection e sends c).2.1, hnext]

end Serve

theorem accept (h : Sound s) {c : ℕ} (howner : (s.connection c).owner.isSome = true) :
    Sound (s.serve (.accept c) false) := by
  have hnone : published s.daemon.dropClient.supervisor = none := published_dropClient s.daemon h.idle
  refine h.serve _ _ rfl rfl (fun _ => rfl) (fun _ => rfl) (fun _ hempty => hempty) (fun hc => (nomatch hc)) (fun d hd => ?_)
    fun d _ id hid => ?_
  · obtain rfl : c = d := Option.some.inj hd
    exact Option.isSome_iff_ne_none.mp howner
  · refine hear_mono _ _ ?_
    rw [← hid]
    congr 1
    split_ifs
    · exact hnone.symm
    · rfl

theorem read (h : Sound s) {c : ℕ} {frame : OwnerFrame} {rest : List OwnerFrame} (sends : Bool)
    (hclient : s.daemon.client = some c) (hqueue : (s.connection c).toDaemon = frame :: rest) :
    Sound ((s.setConnection c { s.connection c with toDaemon := rest }).serve (.frame frame) sends) := by
  have hstep : endpointStep s.daemon (.frame frame) = s.daemon.handleFrame frame := by
    simp [endpointStep, hclient]
  have hheard := published_handleFrame s.daemon frame (by simp [hclient])
  have hsame : ∀ d, d ≠ c → (s.setConnection c { s.connection c with toDaemon := rest }).connection d = s.connection d :=
    fun d hd => s.setConnection_of_ne hd _
  refine h.serve _ _ rfl rfl (fun d => ?_) (fun d => ?_) (fun d hempty => ?_) (fun hnone => ?_) (fun d hd => ?_)
    fun d hkept id hid => ?_
  · by_cases hd : d = c
    · rw [hd, OwnerSystem.setConnection_self]
    · rw [hsame d hd]
  · by_cases hd : d = c
    · rw [hd, OwnerSystem.setConnection_self]
    · rw [hsame d hd]
  · by_cases hd : d = c
    · rw [hd, hqueue] at hempty
      cases hempty
    · rw [hsame d hd]
      exact hempty
  · rw [hstep] at hnone ⊢
    rcases hheard with ⟨hsome, -⟩ | ⟨-, hpublished⟩
    · rw [hnone, hclient] at hsome
      cases hsome
    · exact hpublished
  · rw [hstep] at hd
    rcases hheard with ⟨hsome, -⟩ | ⟨hnone, -⟩
    · exact fun hfresh => (h.fresh d hfresh).2 (hsome.symm.trans hd)
    · exact absurd (hnone.symm.trans hd) (by simp)
  · rw [hstep] at hkept hid
    by_cases hd : d = c
    · subst hd
      have hkept := hkept hclient
      rw [if_pos hkept, OwnerSystem.setConnection_self] at hid
      rcases hheard with ⟨-, hpublished⟩ | ⟨hnone, -⟩
      · rw [hpublished] at hid
        rw [OwnerSystem.view, OwnerSystem.publishedOf, if_pos hclient, hqueue]
        exact hid
      · exact absurd (hnone.symm.trans hkept) (by simp)
    · rw [hsame d hd] at hid
      have hother : (s.daemon.handleFrame frame).1.client ≠ some d := by
        intro hsome
        rcases hheard with ⟨hclient', -⟩ | ⟨hnone, -⟩
        · rw [hsome, hclient] at hclient'
          exact hd (Option.some.inj hclient')
        · exact absurd (hnone.symm.trans hsome) (by simp)
      rw [if_neg hother] at hid
      exact hear_mono _ _ hid

theorem closed (h : Sound s) : Sound (s.serve .closed false) := by
  have hclient : (endpointStep s.daemon .closed).1.client = none := s.daemon.dropClient_client
  refine h.serve _ _ rfl rfl (fun _ => rfl) (fun _ => rfl) (fun _ hempty => hempty)
    (fun _ => published_dropClient s.daemon h.idle) (fun c hc => ?_) fun c _ id hid => ?_
  · exact absurd (hclient.symm.trans hc) (by simp)
  · rw [if_neg (by rw [hclient]; simp)] at hid
    exact hear_mono _ _ hid

theorem drive (h : Sound s) (now : TimePoint) (spawned : ℤ) (sends : Bool) :
    Sound (s.serve (.drive now spawned sends) sends) := by
  obtain ⟨hclient, hsupervisor⟩ := published_driveOwner s.daemon now spawned sends
  have hpoll := published_poll s.daemon.supervisor s.daemon.ownerEnabled now spawned
  rw [← hsupervisor] at hpoll
  refine h.serve _ _ rfl rfl (fun _ => rfl) (fun _ => rfl) (fun _ hempty => hempty) (fun hnone => ?_) (fun c hc hfresh => ?_)
    fun c _ id hid => ?_
  · rcases hpoll with hpoll | hpoll
    · exact hpoll
    · exact hpoll.trans (h.idle (hclient.symm.trans hnone))
  · exact (h.fresh c hfresh).2 (hclient.symm.trans hc)
  · rw [show (endpointStep s.daemon (.drive now spawned sends)).1.client = s.daemon.client from hclient] at hid
    rw [OwnerSystem.view, OwnerSystem.publishedOf]
    split_ifs at hid ⊢ with hc
    · rcases hpoll with hpoll | hpoll
      · rw [show published (endpointStep s.daemon (.drive now spawned sends)).1.supervisor = none from hpoll] at hid
        exact hear_mono _ _ hid
      · rw [show published (endpointStep s.daemon (.drive now spawned sends)).1.supervisor = _ from hpoll] at hid
        exact hid
    · exact hid

theorem restart (h : Sound s) (ownerEnabled : Bool) (daemonGeneration : UInt64) (survivor : ℤ) (alive : Bool) :
    Sound (s.step (.restart ownerEnabled daemonGeneration survivor alive)) := by
  refine h.follow rfl (fun _ => rfl) (fun c hopen => (nomatch hopen)) (fun _ hempty => hempty)
    (sound_start ownerEnabled daemonGeneration survivor alive).idle (fun c hc => (nomatch hc))
    fun c p hup => (nomatch hup.opened)

theorem launch (h : Sound s) (hdead : (s.process p).alive = false) : Sound (s.setProcess p { alive := true }) := by
  have hnone : ∀ c, ¬ s.Up c p := fun c hc => absurd (hdead.symm.trans (h.living c p hc)) (by simp)
  exact h.setProcess _ (fun c hc => absurd hc (hnone c)) (fun c hc => absurd hc (hnone c))
    (fun c hc => absurd hc (hnone c)) (fun report sender hp => (nomatch hp))
    ⟨fun c hc => (nomatch hc), fun c d hc => (nomatch hc), fun c hc => (nomatch hc)⟩

end Sound

/-! ## Runs -/

theorem step_sound {s : OwnerSystem} (h : Sound s) (move : Move) (htimely : s.timely move = true) : Sound (s.step move) := by
  cases move with
  | launch p =>
    unfold OwnerSystem.step
    dsimp only
    split_ifs with halive
    · exact h
    · exact h.launch (by simpa using halive)
  | owner p move =>
    unfold OwnerSystem.step
    dsimp only
    split_ifs with halive
    · exact h.ownerStep move halive htimely
    · exact h
  | lose c => exact h.close c
  | accept c =>
    unfold OwnerSystem.step
    dsimp only
    split_ifs with howner
    · exact h.accept howner
    · exact h
  | read sends =>
    unfold OwnerSystem.step
    cases hclient : s.daemon.client with
    | none => exact h
    | some c =>
      dsimp only
      cases hqueue : (s.connection c).toDaemon with
      | nil => exact h
      | cons frame rest => exact h.read sends hclient hqueue
  | closed =>
    unfold OwnerSystem.step
    cases hclient : s.daemon.client with
    | none => exact h
    | some c =>
      dsimp only
      split_ifs
      · exact h.closed
      · exact h
  | drive now spawned sends => exact h.drive now spawned sends
  | requestRelease requestId sends =>
    unfold OwnerSystem.step
    cases hclient : s.daemon.client with
    | none => exact h
    | some c => exact h.command c sends _
  | restart ownerEnabled daemonGeneration survivor alive => exact h.restart ownerEnabled daemonGeneration survivor alive

theorem run_sound {s : OwnerSystem} (h : Sound s) (moves : List Move) (hsteady : s.Steady moves) : Sound (s.run moves) := by
  induction moves generalizing s with
  | nil => exact h
  | cons move moves ih => exact ih (step_sound h move hsteady.1) hsteady.2

/-- **The handle that is published is the handle that is held.** Take any interleaving of owner processes, their threads,
losses of their links and the daemon, restarts of it included, in which no callback clears the output of an open connection.
Whenever the connection of the daemon is quiet and its supervisor is ready, the owner behind the connection holds an effect,
and its id is the published one. Neither the hello nor commands under way to the owner matter. -/
theorem owner_handle_agrees (ownerEnabled : Bool) (daemonGeneration : UInt64) (survivor : ℤ) (alive : Bool)
    (moves : List Move) (hsteady : (OwnerSystem.start ownerEnabled daemonGeneration survivor alive).Steady moves) (c p : ℕ)
    (hquiet : ((OwnerSystem.start ownerEnabled daemonGeneration survivor alive).run moves).Quiet c p)
    (hready : ((OwnerSystem.start ownerEnabled daemonGeneration survivor alive).run moves).daemon.supervisor.ready = true) :
    ∃ effect, (((OwnerSystem.start ownerEnabled daemonGeneration survivor alive).run moves).process p).held = some effect ∧
      effect.id.toUInt32 =
        ((OwnerSystem.start ownerEnabled daemonGeneration survivor alive).run moves).daemon.supervisor.effectId := by
  have hsound := run_sound (sound_start ownerEnabled daemonGeneration survivor alive) moves hsteady
  generalize (OwnerSystem.start ownerEnabled daemonGeneration survivor alive).run moves = s at *
  have hview : s.view c = some s.daemon.supervisor.effectId := by
    rw [OwnerSystem.view, hquiet.drained, OwnerSystem.publishedOf, if_pos hquiet.connected, published, if_pos hready]
    rfl
  have hheld := hsound.agreed c p hquiet.up hquiet.unlocked _ hview
  exact Option.map_eq_some_iff.mp hheld

/-! ## Runs that reconnect -/

section Reconnect

/-- the platform makes the effect and says that the one before it is dead -/
def making (effect : AudioEffect) : Platform := { alive := false, made := some effect, enabled := true, control := true }

def firstEffect : AudioEffect := ⟨7, by decide⟩

def secondEffect : AudioEffect := ⟨9, by decide⟩

def opens : Move := .owner 0 (.opens { ownerPid := 100, bootId := 1 })

/-- process 0 connects and is asked for the session, reports an effect and is heard -/
def linked (c : ℕ) : List Move :=
  [.owner 0 (.connect c), opens, opens, opens, opens, .closed, .accept c, .read true, .drive 0 1 true,
    .owner 0 (.handle (making firstEffect)), .owner 0 (.handle (making firstEffect)), .owner 0 .report, .read true]

def closesLink : List Move := [.owner 0 .closes, .owner 0 .closes, .owner 0 .closes, .owner 0 .closes]

/-- the effect dies and is rebuilt -/
def rebuilt : List Move := [.owner 0 (.watch (making secondEffect)), .owner 0 .report]

/-- the link is lost, the effect is rebuilt without it, and the next link publishes the new one -/
def reconnected : List Move :=
  [.launch 0] ++ linked 0 ++ [.lose 0] ++ rebuilt ++ [.owner 0 .readEnds] ++ closesLink ++ linked 1

theorem owner_handle_agrees_reconnected :
    ((OwnerSystem.start true 1 0 false).run reconnected).daemon.supervisor.effectId = 9 ∧
    ∃ effect, (((OwnerSystem.start true 1 0 false).run reconnected).process 0).held = some effect ∧
      effect.id.toUInt32 = ((OwnerSystem.start true 1 0 false).run reconnected).daemon.supervisor.effectId :=
  ⟨by decide, owner_handle_agrees true 1 0 false reconnected (by decide) 1 0
    ⟨by decide, ⟨by decide, by decide⟩, by decide, by decide⟩ (by decide)⟩

/-- a callback fails to send on the lost link and reads the socket; the owner reconnects and is heard; the callback goes on
and clears the output of the new link; the effect is rebuilt -/
def clearedByCallback : List Move :=
  [.launch 0] ++ linked 0 ++ [.lose 0, .owner 0 (.callback ⟨5, 1000, true⟩), .owner 0 .callbackCloses, .owner 0 .readEnds] ++
    closesLink ++ linked 1 ++ [.owner 0 .callbackCloses, .owner 0 .callbackCloses, .owner 0 .callbackCloses] ++ rebuilt

theorem cleared_by_callback :
    let s := (OwnerSystem.start true 1 0 false).run clearedByCallback
    s.Quiet 1 0 ∧ (s.connection 1).toOwner = [] ∧ s.daemon.ownerConnectionsSeen = 2 ∧ s.daemon.supervisor.ready = true ∧
      s.daemon.supervisor.effectId = 7 ∧
      ¬ ∃ effect, (s.process 0).held = some effect ∧ effect.id.toUInt32 = s.daemon.supervisor.effectId := by
  refine ⟨⟨by decide, ⟨by decide, by decide⟩, by decide, by decide⟩, by decide, by decide, by decide, by decide, ?_⟩
  rintro ⟨effect, hheld, hid⟩
  have hsecond : (((OwnerSystem.start true 1 0 false).run clearedByCallback).process 0).held = some secondEffect := by decide
  obtain rfl := Option.some.inj (hheld.symm.trans hsecond)
  exact absurd hid (by decide)

end Reconnect

end ViperFx.Owner
