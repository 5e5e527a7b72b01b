/-
What the programs of the runtime keep: `daemon/DaemonRuntime.cpp`, one program after the other.

A pass of the control loop is made of a few calls that touch the link, and of assignments. A property that every call keeps, and
that reads nothing of the runtime but the route and the arming of a restore, is kept by every program up to the restore itself.

Results:
  · Walked.applySnapshotToDriver, Walked.onSnapshotCommand : the programs that talk to the driver
  · Walked.beforeRestore                                   : a pass up to the decision about a restore
  · runOnce_eq                                             : a pass is this, and then the restore
-/
import ViperFx.System.Runtime

namespace ViperFx.System

open ViperFx.Core ViperFx.Protocol ViperFx.Daemon ViperFx.Channel ViperFx.Driver

variable {E : Engine}

/-- the route, and the arming of a restore -/
def armingOf (r : Runtime) : Bytes × Bytes × Bool × ℕ :=
  (r.routeKey, r.routeKeyHash, r.routeRestorePending, r.restoredContextGeneration)

/-- what a turn of the world and the steps of the daemon on the link keep, and what reads the link, the turns to come, the
configuration, the route and the arming, and nothing else -/
structure Walked (I : Sys E → Prop) : Prop where
  turn : Keeps I turn
  onLink : ∀ s op, op ≠ .restart → I s → I (s.onLink op)
  aside : ∀ s t, t.link = s.link → t.turns = s.turns → t.config = s.config → armingOf t.runtime = armingOf s.runtime → I s → I t

/-- a pass up to the decision about a restore: whether the driver is connected, and on a connection that is new -/
def beforeRestore (messages : List AppMessage) : Prog E (Bool × Bool) := do
  poll
  handleAppMessages messages
  modify Sys.pollRoute
  let s ← get
  let driverConnected := s.link.client.isSome
  let newConnection := driverConnected && !s.runtime.driverWasConnected
  announcePass driverConnected newConnection
  pure (driverConnected, newConnection)

theorem runOnce_eq (messages : List AppMessage) :
    runOnce (E := E) messages = beforeRestore messages >>= fun seen => restorePass seen.1 seen.2 := rfl

theorem armingOf_stage (r : Runtime) (type : SnapshotCommandType) (payload : Bytes) :
    armingOf (stageAppSnapshotCommand r type payload) = armingOf r := by
  unfold stageAppSnapshotCommand
  cases type with
  | snapshotBegin => cases decodeSnapshotBegin payload <;> rfl
  | snapshotChunk =>
    dsimp only
    split_ifs
    · rfl
    · cases decodeSnapshotChunk payload with
      | error e => rfl
      | ok chunk =>
        dsimp only
        split_ifs <;> rfl
  | snapshotCommit => rfl
  | snapshotAbort => rfl
  | routeAnnounce => rfl

namespace Walked

variable {I : Sys E → Prop}

theorem set (h : Walked I) {f : Runtime → Runtime} (hf : ∀ r, armingOf (f r) = armingOf r) : Keeps I (System.set f) :=
  fun s hs => h.aside s _ rfl rfl rfl (hf s.runtime) hs

theorem note (h : Walked I) (e : Entry E) : Keeps I (System.note e) := fun s hs => h.aside s _ rfl rfl rfl rfl hs

theorem step (h : Walked I) {α : Type} (f : Sys E → α) {op : DaemonOp} (hop : op ≠ .restart) :
    Keeps I (modifyGet fun s => (f s, s.onLink op)) := fun s hs => h.onLink s op hop hs

theorem poll (h : Walked I) : Keeps I poll := by
  have hrecv : Keeps I recv := h.turn.bind fun t => h.step _ (by simp)
  have hloop : ∀ attempts, Keeps I (recvLoop attempts) := by
    intro attempts
    induction attempts with
    | zero => exact Keeps.pure _
    | succ attempts ih => exact hrecv.bind fun more => Keeps.ite ih (Keeps.pure _)
  have haccept : Keeps I acceptPending := h.turn.bind fun _ => Keeps.modify fun s hs => h.onLink s _ (by simp) hs
  exact haccept.bind fun _ => hloop _

theorem sendSnapshotCommand (h : Walked I) (c : Command) : Keeps I (System.sendSnapshotCommand c) := by
  refine h.turn.bind fun t => Keeps.bind (h.step _ (by simp)) fun sent => ?_
  exact Keeps.ite ((h.note _).bind fun _ => Keeps.pure _) (Keeps.pure _)

theorem awaitApplyOutcome (h : Walked I) (ticket : Ticket) : Keeps I (System.awaitApplyOutcome ticket) := by
  have hpause : Keeps I (pause (E := E) kApplyPollInterval) := fun s hs => h.aside s _ rfl rfl rfl rfl hs
  have htake : Keeps I (takeApplyOutcome (E := E)) := h.step _ (by simp)
  have hloop : ∀ id attempts, Keeps I (awaitLoop id attempts) := by
    intro id attempts
    induction attempts with
    | zero => exact Keeps.pure _
    | succ attempts ih =>
      refine h.poll.bind fun _ => htake.bind fun outcome => ?_
      cases outcome with
      | none => exact hpause.bind fun _ => ih
      | some outcome => exact Keeps.ite (Keeps.pure _) (hpause.bind fun _ => ih)
  exact (hloop _ _).bind fun outcome => Keeps.ite ((h.note _).bind fun _ => Keeps.pure _) (Keeps.pure _)

theorem newTicket (h : Walked I) : Keeps I (newTicket (E := E)) := fun s hs => h.aside s _ rfl rfl rfl rfl hs

theorem sendChunks (h : Walked I) (bytes : Bytes) (ticket : Ticket) (fuel offset : ℕ) :
    Keeps I (System.sendChunks bytes ticket fuel offset) := by
  induction fuel generalizing offset with
  | zero => exact Keeps.pure _
  | succ fuel ih =>
    refine Keeps.ite ?_ (Keeps.pure _)
    cases encodeSnapshotChunk (chunkAt bytes offset) with
    | error e => exact Keeps.pure _
    | ok payload => exact (h.sendSnapshotCommand _).bind fun sent => Keeps.ite (ih _) (Keeps.pure _)

theorem transfer (h : Walked I) (snapshot : Snapshot) (bytes : Bytes) (ticket : Ticket) :
    Keeps I (System.transfer snapshot bytes ticket) := by
  have hbody : Keeps I (sendBody snapshot bytes ticket) := by
    refine (h.sendChunks _ _ _ _).bind fun sent => Keeps.ite ?_ (Keeps.pure _)
    cases encodeSnapshotCommit ⟨snapshot.appGeneration, snapshot.daemonGeneration⟩ with
    | error e => exact Keeps.pure _
    | ok payload =>
      exact (h.sendSnapshotCommand _).bind fun sent =>
        Keeps.ite ((h.awaitApplyOutcome _).bind fun _ => Keeps.pure _) (Keeps.pure _)
  unfold System.transfer
  cases encodeSnapshotBegin (beginOf snapshot bytes) with
  | error e => exact Keeps.pure _
  | ok payload =>
    exact (h.sendSnapshotCommand _).bind fun sent =>
      Keeps.ite ((h.awaitApplyOutcome _).bind fun outcome => Keeps.ite hbody (Keeps.pure _)) (Keeps.pure _)

theorem applySnapshotToDriver (h : Walked I) (snapshot : Snapshot) : Keeps I (System.applySnapshotToDriver snapshot) := by
  unfold System.applySnapshotToDriver
  cases encodeSnapshot snapshot with
  | error e => exact Keeps.pure _
  | ok bytes =>
    exact h.newTicket.bind fun ticket => (h.note _).bind fun _ =>
      (h.transfer _ _ _).bind fun _ => (h.note _).bind fun _ => Keeps.pure _

theorem announceRouteToDriver (h : Walked I) : Keeps I announceRouteToDriver := by
  refine Keeps.get.bind fun s => ?_
  dsimp only
  cases encodeRouteAnnounce { deviceKeyHash := s.runtime.routeKeyHash } with
  | error e => exact Keeps.pure _
  | ok payload =>
    refine h.newTicket.bind fun ticket => (h.sendSnapshotCommand _).bind fun sent => Keeps.ite ?_ (Keeps.pure _)
    refine (h.awaitApplyOutcome _).bind fun outcome => Keeps.ite ?_ (Keeps.pure _)
    exact Keeps.bind (h.set fun _ => rfl) fun _ => (h.note _).bind fun _ => Keeps.pure _

theorem restoreCurrentRoute (h : Walked I) : Keeps I restoreCurrentRoute := by
  refine Keeps.get.bind fun s => Keeps.ite ((h.note _).bind fun _ => Keeps.pure _) ?_
  cases usableSnapshot s.store s.runtime.routeKeyHash with
  | none => exact (h.note _).bind fun _ => Keeps.pure _
  | some loaded =>
    exact Keeps.bind (h.set fun _ => rfl) fun _ => (h.note _).bind fun _ =>
      (h.applySnapshotToDriver _).bind fun _ => Keeps.pure _

theorem commitStagedAppSnapshot (h : Walked I) (ticket : Ticket) : Keeps I (System.commitStagedAppSnapshot ticket) := by
  refine Keeps.get.bind fun s => Keeps.ite (Keeps.bind (h.set fun _ => rfl) fun _ => ?_) (Keeps.pure _)
  cases stagedAppSnapshot s.runtime with
  | none => exact Keeps.pure _
  | some snapshot =>
    refine h.turn.bind fun t => Keeps.bind (Keeps.modify fun s hs => ?_) fun _ => h.note _
    exact h.aside s _ rfl rfl rfl rfl hs

theorem settleAppTransfer (h : Walked I) (type : SnapshotCommandType) (ticket : Ticket)
    (outcome : Option Channel.ApplyOutcome) : Keeps I (System.settleAppTransfer type ticket outcome) := by
  have hlast : Keeps I (do if !accepted outcome ∨ type = .snapshotAbort then System.set (E := E) dropStaged) :=
    Keeps.ite (h.set fun _ => rfl) (Keeps.pure _)
  exact Keeps.ite (Keeps.bind (h.set fun _ => rfl) fun _ => (h.commitStagedAppSnapshot _).bind fun _ => hlast) hlast

theorem onSnapshotCommand (h : Walked I) (type : SnapshotCommandType) (payload : Bytes) :
    Keeps I (System.onSnapshotCommand type payload) := by
  have hstage : Keeps I (System.set fun r => stageAppSnapshotCommand r type payload) :=
    h.set fun r => armingOf_stage r type payload
  refine Keeps.get.bind fun s => hstage.bind fun _ => Keeps.bind (Keeps.get.bind fun _ => Keeps.pure _) fun up => ?_
  refine Keeps.ite (Keeps.pure _) (h.newTicket.bind fun ticket => (h.sendSnapshotCommand _).bind fun sent => ?_)
  refine Keeps.ite (Keeps.pure _) (Keeps.bind (h.set fun _ => rfl) fun _ => ?_)
  refine Keeps.ite (Keeps.pure _) (Keeps.get.bind fun _ => ?_)
  refine Keeps.ite (Keeps.bind (h.note _) fun _ => ?_) ?_
  all_goals
    refine (h.awaitApplyOutcome ticket).bind fun outcome => ?_
    exact (h.settleAppTransfer type ticket outcome).bind fun _ => Keeps.get.bind fun _ => Keeps.pure _

/-! ## Programs that look at the route -/

variable (hroute : ∀ s, I s → I (Sys.pollRoute s))
include hroute

theorem onRouteReport (h : Walked I) (report : AppRouteReport) : Keeps I (System.onRouteReport report) := by
  refine Keeps.get.bind fun s => Keeps.ite (Keeps.pure _) (Keeps.ite (Keeps.pure _) (h.turn.bind fun t => ?_))
  refine Keeps.bind (Keeps.modify fun s hs => hroute _ ?_) fun _ => Keeps.get.bind fun _ => Keeps.pure _
  exact h.aside s _ rfl rfl rfl rfl hs

theorem handleAppMessages (h : Walked I) (messages : List AppMessage) : Keeps I (System.handleAppMessages messages) := by
  induction messages with
  | nil => exact Keeps.pure _
  | cons m rest ih =>
    refine Keeps.bind ?_ fun _ => ih
    cases m with
    | routeReport report => exact (h.onRouteReport hroute report).bind fun _ => Keeps.pure _
    | snapshotCommand type payload =>
      exact Keeps.ite ((h.onSnapshotCommand type payload).bind fun _ => Keeps.pure _) (Keeps.pure _)

omit hroute in
theorem announcePass (h : Walked I) (driverConnected newConnection : Bool) :
    Keeps I (System.announcePass driverConnected newConnection) := by
  have hlast : Keeps I (System.set (E := E) fun r => { r with driverWasConnected := driverConnected }) := h.set fun _ => rfl
  have hdue : Keeps I (do
      if announceDue (← get) then do
        System.set (E := E) fun r => { r with announceAttempts := r.announceAttempts + 1 }
        if ← System.announceRouteToDriver then System.set fun r => { r with announceAttempts := 0 }
        else modify fun s => { s with
          runtime := { s.runtime with announceNextAttempt := s.now + kAnnounceRetryDelay } }
      System.set fun r => { r with driverWasConnected := driverConnected }) := by
    refine Keeps.get.bind fun s => Keeps.ite ?_ hlast
    refine Keeps.bind (h.set fun _ => rfl) fun _ => h.announceRouteToDriver.bind fun ok => ?_
    refine Keeps.ite (Keeps.bind (h.set fun _ => rfl) fun _ => hlast) (Keeps.bind (Keeps.modify fun s hs => ?_) fun _ => hlast)
    exact h.aside s _ rfl rfl rfl rfl hs
  refine Keeps.ite (Keeps.ite ?_ hdue) (Keeps.bind (h.set fun _ => rfl) fun _ => hlast)
  exact Keeps.bind (h.set fun _ => rfl) fun _ => hdue

/-- **A pass, up to the decision about a restore.** -/
theorem beforeRestore (h : Walked I) (messages : List AppMessage) : Keeps I (System.beforeRestore messages) := by
  refine h.poll.bind fun _ => (h.handleAppMessages hroute messages).bind fun _ => ?_
  refine Keeps.bind (Keeps.modify hroute) fun _ => Keeps.get.bind fun s => ?_
  exact (h.announcePass _ _).bind fun _ => Keeps.pure _

end Walked

end ViperFx.System
