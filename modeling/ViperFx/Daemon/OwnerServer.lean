/-
The daemon's end of the owner socket: `daemon/OwnerServer.cpp` and the owner callbacks of `daemon/DaemonRuntime.cpp`.

At most one owner is connected. A new connection drops the one before it, a frame is handled as it is read, and `driveOwner`,
once a pass, polls the supervisor and asks a connected owner for the session. That it asks once is kept in two counters: one
counts hellos, the other is the count at the last command and goes back to zero when a connection ends or a handle is
released. A connection is there before its hello, though, and a hello may come twice.

Results:
  · driveOwner_driven           : everything one pass can do
  · one_command_per_connection  : where no pass finds an owner that has yet to say hello behind an earlier one, and no owner
                                  says hello again after it was asked, every owner is asked after its hello and once
  · command_before_hello        : an owner that is asked before its hello, and again after it
-/
import ViperFx.Daemon.OwnerSupervisor
import ViperFx.Protocol.OwnerProtocol

namespace ViperFx.Daemon

open ViperFx.Core

/-! ## Messages -/

/-- a frame of the owner, decoded; `rejected` is every frame that `HandleFrame` only counts -/
inductive OwnerFrame where
  | hello (hello : Protocol.OwnerHello)
  | owned (owned : Owned)
  | ownerFailed (failed : OwnerFailed)
  | released
  | sessionDelta (delta : SessionDelta)
  | rejected
  deriving DecidableEq

/-- a frame to the owner -/
inductive OwnerCommand where
  | helloAck (accepted : Bool)
  | ownSession (requestId : ℕ)
  | releaseSession (requestId : ℕ)
  deriving DecidableEq

def OwnerCommand.isOwnSession : OwnerCommand → Bool
  | .ownSession _ => true
  | _ => false

namespace OwnerSupervisor

def ready (s : OwnerSupervisor) : Bool := s.state = .owned

end OwnerSupervisor

/-! ## The endpoint -/

/-- what the runtime and its owner server hold of the owner; `client` is the connection that is up -/
structure OwnerEndpoint where
  ownerEnabled : Bool := true
  daemonGeneration : UInt64 := 1
  client : Option ℕ := none
  supervisor : OwnerSupervisor := {}
  ownerConnectionsSeen : ℕ := 0
  ownerCommandedConnection : ℕ := 0
  nextRequestId : ℕ := 1
  deriving DecidableEq

namespace OwnerEndpoint

def onOwnerDisconnected (s : OwnerEndpoint) : OwnerEndpoint :=
  { s with supervisor := s.supervisor.onDisconnected, ownerCommandedConnection := 0 }

/-- `DropClient(true)` -/
def dropClient (s : OwnerEndpoint) : OwnerEndpoint :=
  if s.client.isNone then s else { s with client := none }.onOwnerDisconnected

/-- `AcceptPending` with a peer that is allowed -/
def acceptPending (connection : ℕ) (s : OwnerEndpoint) : OwnerEndpoint := { s.dropClient with client := some connection }

/-- the pid goes through an `int` -/
def onOwnerHello (hello : Protocol.OwnerHello) (s : OwnerEndpoint) : OwnerEndpoint :=
  if s.ownerEnabled then
    { s with
      ownerConnectionsSeen := s.ownerConnectionsSeen + 1
      supervisor := s.supervisor.onConnected hello.ownerPid.toUInt32.toInt32.toInt }
  else s

def onReleased (s : OwnerEndpoint) : OwnerEndpoint :=
  { s with supervisor := s.supervisor.onReleased, ownerCommandedConnection := 0 }

/-- an acknowledgement without a generation cannot be encoded, and then the owner is neither answered nor dropped -/
def handleHello (hello : Protocol.OwnerHello) (s : OwnerEndpoint) : OwnerEndpoint × List OwnerCommand :=
  let s' := s.onOwnerHello hello
  if s.daemonGeneration = 0 then (s', [])
  else (if s.ownerEnabled then s' else s'.dropClient, [.helloAck s.ownerEnabled])

def handleFrame (s : OwnerEndpoint) : OwnerFrame → OwnerEndpoint × List OwnerCommand
  | .hello hello => s.handleHello hello
  | .owned owned => ({ s with supervisor := s.supervisor.onOwned owned }, [])
  | .ownerFailed failed => ({ s with supervisor := s.supervisor.onOwnerFailed failed }, [])
  | .released => (s.onReleased, [])
  | .sessionDelta delta => ({ s with supervisor := s.supervisor.onSessionDelta delta }, [])
  | .rejected => (s, [])

/-- `sends` is whether the socket takes a frame, `spawned` what `Spawn` answers -/
def driveOwner (now : TimePoint) (spawned : ℤ) (sends : Bool) (s : OwnerEndpoint) : OwnerEndpoint × List OwnerCommand :=
  let s := { s with supervisor := (s.supervisor.poll s.ownerEnabled now spawned).1 }
  if !s.ownerEnabled then (s, [])
  else if s.client.isNone then (s, [])
  else if s.ownerCommandedConnection = s.ownerConnectionsSeen then (s, [])
  else if s.supervisor.ready then (s, [])
  else
    let requestId := s.nextRequestId
    let s := { s with nextRequestId := requestId + 1 }
    if sends then ({ s with ownerCommandedConnection := s.ownerConnectionsSeen }, [.ownSession requestId]) else (s, [])

/-- `SeedSurvivingOwner` at the start of the daemon -/
def start (ownerEnabled : Bool) (daemonGeneration : UInt64) (survivor : ℤ) (alive : Bool) : OwnerEndpoint :=
  { ownerEnabled, daemonGeneration
    supervisor := if ownerEnabled then (OwnerSupervisor.seedSurvivingOwner survivor alive {}).1 else {} }

end OwnerEndpoint

inductive EndpointEvent where
  | accept (connection : ℕ)
  | frame (frame : OwnerFrame)
  | closed
  | drive (now : TimePoint) (spawned : ℤ) (sends : Bool)
  deriving DecidableEq

def EndpointEvent.isDrive : EndpointEvent → Bool
  | .drive _ _ _ => true
  | _ => false

def EndpointEvent.isHello : EndpointEvent → Bool
  | .frame (.hello _) => true
  | _ => false

/-- a frame is read only from a connected owner -/
def endpointStep (s : OwnerEndpoint) : EndpointEvent → OwnerEndpoint × List OwnerCommand
  | .accept connection => (s.acceptPending connection, [])
  | .frame frame => if s.client.isNone then (s, []) else s.handleFrame frame
  | .closed => (s.dropClient, [])
  | .drive now spawned sends => s.driveOwner now spawned sends

abbrev EndpointEntry := Entry OwnerEndpoint EndpointEvent (List OwnerCommand)

/-! ## What a step does -/

namespace OwnerEndpoint

section Fields

variable (s : OwnerEndpoint)

@[simp] theorem dropClient_client : s.dropClient.client = none := by
  unfold dropClient
  split_ifs with h
  · exact Option.isNone_iff_eq_none.mp h
  · rfl

@[simp] theorem dropClient_seen : s.dropClient.ownerConnectionsSeen = s.ownerConnectionsSeen := by
  unfold dropClient
  split_ifs <;> rfl

theorem dropClient_commanded :
    s.dropClient.ownerCommandedConnection = if s.client.isNone then s.ownerCommandedConnection else 0 := by
  unfold dropClient
  split_ifs <;> rfl

end Fields

/-- everything one pass can do: nothing but poll the supervisor, or also use up a request id, or also ask -/
inductive Driven (s : OwnerEndpoint) (now : TimePoint) (spawned : ℤ) (sends : Bool) :
    OwnerEndpoint → List OwnerCommand → Prop
  | quiet (t : OwnerEndpoint) (hclient : t.client = s.client) (hseen : t.ownerConnectionsSeen = s.ownerConnectionsSeen)
      (hcommanded : t.ownerCommandedConnection = s.ownerCommandedConnection) : Driven s now spawned sends t []
  | asked (t : OwnerEndpoint) (requestId : ℕ) (henabled : s.ownerEnabled = true) (hconnected : s.client.isSome = true)
      (hnew : s.ownerCommandedConnection ≠ s.ownerConnectionsSeen)
      (hready : (s.supervisor.poll true now spawned).1.ready = false) (hclient : t.client = s.client)
      (hseen : t.ownerConnectionsSeen = s.ownerConnectionsSeen)
      (hcommanded : t.ownerCommandedConnection = s.ownerConnectionsSeen) :
      Driven s now spawned sends t [.ownSession requestId]

theorem driveOwner_driven (s : OwnerEndpoint) (now : TimePoint) (spawned : ℤ) (sends : Bool) :
    Driven s now spawned sends (s.driveOwner now spawned sends).1 (s.driveOwner now spawned sends).2 := by
  unfold driveOwner
  dsimp only
  split_ifs with henabled hclient hsame hready hsends
  · exact .quiet _ rfl rfl rfl
  · exact .quiet _ rfl rfl rfl
  · exact .quiet _ rfl rfl rfl
  · exact .quiet _ rfl rfl rfl
  · have henabled : s.ownerEnabled = true := by simpa using henabled
    have hclient : s.client.isSome = true := by simpa [Option.isSome_iff_ne_none] using hclient
    rw [henabled] at hready
    exact .asked _ _ henabled hclient hsame (by simpa using hready) rfl rfl rfl
  · exact .quiet _ rfl rfl rfl

end OwnerEndpoint

/-- a poll that wants an owner neither makes the supervisor ready nor takes it back -/
theorem poll_ready (s : OwnerSupervisor) (now : TimePoint) (spawned : ℤ) :
    (s.poll true now spawned).1.ready = s.ready := by
  have harmed : (s.armDeadlines now).state = s.state := rfl
  have hpolled := poll_polled s true now spawned
  generalize (s.poll true now spawned).1 = t at hpolled ⊢
  generalize (s.poll true now spawned).2 = calls at hpolled
  unfold OwnerSupervisor.ready
  cases hpolled with
  | settled => rfl
  | waiting => rfl
  | gaveUp hstate => simp [OwnerSupervisor.giveUp, hstate]
  | delayed => rfl
  | exhausted hstate => simp [hstate]
  | refused hstate _ _ _ _ _ _ hafter =>
    rcases hafter with hafter | hafter <;> simp [hstate, hafter]
  | spawned hstate => simp [hstate]

/-! ## One command per connection -/

def asks (entry : EndpointEntry) : Bool := entry.output.any OwnerCommand.isOwnSession

/-- a hello was accepted on the connection that is up -/
def greeted : List EndpointEntry → Bool
  | [] => false
  | entry :: past =>
    match entry.event with
    | .accept _ => false
    | .frame (.hello _) => (entry.before.ownerEnabled && entry.before.client.isSome) || greeted past
    | _ => greeted past

/-- OWN_SESSION was sent on the connection that is up, and no RELEASED has come since -/
def awaiting : List EndpointEntry → Bool
  | [] => false
  | entry :: past =>
    match entry.event with
    | .accept _ => false
    | .frame .released => !entry.before.client.isSome && awaiting past
    | _ => asks entry || awaiting past

/-- an owner is asked after its hello, and once until it releases -/
def AskedOnce (past : List EndpointEntry) (entry : EndpointEntry) : Prop :=
  asks entry = true → greeted past = true ∧ awaiting past = false

/-- no pass comes between a connection and its hello when an earlier hello was accepted, unless the supervisor is ready -/
def DrivesGreeted (past : List EndpointEntry) (entry : EndpointEntry) : Prop :=
  entry.event.isDrive = true → entry.before.ownerEnabled = true → entry.before.client.isSome = true →
    entry.before.supervisor.ready = false → entry.before.ownerConnectionsSeen ≠ 0 → greeted past = true

/-- no hello comes after the command of its connection -/
def GreetsFirst (entry : EndpointEntry) : Prop :=
  entry.event.isHello = true → entry.before.ownerEnabled = true → entry.before.client.isSome = true →
    entry.before.ownerCommandedConnection = 0

def Prompt (past : List EndpointEntry) (entry : EndpointEntry) : Prop := DrivesGreeted past entry ∧ GreetsFirst entry

instance (past : List EndpointEntry) (entry : EndpointEntry) : Decidable (AskedOnce past entry) :=
  inferInstanceAs (Decidable (asks entry = true → greeted past = true ∧ awaiting past = false))

instance (past : List EndpointEntry) (entry : EndpointEntry) : Decidable (DrivesGreeted past entry) :=
  inferInstanceAs (Decidable (entry.event.isDrive = true → entry.before.ownerEnabled = true →
    entry.before.client.isSome = true → entry.before.supervisor.ready = false →
    entry.before.ownerConnectionsSeen ≠ 0 → greeted past = true))

instance (entry : EndpointEntry) : Decidable (GreetsFirst entry) :=
  inferInstanceAs (Decidable (entry.event.isHello = true → entry.before.ownerEnabled = true →
    entry.before.client.isSome = true → entry.before.ownerCommandedConnection = 0))

instance (past : List EndpointEntry) (entry : EndpointEntry) : Decidable (Prompt past entry) :=
  inferInstanceAs (Decidable (DrivesGreeted past entry ∧ GreetsFirst entry))

/-- the counter of commands is at zero or at the count of hellos of its command -/
structure Counted (s : OwnerEndpoint) (past : List EndpointEntry) : Prop where
  idle : s.client = none → s.ownerCommandedConnection = 0
  bound : s.ownerCommandedConnection ≤ s.ownerConnectionsSeen
  awaited : s.client.isSome = true → awaiting past = true →
    s.ownerCommandedConnection = s.ownerConnectionsSeen ∧ s.ownerConnectionsSeen ≠ 0

/-- a step that sends no OWN_SESSION and leaves the counters alone -/
theorem Counted.keep {s t : OwnerEndpoint} {past : List EndpointEntry} {e : EndpointEvent} {commands : List OwnerCommand}
    (h : Counted s past) (hclient : t.client = s.client) (hseen : t.ownerConnectionsSeen = s.ownerConnectionsSeen)
    (hcommanded : t.ownerCommandedConnection = s.ownerCommandedConnection)
    (hawaiting : awaiting (⟨s, e, commands, t⟩ :: past) = true → awaiting past = true) :
    Counted t (⟨s, e, commands, t⟩ :: past) := by
  refine ⟨fun hnone => ?_, ?_, fun hsome hwait => ?_⟩
  · rw [hcommanded]
    exact h.idle (hclient ▸ hnone)
  · rw [hcommanded, hseen]
    exact h.bound
  · rw [hcommanded, hseen]
    exact h.awaited (hclient ▸ hsome) (hawaiting hwait)

/-- a step that ends the connection -/
theorem Counted.ended {t : OwnerEndpoint} {log : List EndpointEntry} (hclient : t.client = none)
    (hcommanded : t.ownerCommandedConnection = 0) : Counted t log := by
  refine ⟨fun _ => hcommanded, by omega, fun hsome => ?_⟩
  rw [hclient] at hsome
  cases hsome

theorem dropClient_idle {s : OwnerEndpoint} {past : List EndpointEntry} (h : Counted s past) :
    s.dropClient.ownerCommandedConnection = 0 := by
  rw [OwnerEndpoint.dropClient_commanded]
  split_ifs with hnone
  · exact h.idle (Option.isNone_iff_eq_none.mp hnone)
  · rfl

theorem hello_counted {s : OwnerEndpoint} {past : List EndpointEntry} {hello : Protocol.OwnerHello} (h : Counted s past)
    (hsome : s.client.isSome = true) (hfirst : s.ownerEnabled = true → s.ownerCommandedConnection = 0) :
    Counted (s.handleHello hello).1 (⟨s, .frame (.hello hello), (s.handleHello hello).2, (s.handleHello hello).1⟩ :: past) ∧
      (s.handleHello hello).2.any OwnerCommand.isOwnSession = false := by
  have hsilent : (s.handleHello hello).2.any OwnerCommand.isOwnSession = false := by
    unfold OwnerEndpoint.handleHello
    dsimp only
    split_ifs <;> rfl
  refine ⟨?_, hsilent⟩
  have hwait : awaiting (⟨s, .frame (.hello hello), (s.handleHello hello).2, (s.handleHello hello).1⟩ :: past) = true →
      awaiting past = true := by
    intro hwait
    simpa only [awaiting, asks, hsilent, Bool.false_or] using hwait
  -- an accepted hello finds no command outstanding, so that counting it leaves the counters apart
  by_cases henabled : s.ownerEnabled = true
  · have hzero := hfirst henabled
    have hfields : (s.handleHello hello).1.client = s.client ∧
        (s.handleHello hello).1.ownerConnectionsSeen = s.ownerConnectionsSeen + 1 ∧
        (s.handleHello hello).1.ownerCommandedConnection = s.ownerCommandedConnection := by
      simp only [OwnerEndpoint.handleHello, OwnerEndpoint.onOwnerHello, henabled, if_true]
      split_ifs <;> exact ⟨rfl, rfl, rfl⟩
    obtain ⟨hclient, hseen, hcommanded⟩ := hfields
    refine ⟨fun hnone => ?_, by omega, fun _ hw => ?_⟩
    · rw [hclient] at hnone
      rw [hnone] at hsome
      cases hsome
    · have hpast := h.awaited hsome (hwait hw)
      omega
  · have hsame : s.onOwnerHello hello = s := by
      simp only [OwnerEndpoint.onOwnerHello, henabled, if_false, Bool.false_eq_true]
    by_cases hgeneration : s.daemonGeneration = 0
    · have hhello : (s.handleHello hello).1 = s := by
        simp only [OwnerEndpoint.handleHello, hsame, hgeneration, if_true]
      exact h.keep (by rw [hhello]) (by rw [hhello]) (by rw [hhello]) hwait
    · have hhello : (s.handleHello hello).1 = s.dropClient := by
        simp only [OwnerEndpoint.handleHello, hsame, hgeneration, henabled, if_false, Bool.false_eq_true]
      refine .ended ?_ ?_
      · rw [hhello, OwnerEndpoint.dropClient_client]
      · rw [hhello]
        exact dropClient_idle h

theorem frame_counted {s : OwnerEndpoint} {past : List EndpointEntry} {frame : OwnerFrame} (h : Counted s past)
    (hsome : s.client.isSome = true) (hfirst : GreetsFirst (entryOf endpointStep s (.frame frame))) :
    Counted (s.handleFrame frame).1 (⟨s, .frame frame, (s.handleFrame frame).2, (s.handleFrame frame).1⟩ :: past) ∧
      (s.handleFrame frame).2.any OwnerCommand.isOwnSession = false := by
  cases frame with
  | hello hello => exact hello_counted h hsome fun henabled => hfirst rfl henabled hsome
  | owned owned => exact ⟨h.keep rfl rfl rfl id, rfl⟩
  | ownerFailed failed => exact ⟨h.keep rfl rfl rfl id, rfl⟩
  | sessionDelta delta => exact ⟨h.keep rfl rfl rfl id, rfl⟩
  | rejected => exact ⟨h.keep rfl rfl rfl id, rfl⟩
  | released =>
    refine ⟨⟨fun _ => rfl, Nat.zero_le _, fun _ hwait => ?_⟩, rfl⟩
    simp [awaiting, hsome] at hwait

theorem drive_counted {s t : OwnerEndpoint} {past : List EndpointEntry} {now : TimePoint} {spawned : ℤ} {sends : Bool}
    {commands : List OwnerCommand} (hdriven : OwnerEndpoint.Driven s now spawned sends t commands) (h : Counted s past)
    (hprompt : DrivesGreeted past ⟨s, .drive now spawned sends, commands, t⟩) :
    Counted t (⟨s, .drive now spawned sends, commands, t⟩ :: past) ∧
      AskedOnce past ⟨s, .drive now spawned sends, commands, t⟩ := by
  cases hdriven with
  | quiet hclient hseen hcommanded => exact ⟨h.keep hclient hseen hcommanded id, fun hasks => (nomatch hasks)⟩
  | asked requestId henabled hconnected hnew hready hclient hseen hcommanded =>
    have hbound := h.bound
    have hsome : s.ownerConnectionsSeen ≠ 0 := by omega
    rw [poll_ready] at hready
    refine ⟨⟨fun hnone => ?_, by omega, fun _ _ => ⟨by omega, by omega⟩⟩, fun _ => ⟨?_, ?_⟩⟩
    · rw [hclient] at hnone
      rw [hnone] at hconnected
      cases hconnected
    · exact hprompt rfl henabled hconnected hready hsome
    · cases hwait : awaiting past with
      | false => rfl
      | true => exact absurd (h.awaited hconnected hwait).1 hnew

theorem endpointStep_counted (s : OwnerEndpoint) (past : List EndpointEntry) (e : EndpointEvent) (h : Counted s past)
    (hprompt : Prompt past (entryOf endpointStep s e)) :
    Counted (endpointStep s e).1 (entryOf endpointStep s e :: past) ∧ AskedOnce past (entryOf endpointStep s e) := by
  cases e with
  | accept connection =>
    refine ⟨⟨fun hnone => absurd hnone (Option.some_ne_none _), ?_, fun _ hwait => absurd hwait Bool.false_ne_true⟩,
      fun hasks => absurd hasks Bool.false_ne_true⟩
    show s.dropClient.ownerCommandedConnection ≤ s.dropClient.ownerConnectionsSeen
    rw [dropClient_idle h]
    exact Nat.zero_le _
  | frame frame =>
    by_cases hnone : s.client.isNone = true
    · have hstep : endpointStep s (.frame frame) = (s, []) := by simp only [endpointStep, hnone, if_true]
      have hclient : s.client = none := Option.isNone_iff_eq_none.mp hnone
      rw [entryOf, hstep]
      exact ⟨.ended hclient (h.idle hclient), fun hasks => absurd hasks Bool.false_ne_true⟩
    · have hsome : s.client.isSome = true := by simpa [Option.isSome_iff_ne_none] using hnone
      have hstep : endpointStep s (.frame frame) = s.handleFrame frame := by
        simp only [endpointStep, hnone, if_false, Bool.false_eq_true]
      obtain ⟨hcounted, hsilent⟩ := frame_counted h hsome hprompt.2
      rw [entryOf, hstep]
      exact ⟨hcounted, fun hasks => absurd (hsilent.symm.trans hasks) (by decide)⟩
  | closed =>
    exact ⟨.ended (OwnerEndpoint.dropClient_client s) (dropClient_idle h), fun hasks => absurd hasks Bool.false_ne_true⟩
  | drive now spawned sends => exact drive_counted (s.driveOwner_driven now spawned sends) h hprompt.1

/-- **One OWN_SESSION per owner connection.** In every run of connections, frames, ends of connections and passes in which each
pass and each hello is prompt, OWN_SESSION is sent only on a connection whose hello was accepted, and at most once until that
connection reports RELEASED. -/
theorem one_command_per_connection (ownerEnabled : Bool) (daemonGeneration : UInt64) (survivor : ℤ) (alive : Bool)
    (events : List EndpointEvent)
    (h : Along Prompt (logFrom endpointStep (.start ownerEnabled daemonGeneration survivor alive) [] events)) :
    Along AskedOnce (logFrom endpointStep (.start ownerEnabled daemonGeneration survivor alive) [] events) := by
  have hstart : Counted (.start ownerEnabled daemonGeneration survivor alive) [] :=
    ⟨fun _ => rfl, Nat.le_refl _, fun hsome => (nomatch hsome)⟩
  exact along_logFrom endpointStep endpointStep_counted events hstart trivial h

/-- the hello of process 100 -/
def someHello : OwnerFrame := .hello { ownerPid := 100, bootId := 1 }

/-- two owners, each asked once after its hello, the second again after it released -/
def promptRun : List EndpointEvent :=
  [.accept 0, .frame someHello, .drive 0 1 true, .frame (.owned ⟨7, true⟩), .closed, .accept 1, .frame someHello,
    .drive 1 1 true, .frame (.owned ⟨9, true⟩), .frame .released, .drive 2 1 true]

theorem one_command_per_connection_prompt :
    Along AskedOnce (logFrom endpointStep (.start true 1 0 false) [] promptRun) ∧
      ((logFrom endpointStep (.start true 1 0 false) [] promptRun).filter asks).length = 3 :=
  ⟨one_command_per_connection true 1 0 false promptRun (by decide), by decide⟩

/-- the second owner connects, is asked in the pass before its hello is read, and is asked again after it -/
theorem command_before_hello :
    ¬ Along AskedOnce (logFrom endpointStep (.start true 1 0 false) []
      [.accept 0, .frame someHello, .closed, .accept 1, .drive 0 1 true]) ∧
    ¬ Along AskedOnce (logFrom endpointStep (.start true 1 0 false) []
      [.accept 0, .frame someHello, .drive 0 1 true, .frame someHello, .drive 1 1 true]) := by
  decide

end ViperFx.Daemon
