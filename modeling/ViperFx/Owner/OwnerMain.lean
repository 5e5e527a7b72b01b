/-
The owner process and the daemon, joined by their connections: `OwnerMain.java` and `EffectOwner.java` on one side, the
endpoint of `ViperFx.Daemon.OwnerServer` on the other.

An owner process has three threads. The socket thread connects, says hello, handles commands and, when its read ends, closes
the link and connects again. The watchdog rebuilds a dead effect and reports it. The session callback sends deltas, and
closes the link when one cannot be sent. Effects change under one lock, and the frame that reports the change goes out
before the lock is let go: `pending` is that frame, and the lock is free when there is none. `openLink` and `closeLink` take
no lock, so each of their statements is a step of its own.

A connection carries frames in order and loses none. Once it is closed, by either end or by a loss, nothing more can be
written to it; what is queued may still be read.
-/
import ViperFx.Daemon.OwnerServer
import ViperFx.Owner.OwnerWire

namespace ViperFx.Owner

open ViperFx.Daemon

/-! ## The effect -/

/-- an effect of the platform, which never hands out the id zero -/
structure AudioEffect where
  id : Int32
  issued : id ≠ 0
  deriving DecidableEq

structure EffectOwner where
  effect : Option AudioEffect := none
  selector : Int32 := OwnerWire.HIDL_SELECTOR
  deriving DecidableEq

/-- what the platform answers to the calls of one synchronized step -/
structure Platform where
  /-- `setEnabled` does not say that the object is dead -/
  alive : Bool
  /-- the effect that the constructor makes, if neither it nor `setEnabled` throws -/
  made : Option AudioEffect
  enabled : Bool
  control : Bool
  deriving DecidableEq

namespace EffectOwner

def effectId (o : EffectOwner) : Int32 :=
  match o.effect with
  | none => 0
  | some effect => effect.id

def hasControl (platform : Platform) (o : EffectOwner) : Bool := o.effect.isSome && platform.control

def release (o : EffectOwner) : EffectOwner := { o with effect := none }

def createAndEnable (selector : Int32) (platform : Platform) (o : EffectOwner) : EffectOwner × Bool :=
  if o.effect.isSome then (o, platform.enabled) else ({ effect := platform.made, selector }, platform.made.isSome)

def isAlive (platform : Platform) (o : EffectOwner) : Bool := o.effect.isSome && platform.alive

def recreate (platform : Platform) (o : EffectOwner) : EffectOwner × Bool := o.release.createAndEnable o.selector platform

end EffectOwner

/-! ## The process -/

/-- why the owner has no effect: `REASON_CREATE_FAILED` and `REASON_HANDLE_DIED` -/
inductive Reason where
  | createFailed
  | handleDied
  deriving DecidableEq

def Reason.code : Reason → Int32
  | .createFailed => 2
  | .handleDied => 3

/-- what a synchronized step reports of the effect -/
inductive Report where
  | owned (effectId : Int32) (hasControl : Bool)
  | ownerFailed (reason : Reason)
  | released
  deriving DecidableEq

def Report.frame : Report → OwnerFrame
  | .owned effectId hasControl => .owned ⟨effectId.toUInt32, hasControl⟩
  | .ownerFailed reason => .ownerFailed ⟨reason.code.toUInt32⟩
  | .released => .released

/-- the payload of the report on the wire -/
def Report.payload : Report → Except String Protocol.Bytes
  | .owned effectId hasControl => OwnerWire.owned 0 effectId hasControl
  | .ownerFailed reason => OwnerWire.ownerFailed 0 reason.code
  | .released => OwnerWire.released

/-- what the daemon decodes the payload of a report to -/
def Report.decoded (bytes : Protocol.Bytes) : Report → Except String OwnerFrame
  | .owned _ _ => (Protocol.decodeOwned bytes).map fun v => .owned ⟨v.effectId, v.hasControl⟩
  | .ownerFailed _ => (Protocol.decodeOwnerFailed bytes).map fun v => .ownerFailed ⟨v.reasonCode⟩
  | .released => (Protocol.decodeReleased bytes).map fun _ => .released

/-- the report is encoded, and the daemon handles it as the frame of the report -/
theorem Report.payload_decoded (r : Report) (hid : ∀ control, r ≠ .owned 0 control) :
    ∃ bytes, r.payload = .ok bytes ∧ r.decoded bytes = .ok r.frame := by
  cases r with
  | owned effectId hasControl =>
    have hne : effectId ≠ 0 := fun hzero => hid hasControl (by rw [hzero])
    have hencode : OwnerWire.owned 0 effectId hasControl = .ok _ := (if_neg (by simp [hne])).trans (if_neg (Nat.lt_irrefl 16))
    refine ⟨_, hencode, ?_⟩
    rw [decoded, OwnerWire.decode_owned hencode]
    rfl
  | ownerFailed reason =>
    have hne : reason.code ≠ 0 := by cases reason <;> decide
    have hencode : OwnerWire.ownerFailed 0 reason.code = .ok _ := (if_neg hne).trans (if_neg (Nat.lt_irrefl 16))
    refine ⟨_, hencode, ?_⟩
    rw [decoded, OwnerWire.decode_ownerFailed hencode]
    rfl
  | released =>
    have hencode : OwnerWire.release = .ok _ := rfl
    refine ⟨_, hencode, ?_⟩
    rw [decoded, (OwnerWire.decode_release hencode).2]
    rfl

/-- whose step it is: `handle` lets the failure of a send end the process, the watchdog does not -/
inductive Sender where
  | socketThread
  | watchdog
  deriving DecidableEq

/-- `closeLink`, before each of its statements -/
inductive Closing where
  | reads
  | clearsSocket (current : Option ℕ)
  | clearsOutput (current : Option ℕ)
  | closes (current : Option ℕ)
  deriving DecidableEq

/-- `openLink` after `connect`, and the call of `serve`, before each of their statements -/
inductive Opening where
  | setsSocket
  | setsOutput
  | saysHello
  | serves
  deriving DecidableEq

inductive SocketThread where
  | connecting
  | opening (stage : Opening) (candidate : ℕ)
  | serving (input : ℕ)
  /-- inside `closeLink`, back to the command under way or to connecting -/
  | closing (stage : Closing) (back : Option ℕ)
  deriving DecidableEq

structure OwnerProcess where
  alive : Bool := false
  main : SocketThread := .connecting
  callback : Option Closing := none
  socket : Option ℕ := none
  output : Option ℕ := none
  effectOwner : Option EffectOwner := none
  observing : Bool := false
  pending : Option (Report × Sender) := none
  deriving DecidableEq

namespace OwnerProcess

/-- the effect that the process holds -/
def held (q : OwnerProcess) : Option AudioEffect := q.effectOwner.bind EffectOwner.effect

/-- the socket thread is inside `handle` -/
def handling (q : OwnerProcess) : Bool :=
  match q.pending with
  | some (_, .socketThread) => true
  | _ => false

/-- `OWN_SESSION`: an effect that is held is reported as it is -/
def ownSession (platform : Platform) (q : OwnerProcess) : OwnerProcess :=
  let current := q.effectOwner.getD {}
  if current.effectId = 0 then
    let (made, created) := ({} : EffectOwner).createAndEnable OwnerWire.HIDL_SELECTOR platform
    { q with
      effectOwner := some made
      pending := some (if created then .owned made.effectId (made.hasControl platform)
        else .ownerFailed .createFailed, .socketThread) }
  else { q with pending := some (.owned current.effectId (current.hasControl platform), .socketThread) }

/-- `RELEASE_SESSION` -/
def release (q : OwnerProcess) : OwnerProcess :=
  { q with observing := false, effectOwner := none, pending := some (.released, .socketThread) }

/-- `checkHandleLiveness` -/
def checkHandleLiveness (platform : Platform) (q : OwnerProcess) : OwnerProcess :=
  match q.effectOwner with
  | none => q
  | some current =>
    if current.isAlive platform then q
    else
      let (made, created) := current.recreate platform
      { q with
        effectOwner := some made
        pending := some (if created then .owned made.effectId (made.hasControl platform)
          else .ownerFailed .handleDied, .watchdog) }

/-- the report is out; `handle` then starts the observer if it reported an effect -/
def reported (report : Report) (sender : Sender) (q : OwnerProcess) : OwnerProcess :=
  { q with
    pending := none
    observing := match report, sender with
      | .owned _ _, .socketThread => true
      | _, _ => q.observing }

/-- one statement of `closeLink`: the process after it, the next stage, and the connection that it closes -/
def closeLink (q : OwnerProcess) : Closing → OwnerProcess × Option Closing × Option ℕ
  | .reads => (q, some (.clearsSocket q.socket), none)
  | .clearsSocket current => ({ q with socket := none }, some (.clearsOutput current), none)
  | .clearsOutput current => ({ q with output := none }, some (.closes current), none)
  | .closes current => (q, none, current)

end OwnerProcess

/-! ## The system -/

structure Connection where
  owner : Option ℕ := none
  closed : Bool := false
  toDaemon : List OwnerFrame := []
  toOwner : List OwnerCommand := []
  deriving DecidableEq

structure OwnerSystem where
  process : ℕ → OwnerProcess
  connection : ℕ → Connection
  daemon : OwnerEndpoint

/-- a step of one owner process -/
inductive OwnerMove where
  | connect (c : ℕ)
  | opens (hello : Protocol.OwnerHello)
  | handle (platform : Platform)
  | readEnds
  | publish (delta : SessionDelta)
  | closes
  | watch (platform : Platform)
  | report
  | callback (delta : SessionDelta)
  | callbackCloses
  | exit
  deriving DecidableEq

/-- a step of the system; `sends` is whether the socket of the daemon takes a frame -/
inductive Move where
  | launch (p : ℕ)
  | owner (p : ℕ) (move : OwnerMove)
  | lose (c : ℕ)
  | accept (c : ℕ)
  | read (sends : Bool)
  | closed
  | drive (now : TimePoint) (spawned : ℤ) (sends : Bool)
  | requestRelease (requestId : ℕ) (sends : Bool)
  | restart (ownerEnabled : Bool) (daemonGeneration : UInt64) (survivor : ℤ) (alive : Bool)
  deriving DecidableEq

namespace OwnerSystem

def setProcess (p : ℕ) (q : OwnerProcess) (s : OwnerSystem) : OwnerSystem :=
  { s with process := Function.update s.process p q }

def setConnection (c : ℕ) (k : Connection) (s : OwnerSystem) : OwnerSystem :=
  { s with connection := Function.update s.connection c k }

@[simp] theorem setProcess_self (p : ℕ) (q : OwnerProcess) (s : OwnerSystem) : (s.setProcess p q).process p = q := by
  simp only [setProcess, Function.update_self]

@[simp] theorem setProcess_of_ne {p p' : ℕ} (hp : p' ≠ p) (q : OwnerProcess) (s : OwnerSystem) :
    (s.setProcess p q).process p' = s.process p' := by
  simp only [setProcess, Function.update_of_ne hp]

@[simp] theorem setConnection_self (c : ℕ) (k : Connection) (s : OwnerSystem) : (s.setConnection c k).connection c = k := by
  simp only [setConnection, Function.update_self]

@[simp] theorem setConnection_of_ne {c c' : ℕ} (hc : c' ≠ c) (k : Connection) (s : OwnerSystem) :
    (s.setConnection c k).connection c' = s.connection c' := by
  simp only [setConnection, Function.update_of_ne hc]

def close (c : ℕ) (s : OwnerSystem) : OwnerSystem := s.setConnection c { s.connection c with closed := true }

def closeCurrent : Option ℕ → OwnerSystem → OwnerSystem
  | none, s => s
  | some c, s => s.close c

/-- the end of a process closes its connections -/
def exit (p : ℕ) (s : OwnerSystem) : OwnerSystem :=
  { s with
    process := Function.update s.process p {}
    connection := fun c =>
      if (s.connection c).owner = some p then { s.connection c with closed := true } else s.connection c }

/-- the connection to which the process can write -/
def sink (p : ℕ) (s : OwnerSystem) : Option ℕ := (s.process p).output.filter fun c => !(s.connection c).closed

def write (c : ℕ) (frame : OwnerFrame) (s : OwnerSystem) : OwnerSystem :=
  s.setConnection c { s.connection c with toDaemon := (s.connection c).toDaemon ++ [frame] }

/-- the frames of the daemon go out on a connection, if its socket takes them -/
def command (c : ℕ) (sends : Bool) (commands : List OwnerCommand) (s : OwnerSystem) : OwnerSystem :=
  if sends && !(s.connection c).closed then
    s.setConnection c { s.connection c with toOwner := (s.connection c).toOwner ++ commands }
  else s

/-- a statement of `openLink` or the call of `serve` -/
def openLink (p : ℕ) (hello : Protocol.OwnerHello) (candidate : ℕ) (s : OwnerSystem) : Opening → OwnerSystem
  | .setsSocket =>
    s.setProcess p { s.process p with socket := some candidate, main := .opening .setsOutput candidate }
  | .setsOutput =>
    s.setProcess p { s.process p with output := some candidate, main := .opening .saysHello candidate }
  | .saysHello =>
    if (s.process p).pending.isSome then s
    else
      match s.sink p with
      | some c => (s.write c (.hello hello)).setProcess p { s.process p with main := .opening .serves candidate }
      | none => (s.close candidate).setProcess p { s.process p with main := .closing (.clearsSocket none) none }
  | .serves =>
    match (s.process p).socket with
    | none => s.exit p
    | some input => s.setProcess p { s.process p with main := .serving input }

/-- `handle`, up to the frame it sends -/
def handle (p : ℕ) (platform : Platform) (s : OwnerSystem) : OwnerCommand → OwnerSystem
  | .helloAck accepted => if accepted then s else s.exit p
  | .ownSession _ => s.setProcess p ((s.process p).ownSession platform)
  | .releaseSession _ => s.setProcess p (s.process p).release

/-- the frame of a synchronized step goes out -/
def report (p : ℕ) (report : Report) (sender : Sender) (s : OwnerSystem) : OwnerSystem :=
  match s.sink p, sender with
  | some c, _ => (s.write c report.frame).setProcess p ((s.process p).reported report sender)
  | none, .watchdog => s.setProcess p { s.process p with pending := none }
  | none, .socketThread => s.exit p

def ownerStep (p : ℕ) (s : OwnerSystem) : OwnerMove → OwnerSystem
  | .connect c =>
    if (s.process p).main = .connecting ∧ (s.connection c).owner = none then
      (s.setConnection c { owner := some p }).setProcess p { s.process p with main := .opening .setsSocket c }
    else s
  | .opens hello =>
    match (s.process p).main with
    | .opening stage candidate => s.openLink p hello candidate stage
    | _ => s
  | .handle platform =>
    match (s.process p).main with
    | .serving input =>
      match (s.connection input).toOwner with
      | [] => s
      | command :: rest =>
        if (s.process p).pending.isSome then s
        else (s.setConnection input { s.connection input with toOwner := rest }).handle p platform command
    | _ => s
  | .readEnds =>
    match (s.process p).main with
    | .serving input =>
      if (s.connection input).closed && !(s.process p).handling then
        s.setProcess p { s.process p with main := .closing .reads none }
      else s
    | _ => s
  | .publish delta =>
    match (s.process p).main with
    | .serving input =>
      if (s.process p).pending.isSome || !(s.process p).observing then s
      else
        match s.sink p with
        | some c => s.write c (.sessionDelta delta)
        | none => s.setProcess p { s.process p with main := .closing .reads (some input) }
    | _ => s
  | .closes =>
    match (s.process p).main with
    | .closing stage back =>
      let (q, next, closed) := (s.process p).closeLink stage
      let main := match next, back with
        | some stage, _ => SocketThread.closing stage back
        | none, some input => .serving input
        | none, none => .connecting
      (s.closeCurrent closed).setProcess p { q with main }
    | _ => s
  | .watch platform =>
    if (s.process p).pending.isSome then s else s.setProcess p ((s.process p).checkHandleLiveness platform)
  | .report =>
    match (s.process p).pending with
    | some (report, sender) => s.report p report sender
    | none => s
  | .callback delta =>
    if (s.process p).pending.isSome || (s.process p).callback.isSome then s
    else
      match s.sink p with
      | some c => s.write c (.sessionDelta delta)
      | none => s.setProcess p { s.process p with callback := some .reads }
  | .callbackCloses =>
    match (s.process p).callback with
    | some stage =>
      let (q, next, closed) := (s.process p).closeLink stage
      (s.closeCurrent closed).setProcess p { q with callback := next }
    | none => s
  | .exit => s.exit p

/-- the daemon handles one event, on whatever connection it has; a connection that it lets go of is closed -/
def serve (e : EndpointEvent) (sends : Bool) (s : OwnerSystem) : OwnerSystem :=
  let (daemon, commands) := endpointStep s.daemon e
  match s.daemon.client with
  | none => { s with daemon }
  | some c =>
    let s := s.command c sends commands
    { (if daemon.client = some c then s else s.close c) with daemon }

def step (s : OwnerSystem) : Move → OwnerSystem
  | .launch p => if (s.process p).alive then s else s.setProcess p { alive := true }
  | .owner p move => if (s.process p).alive then s.ownerStep p move else s
  | .lose c => s.close c
  | .accept c => if (s.connection c).owner.isSome then s.serve (.accept c) false else s
  | .read sends =>
    match s.daemon.client with
    | none => s
    | some c =>
      match (s.connection c).toDaemon with
      | [] => s
      | frame :: rest => (s.setConnection c { s.connection c with toDaemon := rest }).serve (.frame frame) sends
  | .closed =>
    match s.daemon.client with
    | none => s
    | some c => if (s.connection c).closed then s.serve .closed false else s
  | .drive now spawned sends => s.serve (.drive now spawned sends) sends
  | .requestRelease requestId sends =>
    match s.daemon.client with
    | none => s
    | some c => s.command c sends [.releaseSession requestId]
  | .restart ownerEnabled daemonGeneration survivor alive =>
    { s with
      connection := fun c => { s.connection c with closed := true }
      daemon := .start ownerEnabled daemonGeneration survivor alive }

/-- a daemon that has just started, with no owner yet -/
def start (ownerEnabled : Bool) (daemonGeneration : UInt64) (survivor : ℤ) (alive : Bool) : OwnerSystem :=
  { process := fun _ => {}, connection := fun _ => {}, daemon := .start ownerEnabled daemonGeneration survivor alive }

def run (s : OwnerSystem) (moves : List Move) : OwnerSystem := moves.foldl step s

end OwnerSystem

end ViperFx.Owner
