/-
The socket between the driver and the daemon, with what stands at each end: `src/DriverEventPublisher.cpp` and
`src/DriverDaemonBridge.cpp` on the driver side, `daemon/DriverEventServer.cpp` and its SessionRegistry on the other.

One state `Link`, one step function. A call into the publisher is three steps, because that is how it races: `register`,
`publish…` and `unregister` are the section under the publisher lock, `stamp i` the fetch_add on the sequence counter,
`enqueue i` the push into the bounded queue; any number of calls may be in between. The bridge thread connects, collects
a rescan, stamps and sends each collected event at once, drains the queue and handles one command per step; the result
of each send is part of the step. The daemon accepts, receives one frame, or sends one command. The driver process may
restart, and so may the daemon.

What a context does with a snapshot command is a parameter (`Applier`), so that the machine serves the event stream and
the snapshot transfers alike. Fields marked ghost are written and never read by a step.
-/
import ViperFx.Daemon.SessionRegistry
import ViperFx.Protocol.SnapshotCommand

namespace ViperFx.Channel

open ViperFx.Core ViperFx.Protocol ViperFx.Daemon

/-! ## Messages -/

/-- a request id with the daemon process that issued it (ghost: `life`; the wire carries only the id) -/
structure Ticket where
  life : ℕ
  requestId : ℕ
  deriving DecidableEq

structure Command where
  type : SnapshotCommandType
  payload : Bytes
  ticket : Ticket
  deriving DecidableEq

/-- daemon-to-driver frames: a rescan request or a snapshot command -/
inductive Down where
  | rescan
  | command (c : Command)

/-- where a driver frame comes from (ghost): the live stream, the replay of one collection, or an answer -/
inductive Tag where
  | live
  | replay (number : ℕ)
  | reply (ticket : Ticket)
  deriving DecidableEq

/-- the daemon process an answer is meant for -/
def Tag.life : Tag → ℕ
  | .reply ticket => ticket.life
  | _ => 0

/-- an event on the wire; `phase` (ghost) is 2k before collection k is taken and 2k + 1 while it is replayed -/
structure Frame where
  event : DriverEvent
  tag : Tag
  phase : ℕ
  deriving DecidableEq

/-- the outcome of one snapshot command on one context, or of its fan-out -/
structure SnapshotAck where
  accepted : Bool := false
  errorCode : ℕ := 0
  appGeneration : UInt64 := 0
  daemonGeneration : UInt64 := 0
  resourceGeneration : UInt64 := 0
  graphGeneration : UInt64 := 0
  deriving DecidableEq

/-- what a context is to the publisher: a fresh one, and how it answers a command -/
structure Applier (α : Type) where
  fresh : α
  run : α → Command → α × SnapshotAck

/-! ## The driver process -/

structure ContextRecord where
  audioSessionId : ℕ := 0
  ioId : ℕ := 0
  sampleRate : ℕ := 0
  channelMask : ℕ := 0
  enabled : Bool := false
  configured : Bool := false
  resourceGeneration : ℕ := 0
  graphGeneration : ℕ := 0
  bypassReason : ℕ := 0
  deriving DecidableEq

/-- a registered context; ghost: its enable state was published (`switched`) and it was configured since (`reconfigured`) -/
structure DriverContext (α : Type) where
  record : ContextRecord
  ext : α
  switched : Bool := false
  reconfigured : Bool := false

/-- a call that left the publisher lock and is not stamped yet; `collection` (ghost) counts the rescans collected before -/
structure Pending where
  event : DriverEvent
  collection : ℕ
  deriving DecidableEq

/-- a rescan being sent: the events not sent yet, in order, with the number of the collection (ghost) -/
structure Replay where
  number : ℕ
  unsent : List DriverEvent
  deriving DecidableEq

/-- the publisher and the bridge; `collections` (ghost) has the contexts of every rescan collected so far -/
structure Driver (α : Type) where
  bootId : ℕ
  contexts : Table ℕ (DriverContext α) := Table.empty
  nextContextInstanceId : ℕ := 1
  started : Bool := false
  unstamped : List Pending := []
  stamped : List DriverEvent := []
  nextSequence : ℕ := 1
  queue : List DriverEvent := []
  rescanRequested : Bool := false
  replay : Option Replay := none
  collections : List (List ℕ) := []
  socket : Option ℕ := none
  droppedEvents : ℕ := 0

def kQueueCapacity : ℕ := 256

/-! ## Sockets and the daemon's end -/

/-- one connection: the frames in flight in each direction and which ends are open -/
structure Wire where
  up : List Frame := []
  down : List Down := []
  driverOpen : Bool := false
  daemonOpen : Bool := false

/-- the last apply result, matched by request id (ghost: the `life` in the ticket) -/
structure ApplyOutcome where
  accepted : Bool
  ticket : Ticket
  errorCode : ℕ
  appGeneration : ℕ
  resourceGeneration : ℕ
  graphGeneration : ℕ
  deriving DecidableEq

/-- what happened in the driver (ghost); `known` says that the daemon's registry had the key of the context already -/
inductive Note (α : Type) where
  | registered (id : ℕ) (known : Bool)
  | handled (command : Command) (contexts : Table ℕ (DriverContext α))
  | restarted

/-- both ends; ghost: `received` since the daemon started, `sent` and `trace` since ever -/
structure Link (α : Type) where
  driver : Driver α
  wires : ℕ → Wire := fun _ => {}
  nextWire : ℕ := 0
  backlog : List ℕ := []
  client : Option ℕ := none
  outcome : Option ApplyOutcome := none
  registry : Registry := {}
  received : List Frame := []
  sent : List Command := []
  trace : List (Note α) := []

def init {α : Type} (bootId : ℕ) : Link α := { driver := { bootId } }

/-- how a non-blocking send ends: delivered, EAGAIN, or a broken connection -/
inductive SendResult where
  | sent
  | again
  | broken
  deriving DecidableEq

/-- everything that can happen on the driver side -/
inductive DriverOp (α : Type) where
  | register (audioSessionId ioId : ℕ)
  | publishConfigured (id sampleRate channelMask : ℕ)
  | publishEnabled (id : ℕ) (enabled : Bool)
  | publishGenerations (id resourceGeneration graphGeneration : ℕ)
  | publishTelemetry (id bypassReason : ℕ)
  | unregister (id : ℕ)
  | stamp (i : ℕ)
  | enqueue (i : ℕ)
  | connect (r : SendResult)
  | hangup
  | collect
  | replaySend (r : SendResult)
  | drain (r : SendResult)
  | handle (r : SendResult)
  | touch (id : ℕ) (f : α → α)
  | restart

/-- everything the daemon does to the link -/
inductive DaemonOp where
  | accept
  | recv (rescanSent : Bool)
  | send (command : Command) (ok : Bool)
  | take
  | restart

inductive Op (α : Type) where
  | driver (op : DriverOp α)
  | daemon (op : DaemonOp)

/-! ## Publisher calls -/

def makeEvent (type : DriverEventType) (id : ℕ) (record : ContextRecord) : DriverEvent :=
  { type, contextInstanceId := id, audioSessionId := record.audioSessionId, ioId := record.ioId,
    sampleRate := record.sampleRate, channelMask := record.channelMask, enabled := record.enabled,
    resourceGeneration := record.resourceGeneration, graphGeneration := record.graphGeneration,
    bypassReason := record.bypassReason }

namespace Driver

variable {α : Type}

/-- the event a call will publish once it is stamped -/
def pend (d : Driver α) (e : DriverEvent) : Driver α := { d with unstamped := d.unstamped ++ [⟨e, d.collections.length⟩] }

def register (d : Driver α) (fresh : α) (audioSessionId ioId : ℕ) : Driver α :=
  let record : ContextRecord := { audioSessionId, ioId }
  { d with
    started := true
    contexts := d.contexts.put d.nextContextInstanceId { record, ext := fresh }
    nextContextInstanceId := d.nextContextInstanceId + 1 }.pend
      (makeEvent .contextCreated d.nextContextInstanceId record)

/-- RegisterContext returns the id after its own Publish, so until then nobody can name the context -/
def registering (d : Driver α) (id : ℕ) : Bool :=
  d.unstamped.any (fun p => p.event.type == .contextCreated && p.event.contextInstanceId == id)
    || d.stamped.any (fun e => e.type == .contextCreated && e.contextInstanceId == id)

/-- the shape of every Publish… call: look the context up, change its record, publish an event about it; `change`
answers none when the call returns early because nothing changed -/
def publish (d : Driver α) (id : ℕ) (change : DriverContext α → Option (DriverContext α × DriverEventType)) : Driver α :=
  if d.registering id then d
  else match d.contexts.get? id with
    | none => d
    | some c => match change c with
      | none => d
      | some (c', type) => { d with contexts := d.contexts.put id c' }.pend (makeEvent type id c'.record)

def publishConfigured (d : Driver α) (id sampleRate channelMask : ℕ) : Driver α :=
  d.publish id fun c =>
    some ({ c with
      record := { c.record with sampleRate, channelMask, configured := true }
      reconfigured := c.switched }, .contextConfigured)

def publishEnabled (d : Driver α) (id : ℕ) (enabled : Bool) : Driver α :=
  d.publish id fun c =>
    some ({ c with record := { c.record with enabled }, switched := true, reconfigured := false },
      if enabled then .contextEnabled else .contextDisabled)

def publishGenerations (d : Driver α) (id resourceGeneration graphGeneration : ℕ) : Driver α :=
  d.publish id fun c =>
    if c.record.resourceGeneration = resourceGeneration ∧ c.record.graphGeneration = graphGeneration then none
    else some ({ c with record := { c.record with resourceGeneration, graphGeneration } }, .resourceGenerationChanged)

def publishTelemetry (d : Driver α) (id bypassReason : ℕ) : Driver α :=
  d.publish id fun c =>
    if c.record.bypassReason = bypassReason then none
    else some ({ c with record := { c.record with bypassReason } }, .telemetry)

def unregister (d : Driver α) (id : ℕ) : Driver α :=
  if d.registering id then d
  else match d.contexts.get? id with
    | none => d
    | some c => { d with contexts := d.contexts.erase id }.pend
        (makeEvent .contextReleased id { c.record with enabled := false })

/-- the phase a frame sent now belongs to -/
def phase (d : Driver α) : ℕ :=
  match d.replay with
  | some rp => 2 * rp.number + 1
  | none => 2 * d.collections.length

/-- the boot id and the next sequence, as `Publish`, HandleRescan and the replies stamp them -/
def mark (d : Driver α) (e : DriverEvent) : DriverEvent := { e with bootId := d.bootId, eventSequence := d.nextSequence }

def stamp (d : Driver α) (i : ℕ) : Driver α :=
  match d.unstamped[i]? with
  | none => d
  | some p => { d with
      unstamped := d.unstamped.eraseIdx i
      stamped := d.stamped ++ [d.mark p.event]
      nextSequence := d.nextSequence + 1 }

def enqueue (d : Driver α) (i : ℕ) : Driver α :=
  match d.stamped[i]? with
  | none => d
  | some e =>
    if kQueueCapacity ≤ d.queue.length then
      { d with stamped := d.stamped.eraseIdx i, droppedEvents := d.droppedEvents + 1 }
    else { d with stamped := d.stamped.eraseIdx i, queue := d.queue ++ [e] }

/-- `CollectRescanEvents`: one RESCAN_RESPONSE for each context, then the terminator -/
def collectRescanEvents (d : Driver α) : List DriverEvent :=
  d.contexts.entries.map (fun p => makeEvent .rescanResponse p.1 p.2.record) ++ [{ type := .rescanResponse }]

/-- the context's own thread changes what the publisher does not see -/
def touch (d : Driver α) (id : ℕ) (f : α → α) : Driver α :=
  match d.contexts.get? id with
  | none => d
  | some c => { d with contexts := d.contexts.put id { c with ext := f c.ext } }

def collect (d : Driver α) : Driver α :=
  if d.rescanRequested ∧ d.socket.isSome ∧ d.replay.isNone then
    { d with
      rescanRequested := false
      collections := d.collections ++ [d.contexts.keys]
      replay := some ⟨d.collections.length, d.collectRescanEvents⟩ }
  else d

end Driver

namespace Link

variable {α : Type}

/-! ## The bridge thread -/

def setDriver (l : Link α) (d : Driver α) : Link α := { l with driver := d }

def setWire (l : Link α) (w : ℕ) (wire : Wire) : Link α := { l with wires := Function.update l.wires w wire }

def note (l : Link α) (n : Note α) : Link α := { l with trace := n :: l.trace }

def closeConnection (l : Link α) : Link α :=
  match l.driver.socket with
  | none => l
  | some w => (l.setWire w { l.wires w with driverOpen := false }).setDriver { l.driver with socket := none }

/-- `SendEvent`: false only when the connection had to be closed; a full socket drops the event -/
def sendEvent (l : Link α) (r : SendResult) (f : Frame) : Link α × Bool :=
  match l.driver.socket with
  | none => (l, false)
  | some w =>
    match (if (l.wires w).daemonOpen then r else .broken) with
    | .sent => (l.setWire w { l.wires w with up := (l.wires w).up ++ [f] }, true)
    | .again => (l.setDriver { l.driver with droppedEvents := l.driver.droppedEvents + 1 }, true)
    | .broken => (l.closeConnection, false)

/-- a frame the bridge thread stamps itself, right before it sends it -/
def sendStamped (l : Link α) (r : SendResult) (e : DriverEvent) (tag : Tag) : Link α × Bool :=
  (l.setDriver { l.driver with nextSequence := l.driver.nextSequence + 1 }).sendEvent r
    ⟨l.driver.mark e, tag, l.driver.phase⟩

/-- a connection the daemon has not accepted yet -/
def openWire (l : Link α) : Link α :=
  { l.setWire l.nextWire { driverOpen := true, daemonOpen := true } with
    nextWire := l.nextWire + 1
    backlog := l.backlog ++ [l.nextWire]
    driver := { l.driver with socket := some l.nextWire } }

/-- `EnsureConnected`: a new connection starts with DRIVER_HELLO and asks for a replay of the live contexts -/
def connect (l : Link α) (r : SendResult) : Link α :=
  if l.driver.started ∧ l.driver.socket.isNone ∧ l.driver.replay.isNone then
    let p := l.openWire.sendStamped r { type := .driverHello } .live
    if p.2 then p.1.setDriver { p.1.driver with rescanRequested := true } else p.1
  else l

/-- the main loop closes a connection only between a replay and the next -/
def hangup (l : Link α) : Link α := if l.driver.replay.isNone then l.closeConnection else l

/-- one round of the loop in HandleRescan: stamp the next collected event and send it; a failed send ends the replay -/
def replaySend (l : Link α) (r : SendResult) : Link α :=
  match l.driver.replay with
  | none => l
  | some rp =>
    match rp.unsent with
    | [] => l.setDriver { l.driver with replay := none }
    | e :: rest =>
      let p := l.sendStamped r e (.replay rp.number)
      p.1.setDriver { p.1.driver with
        replay := if p.2 && !rest.isEmpty then some { rp with unsent := rest } else none }

/-- one round of the loop in DrainQueue: an event whose send broke the connection goes back to the front -/
def drain (l : Link α) (r : SendResult) : Link α :=
  if l.driver.replay.isSome ∨ l.driver.socket.isNone then l
  else match l.driver.queue with
    | [] => l
    | e :: rest =>
      let p := (l.setDriver { l.driver with queue := rest }).sendEvent r ⟨e, .live, l.driver.phase⟩
      if p.2 then p.1 else p.1.setDriver { p.1.driver with queue := e :: rest }

/-- the first result of the decisive kind wins: a NACK is decisive over any ACK -/
def combine (ack : SnapshotAck) (one : SnapshotAck) : SnapshotAck := if !one.accepted && ack.accepted then one else ack

/-- what the daemon is told: without a context the command is refused with NOT_STAGING -/
def foldAcks : List SnapshotAck → SnapshotAck
  | [] => { accepted := false, errorCode := 1 }
  | ack :: acks => acks.foldl combine ack

/-- `ApplySnapshotCommand`: every context sees the command -/
def applySnapshotCommand (a : Applier α) (contexts : Table ℕ (DriverContext α)) (c : Command) :
    Table ℕ (DriverContext α) × SnapshotAck :=
  (contexts.retain fun _ x => some { x with ext := (a.run x.ext c).1 },
    foldAcks (contexts.entries.map fun p => (a.run p.2.ext c).2))

def replyEvent (c : Command) (ack : SnapshotAck) : DriverEvent :=
  { type := if ack.accepted then .snapshotAppliedAck else .snapshotAppliedNack
    contextInstanceId := c.ticket.requestId
    sessionGeneration := ack.appGeneration.toNat
    resourceGeneration := ack.resourceGeneration.toNat
    graphGeneration := ack.graphGeneration.toNat
    bypassReason := ack.errorCode }

/-- `HandleSnapshotCommand` of the bridge: fan the command out and answer, unless it is an accepted chunk -/
def handleSnapshotCommand (a : Applier α) (l : Link α) (c : Command) (r : SendResult) : Link α :=
  let p := applySnapshotCommand a l.driver.contexts c
  let l₁ := (l.setDriver { l.driver with contexts := p.1 }).note (.handled c l.driver.contexts)
  if c.type = .snapshotChunk ∧ p.2.accepted then l₁
  else (l₁.sendStamped r (replyEvent c p.2) (.reply c.ticket)).1

/-- one frame of the daemon is read and acted on -/
def handle (a : Applier α) (l : Link α) (r : SendResult) : Link α :=
  if l.driver.replay.isSome then l
  else match l.driver.socket with
    | none => l
    | some w =>
      match (l.wires w).down with
      | [] => l
      | .rescan :: rest =>
        (l.setWire w { l.wires w with down := rest }).setDriver { l.driver with rescanRequested := true }
      | .command c :: rest => handleSnapshotCommand a (l.setWire w { l.wires w with down := rest }) c r

/-- the process dies and a new one loads: ids and sequences start again under the same boot id -/
def restartDriver (l : Link α) : Link α :=
  (l.closeConnection.setDriver { bootId := l.driver.bootId, collections := l.driver.collections }).note .restarted

def stepDriver (a : Applier α) (l : Link α) : DriverOp α → Link α
  | .register audioSessionId ioId =>
    (l.setDriver (l.driver.register a.fresh audioSessionId ioId)).note (.registered l.driver.nextContextInstanceId
      (l.registry.contexts.get? ⟨l.driver.bootId, l.driver.nextContextInstanceId⟩).isSome)
  | .publishConfigured id sampleRate channelMask =>
    l.setDriver (l.driver.publishConfigured id sampleRate channelMask)
  | .publishEnabled id enabled => l.setDriver (l.driver.publishEnabled id enabled)
  | .publishGenerations id resourceGeneration graphGeneration =>
    l.setDriver (l.driver.publishGenerations id resourceGeneration graphGeneration)
  | .publishTelemetry id bypassReason => l.setDriver (l.driver.publishTelemetry id bypassReason)
  | .unregister id => l.setDriver (l.driver.unregister id)
  | .stamp i => l.setDriver (l.driver.stamp i)
  | .enqueue i => l.setDriver (l.driver.enqueue i)
  | .collect => l.setDriver l.driver.collect
  | .connect r => l.connect r
  | .hangup => l.hangup
  | .replaySend r => l.replaySend r
  | .drain r => l.drain r
  | .handle r => handle a l r
  | .touch id f => l.setDriver (l.driver.touch id f)
  | .restart => l.restartDriver

/-! ## The daemon's end -/

def dropClient (l : Link α) : Link α :=
  match l.client with
  | none => l
  | some w => { l.setWire w { l.wires w with daemonOpen := false } with client := none }

/-- a new connection means the previous one is gone -/
def acceptPending (l : Link α) : Link α :=
  match l.backlog with
  | [] => l
  | w :: rest => { l.dropClient with backlog := rest, client := some w }

/-- put a frame on the client's connection; false when there is none, its peer is gone, or the socket is full -/
def sendDown (l : Link α) (frame : Down) (ok : Bool) : Link α × Bool :=
  match l.client with
  | none => (l, false)
  | some w =>
    if ok ∧ (l.wires w).driverOpen then (l.setWire w { l.wires w with down := (l.wires w).down ++ [frame] }, true)
    else (l, false)

def outcomeOf (f : Frame) : ApplyOutcome :=
  { accepted := f.event.type == .snapshotAppliedAck
    ticket := ⟨f.tag.life, f.event.contextInstanceId⟩
    errorCode := f.event.bypassReason
    appGeneration := f.event.sessionGeneration
    resourceGeneration := f.event.resourceGeneration
    graphGeneration := f.event.graphGeneration }

/-- one decoded frame: an answer is kept for the waiting transfer, anything else goes to the registry, and a gap there
asks the driver for a replay -/
def process (l : Link α) (f : Frame) (rescanSent : Bool) : Link α :=
  if f.event.type = .snapshotAppliedAck ∨ f.event.type = .snapshotAppliedNack then
    { l with outcome := some (outcomeOf f) }
  else
    let l₁ := { l with registry := l.registry.deliver f.event }
    if (l.registry.apply f.event).2 = .appliedWithGap then (l₁.sendDown .rescan rescanSent).1 else l₁

/-- one turn of the receive loop; false when it ends: nothing to read, or the peer is gone -/
def recv (l : Link α) (rescanSent : Bool) : Link α × Bool :=
  match l.client with
  | none => (l, false)
  | some w =>
    match (l.wires w).up with
    | f :: rest =>
      (({ l with received := l.received ++ [f] }.setWire w { l.wires w with up := rest }).process f rescanSent, true)
    | [] => if (l.wires w).driverOpen then (l, false) else (l.dropClient, false)

def sendSnapshotCommand (l : Link α) (c : Command) (ok : Bool) : Link α × Bool :=
  let p := l.sendDown (.command c) ok
  (if p.2 then { p.1 with sent := c :: p.1.sent } else p.1, p.2)

def takeApplyOutcome (l : Link α) : Link α := { l with outcome := none }

/-- the daemon process dies and a new one listens: nobody is connected and nothing is known -/
def restartDaemon (l : Link α) : Link α :=
  { l with
    wires := fun w => if l.client = some w ∨ w ∈ l.backlog then { l.wires w with daemonOpen := false } else l.wires w
    backlog := []
    client := none
    outcome := none
    registry := {}
    received := [] }

def stepDaemon (l : Link α) : DaemonOp → Link α
  | .accept => l.acceptPending
  | .recv rescanSent => (l.recv rescanSent).1
  | .send c ok => (l.sendSnapshotCommand c ok).1
  | .take => l.takeApplyOutcome
  | .restart => l.restartDaemon

def step (a : Applier α) (l : Link α) : Op α → Link α
  | .driver op => stepDriver a l op
  | .daemon op => l.stepDaemon op

def run (a : Applier α) (l : Link α) (ops : List (Op α)) : Link α := ops.foldl (step a) l

end Link

end ViperFx.Channel
