/-
The daemon's control loop against a live driver: `daemon/DaemonRuntime.cpp`, with `daemon/RouteWatcher.cpp`, the Poll of
`daemon/DriverEventServer.cpp` and the snapshot commands of `daemon/AppEventServer.cpp`.

The functions of the runtime are programs over one state `Sys`: the link to the driver, the runtime's own fields, the
store on disk, the route adapter and the clock. Around every system call the world moves: a `Turn` has the driver steps
that happen before the call, how the call ends, and the time it takes. A pass of the control loop is given its turns
and the App's messages, so the runs of `Op` are all interleavings of the daemon's system calls with the driver's steps,
with every send that fails and every answer that is late or lost.

Contexts carry a history (ghost): who opened the transfer being staged, and which COMMITs were accepted. The log, `life`,
`announcedBy` and `offered` are ghost too: written and never read by a program.
-/
import ViperFx.Core.Prog
import ViperFx.Daemon.SnapshotStore
import ViperFx.Driver.ViperContext

namespace ViperFx.System

open ViperFx.Core ViperFx.Protocol ViperFx.Daemon ViperFx.Channel ViperFx.Driver

/-! ## Contexts with their history -/

/-- an accepted COMMIT: the command, how it ended, and the snapshot that was staged -/
structure Landing where
  ticket : Ticket
  outcome : Driver.ApplyOutcome
  snapshot : Snapshot
  deriving DecidableEq

/-- a context; ghost: the BEGIN its staging area belongs to, and the accepted COMMITs, newest first -/
structure Tracked (E : Engine) where
  ctx : ViperContext E := {}
  stagedBy : Option Ticket := none
  landings : List Landing := []

section Contexts

variable (E : Engine)

/-- the COMMIT a command is for the history -/
def landing (x : ViperContext E) (c : Command) : List Landing :=
  match c.type, decodeSnapshotCommit c.payload, (x.commitResult E).2.2, decodeSnapshot x.snapshotApply.staged with
  | .snapshotCommit, .ok _, .ok r, .ok snapshot => [⟨c.ticket, r.outcome, snapshot⟩]
  | _, _, _, _ => []

/-- how a context answers the fan-out, with its history kept up -/
def answer (x : Tracked E) (c : Command) : Tracked E × SnapshotAck :=
  let p := x.ctx.handleSnapshotCommand E c.type c.payload
  ({ ctx := p.1
     stagedBy := if c.type = .snapshotBegin ∧ p.2.accepted then some c.ticket else x.stagedBy
     landings := landing E x.ctx c ++ x.landings }, p.2)

def applier : Applier (Tracked E) := ⟨{}, answer E⟩

/-- a context's own threads work on its audio side and leave the staging area alone -/
def Tracked.work {E : Engine} (f : Dsp E → Dsp E) (x : Tracked E) : Tracked E :=
  { x with ctx := { x.ctx with dsp := f x.ctx.dsp } }

/-- a driver step, with the work of a context's own threads stated on its audio side -/
def liftOp : DriverOp (Dsp E) → DriverOp (Tracked E)
  | .register audioSessionId ioId => .register audioSessionId ioId
  | .publishConfigured id sampleRate channelMask => .publishConfigured id sampleRate channelMask
  | .publishEnabled id enabled => .publishEnabled id enabled
  | .publishGenerations id resourceGeneration graphGeneration =>
    .publishGenerations id resourceGeneration graphGeneration
  | .publishTelemetry id bypassReason => .publishTelemetry id bypassReason
  | .unregister id => .unregister id
  | .stamp i => .stamp i
  | .enqueue i => .enqueue i
  | .connect r => .connect r
  | .hangup => .hangup
  | .collect => .collect
  | .replaySend r => .replaySend r
  | .drain r => .drain r
  | .handle r => .handle r
  | .touch id f => .touch id (Tracked.work f)
  | .restart => .restart

end Contexts

/-! ## The runtime -/

def kApplyPollAttempts : ℕ := 200
/-- in milliseconds, as all times -/
def kApplyPollInterval : ℕ := 5
def kAppApplyErrorNotStaging : ℕ := 1
def kMaxAnnounceAttempts : ℕ := 5
def kAnnounceRetryDelay : ℕ := 2000
def kMaxPollEvents : ℕ := 64

structure Config where
  restoreEnabled : Bool := true
  routeDebounce : ℕ := 0
  /-- the route comes from the App; otherwise from an adapter of the device -/
  appReportedRoutes : Bool := true

/-- a BEGIN or CHUNK of the App, and the ticket it was sent under, if it was sent (ghost) -/
structure Offer where
  payload : Bytes
  ticket : Option Ticket := none
  deriving DecidableEq

/-- the App's BEGIN and its CHUNKs since, newest first (ghost) -/
structure Offered where
  begun : Offer
  chunks : List Offer := []
  deriving DecidableEq

def Offered.grow (payload : Bytes) (o : Offered) : Offered := { o with chunks := ⟨payload, none⟩ :: o.chunks }

/-- a frame was sent, and if it is a BEGIN or a CHUNK it is the newest one -/
def Offered.markSent (type : SnapshotCommandType) (ticket : Ticket) (o : Offered) : Offered :=
  match type, o.chunks with
  | .snapshotBegin, _ => { o with begun := { o.begun with ticket := some ticket } }
  | .snapshotChunk, newest :: older => { o with chunks := { newest with ticket := some ticket } :: older }
  | _, _ => o

/-- the fields of DaemonRuntime and of its RouteWatcher; ghost: `life`, `announcedBy` and `offered` (what the daemon was
given of the transfer it holds open) -/
structure Runtime where
  life : ℕ := 0
  routeKey : Bytes := []
  routeKeyHash : Bytes := []
  routeEpoch : ℕ := 0
  routeChangedAt : ℕ := 0
  routeRestorePending : Bool := false
  restoredContextGeneration : ℕ := 0
  daemonGeneration : UInt64 := 1
  nextRequestId : ℕ := 1
  announcedRouteHash : Bytes := []
  announceAttempts : ℕ := 0
  announceNextAttempt : ℕ := 0
  driverWasConnected : Bool := false
  appStagedBytes : Bytes := []
  appStagedTotal : UInt32 := 0
  appStagedCrc : UInt32 := 0
  appStaging : Bool := false
  announcedBy : Option Ticket := none
  offered : Option Offered := none

/-- what the daemon did (ghost) -/
inductive Entry (E : Engine) where
  | unsent (ticket : Ticket)
  | unanswered (ticket : Ticket)
  | returned (ticket : Ticket) (snapshot : Snapshot) (accepted : Bool)
  | opened (ticket : Ticket) (snapshot : Snapshot)
  | restoring (contexts : Table ℕ (DriverContext (Tracked E)))
  | bypassed (contexts : Table ℕ (DriverContext (Tracked E)))
  | announced (ticket : Ticket) (hash : Bytes)
  | relayed (ticket : Ticket) (route : Bytes) (offered : Option Offered)
  | stored (ticket : Ticket) (snapshot : Snapshot)

/-- the world's part in one system call of the daemon -/
structure Turn (E : Engine) where
  before : List (DriverOp (Dsp E)) := []
  ok : Bool := true
  disk : DiskFault := .none
  elapsed : ℕ := 0

structure Sys (E : Engine) where
  config : Config
  link : Link (Tracked E)
  store : SnapshotStore := {}
  /-- what the route adapter would read now -/
  adapter : Option DeviceIdentity := none
  cache : Option DeviceIdentity := none
  now : ℕ := 0
  runtime : Runtime := {}
  turns : List (Turn E) := []
  log : List (Entry E) := []

structure AppRouteReport where
  routeType : Bytes
  stableAddressOrPort : Bytes
  productName : Bytes
  encoding : Bytes
  sampleRate : UInt32
  channelMask : UInt32
  outputFlags : UInt32
  deriving DecidableEq

structure AppRouteAck where
  accepted : Bool := false
  daemonGeneration : UInt64 := 0
  routeEpoch : ℕ := 0
  routeKeyHash : Bytes := []
  deriving DecidableEq

structure AppApplyResult where
  accepted : Bool := false
  errorCode : ℕ := 0
  appGeneration : ℕ := 0
  daemonGeneration : UInt64 := 0
  resourceGeneration : ℕ := 0
  graphGeneration : ℕ := 0
  deriving DecidableEq

/-- a frame of the App that reaches the delegate -/
inductive AppMessage where
  | routeReport (report : AppRouteReport)
  | snapshotCommand (type : SnapshotCommandType) (payload : Bytes)
  deriving DecidableEq

abbrev Prog (E : Engine) := StateM (Sys E)

section Programs

variable {E : Engine}

/-- run driver steps on the link -/
def Sys.drive (s : Sys E) (ops : List (DriverOp (Dsp E))) : Sys E :=
  { s with link := ops.foldl (fun l op => Link.stepDriver (applier E) l (liftOp E op)) s.link }

/-- a daemon step on the link -/
def Sys.onLink (s : Sys E) (op : DaemonOp) : Sys E := { s with link := s.link.stepDaemon op }

def Sys.enter (s : Sys E) (e : Entry E) : Sys E := { s with log := e :: s.log }

def set (f : Runtime → Runtime) : Prog E Unit := modify fun s => { s with runtime := f s.runtime }

def note (e : Entry E) : Prog E Unit := modify fun s => s.enter e

/-- the next turn of the world; when they are used up, nothing else happens -/
def turn : Prog E (Turn E) := modifyGet fun s =>
  match s.turns with
  | [] => ({}, s)
  | t :: rest => (t, { s.drive t.before with turns := rest, now := s.now + t.elapsed })

def pause (duration : ℕ) : Prog E Unit := modify fun s => { s with now := s.now + duration }

/-! ## The driver socket -/

def acceptPending : Prog E Unit := do
  let _ ← turn
  modify fun s => s.onLink .accept

def recv : Prog E Bool := do
  let t ← turn
  modifyGet fun s => ((s.link.recv t.ok).2, s.onLink (.recv t.ok))

def recvLoop : ℕ → Prog E Unit
  | 0 => pure ()
  | attempts + 1 => do
    if ← recv then recvLoop attempts else pure ()

/-- `Poll` of the driver server: one connection at most is accepted, then the frames of the newest one are read -/
def poll : Prog E Unit := do
  acceptPending
  recvLoop kMaxPollEvents

def sendSnapshotCommand (c : Command) : Prog E Bool := do
  let t ← turn
  let sent ← modifyGet fun s => ((s.link.sendSnapshotCommand c t.ok).2, s.onLink (.send c t.ok))
  if !sent then note (.unsent c.ticket)
  pure sent

def takeApplyOutcome : Prog E (Option Channel.ApplyOutcome) := modifyGet fun s => (s.link.outcome, s.onLink .take)

def awaitLoop (requestId : ℕ) : ℕ → Prog E (Option Channel.ApplyOutcome)
  | 0 => pure none
  | attempts + 1 => do
    poll
    match ← takeApplyOutcome with
    | some outcome =>
      if outcome.ticket.requestId = requestId then pure (some outcome)
      else do
        pause kApplyPollInterval
        awaitLoop requestId attempts
    | none => do
      pause kApplyPollInterval
      awaitLoop requestId attempts

def awaitApplyOutcome (ticket : Ticket) : Prog E (Option Channel.ApplyOutcome) := do
  let outcome ← awaitLoop ticket.requestId kApplyPollAttempts
  if outcome.isNone then note (.unanswered ticket)
  pure outcome

def accepted (outcome : Option Channel.ApplyOutcome) : Bool := outcome.any (·.accepted)

/-- `next_request_id_++` -/
def newTicket : Prog E Ticket := modifyGet fun s =>
  (⟨s.runtime.life, s.runtime.nextRequestId⟩,
    { s with runtime := { s.runtime with nextRequestId := s.runtime.nextRequestId + 1 } })

def connected : Prog E Bool := do
  let s ← get
  pure s.link.client.isSome

/-! ## Transfers -/

def chunkAt (bytes : Bytes) (offset : ℕ) : SnapshotChunk :=
  ⟨UInt32.ofNat offset, (bytes.drop offset).take kMaxSnapshotChunkBytes⟩

/-- the chunk loop; `fuel` bounds the number of chunks -/
def sendChunks (bytes : Bytes) (ticket : Ticket) : ℕ → ℕ → Prog E Bool
  | 0, _ => pure true
  | fuel + 1, offset =>
    if offset < bytes.length then
      match encodeSnapshotChunk (chunkAt bytes offset) with
      | .error _ => pure false
      | .ok payload => do
        if ← sendSnapshotCommand ⟨.snapshotChunk, payload, ticket⟩ then
          sendChunks bytes ticket fuel (offset + (chunkAt bytes offset).data.length)
        else pure false
    else pure true

def beginOf (snapshot : Snapshot) (bytes : Bytes) : SnapshotBegin :=
  { appGeneration := snapshot.appGeneration, daemonGeneration := snapshot.daemonGeneration,
    totalSize := UInt32.ofNat bytes.length, crc32 := crc32 bytes, deviceKeyHash := snapshot.deviceKeyHash }

/-- the chunks and the COMMIT, once the BEGIN is acknowledged -/
def sendBody (snapshot : Snapshot) (bytes : Bytes) (ticket : Ticket) : Prog E (Bool × Option Channel.ApplyOutcome) := do
  if ← sendChunks bytes ticket bytes.length 0 then
    match encodeSnapshotCommit ⟨snapshot.appGeneration, snapshot.daemonGeneration⟩ with
    | .error _ => pure (false, none)
    | .ok payload => do
      if ← sendSnapshotCommand ⟨.snapshotCommit, payload, ticket⟩ then
        let outcome ← awaitApplyOutcome ticket
        pure (accepted outcome, outcome)
      else pure (false, none)
  else pure (false, none)

/-- a transfer under its request id -/
def transfer (snapshot : Snapshot) (bytes : Bytes) (ticket : Ticket) : Prog E (Bool × Option Channel.ApplyOutcome) :=
  match encodeSnapshotBegin (beginOf snapshot bytes) with
  | .error _ => pure (false, none)
  | .ok payload => do
    if ← sendSnapshotCommand ⟨.snapshotBegin, payload, ticket⟩ then
      let outcome ← awaitApplyOutcome ticket
      if accepted outcome then sendBody snapshot bytes ticket else pure (false, outcome)
    else pure (false, none)

def applySnapshotToDriver (snapshot : Snapshot) : Prog E (Bool × Option Channel.ApplyOutcome) :=
  match encodeSnapshot snapshot with
  | .error _ => pure (false, none)
  | .ok bytes => do
    let ticket ← newTicket
    note (.opened ticket snapshot)
    let result ← transfer snapshot bytes ticket
    note (.returned ticket snapshot result.1)
    pure result

def announceRouteToDriver : Prog E Bool := do
  let s ← get
  let hash := s.runtime.routeKeyHash
  match encodeRouteAnnounce { deviceKeyHash := hash } with
  | .error _ => pure false
  | .ok payload => do
    let ticket ← newTicket
    if ← sendSnapshotCommand ⟨.routeAnnounce, payload, ticket⟩ then
      let outcome ← awaitApplyOutcome ticket
      if accepted outcome then
        set fun r => { r with announcedRouteHash := hash, announcedBy := some ticket }
        note (.announced ticket hash)
        pure true
      else pure false
    else pure false

/-! ## Restoring a route -/

/-- the snapshot of a route that may be restored: the current one, else the previous one, and only under its own hash -/
def usableSnapshot (store : SnapshotStore) (routeHash : Bytes) : Option Snapshot :=
  match store.loadCurrent routeHash with
  | .ok snapshot =>
    if snapshot.deviceKeyHash = routeHash then some snapshot else fallback
  | .error _ => fallback
where
  fallback : Option Snapshot :=
    match store.loadPrevious routeHash with
    | .ok snapshot => if snapshot.deviceKeyHash = routeHash then some snapshot else none
    | .error _ => none

/-- whether the restore was accepted, and whether it was bypassed -/
def restoreCurrentRoute : Prog E (Bool × Bool) := do
  let s ← get
  if s.runtime.routeKey.isEmpty then do
    note (.bypassed s.link.driver.contexts)
    pure (false, true)
  else
    match usableSnapshot s.store s.runtime.routeKeyHash with
    | none => do
      note (.bypassed s.link.driver.contexts)
      pure (false, true)
    | some loaded => do
      let generation := s.runtime.daemonGeneration + 1
      let snapshot := { loaded with daemonGeneration := generation }
      set fun r => { r with daemonGeneration := generation }
      note (.restoring s.link.driver.contexts)
      let result ← applySnapshotToDriver snapshot
      pure (result.1, false)

/-! ## Routes -/

/-- `RouteWatcher::Poll`: the new key, when the adapter reads a valid identity with another key -/
def newRouteKey (adapter : Option DeviceIdentity) (routeKey : Bytes) : Option Bytes :=
  match adapter with
  | none => none
  | some identity =>
    if !isValidDeviceIdentity identity then none
    else
      let key := normalizeDeviceKey identity
      if key.isEmpty ∨ key = routeKey then none else some key

/-- a new route supersedes any restore still waiting, and arms its own -/
def Sys.pollRoute (s : Sys E) : Sys E :=
  match newRouteKey s.adapter s.runtime.routeKey with
  | none => s
  | some key => { s with
      runtime := { s.runtime with
        routeKey := key
        routeKeyHash := hashDeviceKey key
        routeEpoch := s.runtime.routeEpoch + 1
        routeChangedAt := s.now
        routeRestorePending := s.config.restoreEnabled } }

def routeSettled (s : Sys E) : Bool :=
  s.config.routeDebounce == 0 || decide (s.config.routeDebounce ≤ s.now - s.runtime.routeChangedAt)

def identityOf (report : AppRouteReport) : DeviceIdentity :=
  { routeType := report.routeType, stableAddressOrPort := report.stableAddressOrPort
    productName := report.productName, encoding := report.encoding, sampleRate := report.sampleRate
    channelMask := report.channelMask, outputFlags := report.outputFlags }

/-! ## The App -/

def onRouteReport (report : AppRouteReport) : Prog E (AppRouteAck × Option String) := do
  let identity := identityOf report
  let s ← get
  let ack : AppRouteAck :=
    { daemonGeneration := s.runtime.daemonGeneration, routeEpoch := s.runtime.routeEpoch
      routeKeyHash := s.runtime.routeKeyHash }
  if !isValidDeviceIdentity identity then pure (ack, some "app reported an unusable route identity")
  else if !s.config.appReportedRoutes then pure (ack, some "daemon is not using the app-reported route source")
  else do
    let t ← turn
    modify fun s => Sys.pollRoute { s with
      adapter := some identity, cache := if t.ok then some identity else s.cache }
    let s ← get
    pure ({ ack with accepted := true, routeEpoch := s.runtime.routeEpoch, routeKeyHash := s.runtime.routeKeyHash },
      if t.ok then none else some "route accepted but not cached: failed to write route cache temporary file")

def stageAppSnapshotCommand (r : Runtime) (type : SnapshotCommandType) (payload : Bytes) : Runtime :=
  match type with
  | .snapshotBegin =>
    match decodeSnapshotBegin payload with
    | .error _ => r
    | .ok b =>
      { r with appStagedBytes := [], appStagedTotal := b.totalSize, appStagedCrc := b.crc32, appStaging := true
               offered := some { begun := { payload } } }
  | .snapshotChunk =>
    if !r.appStaging then { r with offered := r.offered.map (.grow payload) }
    else match decodeSnapshotChunk payload with
      | .error _ => { r with appStaging := false, offered := r.offered.map (.grow payload) }
      | .ok chunk =>
        if chunk.offset.toNat ≠ r.appStagedBytes.length then
          { r with appStaging := false, offered := r.offered.map (.grow payload) }
        else { r with appStagedBytes := r.appStagedBytes ++ chunk.data, offered := r.offered.map (.grow payload) }
  | _ => r

/-- a refused or abandoned transfer leaves no bytes behind -/
def dropStaged (r : Runtime) : Runtime := { r with appStagedBytes := [], appStaging := false, offered := none }

/-- the snapshot a COMMIT the driver accepted is stored as: reassembled, checked, and of the current route -/
def stagedAppSnapshot (r : Runtime) : Option Snapshot :=
  if !r.appStaging then none
  else if r.appStagedBytes.length ≠ r.appStagedTotal.toNat ∨ crc32 r.appStagedBytes ≠ r.appStagedCrc then none
  else match decodeSnapshot r.appStagedBytes with
    | .error _ => none
    | .ok snapshot =>
      if snapshot.deviceKeyHash ≠ r.routeKeyHash then none
      else some { snapshot with daemonGeneration := r.daemonGeneration }

def commitStagedAppSnapshot (ticket : Ticket) : Prog E Unit := do
  let s ← get
  if s.runtime.appStaging then
    set fun r => { r with appStaging := false, appStagedBytes := [], offered := none }
    match stagedAppSnapshot s.runtime with
    | none => pure ()
    | some snapshot => do
      let t ← turn
      modify fun s => { s with store := (s.store.commit snapshot.deviceKeyHash snapshot t.disk).1 }
      note (.stored ticket snapshot)
  else pure ()

/-- the end of `OnSnapshotCommand`: an accepted COMMIT is stored, a refused or abandoned transfer is dropped -/
def settleAppTransfer (type : SnapshotCommandType) (ticket : Ticket) (outcome : Option Channel.ApplyOutcome) :
    Prog E Unit := do
  if accepted outcome ∧ type = .snapshotCommit then do
    set fun r => { r with daemonGeneration := r.daemonGeneration + 1 }
    commitStagedAppSnapshot ticket
  if !accepted outcome ∨ type = .snapshotAbort then set dropStaged

def onSnapshotCommand (type : SnapshotCommandType) (payload : Bytes) : Prog E AppApplyResult := do
  let s ← get
  let result : AppApplyResult := { daemonGeneration := s.runtime.daemonGeneration }
  set fun r => stageAppSnapshotCommand r type payload
  if !(← connected) then pure { result with errorCode := kAppApplyErrorNotStaging }
  else do
    let ticket ← newTicket
    if !(← sendSnapshotCommand ⟨type, payload, ticket⟩) then
      pure { result with errorCode := kAppApplyErrorNotStaging }
    else do
      set fun r => { r with offered := r.offered.map (.markSent type ticket) }
      if type = .snapshotChunk then pure { result with accepted := true }
      else do
        let s ← get
        if type = .snapshotCommit then note (.relayed ticket s.runtime.routeKeyHash s.runtime.offered)
        let outcome ← awaitApplyOutcome ticket
        settleAppTransfer type ticket outcome
        let s ← get
        let o := outcome.getD ⟨false, ticket, 0, 0, 0, 0⟩
        pure { accepted := accepted outcome, errorCode := o.errorCode, appGeneration := o.appGeneration
               daemonGeneration := s.runtime.daemonGeneration, resourceGeneration := o.resourceGeneration
               graphGeneration := o.graphGeneration }

/-- the App endpoint decodes a snapshot command before it passes it on, and takes no ROUTE_ANNOUNCE -/
def acceptsCommand (type : SnapshotCommandType) (payload : Bytes) : Bool :=
  match type with
  | .snapshotBegin => (decodeSnapshotBegin payload).isOk
  | .snapshotChunk => (decodeSnapshotChunk payload).isOk
  | .snapshotCommit => (decodeSnapshotCommit payload).isOk
  | .snapshotAbort => (decodeSnapshotAbort payload).isOk
  | .routeAnnounce => false

def handleAppMessage : AppMessage → Prog E Unit
  | .routeReport report => do
    let _ ← onRouteReport report
  | .snapshotCommand type payload =>
    if acceptsCommand type payload then do
      let _ ← onSnapshotCommand type payload
    else pure ()

def handleAppMessages : List AppMessage → Prog E Unit
  | [] => pure ()
  | m :: rest => do
    handleAppMessage m
    handleAppMessages rest

/-! ## The control loop -/

def forgetAnnounce (r : Runtime) : Runtime :=
  { r with announcedRouteHash := [], announceAttempts := 0, announceNextAttempt := 0, announcedBy := none }

/-- an announce is due: the route is not the announced one, the budget is not spent, and the retry delay is over -/
def announceDue (s : Sys E) : Bool :=
  s.runtime.announcedRouteHash != s.runtime.routeKeyHash && decide (s.runtime.announceAttempts < kMaxAnnounceAttempts)
    && decide (s.runtime.announceNextAttempt ≤ s.now)

/-- the announce part of a pass, with the connection as the pass has sampled it -/
def announcePass (driverConnected newConnection : Bool) : Prog E Unit := do
  if driverConnected then do
    if newConnection then set forgetAnnounce
    if announceDue (← get) then do
      set fun r => { r with announceAttempts := r.announceAttempts + 1 }
      if ← announceRouteToDriver then set fun r => { r with announceAttempts := 0 }
      else modify fun s => { s with
        runtime := { s.runtime with announceNextAttempt := s.now + kAnnounceRetryDelay } }
  else set forgetAnnounce
  set fun r => { r with driverWasConnected := driverConnected }

/-- what a restore in this pass depends on -/
def restoreDue (s : Sys E) (driverConnected newConnection : Bool) : Bool :=
  let newContextReady := s.link.registry.contextGeneration != s.runtime.restoredContextGeneration
    && decide (0 < s.link.registry.contexts.size)
  s.config.restoreEnabled && (s.runtime.routeRestorePending || newConnection || newContextReady) && driverConnected
    && s.runtime.announcedRouteHash == s.runtime.routeKeyHash && routeSettled s

/-- the restore part of a pass: the flags go down whatever the restore does -/
def restorePass (driverConnected newConnection : Bool) : Prog E Unit := do
  if restoreDue (← get) driverConnected newConnection then do
    set fun r => { r with routeRestorePending := false }
    let _ ← restoreCurrentRoute
    modify fun s => { s with
      runtime := { s.runtime with restoredContextGeneration := s.link.registry.contextGeneration } }

def runOnce (messages : List AppMessage) : Prog E Unit := do
  poll
  handleAppMessages messages
  modify Sys.pollRoute
  let s ← get
  let driverConnected := s.link.client.isSome
  let newConnection := driverConnected && !s.runtime.driverWasConnected
  announcePass driverConnected newConnection
  restorePass driverConnected newConnection

end Programs

/-! ## Runs -/

/-- everything that can happen: a driver step, a pass of the control loop, a reading of a device adapter, time, and a
restart of the daemon, which finds its route cache readable or not -/
inductive Op (E : Engine) where
  | driver (op : DriverOp (Dsp E))
  | runOnce (turns : List (Turn E)) (messages : List AppMessage)
  | reading (identity : Option DeviceIdentity)
  | wait (duration : ℕ)
  | restart (cacheReadable : Bool)

variable {E : Engine}

/-- the constructor and `Start`: the App's route is seeded from the cache, and a route known at once arms a restore -/
def Sys.start (s : Sys E) (cacheReadable : Bool) (life : ℕ) : Sys E :=
  Sys.pollRoute { s with
    adapter :=
      if s.config.appReportedRoutes then (if cacheReadable then s.cache.filter isValidDeviceIdentity else none)
      else s.adapter
    runtime := { life } }

def step (s : Sys E) : Op E → Sys E
  | .driver op => s.drive [op]
  | .runOnce turns messages => { (runOnce messages { s with turns }).2 with turns := [] }
  | .reading identity => if s.config.appReportedRoutes then s else { s with adapter := identity }
  | .wait duration => { s with now := s.now + duration }
  | .restart cacheReadable => Sys.start { s with link := s.link.restartDaemon } cacheReadable (s.runtime.life + 1)

def run (s : Sys E) (ops : List (Op E)) : Sys E := ops.foldl step s

/-- a daemon that has just started over a store and a cache earlier daemons left -/
def boot (config : Config) (bootId : ℕ) (store : SnapshotStore) (adapter cache : Option DeviceIdentity) : Sys E :=
  Sys.start { config, link := Channel.init bootId, store, adapter, cache } true 0

end ViperFx.System
