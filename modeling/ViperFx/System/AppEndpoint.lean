/-
The App endpoint in the daemon: `daemon/AppEventServer.cpp` with its delegate, `daemon/DaemonRuntime.cpp`, down to the contexts of
the driver.

A pass of the control loop polls the endpoint, and the endpoint calls the runtime for each request it reads. So a run of the
daemon over the bytes of its sockets is a run of `Op` with the requests these bytes make, and whatever holds of such runs holds
of it. What the App reads in an answer is what happened: a command that was accepted was handled by the driver, byte for byte
as the App has sent it, and every context accepted it.

Results:
  · serves_messages  : what a poll does to the runtime is to handle some messages
  · app_is_answered  : every request that is read is answered, and an answer that says so tells of every context
-/
import ViperFx.Daemon.AppEventServer
import ViperFx.Protocol.Sha256
import ViperFx.System.AppCopies
import ViperFx.System.Walk

namespace ViperFx.System

open ViperFx.Core ViperFx.Protocol ViperFx.Daemon ViperFx.Channel ViperFx.Driver

variable {E : Engine}

/-! ## The delegate -/

def kAppFlagRestoreEnabled : UInt16 := 1
def kAppFlagDriverConnected : UInt16 := 2
def kAppFlagRouteKnown : UInt16 := 4

def onHello (s : Sys E) : Protocol.AppHelloAck :=
  { daemonGeneration := s.runtime.daemonGeneration
    routeEpoch := UInt64.ofNat s.runtime.routeEpoch
    routeKeyHash := s.runtime.routeKeyHash
    flags := (if s.config.restoreEnabled then kAppFlagRestoreEnabled else 0) |||
      ((if s.link.client.isSome then kAppFlagDriverConnected else 0) |||
        if !s.runtime.routeKey.isEmpty then kAppFlagRouteKnown else 0) }

/-- the fields of a report that the runtime reads -/
def reportOf (report : Protocol.AppRouteReport) : AppRouteReport :=
  { routeType := report.routeType, stableAddressOrPort := report.stableAddressOrPort
    productName := report.productName, encoding := report.encoding, sampleRate := report.sampleRate
    channelMask := report.channelMask, outputFlags := report.outputFlags }

/-- the counters as wide as they are in the runtime -/
def AppRouteAck.wire (ack : AppRouteAck) : Protocol.AppRouteAck :=
  { accepted := ack.accepted, daemonGeneration := ack.daemonGeneration, routeEpoch := UInt64.ofNat ack.routeEpoch
    routeKeyHash := ack.routeKeyHash }

def AppApplyResult.wire (result : AppApplyResult) : Protocol.AppApplyResult :=
  { accepted := result.accepted, errorCode := UInt32.ofNat result.errorCode
    appGeneration := UInt64.ofNat result.appGeneration, daemonGeneration := result.daemonGeneration
    resourceGeneration := UInt64.ofNat result.resourceGeneration
    graphGeneration := UInt64.ofNat result.graphGeneration }

/-- the runtime as the endpoint calls it; each callback returns whether it accepts -/
def appDelegate : AppDelegate (Sys E) where
  onHello _ s := (onHello s, s)
  onRouteReport report s :=
    let p := onRouteReport (reportOf report) s
    ((p.1.1.accepted, p.1.1.wire), p.2)
  onSnapshotCommand type payload s :=
    let p := onSnapshotCommand type payload s
    ((p.1.accepted, p.1.wire), p.2)

/-! ## Requests as messages -/

theorem decodes_accepts (type : SnapshotCommandType) (payload : Bytes) :
    AppEndpoint.decodesCommand type payload = acceptsCommand type payload := by
  cases type <;> rfl

/-- the message a request comes to; a hello changes nothing -/
def messageOf : AppRequest → List AppMessage
  | .hello _ => []
  | .routeReport report => [.routeReport (reportOf report)]
  | .snapshotCommand type payload => [.snapshotCommand type payload]

theorem handleAppMessages_append (messages messages' : List AppMessage) (s : Sys E) :
    (handleAppMessages (messages ++ messages') s).2 = (handleAppMessages messages' (handleAppMessages messages s).2).2 := by
  induction messages generalizing s with
  | nil => rfl
  | cons m rest ih => exact ih (handleAppMessage m s).2

theorem requestOf_accepts {header : FrameHeader} {payload bytes : Bytes} {type : SnapshotCommandType}
    (h : requestOf header payload = some (.snapshotCommand type bytes)) : acceptsCommand type bytes = true := by
  unfold requestOf at h
  split_ifs at h
  · cases hd : decodeAppHello payload <;> simp [hd, Except.toOption] at h
  · cases hd : decodeAppRouteReport payload <;> simp [hd, Except.toOption] at h
  · obtain ⟨type', -, hrequest⟩ := Option.bind_eq_some_iff.mp h
    split_ifs at hrequest with hdecodes
    obtain ⟨rfl, rfl⟩ := AppRequest.snapshotCommand.inj (Option.some.inj hrequest)
    rw [← decodes_accepts]
    exact hdecodes

theorem requestIn_accepts {datagram bytes : Bytes} {requestId : UInt64} {type : SnapshotCommandType}
    (h : requestIn datagram = some (requestId, .snapshotCommand type bytes)) : acceptsCommand type bytes = true := by
  unfold requestIn at h
  cases hd : decodeFrame datagram with
  | error e =>
    rw [hd] at h
    cases h
  | ok frame =>
    rw [hd] at h
    obtain ⟨request, hrequest, hpair⟩ := Option.map_eq_some_iff.mp h
    obtain ⟨-, rfl⟩ := Prod.mk.inj hpair
    exact requestOf_accepts hrequest

/-- an answer is the handling of its message -/
theorem answer_state {request : AppRequest} (h : ∀ type payload, request = .snapshotCommand type payload →
    acceptsCommand type payload = true) (s : Sys E) :
    (appDelegate.answer request s).2 = (handleAppMessages (messageOf request) s).2 := by
  cases request with
  | hello hello => rfl
  | routeReport report => rfl
  | snapshotCommand type payload =>
    show _ = (handleAppMessage (.snapshotCommand type payload) s).2
    unfold handleAppMessage
    dsimp only
    rw [if_pos (h type payload rfl)]
    rfl

/-- **One datagram is its message.** -/
theorem receive_state (s : AppEndpoint (Sys E)) (hclient : s.client.isSome = true) (connection : ℕ) (datagram : Bytes)
    (taken : Bool) : (s.receive appDelegate connection datagram taken).state =
      (handleAppMessages (((requestIn datagram).map fun p => messageOf p.2).getD []) s.state).2 := by
  unfold AppEndpoint.receive requestIn
  cases hdecode : decodeFrame datagram with
  | error e => rfl
  | ok frame =>
    obtain ⟨header, payload⟩ := frame
    dsimp only
    have hhandled := AppEndpoint.handleFrame_handled appDelegate hclient header payload taken
    have haccepts : ∀ type bytes, requestOf header payload = some (.snapshotCommand type bytes) →
        acceptsCommand type bytes = true := fun _ _ => requestOf_accepts
    generalize s.handleFrame appDelegate header payload taken = p at hhandled
    generalize requestOf header payload = request at hhandled haccepts
    cases hhandled with
    | refused => rfl
    | unanswered hanswer =>
      have hstate := answer_state (fun type bytes h => haccepts type bytes (congrArg some h)) s.state
      rw [hanswer] at hstate
      exact hstate
    | answered hanswer =>
      have hstate := answer_state (fun type bytes h => haccepts type bytes (congrArg some h)) s.state
      rw [hanswer] at hstate
      exact hstate

theorem pollLoop_state (attempts : ℕ) (received : List Received) (s : AppEndpoint (Sys E)) :
    ∃ messages, (s.pollLoop appDelegate attempts received).state = (handleAppMessages messages s.state).2 := by
  induction attempts generalizing received s with
  | zero => exact ⟨[], rfl⟩
  | succ attempts ih =>
    cases received with
    | nil => exact ⟨[], rfl⟩
    | cons r rest =>
      unfold AppEndpoint.pollLoop
      cases hclient : s.client with
      | none => exact ⟨[], rfl⟩
      | some connection =>
        cases r with
        | interrupted => exact ih rest s
        | wouldBlock => exact ⟨[], rfl⟩
        | failed => exact ⟨[], rfl⟩
        | datagram bytes taken =>
          dsimp only
          split_ifs
          · exact ⟨[], rfl⟩
          · obtain ⟨messages, hmessages⟩ := ih rest (s.receive appDelegate connection (bytes.take kMaxFrameSize) taken)
            rw [receive_state s (by rw [hclient]; rfl), ← handleAppMessages_append] at hmessages
            exact ⟨_, hmessages⟩

theorem acceptPending_state (allowedPeer : PeerCredentials → Bool) (pending : Option (ℕ × Option PeerCredentials))
    (s : AppEndpoint (Sys E)) : (s.acceptPending allowedPeer pending).state = s.state := by
  unfold AppEndpoint.acceptPending
  split_ifs
  · rfl
  · match pending with
    | none => rfl
    | some (_, none) => rfl
    | some (connection, some peer) =>
      dsimp only
      split_ifs <;> rfl

/-- **What a poll does to the runtime is to handle some messages.** -/
theorem serves_messages (allowedPeer : PeerCredentials → Bool) (maxMessages : ℕ) (input : PollInput)
    (s : AppEndpoint (Sys E)) : ∃ messages, (s.poll appDelegate allowedPeer maxMessages input).state = (handleAppMessages messages s.state).2 := by
  unfold AppEndpoint.poll
  split_ifs
  · exact ⟨[], rfl⟩
  · obtain ⟨messages, hmessages⟩ := pollLoop_state maxMessages input.received (s.acceptPending allowedPeer input.pending)
    rw [acceptPending_state] at hmessages
    exact ⟨messages, hmessages⟩

/-! ## The daemon over its sockets -/

/-- a pass after the App was polled -/
def afterApp : Prog E Unit := do
  modify Sys.pollRoute
  let s ← get
  let driverConnected := s.link.client.isSome
  let newConnection := driverConnected && !s.runtime.driverWasConnected
  announcePass driverConnected newConnection
  restorePass driverConnected newConnection

/-- what can happen, with the bytes of the App -/
inductive SocketOp (E : Engine) where
  | driver (op : DriverOp (Dsp E))
  | runOnce (turns : List (Turn E)) (input : PollInput)
  | reading (identity : Option DeviceIdentity)
  | wait (duration : ℕ)
  | restart (cacheReadable bound : Bool)

/-- the daemon process: its App endpoint, and the state it was started in (ghost) -/
structure Process (E : Engine) where
  born : Sys E
  endpoint : AppEndpoint (Sys E)

def Process.start (s : Sys E) (bound : Bool) : Process E := ⟨s, { state := s, listening := bound }⟩

/-- what an operation is to the endpoint: a poll, between what the runtime does by itself -/
def SocketOp.served : SocketOp E → List (AppServerOp (Sys E))
  | .driver op => [.other fun s => step s (.driver op)]
  | .runOnce turns input =>
    [.other fun s => (poll { s with turns }).2, .poll kMaxPollEvents input, .other fun s => { (afterApp s).2 with turns := [] }]
  | .reading identity => [.other fun s => step s (.reading identity)]
  | .wait duration => [.other fun s => step s (.wait duration)]
  | .restart _ _ => []

section Process

variable (getuid : UInt32)

def Process.step (p : Process E) : SocketOp E → Process E
  | .restart cacheReadable bound => .start (System.step p.endpoint.state (.restart cacheReadable)) bound
  | op => { p with endpoint := appServerRun (defaultAllowedPeer getuid) appDelegate p.endpoint op.served }

def Process.run (p : Process E) (ops : List (SocketOp E)) : Process E := ops.foldl (Process.step getuid) p

/-- **An operation over bytes is one over messages.** -/
theorem step_messages (p : Process E) (op : SocketOp E) :
    ∃ op', (p.step getuid op).endpoint.state = step p.endpoint.state op' := by
  cases op with
  | driver op => exact ⟨.driver op, rfl⟩
  | reading identity => exact ⟨.reading identity, rfl⟩
  | wait duration => exact ⟨.wait duration, rfl⟩
  | restart cacheReadable bound => exact ⟨.restart cacheReadable, rfl⟩
  | runOnce turns input =>
    let polled : AppEndpoint (Sys E) := appServerStep (defaultAllowedPeer getuid) appDelegate p.endpoint
      (.other fun s => (poll { s with turns }).2)
    obtain ⟨messages, hmessages⟩ := serves_messages (defaultAllowedPeer getuid) kMaxPollEvents input polled
    refine ⟨.runOnce turns messages, ?_⟩
    show ({ (afterApp (polled.poll appDelegate (defaultAllowedPeer getuid) kMaxPollEvents input).state).2 with turns := [] } :
      Sys E) = _
    rw [hmessages]
    rfl

theorem run_messages (p : Process E) (ops : List (SocketOp E)) :
    ∃ ops', (p.run getuid ops).endpoint.state = run p.endpoint.state ops' := by
  induction ops generalizing p with
  | nil => exact ⟨[], rfl⟩
  | cons op ops ih =>
    obtain ⟨op', hop'⟩ := step_messages getuid p op
    obtain ⟨ops', hops'⟩ := ih (p.step getuid op)
    refine ⟨op' :: ops', ?_⟩
    show ((p.step getuid op).run getuid ops).endpoint.state = run (step p.endpoint.state op') ops'
    rw [hops', hop']

end Process

/-! ## What an answer tells -/

/-- the driver handled the command as it is, and every context there was accepted it -/
def TakenByAll (s : Sys E) (type : SnapshotCommandType) (payload : Bytes) : Prop :=
  ∃ q contexts, Note.handled ⟨type, payload, q⟩ contexts ∈ s.link.trace ∧ FannedOut ⟨type, payload, q⟩ contexts

theorem Answered.told {type : SnapshotCommandType} {payload : Bytes} {s t u x v w : Sys E} {outcome : Option Channel.ApplyOutcome}
    (hsend : Commanded type payload true s t u) (hmarked : Whole x) (hlink : x.link = u.link) (hnext : x.next = u.next)
    (hanswer : Answered type s.next outcome x v w) (haccepted : accepted outcome = true) : TakenByAll w type payload := by
  obtain ⟨answer, houtcome, -⟩ := accepted_inv haccepted
  have hsent : x.link.sent = ⟨type, payload, s.next⟩ :: s.link.sent := hlink ▸ hsend.sent
  have hlife : s.next.life = x.runtime.life := hsend.life.trans (congrArg Ticket.life hnext).symm
  obtain ⟨others, hn, hfan⟩ := hanswer.fanned hmarked.sound hsent hsend.issued hlife houtcome
  exact ⟨s.next, others, hn, hfan.mp haccepted⟩

/-- **A command of the App that was accepted was taken by all.** -/
theorem onSnapshotCommand_told {type : SnapshotCommandType} {payload : Bytes} (haccepts : acceptsCommand type payload = true)
    {s₀ : Sys E} (hs₀ : Books s₀) : wp (onSnapshotCommand type payload) (fun result t =>
      s₀.link.trace <:+ t.link.trace ∧ (result.accepted = true → type ≠ .snapshotChunk → TakenByAll t type payload)) s₀ := by
  obtain ⟨hs, -⟩ := hs₀.stage haccepts
  unfold onSnapshotCommand
  rw [wp_bind, wp_get]
  dsimp only
  rw [wp_bind, wp_set]
  have htrace : s₀.link.trace =
      ({ s₀ with runtime := stageAppSnapshotCommand s₀.runtime type payload } : Sys E).link.trace := rfl
  rw [htrace]
  generalize ({ s₀ with runtime := stageAppSnapshotCommand s₀.runtime type payload } : Sys E) = s at hs ⊢
  rw [wp_bind, wp_connected, wp_ite]
  refine ⟨fun _ => ⟨List.suffix_rfl, fun hacc => absurd hacc Bool.false_ne_true⟩, fun _ => ?_⟩
  refine command_spec type payload hs.whole fun sent t u hsend => ?_
  have hgrown : s.link.trace <:+ u.link.trace := by
    obtain ⟨notes, hnotes⟩ := hsend.later.trace
    exact ⟨notes, hnotes.symm⟩
  rw [wp_ite]
  refine ⟨fun _ => ⟨hgrown, fun hacc => absurd hacc Bool.false_ne_true⟩, fun hsent => ?_⟩
  obtain rfl : sent = true := by simpa using hsent
  have hmarked : Whole (u.marked type s.next) := hsend.marked_whole
  have hcopied : Copied (u.marked type s.next).runtime := hsend.marked_copied hs.copied
  rw [wp_bind, wp_set]
  change wp _ _ (u.marked type s.next)
  rw [wp_ite]
  refine ⟨fun hchunk => ⟨hgrown, fun _ hne => absurd hchunk hne⟩, fun _ => ?_⟩
  rw [wp_bind, wp_get, wp_ite]
  refine ⟨fun hcommit => ?_, fun _ => ?_⟩
  · rw [wp_bind, wp_note]
    have hentered : Whole ((u.marked type s.next).relaying s.next) := whole_note (e := .relayed _ _ _) trivial _ hmarked
    refine answer_spec type s.next hentered hcopied fun outcome v w hanswer => ⟨?_, fun hacc _ => ?_⟩
    · obtain ⟨notes, hnotes⟩ := hanswer.later.trace
      exact hgrown.trans ⟨notes, hnotes.symm⟩
    · exact hanswer.told hsend hentered rfl rfl hacc
  · refine answer_spec type s.next hmarked hcopied fun outcome v w hanswer => ⟨?_, fun hacc _ => ?_⟩
    · obtain ⟨notes, hnotes⟩ := hanswer.later.trace
      exact hgrown.trans ⟨notes, hnotes.symm⟩
    · exact hanswer.told hsend hmarked rfl rfl hacc

/-- what every part of a pass keeps: the books, and a route hash that can be sent -/
structure Hosted (s : Sys E) : Prop where
  books : Books s
  hash : HashOk s.runtime.routeKeyHash

theorem hashOk_deviceKey (key : Bytes) : HashOk (hashDeviceKey key) := by
  unfold hashDeviceKey hashDeviceKeyWith
  split_ifs
  · exact .inl rfl
  · exact .inr (Sha256.digestHex_safe key).2

theorem hash_walked : Walked fun s : Sys E => HashOk s.runtime.routeKeyHash where
  turn := by
    intro s hs
    simp only [turn, modifyGet, MonadStateOf.modifyGet, StateT.modifyGet]
    cases s.turns <;> exact hs
  onLink := fun _ _ _ hs => hs
  aside := fun s t _ _ _ harming hs => by
    simp only [armingOf, Prod.mk.injEq] at harming
    rw [harming.2.1]
    exact hs

theorem hash_pollRoute (s : Sys E) (hs : HashOk s.runtime.routeKeyHash) : HashOk s.pollRoute.runtime.routeKeyHash := by
  unfold Sys.pollRoute
  cases newRouteKey s.adapter s.runtime.routeKey with
  | none => exact hs
  | some key => exact hashOk_deviceKey key

theorem hash_restorePass (driverConnected newConnection : Bool) :
    Keeps (fun s : Sys E => HashOk s.runtime.routeKeyHash) (restorePass driverConnected newConnection) := by
  refine Keeps.get.bind fun s => Keeps.ite ?_ (Keeps.pure _)
  refine Keeps.bind (Keeps.modify fun s hs => hs) fun _ => ?_
  exact hash_walked.restoreCurrentRoute.bind fun _ => Keeps.modify fun s hs => hs

theorem hash_afterApp : Keeps (fun s : Sys E => HashOk s.runtime.routeKeyHash) afterApp := by
  refine Keeps.bind (Keeps.modify hash_pollRoute) fun _ => Keeps.get.bind fun s => ?_
  exact (hash_walked.announcePass _ _).bind fun _ => hash_restorePass _ _

theorem beside_afterApp : Beside (E := E) afterApp := by
  refine beside_pollRoute.bind fun _ => Beside.get.bind fun s => ?_
  exact (beside_announcePass _ _).bind fun _ => beside_restorePass _ _

/-- a part of the daemon that keeps what it is hosted with, and takes nothing from the history of the driver -/
def Hosts (f : Sys E → Sys E) : Prop := ∀ s, Hosted s → Hosted (f s) ∧ s.link.trace <:+ (f s).link.trace

theorem Beside.hosts {m : Prog E Unit} (h : Beside m) (hhash : Keeps (fun s : Sys E => HashOk s.runtime.routeKeyHash) m) :
    Hosts fun s => (m s).2 := fun s hs => by
  obtain ⟨hwhole, hpasses⟩ := h s hs.books.whole
  obtain ⟨notes, hnotes⟩ := hpasses.later.trace
  exact ⟨⟨hs.books.passes hwhole hpasses, hhash s hs.hash⟩, notes, hnotes.symm⟩

/-- every request keeps it -/
theorem answer_hosts {request : AppRequest} (h : ∀ type payload, request = .snapshotCommand type payload →
    acceptsCommand type payload = true) : Hosts (E := E) fun s => (appDelegate.answer request s).2 := by
  cases request with
  | hello hello => exact fun s hs => ⟨hs, List.suffix_rfl⟩
  | routeReport report =>
    have hkeeps := hash_walked.onRouteReport hash_pollRoute (E := E) (reportOf report)
    exact ((beside_onRouteReport (reportOf report)).bind fun _ => Beside.pure ()).hosts (hkeeps.bind fun _ => Keeps.pure ())
  | snapshotCommand type payload =>
    intro s hs
    have haccepts := h type payload rfl
    have hbooks := books_onSnapshotCommand haccepts s hs.books
    have hhash := hash_walked.onSnapshotCommand type payload s hs.hash
    exact ⟨⟨hbooks, hhash⟩, (onSnapshotCommand_told haccepts hs.books).1⟩

theorem onRouteReport_hash (report : AppRouteReport) {s : Sys E} (hs : HashOk s.runtime.routeKeyHash) :
    wp (onRouteReport report) (fun result _ => HashOk result.1.routeKeyHash) s := by
  unfold onRouteReport
  rw [wp_bind, wp_get]
  dsimp only
  rw [wp_ite]
  refine ⟨fun _ => hs, fun _ => ?_⟩
  rw [wp_ite]
  refine ⟨fun _ => hs, fun _ => ?_⟩
  rw [wp_bind]
  refine wp_mono (hash_walked.turn.wp hs) fun t u hu => ?_
  rw [wp_bind, wp_modify, wp_bind, wp_get]
  exact hash_pollRoute _ hu

theorem encodeAppRouteAck_ok {ack : Protocol.AppRouteAck} (h : HashOk ack.routeKeyHash) :
    encodeAppRouteAck ack = .ok (appRouteAckBytes ack) := encodeAppRouteAck_iff.mpr ⟨h, rfl⟩

/-- no answer is lost to its encoding -/
theorem answer_some (request : AppRequest) (s : Sys E) (hs : Hosted s) : ((appDelegate.answer request s).1).isSome = true := by
  cases request with
  | hello hello =>
    have hencode : encodeAppHelloAck (onHello s) = .ok (appHelloAckBytes (onHello s)) :=
      encodeAppHelloAck_iff.mpr ⟨hs.hash, rfl⟩
    simp only [AppDelegate.answer, appDelegate, hencode]
    rfl
  | routeReport report =>
    have hhash := onRouteReport_hash (reportOf report) hs.hash
    have hencode : encodeAppRouteAck { (onRouteReport (reportOf report) s).1.1.wire with
        accepted := (onRouteReport (reportOf report) s).1.1.accepted &&
          (onRouteReport (reportOf report) s).1.1.wire.accepted } = .ok _ := encodeAppRouteAck_ok hhash
    simp only [AppDelegate.answer, appDelegate, hencode]
    rfl
  | snapshotCommand type payload => rfl

/-! ## Runs -/

/-- what is known of a process: the endpoint's log accounts for it, and it was born with its books in order -/
structure Sane (getuid : UInt32) (p : Process E) : Prop where
  logged : Logged (defaultAllowedPeer getuid) Hosts appDelegate p.born p.endpoint
  born : Hosted p.born

theorem requests_host {datagram : Bytes} {requestId : UInt64} {request : AppRequest}
    (h : requestIn datagram = some (requestId, request)) {d : Sys E} (hd : Hosted d) :
    Hosted (appDelegate.answer request d).2 ∧ d.link.trace <:+ (appDelegate.answer request d).2.link.trace :=
  answer_hosts (fun _ _ heq => requestIn_accepts (heq ▸ h)) d hd

/-- the runtime at every point of the log, and what the driver has done since -/
theorem Sane.leads {getuid : UInt32} {p : Process E} (h : Sane getuid p) {newer past : List (AppEvent (Sys E))}
    (hlog : p.endpoint.log = newer ++ past) : Hosted (appDelegate.after p.born past).1 ∧
      (appDelegate.after p.born past).1.link.trace <:+ p.endpoint.state.link.trace := by
  have hleads := h.logged.leads (m := fun s => s.link.trace) (fun _ _ _ hrequest d hd => requests_host hrequest hd)
    (fun f hf d hd => hf d hd) h.born hlog
  rw [← h.logged.state] at hleads
  exact hleads

theorem Sane.hosted {getuid : UInt32} {p : Process E} (h : Sane getuid p) : Hosted p.endpoint.state := by
  have hleads := (h.leads (List.nil_append p.endpoint.log).symm).1
  rw [← h.logged.state] at hleads
  exact hleads

theorem Hosted.turned {s : Sys E} (h : Hosted s) (turns : List (Turn E)) : Hosted { s with turns } :=
  ⟨h.books.of_eq (h.books.whole.of_eq rfl rfl rfl (.inl ⟨rfl, rfl⟩)) rfl rfl rfl rfl, h.hash⟩

theorem served_hosts {op : SocketOp E} : ∀ op' ∈ op.served, op'.Grants Hosts := by
  have hpoll : Hosts (E := E) fun s => (poll s).2 := quiet_poll.beside.hosts hash_walked.poll
  have hafter : Hosts (E := E) fun s => (afterApp s).2 := beside_afterApp.hosts hash_afterApp
  intro op' hop'
  cases op with
  | driver op =>
    obtain rfl := List.mem_singleton.mp hop'
    intro s hs
    have hdriven := drive_advances s [op] s.turns s.now
    refine ⟨⟨step_books hs.books (.driver op), ?_⟩, ?_⟩
    · exact hs.hash
    · obtain ⟨notes, hnotes⟩ := hdriven.trace
      exact ⟨notes, hnotes.symm⟩
  | runOnce turns input =>
    simp only [SocketOp.served, List.mem_cons, List.not_mem_nil, or_false] at hop'
    rcases hop' with rfl | rfl | rfl
    · intro s hs
      exact hpoll _ (hs.turned turns)
    · trivial
    · intro s hs
      obtain ⟨hhosted, htrace⟩ := hafter s hs
      exact ⟨hhosted.turned [], htrace⟩
  | reading identity =>
    obtain rfl := List.mem_singleton.mp hop'
    intro s hs
    have hsame : (step s (.reading identity)).runtime = s.runtime ∧ (step s (.reading identity)).link = s.link := by
      unfold step
      split_ifs <;> exact ⟨rfl, rfl⟩
    refine ⟨⟨step_books hs.books (.reading identity), ?_⟩, ?_⟩
    · rw [hsame.1]
      exact hs.hash
    · rw [hsame.2]
  | wait duration =>
    obtain rfl := List.mem_singleton.mp hop'
    intro s hs
    exact ⟨⟨step_books hs.books (.wait duration), hs.hash⟩, List.suffix_rfl⟩
  | restart cacheReadable bound => cases hop'

theorem start_sane (getuid : UInt32) {s : Sys E} (h : Hosted s) (bound : Bool) : Sane getuid (Process.start s bound) :=
  ⟨start_logged s bound, h⟩

theorem step_sane {getuid : UInt32} {p : Process E} (h : Sane getuid p) (op : SocketOp E) : Sane getuid (p.step getuid op) := by
  cases op with
  | restart cacheReadable bound =>
    refine start_sane getuid ⟨step_books h.hosted.books (.restart cacheReadable), ?_⟩ bound
    exact hash_pollRoute _ (.inl rfl)
  | driver op => exact ⟨run_logged h.logged served_hosts, h.born⟩
  | runOnce turns input => exact ⟨run_logged h.logged served_hosts, h.born⟩
  | reading identity => exact ⟨run_logged h.logged served_hosts, h.born⟩
  | wait duration => exact ⟨run_logged h.logged served_hosts, h.born⟩

theorem run_sane {getuid : UInt32} {p : Process E} (h : Sane getuid p) (ops : List (SocketOp E)) :
    Sane getuid (p.run getuid ops) := by
  induction ops generalizing p with
  | nil => exact h
  | cons op ops ih => exact ih (step_sane h op)

theorem boot_hosted (config : Config) (bootId : ℕ) (store : SnapshotStore) (adapter cache : Option DeviceIdentity) :
    Hosted (boot config bootId store adapter cache : Sys E) :=
  ⟨boot_books config bootId store adapter cache, hash_pollRoute _ (.inl rfl)⟩

/-- **The App is answered, and told the truth.** Over every run of the daemon on the bytes of its sockets: the runtime is in a
state that a run on messages reaches; of what the process has read from the App, every request has been answered, with one
frame under its id, to the connection it came from, which was let in by its uid; and if the answer to a command other than a
CHUNK says accepted, then the driver has handled the bytes of this command, and every context it had then accepted them. -/
theorem app_is_answered (config : Config) (bootId : ℕ) (store : SnapshotStore) (adapter cache : Option DeviceIdentity)
    (getuid : UInt32) (bound : Bool) (ops : List (SocketOp E)) :
    let p : Process E := (Process.start (boot config bootId store adapter cache) bound).run getuid ops
    (∃ ops', p.endpoint.state = run (boot config bootId store adapter cache) ops') ∧
    ∀ newer connection datagram reply past, p.endpoint.log = newer ++ .exchanged connection datagram reply :: past →
      (∃ peer, lastAccepted past = some (connection, peer)) ∧
      (requestIn datagram = none → reply = none) ∧
      ∀ requestId request, requestIn datagram = some (requestId, request) →
        ∃ frame taken type bytes, reply = some (frame, taken) ∧
          Carries type requestId ((appDelegate.after p.born past).2 + 1) bytes frame ∧
          ∀ command payload result, request = .snapshotCommand command payload → command ≠ .snapshotChunk →
            decodeAppApplyResult bytes = .ok result → result.accepted = true →
            TakenByAll p.endpoint.state command payload := by
  intro p
  have hp : Sane getuid p := run_sane (start_sane getuid (boot_hosted config bootId store adapter cache) bound) ops
  refine ⟨run_messages getuid _ ops, fun newer connection datagram reply past hlog => ?_⟩
  have hserved := hp.logged.served
  rw [hlog] at hserved
  obtain ⟨hpeer, hreplies⟩ := hserved.cut
  have hbefore := hp.leads (hlog.trans (List.append_cons newer _ past))
  have hafter := hp.leads hlog
  refine ⟨hpeer, fun hnone => ?_, fun requestId request hrequest => ?_⟩
  · simpa only [AppDelegate.Replies, hnone] using hreplies
  have hsome := answer_some request _ hbefore.1
  simp only [AppDelegate.Replies, hrequest] at hreplies
  cases hanswer : (appDelegate.answer request (appDelegate.after p.born past).1).1 with
  | none =>
    rw [hanswer] at hsome
    cases hsome
  | some answer =>
    obtain ⟨type, bytes⟩ := answer
    rw [hanswer] at hreplies
    obtain ⟨frame, taken, hreply, hframe⟩ := hreplies
    refine ⟨frame, taken, type, bytes, hreply, hframe, fun command payload result heq hchunk hresult haccepted => ?_⟩
    subst heq
    obtain ⟨-, hbytes⟩ := Prod.mk.inj (Option.some.inj hanswer)
    rw [← hbytes, decodeAppApplyResult_encode] at hresult
    obtain rfl := Except.ok.inj hresult
    have htold := (onSnapshotCommand_told (requestIn_accepts hrequest) hbefore.1.books).2
    simp only [Bool.and_eq_true] at haccepted
    obtain ⟨q, contexts, hn, hfan⟩ := htold haccepted.1 hchunk
    have hstate : (appDelegate.after p.born (.exchanged connection datagram reply :: past)).1 =
        (onSnapshotCommand command payload (appDelegate.after p.born past).1).2 := by
      show (appDelegate.advance (appDelegate.after p.born past) _).1 = _
      simp only [AppDelegate.advance, hrequest]
      rfl
    rw [hstate] at hafter
    exact ⟨q, contexts, hafter.2.subset hn, hfan⟩

end ViperFx.System
