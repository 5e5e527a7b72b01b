/-
The daemon's end of the App socket: `daemon/AppEventServer.cpp`.

One App is connected at a time, and only under a uid that may. A poll takes in at most one new connection, and then reads frames
until the socket is empty or the budget is spent. A frame that is a request goes to the delegate and is answered under the id it
came with; every other frame is counted and dropped. So the datagrams alone tell what the delegate is asked, and what the App is
answered.

Results:
  · defaultAllowedPeer_iff  : the uids that may connect
  · handleFrame_handled     : what a frame can come to
  · one_reply_per_request   : what a run does with each datagram, and where it leaves the delegate
-/
import ViperFx.Core.Log
import ViperFx.Protocol.AppCommand
import ViperFx.Protocol.Frame

namespace ViperFx.Daemon

open ViperFx.Core ViperFx.Protocol

/-! ## Admission -/

def kUserIdOffset : UInt32 := 100000
def kFirstApplicationAppId : UInt32 := 10000
def kLastApplicationAppId : UInt32 := 19999

/-- SO_PEERCRED of a connecting peer -/
structure PeerCredentials where
  uid : UInt32 := 0
  gid : UInt32 := 0
  pid : Int32 := 0
  deriving DecidableEq

def defaultAllowedPeer (getuid : UInt32) (credentials : PeerCredentials) : Bool :=
  if credentials.uid = 0 then true
  else if credentials.uid = getuid then true
  else
    let appId := credentials.uid % kUserIdOffset
    kFirstApplicationAppId ≤ appId && appId ≤ kLastApplicationAppId

/-- root, the daemon's own uid, and the apps of every user -/
theorem defaultAllowedPeer_iff {getuid : UInt32} {credentials : PeerCredentials} :
    defaultAllowedPeer getuid credentials = true ↔ credentials.uid = 0 ∨ credentials.uid = getuid ∨
      ∃ user app, credentials.uid.toNat = user * 100000 + app ∧ 10000 ≤ app ∧ app ≤ 19999 := by
  unfold defaultAllowedPeer
  split_ifs with hroot hself
  · exact ⟨fun _ => .inl hroot, fun _ => rfl⟩
  · exact ⟨fun _ => .inr (.inl hself), fun _ => rfl⟩
  · simp only [hroot, hself, false_or, Bool.and_eq_true, decide_eq_true_eq, UInt32.le_iff_toNat_le, UInt32.toNat_mod]
    have hoffset : kUserIdOffset.toNat = 100000 := rfl
    have hfirst : kFirstApplicationAppId.toNat = 10000 := rfl
    have hlast : kLastApplicationAppId.toNat = 19999 := rfl
    rw [hoffset, hfirst, hlast]
    constructor
    · rintro ⟨hlow, hhigh⟩
      exact ⟨credentials.uid.toNat / 100000, credentials.uid.toNat % 100000, by omega, hlow, hhigh⟩
    · rintro ⟨user, app, huid, hlow, hhigh⟩
      omega

/-! ## The endpoint -/

/-- what the runtime does with a request; the flag is what the callback returns -/
structure AppDelegate (δ : Type) where
  onHello : AppHello → δ → AppHelloAck × δ
  onRouteReport : AppRouteReport → δ → (Bool × AppRouteAck) × δ
  onSnapshotCommand : SnapshotCommandType → Bytes → δ → (Bool × AppApplyResult) × δ

structure AppStats where
  acceptedConnections : ℕ := 0
  rejectedFrames : ℕ := 0
  rejectedPeers : ℕ := 0
  hellos : ℕ := 0
  routeReports : ℕ := 0
  snapshotCommands : ℕ := 0
  repliesSent : ℕ := 0
  deriving DecidableEq

/-- what can be seen of the endpoint: a connection that was let in, a datagram that was read with the frame that was sent for it
and whether the socket took that, and what else befalls the delegate -/
inductive AppEvent (δ : Type) where
  | accepted (connection : ℕ) (peer : PeerCredentials)
  | exchanged (connection : ℕ) (datagram : Bytes) (reply : Option (Bytes × Bool))
  | other (f : δ → δ)

structure AppEndpoint (δ : Type) where
  listening : Bool := false
  client : Option ℕ := none
  stats : AppStats := {}
  replySequence : UInt64 := 0
  /-- of the delegate -/
  state : δ
  /-- newest first -/
  log : List (AppEvent δ) := []

/-- one answer of `recv`; a datagram without bytes reads like the end of the connection -/
inductive Received where
  | interrupted
  | wouldBlock
  | failed
  | datagram (bytes : Bytes) (taken : Bool)
  deriving DecidableEq

/-- what a poll meets: a connection that waits, with its credentials if the kernel has them, and what is there to read -/
structure PollInput where
  pending : Option (ℕ × Option PeerCredentials) := none
  received : List Received := []
  deriving DecidableEq

namespace AppEndpoint

variable {δ : Type}

def listen (bound : Bool) (s : AppEndpoint δ) : AppEndpoint δ := { s with listening := s.listening || bound }

def dropClient (s : AppEndpoint δ) : AppEndpoint δ := { s with client := none }

def close (s : AppEndpoint δ) : AppEndpoint δ := { s.dropClient with listening := false }

def rejectPeer (s : AppEndpoint δ) : AppEndpoint δ :=
  { s with stats := { s.stats with rejectedPeers := s.stats.rejectedPeers + 1 } }

def rejectFrame (s : AppEndpoint δ) : AppEndpoint δ :=
  { s with stats := { s.stats with rejectedFrames := s.stats.rejectedFrames + 1 } }

/-- a peer without credentials could be anyone -/
def acceptPending (allowedPeer : PeerCredentials → Bool) (pending : Option (ℕ × Option PeerCredentials))
    (s : AppEndpoint δ) : AppEndpoint δ :=
  if !s.listening then s
  else match pending with
    | none => s
    | some (_, none) => s.rejectPeer
    | some (connection, some peer) =>
      if !allowedPeer peer then s.rejectPeer
      else { s.dropClient with
        client := some connection
        stats := { s.stats with acceptedConnections := s.stats.acceptedConnections + 1 }
        log := .accepted connection peer :: s.log }

/-- the sequence number is used up whatever becomes of the frame -/
def sendReply (type : AppMessageType) (requestId : UInt64) (payload : Bytes) (taken : Bool) (s : AppEndpoint δ) :
    AppEndpoint δ × Option (Bytes × Bool) :=
  if s.client.isNone then (s, none)
  else
    let s := { s with replySequence := s.replySequence + 1 }
    match encodeFrame { messageType := type.code, requestId, sequence := s.replySequence } payload with
    | .error _ => (s, none)
    | .ok frame =>
      (if taken then { s with stats := { s.stats with repliesSent := s.stats.repliesSent + 1 } } else s, some (frame, taken))

section Handle

variable (D : AppDelegate δ)

def handleHello (requestId : UInt64) (payload : Bytes) (taken : Bool) (s : AppEndpoint δ) :
    AppEndpoint δ × Option (Bytes × Bool) :=
  match decodeAppHello payload with
  | .error _ => (s.rejectFrame, none)
  | .ok hello =>
    let p := D.onHello hello s.state
    let s := { s with state := p.2 }
    match encodeAppHelloAck p.1 with
    | .error _ => (s.rejectFrame, none)
    | .ok reply =>
      sendReply .appHelloAck requestId reply taken { s with stats := { s.stats with hellos := s.stats.hellos + 1 } }

def handleRouteReport (requestId : UInt64) (payload : Bytes) (taken : Bool) (s : AppEndpoint δ) :
    AppEndpoint δ × Option (Bytes × Bool) :=
  match decodeAppRouteReport payload with
  | .error _ => (s.rejectFrame, none)
  | .ok report =>
    let p := D.onRouteReport report s.state
    let ack := if !p.1.1 then { p.1.2 with accepted := false } else p.1.2
    let s := { s with state := p.2 }
    match encodeAppRouteAck ack with
    | .error _ => (s.rejectFrame, none)
    | .ok reply =>
      sendReply .appRouteAck requestId reply taken
        { s with stats := { s.stats with routeReports := s.stats.routeReports + 1 } }

def handleAppMessage (header : FrameHeader) (payload : Bytes) (taken : Bool) (s : AppEndpoint δ) :
    AppEndpoint δ × Option (Bytes × Bool) :=
  match AppMessageType.ofCode? header.messageType with
  | some .appHello => s.handleHello D header.requestId payload taken
  | some .appRouteReport => s.handleRouteReport D header.requestId payload taken
  | some .appHelloAck => (s.rejectFrame, none)
  | some .appRouteAck => (s.rejectFrame, none)
  | some .appApplyResult => (s.rejectFrame, none)
  | none => (s.rejectFrame, none)

/-- the codec is only asked whether the payload is well formed; the switch has no case for ROUTE_ANNOUNCE -/
def decodesCommand (type : SnapshotCommandType) (payload : Bytes) : Bool :=
  match type with
  | .snapshotBegin => (decodeSnapshotBegin payload).isOk
  | .snapshotChunk => (decodeSnapshotChunk payload).isOk
  | .snapshotCommit => (decodeSnapshotCommit payload).isOk
  | .snapshotAbort => (decodeSnapshotAbort payload).isOk
  | .routeAnnounce => false

def handleSnapshotCommand (header : FrameHeader) (payload : Bytes) (taken : Bool) (s : AppEndpoint δ) :
    AppEndpoint δ × Option (Bytes × Bool) :=
  match SnapshotCommandType.ofCode? header.messageType with
  | none => (s.rejectFrame, none)
  | some type =>
    if !decodesCommand type payload then (s.rejectFrame, none)
    else
      let p := D.onSnapshotCommand type payload s.state
      let result := if !p.1.1 then { p.1.2 with accepted := false } else p.1.2
      sendReply .appApplyResult header.requestId (encodeAppApplyResult result) taken
        { s with
          state := p.2
          stats := { s.stats with snapshotCommands := s.stats.snapshotCommands + 1 } }

def handleFrame (header : FrameHeader) (payload : Bytes) (taken : Bool) (s : AppEndpoint δ) :
    AppEndpoint δ × Option (Bytes × Bool) :=
  if isAppMessageType header.messageType then s.handleAppMessage D header payload taken
  else if isSnapshotCommandType header.messageType then s.handleSnapshotCommand D header payload taken
  else (s.rejectFrame, none)

/-- a datagram that was read over the connection -/
def receive (connection : ℕ) (datagram : Bytes) (taken : Bool) (s : AppEndpoint δ) : AppEndpoint δ :=
  let p := match decodeFrame datagram with
    | .error _ => (s.rejectFrame, none)
    | .ok (header, payload) => s.handleFrame D header payload taken
  { p.1 with log := .exchanged connection datagram p.2 :: p.1.log }

/-- the loop of `Poll`; the buffer is as long as a frame may be, and what is longer is cut off -/
def pollLoop : ℕ → List Received → AppEndpoint δ → AppEndpoint δ
  | 0, _, s => s
  | _, [], s => s
  | attempts + 1, r :: rest, s =>
    match s.client with
    | none => s
    | some connection =>
      match r with
      | .interrupted => pollLoop attempts rest s
      | .wouldBlock => s
      | .failed => s.dropClient
      | .datagram bytes taken =>
        if bytes.isEmpty then s.dropClient
        else pollLoop attempts rest (s.receive D connection (bytes.take kMaxFrameSize) taken)

def poll (allowedPeer : PeerCredentials → Bool) (maxMessages : ℕ) (input : PollInput) (s : AppEndpoint δ) : AppEndpoint δ :=
  if !s.listening then s else (s.acceptPending allowedPeer input.pending).pollLoop D maxMessages input.received

end Handle

end AppEndpoint

inductive AppServerOp (δ : Type) where
  | listen (bound : Bool)
  | close
  | poll (maxMessages : ℕ) (input : PollInput)
  | other (f : δ → δ)

variable {δ : Type}

def AppServerOp.Grants (G : (δ → δ) → Prop) : AppServerOp δ → Prop
  | .other f => G f
  | _ => True

section Run

variable (allowedPeer : PeerCredentials → Bool) (D : AppDelegate δ)

def appServerStep (s : AppEndpoint δ) : AppServerOp δ → AppEndpoint δ
  | .listen bound => s.listen bound
  | .close => s.close
  | .poll maxMessages input => s.poll D allowedPeer maxMessages input
  | .other f => { s with state := f s.state, log := .other f :: s.log }

def appServerRun (s : AppEndpoint δ) (ops : List (AppServerOp δ)) : AppEndpoint δ := ops.foldl (appServerStep allowedPeer D) s

end Run

/-! ## What the datagrams say -/

inductive AppRequest where
  | hello (hello : AppHello)
  | routeReport (report : AppRouteReport)
  | snapshotCommand (type : SnapshotCommandType) (payload : Bytes)
  deriving DecidableEq

/-- the request a frame makes, if it is one -/
def requestOf (header : FrameHeader) (payload : Bytes) : Option AppRequest :=
  if header.messageType = AppMessageType.appHello.code then (decodeAppHello payload).toOption.map .hello
  else if header.messageType = AppMessageType.appRouteReport.code then (decodeAppRouteReport payload).toOption.map .routeReport
  else (SnapshotCommandType.ofCode? header.messageType).bind fun type =>
    if AppEndpoint.decodesCommand type payload then some (.snapshotCommand type payload) else none

/-- the id and the request of a datagram -/
def requestIn (datagram : Bytes) : Option (UInt64 × AppRequest) :=
  match decodeFrame datagram with
  | .error _ => none
  | .ok (header, payload) => (requestOf header payload).map fun request => (header.requestId, request)

/-- a frame that carries the payload under the given type, id and number -/
def Carries (type : AppMessageType) (requestId sequence : UInt64) (payload frame : Bytes) : Prop :=
  ∃ header, decodeFrame frame = .ok (header, payload) ∧ header.messageType = type.code ∧ header.requestId = requestId ∧
    header.sequence = sequence

namespace AppDelegate

variable (D : AppDelegate δ)

/-- the type and the payload of the answer to a request, where there is one, and what it does to the delegate -/
def answer (request : AppRequest) (d : δ) : Option (AppMessageType × Bytes) × δ :=
  match request with
  | .hello hello =>
    let p := D.onHello hello d
    ((encodeAppHelloAck p.1).toOption.map fun reply => (.appHelloAck, reply), p.2)
  | .routeReport report =>
    let p := D.onRouteReport report d
    ((encodeAppRouteAck { p.1.2 with accepted := p.1.1 && p.1.2.accepted }).toOption.map fun reply => (.appRouteAck, reply), p.2)
  | .snapshotCommand type payload =>
    let p := D.onSnapshotCommand type payload d
    (some (.appApplyResult, encodeAppApplyResult { p.1.2 with accepted := p.1.1 && p.1.2.accepted }), p.2)

/-- the delegate, and the number of answers, after an event -/
def advance (p : δ × UInt64) : AppEvent δ → δ × UInt64
  | .accepted _ _ => p
  | .exchanged _ datagram _ =>
    match requestIn datagram with
    | none => p
    | some (_, request) =>
      let q := D.answer request p.1
      (q.2, if q.1.isSome then p.2 + 1 else p.2)
  | .other f => (f p.1, p.2)

def after (d : δ) : List (AppEvent δ) → δ × UInt64
  | [] => (d, 0)
  | e :: past => D.advance (after d past) e

/-- an answer is framed under the id of its request and the next number; nothing else is sent -/
def Replies (p : δ × UInt64) (datagram : Bytes) (reply : Option (Bytes × Bool)) : Prop :=
  match requestIn datagram with
  | none => reply = none
  | some (requestId, request) =>
    match (D.answer request p.1).1 with
    | none => reply = none
    | some (type, payload) => ∃ frame taken, reply = some (frame, taken) ∧ Carries type requestId (p.2 + 1) payload frame

end AppDelegate

/-- the connection that was let in last -/
def lastAccepted : List (AppEvent δ) → Option (ℕ × PeerCredentials)
  | [] => none
  | .accepted connection peer :: _ => some (connection, peer)
  | _ :: past => lastAccepted past

/-- what an event does, after what was before it; `G` is what is known of the rest -/
def Served (allowedPeer : PeerCredentials → Bool) (G : (δ → δ) → Prop) (D : AppDelegate δ) (d : δ)
    (past : List (AppEvent δ)) : AppEvent δ → Prop
  | .accepted _ peer => allowedPeer peer = true
  | .exchanged connection datagram reply =>
    (∃ peer, lastAccepted past = some (connection, peer)) ∧ D.Replies (D.after d past) datagram reply
  | .other f => G f

namespace AppEvent

def isAccepted : AppEvent δ → Bool
  | .accepted _ _ => true
  | _ => false

def isRefused : AppEvent δ → Bool
  | .exchanged _ _ none => true
  | _ => false

def isAnswered : AppEvent δ → Bool
  | .exchanged _ _ (some _) => true
  | _ => false

def isSent : AppEvent δ → Bool
  | .exchanged _ _ (some (_, true)) => true
  | _ => false

end AppEvent

/-- the counters tell connections, and frames by what became of them -/
structure Tally (stats : AppStats) (log : List (AppEvent δ)) : Prop where
  accepted : stats.acceptedConnections = log.countP AppEvent.isAccepted
  refused : stats.rejectedFrames = log.countP AppEvent.isRefused
  answered : stats.hellos + stats.routeReports + stats.snapshotCommands = log.countP AppEvent.isAnswered
  sent : stats.repliesSent = log.countP AppEvent.isSent

theorem Tally.cons {stats stats' : AppStats} {log : List (AppEvent δ)} (h : Tally stats log) {e : AppEvent δ}
    (haccepted : stats'.acceptedConnections = stats.acceptedConnections + if e.isAccepted then 1 else 0)
    (hrefused : stats'.rejectedFrames = stats.rejectedFrames + if e.isRefused then 1 else 0)
    (hanswered : stats'.hellos + stats'.routeReports + stats'.snapshotCommands =
      stats.hellos + stats.routeReports + stats.snapshotCommands + if e.isAnswered then 1 else 0)
    (hsent : stats'.repliesSent = stats.repliesSent + if e.isSent then 1 else 0) : Tally stats' (e :: log) := by
  refine ⟨?_, ?_, ?_, ?_⟩
  · rw [haccepted, h.accepted, List.countP_cons]
  · rw [hrefused, h.refused, List.countP_cons]
  · rw [hanswered, h.answered, List.countP_cons]
  · rw [hsent, h.sent, List.countP_cons]

/-- the log accounts for the endpoint -/
structure Logged (allowedPeer : PeerCredentials → Bool) (G : (δ → δ) → Prop) (D : AppDelegate δ) (d : δ)
    (s : AppEndpoint δ) : Prop where
  state : (s.state, s.replySequence) = D.after d s.log
  client : ∀ connection, s.client = some connection → ∃ peer, lastAccepted s.log = some (connection, peer)
  served : Along (Served allowedPeer G D d) s.log
  tally : Tally s.stats s.log

/-! ## One datagram -/

theorem AppMessageType.code_of {value : UInt16} {type : AppMessageType} (h : AppMessageType.ofCode? value = some type) :
    value = type.code := by
  unfold AppMessageType.ofCode? at h
  split_ifs at h with h0 h1 h2 h3 h4 <;> obtain rfl := Option.some.inj h <;> assumption

theorem SnapshotCommandType.code_of {value : UInt16} {type : SnapshotCommandType}
    (h : SnapshotCommandType.ofCode? value = some type) : value = type.code := by
  unfold SnapshotCommandType.ofCode? at h
  split_ifs at h with h0 h1 h2 h3 h4 <;> obtain rfl := Option.some.inj h <;> assumption

/-- the two ranges of types lie apart -/
theorem command_apart {value : UInt16} {type : SnapshotCommandType} (h : SnapshotCommandType.ofCode? value = some type) :
    isAppMessageType value = false ∧ isSnapshotCommandType value = true := by
  rw [SnapshotCommandType.code_of h]
  cases type <;> decide

theorem carries_frame (type : AppMessageType) (requestId sequence : UInt64) {payload : Bytes}
    (hsize : payload.length ≤ kMaxPayloadSize) :
    encodeFrame { messageType := type.code, requestId, sequence } payload =
        .ok (frameBytes { messageType := type.code, requestId, sequence } payload) ∧
      Carries type requestId sequence payload (frameBytes { messageType := type.code, requestId, sequence } payload) := by
  let header : FrameHeader := { messageType := type.code, requestId, sequence, payloadLength := UInt32.ofNat payload.length
                                payloadCrc32 := crc32 payload }
  have hfits : Fits header payload :=
    ⟨rfl, by simp [header], hsize, UInt32.toNat_ofNat_of_lt (Nat.lt_of_le_of_lt hsize (by decide)), rfl⟩
  have hencode : encodeFrame header payload = .ok (frameBytes header payload) :=
    encodeFrame_iff.mpr ⟨hsize, rfl, by simp [header], rfl⟩
  exact ⟨encodeFrame_iff.mpr ⟨hsize, rfl, by simp, rfl⟩, header, decodeFrame_encode hencode hfits, rfl, rfl, rfl⟩

namespace AppEndpoint

variable {s : AppEndpoint δ}

theorem sendReply_sent (hclient : s.client.isSome = true) (type : AppMessageType) (requestId : UInt64) {payload : Bytes}
    (hsize : payload.length ≤ kMaxPayloadSize) (taken : Bool) :
    ∃ frame, Carries type requestId (s.replySequence + 1) payload frame ∧
      s.sendReply type requestId payload taken =
        ({ s with
          replySequence := s.replySequence + 1
          stats := { s.stats with repliesSent := s.stats.repliesSent + if taken then 1 else 0 } }, some (frame, taken)) := by
  obtain ⟨hencode, hcarries⟩ := carries_frame type requestId (s.replySequence + 1) hsize
  refine ⟨_, hcarries, ?_⟩
  have hconnected : s.client.isNone = false := by simpa using hclient
  unfold sendReply
  rw [hconnected]
  dsimp only [Bool.false_eq_true, if_false]
  rw [if_neg Bool.false_ne_true, hencode]
  cases taken <;> rfl

/-- what a frame can come to -/
inductive Handled (D : AppDelegate δ) (s : AppEndpoint δ) (requestId : UInt64) (taken : Bool) :
    Option AppRequest → AppEndpoint δ × Option (Bytes × Bool) → Prop
  | refused : Handled D s requestId taken none (s.rejectFrame, none)
  | unanswered {request : AppRequest} {d : δ} (hanswer : D.answer request s.state = (none, d)) :
      Handled D s requestId taken (some request) ({ s with state := d }.rejectFrame, none)
  | answered {request : AppRequest} {d : δ} {type : AppMessageType} {payload frame : Bytes} {stats : AppStats}
      (hanswer : D.answer request s.state = (some (type, payload), d))
      (hframe : Carries type requestId (s.replySequence + 1) payload frame)
      (hrejected : stats.rejectedFrames = s.stats.rejectedFrames)
      (haccepted : stats.acceptedConnections = s.stats.acceptedConnections)
      (hserved : stats.hellos + stats.routeReports + stats.snapshotCommands =
        s.stats.hellos + s.stats.routeReports + s.stats.snapshotCommands + 1)
      (hsent : stats.repliesSent = s.stats.repliesSent + if taken then 1 else 0) :
      Handled D s requestId taken (some request)
        ({ s with state := d, replySequence := s.replySequence + 1, stats }, some (frame, taken))

variable (D : AppDelegate δ)

theorem handleHello_handled (hclient : s.client.isSome = true) (requestId : UInt64) (payload : Bytes) (taken : Bool) :
    Handled D s requestId taken ((decodeAppHello payload).toOption.map .hello) (s.handleHello D requestId payload taken) := by
  unfold handleHello
  cases decodeAppHello payload with
  | error e => exact .refused
  | ok hello =>
    dsimp only
    cases hencode : encodeAppHelloAck (D.onHello hello s.state).1 with
    | error e =>
      refine .unanswered ?_
      simp only [AppDelegate.answer, hencode]
      rfl
    | ok reply =>
      obtain ⟨hhash, hreply⟩ := encodeAppHelloAck_iff.mp hencode
      have hsize : reply.length ≤ kMaxPayloadSize := by
        rw [hreply]
        simp [appHelloAckBytes, hhash.put_length, kAppDeviceHashSize, kMaxPayloadSize, kMaxFrameSize, kFrameHeaderSize]
      obtain ⟨frame, hframe, hsent⟩ := sendReply_sent (s := { s with
        state := (D.onHello hello s.state).2
        stats := { s.stats with hellos := s.stats.hellos + 1 } }) hclient .appHelloAck requestId hsize taken
      dsimp only at hsent ⊢
      rw [hsent]
      refine .answered ?_ hframe rfl rfl ?_ rfl
      · simp only [AppDelegate.answer, hencode]
        rfl
      · show s.stats.hellos + 1 + s.stats.routeReports + s.stats.snapshotCommands = _
        omega

theorem handleRouteReport_handled (hclient : s.client.isSome = true) (requestId : UInt64) (payload : Bytes) (taken : Bool) :
    Handled D s requestId taken ((decodeAppRouteReport payload).toOption.map .routeReport)
      (s.handleRouteReport D requestId payload taken) := by
  unfold handleRouteReport
  cases decodeAppRouteReport payload with
  | error e => exact .refused
  | ok report =>
    dsimp only
    have hack : (if !(D.onRouteReport report s.state).1.1 then { (D.onRouteReport report s.state).1.2 with accepted := false }
        else (D.onRouteReport report s.state).1.2) =
        { (D.onRouteReport report s.state).1.2 with
          accepted := (D.onRouteReport report s.state).1.1 && (D.onRouteReport report s.state).1.2.accepted } := by
      cases (D.onRouteReport report s.state).1.1 <;> rfl
    rw [hack]
    cases hencode : encodeAppRouteAck { (D.onRouteReport report s.state).1.2 with
        accepted := (D.onRouteReport report s.state).1.1 && (D.onRouteReport report s.state).1.2.accepted } with
    | error e =>
      refine .unanswered ?_
      simp only [AppDelegate.answer, hencode]
      rfl
    | ok reply =>
      obtain ⟨hhash, hreply⟩ := encodeAppRouteAck_iff.mp hencode
      have hsize : reply.length ≤ kMaxPayloadSize := by
        rw [hreply]
        simp [appRouteAckBytes, putFlag, hhash.put_length, kAppDeviceHashSize, kMaxPayloadSize, kMaxFrameSize,
          kFrameHeaderSize]
      obtain ⟨frame, hframe, hsent⟩ := sendReply_sent (s := { s with
        state := (D.onRouteReport report s.state).2
        stats := { s.stats with routeReports := s.stats.routeReports + 1 } }) hclient .appRouteAck requestId hsize taken
      dsimp only at hsent ⊢
      rw [hsent]
      refine .answered ?_ hframe rfl rfl ?_ rfl
      · simp only [AppDelegate.answer, hencode]
        rfl
      · show s.stats.hellos + (s.stats.routeReports + 1) + s.stats.snapshotCommands = _
        omega

theorem handleSnapshotCommand_handled (hclient : s.client.isSome = true) (header : FrameHeader) (payload : Bytes)
    (taken : Bool) :
    Handled D s header.requestId taken ((SnapshotCommandType.ofCode? header.messageType).bind fun type =>
      if decodesCommand type payload then some (.snapshotCommand type payload) else none)
      (s.handleSnapshotCommand D header payload taken) := by
  unfold handleSnapshotCommand
  cases SnapshotCommandType.ofCode? header.messageType with
  | none => exact .refused
  | some type =>
    dsimp only [Option.bind_some]
    cases hdecoded : decodesCommand type payload with
    | false => exact .refused
    | true =>
      rw [if_pos rfl, if_neg (by decide)]
      have hresult : (if !(D.onSnapshotCommand type payload s.state).1.1 then
          { (D.onSnapshotCommand type payload s.state).1.2 with accepted := false }
          else (D.onSnapshotCommand type payload s.state).1.2) =
          { (D.onSnapshotCommand type payload s.state).1.2 with
            accepted := (D.onSnapshotCommand type payload s.state).1.1 &&
              (D.onSnapshotCommand type payload s.state).1.2.accepted } := by
        cases (D.onSnapshotCommand type payload s.state).1.1 <;> rfl
      rw [hresult]
      have hsize : ∀ result, (encodeAppApplyResult result).length ≤ kMaxPayloadSize := by
        intro result
        simp [encodeAppApplyResult, appApplyResultBytes, putFlag, kMaxPayloadSize, kMaxFrameSize, kFrameHeaderSize]
      obtain ⟨frame, hframe, hsent⟩ := sendReply_sent (s := { s with
        state := (D.onSnapshotCommand type payload s.state).2
        stats := { s.stats with snapshotCommands := s.stats.snapshotCommands + 1 } }) hclient .appApplyResult
        header.requestId (hsize _) taken
      dsimp only at hsent ⊢
      rw [hsent]
      exact .answered rfl hframe rfl rfl rfl rfl

/-- the handlers see the frame as its request, or do not take it -/
theorem handleFrame_handled (hclient : s.client.isSome = true) (header : FrameHeader) (payload : Bytes) (taken : Bool) :
    Handled D s header.requestId taken (requestOf header payload) (s.handleFrame D header payload taken) := by
  unfold requestOf handleFrame
  by_cases hhello : header.messageType = AppMessageType.appHello.code
  · have happ : isAppMessageType header.messageType = true := by
      rw [hhello]
      decide
    rw [if_pos happ, if_pos hhello]
    unfold handleAppMessage
    rw [hhello]
    exact handleHello_handled D hclient header.requestId payload taken
  by_cases hreport : header.messageType = AppMessageType.appRouteReport.code
  · have happ : isAppMessageType header.messageType = true := by
      rw [hreport]
      decide
    rw [if_pos happ, if_neg hhello, if_pos hreport]
    unfold handleAppMessage
    rw [hreport]
    exact handleRouteReport_handled D hclient header.requestId payload taken
  rw [if_neg hhello, if_neg hreport]
  by_cases happ : isAppMessageType header.messageType = true
  · have hnone : SnapshotCommandType.ofCode? header.messageType = none := by
      cases hcode : SnapshotCommandType.ofCode? header.messageType with
      | none => rfl
      | some type => exact absurd happ (by rw [(command_apart hcode).1]; exact Bool.false_ne_true)
    rw [if_pos happ, hnone]
    unfold handleAppMessage
    cases hcode : AppMessageType.ofCode? header.messageType with
    | none => exact .refused
    | some type =>
      have hvalue := AppMessageType.code_of hcode
      cases type with
      | appHello => exact absurd hvalue hhello
      | appRouteReport => exact absurd hvalue hreport
      | appHelloAck => exact .refused
      | appRouteAck => exact .refused
      | appApplyResult => exact .refused
  · rw [if_neg happ]
    by_cases hcommand : isSnapshotCommandType header.messageType = true
    · rw [if_pos hcommand]
      exact handleSnapshotCommand_handled D hclient header payload taken
    · have hnone : SnapshotCommandType.ofCode? header.messageType = none := by
        cases hcode : SnapshotCommandType.ofCode? header.messageType with
        | none => rfl
        | some type => exact absurd (command_apart hcode).2 hcommand
      rw [if_neg hcommand, hnone]
      exact .refused

end AppEndpoint

/-! ## Runs -/

section Runs

variable {allowedPeer : PeerCredentials → Bool} {G : (δ → δ) → Prop} {D : AppDelegate δ} {d : δ} {s : AppEndpoint δ}

/-- a step that is not an event -/
theorem Logged.keep {t : AppEndpoint δ} (h : Logged allowedPeer G D d s) (hstate : t.state = s.state)
    (hsequence : t.replySequence = s.replySequence) (hclient : t.client = s.client ∨ t.client = none) (hlog : t.log = s.log)
    (hstats : Tally t.stats s.log) : Logged allowedPeer G D d t := by
  refine ⟨?_, fun connection hconnection => ?_, ?_, ?_⟩
  · rw [hstate, hsequence, hlog]
    exact h.state
  · rw [hlog]
    rcases hclient with hclient | hclient
    · exact h.client connection (hclient ▸ hconnection)
    · rw [hclient] at hconnection
      cases hconnection
  · rw [hlog]
    exact h.served
  · rw [hlog]
    exact hstats

theorem dropClient_logged (h : Logged allowedPeer G D d s) : Logged allowedPeer G D d s.dropClient :=
  h.keep rfl rfl (.inr rfl) rfl h.tally

theorem acceptPending_logged (h : Logged allowedPeer G D d s) (pending : Option (ℕ × Option PeerCredentials)) :
    Logged allowedPeer G D d (s.acceptPending allowedPeer pending) := by
  have hrejected : Logged allowedPeer G D d s.rejectPeer :=
    h.keep rfl rfl (.inl rfl) rfl ⟨h.tally.accepted, h.tally.refused, h.tally.answered, h.tally.sent⟩
  unfold AppEndpoint.acceptPending
  split_ifs
  · exact h
  · match pending with
    | none => exact h
    | some (_, none) => exact hrejected
    | some (connection, some peer) =>
      dsimp only
      split_ifs with hallowed
      · exact hrejected
      · have hallowed : allowedPeer peer = true := by simpa using hallowed
        refine ⟨h.state, fun c hc => ⟨peer, ?_⟩, ⟨hallowed, h.served⟩, h.tally.cons rfl rfl rfl rfl⟩
        obtain rfl := Option.some.inj hc
        rfl

/-- what a frame comes to is an event of the log -/
theorem handled_logged (h : Logged allowedPeer G D d s) {connection : ℕ} (hclient : s.client = some connection)
    {requestId : UInt64} {taken : Bool} {request : Option AppRequest} {p : AppEndpoint δ × Option (Bytes × Bool)}
    (hhandled : AppEndpoint.Handled D s requestId taken request p) {datagram : Bytes}
    (hrequest : requestIn datagram = request.map fun request => (requestId, request)) :
    Logged allowedPeer G D d { p.1 with log := .exchanged connection datagram p.2 :: p.1.log } := by
  have hpeer := h.client connection hclient
  have hstate := h.state
  cases hhandled with
  | refused =>
    refine ⟨?_, h.client, ⟨⟨hpeer, ?_⟩, h.served⟩, h.tally.cons rfl rfl rfl rfl⟩
    · show (s.state, s.replySequence) = D.advance (D.after d s.log) (.exchanged connection datagram none)
      rw [← hstate]
      simp only [AppDelegate.advance, hrequest, Option.map_none]
    · simp only [AppDelegate.Replies, hrequest, Option.map_none]
  | @unanswered request d' hanswer =>
    refine ⟨?_, h.client, ⟨⟨hpeer, ?_⟩, h.served⟩, h.tally.cons rfl rfl rfl rfl⟩
    · show (d', s.replySequence) = D.advance (D.after d s.log) (.exchanged connection datagram none)
      rw [← hstate]
      simp only [AppDelegate.advance, hrequest, Option.map_some, hanswer]
      rfl
    · show D.Replies (D.after d s.log) datagram none
      rw [← hstate]
      simp only [AppDelegate.Replies, hrequest, Option.map_some, hanswer]
  | @answered request d' type payload frame stats hanswer hframe hrefused haccepted hserved hsent =>
    refine ⟨?_, h.client, ⟨⟨hpeer, ?_⟩, h.served⟩, h.tally.cons haccepted hrefused hserved ?_⟩
    · show (d', s.replySequence + 1) = D.advance (D.after d s.log) (.exchanged connection datagram (some (frame, taken)))
      rw [← hstate]
      simp only [AppDelegate.advance, hrequest, Option.map_some, hanswer]
      rfl
    · show D.Replies (D.after d s.log) datagram (some (frame, taken))
      rw [← hstate]
      simp only [AppDelegate.Replies, hrequest, Option.map_some, hanswer]
      exact ⟨frame, taken, rfl, hframe⟩
    · rw [hsent]
      cases taken <;> rfl

/-- **One datagram, one event.** -/
theorem receive_logged (h : Logged allowedPeer G D d s) {connection : ℕ} (hclient : s.client = some connection)
    (datagram : Bytes) (taken : Bool) : Logged allowedPeer G D d (s.receive D connection datagram taken) := by
  have hsome : s.client.isSome = true := by
    rw [hclient]
    rfl
  unfold AppEndpoint.receive
  cases hdecode : decodeFrame datagram with
  | error e =>
    have hrefused : AppEndpoint.Handled D s 0 taken none (s.rejectFrame, none) := .refused
    refine handled_logged h hclient hrefused ?_
    simp only [requestIn, hdecode, Option.map_none]
  | ok frame =>
    obtain ⟨header, payload⟩ := frame
    refine handled_logged h hclient (AppEndpoint.handleFrame_handled D hsome header payload taken) ?_
    simp only [requestIn, hdecode]

theorem pollLoop_logged (attempts : ℕ) (received : List Received) {s : AppEndpoint δ} (h : Logged allowedPeer G D d s) :
    Logged allowedPeer G D d (s.pollLoop D attempts received) := by
  induction attempts generalizing received s with
  | zero => exact h
  | succ attempts ih =>
    cases received with
    | nil => exact h
    | cons r rest =>
      unfold AppEndpoint.pollLoop
      cases hclient : s.client with
      | none => exact h
      | some connection =>
        cases r with
        | interrupted => exact ih rest h
        | wouldBlock => exact h
        | failed => exact dropClient_logged h
        | datagram bytes taken =>
          dsimp only
          split_ifs
          · exact dropClient_logged h
          · exact ih rest (receive_logged h hclient _ taken)

theorem poll_logged (h : Logged allowedPeer G D d s) (maxMessages : ℕ) (input : PollInput) :
    Logged allowedPeer G D d (s.poll D allowedPeer maxMessages input) := by
  unfold AppEndpoint.poll
  split_ifs
  · exact h
  · exact pollLoop_logged maxMessages input.received (acceptPending_logged h input.pending)

theorem step_logged (h : Logged allowedPeer G D d s) {op : AppServerOp δ} (hop : op.Grants G) :
    Logged allowedPeer G D d (appServerStep allowedPeer D s op) := by
  cases op with
  | listen bound => exact h.keep rfl rfl (.inl rfl) rfl h.tally
  | close => exact h.keep rfl rfl (.inr rfl) rfl h.tally
  | poll maxMessages input => exact poll_logged h maxMessages input
  | other f =>
    refine ⟨?_, h.client, ⟨hop, h.served⟩, h.tally.cons rfl rfl rfl rfl⟩
    show (f s.state, s.replySequence) = D.advance (D.after d s.log) _
    rw [← h.state]
    rfl

theorem run_logged (h : Logged allowedPeer G D d s) {ops : List (AppServerOp δ)} (hops : ∀ op ∈ ops, op.Grants G) :
    Logged allowedPeer G D d (appServerRun allowedPeer D s ops) := by
  induction ops generalizing s with
  | nil => exact h
  | cons op ops ih =>
    exact ih (step_logged h (hops op List.mem_cons_self)) fun op' hop' => hops op' (List.mem_cons_of_mem _ hop')

theorem start_logged (d : δ) (listening : Bool) : Logged allowedPeer G D d { state := d, listening } :=
  ⟨rfl, fun _ hc => absurd hc (Option.some_ne_none _).symm, trivial, ⟨rfl, rfl, rfl, rfl⟩⟩

/-- what the requests and the rest keep of the delegate holds at every point of the log, and what grows under them has grown
since -/
theorem Logged.leads (h : Logged allowedPeer G D d s) {I : δ → Prop} {α : Type} {m : δ → List α}
    (hanswer : ∀ datagram requestId request, requestIn datagram = some (requestId, request) → ∀ d, I d →
      I (D.answer request d).2 ∧ m d <:+ m (D.answer request d).2)
    (hother : ∀ f, G f → ∀ d, I d → I (f d) ∧ m d <:+ m (f d)) (hd : I d) {newer past : List (AppEvent δ)}
    (hlog : s.log = newer ++ past) : I (D.after d past).1 ∧ m (D.after d past).1 <:+ m (D.after d s.log).1 := by
  have hstep : ∀ past e, Served allowedPeer G D d past e → I (D.after d past).1 →
      I (D.after d (e :: past)).1 ∧ m (D.after d past).1 <:+ m (D.after d (e :: past)).1 := by
    intro past e he hpast
    cases e with
    | accepted connection peer => exact ⟨hpast, List.suffix_rfl⟩
    | exchanged connection datagram reply =>
      show I (D.advance (D.after d past) _).1 ∧ _ <:+ m (D.advance (D.after d past) _).1
      unfold AppDelegate.advance
      dsimp only
      cases hrequest : requestIn datagram with
      | none => exact ⟨hpast, List.suffix_rfl⟩
      | some p => exact hanswer datagram p.1 p.2 hrequest _ hpast
    | other f => exact hother f he _ hpast
  have hall : ∀ log, Along (Served allowedPeer G D d) log → I (D.after d log).1 := by
    intro log hlog
    induction log with
    | nil => exact hd
    | cons e past ih => exact (hstep past e hlog.1 (ih hlog.2)).1
  have hserved := h.served
  rw [hlog] at hserved ⊢
  refine ⟨hall past hserved.suffix, ?_⟩
  clear hlog
  induction newer with
  | nil => exact List.suffix_rfl
  | cons e newer ih => exact (ih hserved.2).trans (hstep _ e hserved.1 (hall _ hserved.2)).2

end Runs

/-- **One reply for each request.** In every run of the App endpoint, over every delegate: what was read over a connection came
from the peer that was let in last, and that peer is allowed; a request takes the delegate one step, and the one frame that is
sent for it carries the answer under the id of the request and the number of the answer, unless the answer cannot be encoded;
whatever is no request neither touches the delegate nor is answered. -/
theorem one_reply_per_request (allowedPeer : PeerCredentials → Bool) (D : AppDelegate δ) (d : δ)
    (ops : List (AppServerOp δ)) :
    let s := appServerRun allowedPeer D { state := d } ops
    (s.state, s.replySequence) = D.after d s.log ∧ Tally s.stats s.log ∧
      (∀ connection peer, .accepted connection peer ∈ s.log → allowedPeer peer = true) ∧
      ∀ newer connection datagram reply past, s.log = newer ++ .exchanged connection datagram reply :: past →
        (∃ peer, lastAccepted past = some (connection, peer)) ∧ D.Replies (D.after d past) datagram reply := by
  intro s
  have hs : Logged allowedPeer (fun _ => True) D d s :=
    run_logged (start_logged d false) fun op _ => by cases op <;> trivial
  refine ⟨hs.state, hs.tally, fun connection peer hentry => ?_, fun newer connection datagram reply past hlog => ?_⟩
  · obtain ⟨newer, past, hlog⟩ := List.append_of_mem hentry
    have hserved := hs.served
    rw [hlog] at hserved
    exact hserved.cut
  · have hserved := hs.served
    rw [hlog] at hserved
    exact hserved.cut

end ViperFx.Daemon
