/-
The supervisor of the owner process: `daemon/OwnerSupervisor.cpp`.

The daemon wants one process to hold the session-0 effect. `poll` spawns it, times its handshake and replaces it; the
other functions record what the owner reports over its socket. Deadlines are points of the clock that the caller of
`poll` advances, in nanoseconds. What the process adapter answers (`Spawn`, `IsAlive`) is part of the event, so a run
ranges over every adapter. A run is logged with the calls the supervisor made to the adapter.

Results:
  · poll_polled             : everything one poll can do
  · kills_own_children      : where every connection of an own child is its own, only own children are killed
  · handshake_window_kept   : where every release finds its window armed, no owner is given up before its time
  · spawn_budget_kept       : the spawn budget, the spacing of spawns and the states that spawn, over every run
-/
import ViperFx.Core.Log

namespace ViperFx.Daemon

open ViperFx.Core

/-! ## Data -/

/-- a point of the caller's clock, in nanoseconds -/
abbrev TimePoint := ℤ

inductive OwnerState where
  | absent
  | starting
  | owned
  | failed
  deriving DecidableEq

structure Owned where
  effectId : UInt32
  hasControl : Bool
  deriving DecidableEq

structure OwnerFailed where
  reasonCode : UInt32
  deriving DecidableEq

structure SessionDelta where
  audioSessionId : UInt32
  clientUid : UInt32
  appeared : Bool
  deriving DecidableEq

def sessionKey (delta : SessionDelta) : UInt64 :=
  delta.audioSessionId.toUInt64 <<< 32 ||| delta.clientUid.toUInt64

/-- a call to the process adapter, with what the adapter answered -/
inductive AdapterCall where
  | spawn (pid : ℤ)
  | isAlive (pid : ℤ) (alive : Bool)
  | kill (pid : ℤ)
  deriving DecidableEq

def kHandshakeTimeout : ℤ := 4000 * 1000000

def kSpawnRetryDelay : ℤ := 2000 * 1000000

def kMaxSpawnAttempts : ℕ := 3

structure OwnerSupervisor where
  state : OwnerState := .absent
  pid : ℤ := 0
  pidIsOurs : Bool := false
  effectId : UInt32 := 0
  hasControl : Bool := false
  restarts : ℕ := 0
  spawnFailures : ℕ := 0
  lastFailureReason : UInt32 := 0
  spawnAttempts : ℕ := 0
  nextSpawnAttempt : TimePoint := 0
  handshakeDeadline : TimePoint := 0
  respawnBackoffPending : Bool := false
  handshakeArmPending : Bool := false
  trackedSessions : Finset UInt64 := ∅
  deriving DecidableEq

namespace OwnerSupervisor

/-! ## Operations -/

def resetOwnerObservations (s : OwnerSupervisor) : OwnerSupervisor :=
  { s with effectId := 0, hasControl := false, trackedSessions := ∅ }

def killIfSpawned (s : OwnerSupervisor) : OwnerSupervisor × List AdapterCall :=
  ({ s with pid := 0, pidIsOurs := false }, if 0 < s.pid ∧ s.pidIsOurs then [.kill s.pid] else [])

/-- the two deferred deadlines, taken from the clock of this poll -/
def armDeadlines (now : TimePoint) (s : OwnerSupervisor) : OwnerSupervisor :=
  { s with
    handshakeArmPending := false
    handshakeDeadline := if s.handshakeArmPending then now + kHandshakeTimeout else s.handshakeDeadline
    respawnBackoffPending := false
    nextSpawnAttempt := if s.respawnBackoffPending then now + kSpawnRetryDelay else s.nextSpawnAttempt }

/-- the branch of `poll` for an owner whose handshake timed out -/
def giveUp (now : TimePoint) (s : OwnerSupervisor) : OwnerSupervisor × List AdapterCall :=
  let (t, calls) := s.killIfSpawned
  ({ t.resetOwnerObservations with
      restarts := t.restarts + 1, state := .absent, nextSpawnAttempt := now + kSpawnRetryDelay }, calls)

/-- the branch of `poll` without an owner; `spawned` is what `Spawn` answers if it is called -/
def trySpawn (now : TimePoint) (spawned : ℤ) (s : OwnerSupervisor) : OwnerSupervisor × List AdapterCall :=
  if now < s.nextSpawnAttempt then (s, [])
  else if kMaxSpawnAttempts ≤ s.spawnAttempts then ({ s with state := .failed }, [])
  else
    let attempts := s.spawnAttempts + 1
    if spawned ≤ 0 then
      ({ s with
          spawnAttempts := attempts, spawnFailures := s.spawnFailures + 1
          nextSpawnAttempt := now + kSpawnRetryDelay
          state := if kMaxSpawnAttempts ≤ attempts then .failed else s.state }, [.spawn spawned])
    else
      ({ s with
          spawnAttempts := attempts, pid := spawned, pidIsOurs := true, state := .starting
          handshakeDeadline := now + kHandshakeTimeout }, [.spawn spawned])

/-- the branch of `poll` for an ownership that is switched off -/
def switchOff (s : OwnerSupervisor) : OwnerSupervisor × List AdapterCall :=
  if s.state ≠ .absent then
    let (t, calls) := s.killIfSpawned
    ({ t.resetOwnerObservations with
        state := .absent, spawnAttempts := 0, nextSpawnAttempt := 0, handshakeDeadline := 0
        respawnBackoffPending := false }, calls)
  else ({ s with respawnBackoffPending := false }, [])

def poll (shouldOwn : Bool) (now : TimePoint) (spawned : ℤ) (s : OwnerSupervisor) :
    OwnerSupervisor × List AdapterCall :=
  if !shouldOwn then s.switchOff
  else
    let s := s.armDeadlines now
    match s.state with
    | .owned | .failed => (s, [])
    | .starting => if now < s.handshakeDeadline then (s, []) else s.giveUp now
    | .absent => s.trySpawn now spawned

def onConnected (pid : ℤ) (s : OwnerSupervisor) : OwnerSupervisor :=
  let s' := { s with pid, pidIsOurs := if s.state = .absent then false else s.pidIsOurs }
  if s.state ≠ .owned then { s' with state := .starting, handshakeArmPending := true } else s'

/-- `alive` is what `IsAlive` answers if it is called -/
def seedSurvivingOwner (pid : ℤ) (alive : Bool) (s : OwnerSupervisor) : OwnerSupervisor × List AdapterCall :=
  if s.state ≠ .absent then (s, [])
  else if pid ≤ 0 then (s, [])
  else if !alive then (s, [.isAlive pid alive])
  else ({ s with pid, pidIsOurs := false, state := .starting, handshakeArmPending := true }, [.isAlive pid alive])

def onOwned (owned : Owned) (s : OwnerSupervisor) : OwnerSupervisor :=
  { s with
    effectId := owned.effectId, hasControl := owned.hasControl, lastFailureReason := 0, state := .owned
    spawnAttempts := 0, handshakeDeadline := 0 }

def onOwnerFailed (failed : OwnerFailed) (s : OwnerSupervisor) : OwnerSupervisor :=
  { s with
    lastFailureReason := failed.reasonCode, effectId := 0, hasControl := false, state := .failed
    handshakeDeadline := 0 }

def onReleased (s : OwnerSupervisor) : OwnerSupervisor :=
  { s.resetOwnerObservations with state := if s.state = .owned then .starting else s.state }

def onSessionDelta (delta : SessionDelta) (s : OwnerSupervisor) : OwnerSupervisor :=
  if delta.appeared then { s with trackedSessions := insert (sessionKey delta) s.trackedSessions }
  else { s with trackedSessions := s.trackedSessions.erase (sessionKey delta) }

def onDisconnected (s : OwnerSupervisor) : OwnerSupervisor :=
  { s.resetOwnerObservations with
    restarts := if s.state = .owned ∨ s.state = .starting then s.restarts + 1 else s.restarts
    pid := 0, pidIsOurs := false, state := .absent, handshakeDeadline := 0, respawnBackoffPending := true }

end OwnerSupervisor

/-! ## Runs -/

/-- the calls of the daemon to its supervisor, with what the adapter answers to each -/
inductive OwnerEvent where
  | poll (shouldOwn : Bool) (now : TimePoint) (spawned : ℤ)
  | connected (pid : ℤ)
  | seed (pid : ℤ) (alive : Bool)
  | owned (owned : Owned)
  | ownerFailed (failed : OwnerFailed)
  | released
  | sessionDelta (delta : SessionDelta)
  | disconnected
  deriving DecidableEq

namespace OwnerEvent

/-- the clock of a poll -/
def clock : OwnerEvent → Option TimePoint
  | .poll _ now _ => some now
  | _ => none

/-- the clock of a poll that wants an owner -/
def wanted : OwnerEvent → Option TimePoint
  | .poll true now _ => some now
  | _ => none

/-- a poll that wants no owner -/
def isOff : OwnerEvent → Bool
  | .poll false _ _ => true
  | _ => false

end OwnerEvent

def supervise (s : OwnerSupervisor) : OwnerEvent → OwnerSupervisor × List AdapterCall
  | .poll shouldOwn now spawned => s.poll shouldOwn now spawned
  | .connected pid => (s.onConnected pid, [])
  | .seed pid alive => s.seedSurvivingOwner pid alive
  | .owned owned => (s.onOwned owned, [])
  | .ownerFailed failed => (s.onOwnerFailed failed, [])
  | .released => (s.onReleased, [])
  | .sessionDelta delta => (s.onSessionDelta delta, [])
  | .disconnected => (s.onDisconnected, [])

abbrev OwnerEntry := Entry OwnerSupervisor OwnerEvent (List AdapterCall)

/-- the log of a run of a new supervisor, newest entry first -/
def supervision (events : List OwnerEvent) : List OwnerEntry := logFrom supervise {} [] events

/-- everything one poll can do -/
inductive Polled (s : OwnerSupervisor) (now : TimePoint) (spawned : ℤ) :
    Bool → OwnerSupervisor → List AdapterCall → Prop
  | off (hstate : s.state ≠ .absent) : Polled s now spawned false s.switchOff.1 s.killIfSpawned.2
  | stillOff (hstate : s.state = .absent) : Polled s now spawned false { s with respawnBackoffPending := false } []
  | settled (hstate : s.state = .owned ∨ s.state = .failed) : Polled s now spawned true (s.armDeadlines now) []
  | waiting (hstate : s.state = .starting) (htime : now < (s.armDeadlines now).handshakeDeadline) :
      Polled s now spawned true (s.armDeadlines now) []
  | gaveUp (hstate : s.state = .starting) (htime : (s.armDeadlines now).handshakeDeadline ≤ now) :
      Polled s now spawned true ((s.armDeadlines now).giveUp now).1 s.killIfSpawned.2
  | delayed (hstate : s.state = .absent) (htime : now < (s.armDeadlines now).nextSpawnAttempt) :
      Polled s now spawned true (s.armDeadlines now) []
  | exhausted (hstate : s.state = .absent) (hspent : kMaxSpawnAttempts ≤ s.spawnAttempts) :
      Polled s now spawned true { s.armDeadlines now with state := .failed } []
  | refused (hstate : s.state = .absent) (htime : (s.armDeadlines now).nextSpawnAttempt ≤ now)
      (hleft : s.spawnAttempts < kMaxSpawnAttempts) (hpid : spawned ≤ 0) (t : OwnerSupervisor)
      (hnext : t.nextSpawnAttempt = now + kSpawnRetryDelay)
      (hattempts : t.spawnAttempts = s.spawnAttempts + 1) (hafter : t.state = .failed ∨ t.state = .absent)
      (hours : t.pidIsOurs = s.pidIsOurs) (hsame : t.pid = s.pid) :
      Polled s now spawned true t [.spawn spawned]
  | spawned (hstate : s.state = .absent) (htime : (s.armDeadlines now).nextSpawnAttempt ≤ now)
      (hleft : s.spawnAttempts < kMaxSpawnAttempts) (hpid : 0 < spawned) :
      Polled s now spawned true
        { s.armDeadlines now with
          spawnAttempts := s.spawnAttempts + 1, pid := spawned, pidIsOurs := true, state := .starting
          handshakeDeadline := now + kHandshakeTimeout }
        [.spawn spawned]

theorem poll_polled (s : OwnerSupervisor) (shouldOwn : Bool) (now : TimePoint) (spawned : ℤ) :
    Polled s now spawned shouldOwn (s.poll shouldOwn now spawned).1 (s.poll shouldOwn now spawned).2 := by
  cases shouldOwn with
  | false =>
    by_cases hstate : s.state = .absent
    · have hpoll : s.poll false now spawned = ({ s with respawnBackoffPending := false }, []) := by
        simp [OwnerSupervisor.poll, OwnerSupervisor.switchOff, hstate]
      rw [hpoll]
      exact .stillOff hstate
    · have hpoll : s.poll false now spawned = (s.switchOff.1, s.killIfSpawned.2) := by
        simp [OwnerSupervisor.poll, OwnerSupervisor.switchOff, hstate]
      rw [hpoll]
      exact .off hstate
  | true =>
    have harmed : (s.armDeadlines now).state = s.state := rfl
    cases hstate : s.state with
    | owned =>
      have hpoll : s.poll true now spawned = (s.armDeadlines now, []) := by
        simp [OwnerSupervisor.poll, harmed, hstate]
      rw [hpoll]
      exact .settled (.inl hstate)
    | failed =>
      have hpoll : s.poll true now spawned = (s.armDeadlines now, []) := by
        simp [OwnerSupervisor.poll, harmed, hstate]
      rw [hpoll]
      exact .settled (.inr hstate)
    | starting =>
      by_cases htime : now < (s.armDeadlines now).handshakeDeadline
      · have hpoll : s.poll true now spawned = (s.armDeadlines now, []) := by
          simp [OwnerSupervisor.poll, harmed, hstate, htime]
        rw [hpoll]
        exact .waiting hstate htime
      · have hpoll : s.poll true now spawned = (s.armDeadlines now).giveUp now := by
          simp [OwnerSupervisor.poll, harmed, hstate, htime]
        rw [hpoll]
        exact .gaveUp hstate (not_lt.mp htime)
    | absent =>
      have hpoll : s.poll true now spawned = (s.armDeadlines now).trySpawn now spawned := by
        simp [OwnerSupervisor.poll, harmed, hstate]
      have hattempts : (s.armDeadlines now).spawnAttempts = s.spawnAttempts := rfl
      rw [hpoll, OwnerSupervisor.trySpawn]
      split_ifs with htime hspent hpid
      · exact .delayed hstate htime
      · exact .exhausted hstate hspent
      · refine .refused hstate (not_lt.mp htime) (not_le.mp hspent) hpid _ rfl rfl ?_ rfl rfl
        simp only [harmed, hstate]
        split_ifs
        · exact .inl rfl
        · exact .inr rfl
      · exact .spawned hstate (not_lt.mp htime) (not_le.mp hspent) (not_le.mp hpid)

/-! ## Kills -/

def AdapterCall.killed : AdapterCall → Option ℤ
  | .kill pid => some pid
  | _ => none

def AdapterCall.spawnedPid : AdapterCall → Option ℤ
  | .spawn pid => some pid
  | _ => none

/-- the pids an entry passes to `Kill` -/
def kills (entry : OwnerEntry) : List ℤ := entry.output.filterMap AdapterCall.killed

/-- the answers an entry gets from `Spawn` -/
def spawns (entry : OwnerEntry) : List ℤ := entry.output.filterMap AdapterCall.spawnedPid

/-- the pid was returned by a `Spawn` and has since neither been passed to `Kill` nor reported gone -/
def Outstanding : List OwnerEntry → ℤ → Prop
  | [], _ => False
  | entry :: past, pid =>
    pid ∈ spawns entry ∨
      (pid ∉ kills entry ∧ ¬ (entry.event = .disconnected ∧ entry.before.pid = pid) ∧ Outstanding past pid)

instance decidableOutstanding : (log : List OwnerEntry) → (pid : ℤ) → Decidable (Outstanding log pid)
  | [], _ => .isFalse id
  | entry :: past, pid =>
    have := decidableOutstanding past pid
    inferInstanceAs (Decidable (pid ∈ spawns entry ∨
      (pid ∉ kills entry ∧ ¬ (entry.event = .disconnected ∧ entry.before.pid = pid) ∧ Outstanding past pid)))

/-- what the entry kills is an outstanding child -/
def KillsOwnChild (past : List OwnerEntry) (entry : OwnerEntry) : Prop := ∀ pid ∈ kills entry, Outstanding past pid

/-- the pid a connecting owner reports -/
def OwnerEvent.reportedPid : OwnerEvent → Option ℤ
  | .connected pid => some pid
  | _ => none

/-- an owner that connects in the place of an own child reports the pid of an own child, or none -/
def ConnectsOwnChild (past : List OwnerEntry) (entry : OwnerEntry) : Prop :=
  ∀ pid ∈ entry.event.reportedPid, entry.before.pidIsOurs = true → 0 < pid → Outstanding past pid

instance (past : List OwnerEntry) (entry : OwnerEntry) : Decidable (KillsOwnChild past entry) :=
  inferInstanceAs (Decidable (∀ pid ∈ kills entry, Outstanding past pid))

instance (past : List OwnerEntry) (entry : OwnerEntry) : Decidable (ConnectsOwnChild past entry) :=
  inferInstanceAs (Decidable
    (∀ pid ∈ entry.event.reportedPid, entry.before.pidIsOurs = true → 0 < pid → Outstanding past pid))

/-- the pid the supervisor takes for its own child is one -/
def PidIsChild (s : OwnerSupervisor) (past : List OwnerEntry) : Prop :=
  s.pidIsOurs = true → 0 < s.pid → Outstanding past s.pid

theorem mem_kills_killIfSpawned {s : OwnerSupervisor} {pid : ℤ}
    (h : pid ∈ s.killIfSpawned.2.filterMap AdapterCall.killed) : pid = s.pid ∧ 0 < s.pid ∧ s.pidIsOurs = true := by
  unfold OwnerSupervisor.killIfSpawned at h
  split_ifs at h with hours
  · simpa [AdapterCall.killed, hours] using h
  · simp at h

/-- an entry without a kill keeps what is outstanding, unless it reports the pid gone -/
theorem Outstanding.keep {past : List OwnerEntry} {entry : OwnerEntry} {pid : ℤ} (h : Outstanding past pid)
    (hkills : kills entry = []) (hgone : entry.event ≠ .disconnected) : Outstanding (entry :: past) pid :=
  .inr ⟨by simp [hkills], fun hd => hgone hd.1, h⟩

theorem polled_kills {s t : OwnerSupervisor} {now : TimePoint} {spawned : ℤ} {shouldOwn : Bool}
    {calls : List AdapterCall} {past : List OwnerEntry} (hp : Polled s now spawned shouldOwn t calls)
    (h : PidIsChild s past) :
    PidIsChild t (⟨s, .poll shouldOwn now spawned, calls, t⟩ :: past) ∧
      KillsOwnChild past ⟨s, .poll shouldOwn now spawned, calls, t⟩ := by
  have hchild : ∀ pid ∈ s.killIfSpawned.2.filterMap AdapterCall.killed, Outstanding past pid := by
    intro pid hpid
    obtain ⟨rfl, hpos, hours⟩ := mem_kills_killIfSpawned hpid
    exact h hours hpos
  cases hp with
  | off hstate =>
    refine ⟨fun hours => ?_, hchild⟩
    simp [OwnerSupervisor.switchOff, hstate, OwnerSupervisor.killIfSpawned,
      OwnerSupervisor.resetOwnerObservations] at hours
  | gaveUp => exact ⟨(fun hours => by cases hours), hchild⟩
  | stillOff | settled | waiting | delayed | exhausted =>
    exact ⟨fun hours hpos => (h hours hpos).keep rfl (by simp), by simp [KillsOwnChild, kills]⟩
  | refused hstate htime hleft hpid _ hnext hattempts hafter hours hsame =>
    refine ⟨fun ho hpos => ?_, by simp [KillsOwnChild, kills, AdapterCall.killed]⟩
    rw [hours] at ho
    rw [hsame] at hpos ⊢
    exact (h ho hpos).keep rfl (by simp)
  | spawned =>
    refine ⟨fun _ _ => .inl ?_, by simp [KillsOwnChild, kills, AdapterCall.killed]⟩
    simp [spawns, AdapterCall.spawnedPid]

/-- one step: a kill is of an outstanding child, and the tracked pid stays one -/
theorem supervise_kills (s : OwnerSupervisor) (past : List OwnerEntry) (e : OwnerEvent) (h : PidIsChild s past)
    (hconnect : ConnectsOwnChild past (entryOf supervise s e)) :
    PidIsChild (supervise s e).1 (entryOf supervise s e :: past) ∧ KillsOwnChild past (entryOf supervise s e) := by
  cases e with
  | poll shouldOwn now spawned => exact polled_kills (poll_polled s shouldOwn now spawned) h
  | connected pid =>
    refine ⟨fun hours hpos => ?_, by simp [KillsOwnChild, kills, entryOf, supervise]⟩
    have hpid : (s.onConnected pid).pid = pid := by
      unfold OwnerSupervisor.onConnected
      split_ifs <;> rfl
    have hbefore : s.pidIsOurs = true := by
      by_contra hnot
      simp only [supervise, OwnerSupervisor.onConnected] at hours
      split_ifs at hours <;> exact hnot hours
    simp only [supervise, hpid] at hpos ⊢
    exact (hconnect pid rfl hbefore hpos).keep (by simp [kills, entryOf, supervise]) (by simp [entryOf])
  | seed pid alive =>
    have hkills : kills (entryOf supervise s (.seed pid alive)) = [] := by
      simp only [kills, entryOf, supervise, OwnerSupervisor.seedSurvivingOwner]
      split_ifs <;> rfl
    refine ⟨fun hours hpos => ?_, by simp [KillsOwnChild, hkills]⟩
    have hsame : (s.seedSurvivingOwner pid alive).1 = s := by
      simp only [supervise, OwnerSupervisor.seedSurvivingOwner] at hours ⊢
      split_ifs at hours ⊢ <;> simp_all
    simp only [supervise, hsame] at hours hpos ⊢
    exact (h hours hpos).keep hkills (by simp [entryOf])
  | disconnected => exact ⟨(fun hours => by cases hours), by simp [KillsOwnChild, kills, entryOf, supervise]⟩
  | owned m | ownerFailed m | released =>
    exact ⟨fun hours hpos => (h hours hpos).keep rfl (by simp [entryOf]), by
      simp [KillsOwnChild, kills, entryOf, supervise]⟩
  | sessionDelta delta =>
    refine ⟨fun hours hpos => ?_, by simp [KillsOwnChild, kills, entryOf, supervise]⟩
    have hpid : (s.onSessionDelta delta).pid = s.pid ∧ (s.onSessionDelta delta).pidIsOurs = s.pidIsOurs := by
      unfold OwnerSupervisor.onSessionDelta
      split_ifs <;> exact ⟨rfl, rfl⟩
    simp only [supervise, hpid.1, hpid.2] at hours hpos ⊢
    exact (h hours hpos).keep (by simp [kills, entryOf, supervise]) (by simp [entryOf])

/-- **Only own children are killed**, in every run in which an owner that connects while the supervisor tracks its own
child is an own child, whatever the adapter answers. -/
theorem kills_own_children (events : List OwnerEvent) (h : Along ConnectsOwnChild (supervision events)) :
    Along KillsOwnChild (supervision events) :=
  along_logFrom supervise supervise_kills events (by simp [PidIsChild]) trivial h

/-- a child that is spawned, connects, never answers and is killed -/
theorem silent_child_is_killed :
    Along KillsOwnChild (supervision [.poll true 0 1000, .connected 1000, .poll true 5000000000 0,
      .poll true 10000000000 0]) ∧
    (supervision [.poll true 0 1000, .connected 1000, .poll true 5000000000 0,
      .poll true 10000000000 0]).flatMap kills = [1000] :=
  ⟨kills_own_children _ (by decide), by decide⟩

/-- **A stranger is killed.** An owner of pid 31337 connects while child 1000 starts, and is killed in its place. -/
theorem stranger_is_killed :
    ¬ Along KillsOwnChild (supervision [.poll true 0 1000, .connected 31337, .poll true 1000000000 0,
      .poll true 6000000000 0]) := by
  decide

/-! ## The handshake window -/

/-- the clock of a poll is not behind that of an earlier one -/
def Nondecreasing (past : List OwnerEntry) (entry : OwnerEntry) : Prop :=
  ∀ now ∈ entry.event.clock, ∀ earlier ∈ past, ∀ t ∈ earlier.event.clock, t ≤ now

instance (past : List OwnerEntry) (entry : OwnerEntry) : Decidable (Nondecreasing past entry) :=
  inferInstanceAs (Decidable (∀ now ∈ entry.event.clock, ∀ earlier ∈ past, ∀ t ∈ earlier.event.clock, t ≤ now))

/-- when the window of the starting owner opened: with its spawn, or with the first poll that wanted an owner since it
is starting -/
def windowOpened : List OwnerEntry → Option TimePoint
  | [] => none
  | entry :: past =>
    if entry.after.state ≠ .starting then none
    else if entry.before.state ≠ .starting then
      if spawns entry ≠ [] then entry.event.wanted else none
    else (windowOpened past).or entry.event.wanted

/-- an owner that a poll kills or gives up has had its whole window -/
def GetsWindow (past : List OwnerEntry) (entry : OwnerEntry) : Prop :=
  ∀ now ∈ entry.event.wanted, entry.before.state = .starting →
    entry.after.state ≠ .starting ∨ kills entry ≠ [] →
      ∃ opened ∈ windowOpened past, opened + kHandshakeTimeout ≤ now

instance (past : List OwnerEntry) (entry : OwnerEntry) : Decidable (GetsWindow past entry) :=
  inferInstanceAs (Decidable (∀ now ∈ entry.event.wanted, entry.before.state = .starting →
    entry.after.state ≠ .starting ∨ kills entry ≠ [] →
      ∃ opened ∈ windowOpened past, opened + kHandshakeTimeout ≤ now))

/-- a release that puts an owner back to starting finds its window about to be armed -/
def ReleasedArmed (_past : List OwnerEntry) (entry : OwnerEntry) : Prop :=
  entry.event = .released → entry.before.state = .owned → entry.before.handshakeArmPending = true

instance (past : List OwnerEntry) (entry : OwnerEntry) : Decidable (ReleasedArmed past entry) :=
  inferInstanceAs (Decidable
    (entry.event = .released → entry.before.state = .owned → entry.before.handshakeArmPending = true))

theorem OwnerEvent.clock_of_wanted {e : OwnerEvent} {t : TimePoint} (h : t ∈ e.wanted) : e.clock = some t := by
  cases e with
  | poll shouldOwn now spawned =>
    cases shouldOwn
    · cases h
    · exact h
  | _ => cases h

/-- a window opens at the clock of a poll of the run -/
theorem windowOpened_seen {log : List OwnerEntry} {opened : TimePoint} (h : opened ∈ windowOpened log) :
    ∃ entry ∈ log, entry.event.clock = some opened := by
  induction log with
  | nil => cases h
  | cons entry past ih =>
    have hhere : opened ∈ entry.event.wanted → ∃ e ∈ entry :: past, e.event.clock = some opened := fun hw =>
      ⟨entry, List.mem_cons_self, OwnerEvent.clock_of_wanted hw⟩
    unfold windowOpened at h
    split_ifs at h with hafter hbefore hspawn
    · cases h
    · exact hhere h
    · cases h
    · rcases Option.or_eq_some_iff.mp h with hp | ⟨-, hw⟩
      · obtain ⟨e, he, hclock⟩ := ih hp
        exact ⟨e, List.mem_cons_of_mem _ he, hclock⟩
      · exact hhere hw

/-- a window stays open while its owner is starting -/
theorem windowOpened_stays {past : List OwnerEntry} {entry : OwnerEntry} {opened : TimePoint}
    (h : opened ∈ windowOpened past) (hbefore : entry.before.state = .starting)
    (hafter : entry.after.state = .starting) : opened ∈ windowOpened (entry :: past) := by
  have hpast : windowOpened past = some opened := h
  simp [windowOpened, hbefore, hafter, hpast]

/-- the deadline of a starting owner leaves it its whole window -/
def Windowed (s : OwnerSupervisor) (past : List OwnerEntry) : Prop :=
  s.state = .starting → s.handshakeArmPending = true ∨
    ∃ opened ∈ windowOpened past, opened + kHandshakeTimeout ≤ s.handshakeDeadline

/-- an event that leaves owner and deadline alone leaves the window alone -/
theorem Windowed.keep {s t : OwnerSupervisor} {past : List OwnerEntry} {e : OwnerEvent} {calls : List AdapterCall}
    (h : Windowed s past) (hstate : t.state = .starting → s.state = .starting)
    (harm : t.handshakeArmPending = s.handshakeArmPending) (hdeadline : t.handshakeDeadline = s.handshakeDeadline) :
    Windowed t (⟨s, e, calls, t⟩ :: past) := by
  intro hstarting
  rcases h (hstate hstarting) with hpending | ⟨opened, ho, hle⟩
  · exact .inl (harm.trans hpending)
  · exact .inr ⟨opened, windowOpened_stays ho (hstate hstarting) hstarting, hdeadline ▸ hle⟩

/-- a starting owner that a poll leaves waiting has an open window behind its deadline -/
theorem Windowed.armed {s : OwnerSupervisor} {past : List OwnerEntry} {now : TimePoint} {spawned : ℤ}
    {calls : List AdapterCall} (h : Windowed s past) (hstate : s.state = .starting)
    (hclock : Nondecreasing past ⟨s, .poll true now spawned, calls, s.armDeadlines now⟩) :
    ∃ opened ∈ windowOpened (⟨s, .poll true now spawned, calls, s.armDeadlines now⟩ :: past),
      opened + kHandshakeTimeout ≤ (s.armDeadlines now).handshakeDeadline := by
  have hafter : (s.armDeadlines now).state = .starting := hstate
  by_cases hpending : s.handshakeArmPending = true
  · have hdeadline : (s.armDeadlines now).handshakeDeadline = now + kHandshakeTimeout := by
      simp [OwnerSupervisor.armDeadlines, hpending]
    rw [hdeadline]
    cases hopened : windowOpened past with
    | some opened =>
      obtain ⟨entry, hmem, hseen⟩ := windowOpened_seen hopened
      have hle : opened ≤ now := hclock now rfl entry hmem opened hseen
      exact ⟨opened, windowOpened_stays hopened hstate hafter, Int.add_le_add_right hle _⟩
    | none => exact ⟨now, by simp [windowOpened, hstate, hafter, hopened, OwnerEvent.wanted], le_rfl⟩
  · have hdeadline : (s.armDeadlines now).handshakeDeadline = s.handshakeDeadline := by
      simp [OwnerSupervisor.armDeadlines, hpending]
    obtain ⟨opened, ho, hle⟩ := (h hstate).resolve_left hpending
    exact ⟨opened, windowOpened_stays ho hstate hafter, hdeadline ▸ hle⟩

theorem polled_window {s t : OwnerSupervisor} {now : TimePoint} {spawned : ℤ} {shouldOwn : Bool}
    {calls : List AdapterCall} {past : List OwnerEntry} (hp : Polled s now spawned shouldOwn t calls)
    (h : Windowed s past) (hclock : Nondecreasing past ⟨s, .poll shouldOwn now spawned, calls, t⟩) :
    Windowed t (⟨s, .poll shouldOwn now spawned, calls, t⟩ :: past) ∧
      GetsWindow past ⟨s, .poll shouldOwn now spawned, calls, t⟩ := by
  cases hp with
  | off hstate =>
    refine ⟨fun hs => ?_, fun now hw => by cases hw⟩
    simp [OwnerSupervisor.switchOff, hstate] at hs
  | stillOff hstate =>
    refine ⟨fun hs => ?_, fun now hw => by cases hw⟩
    rw [hstate] at hs
    cases hs
  | settled hstate =>
    have hne : s.state ≠ .starting := by rcases hstate with hs | hs <;> simp [hs]
    exact ⟨fun hs => absurd hs hne, fun _ _ hs => absurd hs hne⟩
  | waiting hstate htime =>
    refine ⟨fun _ => .inr (h.armed hstate hclock), fun _ _ _ hgone => ?_⟩
    rcases hgone with hafter | hkills
    · exact absurd hstate hafter
    · exact absurd rfl hkills
  | gaveUp hstate htime =>
    refine ⟨(fun hs => by cases hs), fun now' hw _ _ => ?_⟩
    cases hw
    -- the window was armed before this poll, otherwise the deadline would be ahead of the clock
    have hnot : s.handshakeArmPending ≠ true := by
      intro hpending
      simp [OwnerSupervisor.armDeadlines, hpending, kHandshakeTimeout] at htime
    have hdeadline : (s.armDeadlines now).handshakeDeadline = s.handshakeDeadline := by
      simp [OwnerSupervisor.armDeadlines, hnot]
    obtain ⟨opened, ho, hle⟩ := (h hstate).resolve_left hnot
    exact ⟨opened, ho, hle.trans (hdeadline ▸ htime)⟩
  | delayed hstate =>
    have hne : s.state ≠ .starting := by simp [hstate]
    exact ⟨fun hs => absurd hs hne, fun _ _ hs => absurd hs hne⟩
  | exhausted hstate => exact ⟨(fun hs => by cases hs), fun _ _ hs => absurd hs (by simp [hstate])⟩
  | refused hstate htime hleft hpid _ hnext hattempts hafter =>
    refine ⟨fun hs => ?_, fun _ _ hs => absurd hs (by simp [hstate])⟩
    rcases hafter with ha | ha <;> simp [ha] at hs
  | spawned hstate =>
    refine ⟨fun _ => .inr ⟨now, ?_, le_rfl⟩, fun _ _ hs => absurd hs (by simp [hstate])⟩
    simp [windowOpened, hstate, spawns, AdapterCall.spawnedPid, OwnerEvent.wanted]

/-- one step: an owner is given up after its window only, and the deadline keeps the window -/
theorem supervise_window (s : OwnerSupervisor) (past : List OwnerEntry) (e : OwnerEvent) (h : Windowed s past)
    (hcond : Nondecreasing past (entryOf supervise s e) ∧ ReleasedArmed past (entryOf supervise s e)) :
    Windowed (supervise s e).1 (entryOf supervise s e :: past) ∧ GetsWindow past (entryOf supervise s e) := by
  obtain ⟨hclock, hreleased⟩ := hcond
  cases e with
  | poll shouldOwn now spawned => exact polled_window (poll_polled s shouldOwn now spawned) h hclock
  | connected pid =>
    refine ⟨fun hs => .inl ?_, fun now hw => by cases hw⟩
    have hne : s.state ≠ .owned := by
      intro howned
      simp [supervise, OwnerSupervisor.onConnected, howned] at hs
    simp [supervise, OwnerSupervisor.onConnected, hne]
  | seed pid alive =>
    refine ⟨?_, fun now hw => by cases hw⟩
    simp only [supervise, entryOf, OwnerSupervisor.seedSurvivingOwner]
    split_ifs with hstate hpid halive
    · exact h.keep (fun hs => hs) rfl rfl
    · exact h.keep (fun hs => hs) rfl rfl
    · exact h.keep (fun hs => hs) rfl rfl
    · exact fun _ => .inl rfl
  | owned m | ownerFailed m | disconnected => exact ⟨(fun hs => by cases hs), (fun now hw => by cases hw)⟩
  | released =>
    refine ⟨?_, fun now hw => by cases hw⟩
    by_cases howned : s.state = .owned
    · exact fun _ => .inl (hreleased rfl howned)
    · refine h.keep (fun hs => ?_) rfl rfl
      simpa [supervise, OwnerSupervisor.onReleased, howned] using hs
  | sessionDelta delta =>
    refine ⟨?_, fun now hw => by cases hw⟩
    simp only [supervise, entryOf, OwnerSupervisor.onSessionDelta]
    split_ifs
    · exact h.keep (fun hs => hs) rfl rfl
    · exact h.keep (fun hs => hs) rfl rfl

/-- **Every pending owner gets its handshake window**, in every run with a nondecreasing clock in which each release of
an owned handle finds the window about to be armed. -/
theorem handshake_window_kept (events : List OwnerEvent) (hclock : Along Nondecreasing (supervision events))
    (hreleased : Along ReleasedArmed (supervision events)) : Along GetsWindow (supervision events) :=
  along_logFrom supervise supervise_window events (fun hs => by cases hs) trivial (hclock.and hreleased)

/-- an owner that connects and releases between two polls is given up after its window -/
theorem released_before_poll_waits :
    Along GetsWindow (supervision [.connected 2024, .owned ⟨7, true⟩, .released, .poll true 1000000000 0,
      .poll true 4999999999 0, .poll true 5000000000 0]) ∧
    ((supervision [.connected 2024, .owned ⟨7, true⟩, .released, .poll true 1000000000 0,
      .poll true 4999999999 0, .poll true 5000000000 0]).map (·.after.state)).head? = some .absent :=
  ⟨handshake_window_kept _ (by decide) (by decide), by decide⟩

/-- **A released owner is killed at once.** Child 1000 is owned, releases on request and stays connected; the next poll,
a millisecond later, kills it. -/
theorem released_owner_killed_at_once :
    Along Nondecreasing (supervision [.poll true 1000000000 1000, .connected 1000, .poll true 1100000000 0,
      .owned ⟨7, true⟩, .released, .poll true 1101000000 0]) ∧
    ¬ Along GetsWindow (supervision [.poll true 1000000000 1000, .connected 1000, .poll true 1100000000 0,
      .owned ⟨7, true⟩, .released, .poll true 1101000000 0]) := by
  decide

/-! ## The spawn budget -/

/-- an entry that gives the supervisor its whole budget again -/
def resetsBudget (entry : OwnerEntry) : Bool :=
  match entry.event with
  | .owned _ => true
  | .poll false _ _ => entry.before.state ≠ .absent
  | _ => false

/-- the clock at which an entry called `Spawn` -/
def spawnedAt (entry : OwnerEntry) : Option TimePoint := if spawns entry = [] then none else entry.event.clock

def spawnsSinceReset : List OwnerEntry → ℕ
  | [] => 0
  | entry :: past => if resetsBudget entry then 0 else (spawns entry).length + spawnsSinceReset past

/-- the clock of the last call of `Spawn`, unless ownership was off since -/
def lastSpawn : List OwnerEntry → Option TimePoint
  | [] => none
  | entry :: past => if entry.event.isOff then none else (spawnedAt entry).or (lastSpawn past)

/-- an entry spawns without an owner only, within the budget, and not too soon after the last spawn -/
structure Budgeted (past : List OwnerEntry) (entry : OwnerEntry) : Prop where
  idle : spawns entry ≠ [] → entry.before.state = .absent
  wanted : spawns entry ≠ [] → entry.event.isOff = false
  budget : spawnsSinceReset (entry :: past) ≤ kMaxSpawnAttempts
  spaced : ∀ now ∈ spawnedAt entry, ∀ t ∈ lastSpawn past, t + kSpawnRetryDelay ≤ now

/-- the counters account for the log -/
structure Accounted (s : OwnerSupervisor) (past : List OwnerEntry) : Prop where
  attempts : s.spawnAttempts = spawnsSinceReset past
  bounded : s.spawnAttempts ≤ kMaxSpawnAttempts
  retry : ∀ t ∈ lastSpawn past, s.state = .absent →
    s.respawnBackoffPending = true ∨ t + kSpawnRetryDelay ≤ s.nextSpawnAttempt

theorem lastSpawn_seen {log : List OwnerEntry} {t : TimePoint} (h : t ∈ lastSpawn log) :
    ∃ entry ∈ log, entry.event.clock = some t := by
  induction log with
  | nil => cases h
  | cons entry past ih =>
    unfold lastSpawn at h
    split_ifs at h with hoff
    · cases h
    · rcases Option.or_eq_some_iff.mp h with hs | ⟨-, hp⟩
      · unfold spawnedAt at hs
        split_ifs at hs with hnone
        · exact ⟨entry, List.mem_cons_self, hs⟩
      · obtain ⟨e, he, hclock⟩ := ih hp
        exact ⟨e, List.mem_cons_of_mem _ he, hclock⟩

/-- an entry that does not spawn and does not reset leaves the accounts alone -/
theorem Accounted.keep {s t : OwnerSupervisor} {past : List OwnerEntry} {e : OwnerEvent} {calls : List AdapterCall}
    (h : Accounted s past) (hspawns : calls.filterMap AdapterCall.spawnedPid = [])
    (hresets : resetsBudget ⟨s, e, calls, t⟩ = false) (hattempts : t.spawnAttempts = s.spawnAttempts)
    (hretry : e.isOff = false → ∀ l ∈ lastSpawn past, t.state = .absent →
      t.respawnBackoffPending = true ∨ l + kSpawnRetryDelay ≤ t.nextSpawnAttempt) :
    Accounted t (⟨s, e, calls, t⟩ :: past) ∧ Budgeted past ⟨s, e, calls, t⟩ := by
  have hnone : spawns ⟨s, e, calls, t⟩ = [] := hspawns
  have hat : spawnedAt ⟨s, e, calls, t⟩ = none := by simp [spawnedAt, hnone]
  have hsince : spawnsSinceReset (⟨s, e, calls, t⟩ :: past) = spawnsSinceReset past := by
    simp [spawnsSinceReset, hresets, hnone]
  refine ⟨⟨?_, hattempts ▸ h.bounded, fun l hl => ?_⟩, ⟨?_, ?_, ?_, ?_⟩⟩
  · rw [hsince, hattempts]
    exact h.attempts
  · unfold lastSpawn at hl
    split_ifs at hl with hoff
    · cases hl
    · rw [hat, Option.none_or] at hl
      exact hretry (by simpa using hoff) l hl
  · exact fun hne => absurd hnone hne
  · exact fun hne => absurd hnone hne
  · rw [hsince, ← h.attempts]
    exact h.bounded
  · rw [hat]
    intro now hnow
    cases hnow

/-- an entry that resets the budget and does not spawn starts the accounts again -/
theorem Accounted.reset {s t : OwnerSupervisor} {past : List OwnerEntry} {e : OwnerEvent} {calls : List AdapterCall}
    (hspawns : calls.filterMap AdapterCall.spawnedPid = []) (hresets : resetsBudget ⟨s, e, calls, t⟩ = true)
    (hattempts : t.spawnAttempts = 0) (hretry : t.state = .absent → e.isOff = true) :
    Accounted t (⟨s, e, calls, t⟩ :: past) ∧ Budgeted past ⟨s, e, calls, t⟩ := by
  have hnone : spawns ⟨s, e, calls, t⟩ = [] := hspawns
  have hsince : spawnsSinceReset (⟨s, e, calls, t⟩ :: past) = 0 := by simp [spawnsSinceReset, hresets]
  refine ⟨⟨hattempts.trans hsince.symm, by simp [hattempts], fun l hl hstate => ?_⟩, ⟨?_, ?_, by simp [hsince], ?_⟩⟩
  · simp [lastSpawn, hretry hstate] at hl
  · exact fun hne => absurd hnone hne
  · exact fun hne => absurd hnone hne
  · simp [spawnedAt, hnone]

/-- a poll that wants an owner turns the pending delay into a time after the last spawn -/
theorem Accounted.armed {s : OwnerSupervisor} {past : List OwnerEntry} {entry : OwnerEntry} {now : TimePoint}
    (h : Accounted s past) (hclock : Nondecreasing past entry) (hnow : entry.event.clock = some now) :
    ∀ l ∈ lastSpawn past, s.state = .absent → l + kSpawnRetryDelay ≤ (s.armDeadlines now).nextSpawnAttempt := by
  intro l hl hstate
  obtain ⟨earlier, hmem, hseen⟩ := lastSpawn_seen hl
  have hle : l ≤ now := hclock now hnow earlier hmem l hseen
  by_cases hpending : s.respawnBackoffPending = true
  · simp only [OwnerSupervisor.armDeadlines, hpending, if_true]
    exact Int.add_le_add_right hle _
  · simp only [OwnerSupervisor.armDeadlines, if_neg hpending]
    exact (h.retry l hl hstate).resolve_left hpending

/-- a poll that spawns accounts for it, whatever the adapter answered -/
theorem Accounted.spawn {s t : OwnerSupervisor} {past : List OwnerEntry} {now : TimePoint} {spawned : ℤ}
    (h : Accounted s past) (hclock : Nondecreasing past ⟨s, .poll true now spawned, [.spawn spawned], t⟩)
    (hstate : s.state = .absent) (htime : (s.armDeadlines now).nextSpawnAttempt ≤ now)
    (hleft : s.spawnAttempts < kMaxSpawnAttempts) (hattempts : t.spawnAttempts = s.spawnAttempts + 1)
    (hnext : t.state = .absent → t.nextSpawnAttempt = now + kSpawnRetryDelay) :
    Accounted t (⟨s, .poll true now spawned, [.spawn spawned], t⟩ :: past) ∧
      Budgeted past ⟨s, .poll true now spawned, [.spawn spawned], t⟩ := by
  have hone : spawns ⟨s, .poll true now spawned, [.spawn spawned], t⟩ = [spawned] := rfl
  have hat : spawnedAt ⟨s, .poll true now spawned, [.spawn spawned], t⟩ = some now := by
    simp [spawnedAt, hone, OwnerEvent.clock]
  have hsince : spawnsSinceReset (⟨s, .poll true now spawned, [.spawn spawned], t⟩ :: past) = s.spawnAttempts + 1 := by
    simp [spawnsSinceReset, resetsBudget, hone, h.attempts, Nat.add_comm]
  refine ⟨⟨?_, ?_, fun l hl hs => .inr ?_⟩, ⟨fun _ => hstate, fun _ => rfl, ?_, ?_⟩⟩
  · rw [hsince, hattempts]
  · rw [hattempts]
    exact hleft
  · simp only [lastSpawn, OwnerEvent.isOff, Bool.false_eq_true, if_false, hat, Option.some_or, Option.mem_def,
      Option.some.injEq] at hl
    rw [hnext hs, hl]
  · rw [hsince]
    exact hleft
  · rw [hat]
    intro now' hnow' l hl
    cases hnow'
    exact (h.armed hclock rfl l hl hstate).trans htime

theorem polled_budget {s t : OwnerSupervisor} {now : TimePoint} {spawned : ℤ} {shouldOwn : Bool}
    {calls : List AdapterCall} {past : List OwnerEntry} (hp : Polled s now spawned shouldOwn t calls)
    (h : Accounted s past) (hclock : Nondecreasing past ⟨s, .poll shouldOwn now spawned, calls, t⟩) :
    Accounted t (⟨s, .poll shouldOwn now spawned, calls, t⟩ :: past) ∧
      Budgeted past ⟨s, .poll shouldOwn now spawned, calls, t⟩ := by
  have hkill : s.killIfSpawned.2.filterMap AdapterCall.spawnedPid = [] := by
    simp only [OwnerSupervisor.killIfSpawned]
    split_ifs <;> rfl
  cases hp with
  | off hstate =>
    refine Accounted.reset hkill (by simp [resetsBudget, hstate]) ?_ fun _ => rfl
    simp [OwnerSupervisor.switchOff, hstate]
  | stillOff hstate => exact h.keep rfl (by simp [resetsBudget, hstate]) rfl fun hoff => by cases hoff
  | settled hstate =>
    refine h.keep rfl rfl rfl fun _ l hl hs => ?_
    have habsent : s.state = .absent := hs
    rcases hstate with hs' | hs' <;> simp [hs'] at habsent
  | waiting hstate =>
    refine h.keep rfl rfl rfl fun _ l hl hs => ?_
    have habsent : s.state = .absent := hs
    simp [hstate] at habsent
  | gaveUp hstate htime =>
    refine h.keep hkill rfl rfl fun _ l hl _ => .inr ?_
    obtain ⟨earlier, hmem, hseen⟩ := lastSpawn_seen hl
    exact Int.add_le_add_right (hclock now rfl earlier hmem l hseen) _
  | delayed hstate =>
    exact h.keep rfl rfl rfl fun _ l hl hs => .inr (h.armed hclock rfl l hl hs)
  | exhausted hstate =>
    exact h.keep rfl rfl rfl fun _ l hl hs => by cases hs
  | refused hstate htime hleft hpid _ hnext hattempts hafter =>
    exact h.spawn hclock hstate htime hleft hattempts fun _ => hnext
  | spawned hstate htime hleft hpid =>
    exact h.spawn hclock hstate htime hleft rfl fun hs => by cases hs

/-- one step: a spawn keeps to the budget and to the delay, and the counters account for it -/
theorem supervise_budget (s : OwnerSupervisor) (past : List OwnerEntry) (e : OwnerEvent) (h : Accounted s past)
    (hclock : Nondecreasing past (entryOf supervise s e)) :
    Accounted (supervise s e).1 (entryOf supervise s e :: past) ∧ Budgeted past (entryOf supervise s e) := by
  cases e with
  | poll shouldOwn now spawned => exact polled_budget (poll_polled s shouldOwn now spawned) h hclock
  | connected pid =>
    refine h.keep rfl rfl ?_ fun _ l hl hs => ?_
    · simp only [supervise, OwnerSupervisor.onConnected]
      split_ifs <;> rfl
    · by_cases howned : s.state = .owned
      · simp [supervise, OwnerSupervisor.onConnected, howned] at hs
      · simp [supervise, OwnerSupervisor.onConnected, howned] at hs
  | seed pid alive =>
    simp only [supervise, entryOf, OwnerSupervisor.seedSurvivingOwner]
    split_ifs with hstate hpid halive
    · exact h.keep rfl rfl rfl fun _ => h.retry
    · exact h.keep rfl rfl rfl fun _ => h.retry
    · exact h.keep rfl rfl rfl fun _ => h.retry
    · exact h.keep rfl rfl rfl fun _ l hl hs => by cases hs
  | owned m => exact Accounted.reset rfl rfl rfl fun hs => by cases hs
  | ownerFailed m => exact h.keep rfl rfl rfl fun _ l hl hs => by cases hs
  | released =>
    refine h.keep rfl rfl rfl fun _ l hl hs => h.retry l hl ?_
    simp only [supervise, OwnerSupervisor.onReleased] at hs
    split_ifs at hs
    exact hs
  | sessionDelta delta =>
    simp only [supervise, entryOf, OwnerSupervisor.onSessionDelta]
    split_ifs
    · exact h.keep rfl rfl rfl fun _ => h.retry
    · exact h.keep rfl rfl rfl fun _ => h.retry
  | disconnected => exact h.keep rfl rfl rfl fun _ l hl _ => .inl rfl

theorem spawns_le_sinceReset {stretch : List OwnerEntry} (h : ∀ entry ∈ stretch, resetsBudget entry = false)
    (past : List OwnerEntry) :
    (stretch.flatMap spawns).length ≤ spawnsSinceReset (stretch ++ past) := by
  induction stretch with
  | nil => exact Nat.zero_le _
  | cons entry stretch ih =>
    have hhead := h entry List.mem_cons_self
    have htail := ih fun e he => h e (List.mem_cons_of_mem _ he)
    simp only [List.cons_append, spawnsSinceReset, hhead, Bool.false_eq_true, if_false, List.flatMap_cons,
      List.length_append]
    omega

theorem lastSpawn_skip {stretch past : List OwnerEntry} (hoff : ∀ entry ∈ stretch, entry.event.isOff = false)
    (hspawns : ∀ entry ∈ stretch, spawns entry = []) : lastSpawn (stretch ++ past) = lastSpawn past := by
  induction stretch with
  | nil => rfl
  | cons entry stretch ih =>
    have htail := ih (fun e he => hoff e (List.mem_cons_of_mem _ he)) fun e he => hspawns e (List.mem_cons_of_mem _ he)
    simp [lastSpawn, hoff entry List.mem_cons_self, spawnedAt, hspawns entry List.mem_cons_self, htail]

/-- **Spawn budget and spacing**, over every run with a nondecreasing clock: in a stretch of the run without a reset at
most `kMaxSpawnAttempts` calls of `Spawn`; between two consecutive calls with ownership on all along at least
`kSpawnRetryDelay`; no call while there is an owner or a failure. -/
theorem spawn_budget_kept (events : List OwnerEvent) (hclock : Along Nondecreasing (supervision events)) :
    (∀ newer stretch past, supervision events = newer ++ (stretch ++ past) →
      (∀ entry ∈ stretch, resetsBudget entry = false) → (stretch.flatMap spawns).length ≤ kMaxSpawnAttempts) ∧
    (∀ newer later between earlier past t t', supervision events = newer ++ later :: (between ++ earlier :: past) →
      spawnedAt earlier = some t → spawnedAt later = some t' →
      (∀ entry ∈ between, entry.event.isOff = false) → (∀ entry ∈ between, spawns entry = []) →
        t + kSpawnRetryDelay ≤ t') ∧
    (∀ entry ∈ supervision events, spawns entry ≠ [] → entry.before.state = .absent) := by
  have hall : Along Budgeted (supervision events) :=
    along_logFrom supervise supervise_budget events ⟨rfl, Nat.zero_le _, fun t ht => by cases ht⟩ trivial hclock
  refine ⟨fun newer stretch past hcut hnone => ?_, fun newer later between earlier past t t' hcut ht ht' hoff hs => ?_,
    fun entry hmem => ?_⟩
  · refine (spawns_le_sinceReset hnone past).trans ?_
    rw [hcut] at hall
    cases hlog : stretch ++ past with
    | nil => exact Nat.zero_le _
    | cons entry rest =>
      rw [hlog] at hall
      exact hall.cut.budget
  · rw [hcut] at hall
    refine hall.cut.spaced t' ht' t ?_
    have hspawned : spawns earlier ≠ [] := by
      intro hnone
      simp [spawnedAt, hnone] at ht
    have hearlier : earlier.event.isOff = false := by
      have hrest : Along Budgeted (between ++ earlier :: past) := (hall.suffix).2
      exact hrest.cut.wanted hspawned
    rw [lastSpawn_skip hoff hs]
    simp [lastSpawn, hearlier, ht]
  · obtain ⟨newer, past, hcut⟩ := List.append_of_mem hmem
    rw [hcut] at hall
    exact hall.cut.idle

/-- a failing `Spawn` is called three times, two seconds apart, and then no more -/
theorem failing_spawn_gives_up :
    ((supervision [.poll true 0 (-1), .poll true 1000000000 (-1), .poll true 2000000000 (-1),
      .poll true 4000000000 (-1), .poll true 9000000000 (-1)]).flatMap spawns).length ≤ kMaxSpawnAttempts ∧
    (supervision [.poll true 0 (-1), .poll true 1000000000 (-1), .poll true 2000000000 (-1),
      .poll true 4000000000 (-1), .poll true 9000000000 (-1)]).filterMap spawnedAt = [4000000000, 2000000000, 0] :=
  ⟨(spawn_budget_kept [.poll true 0 (-1), .poll true 1000000000 (-1), .poll true 2000000000 (-1),
      .poll true 4000000000 (-1), .poll true 9000000000 (-1)] (by decide)).1 [] _ [] (by simp) (by decide), by decide⟩

end ViperFx.Daemon
