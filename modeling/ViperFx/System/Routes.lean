/-
The route the daemon has announced and the route each context holds, over every run.

A context takes the hash of every announce it is there for and starts with none. The daemon announces when the route or the
connection changes, as it samples them once a pass, and holds the announce that was acknowledged last. What it holds is what
a context has as long as nothing has touched the route of the context since: it has not registered later, and no announce of
another route was handled later whose answer the daemon missed.

Results:
  · route_agrees_iff       : in every run, which contexts hold the route that the daemon holds as announced
  · registered_after       : a context that registers after the announce, known to the daemon, without a route
-/
import ViperFx.System.Transfers

namespace ViperFx.System

open ViperFx.Core ViperFx.Protocol ViperFx.Daemon ViperFx.Channel ViperFx.Driver

variable {E : Engine}

/-- the note that the command of a ticket was handled -/
def isHandling (q : Ticket) : Note (Tracked E) → Bool
  | .handled c _ => decide (c.ticket = q)
  | _ => false

/-- what the driver has done since it handled the command of a ticket, newest first -/
def since (q : Ticket) (trace : List (Note (Tracked E))) : List (Note (Tracked E)) :=
  trace.takeWhile fun n => !isHandling q n

theorem since_append {q : Ticket} {newer older : List (Note (Tracked E))} {n : Note (Tracked E)}
    (hnewer : ∀ m ∈ newer, isHandling q m = false) (hn : isHandling q n = true) : since q (newer ++ n :: older) = newer := by
  unfold since
  rw [List.takeWhile_append_of_pos fun m hm => by simp [hnewer m hm]]
  simp [hn]

/-- an announce is handled once -/
theorem announce_unique {next : Ticket} {l : Link (Tracked E)} (h : Sound next l) {newer older : List (Note (Tracked E))}
    {c : Command} {contexts : Table ℕ (DriverContext (Tracked E))} (htrace : l.trace = newer ++ .handled c contexts :: older)
    (htype : c.type = .routeAnnounce) : ∀ m ∈ newer, isHandling c.ticket m = false := by
  intro m hm
  cases m with
  | registered id known => rfl
  | restarted => rfl
  | handled d others =>
    have hbefore := (h.handled_before htrace).2 d (Link.mem_handledCommands.mpr ⟨others, hm⟩)
    refine decide_eq_false fun heq => ?_
    obtain ⟨hfollows | hfollows, -⟩ := hbefore.2 heq.symm <;> rw [htype] at hfollows <;> cases hfollows

/-- **When a context holds the announced route.** In every run, whenever the daemon holds the current route as announced, a
context of the driver holds its hash exactly when, since the driver handled that announce, nothing has touched the route of the
context but announces of the same hash. -/
theorem route_agrees_iff (config : Config) (bootId : ℕ) (store : SnapshotStore) (adapter cache : Option DeviceIdentity)
    (ops : List (Op E))
    (hannounced : (run (boot config bootId store adapter cache) ops : Sys E).runtime.announcedRouteHash =
      (run (boot config bootId store adapter cache) ops : Sys E).runtime.routeKeyHash)
    (hroute : (run (boot config bootId store adapter cache) ops : Sys E).runtime.routeKeyHash ≠ []) :
    let s : Sys E := run (boot config bootId store adapter cache) ops
    ∃ q, s.runtime.announcedBy = some q ∧ ∀ id x, s.link.context id = some x →
      (x.ctx.snapshotApply.deviceKeyHash = s.runtime.routeKeyHash ↔
        routeSeen id (since q s.link.trace) = none ∨ routeSeen id (since q s.link.trace) = some s.runtime.routeKeyHash) := by
  intro s
  have hwhole : Whole s := run_whole (boot_whole config bootId store adapter cache) ops
  have hannounced : s.runtime.announcedRouteHash = s.runtime.routeKeyHash := hannounced
  obtain ⟨q, payload, contexts, hby, hn, hdecode⟩ := hwhole.announces (by rw [hannounced]; exact hroute)
  rw [hannounced] at hdecode
  refine ⟨q, hby, fun id x hx => ?_⟩
  obtain ⟨newer, older, htrace⟩ := List.append_of_mem hn
  have hsince : since q s.link.trace = newer := by
    rw [htrace]
    exact since_append (announce_unique hwhole.sound htrace rfl) (decide_eq_true rfl)
  -- behind the notes since the announce comes the announce
  have hseen : routeSeen id s.link.trace = (routeSeen id newer).or (some s.runtime.routeKeyHash) := by
    rw [htrace, routeSeen_append, routeSeen]
    simp [announced, hdecode, Except.toOption]
  rw [(hwhole.sound.standing.now id x hx).route, hseen, hsince]
  cases routeSeen id newer with
  | none => simp
  | some hash => simp

/-- nothing has touched the route of context 1 since the announce: it holds the route of the speaker -/
theorem route_agrees_speaker :
    ∃ x, (run (boot { appReportedRoutes := false } 7 {} (some speaker) none)
      (speakerContext ++ [promptPass]) : Sys gainEngine).link.context 1 = some x ∧
      x.ctx.snapshotApply.deviceKeyHash = (speakerSnapshot 1).deviceKeyHash := by
  have hrun : (run (boot { appReportedRoutes := false } 7 {} (some speaker) none)
        (speakerContext ++ [promptPass]) : Sys gainEngine).runtime.announcedRouteHash = (speakerSnapshot 1).deviceKeyHash ∧
      (run (boot { appReportedRoutes := false } 7 {} (some speaker) none)
        (speakerContext ++ [promptPass]) : Sys gainEngine).runtime.routeKeyHash = (speakerSnapshot 1).deviceKeyHash ∧
      (run (boot { appReportedRoutes := false } 7 {} (some speaker) none)
        (speakerContext ++ [promptPass]) : Sys gainEngine).runtime.announcedBy = some ⟨0, 1⟩ ∧
      routeSeen 1 (since ⟨0, 1⟩ (run (boot { appReportedRoutes := false } 7 {} (some speaker) none)
        (speakerContext ++ [promptPass]) : Sys gainEngine).link.trace) = none ∧
      (speakerSnapshot 1).deviceKeyHash ≠ [] ∧
      ((run (boot { appReportedRoutes := false } 7 {} (some speaker) none)
        (speakerContext ++ [promptPass]) : Sys gainEngine).link.context 1).isSome = true := by decide +kernel
  obtain ⟨hannounced, hroute, hby, hseen, hne, hsome⟩ := hrun
  obtain ⟨x, hx⟩ := Option.isSome_iff_exists.mp hsome
  refine ⟨x, hx, ?_⟩
  obtain ⟨q, hq, hagrees⟩ := route_agrees_iff _ _ _ _ _ _ (hannounced.trans hroute.symm) (by rw [hroute]; exact hne)
  obtain rfl := Option.some.inj (hby.symm.trans hq)
  rw [← hroute]
  exact (hagrees 1 x hx).mpr (.inl hseen)

/-- a second context registers after the announce, and both are reported to the daemon -/
def lateContext : List (Op gainEngine) :=
  [.driver (.register 7 8), .driver (.stamp 0), .driver (.enqueue 0), .driver (.stamp 0), .driver (.enqueue 0),
    .driver (.drain .sent), .driver (.drain .sent)]

/-- the daemon is connected, holds the current route as announced and knows the second context, which has no route -/
theorem registered_after :
    let s : Sys gainEngine := run (boot { appReportedRoutes := false } 7 {} (some speaker) none)
      (speakerContext ++ [promptPass] ++ lateContext ++ [promptPass])
    s.link.client.isSome = true ∧ s.runtime.routeKeyHash = (speakerSnapshot 1).deviceKeyHash ∧
      s.runtime.announcedRouteHash = s.runtime.routeKeyHash ∧ s.runtime.routeKeyHash ≠ [] ∧
      (s.link.registry.contexts.get? ⟨7, 2⟩).isSome = true ∧
      (s.link.context 2).map (fun x => x.ctx.snapshotApply.deviceKeyHash) = some [] := by
  decide +kernel

end ViperFx.System
