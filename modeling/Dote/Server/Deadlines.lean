import Dote.Clients.Expiry
import Dote.Server.Growth

/-! The deadlines of the connections in the running program: whatever has happened
since, no connection is waited for that had expired when the time was last taken. -/
namespace Dote
open Library.Run

theorem Active.Linked.exists_deadline {a : Active} {handle now : Int}
    (h : a.Linked handle) (hread : a.world.loop.Done .read now)
    (hwrite : a.world.loop.Done .write now) :
    ∃ kind callback, a.wire handle kind = some (callback, a.self.timeout) ∧
      a.world.loop.Done kind now := by
  have hawaits := h.awaits
  cases hstate : a.self.state <;> rw [hstate] at hawaits
  case connecting =>
    cases hawaits with
    | inl hwire => exact ⟨.read, _, hwire.1, hread⟩
    | inr hwire => exact ⟨.write, _, hwire.2, hwrite⟩
  case opened => exact ⟨.read, _, hawaits.1, hread⟩
  case shuttingDown =>
    cases hawaits with
    | inl hwire => exact ⟨.read, _, hwire.1, hread⟩
    | inr hwire => exact ⟨.write, _, hwire.2, hwrite⟩
  case closed => contradiction

namespace Program

/-- The run next to the time of its last pass over the expired registrations. -/
def stepPassed (env : Env) (p : Running Program × Option Int) (event : Event) :
    Running Program × Option Int :=
  (step env p.1 event,
    match event with
    | .task now _ => Machine.passed p.1 p.2 now
    | .signal => p.2
    | .interrupt => p.2)

/-- The clock does not go back: what it will show is not before the time of a task. -/
def Clocked (env : Env) (r : Running Program) : Event → Prop
  | .task now _ => ∀ tick ≥ r.state.world.tick, now ≤ env.time tick
  | .signal => True
  | .interrupt => True

structure Timely (env : Env) (seconds : Nat) (p : Running Program × Option Int) : Prop where
  owned : p.1.state.Owned
  dated : p.1.state.clients.Dated env seconds
  clock : ∀ now ∈ p.2, ∀ tick ≥ p.1.state.world.tick, now ≤ env.time tick
  sweeping : Machine.Sweeping p.1.state.loop p.2 p.1.tasks

variable {env : Env} {p : Program}

theorem Owned.deregisters (h : p.Owned) {now : Int}
    (hclock : ∀ tick ≥ p.world.tick, now ≤ env.time tick) (hconfig : 0 < p.world.config.timeout)
    {handle : Int} (hexcept : handle ∈ p.loop.exceptFunctions) :
    Loop.Deregisters now handle p.loop ((machine env).raiseException handle p).2.loop := by
  obtain ⟨entry, hfind⟩ := Option.isSome_iff_exists.mp
    ((Loop.mem_functions_iff p.loop .exception handle).mp hexcept)
  have hwire : p.clients.world.loop.wire handle .exception =
      some (entry.callback, entry.timeout) := Loop.wire_of_find hfind
  have hraise : ((machine env).raiseException handle p).2 = p.call env entry.callback handle := by
    have hentry : ((machine env).loop p).find .exception handle = some entry := hfind
    unfold Machine.raiseException
    rw [hentry]
    rfl
  rw [hraise]
  cases h.wired.owned handle .exception (by simp [hwire]) with
  | inl hother =>
    obtain ⟨other, hmem, rfl⟩ := List.mem_map.mp hother
    rw [h.wired.others_wire other hmem] at hwire
    contradiction
  | inr hconnection =>
    obtain ⟨c, hc, hsocket⟩ := hconnection
    obtain ⟨-, -, hlinked⟩ := Wired.linked_of_socket h.wired hc hsocket
    have hexception := hlinked.exception
    have hcallback : entry.callback = .exception c.id := by
      rw [Active.wire, hwire] at hexception
      exact congrArg Prod.fst (Option.some.inj hexception)
    rw [hcallback]
    exact ClientForwarders.call_exception h.wired h.listed hclock hconfig hc hsocket

theorem shutdown_handling (now : Int) (p : Program) :
    Loop.Handling now p.loop p.shutdown.loop := by
  have hfold : ∀ (sockets : List (Int × Registration)) (w : World),
      Loop.Handling now p.loop w.loop →
        Loop.Handling now p.loop (sockets.foldl World.release w).loop := by
    intro sockets
    induction sockets with
    | nil => exact fun _ h => h
    | cons socket sockets ih => exact fun w h => ih _ (h.reset socket.2)
  exact hfold p.sockets p.world .refl

namespace Timely

variable {seconds : Nat} {r : Running Program} {last : Option Int}

theorem shutdown (h : Timely env seconds (r, last)) :
    Timely env seconds ({ r with state := r.state.shutdown }, last) where
  owned := h.owned.shutdown
  dated := (grows_shutdown env r.state).dated h.dated
  clock now hnow tick htick :=
    h.clock now hnow tick (Nat.le_trans r.state.later_shutdown.tick htick)
  sweeping := h.sweeping.handling fun now _ => shutdown_handling now r.state

theorem task (h : Timely env seconds (r, last)) (hseconds : 0 < seconds) (input : Input)
    (hclock : ∀ now ∈ Machine.passed r last input.now, ∀ tick ≥ r.state.world.tick,
      now ≤ env.time tick) :
    Timely env seconds ((machine env).step r input, Machine.passed r last input.now) := by
  obtain ⟨howned, hgrows⟩ : ((machine env).step r input).state.Owned ∧
      ClientForwarders.Grows env r.state.clients ((machine env).step r input).state.clients := by
    refine (machine env).step_preserves
      (P := fun p => p.Owned ∧ ClientForwarders.Grows env r.state.clients p.clients) ?_
      ⟨h.owned, .refl env _⟩ input
    exact fun kind handle p hp =>
      ⟨hp.1.callCallback env kind handle, hp.2.trans (grows_callCallback hp.1 env kind handle)⟩
  constructor
  · exact howned
  · exact hgrows.dated h.dated
  · exact fun now hnow tick htick => hclock now hnow tick (Nat.le_trans hgrows.later.tick htick)
  · refine Machine.Sweeping.step (m := machine env) h.sweeping ?_ input
    intro now hnow handle hexcept
    refine h.owned.deregisters (h.clock now hnow) ?_ hexcept
    have hconfig : r.state.world.config.timeout = seconds := h.dated.config
    rw [hconfig]
    exact hseconds

theorem step {p : Running Program × Option Int} (h : Timely env seconds p)
    (hseconds : 0 < seconds) {event : Event} (hclock : Clocked env p.1 event) :
    Timely env seconds (stepPassed env p event) := by
  obtain ⟨r, last⟩ := p
  cases event with
  | task now revents =>
    refine h.task hseconds ⟨now, some revents⟩ ?_
    intro now' hnow'
    unfold Machine.passed at hnow'
    split at hnow'
    next =>
      cases hnow'
      exact hclock
    next => exact h.clock now' hnow'
  | signal => exact h.shutdown
  | interrupt =>
    unfold stepPassed Program.step
    dsimp only
    split
    next hpolls =>
      have hlast : Machine.passed { r with state := r.state.shutdown } last 0 = last := by
        unfold Machine.passed
        rw [hpolls.1, if_neg (by simp)]
      have hpolled := h.shutdown.task hseconds ⟨0, none⟩
      rw [hlast] at hpolled
      exact hpolled h.shutdown.clock
    next => exact h.shutdown

theorem start {config : Config.ConfigParser} {handles : List Int} {watched : Bool}
    (hstart : Program.start env config handles watched = some p) :
    Timely env config.timeout (Machine.start p, none) :=
  ⟨.start hstart, dated_start hstart, by simp, Machine.sweeping_start (machine env) p none⟩

theorem later_of_poll (h : Timely env seconds (r, last)) (hpositive : ∀ tick, 0 ≤ env.time tick)
    (hseconds : 0 < seconds) (hpoll : r.tasks.head? = some .poll) :
    ∃ now, last = some now ∧ ∀ c ∈ r.state.clients.forwarders,
      c.Dated env seconds r.state.world.tick ∧ now < c.timeout := by
  obtain ⟨now, rfl, hread, hwrite⟩ := h.sweeping.done_of_poll hpoll
  refine ⟨now, rfl, ?_⟩
  intro c hc
  have hdated := h.dated.dated c hc
  refine ⟨hdated, ?_⟩
  obtain ⟨handle, -, -, -, hlinked⟩ := h.owned.wired.handle_of_mem hc
  have hexcept : handle ∈ r.state.loop.exceptFunctions := by
    by_contra hmem
    have hnone := (Loop.wire_eq_none_iff r.state.loop handle .exception).mpr hmem
    exact absurd (hlinked.exception.symm.trans hnone) (by simp)
  obtain ⟨made, -, htimeout⟩ := hdated
  have hpos := hpositive made
  obtain ⟨kind, callback, hwire, hdone⟩ := hlinked.exists_deadline hread hwrite
  obtain ⟨entry, hfind, heq⟩ := Option.map_eq_some_iff.mp hwire
  have hentry : entry.timeout = c.timeout := congrArg Prod.snd heq
  by_contra hlate
  apply hdone handle entry hfind _ hexcept
  rw [Entry.Expired, hentry]
  omega

end Timely

theorem throughout_stepPassed {P : Running Program → Event → Prop}
    {q : Running Program × Option Int} {events : List Event} :
    Throughout (step env) P q.1 events ↔
      Throughout (stepPassed env) (fun q event => P q.1 event) q events := by
  refine throughout_congr (R := fun r q _ => r = q.1) ?_ ?_ rfl
  · rintro _ q event _ rfl
    rfl
  · rintro _ q event _ rfl
    exact Iff.rfl

theorem run_stepPassed (q : Running Program × Option Int) (events : List Event) :
    (run (stepPassed env) q events).1 = run (step env) q.1 events := by
  induction events generalizing q with
  | nil => rfl
  | cons event events ih => exact ih (stepPassed env q event)

theorem timely_run {seconds : Nat} {q : Running Program × Option Int} {events : List Event}
    (h : Timely env seconds q) (hseconds : 0 < seconds)
    (hclock : Throughout (step env) (Clocked env) q.1 events) :
    Timely env seconds (run (stepPassed env) q events) :=
  run_invariant (fun _ _ h hclock => h.step hseconds hclock) h (throughout_stepPassed.mp hclock)

/-- Whenever the program is about to wait, every connection was made in an event before,
the configured time ahead of its deadline, and had not expired at the last look at the
clock. -/
theorem polls_inTime {config : Config.ConfigParser} {handles : List Int} {watched : Bool}
    (hstart : start env config handles watched = some p) (htimeout : 0 < config.timeout)
    (hpositive : ∀ tick, 0 ≤ env.time tick) {events : List Event}
    (hclock : Throughout (step env) (Clocked env) (Machine.start p) events) :
    ∀ history, history <+: events →
      let r := run (stepPassed env) (Machine.start p, none) history
      r.1.tasks.head? = some .poll → ∃ now, r.2 = some now ∧
        ∀ c ∈ r.1.state.clients.forwarders,
          (∃ ops, Made env config.timeout p history ops c) ∧ now < c.timeout := by
  rintro history ⟨rest, rfl⟩ r hpoll
  have htimely : Timely env config.timeout r :=
    timely_run (.start hstart) htimeout ((throughout_append _ history rest).mp hclock).1
  obtain ⟨now, hnow, hconnections⟩ := htimely.later_of_poll hpositive htimeout hpoll
  refine ⟨now, hnow, fun c hc => ⟨?_, (hconnections c hc).2⟩⟩
  rw [run_stepPassed] at hc
  exact made_of_mem hstart hc

open Sample in
theorem polls_inTime_busy :
    let r := run (stepPassed (Sample.env stuck)) (Machine.start (program stuck false), none) busy
    r.1.tasks.head? = some .poll ∧ r.1.state.clients.forwarders.length = 1 ∧
      ∃ now, r.2 = some now ∧ ∀ c ∈ r.1.state.clients.forwarders,
        (∃ ops, Made (Sample.env stuck) config.timeout (program stuck false) busy ops c) ∧
          now < c.timeout := by
  have hbusy : ∀ event ∈ busy, ∀ r, Clocked (Sample.env stuck) r event := by
    simp [busy, Sample.task, Clocked, Sample.env]
  refine ⟨by decide, by decide, polls_inTime (start_eq stuck false) (by decide) ?_ ?_ busy
    List.prefix_rfl (by decide)⟩
  · intro tick
    simp [Sample.env]
  · rw [throughout_iff_forall]
    intro before event after heq
    exact hbusy event (by simp [heq]) _

end Program

end Dote
