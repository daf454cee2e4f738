import Dote.Loop.Idle
import Dote.Server.Ownership

/-! The end of the program: after the shutdown signal the loop is to run until
the last connection is closed, and then to return. -/
namespace Dote.Program
open Library.Run

def Event.isTask : Event → Bool
  | .task _ _ => true
  | _ => false

def Returns (env : Env) (r : Running Program) : Prop :=
  ∃ n, ∀ events : List Event, n ≤ events.countP Event.isTask →
    (run (step env) r events).tasks = []

def Drained (p : Program) : Prop := p.server = none ∧ p.clients.forwarders = []

instance (p : Program) : Decidable p.Drained := inferInstanceAs (Decidable (_ ∧ _))

/-- The loop has not returned while a connection is open; when the program is
drained nothing is registered, so that it returns. -/
structure Drains (env : Env) (r : Running Program) : Prop where
  waits : r.tasks = [] → r.state.clients.forwarders = []
  returns : r.state.Drained → r.state.loop.Empty ∧ Returns env r

theorem shutdown_of_none {p : Program} (h : p.server = none) : p.shutdown = p := by
  cases p
  cases h
  rfl

theorem step_interrupt (env : Env) (r : Running Program) :
    step env r .interrupt = { r with
      state := r.state.shutdown
      tasks := if Machine.Polls r then [] else r.tasks } := by
  have hpolls : Machine.Polls { r with state := r.state.shutdown } ↔ Machine.Polls r := Iff.rfl
  unfold step
  dsimp only
  simp only [hpolls]
  split
  next h =>
    obtain ⟨tasks, htasks⟩ : ∃ tasks, r.tasks = .poll :: tasks := List.head?_eq_some_iff.mp h.1
    simp [Machine.step, htasks]
  next => rfl

theorem call_checker (env : Env) (callback : Callback) (handle : Int) (p : Program) :
    (p.call env callback handle).checker = p.checker := by
  cases callback with
  | handleDnsRequest =>
    change (p.handleDnsRequest env handle).checker = _
    unfold handleDnsRequest
    dsimp only
    split
    next =>
      split
      next => rfl
      next => split <;> rfl
    next => rfl
  | handleRead =>
    obtain ⟨w, heq, -⟩ := p.handleRead_eq env
    change (p.handleRead env).checker = _
    rw [heq]
    rfl
  | _ => rfl

theorem step_checker (env : Env) (r : Running Program) (event : Event) :
    (step env r event).state.checker = r.state.checker := by
  refine step_preserves (P := fun p => p.checker = r.state.checker) ?_ ?_ rfl event
  · intro kind handle p h
    unfold Machine.callCallback
    split
    next entry _ => exact (call_checker env entry.callback handle p).trans h
    next => exact h
  · exact fun p h => h

theorem Owned.forwarders_of_empty {p : Program} (h : p.Owned) (hempty : p.loop.Empty) :
    p.clients.forwarders = [] := by
  rw [List.eq_nil_iff_forall_not_mem]
  intro c hc
  obtain ⟨handle, -, -, -, hlinked⟩ := Wired.handle_of_mem h.wired hc
  have hwire := hlinked.exception
  change p.loop.wire handle .exception = _ at hwire
  rw [Loop.wire, hempty.find] at hwire
  contradiction

theorem Owned.empty_iff {p : Program} (h : p.Owned) (hdrained : p.Drained) :
    p.loop.Empty ↔ p.checker = none := by
  obtain ⟨hserver, hforwarders⟩ := hdrained
  constructor
  · intro hempty
    by_contra hchecker
    obtain ⟨checker, hchecker⟩ := Option.ne_none_iff_exists'.mp hchecker
    have hother : checkerOther checker ∈ p.others := by simp [others, hchecker]
    have hwire := h.wired.others_wire (checkerOther checker) hother .read
    change p.loop.wire _ .read = _ at hwire
    rw [Loop.wire, hempty.find] at hwire
    contradiction
  · intro hchecker
    rw [Loop.empty_iff_not_mem]
    intro kind handle
    rw [← Loop.wire_eq_none_iff]
    by_contra hwire
    cases h.wired.owned handle kind hwire with
    | inl hother => simp [others, sockets, hserver, hchecker] at hother
    | inr hconnection => simp [hforwarders] at hconnection

structure Steady (env : Env) (r : Running Program) : Prop where
  owned : r.state.Owned
  scheduled : ∃ populated : Loop Callback, Machine.Scheduled r populated
  settled : (machine env).Settled r

theorem Steady.step {env : Env} {r : Running Program} (h : Steady env r) (event : Event) :
    Steady env (step env r event) := by
  obtain ⟨populated, hscheduled⟩ := h.scheduled
  have hsettled := h.settled
  have hshutdown : (machine env).Settled { r with state := r.state.shutdown } := by
    refine ⟨hsettled.turnsFirst, fun hnone hfds => ?_⟩
    have hempty : ∀ (sockets : List (Int × Registration)) {w : World}, w.loop.Empty →
        (sockets.foldl World.release w).loop.Empty := by
      intro sockets
      induction sockets with
      | nil => exact fun h => h
      | cons socket sockets ih => exact fun h => ih (h.reset socket.2)
    exact hempty r.state.sockets (hsettled.empty hnone hfds)
  refine ⟨h.owned.step env event, ?_, ?_⟩
  · cases event with
    | task now revents => exact ⟨_, hscheduled.step (machine env) _⟩
    | signal => exact ⟨populated, hscheduled.nodup, hscheduled.watches, hscheduled.pollLast⟩
    | interrupt =>
      rw [step_interrupt]
      split
      next hpolls =>
        refine ⟨populated, hscheduled.nodup, fun _ => ?_, .inl rfl⟩
        exact hscheduled.polls_watches hpolls
      next => exact ⟨populated, hscheduled.nodup, hscheduled.watches, hscheduled.pollLast⟩
  · cases event with
    | task now revents => exact hsettled.step hscheduled _
    | signal => exact hshutdown
    | interrupt =>
      rw [step_interrupt]
      split
      next hpolls => exact ⟨trivial, fun _ hfds => absurd hfds hpolls.2⟩
      next => exact hshutdown

structure Idle (r : Running Program) : Prop where
  server : r.state.server = none
  empty : r.state.loop.Empty
  scheduled : ∃ populated : Loop Callback, Machine.Scheduled r populated

theorem Idle.step (env : Env) {r : Running Program} (h : Idle r) (event : Event) :
    Idle (step env r event) ∧ (r.tasks = [] → (Program.step env r event).tasks = []) ∧
      (r.tasks ≠ [] → (Program.step env r event).tasks = [] ∨
        Machine.remaining (Program.step env r event) + (if event.isTask then 1 else 0) ≤
          Machine.remaining r) := by
  obtain ⟨populated, hscheduled⟩ := h.scheduled
  have hshutdown := shutdown_of_none h.server
  cases event with
  | task now revents =>
    obtain ⟨hstate, hless⟩ :=
      (machine env).step_of_empty h.empty hscheduled ⟨now, some revents⟩
    have hstep := hscheduled.step (machine env) ⟨now, some revents⟩
    refine ⟨⟨?_, ?_, _, hstep⟩, fun htasks => ?_, hless⟩
    · exact (congrArg Program.server hstate).trans h.server
    · change ((machine env).step r _).state.loop.Empty
      rw [hstate]
      exact h.empty
    · simp [Program.step, Machine.step, htasks]
  | signal =>
    have hsame : Program.step env r .signal = r := by
      rw [Program.step, hshutdown]
    rw [hsame]
    exact ⟨h, id, fun _ => .inr (Nat.le_refl _)⟩
  | interrupt =>
    rw [step_interrupt, hshutdown]
    split
    next hpolls =>
      refine ⟨⟨h.server, h.empty, populated, hscheduled.nodup, fun _ => ?_, .inl rfl⟩,
        fun _ => rfl, fun _ => .inl rfl⟩
      exact hscheduled.polls_watches hpolls
    next => exact ⟨h, id, fun _ => .inr (Nat.le_refl _)⟩

theorem Idle.returns {r : Running Program} (h : Idle r) (env : Env) : Returns env r := by
  have hkeep : ∀ (r : Running Program) (event : Event), Idle r → Idle (Program.step env r event) :=
    fun r event h => (h.step env event).1
  have hstay : ∀ (r : Running Program) (event : Event), Idle r → r.tasks = [] →
      (Program.step env r event).tasks = [] := fun r event h => (h.step env event).2.1
  have hless : ∀ (r : Running Program) (event : Event), Idle r → r.tasks ≠ [] →
      (Program.step env r event).tasks = [] ∨
        Machine.remaining (Program.step env r event) + (if event.isTask then 1 else 0) ≤
          Machine.remaining r := fun r event h => (h.step env event).2.2
  exact ⟨Machine.remaining r + 1, fun events hlong =>
    run_done (fun r => r.tasks = []) hkeep hstay hless h hlong⟩

/-- A signal is delivered while `poll` waits for a connection. -/
def Interrupts (r : Running Program) : Event → Prop
  | .interrupt => Machine.Polls r ∧ r.state.clients.forwarders ≠ []
  | _ => False

instance (r : Running Program) : ∀ event, Decidable (Interrupts r event)
  | .interrupt => inferInstanceAs (Decidable (_ ∧ _))
  | .task _ _ => .isFalse id
  | .signal => .isFalse id

theorem Steady.step_waits {env : Env} {r : Running Program} (h : Steady env r)
    (hwaits : r.tasks = [] → r.state.clients.forwarders = []) {event : Event}
    (hinterrupts : ¬ Interrupts r event) (htasks : (Program.step env r event).tasks = []) :
    (Program.step env r event).state.clients.forwarders = [] := by
  cases event with
  | task now revents =>
    by_cases hrunning : r.tasks = []
    · have hsame : Program.step env r (.task now revents) = r := by
        simp [Program.step, Machine.step, hrunning]
      rw [hsame]
      exact hwaits hrunning
    · obtain ⟨populated, hscheduled⟩ := h.scheduled
      apply (h.step (.task now revents)).owned.forwarders_of_empty
      exact h.settled.empty_of_returns hscheduled hrunning htasks
  | signal => exact hwaits htasks
  | interrupt =>
    rw [step_interrupt] at htasks ⊢
    change r.state.clients.forwarders = []
    by_cases hpolls : Machine.Polls r
    · by_contra hopen
      exact hinterrupts ⟨hpolls, hopen⟩
    · rw [if_neg hpolls] at htasks
      exact hwaits htasks

/-- One step leaves the loop waiting for the connections unless it interrupts it,
and a drained program without registrations unless `VyattaCheck` has one. -/
theorem Steady.step_drains_iff {env : Env} {r : Running Program} (h : Steady env r)
    (hwaits : r.tasks = [] → r.state.clients.forwarders = []) (event : Event) :
    Drains env (Program.step env r event) ↔ ¬ Interrupts r event ∧
      ((Program.step env r event).state.Drained → r.state.checker = none) := by
  have hnext := h.step event
  obtain ⟨populated', hscheduled'⟩ := hnext.scheduled
  have hempty := fun hdrained => hnext.owned.empty_iff hdrained
  rw [step_checker] at hempty
  constructor
  · intro hdrains
    refine ⟨fun hinterrupts => ?_, fun hdrained => ?_⟩
    · cases event with
      | interrupt =>
        have hwaits' := hdrains.waits
        rw [step_interrupt, if_pos hinterrupts.1] at hwaits'
        exact hinterrupts.2 (hwaits' rfl)
      | task now revents => exact hinterrupts
      | signal => exact hinterrupts
    · exact (hempty hdrained).mp (hdrains.returns hdrained).1
  · rintro ⟨hinterrupts, hchecker⟩
    refine ⟨h.step_waits hwaits hinterrupts, fun hdrained => ?_⟩
    have hnone := (hempty hdrained).mpr (hchecker hdrained)
    exact ⟨hnone, Idle.returns ⟨hdrained.1, hnone, populated', hscheduled'⟩ env⟩

theorem steady_start {env : Env} {config : Config.ConfigParser} {handles : List Int}
    {watched : Bool} {p : Program} (hstart : start env config handles watched = some p) :
    Steady env (Machine.start p) :=
  ⟨Owned.start hstart, ⟨_, Machine.scheduled_start (machine env) p⟩,
    Machine.settled_start (machine env) p⟩

/-- A run drains exactly when no signal interrupts a `poll` that waits for a
connection, and the program is not drained with `VyattaCheck` registered. -/
theorem drains_iff {env : Env} {config : Config.ConfigParser} {handles : List Int}
    {watched : Bool} {p : Program} (hstart : start env config handles watched = some p)
    (events : List Event) :
    Throughout (step env) (fun r event => Drains env (step env r event)) (Machine.start p) events ↔
      Throughout (step env) (fun r event => ¬ Interrupts r event ∧
        ((step env r event).state.Drained → r.state.checker = none)) (Machine.start p) events := by
  have hiff : ∀ (r : Running Program) (event : Event),
      (Steady env r ∧ (r.tasks = [] → r.state.clients.forwarders = [])) →
      (Drains env (step env r event) ↔ ¬ Interrupts r event ∧
        ((step env r event).state.Drained → r.state.checker = none)) :=
    fun r event h => h.1.step_drains_iff h.2 event
  refine throughout_iff hiff ?_ ⟨steady_start hstart, by simp [Machine.start]⟩
  intro r event h hdrains
  exact ⟨h.1.step event, hdrains.waits⟩

open Sample in
theorem drains_signalled :
    Throughout (step (env stuck)) (fun r event => Drains (env stuck) (step (env stuck) r event))
      (Machine.start (program stuck false)) (busy ++ .signal :: List.replicate 12 (task 300 [])) :=
  (drains_iff (start_eq stuck false) (busy ++ .signal :: List.replicate 12 (task 300 []))).mpr
    (by decide)

open Sample in
/-- A signal during the poll ends the run with the request unanswered. And with
`VyattaCheck` the loop is not empty after a signal to an idle server. -/
theorem drains_not :
    (¬ Throughout (step (env stuck)) (fun r event => Drains (env stuck) (step (env stuck) r event))
      (Machine.start (program stuck false)) (busy ++ [.interrupt])) ∧
    ¬ Throughout (step (env stuck)) (fun r event => Drains (env stuck) (step (env stuck) r event))
      (Machine.start (program stuck true)) [.signal] := by
  constructor
  · intro h
    rw [throughout_append] at h
    have hwaits := h.2.1.waits
    revert hwaits
    decide
  · intro h
    have hempty := (h.1.returns (by decide)).1
    revert hempty
    decide

end Dote.Program
