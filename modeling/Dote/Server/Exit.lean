import Dote.Clients.Teardown
import Dote.Server.Shutdown

/-! The end of the process. The loop may have returned with a connection open, which
is then destroyed together with its owner. -/
namespace Dote.Program
open ClientForwarders Library.Run

/-- `~VyattaCheck`. -/
def unwatch (p : Program) : Program :=
  { p.setWorld (p.checker.toList.foldl World.release p.world) with checker := none }

/-- The end of `main` destroys the checker, and the end of the process `g_dote`: the
server before `m_forwarders`. -/
def exit (p : Program) (order : List ForwarderConnection) : Destruction :=
  p.unwatch.shutdown.clients.destroy order

theorem Owned.exit_quiet_iff {p : Program} (h : p.Owned) {order : List ForwarderConnection}
    (horder : order.Perm p.clients.forwarders) :
    Quiet p.clients (p.exit order) ↔ p.clients.forwarders = [] := by
  have hlisted : p.unwatch.shutdown.clients.Listed :=
    ⟨h.listed.alive, h.listed.ids, h.listed.ids_lt⟩
  have hquiet : Quiet p.unwatch.shutdown.clients (p.exit order) ↔ p.clients.forwarders = [] :=
    hlisted.quiet_iff horder
  rw [← hquiet]
  constructor
  · exact fun h => ⟨h.closed, h.started, h.entered⟩
  · exact fun h => ⟨h.closed, h.started, h.entered⟩

def LeftOpen (r : Running Program) : Prop := r.tasks = [] ∧ r.state.clients.forwarders ≠ []

theorem LeftOpen.step {r : Running Program} (h : LeftOpen r) (env : Env) (event : Event) :
    LeftOpen (step env r event) := by
  obtain ⟨htasks, hopen⟩ := h
  cases event with
  | task now revents =>
    have hsame : Program.step env r (.task now revents) = r := by
      simp [Program.step, Machine.step, htasks]
    rw [hsame]
    exact ⟨htasks, hopen⟩
  | signal => exact ⟨htasks, hopen⟩
  | interrupt =>
    rw [step_interrupt, htasks, ite_self]
    exact ⟨rfl, hopen⟩

theorem Interrupts.leftOpen {r : Running Program} {event : Event} (h : Interrupts r event)
    (env : Env) : LeftOpen (step env r event) := by
  cases event with
  | interrupt =>
    rw [step_interrupt, if_pos h.1]
    exact ⟨rfl, h.2⟩
  | task now revents => exact h.elim
  | signal => exact h.elim

theorem forwarders_of_returned_iff {env : Env} {config : Config.ConfigParser}
    {handles : List Int} {watched : Bool} {p : Program}
    (hstart : start env config handles watched = some p) (events : List Event)
    (hreturned : (run (step env) (Machine.start p) events).tasks = []) :
    (run (step env) (Machine.start p) events).state.clients.forwarders = [] ↔
      Throughout (step env) (fun r event => ¬ Interrupts r event) (Machine.start p) events := by
  constructor
  · intro hclosed
    rw [throughout_iff_forall]
    rintro before event after rfl hinterrupts
    rw [run_append, run_cons] at hclosed
    have hkeep : ∀ (r : Running Program) (event : Event), LeftOpen r →
        LeftOpen (step env r event) := fun _ event h => h.step env event
    exact (run_preserves hkeep (hinterrupts.leftOpen env) after).2 hclosed
  · intro hinterrupts
    have hsteady : Steady env (Machine.start p) ∧
        ((Machine.start p).tasks = [] → (Machine.start p).state.clients.forwarders = []) :=
      ⟨steady_start hstart, by simp [Machine.start]⟩
    have hrun := run_invariant (I := fun r => Steady env r ∧
      (r.tasks = [] → r.state.clients.forwarders = []))
      (fun r event h hnot => ⟨h.1.step event, h.1.step_waits h.2 hnot⟩) hsteady hinterrupts
    exact hrun.2 hreturned

/-- The process ends without a call on a destroyed object exactly if no signal came while
`poll` waited for a connection. -/
theorem exit_quiet_iff {env : Env} {config : Config.ConfigParser} {handles : List Int}
    {watched : Bool} {p : Program} (hstart : start env config handles watched = some p)
    (events : List Event) (hreturned : (run (step env) (Machine.start p) events).tasks = [])
    {order : List ForwarderConnection}
    (horder : order.Perm (run (step env) (Machine.start p) events).state.clients.forwarders) :
    Quiet (run (step env) (Machine.start p) events).state.clients
        ((run (step env) (Machine.start p) events).state.exit order) ↔
      Throughout (step env) (fun r event => ¬ Interrupts r event) (Machine.start p) events := by
  rw [← forwarders_of_returned_iff hstart events hreturned]
  exact (owned_run hstart events).exit_quiet_iff horder

open Sample in
/-- The signal comes while the handshake of the one request is waited for. -/
example :
    let p := (run (step (env stuck)) (Machine.start (program stuck false))
      (busy ++ [.interrupt])).state
    (p.exit p.clients.forwarders).entered = some 0 := by
  decide +kernel

end Dote.Program
