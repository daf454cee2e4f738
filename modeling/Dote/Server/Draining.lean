import Dote.Server.Waiting

/-! How long the program still runs after the shutdown signal: nothing arrives any
more, and what waits is sent on or expires. -/
namespace Dote.Program
open Library.Run

theorem step_server {r : Running Program} (h : r.state.server = none) (env : Env)
    (event : Event) : (step env r event).state.server = none :=
  step_preserves (P := fun p => p.server = none)
    (fun kind handle p h => (callCallback_server env kind handle p).trans h) (fun _ _ => rfl) h
    event

theorem requested_of_none {r : Running Program} (h : r.state.server = none) (env : Env)
    (event : Event) : (actions env r event).filterMap Action.requested = [] := by
  have hturn : ∀ turn, (actionsOf env r.state turn).filterMap Action.requested = [] := by
    intro turn
    unfold actionsOf
    split
    next => rfl
    next entry _ =>
      split
      next => simp [accepts, sockets, h]
      next => exact requested_actionsBy env r.state.clients _
  cases event with
  | task now revents =>
    change ((((machine env).calls r).toList).flatMap _).filterMap _ = []
    cases (machine env).calls r with
    | none => rfl
    | some turn => simpa using hturn turn
  | signal => rfl
  | interrupt => rfl

variable {env : Env} {r : Running Program} {past : List Action}

theorem arrived_run (hanswers : r.state.Answers past) (h : r.state.server = none) (env : Env)
    (events : List Event) : (run (step env) r events).state.arrived = r.state.arrived := by
  have hnone : (trace (step env) (actions env) r events).filterMap Action.requested = [] := by
    induction events generalizing r past with
    | nil => rfl
    | cons event events ih =>
      rw [trace, List.filterMap_append, requested_of_none h env event, List.nil_append]
      exact ih (hanswers.step env event) (step_server h env event)
  rw [arrived_eq hanswers, arrived_eq (answers_run hanswers env events), List.filterMap_append,
    hnone, List.append_nil]

theorem spaced_append {seconds : Nat} {q : Running Program × Option Int}
    {first second : List (List Event)} : Spaced env seconds q (first ++ second) ↔
      Spaced env seconds q first ∧
        Spaced env seconds (run (stepPassed env) q first.flatten) second := by
  induction first generalizing q with
  | nil => simp [Spaced]
  | cons part first ih =>
    rw [List.cons_append, Spaced, ih, Spaced, List.flatten_cons, run_append, and_assoc]

theorem ends_of_spaced {seconds : Nat} {q : Running Program × Option Int}
    (h : Timely env seconds q) (hanswers : q.1.state.Answers past)
    (hserver : q.1.state.server = none) (hseconds : 0 < seconds)
    (hpositive : ∀ tick, 0 ≤ env.time tick) {parts : List (List Event)} {part : List Event}
    (hclock : Throughout (step env) (Ordered env) q.1 (parts ++ [part]).flatten)
    (hspaced : Spaced env seconds q (parts ++ [part]))
    (hrounds : q.1.state.clients.queue.length ≤
      parts.length * q.1.state.clients.maxConnections) :
    (run (step env) q.1 (parts ++ [part]).flatten).state.clients.queue = [] ∧
      (run (step env) q.1 (parts ++ [part]).flatten).state.clients.forwarders = [] := by
  rw [spaced_append] at hspaced
  obtain ⟨hspaced, ⟨since, revents, rest, now, rfl, hpoll, hpassed, hlater⟩, -⟩ := hspaced
  have hflatten : (parts ++ [.task since revents :: rest]).flatten =
      parts.flatten ++ .task since revents :: rest := by simp
  rw [hflatten, throughout_append] at hclock
  have hstarted := spaced_started h hanswers hseconds hpositive hclock.1 hspaced
  have hnext := timely_run h hseconds (Ordered.clocked hclock.1)
  have harrived := arrived_run hanswers hserver env parts.flatten
  have hlast := arrived_run hanswers hserver env (parts.flatten ++ .task since revents :: rest)
  rw [hflatten, run_append]
  rw [run_append] at hlast
  rw [← run_stepPassed q parts.flatten] at *
  generalize run (stepPassed env) q parts.flatten = q' at *
  have hgrows := grows_run hnext.owned env (.task since revents :: rest)
  have hnew := renewed hnext hseconds hpositive hclock.2 hpoll hpassed hlater
  rw [run_stepPassed] at hnew
  generalize (run (step env) q'.1 (.task since revents :: rest)).state = last at *
  have hle := hgrows.nextId
  unfold arrived at *
  have hqueue : last.clients.queue.length = 0 := by omega
  refine ⟨List.length_eq_zero_iff.mp hqueue, ?_⟩
  rw [List.eq_nil_iff_forall_not_mem]
  intro c hc
  have hid := hnew c hc
  omega

/-- After the shutdown every request that waits is started, slot by slot, and the last
ones expire: once more than the slots go into the queue, and there is nothing left. -/
theorem drains_bounded {config : Config.ConfigParser} {handles : List Int} {watched : Bool}
    {p : Program} (hstart : start env config handles watched = some p)
    (htimeout : 0 < config.timeout) (hpositive : ∀ tick, 0 ≤ env.time tick)
    {events : List Event} {parts : List (List Event)}
    (hclock : Throughout (step env) (Ordered env) (Machine.start p) (events ++ parts.flatten))
    (hspaced : Spaced env config.timeout
      (run (stepPassed env) (Machine.start p, none) events) parts)
    (hserver : (run (step env) (Machine.start p) events).state.server = none)
    {rounds : Nat} (hrounds : (run (step env) (Machine.start p) events).state.clients.queue.length ≤
      rounds * config.maxConnections) (hparts : parts.length = rounds + 1) :
    let last := run (step env) (Machine.start p) (events ++ parts.flatten)
    last.state.clients.queue = [] ∧ last.state.Drained ∧
      (last.state.checker = none → Returns env last) := by
  obtain ⟨parts, part, rfl⟩ : ∃ parts' part', parts = parts' ++ [part'] := by
    refine (List.eq_nil_or_concat' parts).resolve_left ?_
    rintro rfl
    contradiction
  obtain rfl : parts.length = rounds := by simpa using hparts
  rw [throughout_append] at hclock
  have htimely := timely_run (.start hstart) htimeout (Ordered.clocked hclock.1)
  have hanswers := answers_run (r := Machine.start p) (Answers.start hstart) env events
  have hgrows := (grows_start hstart).trans
    (grows_run (r := Machine.start p) (Owned.start hstart) env events)
  have hmax : (run (step env) (Machine.start p) events).state.clients.maxConnections =
      config.maxConnections := hgrows.maxConnections
  rw [← hmax] at hrounds
  have hsteady : Steady env (run (step env) (Machine.start p)
      (events ++ (parts ++ [part]).flatten)) :=
    run_preserves (fun _ event h => h.step event) (steady_start hstart) _
  have hnone : (run (step env) (Machine.start p)
      (events ++ (parts ++ [part]).flatten)).state.server = none := by
    rw [run_append]
    exact run_preserves (I := fun r : Running Program => r.state.server = none)
      (fun _ event h => step_server h env event) hserver _
  have hends : (run (step env) (Machine.start p)
        (events ++ (parts ++ [part]).flatten)).state.clients.queue = [] ∧
      (run (step env) (Machine.start p)
        (events ++ (parts ++ [part]).flatten)).state.clients.forwarders = [] := by
    rw [run_append]
    rw [← run_stepPassed (Machine.start p, none) events] at *
    exact ends_of_spaced htimely hanswers hserver htimeout hpositive hclock.2 hspaced hrounds
  have hdrained := And.intro hnone hends.2
  refine ⟨hends.1, hdrained, fun hchecker => ?_⟩
  exact Idle.returns ⟨hnone, (hsteady.owned.empty_iff hdrained).mpr hchecker, hsteady.scheduled⟩ env

namespace Sample

def expiresToo : List Event :=
  [task 110 [], task 110 [], task 120 [], task 120 [], task 120 [], task 120 []]

end Sample

open Sample in
theorem drains_bounded_expires :
    let last := run (step (late [7, 10])) (Machine.start (lateProgram [7, 10]))
      ((crowded ++ [.signal]) ++ [expires, expiresToo].flatten)
    last.state.clients.queue = [] ∧ last.state.Drained ∧
      (last.state.checker = none → Returns (late [7, 10]) last) := by
  refine drains_bounded (late_eq [7, 10]) (by decide) (late_pos [7, 10]) ?_ ?_ ?_ ?_
    rfl
  · exact ordered_of_onTime (by decide +kernel)
  · exact ⟨⟨100, _, _, 110, rfl, by decide +kernel, by decide +kernel, by decide⟩,
      ⟨110, _, _, 120, rfl, by decide +kernel, by decide +kernel, by decide⟩, trivial⟩
  · rfl
  · decide +kernel

end Dote.Program
