import Dote.Server.Deadlines
import Dote.Server.Responses

/-! How long a request waits in the queue. Each time that the configured seconds have
passed between two polls, every slot has changed hands. -/
namespace Dote
open Library.Run

namespace Program

/-- The clock, also of what it has shown: that is not after the time of a task. -/
def Ordered (env : Env) (r : Running Program) : Event → Prop
  | .task now _ => (∀ tick < r.state.world.tick, env.time tick ≤ now) ∧
      ∀ tick ≥ r.state.world.tick, now ≤ env.time tick
  | .signal => True
  | .interrupt => True

variable {env : Env} {seconds : Nat} {q : Running Program × Option Int} {events : List Event}
  {past : List Action}

theorem Ordered.clocked {r : Running Program}
    (h : Throughout (step env) (Ordered env) r events) :
    Throughout (step env) (Clocked env) r events := by
  refine throughout_of_invariant (I := fun _ => True) (fun _ _ _ _ => trivial) ?_ trivial h
  rintro r (_ | _ | _) _ hordered
  · exact hordered.2
  · trivial
  · trivial

/-- The requests that have arrived: those that were started and those that wait. -/
def arrived (p : Program) : Nat := p.clients.nextId + p.clients.queue.length

theorem arrived_eq {p : Program} (h : p.Answers past) :
    p.arrived = (past.filterMap Action.requested).length := by
  rw [arrived, h.accounted.counted, ← h.arrived, List.length_append]

theorem arrived_le {r : Running Program} (h : r.state.Answers past) (env : Env)
    (events : List Event) : r.state.arrived ≤ (run (step env) r events).state.arrived := by
  rw [arrived_eq h, arrived_eq (answers_run h env events), List.filterMap_append,
    List.length_append]
  omega

theorem length_le_of_ids {s : ClientForwarders} (hids : (s.forwarders.map (·.id)).Nodup)
    {first last : Nat} (hrange : ∀ c ∈ s.forwarders, first ≤ c.id ∧ c.id < last) :
    s.forwarders.length ≤ last - first := by
  have hsubset : (s.forwarders.map (·.id)).toFinset ⊆ Finset.Ico first last := by
    intro id hid
    rw [List.mem_toFinset, List.mem_map] at hid
    obtain ⟨c, hc, rfl⟩ := hid
    exact Finset.mem_Ico.mpr (hrange c hc)
  have hcard := Finset.card_le_card hsubset
  rwa [List.toFinset_card_of_nodup hids, List.length_map, Nat.card_Ico] at hcard

theorem renewed (h : Timely env seconds q) (hseconds : 0 < seconds)
    (hpositive : ∀ tick, 0 ≤ env.time tick) {since now : Int} {revents : Int → PollEvents}
    (hclock : Throughout (step env) (Ordered env) q.1 (.task since revents :: events))
    (hpoll : (run (stepPassed env) q (.task since revents :: events)).1.tasks.head? = some .poll)
    (hpassed : (run (stepPassed env) q (.task since revents :: events)).2 = some now)
    (hlater : since + seconds ≤ now) :
    ∀ c ∈ (run (stepPassed env) q (.task since revents :: events)).1.state.clients.forwarders,
      q.1.state.clients.nextId ≤ c.id ∧ c.id <
        (run (stepPassed env) q (.task since revents :: events)).1.state.clients.nextId := by
  have hrun := timely_run h hseconds (Ordered.clocked hclock)
  have hgrows := grows_run h.owned env (.task since revents :: events)
  rw [← run_stepPassed] at hgrows
  generalize run (stepPassed env) q (.task since revents :: events) = q' at *
  obtain ⟨r', last⟩ := q'
  cases hpassed
  obtain ⟨now', hnow, hconnections⟩ := hrun.later_of_poll hpositive hseconds hpoll
  cases hnow
  intro c hc
  refine ⟨?_, hrun.owned.listed.ids_lt c hc⟩
  rcases hgrows.connections c hc with ⟨c', hc', hkept⟩ | ⟨ops, hstamped⟩
  · -- an old one has expired by now
    obtain ⟨made, hmade, htimeout'⟩ := h.dated.dated c' hc'
    have hshown := hclock.1.1 made hmade
    have htimeout := hkept.timeout
    have hlate := (hconnections c hc).2
    omega
  · exact hstamped.fresh

theorem turnover (h : Timely env seconds q) (hseconds : 0 < seconds)
    (hpositive : ∀ tick, 0 ≤ env.time tick) {since now : Int} {revents : Int → PollEvents}
    (hclock : Throughout (step env) (Ordered env) q.1 (.task since revents :: events))
    (hpoll : (run (stepPassed env) q (.task since revents :: events)).1.tasks.head? = some .poll)
    (hpassed : (run (stepPassed env) q (.task since revents :: events)).2 = some now)
    (hlater : since + seconds ≤ now) :
    (run (stepPassed env) q (.task since revents :: events)).1.state.clients.queue = [] ∨
      q.1.state.clients.nextId + q.1.state.clients.maxConnections ≤
        (run (stepPassed env) q (.task since revents :: events)).1.state.clients.nextId := by
  have hrun := timely_run h hseconds (Ordered.clocked hclock)
  have hnew := renewed h hseconds hpositive hclock hpoll hpassed hlater
  have hgrows := grows_run h.owned env (.task since revents :: events)
  rw [← run_stepPassed] at hgrows
  generalize run (stepPassed env) q (.task since revents :: events) = q' at *
  by_cases hqueue : q'.1.state.clients.queue = []
  · exact .inl hqueue
  · right
    have hfull := hrun.owned.capped.waiting hqueue
    have hlength := length_le_of_ids hrun.owned.listed.ids hnew
    have hmax := hgrows.maxConnections
    have hle := hgrows.nextId
    omega

/-- The parts of a run: each begins with a task at some time and ends before a poll
whose pass was so many seconds later. -/
def Spaced (env : Env) (seconds : Nat) : Running Program × Option Int → List (List Event) → Prop
  | _, [] => True
  | q, part :: parts =>
    (∃ since revents rest now, part = .task since revents :: rest ∧
      (run (stepPassed env) q part).1.tasks.head? = some .poll ∧
      (run (stepPassed env) q part).2 = some now ∧ since + seconds ≤ now) ∧
    Spaced env seconds (run (stepPassed env) q part) parts

theorem spaced_started {parts : List (List Event)} (h : Timely env seconds q)
    (hanswers : q.1.state.Answers past) (hseconds : 0 < seconds)
    (hpositive : ∀ tick, 0 ≤ env.time tick)
    (hclock : Throughout (step env) (Ordered env) q.1 parts.flatten)
    (hspaced : Spaced env seconds q parts) :
    q.1.state.arrived ≤ (run (step env) q.1 parts.flatten).state.clients.nextId ∨
      q.1.state.clients.nextId + parts.length * q.1.state.clients.maxConnections ≤
        (run (step env) q.1 parts.flatten).state.clients.nextId := by
  induction parts generalizing q past with
  | nil => simp
  | cons part parts ih =>
    obtain ⟨⟨since, revents, rest, now, rfl, hpoll, hpassed, hlater⟩, hspaced⟩ := hspaced
    rw [List.flatten_cons, throughout_append] at hclock
    rw [List.flatten_cons, run_append, List.length_cons, Nat.add_mul, Nat.one_mul]
    have hturnover := turnover h hseconds hpositive hclock.1 hpoll hpassed hlater
    have hnext := timely_run h hseconds (Ordered.clocked hclock.1)
    have hgrows := grows_run h.owned env (.task since revents :: rest)
    have harrived := arrived_le hanswers env (.task since revents :: rest)
    have hanswers' := answers_run hanswers env (.task since revents :: rest)
    rw [← run_stepPassed] at hgrows harrived hanswers' hclock ⊢
    have hrest := ih hnext hanswers' hclock.2 hspaced
    have hmax := hgrows.maxConnections
    have hlast := (grows_run hnext.owned env parts.flatten).nextId
    generalize run (stepPassed env) q (.task since revents :: rest) = q' at *
    rw [hmax] at hrest
    rcases hturnover with hqueue | hslots
    · left
      have hall : q'.1.state.arrived = q'.1.state.clients.nextId := by
        rw [arrived, hqueue, List.length_nil, Nat.add_zero]
      omega
    · omega

/-- A request that waits behind `ahead` others has been started when the seconds of the
configuration have passed between two polls once more than the slots go into `ahead`. -/
theorem waits_bounded {config : Config.ConfigParser} {handles : List Int} {watched : Bool}
    {p : Program} (hstart : start env config handles watched = some p)
    (htimeout : 0 < config.timeout) (hmax : 0 < config.maxConnections)
    (hpositive : ∀ tick, 0 ≤ env.time tick) {parts : List (List Event)}
    (hclock : Throughout (step env) (Ordered env) (Machine.start p) (events ++ parts.flatten))
    (hspaced : Spaced env config.timeout
      (run (stepPassed env) (Machine.start p, none) events) parts)
    {ahead : Nat} {query : QueuedQuery}
    (hwaiting : (run (step env) (Machine.start p) events).state.clients.queue[ahead]? = some query)
    (hlong : ahead / config.maxConnections < parts.length) :
    let waiting := (run (step env) (Machine.start p) events).state.clients
    let last := (run (step env) (Machine.start p) (events ++ parts.flatten)).state.clients
    last.started[waiting.started.length + ahead]? = some query := by
  intro waiting last
  rw [throughout_append] at hclock
  have htimely := timely_run (.start hstart) htimeout (Ordered.clocked hclock.1)
  have hanswers := answers_run (r := Machine.start p) (Answers.start hstart) env events
  have hgrows := (grows_start hstart).trans
    (grows_run (r := Machine.start p) (Owned.start hstart) env events)
  have hanswers' := answers_run hanswers env parts.flatten
  have hcount := hanswers.accounted.counted
  have hcount' := hanswers'.accounted.counted
  have hstarted := hanswers.arrived
  have hstarted' := hanswers'.arrived
  rw [← run_append] at hanswers' hcount' hstarted'
  have hslots := spaced_started htimely (by rw [run_stepPassed]; exact hanswers) htimeout hpositive
    (by rw [run_stepPassed]; exact hclock.2) hspaced
  rw [run_stepPassed, ← run_append] at hslots
  have hahead : ahead < waiting.queue.length := (List.getElem?_eq_some_iff.mp hwaiting).1
  have hmore : ahead < parts.length * config.maxConnections := (Nat.div_lt_iff_lt_mul hmax).mp hlong
  have hlast : waiting.started.length + ahead < last.started.length := by
    have hconnections : waiting.maxConnections = config.maxConnections := hgrows.maxConnections
    change waiting.nextId = waiting.started.length at hcount
    change last.nextId = last.started.length at hcount'
    change waiting.nextId + waiting.queue.length ≤ last.nextId ∨
      waiting.nextId + parts.length * waiting.maxConnections ≤ last.nextId at hslots
    rw [hconnections] at hslots
    omega
  -- the requests are started in the order of their arrival
  have hsplit : last.started ++ last.queue = (waiting.started ++ waiting.queue) ++
      (trace (step env) (actions env) (run (step env) (Machine.start p) events)
        parts.flatten).filterMap Action.requested := by
    rw [hstarted, ← List.filterMap_append]
    exact hstarted'
  calc last.started[waiting.started.length + ahead]?
      = (last.started ++ last.queue)[waiting.started.length + ahead]? := by
        rw [List.getElem?_append_left hlast]
    _ = (waiting.started ++ waiting.queue)[waiting.started.length + ahead]? := by
        rw [hsplit, List.getElem?_append_left]
        rw [List.length_append]
        omega
    _ = some query := by
        rw [List.getElem?_append_right (Nat.le_add_right _ _), Nat.add_sub_cancel_left, hwaiting]

namespace Sample

/-- The clock, which moves on ten seconds at each of these questions. -/
def clock (moves : List Nat) (tick : Nat) : Int := 100 + 10 * moves.countP (· ≤ tick)

theorem clock_mono (moves : List Nat) {tick tick' : Nat} (h : tick ≤ tick') :
    clock moves tick ≤ clock moves tick' := by
  have hcount : moves.countP (· ≤ tick) ≤ moves.countP (· ≤ tick') := by
    apply List.countP_mono_left
    intro move _ hmove
    simp only [decide_eq_true_eq] at hmove ⊢
    omega
  unfold clock
  omega

def late (moves : List Nat) : Env := { Sample.env stuck with time := clock moves }

theorem late_pos (moves : List Nat) (tick : Nat) : 0 ≤ (late moves).time tick := by
  change 0 ≤ clock moves tick
  unfold clock
  omega

def OnTime (moves : List Nat) (r : Running Program) : Event → Prop
  | .task now _ =>
    clock moves (r.state.world.tick - 1) ≤ now ∧ now ≤ clock moves r.state.world.tick
  | .signal => True
  | .interrupt => True

instance (moves : List Nat) (r : Running Program) : ∀ event, Decidable (OnTime moves r event)
  | .task _ _ => inferInstanceAs (Decidable (_ ∧ _))
  | .signal => .isTrue trivial
  | .interrupt => .isTrue trivial

theorem OnTime.ordered {moves : List Nat} {r : Running Program} {event : Event}
    (h : OnTime moves r event) : Ordered (late moves) r event := by
  cases event with
  | task now revents =>
    constructor
    · exact fun tick htick => Int.le_trans (clock_mono moves (Nat.le_sub_one_of_lt htick)) h.1
    · exact fun tick htick => Int.le_trans h.2 (clock_mono moves htick)
  | signal => trivial
  | interrupt => trivial

theorem ordered_of_onTime {moves : List Nat} {r : Running Program} {events : List Event}
    (h : Throughout (step (late moves)) (OnTime moves) r events) :
    Throughout (step (late moves)) (Ordered (late moves)) r events :=
  throughout_of_invariant (I := fun _ => True) (fun _ _ _ _ => trivial)
    (fun _ _ _ h => h.ordered) trivial h

def lateProgram (moves : List Nat) : Program :=
  (start (late moves) config [0, 1, 2] false).get rfl

theorem late_eq (moves : List Nat) :
    start (late moves) config [0, 1, 2] false = some (lateProgram moves) :=
  (Option.some_get _).symm

def crowded : List Event :=
  busy ++ [task 100 [3], task 100 [], task 100 [], task 100 [], task 100 [], task 100 []]

def expires : List Event :=
  [task 100 [], task 100 [], task 110 [], task 110 [], task 110 [], task 110 []]

end Sample

open Sample in
theorem waits_bounded_expires :
    let waiting' := (run (step (late [7])) (Machine.start (lateProgram [7])) crowded).state.clients
    let last := (run (step (late [7])) (Machine.start (lateProgram [7]))
      (crowded ++ [expires].flatten)).state.clients
    waiting'.queue.length = 1 ∧
      last.started[waiting'.started.length + 0]? = waiting'.queue[0]? := by
  have hwaiting : (run (step (late [7])) (Machine.start (lateProgram [7]))
      crowded).state.clients.queue[0]? =
        some ⟨⟨3, address, .unspec, -1, 1⟩, [0, 2, 0, 1]⟩ := by decide +kernel
  refine ⟨by decide +kernel, ?_⟩
  rw [hwaiting]
  refine waits_bounded (late_eq [7]) (by decide) (by decide) (late_pos [7]) ?_ ?_ hwaiting
    (by decide)
  · exact ordered_of_onTime (by decide +kernel)
  · exact ⟨⟨100, _, _, 110, rfl, by decide +kernel, by decide +kernel, by decide⟩, trivial⟩

end Program

end Dote
