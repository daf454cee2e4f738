import Dote.Clients.Relay
import Dote.Server.Responses

/-! The whole program as jobs before slots: whatever the forwarders do and whatever the
configuration is meanwhile, it is a pool of `maxConnections` slots. -/
namespace Dote
open Library

def Action.movement : Action → Option ClientForwarders.Movement
  | .request query => some (.arrive query.requester.number query)
  | .read piece => some (.answer piece.1 piece.2)
  | .write _ => none
  | .taken _ => none

namespace Program
open Library.Run ClientForwarders

def movements (env : Env) (r : Running Program) (event : Event) : List Movement :=
  (actions env r event).filterMap Action.movement ++
    r.state.clients.movements (step env r event).state.clients

structure Relays (slots : Nat) (p : Program) (done : List Movement) : Prop where
  accounted : ∃ past, p.Answers past ∧
    past.filterMap Action.wasRead = done.filterMap Pool.Label.answered
  received : p.received = (p.clients.started ++ p.clients.queue).length
  simulated : ∃ pool, (Pool.empty slots).runs done = some pool ∧
    p.clients.Abstracts (done.filterMap Pool.Label.answered) pool

theorem filterMap_answered (actions : List Action) :
    (actions.filterMap Action.movement).filterMap Pool.Label.answered =
      actions.filterMap Action.wasRead := by
  rw [List.filterMap_filterMap]
  apply List.filterMap_congr
  intro action _
  cases action <;> rfl

theorem answered_movements (s s' : ClientForwarders) :
    (s.movements s').filterMap Pool.Label.answered = [] := by
  rw [List.filterMap_eq_nil_iff]
  intro label hmem
  rw [ClientForwarders.movements, List.mem_append, List.mem_map, startedIn, List.mem_map] at hmem
  rcases hmem with ⟨id, -, rfl⟩ | ⟨id, -, rfl⟩
  · rfl
  · split <;> rfl

theorem accepts_number {env : Env} {p : Program} {handle : Int} {query : QueuedQuery}
    (h : p.accepts env handle = some query) : query.requester.number = p.received := by
  unfold accepts at h
  split at h
  next =>
    split at h
    next => contradiction
    next =>
      split at h
      next => contradiction
      next =>
        cases h
        rfl
  next => contradiction

namespace Relays

variable {slots : Nat} {p p' : Program} {done : List Movement}

theorem next (h : p.Relays slots done) (actions : List Action)
    (hanswers : ∀ past, p.Answers past → p'.Answers (past ++ actions))
    (hreceived : p'.received = (p'.clients.started ++ p'.clients.queue).length)
    (hpool : ∀ pool, p.clients.Abstracts (done.filterMap Pool.Label.answered) pool →
      ∃ pool', pool.runs (actions.filterMap Action.movement ++
          p.clients.movements p'.clients) = some pool' ∧
        p'.clients.Abstracts
          (done.filterMap Pool.Label.answered ++ actions.filterMap Action.wasRead) pool') :
    p'.Relays slots
      (done ++ (actions.filterMap Action.movement ++ p.clients.movements p'.clients)) := by
  obtain ⟨past, hpast, hread⟩ := h.accounted
  obtain ⟨pool, hruns, habstracts⟩ := h.simulated
  obtain ⟨pool', hnext, hend⟩ := hpool pool habstracts
  have hanswered : (done ++ (actions.filterMap Action.movement ++
      p.clients.movements p'.clients)).filterMap Pool.Label.answered =
      done.filterMap Pool.Label.answered ++ actions.filterMap Action.wasRead := by
    rw [List.filterMap_append, List.filterMap_append, filterMap_answered, answered_movements,
      List.append_nil]
  refine ⟨⟨past ++ actions, hanswers past hpast, ?_⟩, hreceived, pool', ?_, ?_⟩
  · rw [hanswered, List.filterMap_append, hread]
  · exact Pool.runs_trans hruns hnext
  · rw [hanswered]
    exact hend

theorem quiet (h : p.Relays slots done) (hanswers : ∀ past, p.Answers past → p'.Answers past)
    (hreceived : p'.received = p.received) (hstarted : p'.clients.started = p.clients.started)
    (hqueue : p'.clients.queue = p.clients.queue)
    (hforwarders : p'.clients.forwarders = p.clients.forwarders)
    (hmax : p'.clients.maxConnections = p.clients.maxConnections) :
    p'.Relays slots (done ++ p.clients.movements p'.clients) := by
  have hids : p'.clients.ids = p.clients.ids := by rw [ids, hforwarders, ids]
  refine h.next [] (fun past hpast => ?_) ?_ fun pool habstracts => ?_
  · rw [List.append_nil]
    exact hanswers past hpast
  · rw [hreceived, hstarted, hqueue, h.received]
  · rw [movements_same hids hstarted]
    refine ⟨pool, rfl, ?_⟩
    rw [List.filterMap_nil, List.append_nil]
    refine ⟨habstracts.slots.trans hmax.symm, ?_, ?_, ?_, habstracts.answered⟩
    · rw [hstarted, hqueue, habstracts.jobs]
    · rw [hstarted, habstracts.taken]
    · rw [hids, habstracts.running]

theorem shutdown (h : p.Relays slots done) :
    p.shutdown.Relays slots (done ++ p.clients.movements p.shutdown.clients) :=
  h.quiet (fun _ h => h.shutdown) rfl rfl rfl rfl rfl

theorem handleDnsRequest (h : p.Relays slots done) (env : Env) (handle : Int) :
    (p.handleDnsRequest env handle).Relays slots (done ++
      (((p.accepts env handle).toList.map Action.request).filterMap Action.movement ++
        p.clients.movements (p.handleDnsRequest env handle).clients)) := by
  obtain ⟨past, hpast, -⟩ := h.accounted
  have hanswers : ∀ past, p.Answers past → (p.handleDnsRequest env handle).Answers
      (past ++ (p.accepts env handle).toList.map Action.request) :=
    fun _ hpast => hpast.handleDnsRequest env handle
  rcases p.handleDnsRequest_eq env handle with ⟨w, haccepts, heq⟩ | ⟨query, w, haccepts, heq⟩
  · rw [haccepts, heq] at hanswers ⊢
    refine h.quiet (fun past hpast => ?_) rfl rfl rfl rfl rfl
    have hkept := hanswers past hpast
    rw [Option.toList_none, List.map_nil, List.append_nil] at hkept
    exact hkept
  · have hnumber : query.requester.number = p.received := p.accepts_number haccepts
    let s : ClientForwarders := { p.clients with world := w }
    have hcapped : s.Capped := ⟨hpast.owned.capped.bounded, hpast.owned.capped.waiting⟩
    have hlisted : s.Listed :=
      ⟨hpast.owned.listed.alive, hpast.owned.listed.ids, hpast.owned.listed.ids_lt⟩
    have hrequests := (handleRequest_proceeds env hcapped query).requests
    rw [haccepts, heq] at hanswers ⊢
    refine h.next _ hanswers ?_ fun pool habstracts => ?_
    · change p.received + 1 = ((s.handleRequest env query).started ++
        (s.handleRequest env query).queue).length
      rw [hrequests, List.length_append, h.received]
      rfl
    · have hjobs : pool.jobs.length = query.requester.number := by
        rw [habstracts.jobs, hnumber, h.received]
      have hsame : s.Abstracts (done.filterMap Pool.Label.answered) pool :=
        ⟨habstracts.slots, habstracts.jobs, habstracts.taken, habstracts.running,
          habstracts.answered⟩
      obtain ⟨pool', hruns, hend⟩ := hsame.handleRequest hlisted hcapped hpast.accounted.counted env
        query
      rw [hjobs] at hruns
      refine ⟨pool', hruns, ?_⟩
      rw [show ((some query).toList.map Action.request).filterMap Action.wasRead = [] from rfl,
        List.append_nil]
      exact hend

theorem call (h : p.Relays slots done) (env : Env) {handle : Int} {kind : Kind}
    {callback : Callback} {timeout : Int}
    (hwire : p.loop.wire handle kind = some (callback, timeout)) {id : Nat}
    (howner : callback.owner = some id)
    (howned : Owned { p with clients := p.clients.call env id callback }) :
    Relays slots { p with clients := p.clients.call env id callback }
      (done ++ ((actionsBy env p.clients callback).filterMap Action.movement ++
        p.clients.movements (p.clients.call env id callback))) := by
  obtain ⟨past, hpast, hread⟩ := h.accounted
  have haccounted := hpast.accounted
  rw [hread] at haccounted
  have hrequests := (step_proceeds hpast.owned.capped (.callback env id callback)).requests
  refine h.next _ (fun past hpast => hpast.call env hwire howner howned) ?_
    fun pool habstracts => ?_
  · change p.received = ((p.clients.call env id callback).started ++ _).length
    rw [h.received]
    exact congrArg List.length (hrequests.trans (List.append_nil _)).symm
  · obtain ⟨pool', hruns, hend⟩ := habstracts.call haccounted hpast.owned.listed hpast.owned.capped
      hpast.owned.wired env hwire howner
    have hmovements : (actionsBy env p.clients callback).filterMap Action.movement =
        (p.clients.readBy env callback).map fun read => .answer read.1 read.2 := by
      simp [actionsBy, List.filterMap_map, Function.comp_def, Action.movement]
    rw [hmovements, read_actionsBy]
    exact ⟨pool', hruns, hend⟩

theorem takeTurn (h : p.Relays slots done) (env : Env) (turn : Kind × Int) :
    ((machine env).takeTurn p turn).Relays slots (done ++
      ((actionsOf env p turn).filterMap Action.movement ++
        p.clients.movements ((machine env).takeTurn p turn).clients)) := by
  obtain ⟨past, hpast, -⟩ := h.accounted
  have howned := hpast.owned.callCallback env turn.1 turn.2
  have hanswers : ∀ past, p.Answers past → ((machine env).takeTurn p turn).Answers
      (past ++ actionsOf env p turn) := fun _ hpast => hpast.takeTurn env turn
  unfold Machine.takeTurn Machine.callCallback actionsOf at *
  cases hfind : p.loop.find turn.1 turn.2 with
  | none =>
    rw [show (machine env).loop p = p.loop from rfl, hfind]
    exact h.quiet (fun _ h => h) rfl rfl rfl rfl rfl
  | some entry =>
    rw [show (machine env).loop p = p.loop from rfl, hfind] at howned hanswers ⊢
    have hwire := Loop.wire_of_find hfind
    change (p.call env entry.callback turn.2).Owned at howned
    change ∀ past, p.Answers past → (p.call env entry.callback turn.2).Answers _ at hanswers
    change (p.call env entry.callback turn.2).Relays slots (done ++
      (_ ++ p.clients.movements (p.call env entry.callback turn.2).clients))
    dsimp only at hanswers ⊢
    cases hcallback : entry.callback <;> rw [hcallback] at hwire howned hanswers
    case connect id => exact h.call env hwire rfl howned
    case incoming id => exact h.call env hwire rfl howned
    case outgoing id => exact h.call env hwire rfl howned
    case shutdown id => exact h.call env hwire rfl howned
    case exception id => exact h.call env hwire rfl howned
    case handleDnsRequest => exact h.handleDnsRequest env turn.2
    case handleRead =>
      obtain ⟨w, heq, -⟩ := p.handleRead_eq env
      have hread : p.call env .handleRead turn.2 = p.setWorld w := heq
      rw [hread] at hanswers ⊢
      exact h.quiet (fun past hpast => List.append_nil past ▸ hanswers past hpast) rfl rfl rfl rfl
        rfl

theorem step (env : Env) {r : Running Program} (h : r.state.Relays slots done) (event : Event) :
    (step env r event).state.Relays slots (done ++ movements env r event) := by
  cases event with
  | task now revents =>
    change ((machine env).step r ⟨now, some revents⟩).state.Relays slots (done ++
      ((actions env r (.task now revents)).filterMap Action.movement ++ r.state.clients.movements
        ((machine env).step r ⟨now, some revents⟩).state.clients))
    rw [Machine.step_state]
    unfold actions
    dsimp only
    cases (machine env).calls r with
    | none => exact h.quiet (fun _ h => h) rfl rfl rfl rfl rfl
    | some turn =>
      rw [Option.toList_some, List.flatMap_singleton]
      exact h.takeTurn env turn
  | signal => exact h.shutdown
  | interrupt =>
    unfold movements
    rw [step_interrupt]
    exact h.shutdown

theorem start {env : Env} {config : Config.ConfigParser} {handles : List Int} {watched : Bool}
    (hstart : Program.start env config handles watched = some p) :
    p.Relays config.maxConnections [] := by
  have hreceived : p.received = 0 := by
    refine start_preserves (P := fun p => p.received = 0) hstart rfl ?_ ?_
    · intro p h
      unfold addServer
      split <;> exact h
    · intro p h
      unfold configure
      split
      next => exact h
      next => split <;> exact h
  obtain ⟨w, hclients⟩ := start_clients hstart
  refine ⟨⟨[], .start hstart, rfl⟩, ?_, .empty config.maxConnections, rfl, ?_⟩
  · rw [hreceived, hclients]
    rfl
  · rw [hclients]
    exact ⟨rfl, rfl, rfl, rfl, rfl⟩

end Relays

theorem relays_run {env : Env} {config : Config.ConfigParser} {handles : List Int}
    {watched : Bool} {p : Program} (hstart : start env config handles watched = some p)
    (events : List Event) :
    (run (step env) (Machine.start p) events).state.Relays config.maxConnections
      (trace (step env) (movements env) (Machine.start p) events) :=
  run_traces (I := fun (r : Running Program) done => r.state.Relays config.maxConnections done)
    (fun _ _ event h => h.step env event) (s := Machine.start p) (Relays.start hstart) events

/-- In every run what happens to the requests is a run of the pool: they wait in one
line, a slot that is free is given to its front before anything else happens, and a
request is answered once at most, while it has its slot. The datagrams that are sent
are the responses to the answers of the pool, in their order. -/
theorem relays {env : Env} {config : Config.ConfigParser} {handles : List Int}
    {watched : Bool} {p : Program} (hstart : start env config handles watched = some p)
    (events : List Event) :
    let clients := (run (step env) (Machine.start p) events).state.clients
    let done := trace (step env) (movements env) (Machine.start p) events
    ∃ pool, (Pool.empty config.maxConnections).runs done = some pool ∧ pool.Settled ∧
      pool.waiting = clients.queue ∧ pool.running = clients.ids.toFinset ∧ clients.ids.Nodup ∧
      clients.sent = (done.filterMap Pool.Label.answered).filterMap (answer pool.jobs) := by
  intro clients done
  have hrelays := relays_run hstart events
  obtain ⟨past, hpast, hread⟩ := hrelays.accounted
  obtain ⟨pool, hruns, habstracts⟩ := hrelays.simulated
  refine ⟨pool, hruns, habstracts.settled hpast.owned.listed hpast.owned.capped, ?_,
    habstracts.running, hpast.owned.listed.ids, ?_⟩
  · rw [Pool.waiting, habstracts.jobs, habstracts.taken, List.drop_left]
  · rw [habstracts.jobs, ← hread, answer_append hpast.accounted.started]
    exact hpast.accounted.sent

/-- In every run each request has a life of its own, however the others are going: what
has happened to it leads to where it is now. -/
theorem request_lives {env : Env} {config : Config.ConfigParser} {handles : List Int}
    {watched : Bool} {p : Program} (hstart : start env config handles watched = some p)
    (events : List Event) (id : Nat) :
    let last := (run (step env) (Machine.start p) events).state
    let done := trace (step env) (movements env) (Machine.start p) events
    Pool.Phase.unknown.lives (done.filter (·.id = id)) = some
      (if last.received ≤ id then .unknown
      else if last.clients.started.length ≤ id then .waiting
      else if id ∉ last.clients.ids then .over
      else if id ∈ (done.filterMap Pool.Label.answered).map Prod.fst then .answered
      else .running) := by
  intro last done
  have hrelays := relays_run hstart events
  obtain ⟨pool, hruns, habstracts⟩ := hrelays.simulated
  have hlives := Pool.runs_lives id done hruns
  rw [hrelays.received, ← habstracts.jobs, ← habstracts.taken]
  rw [Pool.phase_empty, Pool.phase, habstracts.running, habstracts.answered] at hlives
  simp only [List.mem_toFinset] at hlives
  exact hlives

open Sample in
theorem relays_replying :
    let events := busy ++ [task 100 [7], task 100 []]
    let last := (run (step (env replying)) (Machine.start (program replying false)) events).state
    let done := trace (step (env replying)) (movements (env replying))
      (Machine.start (program replying false)) events
    last.clients.sent.length = 1 ∧
      ∃ pool, (Pool.empty Sample.config.maxConnections).runs done = some pool ∧ pool.Settled ∧
        pool.waiting = last.clients.queue ∧ pool.running = last.clients.ids.toFinset ∧
        last.clients.ids.Nodup ∧
        last.clients.sent = (done.filterMap Pool.Label.answered).filterMap (answer pool.jobs) :=
  ⟨by decide, relays (start_eq replying false) _⟩

open Sample in
theorem request_lives_replying :
    let events := busy ++ [task 100 [7], task 100 []]
    let last := (run (step (env replying)) (Machine.start (program replying false)) events).state
    let done := trace (step (env replying)) (movements (env replying))
      (Machine.start (program replying false)) events
    Pool.Phase.unknown.lives (done.filter (·.id = 0)) = some
      (if last.received ≤ 0 then .unknown
      else if last.clients.started.length ≤ 0 then .waiting
      else if 0 ∉ last.clients.ids then .over
      else if 0 ∈ (done.filterMap Pool.Label.answered).map Prod.fst then .answered
      else .running) :=
  request_lives (start_eq replying false) _ 0

end Program

end Dote
