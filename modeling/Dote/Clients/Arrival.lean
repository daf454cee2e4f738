import Dote.Clients.Slots

/-! The requests in the order of their arrival: what `sendRequest` was entered
with is a prefix of the requests, and the queue is the rest. -/
namespace Dote.ClientForwarders

/-- The calls of `sendRequest` and `dequeue` that one `sendRequest` leads to: the
requests that `sendRequest` was entered with, and whether the connection took
them. -/
inductive Chain (env : Env) : ClientForwarders → QueuedQuery → List (QueuedQuery × Bool) →
    ClientForwarders → Prop where
  | accepted {s s' : ClientForwarders} {query : QueuedQuery}
      (send : s.trySend env query = (true, s')) : Chain env s query [(query, true)] s'
  | refused {s s' : ClientForwarders} {query : QueuedQuery}
      (send : s.trySend env query = (false, s')) (empty : s'.queue = []) :
      Chain env s query [(query, false)] s'
  | next {s s' s'' : ClientForwarders} {query front : QueuedQuery} {queue : List QueuedQuery}
      {attempts : List (QueuedQuery × Bool)} (send : s.trySend env query = (false, s'))
      (pop : s'.queue = front :: queue)
      (rest : Chain env { s' with queue := queue } front attempts s'') :
      Chain env s query ((query, false) :: attempts) s''

variable {env : Env} {s s' : ClientForwarders} {query : QueuedQuery}
  {attempts : List (QueuedQuery × Bool)}

theorem trySend_started (env : Env) (s : ClientForwarders) (query : QueuedQuery) :
    (s.trySend env query).2.started = s.started ++ [query] := by
  unfold trySend
  dsimp only
  split <;> rfl

/-- Every chain ends. -/
theorem sendQueued_chain (env : Env) (queue : List QueuedQuery) :
    ∀ (s : ClientForwarders) (query : QueuedQuery),
      ∃ attempts, Chain env { s with queue := queue } query attempts
        (sendQueued env queue s query) := by
  induction queue with
  | nil =>
    intro s query
    have hqueue := trySend_queue env { s with queue := [] } query
    unfold sendQueued
    cases hsend : trySend env { s with queue := [] } query with
    | mk accepted s' =>
      rw [hsend] at hqueue
      cases accepted with
      | true => exact ⟨_, .accepted hsend⟩
      | false => exact ⟨_, .refused hsend hqueue⟩
  | cons front queue ih =>
    intro s query
    have hqueue := trySend_queue env { s with queue := front :: queue } query
    unfold sendQueued
    cases hsend : trySend env { s with queue := front :: queue } query with
    | mk accepted s' =>
      rw [hsend] at hqueue
      cases accepted with
      | true => exact ⟨_, .accepted hsend⟩
      | false =>
        obtain ⟨attempts, hrest⟩ := ih s' front
        exact ⟨_, .next hsend hqueue hrest⟩

theorem sendRequest_chain (env : Env) (s : ClientForwarders) (query : QueuedQuery) :
    ∃ attempts, Chain env s query attempts (s.sendRequest env query) :=
  sendQueued_chain env s.queue s query

theorem Chain.started (h : Chain env s query attempts s') :
    s'.started = s.started ++ attempts.map Prod.fst := by
  induction h with
  | @accepted s s' query send =>
    have hstarted := trySend_started env s query
    rw [send] at hstarted
    exact hstarted
  | @refused s s' query send empty =>
    have hstarted := trySend_started env s query
    rw [send] at hstarted
    exact hstarted
  | @next s s' s'' query front queue attempts send pop rest ih =>
    have hstarted := trySend_started env s query
    rw [send] at hstarted
    change s'.started = s.started ++ [query] at hstarted
    rw [ih]
    change s'.started ++ _ = _
    rw [hstarted, List.append_assoc]
    rfl

theorem Chain.queue (h : Chain env s query attempts s') :
    query :: s.queue = attempts.map Prod.fst ++ s'.queue := by
  induction h with
  | @accepted s s' query send =>
    have hqueue := trySend_queue env s query
    rw [send] at hqueue
    change s'.queue = s.queue at hqueue
    simp [hqueue]
  | @refused s s' query send empty =>
    have hqueue := trySend_queue env s query
    rw [send] at hqueue
    change s'.queue = s.queue at hqueue
    simp [hqueue]
  | @next s s' s'' query front queue attempts send pop rest ih =>
    have hqueue := trySend_queue env s query
    rw [send] at hqueue
    change s'.queue = s.queue at hqueue
    rw [← hqueue, pop, List.map_cons, List.cons_append, ← ih]

theorem Chain.ends (h : Chain env s query attempts s') :
    ∃ refused last, attempts = refused ++ [last] ∧ (∀ attempt ∈ refused, attempt.2 = false) ∧
      (last.2 = true ∨ s'.queue = []) := by
  induction h with
  | @accepted s s' query send => exact ⟨[], _, rfl, by simp, .inl rfl⟩
  | @refused s s' query send empty => exact ⟨[], _, rfl, by simp, .inr empty⟩
  | @next s s' s'' query front queue attempts send pop rest ih =>
    obtain ⟨refused, last, heq, hrefused, hlast⟩ := ih
    refine ⟨(query, false) :: refused, last, by rw [heq, List.cons_append], ?_, hlast⟩
    intro attempt hmem
    cases List.mem_cons.mp hmem with
    | inl hfirst => rw [hfirst]
    | inr hrest => exact hrefused attempt hrest

/-- What an event of that environment does with the requests, of which `arrived`
is new: nothing is sent, or there is one chain, from the front of the queue on. -/
def Proceeds (env : Option Env) (s : ClientForwarders) (arrived : Option QueuedQuery)
    (s' : ClientForwarders) : Prop :=
  (s'.started = s.started ∧ s'.queue = s.queue ++ arrived.toList) ∨
    ∃ called ∈ env, ∃ entered front attempts, entered.started = s.started ∧
      front :: entered.queue = s.queue ++ arrived.toList ∧ Chain called entered front attempts s'

theorem Proceeds.requests {env : Option Env} {arrived : Option QueuedQuery}
    (h : Proceeds env s arrived s') :
    s'.started ++ s'.queue = (s.started ++ s.queue) ++ arrived.toList := by
  cases h with
  | inl hwaits => rw [hwaits.1, hwaits.2, List.append_assoc]
  | inr hchain =>
    obtain ⟨called, -, entered, front, attempts, hstarted, hqueue, hchain⟩ := hchain
    rw [hchain.started, hstarted, List.append_assoc, ← hchain.queue, hqueue, List.append_assoc]

theorem dequeue_proceeds (env : Env) (s : ClientForwarders) :
    Proceeds env s none (s.dequeue env) := by
  unfold dequeue
  split
  next hqueue => exact .inl ⟨rfl, by simp⟩
  next front queue hqueue =>
    obtain ⟨attempts, hchain⟩ := sendRequest_chain env { s with queue := queue } front
    refine .inr ⟨env, rfl, { s with queue := queue }, front, attempts, rfl, ?_, hchain⟩
    simp [hqueue]

theorem handleRequest_proceeds (env : Env) (hc : s.Capped) (query : QueuedQuery) :
    Proceeds env s query (s.handleRequest env query) := by
  unfold handleRequest
  split
  next hslot =>
    -- with a free slot nobody waits, so the newcomer is at the front
    have hqueue : s.queue = [] := by
      by_contra hne
      have hfull := hc.waiting hne
      omega
    obtain ⟨attempts, hchain⟩ := sendRequest_chain env s query
    refine .inr ⟨env, rfl, s, query, attempts, rfl, ?_, hchain⟩
    simp [hqueue]
  next => exact .inl ⟨rfl, rfl⟩

theorem upcall_proceeds (env : Env) (s : ClientForwarders) (c : ForwarderConnection)
    (upcall : Upcall) : Proceeds env s none (s.upcall env c upcall) := by
  have hwaits : ∀ s' : ClientForwarders, s'.started = s.started → s'.queue = s.queue →
      Proceeds env s none s' := by
    intro s' hstarted hqueue
    exact .inl ⟨hstarted, by simp [hqueue]⟩
  cases upcall with
  | none => exact hwaits s rfl rfl
  | shutdown => exact dequeue_proceeds env { s with forwarders := _ }
  | incoming buffer =>
    unfold ClientForwarders.upcall
    dsimp only
    split
    next => exact hwaits _ rfl rfl
    next =>
      split
      next => exact dequeue_proceeds env { s with world := _, forwarders := _, sent := _ }
      next => exact hwaits _ rfl rfl

def Event.environment : Event → Option Env
  | .request env _ => env
  | .callback env _ _ => env
  | .setForwarders _ => none
  | .elsewhere _ => none

def Event.requested : Event → Option QueuedQuery
  | .request _ query => query
  | .callback _ _ _ => none
  | .setForwarders _ => none
  | .elsewhere _ => none

theorem step_proceeds (hc : s.Capped) (event : Event) :
    Proceeds event.environment s event.requested (s.step event) := by
  cases event with
  | request env query => exact handleRequest_proceeds env hc query
  | callback env id callback =>
    change Proceeds env s none (s.call env id callback)
    unfold call
    split
    next => exact .inl ⟨rfl, by simp⟩
    next c hfind => exact upcall_proceeds env (s.put _) _ _
  | setForwarders forwarders => exact .inl ⟨rfl, by simp [step, Event.requested]⟩
  | elsewhere world => exact .inl ⟨rfl, by simp [step, Event.requested]⟩

/-- In every reachable state the requests that were started are the first ones of
those that have arrived, and the queue has the others. From there an event starts
none, or one chain of them, and of these only the last one can have been taken. -/
theorem arrival_order (world : World) (maxConnections : Nat) (events : List Event) :
    let s := Library.Run.run step (new world maxConnections) events
    s.started ++ s.queue = events.filterMap Event.requested ∧
      ∀ event, let s' := s.step event
        (s'.started = s.started ∧ s'.queue = s.queue ++ event.requested.toList) ∨
        ∃ env ∈ event.environment, ∃ entered front refused last,
          entered.started = s.started ∧ Chain env entered front (refused ++ [last]) s' ∧
          front :: entered.queue = s.queue ++ event.requested.toList ∧
          s.queue ++ event.requested.toList = (refused ++ [last]).map Prod.fst ++ s'.queue ∧
          s'.started = s.started ++ (refused ++ [last]).map Prod.fst ∧
          (∀ attempt ∈ refused, attempt.2 = false) ∧ (last.2 = true ∨ s'.queue = []) := by
  intro s
  have hkeep : ∀ (s : ClientForwarders) (event : Event), s.Listed ∧ s.Capped →
      (s.step event).Listed ∧ (s.step event).Capped := fun _ event h => step_capped h event
  have hnew := new_capped world maxConnections
  have hcapped : s.Listed ∧ s.Capped := Library.Run.run_preserves hkeep hnew events
  constructor
  · have hrun := Library.Run.run_gathers (fun s : ClientForwarders => s.started ++ s.queue) hkeep
      (fun s event h => (step_proceeds h.2 event).requests) hnew events
    rw [Library.Run.trace_of_events, ← List.filterMap_eq_flatMap_toList] at hrun
    exact hrun
  · intro event s'
    cases step_proceeds hcapped.2 event with
    | inl hwaits => exact .inl hwaits
    | inr hchain =>
      obtain ⟨env, henv, entered, front, attempts, hstarted, hqueue, hchain⟩ := hchain
      obtain ⟨refused, last, rfl, hrefused, hlast⟩ := hchain.ends
      refine .inr ⟨env, henv, entered, front, refused, last, hstarted, hchain, hqueue, ?_, ?_,
        hrefused, hlast⟩
      · rw [← hqueue]
        exact hchain.queue
      · rw [← hstarted]
        exact hchain.started

end Dote.ClientForwarders
