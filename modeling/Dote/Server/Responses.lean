import Dote.Clients.Answers
import Dote.Server.Growth
import Dote.Server.Shutdown

/-! The responses of a run of the program against its requests: each is for the
request that its connection was made for, and for no request there are two. -/
namespace Dote

/-- What the program does for its clients: a call of `handleRequest`, what one
`SSL_read` has returned on a connection, what was given to `SSL_write`, and what
`SSL_write` has taken. -/
inductive Action where
  | request (query : QueuedQuery)
  | read (piece : Nat × Bytes)
  | write (piece : Nat × Bytes)
  | taken (piece : Nat × Bytes)

namespace Action

def requested : Action → Option QueuedQuery
  | .request query => some query
  | _ => none

def wasRead : Action → Option (Nat × Bytes)
  | .read piece => some piece
  | _ => none

def wasWritten : Action → Option (Nat × Bytes)
  | .write piece => some piece
  | _ => none

def wasTaken : Action → Option (Nat × Bytes)
  | .taken piece => some piece
  | _ => none

end Action

namespace Program
open Library.Run ClientForwarders

def accepts (env : Env) (p : Program) (handle : Int) : Option QueuedQuery :=
  if p.sockets.any (·.1 = handle) then
    match env.receive p.world.tick with
    | none => none
    | some message =>
      if message.data.length > DNS_BUFFER then none
      else some ⟨⟨handle, message.client, message.server, message.interface, p.received⟩,
        frame message.data⟩
  else none

/-- What a callback of a connection reads, gives to OpenSSL, and OpenSSL takes. -/
def actionsBy (env : Env) (s : ClientForwarders) (callback : Callback) : List Action :=
  (s.readBy env callback).map .read ++
    ((s.writtenBy callback).map .write ++ (s.takenBy env callback).map .taken)

def actionsOf (env : Env) (p : Program) (turn : Kind × Int) : List Action :=
  match p.loop.find turn.1 turn.2 with
  | none => []
  | some entry =>
    match entry.callback with
    | .handleDnsRequest => (p.accepts env turn.2).toList.map .request
    | callback => actionsBy env p.clients callback

def actions (env : Env) (r : Running Program) : Event → List Action
  | .task _ _ => ((machine env).calls r).toList.flatMap (actionsOf env r.state)
  | .signal => []
  | .interrupt => []

section ActionsBy

variable (env : Env) (s : ClientForwarders) (callback : Callback)

@[simp] theorem requested_actionsBy :
    (actionsBy env s callback).filterMap Action.requested = [] := by
  simp [actionsBy, List.filterMap_map, Function.comp_def, Action.requested]

@[simp] theorem read_actionsBy :
    (actionsBy env s callback).filterMap Action.wasRead = s.readBy env callback := by
  simp [actionsBy, List.filterMap_map, Function.comp_def, Action.wasRead]

@[simp] theorem written_actionsBy :
    (actionsBy env s callback).filterMap Action.wasWritten = s.writtenBy callback := by
  simp [actionsBy, List.filterMap_map, Function.comp_def, Action.wasWritten]

@[simp] theorem taken_actionsBy :
    (actionsBy env s callback).filterMap Action.wasTaken = s.takenBy env callback := by
  simp [actionsBy, List.filterMap_map, Function.comp_def, Action.wasTaken]

end ActionsBy

theorem handleDnsRequest_eq (env : Env) (handle : Int) (p : Program) :
    (∃ w, p.accepts env handle = none ∧ p.handleDnsRequest env handle = p.setWorld w) ∨
    (∃ query w, p.accepts env handle = some query ∧ p.handleDnsRequest env handle =
      { p with
        clients := { p.clients with world := w }.handleRequest env query
        received := p.received + 1 }) := by
  unfold accepts handleDnsRequest
  split
  next =>
    dsimp only
    cases env.receive p.world.tick with
    | none => exact .inl ⟨p.world.ask, rfl, rfl⟩
    | some message =>
      dsimp only
      split
      next => exact .inl ⟨p.world.ask, rfl, rfl⟩
      next => exact .inr ⟨_, p.world.ask, rfl, rfl⟩
  next => exact .inl ⟨p.world, rfl, rfl⟩

structure Answers (p : Program) (past : List Action) : Prop where
  owned : p.Owned
  accounted : p.clients.Accounted (past.filterMap Action.wasRead)
    (past.filterMap Action.wasTaken)
  arrived : p.clients.started ++ p.clients.queue = past.filterMap Action.requested
  written : ∀ write ∈ past.filterMap Action.wasWritten, ∃ query,
    (past.filterMap Action.requested)[write.1]? = some query ∧ write.2 = query.request

namespace Answers

variable {p : Program} {past : List Action}

theorem shutdown (h : p.Answers past) : p.shutdown.Answers past where
  owned := h.owned.shutdown
  accounted := h.accounted.of_same rfl rfl rfl fun _ hc => .inl hc
  arrived := h.arrived
  written := h.written

theorem setWorld (h : p.Answers past) {w : World} (howned : (p.setWorld w).Owned) :
    (p.setWorld w).Answers past where
  owned := howned
  accounted := h.accounted.of_same rfl rfl rfl fun _ hc => .inl hc
  arrived := h.arrived
  written := h.written

theorem handleDnsRequest (h : p.Answers past) (env : Env) (handle : Int) :
    (p.handleDnsRequest env handle).Answers
      (past ++ (p.accepts env handle).toList.map .request) := by
  have howned := h.owned.handleDnsRequest env handle
  rcases p.handleDnsRequest_eq env handle with ⟨w, haccepts, heq⟩ | ⟨query, w, haccepts, heq⟩
  · rw [haccepts, heq, Option.toList_none, List.map_nil, List.append_nil]
    rw [heq] at howned
    exact h.setWorld howned
  · have hread : (past ++ (some query).toList.map Action.request).filterMap Action.wasRead =
        past.filterMap Action.wasRead := by
      simp [List.filterMap_cons, Action.wasRead]
    have hrequested : (past ++ (some query).toList.map Action.request).filterMap Action.requested =
        past.filterMap Action.requested ++ [query] := by
      simp [Action.requested]
    have hwritten : (past ++ (some query).toList.map Action.request).filterMap Action.wasWritten =
        past.filterMap Action.wasWritten := by
      simp [List.filterMap_cons, Action.wasWritten]
    have htaken : (past ++ (some query).toList.map Action.request).filterMap Action.wasTaken =
        past.filterMap Action.wasTaken := by
      simp [List.filterMap_cons, Action.wasTaken]
    have hasked : Accounted { p.clients with world := w } (past.filterMap Action.wasRead)
        (past.filterMap Action.wasTaken) := h.accounted.of_same rfl rfl rfl fun _ hc => .inl hc
    have hcapped : Capped { p.clients with world := w } :=
      ⟨h.owned.capped.bounded, h.owned.capped.waiting⟩
    have hproceeds := handleRequest_proceeds env hcapped query
    rw [haccepts]
    rw [heq] at howned ⊢
    constructor
    · exact howned
    · rw [hread, htaken]
      exact hasked.handleRequest env query
    · rw [hrequested, ← h.arrived]
      exact hproceeds.requests
    · rw [hwritten, hrequested]
      intro write hmem
      obtain ⟨query', hquery, hrequest⟩ := h.written write hmem
      refine ⟨query', ?_, hrequest⟩
      rw [List.getElem?_append_left (List.getElem?_eq_some_iff.mp hquery).1, hquery]

theorem writtenBy_eq {s : ClientForwarders} {reads taken : List (Nat × Bytes)}
    (h : s.Accounted reads taken) {callback : Callback} :
    ∀ write ∈ s.writtenBy callback, ∃ query, s.started[write.1]? = some query ∧
      write.2 = query.request := by
  intro write hmem
  cases callback with
  | outgoing id =>
    simp only [writtenBy, List.mem_map, List.mem_filter, Option.mem_toList] at hmem
    obtain ⟨buffer, ⟨hbuffer, hne⟩, rfl⟩ := hmem
    rw [Option.map_eq_some_iff] at hbuffer
    obtain ⟨c, hfind, rfl⟩ := hbuffer
    have hc := List.mem_of_find?_eq_some hfind
    have hid : c.id = id := by simpa using List.find?_some hfind
    obtain ⟨query, hquery, -, hrequest⟩ := h.given c hc
    rw [hid] at hquery
    refine ⟨query, hquery, ?_⟩
    dsimp only
    rw [hrequest, if_neg]
    intro htaken
    rw [hrequest, if_pos htaken] at hne
    simp at hne
  | _ => contradiction

theorem call (h : p.Answers past) (env : Env) {handle : Int} {kind : Kind} {callback : Callback}
    {timeout : Int} (hwire : p.loop.wire handle kind = some (callback, timeout)) {id : Nat}
    (howner : callback.owner = some id)
    (howned : Owned { p with clients := p.clients.call env id callback }) :
    Answers { p with clients := p.clients.call env id callback }
      (past ++ actionsBy env p.clients callback) := by
  have haccounted := h.accounted.call h.owned.listed h.owned.wired env hwire howner
  have hproceeds := step_proceeds h.owned.capped (.callback env id callback)
  constructor
  · exact howned
  · rw [List.filterMap_append, read_actionsBy, List.filterMap_append, taken_actionsBy]
    exact haccounted
  · rw [List.filterMap_append, requested_actionsBy, ← h.arrived]
    exact hproceeds.requests
  · rw [List.filterMap_append, written_actionsBy, List.filterMap_append, requested_actionsBy,
      List.append_nil]
    intro write hmem
    cases List.mem_append.mp hmem with
    | inl hold => exact h.written write hold
    | inr hnew =>
      obtain ⟨query, hquery, hrequest⟩ := writtenBy_eq h.accounted write hnew
      refine ⟨query, ?_, hrequest⟩
      rw [← h.arrived, List.getElem?_append_left (List.getElem?_eq_some_iff.mp hquery).1, hquery]

theorem takeTurn (h : p.Answers past) (env : Env) (turn : Kind × Int) :
    ((machine env).takeTurn p turn).Answers (past ++ actionsOf env p turn) := by
  have howned := h.owned.callCallback env turn.1 turn.2
  unfold Machine.takeTurn
  unfold Machine.callCallback actionsOf at *
  cases hfind : p.loop.find turn.1 turn.2 with
  | none =>
    rw [show (machine env).loop p = p.loop from rfl, hfind]
    dsimp only
    rw [List.append_nil]
    exact h
  | some entry =>
    rw [show (machine env).loop p = p.loop from rfl, hfind] at howned ⊢
    have hwire := Loop.wire_of_find hfind
    change (p.call env entry.callback turn.2).Owned at howned
    change (p.call env entry.callback turn.2).Answers _
    dsimp only
    cases hcallback : entry.callback <;> rw [hcallback] at hwire howned
    case connect id => exact h.call env hwire rfl howned
    case incoming id => exact h.call env hwire rfl howned
    case outgoing id => exact h.call env hwire rfl howned
    case shutdown id => exact h.call env hwire rfl howned
    case exception id => exact h.call env hwire rfl howned
    case handleDnsRequest => exact h.handleDnsRequest env turn.2
    case handleRead =>
      obtain ⟨w, heq, -⟩ := p.handleRead_eq env
      have hread : p.call env .handleRead turn.2 = p.setWorld w := heq
      rw [hread] at howned ⊢
      exact (List.append_nil past).symm ▸ h.setWorld howned

theorem step (env : Env) {r : Running Program} (h : r.state.Answers past) (event : Event) :
    (step env r event).state.Answers (past ++ actions env r event) := by
  cases event with
  | task now revents =>
    change ((machine env).step r ⟨now, some revents⟩).state.Answers _
    rw [Machine.step_state]
    unfold actions
    dsimp only
    cases (machine env).calls r with
    | none =>
      rw [Option.toList_none, List.flatMap_nil, List.append_nil]
      exact h
    | some turn =>
      rw [Option.toList_some, List.flatMap_singleton]
      exact h.takeTurn env turn
  | signal =>
    rw [actions, List.append_nil]
    exact h.shutdown
  | interrupt =>
    rw [actions, List.append_nil, step_interrupt]
    exact h.shutdown

theorem start {env : Env} {config : Config.ConfigParser} {handles : List Int} {watched : Bool}
    (hstart : Program.start env config handles watched = some p) : p.Answers [] := by
  obtain ⟨w, hclients⟩ := start_clients hstart
  refine ⟨Owned.start hstart, ?_, by rw [hclients]; rfl, by simp⟩
  rw [hclients]
  constructor <;> simp [new, ClientForwarders.new]

end Answers

theorem answers_run {r : Running Program} {past : List Action} (h : r.state.Answers past)
    (env : Env) (events : List Event) : (run (step env) r events).state.Answers
      (past ++ trace (step env) (actions env) r events) := by
  have hkeep : ∀ (r : Running Program) (past : List Action) (event : Event),
      r.state.Answers past → (step env r event).state.Answers (past ++ actions env r event) :=
    fun _ _ event h => h.step env event
  exact run_traces hkeep h events

theorem exists_sublist_filterMap {α β : Type} (f : α → Option β) (l : List α) :
    ∃ kept, kept.Sublist l ∧ List.Forall₂ (fun a b => f a = some b) kept (l.filterMap f) := by
  induction l with
  | nil => exact ⟨[], .slnil, .nil⟩
  | cons a l ih =>
    obtain ⟨kept, hsub, hforall⟩ := ih
    cases hf : f a with
    | none =>
      rw [List.filterMap_cons_none hf]
      exact ⟨kept, hsub.cons a, hforall⟩
    | some b =>
      rw [List.filterMap_cons_some hf]
      exact ⟨a :: kept, hsub.cons_cons a, .cons hf hforall⟩

theorem response_eq_some {requester : Requester} {buffer : Bytes} {datagram : Datagram}
    (h : response requester buffer = some datagram) : datagram.requester = requester ∧
      datagram.clientLength = clientLength requester.client.family ∧
      datagram.source = sourceAddress requester := by
  unfold response at h
  split at h
  next =>
    simp only [Option.bind_eq_bind, Option.bind_eq_some_iff] at h
    obtain ⟨result, -, heq⟩ := h
    cases heq
    exact ⟨rfl, rfl, rfl⟩
  next => contradiction

theorem of_read_mem {env : Env} {r : Running Program} {event : Event} {piece : Nat × Bytes}
    (h : Action.read piece ∈ actions env r event) :
    ∃ callback, piece ∈ r.state.clients.readBy env callback := by
  cases event with
  | task now revents =>
    obtain ⟨turn, -, hturn⟩ := List.mem_flatMap.mp h
    unfold actionsOf at hturn
    split at hturn
    next => simp at hturn
    next entry _ =>
      split at hturn
      next => simp at hturn
      next callback _ => exact ⟨entry.callback, by simpa [actionsBy] using hturn⟩
  | signal => contradiction
  | interrupt => contradiction

/-- The connection is for the request with its number, and holds the bytes of it until
`SSL_write` takes them. -/
def Serves (past : List Action) (c : ForwarderConnection) : Prop :=
  ∃ request, (past.filterMap Action.requested)[c.id]? = some request ∧
    c.incoming = some request.requester ∧
    ((c.id, request.request) ∈ past.filterMap Action.wasTaken ∧ c.buffer = [] ∨
      (c.id, request.request) ∉ past.filterMap Action.wasTaken ∧ c.buffer = request.request)

theorem Answers.serves {p : Program} {past : List Action} (h : p.Answers past) :
    ∀ c ∈ p.clients.forwarders, Serves past c := by
  intro c hc
  obtain ⟨request, hrequest, hrequester, hbuffer⟩ := h.accounted.given c hc
  refine ⟨request, ?_, hrequester, ?_⟩
  · rw [← h.arrived, List.getElem?_append_left (List.getElem?_eq_some_iff.mp hrequest).1,
      hrequest]
  · split at hbuffer
    next htaken => exact .inl ⟨htaken, hbuffer⟩
    next hwaits => exact .inr ⟨hwaits, hbuffer⟩

/-- In every run of the program. Each connection is for the request with its number,
and was given the bytes of it and of no other one, once; of a connection one read is
taken, while it is in the list; and each datagram that is sent is for one of the reads,
to the requester that its connection is for. -/
theorem responses {env : Env} {config : Config.ConfigParser} {handles : List Int}
    {watched : Bool} {p : Program} (hstart : start env config handles watched = some p)
    (events : List Event) :
    let state events := run (step env) (Machine.start p) events
    let done events := trace (step env) (actions env) (Machine.start p) events
    let r := state events
    let past := done events
    let requests := past.filterMap Action.requested
    let reads := past.filterMap Action.wasRead
    let writes := past.filterMap Action.wasWritten
    (reads.map Prod.fst).Nodup ∧
    (∃ answered, answered.Sublist reads ∧
      List.Forall₂ (fun read datagram => ∃ request, requests[read.1]? = some request ∧
        response request.requester read.2 = some datagram ∧
        datagram.requester = request.requester ∧
        datagram.clientLength = clientLength request.requester.client.family ∧
        datagram.source = sourceAddress request.requester) answered r.state.clients.sent) ∧
    (∀ write ∈ writes, ∃ request, requests[write.1]? = some request ∧
      write.2 = request.request) ∧
    ((past.filterMap Action.wasTaken).map Prod.fst).Nodup ∧
    (∀ c ∈ r.state.clients.forwarders, Serves past c) ∧
    (∀ before event after, events = before ++ event :: after →
      let world := (state before).state.world
      ∀ piece, Action.read piece ∈ actions env (state before) event →
        doFunction (env.ssl world.tick) = .success ∧
        piece.2 = (env.ssl world.tick).buffer.take (env.ssl world.tick).ret.toNat ∧
        ∃ c ∈ (state before).state.clients.forwarders, c.id = piece.1 ∧
          Serves (done before) c) := by
  intro state done r past requests reads writes
  have hreached : ∀ events, (state events).state.Answers (done events) :=
    answers_run (r := Machine.start p) (Answers.start hstart) env
  have hrun : r.state.Answers past := hreached events
  have hrequests : ∀ (i : Nat) (request : QueuedQuery), r.state.clients.started[i]? = some request →
      requests[i]? = some request := by
    intro i request hrequest
    have harrived : _ = requests := hrun.arrived
    rw [← harrived, List.getElem?_append_left (List.getElem?_eq_some_iff.mp hrequest).1, hrequest]
  refine ⟨hrun.accounted.once, ?_, hrun.written, hrun.accounted.takenOnce, hrun.serves, ?_⟩
  · obtain ⟨answered, hsub, hforall⟩ :=
      exists_sublist_filterMap (answer r.state.clients.started) reads
    refine ⟨answered, hsub, ?_⟩
    rw [hrun.accounted.sent]
    refine hforall.imp ?_
    intro read datagram hanswer
    obtain ⟨request, hrequest, hresponse⟩ := Option.bind_eq_some_iff.mp hanswer
    exact ⟨request, hrequests _ _ hrequest, hresponse, response_eq_some hresponse⟩
  · intro before event after _ world piece hread
    obtain ⟨callback, hmem⟩ := of_read_mem hread
    obtain ⟨hanswer, hbuffer, c, hc, hid⟩ := of_mem_readBy hmem
    exact ⟨hanswer, hbuffer, c, hc, hid, (hreached before).serves c hc⟩

namespace Sample

def replying : SslAnswer := ⟨14, .other, [0, 12, 0, 0, 0, 0, 0, 0, 0, 0, 0, 0, 0, 0]⟩

end Sample

open Sample in
/-- A request that is answered. -/
theorem responses_replying :
    let events := busy ++ [task 100 [7], task 100 []]
    let r := run (step (env replying)) (Machine.start (program replying false)) events
    let past := trace (step (env replying)) (actions (env replying))
      (Machine.start (program replying false)) events
    r.state.clients.sent.length = 1 ∧ ((past.filterMap Action.wasRead).map Prod.fst).Nodup :=
  ⟨by decide, (responses (start_eq replying false) _).1⟩

end Program

end Dote
