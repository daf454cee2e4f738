import Dote.Clients.Oblivious
import Dote.Server.Responses

/-! What is asked, and by whom, changes nothing in what the program does. -/
namespace Dote

namespace Machine

variable {σ τ C : Type}

/-- The program of one machine seen through a function is that of the other. -/
structure Seen (m : Machine σ C) (m' : Machine τ C) (f : σ → τ) : Prop where
  loop : ∀ s, m'.loop (f s) = m.loop s
  call : ∀ callback handle s, f (m.call callback handle s) = m'.call callback handle (f s)

def seen (f : σ → τ) (r : Running σ) : Running τ := ⟨f r.state, r.fds, r.currentTimeout, r.tasks⟩

variable {m : Machine σ C} {m' : Machine τ C} {f : σ → τ}

theorem Seen.callCallback (h : Seen m m' f) (kind : Kind) (handle : Int) (s : σ) :
    f (m.callCallback kind handle s) = m'.callCallback kind handle (f s) := by
  unfold Machine.callCallback
  rw [h.loop]
  cases (m.loop s).find kind handle with
  | none => rfl
  | some entry => exact h.call entry.callback handle s

theorem Seen.raiseException (h : Seen m m' f) (handle : Int) (s : σ) :
    f (m.raiseException handle s).2 = (m'.raiseException handle (f s)).2 := by
  rw [raiseException_eq, raiseException_eq, h.callCallback]

theorem Seen.step (h : Seen m m' f) (r : Running σ) (input : Input) :
    seen f (m.step r input) = m'.step (seen f r) input := by
  obtain ⟨s, fds, currentTimeout, tasks⟩ := r
  unfold Machine.step
  cases tasks with
  | nil => rfl
  | cons task tasks =>
    cases task with
    | timeout => rfl
    | sweepRead now excepted earliest =>
      dsimp only [seen]
      rw [h.loop]
      split
      next => rw [h.raiseException]
      next => rfl
    | sweepWrite now earliestRead excepted earliest =>
      dsimp only [seen]
      rw [h.loop]
      split
      next => rw [h.raiseException]
      next => rfl
    | populate =>
      dsimp only [seen]
      rw [h.loop]
    | poll =>
      dsimp only [seen]
      cases input.poll with
      | none => rfl
      | some revents =>
        dsimp only
        by_cases hfds : fds = []
        · rw [if_pos hfds]
          exact (if_pos hfds).symm
        · rw [if_neg hfds]
          exact (if_neg hfds).symm
    | turn kind handle =>
      dsimp only [seen]
      rw [takeTurn, h.callCallback]
      rfl

theorem Seen.calls (h : Seen m m' f) (r : Running σ) : m'.calls (seen f r) = m.calls r := by
  unfold Machine.calls seen
  rw [h.loop]

end Machine

/-- The bytes of a response are kept, those of a request are not. -/
def Action.veil : Action → Action
  | .request query => .request query.veil
  | .read piece => .read piece
  | .write piece => .write (piece.1, veilBuffer piece.2)
  | .taken piece => .taken (piece.1, veilBuffer piece.2)

namespace Program
open Library.Run ClientForwarders

def setClients (p : Program) (clients : ClientForwarders) : Program := { p with clients := clients }

def veil (p : Program) : Program := p.setClients p.clients.veil

section

variable (env : Env) (p : Program)

theorem tooLong_veil (message : Message) :
    message.veil.data.length > DNS_BUFFER ↔ message.data.length > DNS_BUFFER := by
  unfold Message.veil DNS_BUFFER
  dsimp only
  split
  next hlong =>
    rw [List.length_replicate]
    exact iff_of_true (by decide) hlong
  next hlong => exact iff_of_false (by decide) hlong

theorem frame_veil {message : Message} (h : ¬ message.data.length > DNS_BUFFER) :
    frame message.veil.data = veilBuffer (frame message.data) := by
  have hdata : message.veil.data = [] := if_neg h
  rw [hdata]
  rfl

theorem accepts_veil (handle : Int) :
    p.veil.accepts env.veil handle = (p.accepts env handle).map QueuedQuery.veil := by
  unfold accepts
  rw [show p.veil.sockets = p.sockets from rfl,
    show env.veil.receive p.veil.world.tick = (env.receive p.world.tick).map Message.veil from rfl]
  split
  next =>
    cases env.receive p.world.tick with
    | none => rfl
    | some message =>
      dsimp only [Option.map_some]
      simp only [tooLong_veil]
      split
      next => rfl
      next hlong =>
        rw [frame_veil hlong]
        rfl
  next => rfl

theorem handleDnsRequest_veil (handle : Int) :
    (p.handleDnsRequest env handle).veil = p.veil.handleDnsRequest env.veil handle := by
  unfold handleDnsRequest
  rw [show p.veil.sockets = p.sockets from rfl,
    show env.veil.receive p.veil.world.tick = (env.receive p.world.tick).map Message.veil from rfl]
  split
  next =>
    cases env.receive p.world.tick with
    | none => rfl
    | some message =>
      dsimp only [Option.map_some]
      simp only [tooLong_veil]
      split
      next => rfl
      next hlong =>
        rw [frame_veil hlong]
        exact congrArg (fun s => { p with clients := s, received := p.received + 1 })
          (handleRequest_veil env _ _)
  next => rfl

theorem handleRead_veil : (p.handleRead env).veil = p.veil.handleRead env.veil :=
  (List.foldl_hom veil fun _ _ => rfl).symm

theorem seen_veil : Machine.Seen (machine env) (machine env.veil) veil where
  loop _ := rfl
  call callback handle p := by
    cases callback with
    | handleDnsRequest => exact handleDnsRequest_veil env p handle
    | handleRead => exact handleRead_veil env p
    | connect id => exact congrArg p.setClients (call_veil env p.clients id _)
    | incoming id => exact congrArg p.setClients (call_veil env p.clients id _)
    | outgoing id => exact congrArg p.setClients (call_veil env p.clients id _)
    | shutdown id => exact congrArg p.setClients (call_veil env p.clients id _)
    | exception id => exact congrArg p.setClients (call_veil env p.clients id _)

theorem step_veil (r : Running Program) (event : Event) :
    Machine.seen veil (step env r event) = step env.veil (Machine.seen veil r) event := by
  cases event with
  | task now revents => exact (seen_veil env).step r _
  | signal => rfl
  | interrupt =>
    unfold step
    dsimp only
    by_cases hpolls : Machine.Polls { r with state := r.state.shutdown }
    · rw [if_pos hpolls, (seen_veil env).step]
      exact (if_pos hpolls).symm
    · rw [if_neg hpolls]
      exact (if_neg hpolls).symm

theorem actionsBy_veil (s : ClientForwarders) (callback : Callback) :
    (actionsBy env s callback).map Action.veil = actionsBy env.veil s.veil callback := by
  unfold actionsBy
  rw [readBy_veil, writtenBy_veil, takenBy_veil, List.map_append, List.map_append, List.map_map,
    List.map_map, List.map_map, List.map_map, List.map_map]
  rfl

theorem actionsOf_veil (turn : Kind × Int) :
    (actionsOf env p turn).map Action.veil = actionsOf env.veil p.veil turn := by
  unfold actionsOf
  rw [show p.veil.loop = p.loop from rfl]
  cases p.loop.find turn.1 turn.2 with
  | none => rfl
  | some entry =>
    dsimp only
    cases entry.callback with
    | handleDnsRequest =>
      dsimp only
      rw [accepts_veil]
      cases p.accepts env turn.2 with
      | none => rfl
      | some query => rfl
    | handleRead => rfl
    | connect id => rfl
    | incoming id => exact actionsBy_veil env p.clients _
    | outgoing id => exact actionsBy_veil env p.clients _
    | shutdown id => rfl
    | exception id => rfl

theorem actions_veil (r : Running Program) (event : Event) :
    (actions env r event).map Action.veil = actions env.veil (Machine.seen veil r) event := by
  cases event with
  | task now revents =>
    unfold actions
    rw [(seen_veil env).calls]
    cases (machine env).calls r with
    | none => rfl
    | some turn =>
      rw [Option.toList_some, List.flatMap_singleton, List.flatMap_singleton]
      exact actionsOf_veil env r.state turn
  | signal => rfl
  | interrupt => rfl

theorem addServers_veil (servers : List Config.SockAddr) :
    ∀ p : Program, addServers env.veil servers p = addServers env servers p := by
  induction servers with
  | nil => exact fun _ => rfl
  | cons address servers ih =>
    intro p
    unfold addServers
    dsimp only
    rw [ih]
    rfl

theorem start_veil (config : Config.ConfigParser) (handles : List Int) (watched : Bool) :
    start env.veil config handles watched = start env config handles watched := by
  unfold start listen
  rw [addServers_veil]
  rfl

end

def tooLong (message : Message) : Bool := decide (message.data.length > DNS_BUFFER)

theorem veil_congr {env : Env} {receive : Nat → Option Message}
    (h : ∀ tick, (env.receive tick).map tooLong = (receive tick).map tooLong) :
    Env.veil { env with receive := receive } = env.veil := by
  have hmessage : ∀ message message' : Message, tooLong message = tooLong message' →
      message.veil = message'.veil := by
    intro message message' hlong
    have hiff : message.data.length > DNS_BUFFER ↔ message'.data.length > DNS_BUFFER :=
      decide_eq_decide.mp hlong
    unfold DNS_BUFFER at hiff
    unfold Message.veil
    simp only [hiff]
  unfold Env.veil
  congr 1
  funext tick
  have htick := h tick
  dsimp only
  cases hreceived : env.receive tick with
  | none =>
    rw [hreceived] at htick
    rw [Option.map_eq_none_iff.mp htick.symm]
  | some message =>
    rw [hreceived] at htick
    obtain ⟨message', hreceived', hlong⟩ := Option.map_eq_some_iff.mp htick.symm
    rw [hreceived', Option.map_some, Option.map_some, hmessage message' message hlong]

/-- Two programs for which the outside does the same, and at the same moments there is a
request to be received that is not too long. Whatever is in the requests and wherever they
come from and were sent to, both do the same at every step, from the same start and from any
state: the loop, the descriptors, the connections and the queue are the same, and so are what
is read, and what is sent but for the addresses that it is sent to and from. -/
theorem oblivious {env : Env} (receive : Nat → Option Message)
    (hreceive : ∀ tick, (env.receive tick).map tooLong = (receive tick).map tooLong)
    (config : Config.ConfigParser) (handles : List Int) (watched : Bool) (p : Program)
    (events : List Event) :
    let env' := { env with receive := receive }
    let r := run (step env) (Machine.start p) events
    let r' := run (step env') (Machine.start p) events
    start env' config handles watched = start env config handles watched ∧
    r.state.world = r'.state.world ∧ r.fds = r'.fds ∧ r.tasks = r'.tasks ∧
    r.state.clients.sent.map (·.payload) = r'.state.clients.sent.map (·.payload) ∧
    r.state.veil = r'.state.veil ∧
    (trace (step env) (actions env) (Machine.start p) events).map Action.veil =
      (trace (step env') (actions env') (Machine.start p) events).map Action.veil := by
  intro env' r r'
  have hveil : env'.veil = env.veil := veil_congr hreceive
  have hstart : start env' config handles watched = start env config handles watched := by
    rw [← start_veil env', hveil, start_veil]
  have hrun : Machine.seen veil r = Machine.seen veil r' := by
    rw [run_map (step_veil env), run_map (step_veil env'), hveil]
  have hfds : (Machine.seen veil r).fds = (Machine.seen veil r').fds := by rw [hrun]
  have htasks : (Machine.seen veil r).tasks = (Machine.seen veil r').tasks := by rw [hrun]
  have hstate : (Machine.seen veil r).state = (Machine.seen veil r').state := by rw [hrun]
  have hworld : r.state.veil.world = r'.state.veil.world := by
    rw [show r.state.veil = r'.state.veil from hstate]
  have hpayload : ∀ sent : List Datagram,
      (sent.map Datagram.veil).map (·.payload) = sent.map (·.payload) := by
    intro sent
    rw [List.map_map]
    rfl
  refine ⟨hstart, hworld, hfds, htasks, ?_, hstate, ?_⟩
  · rw [← hpayload, ← hpayload r'.state.clients.sent]
    change r.state.veil.clients.sent.map (·.payload) = r'.state.veil.clients.sent.map (·.payload)
    rw [show r.state.veil = r'.state.veil from hstate]
  · rw [trace_map (step_veil env) (actions_veil env),
      trace_map (step_veil env') (actions_veil env'), hveil]

namespace Sample

def other (_ : Nat) : Option Message := some ⟨[1, 2, 3], ⟨.inet, 9, [10, 0, 0, 1]⟩, address, 2⟩

end Sample

open Sample in
theorem oblivious_replying :
    let events := busy ++ [task 100 [7], task 100 []]
    let r := run (step (Sample.env replying)) (Machine.start (program replying false)) events
    let r' := run (step { Sample.env replying with receive := other })
      (Machine.start (program replying false)) events
    r.state.clients.sent.length = 1 ∧ r.state.clients.sent ≠ r'.state.clients.sent ∧
      r.state.world = r'.state.world :=
  ⟨by decide +kernel, by decide +kernel,
    (oblivious other (fun _ => rfl) Sample.config [] false (program replying false) _).2.1⟩

end Program

end Dote
