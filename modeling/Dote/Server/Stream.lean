import Dote.Dns.DnsPacket
import Dote.Server.Ownership

/-! A response that comes in pieces. Whatever the first read returns is taken for
the whole response: the connection is shut down after it. -/
namespace Dote

/-- What a call of `SSL_read` delivers to a connection that is not in error. -/
inductive Delivery where
  | needRead
  | data (piece : Bytes)
deriving DecidableEq, Repr

namespace Delivery

def answer : Delivery → SslAnswer
  | .needRead => ⟨-1, .wantRead, []⟩
  | .data piece => ⟨piece.length, .other, piece⟩

def piece : Delivery → Option Bytes
  | .needRead => none
  | .data piece => some piece

end Delivery

/-- The outside, but the next question is answered with the delivery. -/
def Env.delivering (env : Env) (tick : Nat) (delivery : Delivery) : Env :=
  { env with ssl := fun other => if other = tick then delivery.answer else env.ssl other }

namespace ClientForwarders
open Library.Run

variable {others : List Other}

def reads (s : ClientForwarders) (id : Nat) : Bool :=
  match s.find id with
  | none => false
  | some c =>
    match c.socket with
    | none => false
    | some handle => (s.world.loop.find .read handle).any (·.callback = .incoming id)

/-- The socket becomes readable with the next part of the stream. -/
def deliver (env : Env) (id : Nat) (s : ClientForwarders) (delivery : Delivery) :
    ClientForwarders :=
  if s.reads id then s.call (env.delivering s.world.tick delivery) id (.incoming id) else s

theorem sendQueued_sent (env : Env) (queue : List QueuedQuery) (s : ClientForwarders)
    (query : QueuedQuery) : (sendQueued env queue s query).sent = s.sent := by
  refine sendQueued_preserves (P := fun s' => s'.sent = s.sent) ?_ ?_ queue s query rfl
  · exact fun _ _ h => h
  · intro s' query h
    unfold trySend
    dsimp only
    split
    next => exact h
    next => exact h

theorem sendQueued_not_mem (env : Env) (queue : List QueuedQuery) {s : ClientForwarders}
    (query : QueuedQuery) {id : Nat} (hlt : id < s.nextId) (hnot : id ∉ s.forwarders.map (·.id)) :
    id ∉ (sendQueued env queue s query).forwarders.map (·.id) := by
  refine (sendQueued_preserves (P := fun s' => id < s'.nextId ∧ id ∉ s'.forwarders.map (·.id))
    ?_ ?_ queue s query ⟨hlt, hnot⟩).2
  · exact fun _ _ h => h
  · intro s' query h
    obtain ⟨-, hnext, hslots⟩ := trySend_slots env s' query
    refine ⟨by omega, ?_⟩
    rcases hslots with ⟨-, c, -, hid, heq⟩ | ⟨-, heq⟩
    · rw [heq, List.map_append, List.mem_append, not_or]
      refine ⟨h.2, ?_⟩
      simp only [List.map_cons, List.map_nil, List.mem_singleton]
      omega
    · rw [heq]
      exact h.2

theorem handleShutdown_sent (env : Env) (s : ClientForwarders) (id : Nat) :
    (s.handleShutdown env id).sent = s.sent := by
  unfold handleShutdown dequeue
  split
  next => rfl
  next => exact sendQueued_sent env _ _ _

theorem reads_of_not_mem {s : ClientForwarders} {id : Nat}
    (h : id ∉ s.forwarders.map (·.id)) : s.reads id = false := by
  have hfind : s.find id = none := by
    rw [find, List.find?_eq_none]
    intro c hc hid
    rw [decide_eq_true_eq] at hid
    exact h (hid ▸ List.mem_map_of_mem hc)
  unfold reads
  rw [hfind]

theorem handleShutdown_not_mem (env : Env) {s : ClientForwarders} {id : Nat} (hlt : id < s.nextId)
    (h : id ∉ (s.forwarders.eraseP (·.id = id)).map (·.id)) :
    id ∉ (s.handleShutdown env id).forwarders.map (·.id) := by
  unfold handleShutdown dequeue
  split
  next => exact h
  next => exact sendQueued_not_mem env _ _ hlt h

structure Waits (others : List Other) (s : ClientForwarders) (c : ForwarderConnection)
    (requester : Requester) : Prop where
  listed : s.Listed
  wired : s.IsWired others
  mem : c ∈ s.forwarders
  opened : c.state = .opened
  requester : c.incoming = some requester

section Waits

variable {s : ClientForwarders} {c : ForwarderConnection} {requester : Requester}

theorem reads_eq {handle : Int} (hfind : s.find c.id = some c) (hsocket : c.socket = some handle) :
    s.reads c.id = (s.world.loop.wire handle .read).any (·.1 = .incoming c.id) := by
  unfold reads Loop.wire
  simp only [hfind, hsocket]
  cases s.world.loop.find .read handle <;> rfl

theorem Waits.reads (h : Waits others s c requester) : s.reads c.id = true := by
  obtain ⟨handle, -, -, hsocket, hlinked⟩ := Wired.handle_of_mem h.wired h.mem
  have hawaits := hlinked.awaits
  change Active.Awaits _ handle c.state at hawaits
  rw [h.opened] at hawaits
  have hread := hawaits.1
  change s.world.loop.wire handle .read = _ at hread
  rw [reads_eq (find_of_mem h.listed h.mem) hsocket, hread]
  simp

theorem put_ask (hlisted : s.Listed) (hmem : c ∈ s.forwarders) :
    s.put ⟨c, s.world.ask⟩ = { s with world := s.world.ask } := by
  obtain ⟨before, after, heq, -, hothers⟩ := find_split hlisted.ids (find_of_mem hlisted hmem)
  have hput := put_split (a := ⟨c, s.world.ask⟩) heq rfl hothers
  rw [← heq] at hput
  change { s with
    world := s.world.ask, forwarders := (s.put ⟨c, s.world.ask⟩).forwarders } = _
  rw [hput]

theorem Waits.ask (h : Waits others s c requester) :
    Waits others { s with world := s.world.ask } c requester where
  listed := ⟨h.listed.alive, h.listed.ids, h.listed.ids_lt⟩
  wired := Wired.of_same h.wired rfl fun _ _ => rfl
  mem := h.mem
  opened := h.opened
  requester := h.requester

theorem Waits.deliver_needRead (h : Waits others s c requester) (env : Env) :
    s.deliver env c.id .needRead = { s with world := s.world.ask } := by
  have hincoming : Active.incoming (env.delivering s.world.tick .needRead) ⟨c, s.world⟩ =
      (⟨c, s.world.ask⟩, .none) := by
    simp [Active.incoming, Active.sslRead, Env.delivering, Delivery.answer, doFunction, Active.ask]
  unfold deliver call
  rw [if_pos h.reads, find_of_mem h.listed h.mem]
  dsimp only [Active.handler]
  rw [hincoming]
  exact put_ask h.listed h.mem

theorem Waits.deliver_data (h : Waits others s c requester) (env : Env) {piece : Bytes}
    (hpiece : piece ≠ []) : ∃ env' : Env, s.deliver env c.id (.data piece) =
      ({ s with world := s.world.ask } : ClientForwarders).upcall env' c (.incoming piece) := by
  have hlength : 0 < piece.length := List.length_pos_of_ne_nil hpiece
  have hincoming : Active.incoming (env.delivering s.world.tick (.data piece)) ⟨c, s.world⟩ =
      (⟨c, s.world.ask⟩, .incoming piece) := by
    simp [Active.incoming, Active.sslRead, Env.delivering, Delivery.answer, doFunction, Active.ask,
      hlength, hpiece, h.requester]
  refine ⟨env.delivering s.world.tick (.data piece), ?_⟩
  unfold deliver call
  rw [if_pos h.reads, find_of_mem h.listed h.mem]
  dsimp only [Active.handler]
  rw [hincoming]
  dsimp only
  rw [put_ask h.listed h.mem]

theorem Waits.reads_upcall (h : Waits others s c requester) (env : Env) (piece : Bytes) :
    (s.upcall env c (.incoming piece)).sent = s.sent ++ (response requester piece).toList ∧
      (s.upcall env c (.incoming piece)).reads c.id = false := by
  obtain ⟨handle, -, -, hsocket, hlinked⟩ := Wired.handle_of_mem h.wired h.mem
  obtain ⟨before, after, heq, -, hothers⟩ :=
    find_split h.listed.ids (find_of_mem h.listed h.mem)
  let s' := s.handleIncoming requester piece
  have hwired : s'.IsWired others := h.wired
  have houtcome := Active.shutdown_outcome env hlinked
  have hstate := Active.shutdown_state (a := ⟨c, s.world⟩) env h.opened
  have hsettle := hwired.settle env heq hothers hsocket (h.listed.alive c h.mem).hasShutdown
    houtcome
  unfold ClientForwarders.upcall
  rw [h.requester]
  dsimp only
  split
  next a hshutdown =>
    change Active.shutdown env ⟨c, s.world⟩ = _ at hshutdown
    refine ⟨handleShutdown_sent env (s'.put a) c.id, ?_⟩
    apply reads_of_not_mem
    apply handleShutdown_not_mem
    · exact h.listed.ids_lt c h.mem
    · rw [hshutdown] at houtcome
      have hid : a.self.id = c.id := houtcome.kept.id
      rw [eraseP_put (s := s') heq hid hothers, List.mem_map]
      rintro ⟨c', hc', hid⟩
      exact hothers c' hc' hid
  next a upcall hupcall hshutdown =>
    change Active.shutdown env ⟨c, s.world⟩ = _ at hshutdown
    rw [hshutdown] at hsettle hstate houtcome
    obtain ⟨-, hlinked', -⟩ := hsettle.resolve_right fun hcontra => hupcall hcontra.1
    have hsocket' : a.self.socket = some handle := hlinked'.consistent.socket
    have hawaits : a.Awaits handle a.self.state := hlinked'.awaits
    have hshutting : a.self.state = .shuttingDown := by
      apply hstate.resolve_right
      change a.self.socket ≠ none
      simp [hsocket']
    rw [hshutting] at hawaits
    have hid : a.self.id = c.id := houtcome.kept.id
    have hfind := find_put (s := s') heq hid hothers
    rw [← hid] at hfind
    refine ⟨rfl, ?_⟩
    change (s'.put a).reads c.id = false
    rw [← hid, reads_eq hfind hsocket']
    change (a.wire handle .read).any _ = _
    cases hawaits with
    | inl hawaits =>
      rw [hawaits.1]
      rfl
    | inr hawaits =>
      rw [hawaits.1]
      rfl

end Waits

theorem deliver_of_not_reads (env : Env) {s : ClientForwarders} {id : Nat}
    (h : s.reads id = false) (deliveries : List Delivery) :
    run (deliver env id) s deliveries = s := by
  induction deliveries with
  | nil => rfl
  | cons delivery deliveries ih =>
    rw [run_cons, deliver, if_neg (by simp [h])]
    exact ih

def pieces (deliveries : List Delivery) : List Bytes := deliveries.filterMap Delivery.piece

theorem Waits.deliver_sent (env : Env) {c : ForwarderConnection} {requester : Requester}
    {deliveries : List Delivery} (hpieces : [] ∉ pieces deliveries) {s : ClientForwarders}
    (h : Waits others s c requester) : (run (deliver env c.id) s deliveries).sent =
      s.sent ++ ((pieces deliveries).head?.bind (response requester)).toList := by
  induction deliveries generalizing s with
  | nil => simp [pieces]
  | cons delivery deliveries ih =>
    rw [run_cons]
    cases delivery with
    | needRead =>
      rw [h.deliver_needRead env]
      exact ih hpieces h.ask
    | data piece =>
      have hcons : pieces (.data piece :: deliveries) = piece :: pieces deliveries := rfl
      rw [hcons, List.mem_cons, not_or] at hpieces
      obtain ⟨env', hdeliver⟩ := h.deliver_data env (Ne.symm hpieces.1)
      obtain ⟨hsent, hreads⟩ := h.ask.reads_upcall env' piece
      rw [hdeliver, deliver_of_not_reads env hreads, hsent, hcons, List.head?_cons,
        Option.bind_some]

theorem response_of_valid (requester : Requester) {message : Bytes}
    (h : DnsPacket.valid message = true) :
    (response requester message).isSome = (DnsPacket.removeEdnsPadding message).isSome := by
  unfold response
  rw [if_pos h]
  cases DnsPacket.removeEdnsPadding message <;> rfl

end ClientForwarders

namespace Program
open Library.Run ClientForwarders

/-- In every reachable state, whatever the pieces of the response are: the client
gets it, once, exactly when the first piece is all of it. -/
theorem response_pieces_iff {env : Env} {config : Config.ConfigParser} {handles : List Int}
    {watched : Bool} {p : Program} (hstart : start env config handles watched = some p)
    (events : List Event) {c : ForwarderConnection} {requester : Requester}
    (hmem : c ∈ (run (step env) (Machine.start p) events).state.clients.forwarders)
    (hopened : c.state = .opened) (hrequester : c.incoming = some requester)
    (outside : Env) {message : Bytes} {deliveries : List Delivery}
    (hvalid : DnsPacket.valid message = true) (hpieces : [] ∉ pieces deliveries)
    (hmessage : (pieces deliveries).flatten = message) :
    let clients := (run (step env) (Machine.start p) events).state.clients
    (∃ datagram, response requester message = some datagram ∧
      (run (deliver outside c.id) clients deliveries).sent = clients.sent ++ [datagram]) ↔
    pieces deliveries = [message] ∧ DnsPacket.removeEdnsPadding message ≠ none := by
  intro clients
  have howned := owned_run hstart events
  have hwaits : Waits _ clients c requester :=
    ⟨howned.listed, howned.wired, hmem, hopened, hrequester⟩
  rw [hwaits.deliver_sent outside hpieces]
  have hresponse := response_of_valid requester hvalid
  cases hlist : pieces deliveries with
  | nil =>
    rw [hlist] at hmessage
    subst hmessage
    contradiction
  | cons first rest =>
    rw [hlist, List.flatten_cons] at hmessage
    rw [hlist, List.mem_cons, not_or] at hpieces
    rw [List.head?_cons, Option.bind_some]
    cases rest with
    | nil =>
      rw [List.flatten_nil, List.append_nil] at hmessage
      subst hmessage
      cases hanswer : response requester first with
      | none =>
        rw [hanswer, Option.isSome_none, eq_comm, Option.isSome_eq_false_iff] at hresponse
        simp [Option.isNone_iff_eq_none.mp hresponse]
      | some datagram =>
        rw [hanswer, Option.isSome_some, eq_comm, Option.isSome_iff_ne_none] at hresponse
        simp [hresponse]
    | cons second rest =>
      have hflatten : (second :: rest).flatten ≠ [] := by
        intro hnil
        apply hpieces.2
        rw [List.flatten_eq_nil_iff.mp hnil second List.mem_cons_self]
        exact List.mem_cons_self
      have hfirst : response requester first = none := by
        rw [response, DnsPacket.not_valid_of_append (hmessage ▸ hvalid) hflatten]
        rfl
      rw [hfirst]
      simp

namespace Sample

def waiting : ClientForwarders :=
  (run (step (env done)) (Machine.start (program done false)) busy).state.clients

def connection : ForwarderConnection := waiting.forwarders.head (by decide)

def requester : Requester := ⟨3, address, .unspec, -1, 0⟩

def header : Bytes := [0, 12, 0, 0, 0, 0, 0, 0, 0, 0, 0, 0, 0, 0]

end Sample

open Sample in
theorem response_pieces_whole :
    ∃ datagram, response requester header = some datagram ∧
      (run (deliver (env done) connection.id) waiting [.needRead, .data header]).sent =
        waiting.sent ++ [datagram] := by
  have hopened : connection.state = .opened := by decide
  have hrequester : connection.incoming = some requester := by decide
  have hpieces : [] ∉ pieces [.needRead, .data header] := by decide
  have hmem : connection ∈ waiting.forwarders := List.head_mem _
  exact (response_pieces_iff (start_eq done false) busy hmem hopened hrequester (env done)
    (by decide) hpieces rfl).mpr ⟨rfl, by decide⟩

open Sample in
/-- The length and the message come in one read each, and nothing is sent. -/
theorem response_pieces_not :
    ¬ ∃ datagram, response requester header = some datagram ∧
      (run (deliver (env done) connection.id) waiting
        [.data (header.take 2), .data (header.drop 2)]).sent = waiting.sent ++ [datagram] := by
  rintro ⟨datagram, -, hsent⟩
  have hlength := congrArg List.length hsent
  rw [List.length_append, List.length_singleton] at hlength
  revert hlength
  decide

end Program

end Dote
