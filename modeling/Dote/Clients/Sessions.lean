import Dote.Clients.Slots
import Dote.Connection.Sessions

/-! The session slot of the shared `Context` against the head of the forwarder
list. A session is offered to whatever forwarder is first when the next
connection is made. -/
namespace Dote
open Config Library.Run

namespace ClientForwarders

/-- What an event asks for, of the state before it, for a session that is held to be from
the head of the list behind it. -/
def EventKeeps (s : ClientForwarders) : Event → Prop
  | .request env _ =>
    s.forwarders.length < s.maxConnections → s.world.Ready env (s.queue.length + 1)
  | .callback env id callback =>
    ∀ c ∈ s.find id, Active.CallbackKeeps env s.queue.length ⟨c, s.world⟩ callback
  | .setForwarders forwarders =>
    s.world.session = none ∨ forwarders.head? = s.world.config.get
  | .elsewhere _ => True

instance (s : ClientForwarders) : ∀ event, Decidable (s.EventKeeps event)
  | .request _ _ => inferInstanceAs (Decidable (_ → _))
  | .callback _ _ _ => inferInstanceAs (Decidable (∀ c ∈ _, Active.CallbackKeeps _ _ ⟨c, _⟩ _))
  | .setForwarders _ => inferInstanceAs (Decidable (_ ∨ _))
  | .elsewhere _ => .isTrue trivial

/-- What is shared is from the head of the list, and each connection has no session but
that of its own forwarder. -/
structure FromHead (s : ClientForwarders) : Prop where
  shared : s.world.sharing.state.FromHead
  own : ∀ c ∈ s.forwarders, c.session = none ∨ c.session = some c.forwarder

section FromHead

variable {env : Env} {s : ClientForwarders}

theorem trySend_fromHead {tries : Nat} (h : s.FromHead) (hready : s.world.Ready env (tries + 1))
    (query : QueuedQuery) : (s.trySend env query).2.FromHead ∧
      ((s.trySend env query).1 = false → (s.trySend env query).2.world.Ready env tries) := by
  have hnew := ForwarderConnection.settled_new h.shared hready s.nextId
  have hsharing := Active.sharing_send (ForwarderConnection.new env s.nextId s.world) query.request
  have hkeeps := Active.send_keeps (ForwarderConnection.new env s.nextId s.world) query.request
  have htaken := Active.send_works (ForwarderConnection.new env s.nextId s.world) query.request
  unfold trySend
  dsimp only
  split
  next haccepted =>
    have hsocket := Active.socket_of_send haccepted
    refine ⟨⟨hsharing ▸ hnew.fromHead, ?_⟩, fun hcontra => by simp at hcontra⟩
    intro c hc
    rw [List.mem_append, List.mem_singleton] at hc
    rcases hc with hold | rfl
    · exact h.own c hold
    · rw [hkeeps.session, hkeeps.forwarder]
      exact ForwarderConnection.new_session env s.nextId h.shared hsocket
  next hrefused =>
    have hsocket : (ForwarderConnection.new env s.nextId s.world).self.socket = none := by
      by_contra hsome
      exact hrefused (ForwarderConnection.new_send env s.nextId s.world query.request hsome)
    rw [htaken.resolve_right fun haccepts => haccepts.1 hsocket]
    exact ⟨⟨hnew.fromHead, h.own⟩, fun _ => hnew.ready hsocket⟩

theorem sendQueued_fromHead (queue : List QueuedQuery) :
    ∀ (s : ClientForwarders) (query : QueuedQuery), s.FromHead →
      s.world.Ready env (queue.length + 1) → (sendQueued env queue s query).FromHead := by
  induction queue with
  | nil =>
    intro s query h hready
    have hsend := trySend_fromHead (s := { s with queue := [] }) ⟨h.shared, h.own⟩ hready query
    unfold sendQueued
    split
    next heq =>
      rw [heq] at hsend
      exact hsend.1
    next heq =>
      rw [heq] at hsend
      exact hsend.1
  | cons front queue ih =>
    intro s query h hready
    have hsend := trySend_fromHead (s := { s with queue := front :: queue }) ⟨h.shared, h.own⟩
      hready query
    unfold sendQueued
    split
    next heq =>
      rw [heq] at hsend
      exact hsend.1
    next s' heq =>
      rw [heq] at hsend
      exact ih s' front hsend.1 (hsend.2 rfl)

theorem dequeue_fromHead (h : s.FromHead) (hready : s.world.Ready env s.queue.length) :
    (s.dequeue env).FromHead := by
  unfold dequeue
  split
  next => exact h
  next front queue hqueue =>
    rw [hqueue] at hready
    exact sendQueued_fromHead queue { s with queue := queue } front ⟨h.shared, h.own⟩ hready

theorem handleRequest_fromHead (h : s.FromHead) (query : QueuedQuery)
    (hready : s.forwarders.length < s.maxConnections →
      s.world.Ready env (s.queue.length + 1)) : (s.handleRequest env query).FromHead := by
  unfold handleRequest
  split
  next hslot => exact sendQueued_fromHead s.queue s query h (hready hslot)
  next => exact ⟨h.shared, h.own⟩

theorem put_fromHead (h : s.FromHead) {c : ForwarderConnection} (hc : c ∈ s.forwarders)
    {a : Active} {w : World} (hkeeps : Active.Keeps ⟨c, w⟩ a)
    (hshared : a.world.sharing.state.FromHead) : (s.put a).FromHead := by
  refine ⟨hshared, ?_⟩
  intro c' hc'
  obtain ⟨old, hold, rfl⟩ := List.mem_map.mp hc'
  split
  next =>
    rw [hkeeps.session, hkeeps.forwarder]
    exact h.own c hc
  next => exact h.own old hold

theorem handleShutdown_fromHead (h : s.FromHead) (hready : s.world.Ready env s.queue.length)
    (id : Nat) : (s.handleShutdown env id).FromHead :=
  dequeue_fromHead ⟨h.shared, fun c hc => h.own c (List.mem_of_mem_eraseP hc)⟩ hready

theorem upcall_fromHead (h : s.FromHead) {c : ForwarderConnection} (hc : c ∈ s.forwarders)
    (hsettled : ((Active.mk c s.world).shutdown env).1.Settled env s.queue.length)
    (buffer : Bytes) : (s.upcall env c (.incoming buffer)).FromHead := by
  unfold upcall
  dsimp only
  split
  next => exact h
  next requester _ =>
    have hends := Active.shutdown_ends env ⟨c, s.world⟩
    have hanswered : (s.handleIncoming requester buffer).FromHead := ⟨h.shared, h.own⟩
    have hput := put_fromHead hanswered hc hends.keeps hsettled.fromHead
    split
    next a heq =>
      change (Active.mk c s.world).shutdown env = _ at heq
      rw [heq] at hsettled hends hput
      exact handleShutdown_fromHead hput (hsettled.ready (hends.ended rfl)) c.id
    next a _ _ heq =>
      change (Active.mk c s.world).shutdown env = _ at heq
      rw [heq] at hput
      exact hput

theorem call_fromHead (h : s.FromHead) (hlisted : s.Listed) (id : Nat) {callback : Callback}
    (hkeeps : ∀ c ∈ s.find id, Active.CallbackKeeps env s.queue.length ⟨c, s.world⟩ callback) :
    (s.call env id callback).FromHead := by
  unfold call
  split
  next => exact h
  next c hfind =>
    have hc := List.mem_of_find?_eq_some hfind
    have hsocket := (hlisted.alive c hc).socket
    have hkeeps := hkeeps c hfind
    have hcomes := Active.handler_comes env ⟨c, s.world⟩ callback
    have hsettled := hcomes.settled h.shared hsocket hkeeps
    have hends := hcomes.ends
    have hput := put_fromHead h hc hends.keeps hsettled.fromHead
    cases hresult : Active.handler env ⟨c, s.world⟩ callback with
    | mk a upcall =>
      rw [hresult] at hcomes hsettled hends hput
      cases upcall with
      | none => exact hput
      | shutdown => exact handleShutdown_fromHead hput (hsettled.ready (hends.ended rfl)) a.self.id
      | incoming buffer =>
        obtain ⟨id, rfl, hsuccess, hasked⟩ := hcomes.read_asked rfl
        dsimp only at hasked
        subst hasked
        refine upcall_fromHead hput ?_ ?_ buffer
        · exact List.mem_map.mpr ⟨c, hc, if_pos rfl⟩
        · exact Active.settled_shutdown hsettled.fromHead hsocket (hkeeps.2.2 hsuccess)

theorem step_fromHead (h : s.FromHead) (hlisted : s.Listed) {event : Event}
    (hkeeps : s.EventKeeps event) : (s.step event).FromHead := by
  cases event with
  | request env query => exact handleRequest_fromHead h query hkeeps
  | callback env id callback => exact call_fromHead h hlisted id hkeeps
  | setForwarders forwarders => exact ⟨h.shared.setForwarders hkeeps, h.own⟩
  | elsewhere world => exact ⟨h.shared, h.own⟩

end FromHead

/-- In every run whose events keep to the head of the list while a session is held, every
session was offered to the forwarder that it was negotiated with; and the connections that
there are have no session but that of their forwarder. -/
theorem offers_match {world : World} {config : ForwarderConfig}
    (hworld : world.sharing = .new config) (maxConnections : Nat) (events : List Event)
    (hkeeps : Throughout step EventKeeps (new world maxConnections) events) :
    let last := run step (new world maxConnections) events
    (∀ offer ∈ last.world.sharing.state.offers, offer.1 = offer.2) ∧
      ∀ c ∈ last.forwarders, c.session = none ∨ c.session = some c.forwarder := by
  have hnew : (new world maxConnections).FromHead := by
    refine ⟨?_, fun _ hc => absurd hc List.not_mem_nil⟩
    unfold new
    rw [hworld]
    exact ⟨fun _ hsession => by contradiction, fun _ hmem => absurd hmem List.not_mem_nil⟩
  have hstep : ∀ (s : ClientForwarders) (event : Event),
      s.FromHead ∧ s.Listed ∧ s.Capped → s.EventKeeps event →
      (s.step event).FromHead ∧ (s.step event).Listed ∧ (s.step event).Capped :=
    fun s event h hevent => ⟨step_fromHead h.1 h.2.1 hevent, step_capped h.2 event⟩
  have hlast := (run_invariant hstep ⟨hnew, new_capped world maxConnections⟩ hkeeps).1
  exact ⟨hlast.shared.offers, hlast.own⟩

namespace Sample

def forwarder (port : UInt16) : Forwarder := ⟨⟨.inet, port, [1, 1, 1, 1]⟩, true, [], []⟩

def world : World := ⟨.new, .new ⟨[forwarder 853, forwarder 854], 5⟩, [], 0⟩

def query : QueuedQuery := ⟨⟨3, .unspec, .unspec, -1, 0⟩, [0, 1, 0]⟩

/-- Every call of OpenSSL ends alike; new sockets have the number 7 or 8. -/
def env (answer : SslAnswer) (handle : Int) : Env where
  time _ := 0
  create _ := true
  socket _ := some handle
  ssl _ := answer
  hasSession _ := true
  receive _ := none
  reload _ := []

def success : SslAnswer := ⟨1, .other, []⟩

def fatal : SslAnswer := ⟨-1, .other, []⟩

end Sample

def Sample.resumed : List Event :=
  [.request (Sample.env Sample.fatal 7) Sample.query,
    .request (Sample.env Sample.success 7) Sample.query,
    .request (Sample.env Sample.success 8) Sample.query]

open Sample in
theorem offers_match_resumed :
    let last := run step (new Sample.world 5) resumed
    last.world.sharing.state.offers = [(forwarder 854, forwarder 854)] ∧
      (forwarder 854, forwarder 854).1 = (forwarder 854, forwarder 854).2 :=
  ⟨by decide, (offers_match (show Sample.world.sharing = _ from rfl) 5 resumed (by decide)).1
    (forwarder 854, forwarder 854) (by decide)⟩

open Sample in
/-- A read error of the first connection moves its forwarder to the end and keeps
its session, which the second one is then offered. -/
theorem offers_match_not :
    ¬ ∀ (world : World) (config : ForwarderConfig), world.sharing = .new config →
      ∀ (maxConnections : Nat) (events : List Event),
        ∀ offer ∈ (run step (new world maxConnections) events).world.sharing.state.offers,
          offer.1 = offer.2 := by
  intro h
  have hoffers := h Sample.world _ rfl 5 [.request (env success 7) query,
    .callback (env fatal 7) 0 (.incoming 0), .request (env success 8) query]
  revert hoffers
  decide

end ClientForwarders

end Dote
