import Dote.Connection.ForwarderConnection
import Dote.Dns.DnsPacket

/-! `ClientForwarders`: the requests, each on a connection of its own or in the
queue. -/
namespace Dote
open Config

structure QueuedQuery where
  requester : Requester
  request : Bytes
deriving DecidableEq, Repr

/-- The arguments of `sendmsg`: `source` is the control message with the address
and the interface to send from. -/
structure Datagram where
  requester : Requester
  clientLength : Nat
  source : Option (Family × Bytes × Int)
  payload : Bytes
deriving DecidableEq, Repr

/-- `forwarders` are `m_forwarders`, which own the connections. `sent` are the
datagrams, and `started` the requests that `sendRequest` was entered with. -/
structure ClientForwarders where
  world : World
  maxConnections : Nat
  forwarders : List ForwarderConnection
  queue : List QueuedQuery
  nextId : Nat
  started : List QueuedQuery
  sent : List Datagram

def clientLength : Family → Nat
  | .inet => 16
  | .inet6 => 28
  | .unspec => 0

/-- `addSourceAddress`, when an interface is given. -/
def sourceAddress (requester : Requester) : Option (Family × Bytes × Int) :=
  if requester.interface = -1 ∨ requester.server.family = .unspec then none
  else some (requester.server.family, requester.server.addr, requester.interface)

/-- What is sent on for a buffer from the forwarder. A buffer that is not a whole
message is discarded. When `removeEdnsPadding` leaves the packet there is nothing
to be said of what is sent, which is `none` here too. -/
def response (requester : Requester) (buffer : Bytes) : Option Datagram :=
  if DnsPacket.valid buffer then do
    let (_, packet) ← DnsPacket.removeEdnsPadding buffer
    return ⟨requester, clientLength requester.client.family, sourceAddress requester,
      (DnsPacket.data packet).take (DnsPacket.length packet)⟩
  else none

namespace ClientForwarders

def new (world : World) (maxConnections : Nat) : ClientForwarders :=
  ⟨world, maxConnections, [], [], 0, [], []⟩

def find (s : ClientForwarders) (id : Nat) : Option ForwarderConnection :=
  s.forwarders.find? (·.id = id)

def put (s : ClientForwarders) (a : Active) : ClientForwarders :=
  { s with
    world := a.world
    forwarders := s.forwarders.map fun c => if c.id = a.self.id then a.self else c }

/-- `sendRequest` up to its `dequeue`: whether the new connection has taken the
request. A connection that has not is destroyed. -/
def trySend (env : Env) (s : ClientForwarders) (query : QueuedQuery) : Bool × ClientForwarders :=
  let (accepted, a) := (ForwarderConnection.new env s.nextId s.world).send query.request
  let s := { s with
    world := a.world, nextId := s.nextId + 1, started := s.started ++ [query] }
  if accepted then
    (true, { s with forwarders := s.forwarders ++
      [{ a.self with incoming := some query.requester, hasShutdown := true }] })
  else (false, s)

/-- `sendRequest`, with the queue that it goes on with. -/
def sendQueued (env : Env) : List QueuedQuery → ClientForwarders → QueuedQuery → ClientForwarders
  | queue, s, query =>
    match { s with queue := queue }.trySend env query with
    | (true, s) => s
    | (false, s) =>
      match queue with
      | [] => s
      | front :: queue => sendQueued env queue s front

def sendRequest (env : Env) (s : ClientForwarders) (query : QueuedQuery) : ClientForwarders :=
  sendQueued env s.queue s query

def dequeue (env : Env) (s : ClientForwarders) : ClientForwarders :=
  match s.queue with
  | [] => s
  | front :: queue => { s with queue := queue }.sendRequest env front

def handleRequest (env : Env) (s : ClientForwarders) (query : QueuedQuery) : ClientForwarders :=
  if s.forwarders.length < s.maxConnections then s.sendRequest env query
  else { s with queue := s.queue ++ [query] }

def handleShutdown (env : Env) (s : ClientForwarders) (id : Nat) : ClientForwarders :=
  { s with forwarders := s.forwarders.eraseP (·.id = id) }.dequeue env

def handleIncoming (s : ClientForwarders) (requester : Requester) (buffer : Bytes) :
    ClientForwarders :=
  { s with sent := s.sent ++ (response requester buffer).toList }

/-- The callbacks that a connection has made of the owner: after a response the
connection is shut down, and after its end the next request is sent. -/
def upcall (env : Env) (s : ClientForwarders) (connection : ForwarderConnection) :
    Upcall → ClientForwarders
  | .none => s
  | .shutdown => s.handleShutdown env connection.id
  | .incoming buffer =>
    match connection.incoming with
    | none => s
    | some requester =>
      let s := s.handleIncoming requester buffer
      match (Active.mk connection s.world).shutdown env with
      | (a, .shutdown) => (s.put a).handleShutdown env connection.id
      | (a, _) => s.put a

def call (env : Env) (s : ClientForwarders) (id : Nat) (callback : Callback) : ClientForwarders :=
  match s.find id with
  | none => s
  | some connection =>
    let (a, upcall) := (Active.mk connection s.world).handler env callback
    (s.put a).upcall env a.self upcall

theorem trySend_queue (env : Env) (s : ClientForwarders) (query : QueuedQuery) :
    (s.trySend env query).2.queue = s.queue := by
  unfold trySend
  dsimp only
  split <;> rfl

theorem sendQueued_preserves {env : Env} {P : ClientForwarders → Prop}
    (hqueue : ∀ (s : ClientForwarders) (queue : List QueuedQuery), P s →
      P { s with queue := queue })
    (htry : ∀ (s : ClientForwarders) (query : QueuedQuery), P s → P (s.trySend env query).2)
    (queue : List QueuedQuery) :
    ∀ (s : ClientForwarders) (query : QueuedQuery), P s → P (sendQueued env queue s query) := by
  induction queue with
  | nil =>
    intro s query h
    have hsend := htry _ query (hqueue s [] h)
    unfold sendQueued
    split
    next heq =>
      rw [heq] at hsend
      exact hsend
    next heq =>
      rw [heq] at hsend
      exact hsend
  | cons front queue ih =>
    intro s query h
    have hsend := htry _ query (hqueue s (front :: queue) h)
    unfold sendQueued
    split
    next heq =>
      rw [heq] at hsend
      exact hsend
    next s' heq =>
      rw [heq] at hsend
      exact ih s' front hsend

/-- `sendRequest` and `dequeue` call each other, as in the source. -/
theorem sendRequest_eq (env : Env) (s : ClientForwarders) (query : QueuedQuery) :
    s.sendRequest env query =
      match s.trySend env query with
      | (true, s) => s
      | (false, s) => s.dequeue env := by
  have hqueue := trySend_queue env s query
  unfold sendRequest sendQueued
  cases hsend : s.trySend env query with
  | mk accepted s' =>
    rw [hsend] at hqueue
    cases accepted with
    | true => rfl
    | false =>
      dsimp only at hqueue ⊢
      rw [← hqueue]
      unfold dequeue sendRequest
      cases s'.queue with
      | nil => rfl
      | cons front queue =>
        conv => rhs; unfold sendQueued
        conv => lhs; unfold sendQueued

end ClientForwarders

end Dote
