import Dote.Clients.Slots

/-! Whatever a client or the loop makes of `ClientForwarders`, to the loop it only
registers and removes. -/
namespace Dote
open Active

theorem Active.send_evolves (a : Active) (request : Bytes) :
    a.world.loop.Evolves (a.send request).2.world.loop := by
  rcases send_works a request with heq | ⟨-, -, -, b, hworks, -, heq⟩
  · rw [heq]
    exact .refl
  · rw [heq]
    exact hworks.evolves

theorem ForwarderConnection.new_evolves (env : Env) (id : Nat) (w : World) :
    w.loop.Evolves (new env id w).world.loop := by
  unfold new
  dsimp only
  split
  next chosen _ _ =>
    split
    next handle w' hopen =>
      have hloop : w'.loop = w.loop := (World.openHandle_some hopen).2.1
      rw [← hloop]
      exact (handshake_ends env ⟨_, w'⟩ id).fate.evolves
    next w' hopen =>
      have hloop : w'.loop = w.loop := (World.openHandle_none hopen).1
      change w.loop.Evolves w'.loop
      rw [hloop]
      exact .refl
  next => exact .refl

namespace ClientForwarders

theorem trySend_evolves (env : Env) (s : ClientForwarders) (query : QueuedQuery) :
    s.world.loop.Evolves (s.trySend env query).2.world.loop := by
  have hsent := (ForwarderConnection.new_evolves env s.nextId s.world).trans
    (send_evolves (ForwarderConnection.new env s.nextId s.world) query.request)
  unfold trySend
  dsimp only
  split
  next => exact hsent
  next => exact hsent

theorem sendQueued_evolves (env : Env) (queue : List QueuedQuery) (s : ClientForwarders)
    (query : QueuedQuery) : s.world.loop.Evolves (sendQueued env queue s query).world.loop := by
  refine sendQueued_preserves (P := fun s' => s.world.loop.Evolves s'.world.loop) ?_ ?_ queue s
    query .refl
  · exact fun _ _ h => h
  · exact fun s' query h => h.trans (trySend_evolves env s' query)

theorem handleRequest_evolves (s : ClientForwarders) (env : Env) (query : QueuedQuery) :
    s.world.loop.Evolves (s.handleRequest env query).world.loop := by
  unfold handleRequest
  split
  next => exact sendQueued_evolves env s.queue s query
  next => exact .refl

theorem handleShutdown_evolves (env : Env) (s : ClientForwarders) (id : Nat) :
    s.world.loop.Evolves (s.handleShutdown env id).world.loop := by
  unfold handleShutdown dequeue
  split
  next => exact .refl
  next front queue _ => exact sendQueued_evolves env queue { s with
    forwarders := s.forwarders.eraseP (·.id = id), queue := queue } front

theorem upcall_evolves (env : Env) (s : ClientForwarders) (c : ForwarderConnection)
    (upcall : Upcall) : s.world.loop.Evolves (s.upcall env c upcall).world.loop := by
  cases upcall with
  | none => exact .refl
  | shutdown => exact handleShutdown_evolves env s c.id
  | incoming buffer =>
    have hfate := shutdown_fate env ⟨c, s.world⟩
    unfold ClientForwarders.upcall
    dsimp only
    split
    next => exact .refl
    next requester _ =>
      split
      next a heq =>
        change Active.shutdown env ⟨c, s.world⟩ = _ at heq
        rw [heq] at hfate
        exact hfate.evolves.trans
          (handleShutdown_evolves env ((s.handleIncoming requester buffer).put a) c.id)
      next a upcall _ heq =>
        change Active.shutdown env ⟨c, s.world⟩ = _ at heq
        rw [heq] at hfate
        exact hfate.evolves

theorem call_evolves (s : ClientForwarders) (env : Env) (id : Nat) (callback : Callback) :
    s.world.loop.Evolves (s.call env id callback).world.loop := by
  unfold call
  split
  next => exact .refl
  next c _ =>
    have hfate := handler_fate env ⟨c, s.world⟩ callback
    exact hfate.evolves.trans (upcall_evolves env (s.put _) _ _)

end ClientForwarders

end Dote
