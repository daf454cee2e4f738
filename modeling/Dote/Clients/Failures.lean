import Mathlib.Algebra.Order.BigOperators.Group.List
import Dote.Clients.Slots
import Dote.Connection.Failures

/-! The reports against the connections of the owner: each open connection can still
make the one report that it was paid for when it was made. -/
namespace Dote.ClientForwarders
open Active

/-- Of the connections that were made to a forwarder, those that are open have not
reported it, and the others at most once. -/
structure Attributed (loads : List (List Config.Forwarder)) (s : ClientForwarders) : Prop where
  loads : s.world.loads = loads
  paid : ∀ forwarder, s.world.reported forwarder + (s.forwarders.map (·.opens forwarder)).sum ≤
    s.world.chosen.count forwarder

variable {loads : List (List Config.Forwarder)} {s : ClientForwarders}

theorem Attributed.trySend (h : s.Attributed loads) (env : Env) (query : QueuedQuery) :
    (s.trySend env query).2.Attributed loads := by
  have hloads := (ForwarderConnection.new_loads env s.nextId s.world).trans h.loads
  have hsend := blames_send (ForwarderConnection.new env s.nextId s.world) query.request
  rw [← hsend.loads] at hloads
  have hworld : (s.trySend env query).2.world =
      ((ForwarderConnection.new env s.nextId s.world).send query.request).2.world := by
    unfold ClientForwarders.trySend
    dsimp only
    split <;> rfl
  refine ⟨hworld ▸ hloads, fun forwarder => ?_⟩
  have hnew := ForwarderConnection.new_reported env s.nextId s.world forwarder
  have hpaid := hsend.reported forwarder
  have hold := h.paid forwarder
  dsimp only at hnew
  rw [← hsend.chosen] at hnew
  unfold ClientForwarders.trySend
  dsimp only
  split
  next =>
    dsimp only
    rw [List.map_append, List.sum_append, List.map_cons, List.map_nil, List.sum_cons,
      List.sum_nil]
    change _ + (_ + (((ForwarderConnection.new env s.nextId s.world).send
      query.request).2.self.opens forwarder + 0)) ≤ _
    omega
  next =>
    dsimp only
    omega

theorem Attributed.sendQueued (h : s.Attributed loads) (env : Env) (queue : List QueuedQuery)
    (query : QueuedQuery) : (sendQueued env queue s query).Attributed loads :=
  sendQueued_preserves (fun _ _ h => ⟨h.loads, h.paid⟩) (fun _ query h => h.trySend env query)
    queue s query h

theorem Attributed.dequeue (h : s.Attributed loads) (env : Env) :
    (s.dequeue env).Attributed loads := by
  unfold ClientForwarders.dequeue
  split
  next => exact h
  next front queue _ =>
    have hnext : Attributed loads { s with queue := queue } := ⟨h.loads, h.paid⟩
    exact hnext.sendQueued env queue front

theorem Attributed.handleRequest (h : s.Attributed loads) (env : Env) (query : QueuedQuery) :
    (s.handleRequest env query).Attributed loads := by
  unfold ClientForwarders.handleRequest
  split
  next => exact h.sendQueued env s.queue query
  next => exact ⟨h.loads, h.paid⟩

theorem Attributed.handleShutdown (h : s.Attributed loads) (env : Env) (id : Nat) :
    (s.handleShutdown env id).Attributed loads := by
  have herase : Attributed loads { s with forwarders := s.forwarders.eraseP (·.id = id) } := by
    refine ⟨h.loads, fun forwarder => ?_⟩
    have hsum : ((s.forwarders.eraseP (·.id = id)).map (·.opens forwarder)).sum ≤
        (s.forwarders.map (·.opens forwarder)).sum :=
      (List.eraseP_sublist.map _).sum_le_sum (by simp)
    exact (Nat.add_le_add_left hsum _).trans (h.paid forwarder)
  exact herase.dequeue env

theorem Attributed.put (h : s.Attributed loads) (hids : (s.forwarders.map (·.id)).Nodup)
    {id : Nat} {c : ForwarderConnection} (hfind : s.find id = some c) {a : Active}
    (hid : a.self.id = c.id) (hblames : Blames ⟨c, s.world⟩ a) : (s.put a).Attributed loads := by
  obtain ⟨before, after, heq, hc, hothers⟩ := find_split hids hfind
  refine ⟨hblames.loads.trans h.loads, fun forwarder => ?_⟩
  have hold := h.paid forwarder
  have hpaid := hblames.reported forwarder
  rw [put_split heq hid (hc ▸ hothers)]
  change a.world.reported forwarder + _ ≤ a.world.chosen.count forwarder
  rw [hblames.chosen]
  rw [heq] at hold
  simp only [List.map_append, List.map_cons, List.sum_append, List.sum_cons] at hold ⊢
  dsimp only at hpaid
  omega

theorem map_id_put (s : ClientForwarders) (a : Active) :
    (s.put a).forwarders.map (·.id) = s.forwarders.map (·.id) := by
  change (s.forwarders.map _).map _ = _
  rw [List.map_map]
  apply List.map_congr_left
  intro c _
  change (if c.id = a.self.id then a.self else c).id = c.id
  split
  next hid => exact hid.symm
  next => rfl

theorem Attributed.upcall (h : s.Attributed loads) (hids : (s.forwarders.map (·.id)).Nodup)
    (env : Env) {c : ForwarderConnection} (hfind : s.find c.id = some c) {upcall : Upcall}
    (halive : upcall = .shutdown ∨ c.Alive) : (s.upcall env c upcall).Attributed loads := by
  cases upcall with
  | none => exact h
  | shutdown => exact h.handleShutdown env c.id
  | incoming buffer =>
    unfold ClientForwarders.upcall
    dsimp only
    split
    next => exact h
    next requester _ =>
      have hanswered : (s.handleIncoming requester buffer).Attributed loads := ⟨h.loads, h.paid⟩
      have hfind' : (s.handleIncoming requester buffer).find c.id = some c := hfind
      have hends := shutdown_ends env ⟨c, s.world⟩
      have hblames := hends.blames (halive.resolve_left (by simp)).socket
      have hput : ((s.handleIncoming requester buffer).put
          (Active.shutdown env ⟨c, s.world⟩).1).Attributed loads :=
        hanswered.put hids hfind' hends.keeps.id hblames
      split
      next a heq =>
        change Active.shutdown env ⟨c, s.world⟩ = _ at heq
        rw [heq] at hput
        exact hput.handleShutdown env c.id
      next a upcall _ heq =>
        change Active.shutdown env ⟨c, s.world⟩ = _ at heq
        rw [heq] at hput
        exact hput

theorem Attributed.call (h : s.Attributed loads) (hlisted : s.Listed) (env : Env) (id : Nat)
    (callback : Callback) : (s.call env id callback).Attributed loads := by
  unfold ClientForwarders.call
  split
  next => exact h
  next c hfind =>
    have hmem := List.mem_of_find?_eq_some hfind
    have halive := hlisted.alive c hmem
    have hends := handler_ends env ⟨c, s.world⟩ callback
    have hid := hends.keeps.id
    obtain ⟨before, after, heq, hc, hothers⟩ := find_split hlisted.ids hfind
    have hfound := find_put heq hid (hc ▸ hothers)
    have hput := h.put hlisted.ids hfind hid (hends.blames halive.socket)
    dsimp only at hid
    rw [← hid] at hfound
    refine hput.upcall ?_ env hfound (hends.fate.alive halive)
    rw [map_id_put]
    exact hlisted.ids

end Dote.ClientForwarders
