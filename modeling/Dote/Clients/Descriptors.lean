import Dote.Clients.Wired

/-! Whose the open descriptors are: each open connection has one, which it opened
itself, and besides these there are only those of others. -/
namespace Dote.ClientForwarders
open Active

/-- What is open are the descriptors of others and one for each connection, and none
has two owners. -/
structure Holds (others : List Int) (s : ClientForwarders) : Prop where
  owned : s.world.handles.Perm (others ++ s.forwarders.filterMap (·.socket))
  apart : s.world.handles.Nodup

variable {others : List Int} {wired : List Other} {s : ClientForwarders}
  {before after : List ForwarderConnection} {c : ForwarderConnection} {a : Active} {handle : Int}

theorem Holds.trySend (h : s.Holds others) (hwired : s.IsWired wired) (env : Env)
    (query : QueuedQuery) : (s.trySend env query).2.Holds others := by
  have hfresh := ForwarderConnection.new_fresh env s.nextId s.world
    fun _ _ => Wired.wire_of_not_open hwired
  unfold ClientForwarders.trySend
  cases hfresh.cases with
  | inl hconnected =>
    obtain ⟨handle, hunused, hlinked, hstate, hbuffer, hhandles, -⟩ := hconnected
    obtain ⟨haccepted, hlinked', -, hhandles'⟩ := send_linked hlinked hstate hbuffer query.request
    dsimp only
    rw [if_pos haccepted]
    have hsocket := hlinked'.consistent.socket
    constructor
    · dsimp only
      rw [hhandles', hhandles, List.filterMap_append, ← List.append_assoc]
      refine (h.owned.cons handle).trans ?_
      simp only [List.filterMap_cons, hsocket, List.filterMap_nil]
      exact (List.perm_append_singleton handle _).symm
    · dsimp only
      rw [hhandles', hhandles]
      exact List.nodup_cons.mpr ⟨hunused, h.apart⟩
  | inr hfailed =>
    have hsend : (ForwarderConnection.new env s.nextId s.world).send query.request =
        (false, ForwarderConnection.new env s.nextId s.world) := by
      unfold send
      rw [if_pos (.inl hfailed.1)]
    dsimp only
    rw [hsend]
    have hsame : (ForwarderConnection.new env s.nextId s.world).world.handles = s.world.handles :=
      hfailed.2.1
    exact ⟨hsame ▸ h.owned, hsame ▸ h.apart⟩

theorem Holds.sendQueued (h : s.Holds others) (hwired : s.IsWired wired) (env : Env)
    (queue : List QueuedQuery) (query : QueuedQuery) :
    (sendQueued env queue s query).Holds others := by
  have hboth := sendQueued_preserves (P := fun s => s.Holds others ∧ s.IsWired wired)
    (fun _ _ h => ⟨⟨h.1.owned, h.1.apart⟩, h.2⟩)
    (fun _ query h => ⟨h.1.trySend h.2 env query, h.2.trySend env query⟩) queue s query ⟨h, hwired⟩
  exact hboth.1

theorem Holds.dequeue (h : s.Holds others) (hwired : s.IsWired wired) (env : Env) :
    (s.dequeue env).Holds others := by
  unfold ClientForwarders.dequeue
  split
  next => exact h
  next front queue _ =>
    have hnext : Holds others { s with queue := queue } := ⟨h.owned, h.apart⟩
    exact hnext.sendQueued hwired env queue front

theorem Holds.handleRequest (h : s.Holds others) (hwired : s.IsWired wired) (env : Env)
    (query : QueuedQuery) : (s.handleRequest env query).Holds others := by
  unfold ClientForwarders.handleRequest
  split
  next => exact h.sendQueued hwired env s.queue query
  next => exact ⟨h.owned, h.apart⟩

theorem Holds.put (h : s.Holds others) (heq : s.forwarders = before ++ c :: after)
    (hid : a.self.id = c.id) (hothers : ∀ c' ∈ before ++ after, c'.id ≠ c.id)
    (hsocket : a.self.socket = c.socket) (hhandles : a.world.handles = s.world.handles) :
    (s.put a).Holds others := by
  have howned := h.owned
  rw [heq] at howned
  constructor
  · rw [put_split heq hid hothers]
    change a.world.handles.Perm _
    rw [hhandles]
    simpa [List.filterMap_cons, hsocket] using howned
  · change a.world.handles.Nodup
    rw [hhandles]
    exact h.apart

theorem Holds.erase (h : s.Holds others) (heq : s.forwarders = before ++ c :: after)
    (hid : a.self.id = c.id) (hothers : ∀ c' ∈ before ++ after, c'.id ≠ c.id)
    (hsocket : c.socket = some handle) (hhandles : a.world.handles = s.world.handles.erase handle) :
    Holds others { s.put a with forwarders := (s.put a).forwarders.eraseP (·.id = c.id) } := by
  have howned := h.owned
  rw [heq] at howned
  constructor
  · dsimp only
    rw [eraseP_put heq hid hothers]
    change a.world.handles.Perm _
    rw [hhandles]
    have hfront : s.world.handles.Perm
        (handle :: (others ++ (before ++ after).filterMap (·.socket))) := by
      refine howned.trans ?_
      simp only [List.filterMap_append, List.filterMap_cons, hsocket, ← List.append_assoc]
      exact List.perm_middle
    simpa using hfront.erase handle
  · change a.world.handles.Nodup
    rw [hhandles]
    exact h.apart.erase handle

theorem Holds.settle {result : Active × Upcall} (h : s.Holds others) (hwired : s.IsWired wired)
    (env : Env) (heq : s.forwarders = before ++ c :: after)
    (hothers : ∀ c' ∈ before ++ after, c'.id ≠ c.id) (hsocket : c.socket = some handle)
    (hshutdown : c.hasShutdown = true) (houtcome : Outcome handle ⟨c, s.world⟩ result) :
    (result.2 ≠ .shutdown ∧ result.1.Linked handle ∧ (s.put result.1).Holds others ∧
        (s.put result.1).IsWired wired) ∨
      (result.2 = .shutdown ∧ ((s.put result.1).handleShutdown env c.id).Holds others) := by
  have hid : result.1.self.id = c.id := houtcome.kept.id
  have hsplit : Wired wired s.world (before ++ c :: after) := heq ▸ hwired
  obtain ⟨hopen, hother, -⟩ := hsplit.linked_of_socket (by simp) hsocket
  cases houtcome.cases with
  | inl hlinked =>
    refine .inl ⟨hlinked.2.2, hlinked.1, h.put heq hid hothers ?_ hlinked.2.1, ?_⟩
    · rw [hlinked.1.consistent.socket, hsocket]
    · unfold IsWired
      rw [put_split heq hid hothers]
      exact hsplit.replace hother hopen hsocket houtcome.kept hlinked.1 hlinked.2.1
  | inr hended =>
    have hupcall : result.2 = .shutdown := by
      rw [hended.2.2]
      change (if c.hasShutdown = true then _ else _) = _
      rw [if_pos hshutdown]
    refine .inr ⟨hupcall, ?_⟩
    unfold ClientForwarders.handleShutdown
    have hremoved : IsWired wired
        { s.put result.1 with forwarders := (s.put result.1).forwarders.eraseP (·.id = c.id) } := by
      unfold IsWired
      dsimp only
      rw [eraseP_put heq hid hothers]
      exact hsplit.remove hother hsocket houtcome.kept hended.1 hended.2.1
    exact Holds.dequeue (h.erase heq hid hothers hsocket hended.2.1) hremoved env

theorem Holds.upcall {result : Active × Upcall} (h : s.Holds others) (hwired : s.IsWired wired)
    (env : Env) (heq : s.forwarders = before ++ c :: after)
    (hothers : ∀ c' ∈ before ++ after, c'.id ≠ c.id) (hsocket : c.socket = some handle)
    (hshutdown : c.hasShutdown = true) (houtcome : Outcome handle ⟨c, s.world⟩ result) :
    ((s.put result.1).upcall env result.1.self result.2).Holds others := by
  have hid : result.1.self.id = c.id := houtcome.kept.id
  rcases h.settle hwired env heq hothers hsocket hshutdown houtcome with
    ⟨hupcall, hlinked, hput, hputWired⟩ | ⟨hupcall, hnext⟩
  · cases hresult : result.2 with
    | none => exact hput
    | shutdown => exact absurd hresult hupcall
    | incoming buffer =>
      unfold ClientForwarders.upcall
      dsimp only
      split
      next => exact hput
      next requester _ =>
        let s' := (s.put result.1).handleIncoming requester buffer
        have hput' : s'.Holds others := ⟨hput.owned, hput.apart⟩
        have hwired' : s'.IsWired wired := hputWired
        have houtcome' := shutdown_outcome env hlinked
        have hsettle := hput'.settle hwired' env (put_split heq hid hothers)
          (by rw [hid]; exact hothers) hlinked.consistent.socket
          (houtcome.kept.hasShutdown.trans hshutdown) houtcome'
        split
        next a hresult' =>
          change (result.1.shutdown env) = _ at hresult'
          rw [hresult'] at hsettle
          exact (hsettle.resolve_left fun hcontra => hcontra.1 rfl).2
        next a upcall hupcall' hresult' =>
          change (result.1.shutdown env) = _ at hresult'
          rw [hresult'] at hsettle
          exact (hsettle.resolve_right fun hcontra => hupcall' hcontra.1).2.2.1
  · rw [hupcall, ClientForwarders.upcall, hid]
    exact hnext

theorem Holds.call (h : s.Holds others) (hwired : s.IsWired wired) (hlisted : s.Listed)
    (env : Env) {handle : Int} {kind : Kind} {callback : Callback} {timeout : Int}
    (hwire : s.world.loop.wire handle kind = some (callback, timeout)) {id : Nat}
    (howner : callback.owner = some id) : (s.call env id callback).Holds others := by
  obtain ⟨c, hc, hsocket, hid⟩ := Wired.connection_of_wire hwired hwire howner
  obtain ⟨-, -, hlinked⟩ := Wired.linked_of_socket hwired hc hsocket
  have hfind := find_of_mem hlisted hc
  obtain ⟨before, after, heq, -, hothers⟩ := find_split hlisted.ids hfind
  unfold ClientForwarders.call
  rw [← hid, hfind]
  exact h.upcall hwired env heq hothers hsocket (hlisted.alive c hc).hasShutdown
    (handler_outcome env hlinked hwire)

end Dote.ClientForwarders
