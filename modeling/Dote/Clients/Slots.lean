import Dote.Clients.ClientForwarders
import Dote.Connection.Fate

/-! The slots of `ClientForwarders`. Each connection in the list has its socket
and will report its end; requests wait only while every slot is taken. -/
namespace Dote

namespace ClientForwarders

structure Listed (s : ClientForwarders) : Prop where
  alive : ∀ c ∈ s.forwarders, c.Alive
  ids : (s.forwarders.map (·.id)).Nodup
  ids_lt : ∀ c ∈ s.forwarders, c.id < s.nextId

structure Capped (s : ClientForwarders) : Prop where
  bounded : s.forwarders.length ≤ s.maxConnections
  waiting : s.queue ≠ [] → s.forwarders.length = s.maxConnections

theorem find_split {s : ClientForwarders} (hids : (s.forwarders.map (·.id)).Nodup) {id : Nat}
    {c : ForwarderConnection} (hfind : s.find id = some c) :
    ∃ before after, s.forwarders = before ++ c :: after ∧ c.id = id ∧
      ∀ c' ∈ before ++ after, c'.id ≠ id := by
  obtain ⟨hid, before, after, heq, hbefore⟩ := List.find?_eq_some_iff_append.mp hfind
  rw [decide_eq_true_eq] at hid
  refine ⟨before, after, heq, hid, ?_⟩
  intro c' hc'
  rw [heq, List.map_append, List.map_cons, List.nodup_append] at hids
  cases List.mem_append.mp hc' with
  | inl hmem => simpa using hbefore c' hmem
  | inr hmem =>
    intro hcontra
    apply (List.nodup_cons.mp hids.2.1).1
    rw [hid, ← hcontra]
    exact List.mem_map_of_mem hmem

theorem put_split {s : ClientForwarders} {before after : List ForwarderConnection}
    {c : ForwarderConnection} {a : Active} (heq : s.forwarders = before ++ c :: after)
    (hid : a.self.id = c.id) (hothers : ∀ c' ∈ before ++ after, c'.id ≠ c.id) :
    (s.put a).forwarders = before ++ a.self :: after := by
  have hsame : ∀ l : List ForwarderConnection, (∀ c' ∈ l, c'.id ≠ c.id) →
      l.map (fun c' => if c'.id = a.self.id then a.self else c') = l := by
    intro l hl
    conv_rhs => rw [← List.map_id l]
    apply List.map_congr_left
    intro c' hc'
    rw [hid, if_neg (hl c' hc'), id_eq]
  unfold put
  dsimp only
  rw [heq, List.map_append, List.map_cons, hsame before, hsame after, if_pos hid.symm]
  · exact fun c' hc' => hothers c' (List.mem_append_right _ hc')
  · exact fun c' hc' => hothers c' (List.mem_append_left _ hc')

theorem eraseP_split {before after : List ForwarderConnection} {c : ForwarderConnection}
    (hothers : ∀ c' ∈ before ++ after, c'.id ≠ c.id) :
    (before ++ c :: after).eraseP (·.id = c.id) = before ++ after := by
  rw [List.eraseP_append_right]
  · simp
  · intro c' hc'
    simpa using hothers c' (List.mem_append_left _ hc')

theorem eraseP_put {s : ClientForwarders} {before after : List ForwarderConnection}
    {c : ForwarderConnection} {a : Active} (heq : s.forwarders = before ++ c :: after)
    (hid : a.self.id = c.id) (hothers : ∀ c' ∈ before ++ after, c'.id ≠ c.id) :
    (s.put a).forwarders.eraseP (·.id = c.id) = before ++ after := by
  rw [put_split heq hid hothers, ← hid]
  apply eraseP_split
  rw [hid]
  exact hothers

theorem find_put {s : ClientForwarders} {before after : List ForwarderConnection}
    {c : ForwarderConnection} {a : Active} (heq : s.forwarders = before ++ c :: after)
    (hid : a.self.id = c.id) (hothers : ∀ c' ∈ before ++ after, c'.id ≠ c.id) :
    (s.put a).find c.id = some a.self := by
  have hbefore : before.find? (·.id = c.id) = none := by
    rw [List.find?_eq_none]
    intro c' hc'
    simpa using hothers c' (List.mem_append_left _ hc')
  rw [find, put_split heq hid hothers, List.find?_append, hbefore, Option.none_or,
    List.find?_cons_of_pos (by simpa using hid)]

theorem trySend_slots (env : Env) (s : ClientForwarders) (query : QueuedQuery) :
    (s.trySend env query).2.maxConnections = s.maxConnections ∧
      (s.trySend env query).2.nextId = s.nextId + 1 ∧
      (((s.trySend env query).1 = true ∧ ∃ c : ForwarderConnection, c.Alive ∧ c.id = s.nextId ∧
          (s.trySend env query).2.forwarders = s.forwarders ++ [c]) ∨
        ((s.trySend env query).1 = false ∧ (s.trySend env query).2.forwarders = s.forwarders)) := by
  unfold trySend
  dsimp only
  split
  next haccepted =>
    have hsent := Active.send_true haccepted
    refine ⟨rfl, rfl, .inl ⟨rfl, ?_⟩⟩
    refine ⟨_, ?_, ?_, rfl⟩
    · exact ⟨hsent.2.1, hsent.2.2, rfl⟩
    · exact hsent.1.trans (ForwarderConnection.new_id env s.nextId s.world)
  next => exact ⟨rfl, rfl, .inr ⟨rfl, rfl⟩⟩

theorem Listed.trySend {s : ClientForwarders} (h : s.Listed) (env : Env) (query : QueuedQuery) :
    (s.trySend env query).2.Listed := by
  have hslots := trySend_slots env s query
  cases hslots.2.2 with
  | inl haccepted =>
    obtain ⟨c, halive, hid, heq⟩ := haccepted.2
    constructor
    · intro c' hc'
      rw [heq, List.mem_append, List.mem_singleton] at hc'
      cases hc' with
      | inl hmem => exact h.alive c' hmem
      | inr hnew => exact hnew ▸ halive
    · rw [heq, List.map_append, List.nodup_append]
      refine ⟨h.ids, by simp, ?_⟩
      intro id hmem id' hmem'
      simp only [List.map_cons, List.map_nil, List.mem_singleton] at hmem'
      obtain ⟨c', hc', rfl⟩ := List.mem_map.mp hmem
      have hlt := h.ids_lt c' hc'
      omega
    · intro c' hc'
      rw [heq, List.mem_append, List.mem_singleton] at hc'
      rw [hslots.2.1]
      cases hc' with
      | inl hmem =>
        have hlt := h.ids_lt c' hmem
        omega
      | inr hnew =>
        rw [hnew, hid]
        omega
  | inr hrefused =>
    constructor
    · rw [hrefused.2]
      exact h.alive
    · rw [hrefused.2]
      exact h.ids
    · rw [hrefused.2, hslots.2.1]
      intro c hc
      have hlt := h.ids_lt c hc
      omega

theorem sendQueued_capped (env : Env) (queue : List QueuedQuery) :
    ∀ (s : ClientForwarders) (query : QueuedQuery), s.Listed →
      s.forwarders.length < s.maxConnections →
      (queue ≠ [] → s.forwarders.length + 1 = s.maxConnections) →
      (sendQueued env queue s query).Listed ∧ (sendQueued env queue s query).Capped := by
  induction queue with
  | nil =>
    intro s query h hslot hlast
    have hlisted := (show { s with queue := [] }.Listed from ⟨h.alive, h.ids, h.ids_lt⟩).trySend
      env query
    have hslots := trySend_slots env { s with queue := [] } query
    have hqueue := trySend_queue env { s with queue := [] } query
    unfold sendQueued
    cases hsend : trySend env { s with queue := [] } query with
    | mk accepted s' =>
      rw [hsend] at hlisted hslots hqueue
      have hlength : s'.forwarders.length ≤ s'.maxConnections := by
        rw [hslots.1]
        cases hslots.2.2 with
        | inl haccepted =>
          obtain ⟨c, -, -, heq⟩ := haccepted.2
          rw [heq, List.length_append, List.length_singleton]
          exact hslot
        | inr hrefused =>
          rw [hrefused.2]
          exact Nat.le_of_lt hslot
      have hcapped : s'.Capped := ⟨hlength, fun hne => absurd hqueue hne⟩
      cases accepted with
      | true => exact ⟨hlisted, hcapped⟩
      | false => exact ⟨hlisted, hcapped⟩
  | cons front queue ih =>
    intro s query h hslot hlast
    have hlisted := (show { s with queue := front :: queue }.Listed from
      ⟨h.alive, h.ids, h.ids_lt⟩).trySend env query
    have hslots := trySend_slots env { s with queue := front :: queue } query
    unfold sendQueued
    cases hsend : trySend env { s with queue := front :: queue } query with
    | mk accepted s' =>
      rw [hsend] at hlisted hslots
      cases hslots.2.2 with
      | inl haccepted =>
        obtain ⟨hyes, c, -, -, heq⟩ := haccepted
        cases hyes
        refine ⟨hlisted, ?_, fun _ => ?_⟩
        · rw [heq, hslots.1, List.length_append, List.length_singleton]
          exact hslot
        · rw [heq, hslots.1, List.length_append, List.length_singleton]
          exact hlast (by simp)
      | inr hrefused =>
        obtain ⟨hno, heq⟩ := hrefused
        cases hno
        apply ih s' front hlisted
        · rw [heq, hslots.1]
          exact hslot
        · intro _
          rw [heq, hslots.1]
          exact hlast (by simp)

theorem dequeue_capped (env : Env) {s : ClientForwarders} (h : s.Listed)
    (hbounded : s.forwarders.length ≤ s.maxConnections)
    (hwaiting : s.queue ≠ [] → s.forwarders.length + 1 = s.maxConnections) :
    (s.dequeue env).Listed ∧ (s.dequeue env).Capped := by
  unfold dequeue
  split
  next hqueue => exact ⟨h, hbounded, fun hne => absurd hqueue hne⟩
  next front queue hqueue =>
    have hlast := hwaiting (by simp [hqueue])
    apply sendQueued_capped
    · exact ⟨h.alive, h.ids, h.ids_lt⟩
    · change s.forwarders.length < s.maxConnections
      omega
    · exact fun _ => hlast

theorem handleRequest_capped (env : Env) {s : ClientForwarders} (h : s.Listed) (hc : s.Capped)
    (query : QueuedQuery) :
    (s.handleRequest env query).Listed ∧ (s.handleRequest env query).Capped := by
  unfold handleRequest
  split
  next hslot =>
    apply sendQueued_capped env s.queue s query h hslot
    intro hne
    have hfull := hc.waiting hne
    omega
  next hfull =>
    have hbounded := hc.bounded
    refine ⟨⟨h.alive, h.ids, h.ids_lt⟩, hbounded, fun _ => ?_⟩
    change s.forwarders.length = s.maxConnections
    omega

section Handlers

variable {s : ClientForwarders} {before after : List ForwarderConnection}
  {c : ForwarderConnection} {a : Active}

theorem put_capped (h : s.Listed) (hc : s.Capped) (heq : s.forwarders = before ++ c :: after)
    (hid : a.self.id = c.id) (hothers : ∀ c' ∈ before ++ after, c'.id ≠ c.id)
    (halive : a.self.Alive) : (s.put a).Listed ∧ (s.put a).Capped := by
  have hput := put_split heq hid hothers
  have hlength : (s.put a).forwarders.length = s.forwarders.length := by simp [put]
  have hmem : ∀ c' ∈ (s.put a).forwarders, c' = a.self ∨ c' ∈ s.forwarders := by
    intro c' hc'
    rw [hput, List.mem_append, List.mem_cons] at hc'
    rw [heq, List.mem_append, List.mem_cons]
    tauto
  refine ⟨⟨?_, ?_, ?_⟩, ?_, ?_⟩
  · intro c' hc'
    cases hmem c' hc' with
    | inl hsame => exact hsame ▸ halive
    | inr hmem => exact h.alive c' hmem
  · rw [hput, List.map_append, List.map_cons, hid, ← List.map_cons, ← List.map_append, ← heq]
    exact h.ids
  · intro c' hc'
    cases hmem c' hc' with
    | inl hsame =>
      rw [hsame, hid]
      exact h.ids_lt c (by simp [heq])
    | inr hmem => exact h.ids_lt c' hmem
  · rw [hlength]
    exact hc.bounded
  · rw [hlength]
    exact hc.waiting

theorem handleShutdown_capped (env : Env) (h : s.Listed) (hc : s.Capped)
    (heq : s.forwarders = before ++ c :: after) (hid : a.self.id = c.id)
    (hothers : ∀ c' ∈ before ++ after, c'.id ≠ c.id) :
    ((s.put a).handleShutdown env a.self.id).Listed ∧
      ((s.put a).handleShutdown env a.self.id).Capped := by
  have herase : (s.put a).forwarders.eraseP (·.id = a.self.id) = before ++ after := by
    rw [hid]
    exact eraseP_put heq hid hothers
  have hsub : (before ++ after).Sublist s.forwarders := by
    rw [heq]
    exact (List.Sublist.refl before).append (List.sublist_cons_self c after)
  have hlength : (before ++ after).length + 1 = s.forwarders.length := by
    rw [heq]
    simp
    omega
  have hbounded := hc.bounded
  unfold handleShutdown
  rw [herase]
  apply dequeue_capped
  · constructor
    · exact fun c' hc' => h.alive c' (hsub.subset hc')
    · exact h.ids.sublist (hsub.map _)
    · exact fun c' hc' => h.ids_lt c' (hsub.subset hc')
  · change (before ++ after).length ≤ s.maxConnections
    omega
  · intro hne
    have hfull := hc.waiting hne
    change (before ++ after).length + 1 = s.maxConnections
    omega

end Handlers

theorem upcall_capped (env : Env) {s : ClientForwarders} (h : s.Listed) (hc : s.Capped)
    {before after : List ForwarderConnection} {c : ForwarderConnection}
    (heq : s.forwarders = before ++ c :: after)
    (hothers : ∀ c' ∈ before ++ after, c'.id ≠ c.id) {world : World}
    {result : Active × Upcall} (hfate : Active.Fate ⟨c, world⟩ result) (halive : c.Alive) :
    ((s.put result.1).upcall env result.1.self result.2).Listed ∧
      ((s.put result.1).upcall env result.1.self result.2).Capped := by
  have hid : result.1.self.id = c.id := hfate.id
  cases hupcall : result.2 with
  | none =>
    have halive' := (hfate.alive halive).resolve_left (by simp [hupcall])
    exact put_capped h hc heq hid hothers halive'
  | shutdown => exact handleShutdown_capped env h hc heq hid hothers
  | incoming buffer =>
    have halive' := (hfate.alive halive).resolve_left (by simp [hupcall])
    have hput := put_capped h hc heq hid hothers halive'
    have hsplit := put_split heq hid hothers
    unfold upcall
    dsimp only
    split
    next => exact hput
    next requester _ =>
      let s' := (s.put result.1).handleIncoming requester buffer
      have hlisted : s'.Listed := ⟨hput.1.alive, hput.1.ids, hput.1.ids_lt⟩
      have hcapped : s'.Capped := ⟨hput.2.bounded, hput.2.waiting⟩
      have hothers' : ∀ c' ∈ before ++ after, c'.id ≠ result.1.self.id := by
        rw [hid]
        exact hothers
      have hfate' := Active.shutdown_fate env ⟨result.1.self, s'.world⟩
      split
      next a hshutdown =>
        rw [hshutdown] at hfate'
        have hid' : a.self.id = result.1.self.id := hfate'.id
        rw [← hid']
        exact handleShutdown_capped env hlisted hcapped hsplit hid' hothers'
      next a upcall hupcall' hshutdown =>
        rw [hshutdown] at hfate'
        have hid' : a.self.id = result.1.self.id := hfate'.id
        have halive'' := (hfate'.alive halive').resolve_left (fun heq => hupcall' heq)
        exact put_capped hlisted hcapped hsplit hid' hothers' halive''

theorem call_capped (env : Env) {s : ClientForwarders} (h : s.Listed) (hc : s.Capped) (id : Nat)
    (callback : Callback) : (s.call env id callback).Listed ∧ (s.call env id callback).Capped := by
  unfold call
  split
  next => exact ⟨h, hc⟩
  next c hfind =>
    obtain ⟨before, after, heq, hid, hothers⟩ := find_split h.ids hfind
    rw [← hid] at hothers
    have halive := h.alive c (by rw [heq]; simp)
    exact upcall_capped env h hc heq hothers (Active.handler_fate env ⟨c, s.world⟩ callback) halive

/-- What can happen to the owner: a request of a client, a callback of the loop
for a connection, a reload of the forwarders, and anything else that the program
or the outside does, to the loop and to the sockets. -/
inductive Event where
  | request (env : Env) (query : QueuedQuery)
  | callback (env : Env) (id : Nat) (callback : Callback)
  | setForwarders (forwarders : List Config.Forwarder)
  | elsewhere (world : World)

def step (s : ClientForwarders) : Event → ClientForwarders
  | .request env query => s.handleRequest env query
  | .callback env id callback => s.call env id callback
  | .setForwarders forwarders => { s with world := s.world.share (.setForwarders forwarders) }
  | .elsewhere world => { s with world := { world with sharing := s.world.sharing } }

theorem step_capped {s : ClientForwarders} (h : s.Listed ∧ s.Capped) (event : Event) :
    (s.step event).Listed ∧ (s.step event).Capped := by
  cases event with
  | request env query => exact handleRequest_capped env h.1 h.2 query
  | callback env id callback => exact call_capped env h.1 h.2 id callback
  | setForwarders forwarders =>
    exact ⟨⟨h.1.alive, h.1.ids, h.1.ids_lt⟩, h.2.bounded, h.2.waiting⟩
  | elsewhere world => exact ⟨⟨h.1.alive, h.1.ids, h.1.ids_lt⟩, h.2.bounded, h.2.waiting⟩

theorem new_capped (world : World) (maxConnections : Nat) :
    (new world maxConnections).Listed ∧ (new world maxConnections).Capped :=
  ⟨⟨by simp [new], by simp [new], by simp [new]⟩, by simp [new], by simp [new]⟩

theorem sendQueued_maxConnections (env : Env) (queue : List QueuedQuery) (s : ClientForwarders)
    (query : QueuedQuery) : (sendQueued env queue s query).maxConnections = s.maxConnections := by
  refine sendQueued_preserves (P := fun s' => s'.maxConnections = s.maxConnections) ?_ ?_ queue s
    query rfl
  · exact fun _ _ h => h
  · exact fun s' query h => (trySend_slots env s' query).1.trans h

theorem handleShutdown_maxConnections (env : Env) (s : ClientForwarders) (id : Nat) :
    (s.handleShutdown env id).maxConnections = s.maxConnections := by
  unfold handleShutdown dequeue
  split
  next => rfl
  next => exact sendQueued_maxConnections env _ _ _

theorem upcall_maxConnections (env : Env) (s : ClientForwarders) (c : ForwarderConnection)
    (upcall : Upcall) : (s.upcall env c upcall).maxConnections = s.maxConnections := by
  cases upcall with
  | none => rfl
  | shutdown => exact handleShutdown_maxConnections env s c.id
  | incoming buffer =>
    unfold ClientForwarders.upcall
    dsimp only
    split
    next => rfl
    next =>
      split
      next => exact handleShutdown_maxConnections env _ _
      next => rfl

theorem step_maxConnections (s : ClientForwarders) (event : Event) :
    (s.step event).maxConnections = s.maxConnections := by
  cases event with
  | request env query =>
    change (s.handleRequest env query).maxConnections = _
    unfold handleRequest
    split
    next => exact sendQueued_maxConnections env _ _ _
    next => rfl
  | callback env id callback =>
    change (s.call env id callback).maxConnections = _
    unfold call
    split
    next => rfl
    next => exact upcall_maxConnections env _ _ _
  | setForwarders forwarders => rfl
  | elsewhere world => rfl

/-- In every reachable state the connections are at most `maxConnections`, each
has its socket, and requests wait only while all the slots are taken. -/
theorem slots_reachable (world : World) (maxConnections : Nat) (events : List Event) :
    let s := Library.Run.run step (new world maxConnections) events
    s.forwarders.length ≤ maxConnections ∧
      (∀ c ∈ s.forwarders, c.socket ≠ none ∧ c.state ≠ .closed) ∧
      (s.queue ≠ [] → s.forwarders.length = maxConnections) := by
  intro s
  have hstep : ∀ (s : ClientForwarders) (event : Event),
      (s.Listed ∧ s.Capped) ∧ s.maxConnections = maxConnections →
      ((s.step event).Listed ∧ (s.step event).Capped) ∧
        (s.step event).maxConnections = maxConnections := by
    intro s event h
    exact ⟨step_capped h.1 event, (step_maxConnections s event).trans h.2⟩
  have hrun : (s.Listed ∧ s.Capped) ∧ s.maxConnections = maxConnections :=
    Library.Run.run_preserves hstep ⟨new_capped world maxConnections, rfl⟩ events
  obtain ⟨⟨hlisted, hcapped⟩, hmax⟩ := hrun
  have hbounded := hcapped.bounded
  have hwaiting := hcapped.waiting
  rw [hmax] at hbounded hwaiting
  exact ⟨hbounded, fun c hc => ⟨(hlisted.alive c hc).socket, (hlisted.alive c hc).state⟩, hwaiting⟩

end ClientForwarders

end Dote
