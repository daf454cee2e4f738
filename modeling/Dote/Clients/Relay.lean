import Dote.Clients.Answers
import Dote.Library.Pool
import Mathlib.Data.List.Range

/-! `ClientForwarders` as jobs before slots: a request is a job, the connection that
was made for it is the slot, and the number of both is the same. -/
namespace Dote.ClientForwarders
open Library

abbrev Movement : Type := Pool.Label QueuedQuery Bytes

def ids (s : ClientForwarders) : List Nat := s.forwarders.map (·.id)

/-- The requests that were started between the two states, with a connection or without
one. -/
def startedIn (s s' : ClientForwarders) : List Movement :=
  (List.range' s.started.length (s'.started.length - s.started.length)).map fun id =>
    if id ∈ s'.ids then .take id else .refuse id

def movements (s s' : ClientForwarders) : List Movement :=
  (s.ids.filter (· ∉ s'.ids)).map .finish ++ s.startedIn s'

structure Abstracts (s : ClientForwarders) (reads : List (Nat × Bytes))
    (pool : Pool QueuedQuery) : Prop where
  slots : pool.slots = s.maxConnections
  jobs : pool.jobs = s.started ++ s.queue
  taken : pool.taken = s.started.length
  running : pool.running = s.ids.toFinset
  answered : pool.answered = (reads.map Prod.fst).toFinset

theorem Listed.nextId_not_mem {s : ClientForwarders} (h : s.Listed) : s.nextId ∉ s.ids := by
  intro hmem
  obtain ⟨c, hc, hid⟩ := List.mem_map.mp hmem
  exact Nat.ne_of_lt (h.ids_lt c hc) hid

variable {env : Env} {s s' : ClientForwarders} {reads : List (Nat × Bytes)}
  {pool : Pool QueuedQuery} {query : QueuedQuery} {attempts : List (QueuedQuery × Bool)}

theorem Abstracts.settled_iff (h : s.Abstracts reads pool) (hlisted : s.Listed) :
    pool.Settled ↔ s.queue = [] ∨ s.forwarders.length = s.maxConnections := by
  have hcard : pool.running.card = s.forwarders.length := by
    rw [h.running, ids, List.toFinset_card_of_nodup hlisted.ids, List.length_map]
  rw [Pool.Settled, hcard, h.slots, h.taken, h.jobs, List.length_append, Nat.left_eq_add,
    List.length_eq_zero_iff]

theorem Abstracts.settled (h : s.Abstracts reads pool) (hlisted : s.Listed) (hcapped : s.Capped) :
    pool.Settled := by
  rw [h.settled_iff hlisted]
  exact or_iff_not_imp_left.mpr hcapped.waiting

theorem startedIn_same (h : s'.started.length = s.started.length) : s.startedIn s' = [] := by
  rw [startedIn, h, Nat.sub_self]
  rfl

theorem movements_of_kept (h : ∀ id ∈ s.ids, id ∈ s'.ids) : s.movements s' = s.startedIn s' := by
  have hnone : s.ids.filter (· ∉ s'.ids) = [] := by
    rw [List.filter_eq_nil_iff]
    exact fun id hmem hnot => (of_decide_eq_true hnot) (h id hmem)
  rw [movements, hnone]
  rfl

theorem movements_same (hids : s'.ids = s.ids) (hstarted : s'.started = s.started) :
    s.movements s' = [] := by
  rw [movements_of_kept fun id hid => hids ▸ hid]
  exact startedIn_same (congrArg List.length hstarted)

theorem movements_of_ended {before after new : List Nat} {id : Nat}
    (hids : s.ids = before ++ id :: after) (hnodup : s.ids.Nodup)
    (hids' : s'.ids = before ++ after ++ new) (hnew : ∀ other ∈ new, id < other) :
    s.movements s' = .finish id :: s.startedIn s' := by
  have hgone : id ∉ before ++ after := by
    rw [hids, List.nodup_middle, List.nodup_cons] at hnodup
    exact hnodup.1
  have hkept : ∀ l : List Nat, (∀ other ∈ l, other ∈ before ++ after) →
      l.filter (· ∉ s'.ids) = [] := by
    intro l hl
    rw [List.filter_eq_nil_iff]
    intro other hmem hnot
    apply of_decide_eq_true hnot
    rw [hids']
    exact List.mem_append_left _ (hl other hmem)
  have hended : id ∉ s'.ids := by
    rw [hids', List.mem_append, not_or]
    exact ⟨hgone, fun hmem => Nat.lt_irrefl id (hnew id hmem)⟩
  have hfilter : s.ids.filter (· ∉ s'.ids) = [id] := by
    rw [hids, List.filter_append, List.filter_cons_of_pos (by simpa using hended),
      hkept before fun _ h => List.mem_append_left _ h,
      hkept after fun _ h => List.mem_append_right _ h]
    rfl
  rw [movements, hfilter]
  rfl

structure Tried (s : ClientForwarders) (query : QueuedQuery) (accepted : Bool)
    (s' : ClientForwarders) : Prop where
  maxConnections : s'.maxConnections = s.maxConnections
  started : s'.started = s.started ++ [query]
  queue : s'.queue = s.queue
  nextId : s'.nextId = s.nextId + 1
  ids : s'.ids = s.ids ++ if accepted then [s.nextId] else []

theorem trySend_tried {accepted : Bool} (send : s.trySend env query = (accepted, s')) :
    Tried s query accepted s' := by
  have hstarted := trySend_started env s query
  have hqueue := trySend_queue env s query
  have hslots := trySend_slots env s query
  rw [send] at hstarted hqueue hslots
  refine ⟨hslots.1, hstarted, hqueue, hslots.2.1, ?_⟩
  cases hslots.2.2 with
  | inl haccepted =>
    obtain ⟨hyes, c, -, hid, hforwarders⟩ := haccepted
    cases hyes
    rw [ids, hforwarders, List.map_append, ids, if_pos rfl, ← hid]
    rfl
  | inr hrefused =>
    obtain ⟨hno, hforwarders⟩ := hrefused
    cases hno
    rw [ids, hforwarders, ids, if_neg Bool.false_ne_true, List.append_nil]

/-- The request is at the front of the line, and a slot is free. -/
structure Entered (s : ClientForwarders) (query : QueuedQuery) (reads : List (Nat × Bytes))
    (pool : Pool QueuedQuery) : Prop where
  listed : s.Listed
  counted : s.nextId = s.started.length
  free : s.forwarders.length < s.maxConnections
  abstracts : Abstracts { s with queue := query :: s.queue } reads pool

namespace Entered

theorem not_settled (h : s.Entered query reads pool) : ¬ pool.Settled := by
  have hlisted : Listed { s with queue := query :: s.queue } :=
    ⟨h.listed.alive, h.listed.ids, h.listed.ids_lt⟩
  rw [h.abstracts.settled_iff hlisted, not_or]
  exact ⟨List.cons_ne_nil _ _, Nat.ne_of_lt h.free⟩

theorem accepted (h : s.Entered query reads pool) (htried : Tried s query true s') :
    ∃ pool', pool.step (.take s.started.length : Movement) = some pool' ∧
      s'.Abstracts reads pool' := by
  obtain ⟨pool', hstep⟩ := Pool.exists_take (A := Bytes) h.not_settled
  obtain ⟨-, hslots, hjobs, htaken, hrunning, hanswered⟩ := Pool.step_take.mp hstep
  rw [h.abstracts.taken] at hstep htaken hrunning
  refine ⟨pool', hstep, ?_, ?_, ?_, ?_, ?_⟩
  · rw [hslots, htried.maxConnections, h.abstracts.slots]
  · rw [hjobs, h.abstracts.jobs, htried.started, htried.queue, List.append_assoc]
    rfl
  · rw [htaken, htried.started, List.length_append]
    rfl
  · rw [hrunning, h.abstracts.running, htried.ids, if_pos rfl, h.counted, List.toFinset_append]
    change insert s.started.length s.ids.toFinset = _
    rw [Finset.insert_eq, Finset.union_comm]
    rfl
  · rw [hanswered, h.abstracts.answered]

theorem refused (h : s.Entered query reads pool) (htried : Tried s query false s') :
    ∃ pool', pool.step (.refuse s.started.length : Movement) = some pool' ∧
      s'.Abstracts reads pool' := by
  obtain ⟨pool', hstep⟩ := Pool.exists_refuse (A := Bytes) h.not_settled
  obtain ⟨-, hslots, hjobs, htaken, hrunning, hanswered⟩ := Pool.step_refuse.mp hstep
  rw [h.abstracts.taken] at hstep htaken
  refine ⟨pool', hstep, ?_, ?_, ?_, ?_, ?_⟩
  · rw [hslots, htried.maxConnections, h.abstracts.slots]
  · rw [hjobs, h.abstracts.jobs, htried.started, htried.queue, List.append_assoc]
    rfl
  · rw [htaken, htried.started, List.length_append]
    rfl
  · rw [hrunning, h.abstracts.running, htried.ids, if_neg Bool.false_ne_true, List.append_nil]
    rfl
  · rw [hanswered, h.abstracts.answered]

end Entered

theorem startedIn_cons {s'' : ClientForwarders}
    (hstarted : s'.started.length = s.started.length + 1)
    (hle : s'.started.length ≤ s''.started.length) :
    s.startedIn s'' = (if s.started.length ∈ s''.ids then .take s.started.length
      else .refuse s.started.length) :: s'.startedIn s'' := by
  have hcount : s''.started.length - s.started.length =
      (s''.started.length - s'.started.length) + 1 := by omega
  rw [startedIn, hcount, List.range'_succ, List.map_cons, startedIn, hstarted]

theorem Chain.simulated (h : Chain env s query attempts s') : ∀ {pool : Pool QueuedQuery},
    s.Entered query reads pool → ∃ pool', pool.runs (s.startedIn s') = some pool' ∧
      s'.Abstracts reads pool' ∧
      ∃ new, s'.ids = s.ids ++ new ∧ ∀ id ∈ new, s.started.length ≤ id := by
  induction h with
  | @accepted s s' query send =>
    intro pool hentered
    have htried := trySend_tried send
    obtain ⟨pool', hstep, habstracts⟩ := hentered.accepted htried
    have hlength : s'.started.length = s.started.length + 1 := by
      rw [htried.started, List.length_append, List.length_singleton]
    have hmem : s.started.length ∈ s'.ids := by
      rw [htried.ids, ← hentered.counted]
      simp
    refine ⟨pool', ?_, habstracts, [s.nextId], htried.ids, ?_⟩
    · rw [startedIn_cons hlength (Nat.le_refl _), if_pos hmem, startedIn_same rfl, Pool.runs, hstep]
      rfl
    · intro id hid
      rw [List.mem_singleton.mp hid, hentered.counted]
  | @refused s s' query send empty =>
    intro pool hentered
    have htried := trySend_tried send
    obtain ⟨pool', hstep, habstracts⟩ := hentered.refused htried
    have hlength : s'.started.length = s.started.length + 1 := by
      rw [htried.started, List.length_append, List.length_singleton]
    have hids : s'.ids = s.ids := htried.ids.trans (List.append_nil _)
    have hnew : s.started.length ∉ s'.ids := by
      rw [hids, ← hentered.counted]
      exact hentered.listed.nextId_not_mem
    refine ⟨pool', ?_, habstracts, [], htried.ids, by simp⟩
    rw [startedIn_cons hlength (Nat.le_refl _), if_neg hnew, startedIn_same rfl, Pool.runs, hstep]
    rfl
  | @next s s' s'' query front queue attempts send pop rest ih =>
    intro pool hentered
    have htried := trySend_tried send
    obtain ⟨pool', hstep, habstracts⟩ := hentered.refused htried
    have hlength : s'.started.length = s.started.length + 1 := by
      rw [htried.started, List.length_append, List.length_singleton]
    have hids : s'.ids = s.ids := htried.ids.trans (List.append_nil _)
    have hlisted : s'.Listed := by
      have hsend := hentered.listed.trySend env query
      rw [send] at hsend
      exact hsend
    have hfree : s'.forwarders.length < s'.maxConnections := by
      have hsame : s'.ids.length = s.ids.length := by rw [hids]
      rw [ids, ids, List.length_map, List.length_map] at hsame
      rw [hsame, htried.maxConnections]
      exact hentered.free
    have hnext : Entered { s' with queue := queue } front reads pool' := by
      refine ⟨⟨hlisted.alive, hlisted.ids, hlisted.ids_lt⟩, ?_, hfree, ?_⟩
      · change s'.nextId = s'.started.length
        rw [htried.nextId, hlength, hentered.counted]
      · rw [← pop]
        exact habstracts
    obtain ⟨pool'', hruns, habstracts', new, hnew, hle⟩ := ih hnext
    have hstarted : s'.started.length ≤ s''.started.length := by
      rw [rest.started, List.length_append]
      exact Nat.le_add_right _ _
    have hnot : s.started.length ∉ s''.ids := by
      rw [hnew, List.mem_append, not_or]
      constructor
      · change s.started.length ∉ s'.ids
        rw [hids, ← hentered.counted]
        exact hentered.listed.nextId_not_mem
      · intro hmem
        have hlater : s'.started.length ≤ s.started.length := hle _ hmem
        omega
    refine ⟨pool'', ?_, habstracts', new, hnew.trans (congrArg (· ++ new) hids), ?_⟩
    · rw [startedIn_cons hlength hstarted, if_neg hnot, Pool.runs, hstep]
      exact hruns
    · intro id hid
      have hlater : s'.started.length ≤ id := hle id hid
      omega

theorem Abstracts.arrived (h : s.Abstracts reads pool) (hsettled : pool.Settled)
    (query : QueuedQuery) :
    ∃ pool', pool.step (.arrive pool.jobs.length query : Movement) = some pool' ∧
      Abstracts { s with queue := s.queue ++ [query] } reads pool' := by
  obtain ⟨pool', hstep⟩ := Pool.exists_arrive (A := Bytes) hsettled query
  obtain ⟨-, hslots, hjobs, htaken, hrunning, hanswered⟩ := Pool.step_arrive.mp hstep
  refine ⟨pool', hstep, hslots.trans h.slots, ?_, htaken.trans h.taken, hrunning.trans h.running,
    hanswered.trans h.answered⟩
  rw [hjobs, h.jobs, List.append_assoc]

theorem Abstracts.handleRequest (h : s.Abstracts reads pool) (hlisted : s.Listed)
    (hcapped : s.Capped) (hcounted : s.nextId = s.started.length) (env : Env)
    (query : QueuedQuery) :
    ∃ pool', pool.runs (.arrive pool.jobs.length query ::
        s.movements (s.handleRequest env query)) = some pool' ∧
      (s.handleRequest env query).Abstracts reads pool' := by
  obtain ⟨pool', hstep, harrived⟩ := h.arrived (h.settled hlisted hcapped) query
  unfold ClientForwarders.handleRequest
  split
  next hslot =>
    have hqueue : s.queue = [] := by
      by_contra hne
      exact Nat.ne_of_lt hslot (hcapped.waiting hne)
    obtain ⟨attempts, hchain⟩ := sendRequest_chain env s query
    have hentered : s.Entered query reads pool' := by
      refine ⟨hlisted, hcounted, hslot, ?_⟩
      rw [hqueue] at harrived ⊢
      exact harrived
    obtain ⟨pool'', hruns, habstracts, new, hnew, -⟩ := hchain.simulated hentered
    refine ⟨pool'', ?_, habstracts⟩
    have hkept : ∀ id ∈ s.ids, id ∈ (s.sendRequest env query).ids := by
      intro id hid
      rw [hnew]
      exact List.mem_append_left new hid
    rw [movements_of_kept hkept, Pool.runs, hstep]
    exact hruns
  next =>
    have hnone : s.movements { s with queue := s.queue ++ [query] } = [] := movements_same rfl rfl
    refine ⟨pool', ?_, harrived⟩
    rw [hnone, Pool.runs, hstep]
    rfl

theorem Abstracts.dequeue (h : s.Abstracts reads pool) (hlisted : s.Listed)
    (hcounted : s.nextId = s.started.length)
    (hfree : s.queue ≠ [] → s.forwarders.length < s.maxConnections) (env : Env) :
    ∃ pool', pool.runs (s.startedIn (s.dequeue env)) = some pool' ∧
      (s.dequeue env).Abstracts reads pool' ∧
      ∃ new, (s.dequeue env).ids = s.ids ++ new ∧ ∀ id ∈ new, s.started.length ≤ id := by
  unfold ClientForwarders.dequeue
  split
  next =>
    refine ⟨pool, ?_, h, [], (List.append_nil _).symm, by simp⟩
    rw [startedIn_same rfl]
    rfl
  next front queue hqueue =>
    obtain ⟨attempts, hchain⟩ := sendRequest_chain env { s with queue := queue } front
    have hentered : Entered { s with queue := queue } front reads pool := by
      refine ⟨⟨hlisted.alive, hlisted.ids, hlisted.ids_lt⟩, hcounted, hfree (by simp [hqueue]), ?_⟩
      rw [← hqueue]
      exact h
    exact hchain.simulated hentered

section Handlers

variable {before after : List ForwarderConnection} {c : ForwarderConnection} {a : Active}

theorem ids_put (heq : s.forwarders = before ++ c :: after) (hid : a.self.id = c.id)
    (hothers : ∀ c' ∈ before ++ after, c'.id ≠ c.id) : (s.put a).ids = s.ids := by
  rw [ids, put_split heq hid hothers, ids, heq]
  simp [hid]

theorem Abstracts.put (h : s.Abstracts reads pool) (heq : s.forwarders = before ++ c :: after)
    (hid : a.self.id = c.id) (hothers : ∀ c' ∈ before ++ after, c'.id ≠ c.id) :
    (s.put a).Abstracts reads pool :=
  ⟨h.slots, h.jobs, h.taken, h.running.trans (by rw [ids_put heq hid hothers]), h.answered⟩

theorem Abstracts.handleShutdown (h : s.Abstracts reads pool) (hlisted : s.Listed)
    (hcapped : s.Capped) (hcounted : s.nextId = s.started.length)
    (heq : s.forwarders = before ++ c :: after) (hid : a.self.id = c.id)
    (hothers : ∀ c' ∈ before ++ after, c'.id ≠ c.id) (env : Env) :
    ∃ pool', pool.runs (s.movements ((s.put a).handleShutdown env c.id)) = some pool' ∧
      ((s.put a).handleShutdown env c.id).Abstracts reads pool' := by
  let rest : ClientForwarders := { s.put a with forwarders := before ++ after }
  have hended : (s.put a).handleShutdown env c.id = rest.dequeue env := by
    unfold ClientForwarders.handleShutdown
    rw [eraseP_put heq hid hothers]
  have hsub : (before ++ after).Sublist s.forwarders := by
    rw [heq]
    exact (List.Sublist.refl before).append (List.sublist_cons_self c after)
  have hlisted' : rest.Listed := ⟨fun c' hc' => hlisted.alive c' (hsub.subset hc'),
    hlisted.ids.sublist (hsub.map _), fun c' hc' => hlisted.ids_lt c' (hsub.subset hc')⟩
  have hids : s.ids = before.map (·.id) ++ c.id :: after.map (·.id) := by
    rw [ids, heq, List.map_append, List.map_cons]
  have hmem : c.id ∈ pool.running := by
    rw [h.running, List.mem_toFinset, hids]
    simp
  obtain ⟨pool', hstep⟩ := Pool.exists_finish (A := Bytes) (h.settled hlisted hcapped) hmem
  obtain ⟨-, hslots, hjobs, htaken, hrunning, hanswered⟩ := Pool.step_finish.mp hstep
  have habstracts : rest.Abstracts reads pool' := by
    refine ⟨hslots.trans h.slots, hjobs.trans h.jobs, htaken.trans h.taken, ?_,
      hanswered.trans h.answered⟩
    rw [hrunning, h.running]
    ext id
    have hnodup : (before.map (·.id) ++ c.id :: after.map (·.id)).Nodup := hids ▸ hlisted.ids
    rw [List.nodup_middle, List.nodup_cons] at hnodup
    have hnot : id = c.id → id ∉ rest.ids := by
      rintro rfl
      rw [ids, List.map_append]
      exact hnodup.1
    have hiff : id ∈ s.ids ↔ id = c.id ∨ id ∈ rest.ids := by
      rw [hids, ids, List.map_append, List.mem_append, List.mem_cons, List.mem_append]
      tauto
    rw [Finset.mem_erase, List.mem_toFinset, List.mem_toFinset, hiff]
    tauto
  have hfree : rest.queue ≠ [] → rest.forwarders.length < rest.maxConnections := by
    intro hne
    have hfull : s.forwarders.length = s.maxConnections := hcapped.waiting hne
    rw [heq, List.length_append, List.length_cons] at hfull
    change (before ++ after).length < s.maxConnections
    rw [List.length_append]
    omega
  obtain ⟨pool'', hruns, hend, new, hnew, hle⟩ := habstracts.dequeue hlisted' hcounted hfree env
  have hlater : ∀ id ∈ new, c.id < id := by
    intro id hid
    have hlt := hlisted.ids_lt c (by simp [heq])
    have hge : s.started.length ≤ id := hle id hid
    omega
  have hmovements := movements_of_ended hids hlisted.ids
    (hnew.trans (by rw [ids, List.map_append])) hlater
  refine ⟨pool'', ?_, hended ▸ hend⟩
  rw [hended, hmovements, Pool.runs, hstep]
  exact hruns

theorem movements_congr {s'' : ClientForwarders} (hids : s'.ids = s.ids)
    (hstarted : s'.started = s.started) : s'.movements s'' = s.movements s'' := by
  rw [movements, movements, startedIn, startedIn, hids, hstarted]

theorem Abstracts.handleIncoming (h : s.Abstracts reads pool) (hsettled : pool.Settled)
    (hc : c ∈ s.forwarders) (hfirst : c.id ∉ reads.map Prod.fst) (requester : Requester)
    (buffer : Bytes) :
    ∃ pool', pool.step (.answer c.id buffer : Movement) = some pool' ∧
      (s.handleIncoming requester buffer).Abstracts (reads ++ [(c.id, buffer)]) pool' := by
  have hmem : c.id ∈ pool.running := by
    rw [h.running, List.mem_toFinset]
    exact List.mem_map_of_mem hc
  have hnew : c.id ∉ pool.answered := by
    rw [h.answered, List.mem_toFinset]
    exact hfirst
  obtain ⟨pool', hstep⟩ := Pool.exists_answer hsettled hmem hnew buffer
  obtain ⟨-, hslots, hjobs, htaken, hrunning, hanswered⟩ := Pool.step_answer.mp hstep
  refine ⟨pool', hstep, hslots.trans h.slots, hjobs.trans h.jobs, htaken.trans h.taken,
    hrunning.trans h.running, ?_⟩
  rw [hanswered, h.answered, List.map_append, List.toFinset_append, Finset.insert_eq,
    Finset.union_comm]
  rfl

theorem Abstracts.upcall_incoming (h : s.Abstracts reads pool) (hlisted : s.Listed)
    (hcapped : s.Capped) (hcounted : s.nextId = s.started.length)
    (heq : s.forwarders = before ++ c :: after) (hothers : ∀ c' ∈ before ++ after, c'.id ≠ c.id)
    (hid : a.self.id = c.id) (halive : a.self.Alive) {requester : Requester}
    (hincoming : a.self.incoming = some requester) (hfirst : c.id ∉ reads.map Prod.fst)
    (env : Env) (buffer : Bytes) :
    let s' := (s.put a).upcall env a.self (.incoming buffer)
    ∃ pool', pool.runs (.answer c.id buffer :: s.movements s') = some pool' ∧
      s'.Abstracts (reads ++ [(c.id, buffer)]) pool' := by
  let replied := (s.put a).handleIncoming requester buffer
  have hput := put_capped hlisted hcapped heq hid hothers halive
  have hsplit : replied.forwarders = before ++ a.self :: after := put_split heq hid hothers
  have hmem : a.self ∈ (s.put a).forwarders := by
    rw [put_split heq hid hothers]
    simp
  have hids : replied.ids = s.ids := ids_put heq hid hothers
  obtain ⟨pool', hstep, hreplied⟩ := (h.put heq hid hothers).handleIncoming
    (h.settled hlisted hcapped) hmem (hid ▸ hfirst) requester buffer
  rw [hid] at hstep hreplied
  have hothers' : ∀ c' ∈ before ++ after, c'.id ≠ a.self.id := by
    rw [hid]
    exact hothers
  have hlisted' : replied.Listed := ⟨hput.1.alive, hput.1.ids, hput.1.ids_lt⟩
  have hcapped' : replied.Capped := ⟨hput.2.bounded, hput.2.waiting⟩
  have hfate := Active.shutdown_fate env ⟨a.self, replied.world⟩
  unfold ClientForwarders.upcall
  rw [hincoming]
  dsimp only
  split
  next a' hshutdown =>
    change (Active.mk a.self replied.world).shutdown env = _ at hshutdown
    rw [hshutdown] at hfate
    obtain ⟨pool'', hruns, hend⟩ := hreplied.handleShutdown hlisted' hcapped' hcounted hsplit
      hfate.id hothers' env
    refine ⟨pool'', ?_, hend⟩
    rw [← movements_congr hids rfl, Pool.runs, hstep]
    exact hruns
  next a' upcall _ hshutdown =>
    change (Active.mk a.self replied.world).shutdown env = _ at hshutdown
    rw [hshutdown] at hfate
    have hsame : s.movements (replied.put a') = [] :=
      movements_same ((ids_put hsplit hfate.id hothers').trans hids) rfl
    refine ⟨pool', ?_, hreplied.put hsplit hfate.id hothers'⟩
    rw [hsame, Pool.runs, hstep]
    rfl

end Handlers

theorem Abstracts.call (h : s.Abstracts reads pool) {taken : List (Nat × Bytes)}
    (haccounted : s.Accounted reads taken)
    {others : List Other} (hlisted : s.Listed) (hcapped : s.Capped) (hwired : s.IsWired others)
    (env : Env) {handle : Int} {kind : Kind} {callback : Callback} {timeout : Int}
    (hwire : s.world.loop.wire handle kind = some (callback, timeout)) {id : Nat}
    (howner : callback.owner = some id) :
    ∃ pool', pool.runs ((s.readBy env callback).map (fun read => .answer read.1 read.2) ++
        s.movements (s.call env id callback)) = some pool' ∧
      (s.call env id callback).Abstracts (reads ++ s.readBy env callback) pool' := by
  obtain ⟨c, hc, hsocket, rfl⟩ := Wired.connection_of_wire hwired hwire howner
  obtain ⟨-, -, hlinked⟩ := Wired.linked_of_socket hwired hc hsocket
  have hfind := find_of_mem hlisted hc
  obtain ⟨before, after, heq, -, hothers⟩ := find_split hlisted.ids hfind
  have hdue := (hlinked.wire_eq hwire).1
  have hadvance := Active.handler_advance env (hwired.tracks hlisted hc) hdue
  have hfate := Active.handler_fate env ⟨c, s.world⟩ callback
  have houtcome := Active.handler_outcome env hlinked hwire
  obtain ⟨query, -, hrequester, -⟩ := haccounted.given c hc
  have hread := s.readBy_eq env hfind howner hrequester
  unfold ClientForwarders.call
  rw [hfind]
  dsimp only
  cases hresult : Active.handler env ⟨c, s.world⟩ callback with
  | mk a upcall =>
    rw [hresult] at hadvance hfate houtcome hread
    have hid : a.self.id = c.id := hadvance.id
    cases upcall with
    | none =>
      have hsame : s.movements (s.put a) = [] := movements_same (ids_put heq hid hothers) rfl
      rw [hread.2 (by simp), List.append_nil]
      refine ⟨pool, ?_, h.put heq hid hothers⟩
      change pool.runs (s.movements (s.put a)) = _
      rw [hsame]
      rfl
    | shutdown =>
      rw [hread.2 (by simp), List.append_nil]
      change ∃ pool', pool.runs (s.movements ((s.put a).handleShutdown env a.self.id)) = _ ∧
        ((s.put a).handleShutdown env a.self.id).Abstracts reads pool'
      rw [hid]
      exact h.handleShutdown hlisted hcapped haccounted.counted heq hid hothers env
    | incoming buffer =>
      rw [hread.1 buffer rfl]
      have hopened : c.state = .opened := (hadvance.incoming buffer rfl).1
      have hfirst : c.id ∉ reads.map Prod.fst := by
        intro hmem
        rw [haccounted.finished c hc hmem] at hopened
        contradiction
      have halive := (hfate.alive (hlisted.alive c hc)).resolve_left (by simp)
      exact h.upcall_incoming hlisted hcapped haccounted.counted heq hothers hid halive
        (houtcome.kept.incoming.trans hrequester) hfirst env buffer

end Dote.ClientForwarders
