import Dote.Clients.Arrival
import Dote.Clients.Wired
import Dote.Connection.Advance

/-! Whose response is sent to whom: a connection is made for one request, it has
the bytes of that request only, and one read on it is answered. -/
namespace Dote

namespace Active

variable {a : Active}

/-- What `SSL_write` takes in a callback, if it takes anything. -/
def taken (env : Env) (a : Active) : Callback → Option Bytes
  | .outgoing _ =>
    if a.self.buffer ≠ [] ∧ doFunction (env.ssl a.world.tick) = .success then some a.self.buffer
    else none
  | _ => none

theorem taken_eq_some {env : Env} {callback : Callback} {buffer : Bytes}
    (h : a.taken env callback = some buffer) : a.self.buffer = buffer ∧ buffer ≠ [] ∧
      (a.handler env callback).1.self.buffer = [] := by
  cases callback with
  | outgoing id =>
    dsimp only [taken] at h
    split at h
    next htaken =>
      cases h
      refine ⟨rfl, htaken.1, ?_⟩
      change (a.outgoing env).1.self.buffer = []
      unfold outgoing sslWrite
      rw [if_neg htaken.1, htaken.2]
      rfl
    next => contradiction
  | _ => contradiction

theorem taken_eq_none {env : Env} {callback : Callback} (h : a.taken env callback = none) :
    (a.handler env callback).1.self.buffer = a.self.buffer := by
  cases (handler_ends env a callback).buffer with
  | inl hkept => exact hkept
  | inr hdrained =>
    cases callback with
    | outgoing id =>
      have hempty : a.self.buffer = [] := by
        by_contra hne
        dsimp only [taken] at h
        rw [if_pos ⟨hne, hdrained.1.resolve_left hne⟩] at h
        contradiction
      rw [hdrained.2, hempty]
    | _ => exact hdrained.1.elim

def received (env : Env) (a : Active) : Option Bytes :=
  match a.sslRead env with
  | (.success, buffer, _) => if buffer = [] then none else some buffer
  | _ => none

theorem incoming_upcall (env : Env) {requester : Requester}
    (h : a.self.incoming = some requester) (buffer : Bytes) :
    (a.incoming env).2 = .incoming buffer ↔ a.received env = some buffer := by
  have hincoming : a.ask.self.incoming = some requester := h
  unfold incoming received sslRead
  dsimp only
  cases doFunction (env.ssl a.world.tick) with
  | success =>
    by_cases hbuffer : (env.ssl a.world.tick).buffer.take (env.ssl a.world.tick).ret.toNat = []
    · simp [hbuffer]
    · simp [hbuffer, hincoming]
  | fatal => simp [close_upcall]
  | closed => simp [close_upcall]
  | _ => simp

theorem Linked.state_ne {handle : Int} (h : a.Linked handle) : a.self.state ≠ .closed := by
  intro hclosed
  have hawaits := h.awaits
  rw [hclosed] at hawaits
  exact hawaits

theorem Outcome.linked_of_ne {handle : Int} {result : Active × Upcall}
    (h : Outcome handle a result) (hshutdown : a.self.hasShutdown = true)
    (hne : result.2 ≠ .shutdown) : result.1.Linked handle := by
  refine (h.cases.resolve_right fun hended => hne ?_).1
  rw [hended.2.2]
  exact if_pos hshutdown

theorem shuttingDown_of_rank {state : State} (h : State.shuttingDown.rank ≤ state.rank)
    (hne : state ≠ .closed) : state = .shuttingDown := by
  cases state <;> simp [State.rank] at h hne ⊢

end Active

namespace ClientForwarders
open Active

/-- The response to what was read on a connection. The connections are numbered
as the requests that were started. -/
def answer (started : List QueuedQuery) (read : Nat × Bytes) : Option Datagram :=
  started[read.1]?.bind fun query => response query.requester read.2

/-- The connection is for one of the requests that were started, and holds its bytes
until they are taken. -/
def Given (started : List QueuedQuery) (taken : List (Nat × Bytes)) (c : ForwarderConnection) :
    Prop :=
  ∃ query, started[c.id]? = some query ∧ c.incoming = some query.requester ∧
    c.buffer = if (c.id, query.request) ∈ taken then [] else query.request

/-- The owner with what was read and what `SSL_write` has taken so far: each read is
answered to the requester that the connection is for, and the connection is shut down
after it. -/
structure Accounted (s : ClientForwarders) (reads taken : List (Nat × Bytes)) : Prop where
  counted : s.nextId = s.started.length
  given : ∀ c ∈ s.forwarders, Given s.started taken c
  sent : s.sent = reads.filterMap (answer s.started)
  once : (reads.map Prod.fst).Nodup
  started : ∀ id ∈ reads.map Prod.fst, id < s.started.length
  finished : ∀ c ∈ s.forwarders, c.id ∈ reads.map Prod.fst → c.state = .shuttingDown
  requested : ∀ piece ∈ taken, ∃ query, s.started[piece.1]? = some query ∧ piece.2 = query.request
  takenOnce : (taken.map Prod.fst).Nodup

section Given

variable {started : List QueuedQuery} {taken : List (Nat × Bytes)} {c c' : ForwarderConnection}

theorem Given.kept (h : Given started taken c) (hid : c'.id = c.id)
    (hincoming : c'.incoming = c.incoming) (hbuffer : c'.buffer = c.buffer) :
    Given started taken c' := by
  obtain ⟨query, hquery, hrequester, hrequest⟩ := h
  exact ⟨query, by rw [hid]; exact hquery, hincoming.trans hrequester,
    by rw [hid, hbuffer]; exact hrequest⟩

theorem Given.append (h : Given started taken c) (later : List QueuedQuery) :
    Given (started ++ later) taken c := by
  obtain ⟨query, hquery, hrest⟩ := h
  refine ⟨query, ?_, hrest⟩
  rw [List.getElem?_append_left (List.getElem?_eq_some_iff.mp hquery).1, hquery]

theorem Given.other (h : Given started taken c) {new : List (Nat × Bytes)}
    (hnew : ∀ piece ∈ new, piece.1 ≠ c.id) : Given started (taken ++ new) c := by
  obtain ⟨query, hquery, hincoming, hrequest⟩ := h
  have hmem : (c.id, query.request) ∈ taken ++ new ↔ (c.id, query.request) ∈ taken := by
    rw [List.mem_append, or_iff_left]
    exact fun hmem => hnew _ hmem rfl
  exact ⟨query, hquery, hincoming, by rw [hrequest, if_congr hmem rfl rfl]⟩

end Given

variable {s : ClientForwarders} {reads taken : List (Nat × Bytes)}

theorem answer_append {started : List QueuedQuery}
    (h : ∀ id ∈ reads.map Prod.fst, id < started.length) (later : List QueuedQuery) :
    reads.filterMap (answer (started ++ later)) = reads.filterMap (answer started) := by
  apply List.filterMap_congr
  intro read hmem
  unfold answer
  rw [List.getElem?_append_left (h read.1 (List.mem_map_of_mem hmem))]

theorem Accounted.of_same (h : s.Accounted reads taken) {s' : ClientForwarders}
    (hnext : s'.nextId = s.nextId) (hstarted : s'.started = s.started) (hsent : s'.sent = s.sent)
    (hmem : ∀ c ∈ s'.forwarders, c ∈ s.forwarders ∨
      (Given s.started taken c ∧ (c.id ∈ reads.map Prod.fst → c.state = .shuttingDown))) :
    s'.Accounted reads taken := by
  constructor
  · rw [hnext, hstarted, h.counted]
  · intro c hc
    rw [hstarted]
    exact (hmem c hc).elim (h.given c) And.left
  · rw [hsent, hstarted, h.sent]
  · exact h.once
  · rw [hstarted]
    exact h.started
  · exact fun c hc => (hmem c hc).elim (h.finished c) And.right
  · rw [hstarted]
    exact h.requested
  · exact h.takenOnce

theorem Accounted.trySend (h : s.Accounted reads taken) (env : Env) (query : QueuedQuery) :
    (s.trySend env query).2.Accounted reads taken := by
  have hentered : Accounted { s with nextId := s.nextId + 1, started := s.started ++ [query] }
      reads taken := by
    constructor
    · simp [h.counted]
    · exact fun c hc => (h.given c hc).append [query]
    · exact h.sent.trans (answer_append h.started [query]).symm
    · exact h.once
    · intro id hmem
      have hlt := h.started id hmem
      rw [List.length_append]
      omega
    · exact h.finished
    · intro piece hmem
      obtain ⟨query', hquery, hrequest⟩ := h.requested piece hmem
      refine ⟨query', ?_, hrequest⟩
      rw [List.getElem?_append_left (List.getElem?_eq_some_iff.mp hquery).1, hquery]
    · exact h.takenOnce
  unfold ClientForwarders.trySend
  dsimp only
  split
  next haccepted =>
    have hid := (send_true haccepted).1.trans (ForwarderConnection.new_id env s.nextId s.world)
    refine hentered.of_same rfl rfl rfl ?_
    intro c hc
    rw [List.mem_append, List.mem_singleton] at hc
    refine hc.imp id ?_
    rintro rfl
    constructor
    · refine ⟨query, ?_, rfl, ?_⟩
      · rw [hid, h.counted]
        simp
      · rw [if_neg]
        · exact send_buffer haccepted
        · intro hmem
          obtain ⟨query', hquery, -⟩ := h.requested _ hmem
          have hlt := (List.getElem?_eq_some_iff.mp hquery).1
          rw [hid, h.counted] at hlt
          exact Nat.lt_irrefl _ hlt
    · intro hmem
      have hlt := h.started _ hmem
      rw [hid, h.counted] at hlt
      omega
  next => exact hentered.of_same rfl rfl rfl fun _ hc => .inl hc

theorem Accounted.sendQueued (h : s.Accounted reads taken) (env : Env) (queue : List QueuedQuery)
    (query : QueuedQuery) : (sendQueued env queue s query).Accounted reads taken :=
  sendQueued_preserves (P := fun s : ClientForwarders => s.Accounted reads taken)
    (fun _ _ h => h.of_same rfl rfl rfl fun _ hc => .inl hc)
    (fun _ query h => h.trySend env query) queue s query h

theorem Accounted.dequeue (h : s.Accounted reads taken) (env : Env) :
    (s.dequeue env).Accounted reads taken := by
  unfold ClientForwarders.dequeue
  split
  next => exact h
  next front queue _ =>
    have hnext : { s with queue := queue }.Accounted reads taken :=
      h.of_same rfl rfl rfl fun _ hc => .inl hc
    exact hnext.sendQueued env queue front

theorem Accounted.handleRequest (h : s.Accounted reads taken) (env : Env) (query : QueuedQuery) :
    (s.handleRequest env query).Accounted reads taken := by
  unfold ClientForwarders.handleRequest
  split
  next => exact h.sendQueued env s.queue query
  next => exact h.of_same rfl rfl rfl fun _ hc => .inl hc

theorem Accounted.handleIncoming (h : s.Accounted reads taken) {id : Nat} {query : QueuedQuery}
    (hquery : s.started[id]? = some query) (hfirst : id ∉ reads.map Prod.fst)
    (hgone : ∀ c ∈ s.forwarders, c.id ≠ id) (buffer : Bytes) :
    (s.handleIncoming query.requester buffer).Accounted (reads ++ [(id, buffer)]) taken := by
  have hids : (reads ++ [(id, buffer)]).map Prod.fst = reads.map Prod.fst ++ [id] := by simp
  constructor
  · exact h.counted
  · exact h.given
  · have hanswer : answer s.started (id, buffer) = response query.requester buffer := by
      unfold answer
      rw [hquery, Option.bind_some]
    change s.sent ++ (response query.requester buffer).toList = List.filterMap (answer s.started) _
    rw [List.filterMap_append, ← h.sent, List.filterMap_cons, List.filterMap_nil, hanswer]
    cases response query.requester buffer <;> rfl
  · rw [hids, List.nodup_append]
    refine ⟨h.once, by simp, ?_⟩
    intro other hmem other' hmem'
    rw [List.mem_singleton] at hmem'
    rintro rfl
    exact hfirst (hmem' ▸ hmem)
  · rw [hids]
    intro other hmem
    rw [List.mem_append, List.mem_singleton] at hmem
    cases hmem with
    | inl hold => exact h.started other hold
    | inr hnew =>
      rw [hnew]
      exact (List.getElem?_eq_some_iff.mp hquery).1
  · rw [hids]
    intro c hc hmem
    rw [List.mem_append, List.mem_singleton] at hmem
    exact h.finished c hc (hmem.resolve_right (hgone c hc))
  · exact h.requested
  · exact h.takenOnce

section Handlers

variable {others : List Other} {before after : List ForwarderConnection}
  {c : ForwarderConnection} {a : Active}

theorem Accounted.put (h : Accounted { s with forwarders := before ++ after } reads taken)
    (heq : s.forwarders = before ++ c :: after) (hid : a.self.id = c.id)
    (hothers : ∀ c' ∈ before ++ after, c'.id ≠ c.id) (hgiven : Given s.started taken a.self)
    (hstate : c.id ∈ reads.map Prod.fst → a.self.state = .shuttingDown) :
    (s.put a).Accounted reads taken := by
  refine h.of_same rfl rfl rfl ?_
  intro c' hc'
  rw [put_split heq hid hothers, List.mem_append, List.mem_cons] at hc'
  rcases hc' with hmem | rfl | hmem
  · exact .inl (List.mem_append_left _ hmem)
  · exact .inr ⟨hgiven, by rw [hid]; exact hstate⟩
  · exact .inl (List.mem_append_right _ hmem)

theorem Accounted.handleShutdown
    (h : Accounted { s with forwarders := before ++ after } reads taken)
    (heq : s.forwarders = before ++ c :: after) (hid : a.self.id = c.id)
    (hothers : ∀ c' ∈ before ++ after, c'.id ≠ c.id) (env : Env) :
    ((s.put a).handleShutdown env c.id).Accounted reads taken := by
  unfold ClientForwarders.handleShutdown
  rw [eraseP_put heq hid hothers]
  apply Accounted.dequeue
  exact h.of_same rfl rfl rfl fun _ hc => .inl hc

theorem Accounted.upcall_incoming
    (h : Accounted { s with forwarders := before ++ after } reads taken)
    (heq : s.forwarders = before ++ c :: after) (hid : a.self.id = c.id)
    (hothers : ∀ c' ∈ before ++ after, c'.id ≠ c.id) (hgiven : Given s.started taken a.self)
    (hfirst : c.id ∉ reads.map Prod.fst) (htracks : a.Tracks (due a.self.id a.self.state))
    {handle : Int} (hlinked : a.Linked handle) (hshutdown : a.self.hasShutdown = true) (env : Env)
    (buffer : Bytes) :
    ((s.put a).upcall env a.self (.incoming buffer)).Accounted (reads ++ [(c.id, buffer)])
      taken := by
  obtain ⟨query, hquery, hincoming, hrequest⟩ := hgiven
  rw [← hid] at hothers hfirst ⊢
  let s' := (s.put a).handleIncoming query.requester buffer
  have hput : s'.forwarders = before ++ a.self :: after := put_split heq hid (by rwa [← hid])
  have hrest : Accounted { s' with forwarders := before ++ after }
      (reads ++ [(a.self.id, buffer)]) taken :=
    (h.handleIncoming hquery hfirst hothers buffer).of_same rfl rfl rfl fun _ hc => .inl hc
  have hadvance := shutdown_advance env htracks
  have houtcome := shutdown_outcome env hlinked
  have hends := shutdown_ends env a
  have hgiven : Given s.started taken (a.shutdown env).1.self :=
    Given.kept ⟨query, hquery, hincoming, hrequest⟩ hends.keeps.id hends.keeps.incoming
      (hends.buffer.resolve_right fun hdrained => hdrained.1)
  unfold ClientForwarders.upcall
  rw [hincoming]
  dsimp only
  split
  next a' hresult =>
    change a.shutdown env = _ at hresult
    rw [hresult] at hadvance
    exact hrest.handleShutdown hput hadvance.1.id hothers env
  next a' upcall hne hresult =>
    change a.shutdown env = _ at hresult
    rw [hresult] at hadvance houtcome hgiven
    exact hrest.put hput hadvance.1.id hothers hgiven fun _ =>
      shuttingDown_of_rank hadvance.2 (houtcome.linked_of_ne hshutdown hne).state_ne

/-- What `SSL_write` takes of the connection are the bytes of its request, and it has
taken nothing of it before. -/
theorem Accounted.take (h : Accounted { s with forwarders := before ++ after } reads taken)
    (hothers : ∀ c' ∈ before ++ after, c'.id ≠ c.id) (hgiven : Given s.started taken c) (env : Env)
    (callback : Callback) :
    let new := (Active.taken env ⟨c, s.world⟩ callback).toList.map (c.id, ·)
    Accounted { s with forwarders := before ++ after } reads (taken ++ new) ∧
      Given s.started (taken ++ new) (handler env ⟨c, s.world⟩ callback).1.self := by
  intro new
  have hkeeps := (handler_ends env ⟨c, s.world⟩ callback).keeps
  cases htaken : Active.taken env ⟨c, s.world⟩ callback with
  | none =>
    have hnew : new = [] := by
      unfold new
      rw [htaken]
      rfl
    rw [hnew, List.append_nil]
    exact ⟨h, hgiven.kept hkeeps.id hkeeps.incoming (taken_eq_none htaken)⟩
  | some buffer =>
    obtain ⟨hbuffer, hne, hempty⟩ := taken_eq_some htaken
    obtain ⟨query, hquery, hincoming, hrequest⟩ := hgiven
    dsimp only at hbuffer
    have hfirst : (c.id, query.request) ∉ taken := by
      intro hmem
      rw [if_pos hmem, hbuffer] at hrequest
      exact hne hrequest
    have hsame : buffer = query.request := by
      rw [← hbuffer, hrequest, if_neg hfirst]
    have hnew : new = [(c.id, query.request)] := by
      unfold new
      rw [htaken, hsame]
      rfl
    rw [hnew]
    constructor
    · constructor
      · exact h.counted
      · intro c' hc'
        apply (h.given c' hc').other
        intro piece hmem
        rw [List.mem_singleton] at hmem
        rw [hmem]
        exact (hothers c' hc').symm
      · exact h.sent
      · exact h.once
      · exact h.started
      · exact h.finished
      · intro piece hmem
        rw [List.mem_append, List.mem_singleton] at hmem
        cases hmem with
        | inl hold => exact h.requested piece hold
        | inr hnew => exact ⟨query, by rw [hnew]; exact hquery, by rw [hnew]⟩
      · rw [List.map_append, List.nodup_append]
        refine ⟨h.takenOnce, by simp, ?_⟩
        intro id hmem id' hmem'
        simp only [List.map_cons, List.map_nil, List.mem_singleton] at hmem'
        rintro rfl
        obtain ⟨piece, hpiece, hid⟩ := List.mem_map.mp hmem
        obtain ⟨query', hquery', hrequest'⟩ := h.requested piece hpiece
        rw [hid, hmem'] at hquery'
        cases hquery.symm.trans hquery'
        apply hfirst
        rw [← hmem', ← hid, ← hrequest']
        exact hpiece
    · exact ⟨query, by rw [hkeeps.id]; exact hquery, hkeeps.incoming.trans hincoming,
        by rw [hkeeps.id, if_pos (by simp)]; exact hempty⟩

end Handlers

theorem IsWired.tracks {others : List Other} (h : s.IsWired others) (hlisted : s.Listed)
    {c : ForwarderConnection} (hc : c ∈ s.forwarders) :
    Tracks ⟨c, s.world⟩ (due c.id c.state) := by
  intro handle kind callback timeout hwire howner
  obtain ⟨c', hc', hsocket, hid⟩ := Wired.connection_of_wire h hwire howner
  have hsame : c' = c := List.inj_on_of_nodup_map hlisted.ids hc' hc hid
  rw [hsame] at hsocket
  obtain ⟨-, -, hlinked⟩ := Wired.linked_of_socket h hc hsocket
  exact ⟨hlinked.consistent.wired kind (by rw [hwire]; simp), (hlinked.wire_eq hwire).1⟩

def readBy (env : Env) (s : ClientForwarders) : Callback → List (Nat × Bytes)
  | .incoming id => ((s.find id).bind fun c => received env ⟨c, s.world⟩).toList.map (id, ·)
  | _ => []

/-- What a callback gives to OpenSSL to write on its connection. -/
def writtenBy (s : ClientForwarders) : Callback → List (Nat × Bytes)
  | .outgoing id => ((s.find id).map (·.buffer)).toList.filter (· ≠ []) |>.map (id, ·)
  | _ => []

def takenBy (env : Env) (s : ClientForwarders) : Callback → List (Nat × Bytes)
  | .outgoing id =>
    ((s.find id).bind fun c => Active.taken env ⟨c, s.world⟩ (.outgoing id)).toList.map (id, ·)
  | _ => []

theorem takenBy_eq (env : Env) {callback : Callback} {c : ForwarderConnection}
    (hfind : s.find c.id = some c) (howner : callback.owner = some c.id) :
    s.takenBy env callback = (Active.taken env ⟨c, s.world⟩ callback).toList.map (c.id, ·) := by
  cases callback with
  | outgoing id =>
    cases howner
    unfold takenBy
    dsimp only
    rw [hfind, Option.bind_some]
  | _ => rfl

theorem of_mem_readBy {env : Env} {callback : Callback} {piece : Nat × Bytes}
    (h : piece ∈ s.readBy env callback) :
    doFunction (env.ssl s.world.tick) = .success ∧
      piece.2 = (env.ssl s.world.tick).buffer.take (env.ssl s.world.tick).ret.toNat ∧
      ∃ c ∈ s.forwarders, c.id = piece.1 := by
  cases callback with
  | incoming id =>
    simp only [readBy, List.mem_map, Option.mem_toList] at h
    obtain ⟨buffer, hbuffer, rfl⟩ := h
    obtain ⟨c, hfind, hreceived⟩ := Option.bind_eq_some_iff.mp hbuffer
    have hlisted : ∃ c ∈ s.forwarders, c.id = id :=
      ⟨c, List.mem_of_find?_eq_some hfind, by simpa using List.find?_some hfind⟩
    dsimp only [received, sslRead] at hreceived
    cases hanswer : doFunction (env.ssl s.world.tick) with
    | success =>
      rw [hanswer] at hreceived
      dsimp only at hreceived
      split at hreceived
      next => contradiction
      next =>
        cases hreceived
        exact ⟨rfl, rfl, hlisted⟩
    | _ =>
      rw [hanswer] at hreceived
      contradiction
  | _ => contradiction

theorem readBy_eq (env : Env) {callback : Callback} {c : ForwarderConnection}
    {requester : Requester} (hfind : s.find c.id = some c) (howner : callback.owner = some c.id)
    (hrequester : c.incoming = some requester) :
    (∀ buffer, (handler env ⟨c, s.world⟩ callback).2 = .incoming buffer →
      s.readBy env callback = [(c.id, buffer)]) ∧
    ((∀ buffer, (handler env ⟨c, s.world⟩ callback).2 ≠ .incoming buffer) →
      s.readBy env callback = []) := by
  cases callback with
  | incoming id =>
    cases howner
    have hupcall := incoming_upcall (a := ⟨c, s.world⟩) env hrequester
    have hread : s.readBy env (.incoming c.id) =
        (received env ⟨c, s.world⟩).toList.map (c.id, ·) := by
      unfold readBy
      dsimp only
      rw [hfind, Option.bind_some]
    rw [hread]
    constructor
    · intro buffer hbuffer
      rw [(hupcall buffer).mp hbuffer]
      rfl
    · intro hnone
      cases hreceived : received env ⟨c, s.world⟩ with
      | none => rfl
      | some buffer => exact absurd ((hupcall buffer).mpr hreceived) (hnone buffer)
  | _ =>
    refine ⟨fun buffer hbuffer => ?_, fun _ => rfl⟩
    obtain ⟨id, hid⟩ := (handler_ends env ⟨c, s.world⟩ _).upcall hbuffer
    contradiction

theorem Accounted.call (h : s.Accounted reads taken) {others : List Other} (hlisted : s.Listed)
    (hwired : s.IsWired others) (env : Env) {handle : Int} {kind : Kind} {callback : Callback}
    {timeout : Int} (hwire : s.world.loop.wire handle kind = some (callback, timeout)) {id : Nat}
    (howner : callback.owner = some id) :
    (s.call env id callback).Accounted (reads ++ s.readBy env callback)
      (taken ++ s.takenBy env callback) := by
  obtain ⟨c, hc, hsocket, rfl⟩ := Wired.connection_of_wire hwired hwire howner
  obtain ⟨-, -, hlinked⟩ := Wired.linked_of_socket hwired hc hsocket
  have hfind := find_of_mem hlisted hc
  obtain ⟨before, after, heq, -, hothers⟩ := find_split hlisted.ids hfind
  have hdue := (hlinked.wire_eq hwire).1
  have hadvance := handler_advance env (hwired.tracks hlisted hc) hdue
  have houtcome := handler_outcome env hlinked hwire
  obtain ⟨query, -, hrequester, -⟩ := h.given c hc
  have hread := s.readBy_eq env hfind howner hrequester
  have hrest : Accounted { s with forwarders := before ++ after } reads taken := by
    refine h.of_same rfl rfl rfl fun c' hc' => .inl ?_
    rw [heq, List.mem_append, List.mem_cons]
    rw [List.mem_append] at hc'
    tauto
  obtain ⟨hrest, hgiven⟩ := hrest.take hothers (h.given c hc) env callback
  rw [takenBy_eq env hfind howner]
  unfold ClientForwarders.call
  rw [hfind]
  dsimp only
  cases hresult : handler env ⟨c, s.world⟩ callback with
  | mk a upcall =>
    rw [hresult] at hadvance houtcome hread hgiven
    have hid : a.self.id = c.id := hadvance.id
    have hshutdown := (hlisted.alive c hc).hasShutdown
    cases upcall with
    | none =>
      rw [hread.2 (by simp), List.append_nil]
      refine hrest.put heq hid hothers hgiven ?_
      intro hmem
      have hrank : c.state.rank ≤ a.self.state.rank := hadvance.rank
      rw [h.finished c hc hmem] at hrank
      exact shuttingDown_of_rank hrank (houtcome.linked_of_ne hshutdown (by simp)).state_ne
    | shutdown =>
      rw [hread.2 (by simp), List.append_nil]
      change ((s.put a).handleShutdown env a.self.id).Accounted reads _
      rw [hid]
      exact hrest.handleShutdown heq hid hothers env
    | incoming buffer =>
      rw [hread.1 buffer rfl]
      have hopened : c.state = .opened := (hadvance.incoming buffer rfl).1
      have hfirst : c.id ∉ reads.map Prod.fst := by
        intro hmem
        rw [h.finished c hc hmem] at hopened
        contradiction
      have htracks : a.Tracks (due a.self.id a.self.state) := by
        rw [hid]
        exact hadvance.tracks
      exact hrest.upcall_incoming heq hid hothers hgiven hfirst htracks
        (houtcome.linked_of_ne hshutdown (by simp))
        (houtcome.kept.hasShutdown.trans hshutdown) env buffer

end ClientForwarders

end Dote
