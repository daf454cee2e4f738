import Dote.Clients.Slots

/-! The connections of `ClientForwarders` among all the users of the loop: each
has a descriptor of its own, and nothing is registered that has no owner. -/
namespace Dote
open Active

/-- A descriptor that is not for a connection. It is read from, for ever. -/
structure Other where
  handle : Int
  callback : Callback
  unowned : callback.owner = none

/-- The connections in a world that they share with the others. -/
structure Wired (others : List Other) (w : World) (connections : List ForwarderConnection) :
    Prop where
  linked : ∀ c ∈ connections, ∃ handle ∈ w.handles, handle ∉ others.map Other.handle ∧
    Linked ⟨c, w⟩ handle
  apart : (connections.map (·.socket)).Nodup
  others_apart : (others.map Other.handle).Nodup
  others_open : ∀ other ∈ others, other.handle ∈ w.handles
  others_wire : ∀ other ∈ others, ∀ kind, w.loop.wire other.handle kind =
    if kind = .read then some (other.callback, 0) else none
  owned : ∀ handle kind, w.loop.wire handle kind ≠ none →
    handle ∈ others.map Other.handle ∨ ∃ c ∈ connections, c.socket = some handle

namespace Wired

variable {others : List Other} {w : World}

theorem touches_wire {handle : Int} {loop loop' : Loop Callback}
    (h : Loop.Touches handle loop loop') {k : Int} (hk : k ≠ handle) (kind : Kind) :
    loop'.wire k kind = loop.wire k kind := by
  rw [Loop.wire, h kind k hk, Loop.wire]

theorem linked_of_touches {handle : Int} {c : ForwarderConnection} {w' : World} {k : Int}
    (h : Linked ⟨c, w⟩ k) (htouches : Loop.Touches handle w.loop w'.loop) (hk : k ≠ handle) :
    Linked ⟨c, w'⟩ k :=
  h.of_wire rfl fun kind => touches_wire htouches hk kind

theorem wire_of_not_open {connections : List ForwarderConnection}
    (h : Wired others w connections) {handle : Int} (hopen : handle ∉ w.handles) (kind : Kind) :
    w.loop.wire handle kind = none := by
  by_contra hwire
  cases h.owned handle kind hwire with
  | inl hother =>
    obtain ⟨other, hmem, rfl⟩ := List.mem_map.mp hother
    exact hopen (h.others_open other hmem)
  | inr hconnection =>
    obtain ⟨c, hc, hsocket⟩ := hconnection
    obtain ⟨handle', hhandle', -, hlinked⟩ := h.linked c hc
    have heq := hlinked.consistent.socket
    rw [hsocket] at heq
    cases heq
    exact hopen hhandle'

theorem ne_of_not_mem {handle : Int} (h : handle ∉ others.map Other.handle) {other : Other}
    (hmem : other ∈ others) : other.handle ≠ handle := by
  intro heq
  exact h (heq ▸ List.mem_map_of_mem hmem)

section Step

variable {before after : List ForwarderConnection} {c : ForwarderConnection} {handle : Int}
  {a : Active}

theorem socket_ne (h : Wired others w (before ++ c :: after))
    (hsocket : c.socket = some handle) : ∀ c' ∈ before ++ after, c'.socket ≠ some handle := by
  intro c' hc' hcontra
  have hapart := h.apart
  rw [List.map_append, List.map_cons, List.nodup_append] at hapart
  have hcons := List.nodup_cons.mp hapart.2.1
  cases List.mem_append.mp hc' with
  | inl hmem =>
    apply hapart.2.2 c'.socket (List.mem_map_of_mem hmem) c.socket List.mem_cons_self
    rw [hcontra, hsocket]
  | inr hmem =>
    apply hcons.1
    rw [hsocket, ← hcontra]
    exact List.mem_map_of_mem hmem

theorem rest_linked (h : Wired others w (before ++ c :: after)) (hsocket : c.socket = some handle)
    {w' : World} (htouches : Loop.Touches handle w.loop w'.loop)
    (hhandles : ∀ k, k ≠ handle → k ∈ w.handles → k ∈ w'.handles) :
    ∀ c' ∈ before ++ after, ∃ k ∈ w'.handles, k ∉ others.map Other.handle ∧ Linked ⟨c', w'⟩ k := by
  intro c' hc'
  have hmem : c' ∈ before ++ c :: after := by
    rw [List.mem_append, List.mem_cons]
    rw [List.mem_append] at hc'
    tauto
  obtain ⟨k, hk, hothers, hlinked⟩ := h.linked c' hmem
  have hne : k ≠ handle := by
    intro heq
    apply socket_ne h hsocket c' hc'
    rw [← heq]
    exact hlinked.consistent.socket
  exact ⟨k, hhandles k hne hk, hothers, linked_of_touches hlinked htouches hne⟩

theorem others_kept (h : Wired others w (before ++ c :: after))
    (hothers : handle ∉ others.map Other.handle)
    {w' : World} (htouches : Loop.Touches handle w.loop w'.loop) :
    ∀ other ∈ others, ∀ kind, w'.loop.wire other.handle kind =
      if kind = .read then some (other.callback, 0) else none := by
  intro other hmem kind
  rw [touches_wire htouches (ne_of_not_mem hothers hmem), h.others_wire other hmem]

theorem owned_rest (h : Wired others w (before ++ c :: after)) (hsocket : c.socket = some handle)
    {w' : World} (htouches : Loop.Touches handle w.loop w'.loop) {k : Int} (hk : k ≠ handle)
    {kind : Kind} (hwire : w'.loop.wire k kind ≠ none) :
    k ∈ others.map Other.handle ∨ ∃ c' ∈ before ++ after, c'.socket = some k := by
  rw [touches_wire htouches hk] at hwire
  cases h.owned k kind hwire with
  | inl hother => exact .inl hother
  | inr hconnection =>
    obtain ⟨c', hc', hsocket'⟩ := hconnection
    rw [List.mem_append, List.mem_cons] at hc'
    rcases hc' with hmem | rfl | hmem
    · exact .inr ⟨c', List.mem_append_left _ hmem, hsocket'⟩
    · rw [hsocket] at hsocket'
      cases hsocket'
      contradiction
    · exact .inr ⟨c', List.mem_append_right _ hmem, hsocket'⟩

theorem replace (h : Wired others w (before ++ c :: after))
    (hothers : handle ∉ others.map Other.handle)
    (hhandle : handle ∈ w.handles) (hsocket : c.socket = some handle)
    (hkept : Kept handle ⟨c, w⟩ a) (hlinked : a.Linked handle)
    (hhandles : a.world.handles = w.handles) :
    Wired others a.world (before ++ a.self :: after) := by
  have hopen : ∀ k, k ≠ handle → k ∈ w.handles → k ∈ a.world.handles :=
    fun k _ hk => hhandles ▸ hk
  have hrest := rest_linked h hsocket hkept.touches hopen
  have hsocket' : a.self.socket = c.socket := by
    rw [hlinked.consistent.socket, hsocket]
  constructor
  · intro c' hc'
    rw [List.mem_append, List.mem_cons] at hc'
    rcases hc' with hmem | rfl | hmem
    · exact hrest c' (List.mem_append_left _ hmem)
    · exact ⟨handle, hhandles ▸ hhandle, hothers, hlinked⟩
    · exact hrest c' (List.mem_append_right _ hmem)
  · rw [List.map_append, List.map_cons, hsocket', ← List.map_cons, ← List.map_append]
    exact h.apart
  · exact h.others_apart
  · intro other hmem
    rw [hhandles]
    exact h.others_open other hmem
  · exact others_kept h hothers hkept.touches
  · intro k kind hwire
    by_cases hk : k = handle
    · exact .inr ⟨a.self, by simp, hk ▸ hlinked.consistent.socket⟩
    · cases owned_rest h hsocket hkept.touches hk hwire with
      | inl hother => exact .inl hother
      | inr hconnection =>
        obtain ⟨c', hc', hsocket''⟩ := hconnection
        refine .inr ⟨c', ?_, hsocket''⟩
        rw [List.mem_append] at hc'
        rw [List.mem_append, List.mem_cons]
        tauto

theorem remove (h : Wired others w (before ++ c :: after))
    (hothers : handle ∉ others.map Other.handle)
    (hsocket : c.socket = some handle) (hkept : Kept handle ⟨c, w⟩ a) (hended : a.Ended handle)
    (hhandles : a.world.handles = w.handles.erase handle) :
    Wired others a.world (before ++ after) := by
  have hopen : ∀ k, k ≠ handle → k ∈ w.handles → k ∈ a.world.handles := by
    intro k hk hmem
    rw [hhandles]
    exact (List.mem_erase_of_ne hk).mpr hmem
  constructor
  · exact rest_linked h hsocket hkept.touches hopen
  · exact h.apart.sublist
      (((List.Sublist.refl before).append (List.sublist_cons_self c after)).map _)
  · exact h.others_apart
  · exact fun other hmem => hopen _ (ne_of_not_mem hothers hmem) (h.others_open other hmem)
  · exact others_kept h hothers hkept.touches
  · intro k kind hwire
    by_cases hk : k = handle
    · rw [hk] at hwire
      exact absurd (hended.unwired kind) hwire
    · exact owned_rest h hsocket hkept.touches hk hwire

end Step

theorem add {connections : List ForwarderConnection} (h : Wired others w connections)
    {a : Active} {handle : Int} (hfresh : handle ∉ w.handles) (hlinked : a.Linked handle)
    (hhandles : a.world.handles = handle :: w.handles)
    (htouches : Loop.Touches handle w.loop a.world.loop) :
    Wired others a.world (connections ++ [a.self]) := by
  have hothers : handle ∉ others.map Other.handle := by
    intro hmem
    obtain ⟨other, hother, rfl⟩ := List.mem_map.mp hmem
    exact hfresh (h.others_open other hother)
  have hsockets : ∀ c ∈ connections, c.socket ≠ some handle := by
    intro c hc hsocket
    obtain ⟨k, hk, -, hlinked'⟩ := h.linked c hc
    have heq := hlinked'.consistent.socket
    rw [hsocket] at heq
    cases heq
    exact hfresh hk
  constructor
  · intro c hc
    rw [List.mem_append, List.mem_singleton] at hc
    cases hc with
    | inl hmem =>
      obtain ⟨k, hk, hother, hlinked'⟩ := h.linked c hmem
      have hne : k ≠ handle := fun heq => hfresh (heq ▸ hk)
      exact ⟨k, by simp [hhandles, hk], hother, linked_of_touches hlinked' htouches hne⟩
    | inr hnew =>
      rw [hnew]
      exact ⟨handle, by simp [hhandles], hothers, hlinked⟩
  · rw [List.map_append, List.nodup_append]
    refine ⟨h.apart, by simp, ?_⟩
    intro socket hsocket socket' hsocket'
    simp only [List.map_cons, List.map_nil, List.mem_singleton] at hsocket'
    obtain ⟨c, hc, rfl⟩ := List.mem_map.mp hsocket
    rw [hsocket', hlinked.consistent.socket]
    exact hsockets c hc
  · exact h.others_apart
  · intro other hmem
    rw [hhandles]
    exact List.mem_cons_of_mem _ (h.others_open other hmem)
  · intro other hmem kind
    rw [touches_wire htouches (ne_of_not_mem hothers hmem), h.others_wire other hmem]
  · intro k kind hwire
    by_cases hk : k = handle
    · exact .inr ⟨a.self, by simp, hk ▸ hlinked.consistent.socket⟩
    · rw [touches_wire htouches hk] at hwire
      cases h.owned k kind hwire with
      | inl hother => exact .inl hother
      | inr hconnection =>
        obtain ⟨c, hc, hsocket⟩ := hconnection
        exact .inr ⟨c, List.mem_append_left _ hc, hsocket⟩

theorem of_same {connections : List ForwarderConnection} (h : Wired others w connections)
    {w' : World} (hhandles : w'.handles = w.handles)
    (hwire : ∀ kind k, w'.loop.wire k kind = w.loop.wire k kind) :
    Wired others w' connections := by
  constructor
  · intro c hc
    obtain ⟨k, hk, hother, hlinked⟩ := h.linked c hc
    exact ⟨k, hhandles ▸ hk, hother, hlinked.of_wire rfl fun kind => hwire kind k⟩
  · exact h.apart
  · exact h.others_apart
  · intro other hmem
    rw [hhandles]
    exact h.others_open other hmem
  · intro other hmem kind
    rw [hwire, h.others_wire other hmem]
  · intro k kind hsome
    rw [hwire] at hsome
    exact h.owned k kind hsome

theorem handle_of_mem {connections : List ForwarderConnection} (h : Wired others w connections)
    {c : ForwarderConnection} (hc : c ∈ connections) : ∃ handle ∈ w.handles,
      handle ∉ others.map Other.handle ∧ c.socket = some handle ∧ Linked ⟨c, w⟩ handle := by
  obtain ⟨handle, hmem, hother, hlinked⟩ := h.linked c hc
  exact ⟨handle, hmem, hother, hlinked.consistent.socket, hlinked⟩

theorem linked_of_socket {connections : List ForwarderConnection}
    (h : Wired others w connections) {c : ForwarderConnection} (hc : c ∈ connections)
    {handle : Int} (hsocket : c.socket = some handle) :
    handle ∈ w.handles ∧ handle ∉ others.map Other.handle ∧ Linked ⟨c, w⟩ handle := by
  obtain ⟨handle', hopen, hother, hsocket', hlinked⟩ := h.handle_of_mem hc
  rw [hsocket] at hsocket'
  cases hsocket'
  exact ⟨hopen, hother, hlinked⟩

theorem connection_of_wire {connections : List ForwarderConnection}
    (h : Wired others w connections) {handle : Int} {kind : Kind} {callback : Callback}
    {timeout : Int} (hwire : w.loop.wire handle kind = some (callback, timeout)) {id : Nat}
    (howner : callback.owner = some id) :
    ∃ c ∈ connections, c.socket = some handle ∧ c.id = id := by
  cases h.owned handle kind (by simp [hwire]) with
  | inl hother =>
    obtain ⟨other, hmem, rfl⟩ := List.mem_map.mp hother
    rw [h.others_wire other hmem] at hwire
    split at hwire
    next =>
      cases hwire
      rw [other.unowned] at howner
      contradiction
    next => contradiction
  | inr hconnection =>
    obtain ⟨c, hc, hsocket⟩ := hconnection
    obtain ⟨-, -, hlinked⟩ := h.linked_of_socket hc hsocket
    refine ⟨c, hc, hsocket, ?_⟩
    have heq := hlinked.owner_eq hwire
    rw [howner] at heq
    exact (Option.some.inj heq).symm

end Wired

namespace ClientForwarders

variable {others : List Other}

/-- The connections of the owner have everything that the loop knows of them. -/
def IsWired (others : List Other) (s : ClientForwarders) : Prop :=
  Wired others s.world s.forwarders

theorem IsWired.trySend {s : ClientForwarders} (h : s.IsWired others) (env : Env)
    (query : QueuedQuery) : (s.trySend env query).2.IsWired others := by
  have hfresh := ForwarderConnection.new_fresh env s.nextId s.world fun _ _ => h.wire_of_not_open
  unfold ClientForwarders.trySend
  cases hfresh.cases with
  | inl hconnected =>
    obtain ⟨handle, hunused, hlinked, hstate, hbuffer, hhandles, htouches⟩ := hconnected
    obtain ⟨haccepted, hlinked', hkept, hhandles'⟩ :=
      send_linked hlinked hstate hbuffer query.request
    dsimp only
    rw [if_pos haccepted]
    exact Wired.add h hunused (hlinked'.setCallbacks (some query.requester) true)
      (hhandles'.trans hhandles) (htouches.trans hkept.touches)
  | inr hfailed =>
    have hsend : (ForwarderConnection.new env s.nextId s.world).send query.request =
        (false, ForwarderConnection.new env s.nextId s.world) := by
      unfold send
      rw [if_pos (.inl hfailed.1)]
    dsimp only
    rw [hsend]
    exact Wired.of_same h hfailed.2.1 hfailed.2.2

theorem IsWired.sendQueued {s : ClientForwarders} (h : s.IsWired others) (env : Env)
    (queue : List QueuedQuery) (query : QueuedQuery) :
    (sendQueued env queue s query).IsWired others :=
  sendQueued_preserves (fun _ _ h => h) (fun _ query h => h.trySend env query) queue s query h

theorem IsWired.dequeue {s : ClientForwarders} (h : s.IsWired others) (env : Env) :
    (s.dequeue env).IsWired others := by
  unfold ClientForwarders.dequeue
  split
  next => exact h
  next front queue _ =>
    have hnext : { s with queue := queue }.IsWired others := h
    exact hnext.sendQueued env queue front

theorem IsWired.handleRequest {s : ClientForwarders} (h : s.IsWired others) (env : Env)
    (query : QueuedQuery) : (s.handleRequest env query).IsWired others := by
  unfold ClientForwarders.handleRequest
  split
  next => exact h.sendQueued env s.queue query
  next => exact h

section Handlers

variable {s : ClientForwarders} {before after : List ForwarderConnection}
  {c : ForwarderConnection} {handle : Int} {result : Active × Upcall}

theorem IsWired.settle (h : s.IsWired others) (env : Env)
    (heq : s.forwarders = before ++ c :: after) (hothers : ∀ c' ∈ before ++ after, c'.id ≠ c.id)
    (hsocket : c.socket = some handle) (hshutdown : c.hasShutdown = true)
    (houtcome : Outcome handle ⟨c, s.world⟩ result) :
    (result.2 ≠ .shutdown ∧ result.1.Linked handle ∧ (s.put result.1).IsWired others) ∨
      (result.2 = .shutdown ∧ ((s.put result.1).handleShutdown env c.id).IsWired others) := by
  have hwired : Wired others s.world (before ++ c :: after) := heq ▸ h
  have hid : result.1.self.id = c.id := houtcome.kept.id
  have hput := put_split heq hid hothers
  obtain ⟨hopen, hother, -⟩ := hwired.linked_of_socket (by simp) hsocket
  cases houtcome.cases with
  | inl hlinked =>
    refine .inl ⟨hlinked.2.2, hlinked.1, ?_⟩
    unfold IsWired
    rw [hput]
    exact hwired.replace hother hopen hsocket houtcome.kept hlinked.1 hlinked.2.1
  | inr hended =>
    have hupcall : result.2 = .shutdown := by
      rw [hended.2.2]
      change (if c.hasShutdown = true then _ else _) = _
      rw [if_pos hshutdown]
    refine .inr ⟨hupcall, ?_⟩
    unfold ClientForwarders.handleShutdown
    apply IsWired.dequeue
    unfold IsWired
    dsimp only
    rw [eraseP_put heq hid hothers]
    exact hwired.remove hother hsocket houtcome.kept hended.1 hended.2.1

theorem IsWired.upcall (h : s.IsWired others) (env : Env)
    (heq : s.forwarders = before ++ c :: after) (hothers : ∀ c' ∈ before ++ after, c'.id ≠ c.id)
    (hsocket : c.socket = some handle) (hshutdown : c.hasShutdown = true)
    (houtcome : Outcome handle ⟨c, s.world⟩ result) :
    ((s.put result.1).upcall env result.1.self result.2).IsWired others := by
  have hid : result.1.self.id = c.id := houtcome.kept.id
  have hput := put_split heq hid hothers
  rcases h.settle env heq hothers hsocket hshutdown houtcome with
    ⟨hupcall, hlinked, hwired⟩ | ⟨hupcall, hwired⟩
  · cases hresult : result.2 with
    | none => exact hwired
    | shutdown => exact absurd hresult hupcall
    | incoming buffer =>
      unfold ClientForwarders.upcall
      dsimp only
      split
      next => exact hwired
      next requester _ =>
        let s' := (s.put result.1).handleIncoming requester buffer
        have hwired' : s'.IsWired others := hwired
        have houtcome' := shutdown_outcome env hlinked
        have hsettle := hwired'.settle env hput (by rw [hid]; exact hothers)
          hlinked.consistent.socket (houtcome.kept.hasShutdown.trans hshutdown) houtcome'
        split
        next a hresult' =>
          change (result.1.shutdown env) = _ at hresult'
          rw [hresult'] at hsettle
          exact (hsettle.resolve_left fun hcontra => hcontra.1 rfl).2
        next a upcall hupcall' hresult' =>
          change (result.1.shutdown env) = _ at hresult'
          rw [hresult'] at hsettle
          exact (hsettle.resolve_right fun hcontra => hupcall' hcontra.1).2.2
  · rw [hupcall, ClientForwarders.upcall, hid]
    exact hwired

end Handlers

theorem find_of_mem {s : ClientForwarders} (h : s.Listed) {c : ForwarderConnection}
    (hc : c ∈ s.forwarders) : s.find c.id = some c := by
  obtain ⟨c', hfind⟩ : ∃ c', s.find c.id = some c' := by
    rw [← Option.isSome_iff_exists, find, List.find?_isSome]
    exact ⟨c, hc, by simp⟩
  have hmem := List.mem_of_find?_eq_some hfind
  have hid : c'.id = c.id := by simpa using List.find?_some hfind
  rw [hfind, List.inj_on_of_nodup_map h.ids hmem hc hid]

theorem IsWired.call {s : ClientForwarders} (h : s.IsWired others) (hlisted : s.Listed)
    (env : Env) {handle : Int} {kind : Kind} {callback : Callback} {timeout : Int}
    (hwire : s.world.loop.wire handle kind = some (callback, timeout)) {id : Nat}
    (howner : callback.owner = some id) : (s.call env id callback).IsWired others := by
  obtain ⟨c, hc, hsocket, hid⟩ := Wired.connection_of_wire h hwire howner
  obtain ⟨-, -, hlinked⟩ := Wired.linked_of_socket h hc hsocket
  have hfind := find_of_mem hlisted hc
  obtain ⟨before, after, heq, -, hothers⟩ := find_split hlisted.ids hfind
  unfold ClientForwarders.call
  rw [← hid, hfind]
  exact h.upcall env heq hothers hsocket (hlisted.alive c hc).hasShutdown
    (handler_outcome env hlinked hwire)

end ClientForwarders

end Dote
