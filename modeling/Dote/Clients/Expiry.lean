import Dote.Clients.Evolution
import Dote.Clients.Growth
import Dote.Clients.Wired
import Dote.Loop.Sweeping

/-! What becomes of the loop when a connection has expired: its own registrations go,
and the connection of the next request comes with later deadlines. -/
namespace Dote

namespace Active

/-- A connection that has come up while what has expired is handled. -/
structure Renewing (now : Int) (before : Loop Callback) (a : Active) : Prop where
  handling : Loop.Handling now before a.world.loop
  own : ∀ handle ∈ a.self.socket, ∀ kind entry, a.world.loop.find kind handle = some entry →
    before.nextSerial ≤ entry.serial
  later : now < a.self.timeout

variable {now : Int} {before : Loop Callback} {a : Active}

theorem Renewing.of_same (h : a.Renewing now before) {a' : Active}
    (hsocket : a'.self.socket = a.self.socket) (htimeout : a'.self.timeout = a.self.timeout)
    (hloop : a'.world.loop = a.world.loop) : a'.Renewing now before := by
  constructor
  · rw [hloop]
    exact h.handling
  · rw [hsocket, hloop]
    exact h.own
  · rw [htimeout]
    exact h.later

theorem Renewing.setBuffer (h : a.Renewing now before) (buffer : Bytes) :
    (a.setBuffer buffer).Renewing now before :=
  h.of_same rfl rfl rfl

theorem find_of_reset {loop : Loop Callback} {registration : Registration} {kind : Kind}
    {handle : Int} {entry : Entry Callback}
    (h : (loop.reset registration).2.find kind handle = some entry) :
    loop.find kind handle = some entry := by
  unfold Loop.reset at h
  split at h
  next => exact h
  next =>
    rw [Loop.find_remove] at h
    split at h
    next => contradiction
    next => exact h

theorem Renewing.reset (h : a.Renewing now before) (kind : Kind) :
    (a.reset kind).Renewing now before where
  handling := h.handling.reset _
  own handle hsocket other entry hfind := h.own handle hsocket other entry (find_of_reset hfind)
  later := h.later

theorem Renewing.register (h : a.Renewing now before) (hsocket : a.self.socket ≠ none)
    (kind : Kind) (callback : Callback) : (a.register kind callback).Renewing now before := by
  obtain ⟨handle, hsome⟩ := Option.ne_none_iff_exists'.mp hsocket
  have hhandle : a.handle = handle := by rw [Active.handle, hsome, Option.getD_some]
  have hown := h.own handle hsome
  have hlater : (if kind = .exception then 0 else a.self.timeout) = 0 ∨
      now < if kind = .exception then 0 else a.self.timeout := by
    split
    next => exact .inl rfl
    next => exact .inr h.later
  have hregister : ∀ timeout : Int, timeout = 0 ∨ now < timeout →
      Loop.Handling now before (a.world.loop.register kind handle callback timeout).2 ∧
      ∀ other entry, (a.world.loop.register kind handle callback timeout).2.find other handle =
        some entry → before.nextSerial ≤ entry.serial := by
    intro timeout hlater
    unfold Loop.register
    split
    next => exact ⟨h.handling, hown⟩
    next =>
      refine ⟨h.handling.insert kind handle callback timeout hown hlater, ?_⟩
      intro other entry hfind
      rw [Loop.find_insert] at hfind
      split at hfind
      next =>
        cases hfind
        exact h.handling.serial_le
      next => exact hown other entry hfind
  obtain ⟨hhandling, hnew⟩ := hregister _ hlater
  rw [← hhandle] at hhandling hnew
  constructor
  · exact hhandling.reset _
  · intro other hother kind' entry hfind
    change a.self.socket = some other at hother
    rw [hsome] at hother
    cases hother
    rw [← hhandle] at hfind
    exact hnew kind' entry (find_of_reset hfind)
  · exact h.later

theorem Renewing.close (h : a.Renewing now before) : a.close.1.Renewing now before where
  handling := by
    have hreset := ((h.reset .read).reset .write).reset .exception
    unfold Active.close
    split
    next => exact h.handling
    next => exact hreset.handling
  own := by simp [close_socket]
  later := by
    rw [(Keeps.refl a).close.timeout]
    exact h.later

theorem Works.renewing {drains : Prop} {b : Active} (h : Works drains a b)
    (hrenewing : a.Renewing now before) (hsocket : a.self.socket ≠ none) :
    b.Renewing now before := by
  induction h with
  | refl => exact hrenewing
  | ask _ ih => exact ih.of_same rfl rfl rfl
  | cache _ _ ih => exact ih.of_same rfl rfl rfl
  | reset _ kind ih => exact ih.reset kind
  | register hworks kind callback ih => exact ih.register (by rwa [hworks.socket]) kind callback
  | setState _ _ ih => exact ih.of_same rfl rfl rfl
  | drain _ _ ih => exact ih.setBuffer []

theorem Ends.renewing {drains reads : Prop} {result : Active × Upcall}
    (h : Ends drains reads a result) (hrenewing : a.Renewing now before)
    (hsocket : a.self.socket ≠ none) : result.1.Renewing now before := by
  cases h with
  | stay hworks => exact hworks.renewing hrenewing hsocket
  | read hworks _ _ => exact hworks.renewing hrenewing hsocket
  | close hworks => exact (hworks.renewing hrenewing hsocket).close
  | @report b hworks =>
    have hbad : b.setBad.Renewing now before :=
      (hworks.renewing hrenewing hsocket).of_same rfl rfl rfl
    exact hbad.close

theorem Renewing.send (h : a.Renewing now before) (request : Bytes) :
    (a.send request).2.Renewing now before := by
  rcases send_works a request with heq | ⟨hsocket, -, -, b, hworks, -, heq⟩
  · rw [heq]
    exact h
  · rw [heq]
    exact (hworks.renewing h hsocket).setBuffer request

end Active

theorem ForwarderConnection.new_renewing {now : Int} {before : Loop Callback} {w : World}
    (hhandling : Loop.Handling now before w.loop) {env : Env} (id : Nat)
    (hopen : ∀ handle ∉ w.handles, ∀ kind, w.loop.wire handle kind = none)
    (hclock : ∀ tick ≥ w.tick, now ≤ env.time tick) (hconfig : 0 < w.config.timeout) :
    (ForwarderConnection.new env id w).Renewing now before := by
  have hlater : now < env.time w.tick + w.config.timeout := by
    have hle := hclock w.tick (Nat.le_refl _)
    omega
  unfold ForwarderConnection.new
  dsimp only
  split
  next chosen _ _ =>
    split
    next handle w' hconnect =>
      obtain ⟨hfresh, hloop, -⟩ := World.openHandle_some hconnect
      have hrenewing : ∀ self : ForwarderConnection, self.socket = some handle →
          now < self.timeout → Active.Renewing now before
            (((Active.mk self w').registerException (.exception id)).connect env).1 := by
        intro self hsocket htimeout
        have hne : self.socket ≠ none := by simp [hsocket]
        suffices hrenewing : Active.Renewing now before ⟨self, w'⟩ from
          (Active.handshake_ends env _ id).renewing hrenewing hne
        constructor
        · rw [hloop]
          exact hhandling
        · intro handle' hhandle' kind entry hfind
          change self.socket = some handle' at hhandle'
          rw [hsocket] at hhandle'
          cases hhandle'
          have hnone := hopen handle hfresh kind
          rw [show w'.loop = w.loop from hloop] at hfind
          rw [Loop.wire_of_find hfind] at hnone
          contradiction
        · exact htimeout
      exact hrenewing _ rfl hlater
    next w' hconnect =>
      have hloop : w'.loop = w.loop := (World.openHandle_none hconnect).1
      constructor
      · change Loop.Handling now before w'.loop
        rw [hloop]
        exact hhandling
      · intro handle hsocket
        contradiction
      · exact hlater
  next =>
    constructor
    · exact hhandling
    · intro handle hsocket
      contradiction
    · exact hlater

namespace ClientForwarders
open Active

/-- The owner while it handles what has expired: the clock is not behind, and new
connections are given time. -/
structure Expiring (others : List Other) (env : Env) (now : Int) (before : Loop Callback)
    (s : ClientForwarders) : Prop where
  wired : s.IsWired others
  handling : Loop.Handling now before s.world.loop
  clock : ∀ tick ≥ s.world.tick, now ≤ env.time tick
  config : 0 < s.world.config.timeout

variable {others : List Other} {env : Env} {now : Int} {before : Loop Callback}
  {s : ClientForwarders}

theorem Expiring.trySend (h : s.Expiring others env now before) (query : QueuedQuery) :
    (s.trySend env query).2.Expiring others env now before := by
  have hlater := (grows_trySend env s query).later
  constructor
  · exact h.wired.trySend env query
  · have hnew := ForwarderConnection.new_renewing h.handling s.nextId
      (fun _ hopen => Wired.wire_of_not_open h.wired hopen) h.clock h.config
    have hsent := (hnew.send query.request).handling
    unfold ClientForwarders.trySend
    dsimp only
    split
    next => exact hsent
    next => exact hsent
  · exact fun tick htick => h.clock tick (Nat.le_trans hlater.tick htick)
  · rw [hlater.timeout]
    exact h.config

theorem Expiring.dequeue (h : s.Expiring others env now before) :
    (s.dequeue env).Expiring others env now before := by
  have hqueue : ∀ (s' : ClientForwarders) (queue : List QueuedQuery),
      s'.Expiring others env now before →
        Expiring others env now before { s' with queue := queue } :=
    fun _ _ h => ⟨h.wired, h.handling, h.clock, h.config⟩
  unfold ClientForwarders.dequeue
  split
  next => exact h
  next front queue _ =>
    exact sendQueued_preserves hqueue (fun _ query h => h.trySend query) queue _ front
      (hqueue s queue h)

theorem close_handling (a : Active) (now : Int) :
    Loop.Handling now a.world.loop a.close.1.world.loop := by
  unfold close
  split
  next => exact .refl
  next => exact ((Loop.Handling.refl.reset _).reset _).reset _

theorem exception_handling (a : Active) (now : Int) :
    Loop.Handling now a.world.loop a.exception.1.world.loop := by
  unfold exception
  split
  next => exact close_handling a.setBad now
  next => exact close_handling a now

theorem exception_socket (a : Active) : a.exception.1.self.socket = none := close_socket _

/-- An exception ends its connection: nothing is left of its registrations, and what
the next connection registers is not due. -/
theorem call_exception (hwired : s.IsWired others) (hlisted : s.Listed)
    (hclock : ∀ tick ≥ s.world.tick, now ≤ env.time tick) (hconfig : 0 < s.world.config.timeout)
    {c : ForwarderConnection} (hc : c ∈ s.forwarders) {handle : Int}
    (hsocket : c.socket = some handle) :
    Loop.Deregisters now handle s.world.loop (s.call env c.id (.exception c.id)).world.loop := by
  obtain ⟨hopen, hother, hlinked⟩ := Wired.linked_of_socket hwired hc hsocket
  have hfind := find_of_mem hlisted hc
  obtain ⟨front, rest, heq, -, hothers⟩ := find_split hlisted.ids hfind
  have houtcome := exception_outcome env hlinked
  obtain ⟨hended, hhandles, hupcall⟩ := houtcome.cases.resolve_left fun hcontra => by
    have hnone := exception_socket ⟨c, s.world⟩
    rw [hcontra.1.consistent.socket] at hnone
    contradiction
  rw [if_pos (hlisted.alive c hc).hasShutdown] at hupcall
  have hhandling := exception_handling ⟨c, s.world⟩ now
  have hlater := (exception_ends env ⟨c, s.world⟩).later
  generalize hresult : (Active.mk c s.world).exception = result at *
  have hcall : s.call env c.id (.exception c.id) =
      (s.put result.1).handleShutdown env c.id := by
    have hhandler : (Active.mk c s.world).handler env (.exception c.id) = result := hresult
    unfold ClientForwarders.call
    rw [hfind]
    dsimp only
    rw [hhandler, hupcall, ClientForwarders.upcall,
      show result.1.self.id = c.id from houtcome.kept.id]
  let ended : ClientForwarders :=
    { s.put result.1 with forwarders := (s.put result.1).forwarders.eraseP (·.id = c.id) }
  have hexpiring : ended.Expiring others env now s.world.loop := by
    constructor
    · have hremoved : Wired others s.world (front ++ c :: rest) := heq ▸ hwired
      unfold IsWired
      change Wired others result.1.world ((s.put result.1).forwarders.eraseP (·.id = c.id))
      rw [eraseP_put heq houtcome.kept.id hothers]
      exact hremoved.remove hother hsocket houtcome.kept hended hhandles
    · exact hhandling
    · exact fun tick htick => hclock tick (Nat.le_trans hlater.tick htick)
    · change 0 < result.1.world.config.timeout
      rw [hlater.timeout]
      exact hconfig
  rw [hcall]
  constructor
  · exact hexpiring.dequeue.handling
  · intro kind entry hentry
    have hevolves := handleShutdown_evolves env (s.put result.1) c.id
    have hle : s.world.loop.nextSerial ≤ (s.put result.1).world.loop.nextSerial :=
      hhandling.serial_le
    by_contra hserial
    have hold := hevolves.find_of_serial_lt hentry (by omega)
    have hnone : (s.put result.1).world.loop.wire handle kind = none := hended.unwired kind
    rw [Loop.wire_of_find hold] at hnone
    contradiction

end ClientForwarders

end Dote
