import Dote.Connection.LifeCycle

/-! A connection that has its socket can always be woken or timed out: the loop has
what the state waits for, with the deadline of the connection. -/
namespace Dote.Active
open Library.Run

structure Released (a : Active) : Prop where
  state : a.self.state = .closed
  socket : a.self.socket = none
  invalid : ∀ kind, (a.self.registration kind).valid = false

/-- The registrations of a connection that has its socket. An exception has no
deadline. -/
structure Wakeable (a : Active) (handle : Int) : Prop where
  socket : a.self.socket = some handle
  unclosed : handle ∈ a.world.handles
  exception : (a.self.registration .exception).valid = true
  alternates : a.self.state = .connecting ∨ a.self.state = .shuttingDown →
    Xor ((a.self.registration .read).valid = true) ((a.self.registration .write).valid = true)
  reads : a.self.state = .opened → (a.self.registration .read).valid = true
  writes : a.self.state = .opened → a.self.buffer ≠ [] →
    (a.self.registration .write).valid = true
  state : a.self.state ≠ .closed
  registered : ∀ kind, (a.self.registration kind).valid = true →
    a.self.registration kind = ⟨handle, some kind⟩ ∧
      ∃ entry, a.world.loop.find kind handle = some entry ∧
        entry.callback.owner = some a.self.id ∧
        (kind ≠ .exception → entry.timeout = a.self.timeout)

variable {a : Active} {handle : Int}

theorem Alternates.xor (h : a.Consistent handle) {callback : Callback}
    (halternates : a.Alternates handle callback) :
    Xor ((a.self.registration .read).valid = true) ((a.self.registration .write).valid = true) := by
  rw [h.valid_iff, h.valid_iff]
  unfold Xor
  cases halternates with
  | inl h => simp [h.1, h.2]
  | inr h => simp [h.1, h.2]

theorem Linked.wakeable (h : a.Linked handle) (hopen : handle ∈ a.world.handles) :
    a.Wakeable handle := by
  have hawaits := h.awaits
  have hvalid := h.consistent.valid_iff
  refine ⟨h.consistent.socket, hopen, ?_, ?_, ?_, ?_, ?_, ?_⟩
  · rw [hvalid, h.exception]
    simp
  · rintro (hstate | hstate)
    · rw [hstate] at hawaits
      exact Alternates.xor h.consistent hawaits
    · rw [hstate] at hawaits
      exact Alternates.xor h.consistent hawaits
  · intro hstate
    rw [hstate] at hawaits
    rw [hvalid, hawaits.1]
    simp
  · intro hstate hbuffer
    rw [hstate] at hawaits
    rw [hvalid]
    exact fun hnone => hbuffer (hawaits.2.2 hnone)
  · intro hstate
    rw [hstate] at hawaits
    exact hawaits
  · intro kind hregistered
    rw [hvalid] at hregistered
    refine ⟨h.consistent.wired kind hregistered, ?_⟩
    cases hfind : a.world.loop.find kind handle with
    | none => simp [wire, Loop.wire, hfind] at hregistered
    | some entry =>
      have hwire : a.wire handle kind = some (entry.callback, entry.timeout) :=
        Loop.wire_of_find hfind
      exact ⟨entry, rfl, h.owner_eq hwire, (h.wire_eq hwire).2⟩

theorem Wakeable.not_released (h : a.Wakeable handle) : ¬ a.Released := by
  intro hreleased
  have hsocket := h.socket
  rw [hreleased.socket] at hsocket
  contradiction

/-- What holds of a connection at every point between two callbacks. -/
def Held (a : Active) : Prop :=
  a.Released ∨ ∃ handle, a.Linked handle ∧ handle ∈ a.world.handles

theorem Held.xor (h : a.Held) : Xor a.Released (∃ handle, a.Wakeable handle) := by
  cases h with
  | inl hreleased => exact .inl ⟨hreleased, fun ⟨_, hwakeable⟩ => hwakeable.not_released hreleased⟩
  | inr hlinked =>
    obtain ⟨handle, hlinked, hopen⟩ := hlinked
    have hwakeable := hlinked.wakeable hopen
    exact .inr ⟨⟨handle, hwakeable⟩, hwakeable.not_released⟩

theorem Ended.released (h : a.Ended handle) : a.Released where
  state := h.state
  socket := h.socket
  invalid kind := by
    rw [Registration.valid, h.moved kind]
    rfl

theorem Outcome.held {result : Active × Upcall} (h : Outcome handle a result)
    (hopen : handle ∈ a.world.handles) : result.1.Held := by
  cases h.cases with
  | inl hlinked => exact .inr ⟨handle, hlinked.1, by rw [hlinked.2.1]; exact hopen⟩
  | inr hended => exact .inl hended.1.released

theorem send_held (h : a.Linked handle) (hopen : handle ∈ a.world.handles) (request : Bytes) :
    (a.send request).2.Held := by
  have hrefused : (a.send request).2 = a → (a.send request).2.Held := by
    intro heq
    rw [heq]
    exact .inr ⟨handle, h, hopen⟩
  by_cases hstate : a.self.state = .shuttingDown
  · apply hrefused
    unfold send
    rw [if_pos (.inr (by simp [hstate]))]
  · by_cases hbuffer : a.self.buffer = []
    · obtain ⟨-, hlinked, -, hhandles⟩ := send_linked h hstate hbuffer request
      exact .inr ⟨handle, hlinked, by rw [hhandles]; exact hopen⟩
    · apply hrefused
      unfold send
      rw [if_neg hbuffer]
      split <;> rfl

/-- The other users of the loop leave the handle of the connection alone. -/
def Undisturbed (a : Active) (op : Op) : Prop :=
  a.Apart op ∧
    match op with
    | .elsewhere world => ∀ handle ∈ a.self.socket, handle ∈ world.handles ∧
        ∀ kind, world.loop.wire handle kind = a.wire handle kind
    | _ => True

theorem Released.next (h : a.Released) (htracks : a.Tracks (due a.self.id a.self.state))
    (op : Op) : (a.next op).Released := by
  unfold Active.next
  cases op with
  | callback env kind handle =>
    cases a.act_callback env kind handle with
    | inl heq =>
      rw [heq]
      exact h
    | inr hcalled =>
      obtain ⟨callback, timeout, hwire, howner, -⟩ := hcalled
      have hinvalid := h.invalid kind
      rw [(htracks handle kind callback timeout hwire howner).1] at hinvalid
      contradiction
  | send buffer =>
    change (a.send buffer).2.Released
    unfold send
    rw [if_pos (.inl h.socket)]
    exact h
  | shutdown env =>
    change (a.shutdown env).1.Released
    unfold shutdown
    rw [if_neg (by simp [h.state])]
    exact h
  | setIncomingCallback incoming => exact ⟨h.state, h.socket, h.invalid⟩
  | setShutdownCallback hasShutdown => exact ⟨h.state, h.socket, h.invalid⟩
  | destroy =>
    change a.close.1.Released
    unfold close
    rw [h.socket]
    exact h
  | elsewhere world => exact ⟨h.state, h.socket, h.invalid⟩

theorem Linked.next_held (h : a.Linked handle) (hopen : handle ∈ a.world.handles)
    (htracks : a.Tracks (due a.self.id a.self.state)) {op : Op} (hop : a.Undisturbed op) :
    (a.next op).Held := by
  unfold Active.next
  cases op with
  | callback env kind handle' =>
    cases a.act_callback env kind handle' with
    | inl heq =>
      rw [heq]
      exact .inr ⟨handle, h, hopen⟩
    | inr hcalled =>
      obtain ⟨callback, timeout, hwire, howner, heq⟩ := hcalled
      have hregistration := (htracks handle' kind callback timeout hwire howner).1
      have hvalid : (a.self.registration kind).valid = true := by
        rw [hregistration]
        rfl
      -- of the handles the connection has registrations for its own only
      have hwired := h.consistent.wired kind ((h.consistent.valid_iff kind).mp hvalid)
      rw [hregistration] at hwired
      cases hwired
      rw [heq]
      exact (handler_outcome env h hwire).held hopen
  | send buffer => exact send_held h hopen buffer
  | shutdown env => exact (shutdown_outcome env h).held hopen
  | setIncomingCallback incoming =>
    exact .inr ⟨handle, h.setCallbacks incoming a.self.hasShutdown, hopen⟩
  | setShutdownCallback hasShutdown =>
    exact .inr ⟨handle, h.setCallbacks a.self.incoming hasShutdown, hopen⟩
  | destroy => exact (close_outcome h.consistent).held hopen
  | elsewhere world =>
    obtain ⟨hopen', hwire⟩ := hop.2 handle h.consistent.socket
    exact .inr ⟨handle, h.of_wire rfl hwire, hopen'⟩

theorem next_held (h : a.Held) (htracks : a.Tracks (due a.self.id a.self.state)) {op : Op}
    (hop : a.Undisturbed op) : (a.next op).Held := by
  rcases h with hreleased | ⟨handle, hlinked, hopen⟩
  · exact .inl (hreleased.next htracks op)
  · exact hlinked.next_held hopen htracks hop

theorem close_released (h : a.self.socket ≠ none) : a.close.1.Released := by
  unfold close
  split
  next hnone => exact absurd hnone h
  next k _ =>
    have hmoved : ∀ kind,
        ((((a.reset .read).reset .write).reset .exception).self.registration kind).kind = none := by
      intro kind
      cases kind with
      | read => rw [reset_registration _ (by simp), reset_registration _ (by simp), reset_moved]
      | write => rw [reset_registration _ (by simp), reset_moved]
      | exception => exact reset_moved _ _
    refine ⟨rfl, rfl, fun kind => ?_⟩
    change
      (((((a.reset .read).reset .write).reset .exception).self.registration kind).kind).isSome =
        false
    rw [hmoved kind]
    rfl

theorem Ends.released {drains reads : Prop} {result : Active × Upcall}
    (h : Ends drains reads a result) (hopen : a.self.socket ≠ none)
    (hnone : result.1.self.socket = none) : result.1.Released := by
  cases h with
  | stay hworks => exact absurd (hworks.socket.symm.trans hnone) hopen
  | read hworks _ _ => exact absurd (hworks.socket.symm.trans hnone) hopen
  | close hworks => exact close_released (by rwa [hworks.socket])
  | @report b hworks => exact close_released (a := b.setBad) (by rwa [← hworks.socket] at hopen)

end Dote.Active

namespace Dote.ForwarderConnection
open Active

theorem new_held (env : Env) (id : Nat) (w : World)
    (hfresh : ∀ handle ∈ env.socket (w.tick + 1), ∀ kind, w.loop.wire handle kind = none) :
    (new env id w).Held := by
  have hnew := new_fresh env id w fun handle hsocket _ kind => hfresh handle hsocket kind
  cases hnew.cases with
  | inl hconnected =>
    obtain ⟨handle, -, hlinked, -, -, hhandles, -⟩ := hconnected
    exact .inr ⟨handle, hlinked, by simp [hhandles]⟩
  | inr hfailed =>
    have hnone := hfailed.1
    left
    unfold new at hnone ⊢
    dsimp only at hnone ⊢
    split at hnone
    next =>
      split at hnone
      next => exact (handshake_ends env _ id).released (by exact Option.some_ne_none _) hnone
      next => exact ⟨rfl, rfl, fun _ => rfl⟩
    next => exact ⟨rfl, rfl, fun _ => rfl⟩

end Dote.ForwarderConnection

namespace Dote.Active
open Library.Run

/-- At every point between two callbacks a connection is released, or the loop
will wake it, or time it out. -/
theorem always_wakeable (env : Env) {id : Nat} {w : World} (hunbound : w.Unbound id)
    (hfresh : ∀ handle ∈ env.socket (w.tick + 1), ∀ kind, handle ∉ w.loop.functions kind)
    {ops : List Op} (hothers : Throughout next Undisturbed (ForwarderConnection.new env id w) ops) :
    let a := run next (ForwarderConnection.new env id w) ops
    Xor a.Released (∃ handle, a.Wakeable handle) := by
  intro a
  have hnew : (ForwarderConnection.new env id w).Held := by
    apply ForwarderConnection.new_held
    intro handle hsocket kind
    rw [Loop.wire_eq_none_iff]
    exact hfresh handle hsocket kind
  have htracks := ForwarderConnection.new_tracks env hunbound
  have hkeep : ∀ (a : Active) (op : Op),
      a.Held ∧ a.Tracks (due a.self.id a.self.state) → a.Undisturbed op →
      (a.next op).Held ∧ (a.next op).Tracks (due (a.next op).self.id (a.next op).self.state) := by
    intro a op h hop
    exact ⟨next_held h.1 h.2 hop, next_tracks h.2 hop.1⟩
  have hrun := run_invariant hkeep ⟨hnew, htracks⟩ hothers
  exact hrun.1.xor

open Sample in
theorem always_wakeable_waiting :
    let a := run next (ForwarderConnection.new env 0 quiet)
      [.send [7], .callback env .read 4, .shutdown env, .callback env .read 4]
    Xor a.Released (∃ handle, a.Wakeable handle) := by
  apply always_wakeable env (quiet_unbound 0)
  · intro handle _ kind
    simp [quiet, Loop.new]
  · simp only [Throughout, Undisturbed, Apart, and_self]

end Dote.Active
