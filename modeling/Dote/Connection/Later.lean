import Dote.Connection.Operations

/-! What of a world only grows: the questions that were asked, and the operations
on what the connections share. -/
namespace Dote
open Config

structure World.Later (w w' : World) : Prop where
  initial : w'.sharing.initial = w.sharing.initial
  history : w.sharing.history <+: w'.sharing.history
  tick : w.tick ≤ w'.tick

namespace World.Later

variable {w w' w'' : World}

theorem of_same (hsharing : w'.sharing = w.sharing) (htick : w.tick ≤ w'.tick) : w.Later w' where
  initial := by rw [hsharing]
  history := by rw [hsharing]
  tick := htick

theorem refl (w : World) : w.Later w := of_same rfl (Nat.le_refl _)

theorem trans (h : w.Later w') (h' : w'.Later w'') : w.Later w'' where
  initial := h'.initial.trans h.initial
  history := h.history.trans h'.history
  tick := Nat.le_trans h.tick h'.tick

theorem share (w : World) (op : Shared.Op) : w.Later (w.share op) where
  initial := rfl
  history := List.prefix_append _ _
  tick := Nat.le_refl _

theorem ask (w : World) : w.Later w.ask := of_same rfl (Nat.le_succ _)

theorem openHandle (env : Env) (w : World) : w.Later (w.openHandle env).2 := by
  unfold World.openHandle
  split
  next =>
    split
    next => exact ask w
    next => exact of_same rfl (Nat.le_succ _)
  next => exact ask w

end World.Later

theorem Sharing.timeout_eq (s : Sharing) : s.state.config.timeout = s.initial.timeout := by
  have hkeep : ∀ (shared : Shared) (op : Shared.Op),
      shared.config.timeout = s.initial.timeout →
        (shared.apply op).config.timeout = s.initial.timeout := by
    intro shared op h
    cases op with
    | create =>
      unfold Shared.apply
      dsimp only
      split <;> exact h
    | cacheSession session => exact h
    | setBad forwarder => exact h
    | setForwarders forwarders =>
      change (forwarders.foldl ForwarderConfig.addForwarder shared.config.clear).timeout = _
      rw [ForwarderConfig.foldl_addForwarder]
      exact h
  rw [s.state_eq]
  exact Library.Run.run_preserves hkeep (by rfl) s.history

theorem World.Later.timeout {w w' : World} (h : w.Later w') :
    w'.config.timeout = w.config.timeout := by
  rw [World.config, Sharing.timeout_eq, h.initial, ← Sharing.timeout_eq, World.config]

namespace Active
open World

variable {drains reads : Prop} {a b : Active}

theorem Works.later (h : Works drains a b) : a.world.Later b.world := by
  induction h with
  | refl => exact .refl _
  | ask _ ih => exact ih.trans (.ask _)
  | cache _ _ ih => exact ih.trans (.share _ _)
  | reset _ _ ih | register _ _ _ ih => exact ih.trans (.of_same rfl (Nat.le_refl _))
  | setState _ _ ih | drain _ _ ih => exact ih

theorem later_close (a : Active) : a.world.Later a.close.1.world := by
  unfold close
  split
  next => exact .refl _
  next => exact .of_same rfl (Nat.le_refl _)

theorem Ends.later {result : Active × Upcall} (h : Ends drains reads a result) :
    a.world.Later result.1.world := by
  cases h with
  | stay hworks => exact hworks.later
  | read hworks _ _ => exact hworks.later
  | close hworks => exact hworks.later.trans (later_close _)
  | @report b hworks => exact (hworks.later.trans (.share _ _)).trans (later_close b.setBad)

theorem later_send (a : Active) (request : Bytes) : a.world.Later (a.send request).2.world := by
  rcases send_works a request with heq | ⟨-, -, -, b, hworks, -, heq⟩
  · rw [heq]
    exact .refl _
  · rw [heq]
    exact hworks.later

end Active

namespace ForwarderConnection

theorem later_new (env : Env) (id : Nat) (w : World) :
    w.ask.Later (new env id w).world ∧
      (new env id w).self.timeout = env.time w.tick + w.config.timeout := by
  have hcreated : w.ask.Later (w.ask.share .create) := .share _ _
  have hopened := hcreated.trans (World.Later.openHandle env (w.ask.share .create))
  unfold new
  dsimp only
  split
  next chosen _ _ =>
    split
    next handle w' hopen =>
      rw [hopen] at hopened
      have hconnect := fun self : ForwarderConnection =>
        Active.handshake_ends env ⟨self, w'⟩ id
      exact ⟨hopened.trans (hconnect _).later, (hconnect _).keeps.timeout⟩
    next w' hopen =>
      rw [hopen] at hopened
      exact ⟨hopened.trans (.share w' _), rfl⟩
  next => exact ⟨.refl _, rfl⟩

/-- A connection that has a socket goes to the forwarder that was first, and is the next
one of the record. -/
theorem new_chosen (env : Env) (id : Nat) (w : World) (h : (new env id w).self.socket ≠ none) :
    w.config.get = some (new env id w).self.forwarder ∧
      w.sharing.history ++ [.create] <+: (new env id w).world.sharing.history := by
  revert h
  have hopened := World.Later.openHandle env (w.ask.share .create)
  unfold new
  dsimp only
  split
  next chosen _ hchosen =>
    split
    next handle w' hopen =>
      intro _
      rw [hopen] at hopened
      have hends := fun self : ForwarderConnection => Active.handshake_ends env ⟨self, w'⟩ id
      refine ⟨?_, hopened.history.trans (hends _).later.history⟩
      rw [(hends _).keeps.forwarder]
      exact hchosen
    next => exact fun h => absurd rfl h
  next => exact fun h => absurd rfl h

end ForwarderConnection

end Dote
