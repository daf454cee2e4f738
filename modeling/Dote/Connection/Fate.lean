import Dote.Connection.Handlers

/-! What the owner of a connection goes by: a handler returns the connection with
its socket, or it reports the end. -/
namespace Dote

structure ForwarderConnection.Alive (c : ForwarderConnection) : Prop where
  socket : c.socket ≠ none
  state : c.state ≠ .closed
  hasShutdown : c.hasShutdown = true

namespace Active
open ForwarderConnection

/-- The two agree in what the owner of the connection goes by; the loop may have
other registrations. -/
structure Carries (a a' : Active) : Prop where
  id : a'.self.id = a.self.id
  socket : a'.self.socket = a.self.socket
  state : a'.self.state = a.self.state
  hasShutdown : a'.self.hasShutdown = a.self.hasShutdown
  evolves : a.world.loop.Evolves a'.world.loop

theorem Carries.trans {a a' a'' : Active} (h : Carries a a') (h' : Carries a' a'') :
    Carries a a'' where
  id := h'.id.trans h.id
  socket := h'.socket.trans h.socket
  state := h'.state.trans h.state
  hasShutdown := h'.hasShutdown.trans h.hasShutdown
  evolves := h.evolves.trans h'.evolves

theorem carries_reset (a : Active) (kind : Kind) : Carries a (a.reset kind) :=
  ⟨rfl, rfl, rfl, rfl, Loop.evolves_reset _ _⟩

theorem carries_register (a : Active) (kind : Kind) (callback : Callback) :
    Carries a (a.register kind callback) :=
  ⟨rfl, rfl, rfl, rfl, (Loop.evolves_register _ _ _ _ _).trans (Loop.evolves_reset _ _)⟩

theorem carries_ensure (a : Active) (kind : Kind) (callback : Callback) :
    Carries a (a.ensure kind callback) := by
  unfold ensure
  split
  · exact ⟨rfl, rfl, rfl, rfl, .refl⟩
  · exact carries_register a kind callback

theorem Same.carries {a a' : Active} (h : Same a a') : Carries a a' := by
  constructor
  · rw [h.self]
  · rw [h.self]
  · rw [h.self]
  · rw [h.self]
  · rw [h.loop]
    exact .refl

variable {a a' : Active}

/-- A handler returns the connection alive, or it reports the end. -/
structure Fate (a : Active) (result : Active × Upcall) : Prop where
  id : result.1.self.id = a.self.id
  alive : Alive a.self → result.2 = .shutdown ∨ Alive result.1.self
  evolves : a.world.loop.Evolves result.1.world.loop

theorem Works.evolves {drains : Prop} (h : Works drains a a') :
    a.world.loop.Evolves a'.world.loop := by
  induction h with
  | refl => exact .refl
  | reset _ _ ih => exact ih.trans (Loop.evolves_reset _ _)
  | register _ _ _ ih =>
    exact ih.trans ((Loop.evolves_register _ _ _ _ _).trans (Loop.evolves_reset _ _))
  | ask _ ih | cache _ _ ih | setState _ _ ih | drain _ _ ih => exact ih

theorem Works.alive {drains : Prop} (h : Works drains a a') (halive : Alive a.self) :
    Alive a'.self := by
  induction h with
  | refl => exact halive
  | setState _ hstate ih => exact ⟨ih.socket, hstate, ih.hasShutdown⟩
  | ask _ ih | cache _ _ ih | reset _ _ ih | register _ _ _ ih | drain _ _ ih =>
    exact ⟨ih.socket, ih.state, ih.hasShutdown⟩

theorem evolves_close (a : Active) : a.world.loop.Evolves a.close.1.world.loop := by
  have hcarries := ((carries_reset a .read).trans (carries_reset _ .write)).trans
    (carries_reset _ .exception)
  unfold close
  split
  next => exact .refl
  next => exact hcarries.evolves

theorem close_upcall_alive {a : Active} (halive : Alive a.self) : a.close.2 = .shutdown := by
  unfold close
  split
  next hsocket => exact absurd hsocket halive.socket
  next => exact if_pos halive.hasShutdown

theorem Ends.fate {drains reads : Prop} {result : Active × Upcall}
    (h : Ends drains reads a result) : Fate a result where
  id := h.keeps.id
  alive halive := by
    cases h with
    | stay hworks => exact .inr (hworks.alive halive)
    | read hworks _ _ => exact .inr (hworks.alive halive)
    | close hworks => exact .inl (close_upcall_alive (hworks.alive halive))
    | @report b hworks =>
      have hbad := hworks.alive halive
      exact .inl (close_upcall_alive (a := b.setBad) ⟨hbad.socket, hbad.state, hbad.hasShutdown⟩)
  evolves := by
    cases h with
    | stay hworks => exact hworks.evolves
    | read hworks _ _ => exact hworks.evolves
    | close hworks => exact hworks.evolves.trans (evolves_close _)
    | @report b hworks => exact hworks.evolves.trans (evolves_close b.setBad)

theorem handler_fate (env : Env) (a : Active) (callback : Callback) :
    Fate a (a.handler env callback) := (handler_ends env a callback).fate

theorem shutdown_fate (env : Env) (a : Active) : Fate a (a.shutdown env) :=
  (shutdown_ends env a).fate

theorem send_true {request : Bytes} (h : (a.send request).1 = true) :
    (a.send request).2.self.id = a.self.id ∧ (a.send request).2.self.socket ≠ none ∧
      (a.send request).2.self.state ≠ .closed := by
  rcases send_works a request with heq | ⟨hsocket, hstate, -, b, hworks, hsame, heq⟩
  · rw [heq] at h
    contradiction
  · rw [heq]
    refine ⟨hworks.keeps.id, ?_, ?_⟩
    · change b.self.socket ≠ none
      rw [hworks.socket]
      exact hsocket
    · change b.self.state ≠ .closed
      rw [hsame]
      exact hstate

end Active

theorem ForwarderConnection.new_id (env : Env) (id : Nat) (w : World) :
    (ForwarderConnection.new env id w).self.id = id := by
  unfold ForwarderConnection.new
  dsimp only
  split
  next =>
    split
    next => exact (Active.handshake_ends env _ id).keeps.id
    next => rfl
  next => rfl

end Dote
