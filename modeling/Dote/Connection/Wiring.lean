import Dote.Connection.ForwarderConnection

/-! The registrations of a connection against the entries of the loop for its
handle. A handler keeps the two in step, or it ends the connection. -/
namespace Dote

namespace Loop

variable {C : Type}

def Touches (handle : Int) (loop loop' : Loop C) : Prop :=
  ∀ kind k, k ≠ handle → loop'.find kind k = loop.find kind k

theorem Touches.refl (handle : Int) (loop : Loop C) : Touches handle loop loop :=
  fun _ _ _ => rfl

theorem Touches.trans {handle : Int} {first second third : Loop C} (h : Touches handle first second)
    (h' : Touches handle second third) : Touches handle first third := by
  intro kind k hk
  rw [h' kind k hk, h kind k hk]

theorem touches_register (loop : Loop C) (kind : Kind) (handle : Int) (callback : C)
    (timeout : Int) : Touches handle loop (loop.register kind handle callback timeout).2 := by
  intro other k hk
  unfold register
  split
  next => rfl
  next => simp [find_insert, hk]

theorem touches_remove (loop : Loop C) (kind : Kind) (handle : Int) :
    Touches handle loop (loop.remove kind handle) := by
  intro other k hk
  simp [find_remove, hk]

def wire (loop : Loop C) (handle : Int) (kind : Kind) : Option (C × Int) :=
  (loop.find kind handle).map fun entry => (entry.callback, entry.timeout)

theorem wire_of_find {loop : Loop C} {handle : Int} {kind : Kind} {entry : Entry C}
    (h : loop.find kind handle = some entry) :
    loop.wire handle kind = some (entry.callback, entry.timeout) := by
  rw [wire, h]
  rfl

theorem wire_eq_none_iff (loop : Loop C) (handle : Int) (kind : Kind) :
    loop.wire handle kind = none ↔ handle ∉ loop.functions kind := by
  rw [mem_functions_iff, wire]
  cases loop.find kind handle <;> simp

theorem wire_remove (loop : Loop C) (handle : Int) (kind other : Kind) :
    (loop.remove kind handle).wire handle other =
      if other = kind then none else loop.wire handle other := by
  unfold wire
  rw [find_remove]
  by_cases h : other = kind <;> simp [h]

theorem wire_insert (loop : Loop C) (handle : Int) (kind other : Kind) (callback : C)
    (timeout : Int) : (loop.insert kind handle callback timeout).wire handle other =
      if other = kind then some (callback, timeout) else loop.wire handle other := by
  unfold wire
  rw [find_insert]
  by_cases h : other = kind <;> simp [h]

theorem register_of_wire_none {loop : Loop C} {handle : Int} {kind : Kind}
    (h : loop.wire handle kind = none) (callback : C) (timeout : Int) :
    loop.register kind handle callback timeout =
      (⟨handle, some kind⟩, loop.insert kind handle callback timeout) := by
  rw [register, if_neg ((wire_eq_none_iff loop handle kind).mp h)]

theorem reset_of_moved (loop : Loop C) {registration : Registration}
    (h : registration.kind = none) : loop.reset registration = (registration, loop) := by
  unfold reset
  rw [h]

end Loop

namespace Active

def wire (a : Active) (handle : Int) (kind : Kind) : Option (Callback × Int) :=
  a.world.loop.wire handle kind

/-- The members are the registrations that the loop has for the handle. -/
structure Consistent (a : Active) (handle : Int) : Prop where
  socket : a.self.socket = some handle
  wired : ∀ kind, a.wire handle kind ≠ none → a.self.registration kind = ⟨handle, some kind⟩
  unwired : ∀ kind, a.wire handle kind = none → (a.self.registration kind).kind = none

theorem Consistent.handle_eq {a : Active} {handle : Int} (h : a.Consistent handle) :
    a.handle = handle := by
  rw [Active.handle, h.socket]
  rfl

theorem Consistent.valid_iff {a : Active} {handle : Int} (h : a.Consistent handle) (kind : Kind) :
    (a.self.registration kind).valid = true ↔ a.wire handle kind ≠ none := by
  unfold Registration.valid
  constructor
  · intro hvalid hnone
    rw [h.unwired kind hnone] at hvalid
    contradiction
  · intro hsome
    rw [h.wired kind hsome]
    rfl

/-- What no operation on a connection changes, besides its registrations, its
state, its buffer and its socket. -/
structure Kept (handle : Int) (a a' : Active) : Prop where
  id : a'.self.id = a.self.id
  timeout : a'.self.timeout = a.self.timeout
  incoming : a'.self.incoming = a.self.incoming
  hasShutdown : a'.self.hasShutdown = a.self.hasShutdown
  forwarder : a'.self.forwarder = a.self.forwarder
  touches : Loop.Touches handle a.world.loop a'.world.loop

theorem Kept.refl (handle : Int) (a : Active) : Kept handle a a :=
  ⟨rfl, rfl, rfl, rfl, rfl, .refl handle _⟩

theorem Kept.trans {handle : Int} {a a' a'' : Active} (h : Kept handle a a')
    (h' : Kept handle a' a'') : Kept handle a a'' where
  id := h'.id.trans h.id
  timeout := h'.timeout.trans h.timeout
  incoming := h'.incoming.trans h.incoming
  hasShutdown := h'.hasShutdown.trans h.hasShutdown
  forwarder := h'.forwarder.trans h.forwarder
  touches := h.touches.trans h'.touches

section Operations

variable {a : Active} {handle : Int}

@[simp] theorem state_setState (a : Active) (state : State) :
    (a.setState state).self.state = state := rfl

@[simp] theorem socket_register (a : Active) (kind : Kind) (callback : Callback) :
    (a.register kind callback).self.socket = a.self.socket := rfl

theorem Consistent.of_same (h : a.Consistent handle) {a' : Active}
    (hsocket : a'.self.socket = a.self.socket)
    (hregistration : a'.self.registration = a.self.registration)
    (hloop : a'.world.loop = a.world.loop) : a'.Consistent handle := by
  have hwire : ∀ kind, a'.wire handle kind = a.wire handle kind := by
    intro kind
    rw [wire, hloop, wire]
  constructor
  · rw [hsocket, h.socket]
  · intro kind hsome
    rw [hregistration]
    exact h.wired kind (hwire kind ▸ hsome)
  · intro kind hnone
    rw [hregistration]
    exact h.unwired kind (hwire kind ▸ hnone)

theorem Consistent.reset_wire (h : a.Consistent handle) (kind other : Kind) :
    (a.reset kind).wire handle other = if other = kind then none else a.wire handle other := by
  change (a.world.loop.reset (a.self.registration kind)).2.wire handle other = _
  by_cases hkind : a.wire handle kind = none
  · rw [Loop.reset_of_moved _ (h.unwired kind hkind)]
    split
    next hother =>
      rw [hother]
      exact hkind
    next => rfl
  · rw [h.wired kind hkind]
    exact Loop.wire_remove _ _ _ _

theorem Consistent.reset (h : a.Consistent handle) (kind : Kind) :
    (a.reset kind).Consistent handle := by
  have hregistration : ∀ other, (a.reset kind).self.registration other =
      if other = kind then (a.world.loop.reset (a.self.registration kind)).1
      else a.self.registration other := fun _ => rfl
  constructor
  · exact h.socket
  · intro other hsome
    rw [h.reset_wire] at hsome
    rw [hregistration]
    split at hsome
    next => contradiction
    next hother =>
      rw [if_neg hother]
      exact h.wired other hsome
  · intro other hnone
    rw [hregistration]
    split
    next =>
      unfold Loop.reset
      split
      next hmoved => exact hmoved
      next => rfl
    next hother =>
      rw [h.reset_wire, if_neg hother] at hnone
      exact h.unwired other hnone

theorem Consistent.register_wire (h : a.Consistent handle) {kind : Kind}
    (hnone : a.wire handle kind = none) (callback : Callback) (other : Kind) :
    (a.register kind callback).wire handle other =
      if other = kind then some (callback, if kind = .exception then 0 else a.self.timeout)
      else a.wire handle other := by
  have hassign : (a.register kind callback).world.loop =
      (a.world.loop.register kind a.handle callback
        (if kind = .exception then 0 else a.self.timeout)).2 := by
    change (Loop.reset (a.world.loop.register kind a.handle callback _).2
      (a.self.registration kind)).2 = _
    rw [Loop.reset_of_moved _ (h.unwired kind hnone)]
  unfold wire at hnone ⊢
  rw [hassign, h.handle_eq, Loop.register_of_wire_none hnone]
  exact Loop.wire_insert _ _ _ _ _ _

theorem Consistent.register (h : a.Consistent handle) {kind : Kind}
    (hnone : a.wire handle kind = none) (callback : Callback) :
    (a.register kind callback).Consistent handle := by
  have hregistration : ∀ other, (a.register kind callback).self.registration other =
      if other = kind then ⟨handle, some kind⟩ else a.self.registration other := by
    intro other
    change (if other = kind then (a.world.loop.register kind a.handle callback _).1 else _) = _
    rw [h.handle_eq, Loop.register_of_wire_none hnone]
  constructor
  · exact h.socket
  · intro other hsome
    rw [hregistration]
    split
    next hother => rw [hother]
    next hother =>
      rw [h.register_wire hnone, if_neg hother] at hsome
      exact h.wired other hsome
  · intro other hnone'
    rw [h.register_wire hnone] at hnone'
    rw [hregistration]
    split at hnone'
    next => contradiction
    next hother =>
      rw [if_neg hother]
      exact h.unwired other hnone'

theorem Consistent.kept_reset (h : a.Consistent handle) (kind : Kind) :
    Kept handle a (a.reset kind) := by
  refine ⟨rfl, rfl, rfl, rfl, rfl, ?_⟩
  change Loop.Touches handle _ (a.world.loop.reset (a.self.registration kind)).2
  by_cases hkind : a.wire handle kind = none
  · rw [Loop.reset_of_moved _ (h.unwired kind hkind)]
    exact .refl _ _
  · rw [h.wired kind hkind]
    exact Loop.touches_remove _ _ _

theorem Consistent.kept_register (h : a.Consistent handle) {kind : Kind}
    (hnone : a.wire handle kind = none) (callback : Callback) :
    Kept handle a (a.register kind callback) := by
  refine ⟨rfl, rfl, rfl, rfl, rfl, ?_⟩
  change Loop.Touches handle _ (Loop.reset _ (a.self.registration kind)).2
  rw [Loop.reset_of_moved _ (h.unwired kind hnone), ← h.handle_eq]
  exact Loop.touches_register _ _ _ _ _

end Operations

end Active

end Dote
