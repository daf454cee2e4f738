import Dote.Clients.Sessions

/-! The destruction of `ClientForwarders`. A connection that is destroyed with its
socket reports its end, as any other does, and the object that it reports to is the
one that is being destroyed. -/
namespace Dote

namespace ClientForwarders
open Library.Run

/-- How far a destruction gets. `closed` are the connections whose destructor has run
`close`, in that order, and `entered` is the one that `handleShutdown` is entered with.
Nothing is defined from there on: it looks at `m_forwarders`, which is being
destroyed, and then `dequeue` at `m_queue`, which has been. -/
structure Destruction where
  owner : ClientForwarders
  closed : List Nat
  entered : Option Nat

/-- The destructor of `m_forwarders`, with the order in which it destroys the
elements. The language leaves that open. -/
def destroyForwarders : List ForwarderConnection → ClientForwarders → Destruction
  | [], s => ⟨s, [], none⟩
  | c :: order, s =>
    let (a, upcall) := (Active.mk c s.world).close
    let s := { s with world := a.world, forwarders := s.forwarders.eraseP (·.id = c.id) }
    if upcall = .shutdown then ⟨s, [c.id], some c.id⟩
    else
      let rest := destroyForwarders order s
      { rest with closed := c.id :: rest.closed }

/-- `~ClientForwarders`. `m_queue` is declared last, so it is destroyed first; the
requests in it are dropped. -/
def destroy (s : ClientForwarders) (order : List ForwarderConnection) : Destruction :=
  destroyForwarders order { s with queue := [] }

structure Quiet (s : ClientForwarders) (d : Destruction) : Prop where
  closed : ∀ c ∈ s.forwarders, d.closed.count c.id = 1
  started : d.owner.started = s.started
  entered : d.entered = none

theorem close_shutdown_iff (c : ForwarderConnection) (w : World) :
    (Active.mk c w).close.2 = .shutdown ↔ c.socket ≠ none ∧ c.hasShutdown = true := by
  unfold Active.close
  split
  next hsocket => simp_all
  next handle hsocket =>
    have hreset := (Active.carries_reset ⟨c, w⟩ .read).trans (Active.carries_reset _ .write)
    have hkept := (hreset.trans (Active.carries_reset _ .exception)).hasShutdown
    dsimp only at hsocket hkept ⊢
    rw [hkept, hsocket]
    cases c.hasShutdown <;> simp

theorem destroyForwarders_entered_iff (order : List ForwarderConnection) :
    ∀ s : ClientForwarders, (destroyForwarders order s).entered = none ↔
      ∀ c ∈ order, c.socket = none ∨ c.hasShutdown = false := by
  induction order with
  | nil => simp [destroyForwarders]
  | cons c order ih =>
    intro s
    have hclose := close_shutdown_iff c s.world
    have hneither : (c.socket = none ∨ c.hasShutdown = false) ↔
        ¬ (c.socket ≠ none ∧ c.hasShutdown = true) := by
      rw [not_and_or, not_not, Bool.not_eq_true]
    rw [List.forall_mem_cons, hneither, ← hclose]
    unfold destroyForwarders
    dsimp only
    split
    next hshutdown => simp [hshutdown]
    next hshutdown =>
      rw [ih]
      simp [hshutdown]

theorem destroyForwarders_closed (order : List ForwarderConnection) :
    ∀ s : ClientForwarders, (destroyForwarders order s).entered = none →
      (destroyForwarders order s).closed = order.map (·.id) := by
  induction order with
  | nil => exact fun _ _ => rfl
  | cons c order ih =>
    intro s hentered
    unfold destroyForwarders at hentered ⊢
    dsimp only at hentered ⊢
    split at hentered
    next => contradiction
    next hshutdown => rw [if_neg hshutdown, List.map_cons, ih _ hentered]

theorem destroyForwarders_started (order : List ForwarderConnection) :
    ∀ s : ClientForwarders, (destroyForwarders order s).owner.started = s.started := by
  induction order with
  | nil => exact fun _ => rfl
  | cons c order ih =>
    intro s
    unfold destroyForwarders
    dsimp only
    split
    next => rfl
    next => exact ih _

variable {s : ClientForwarders} {order : List ForwarderConnection}

theorem quiet_iff (hids : (s.forwarders.map (·.id)).Nodup) (horder : order.Perm s.forwarders) :
    Quiet s (s.destroy order) ↔ ∀ c ∈ s.forwarders, c.socket = none ∨ c.hasShutdown = false := by
  have hentered : (s.destroy order).entered = none ↔
      ∀ c ∈ s.forwarders, c.socket = none ∨ c.hasShutdown = false := by
    rw [destroy, destroyForwarders_entered_iff]
    exact forall_congr' fun c => by rw [horder.mem_iff]
  rw [← hentered]
  constructor
  · exact fun h => h.entered
  · intro h
    refine ⟨fun c hc => ?_, destroyForwarders_started order _, h⟩
    have hclosed : (s.destroy order).closed = order.map (·.id) := destroyForwarders_closed order _ h
    have hmem : c.id ∈ order.map (·.id) := List.mem_map_of_mem (horder.mem_iff.mpr hc)
    rw [hclosed]
    exact List.count_eq_one_of_mem ((horder.map _).nodup_iff.mpr hids) hmem

theorem Listed.quiet_iff (h : s.Listed) (horder : order.Perm s.forwarders) :
    Quiet s (s.destroy order) ↔ s.forwarders = [] := by
  rw [ClientForwarders.quiet_iff h.ids horder, List.eq_nil_iff_forall_not_mem]
  refine forall_congr' fun c => ⟨fun hneither hc => ?_, fun hnot hc => absurd hc hnot⟩
  have halive := h.alive c hc
  cases hneither hc with
  | inl hsocket => exact halive.socket hsocket
  | inr hcallback => exact absurd (halive.hasShutdown.symm.trans hcallback) (by decide)

theorem Listed.destroy_cons (h : s.Listed) {c : ForwarderConnection} (hc : c ∈ s.forwarders)
    (order : List ForwarderConnection) :
    (s.destroy (c :: order)).closed = [c.id] ∧ (s.destroy (c :: order)).entered = some c.id := by
  have halive := h.alive c hc
  have hshutdown := (close_shutdown_iff c s.world).mpr ⟨halive.socket, halive.hasShutdown⟩
  unfold destroy destroyForwarders
  dsimp only
  rw [if_pos hshutdown]
  exact ⟨rfl, rfl⟩

/-- In every reachable state, whatever is in the queue: nothing is called on the object
that is destroyed exactly when it has no connection. -/
theorem destroy_quiet_iff (world : World) (maxConnections : Nat) (events : List Event) :
    let s := run step (new world maxConnections) events
    ∀ order, order.Perm s.forwarders → (Quiet s (s.destroy order) ↔ s.forwarders = []) := by
  intro s order horder
  have hlisted := run_preserves (I := fun s : ClientForwarders => s.Listed ∧ s.Capped)
    (fun s event h => step_capped h event) (new_capped world maxConnections) events
  exact hlisted.1.quiet_iff horder

namespace Sample

def connecting : List Event := [.request (env ⟨-1, .wantRead, []⟩ 7) query]

end Sample

open Sample in
theorem destroy_quiet_connecting :
    let s := run step (new Sample.world 1) connecting
    Quiet s (s.destroy s.forwarders) ↔ s.forwarders = [] :=
  destroy_quiet_iff Sample.world 1 connecting _ (.refl _)

open Sample in
/-- One request is on its way. -/
theorem destroy_not_quiet :
    ¬ ∀ (world : World) (maxConnections : Nat) (events : List Event),
      let s := run step (new world maxConnections) events
      ∀ order, order.Perm s.forwarders → Quiet s (s.destroy order) := by
  intro h
  have hentered := (h Sample.world 1 connecting _ (.refl _)).entered
  revert hentered
  decide

end ClientForwarders

end Dote
