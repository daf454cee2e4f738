import Dote.Connection.Fate

/-! What each handler does to the life of a connection, whoever else uses the loop:
the state moves forward, and the loop has no callback that the state does not ask
for. -/
namespace Dote

def State.rank : State → Nat
  | .connecting => 0
  | .opened => 1
  | .shuttingDown => 2
  | .closed => 3

namespace Active

/-- The loop calls the connection with these callbacks only, and for each of them
the connection has the registration. -/
def Tracks (a : Active) (expected : Kind → Option Callback) : Prop :=
  ∀ handle kind callback timeout, a.wire handle kind = some (callback, timeout) →
    callback.owner = some a.self.id →
    a.self.registration kind = ⟨handle, some kind⟩ ∧ expected kind = some callback

section Tracks

variable {a : Active} {expected : Kind → Option Callback}

theorem Tracks.mono (h : a.Tracks expected) {expected' : Kind → Option Callback}
    (hle : ∀ kind callback, expected kind = some callback → expected' kind = some callback) :
    a.Tracks expected' := by
  intro handle kind callback timeout hwire howner
  obtain ⟨hregistration, hexpected⟩ := h handle kind callback timeout hwire howner
  exact ⟨hregistration, hle kind callback hexpected⟩

theorem Tracks.of_same (h : a.Tracks expected) {a' : Active} (hid : a'.self.id = a.self.id)
    (hregistration : a'.self.registration = a.self.registration)
    (hloop : ∀ handle kind callback timeout, callback.owner = some a.self.id →
      a'.wire handle kind = some (callback, timeout) →
      a.wire handle kind = some (callback, timeout)) : a'.Tracks expected := by
  intro handle kind callback timeout hwire howner
  rw [hid] at howner
  rw [hregistration]
  exact h handle kind callback timeout (hloop handle kind callback timeout howner hwire) howner

theorem wire_of_reset {kind other : Kind} {handle : Int} {entry : Callback × Int}
    (hwire : (a.reset kind).wire handle other = some entry) :
    a.wire handle other = some entry ∧ a.self.registration kind ≠ ⟨handle, some other⟩ := by
  change (a.world.loop.reset (a.self.registration kind)).2.wire handle other = some entry at hwire
  unfold Loop.reset at hwire
  split at hwire
  next hmoved =>
    refine ⟨hwire, ?_⟩
    intro heq
    rw [heq] at hmoved
    contradiction
  next kind' hkind =>
    unfold Loop.wire at hwire
    rw [Loop.find_remove] at hwire
    split at hwire
    next => contradiction
    next hne =>
      refine ⟨hwire, ?_⟩
      intro heq
      rw [heq] at hne hkind
      cases hkind
      exact hne ⟨rfl, rfl⟩

theorem Tracks.reset (h : a.Tracks expected) (kind : Kind) :
    (a.reset kind).Tracks (Function.update expected kind none) := by
  intro handle other callback timeout hwire howner
  obtain ⟨hbefore, hne⟩ := wire_of_reset hwire
  obtain ⟨hregistration, hexpected⟩ := h handle other callback timeout hbefore howner
  have hother : other ≠ kind := by
    intro heq
    rw [heq] at hregistration hne
    exact hne hregistration
  constructor
  · change (if other = kind then _ else a.self.registration other) = _
    rw [if_neg hother, hregistration]
  · rw [Function.update_of_ne hother, hexpected]

theorem reset_moved (a : Active) (kind : Kind) :
    ((a.reset kind).self.registration kind).kind = none := by
  change (if kind = kind then (a.world.loop.reset (a.self.registration kind)).1 else _).kind = none
  rw [if_pos rfl, Loop.reset]
  split
  next hmoved => exact hmoved
  next => rfl

theorem reset_registration (a : Active) {kind other : Kind} (h : other ≠ kind) :
    (a.reset kind).self.registration other = a.self.registration other := by
  change (if other = kind then _ else a.self.registration other) = _
  rw [if_neg h]

theorem Tracks.register (h : a.Tracks expected) {kind : Kind}
    (hmoved : (a.self.registration kind).kind = none) (callback : Callback) :
    (a.register kind callback).Tracks (Function.update expected kind (some callback)) := by
  have hregistered : a.register kind callback = a.setRegistration kind
      (a.world.loop.register kind a.handle callback
        (if kind = .exception then 0 else a.self.timeout)).1
      (a.world.loop.register kind a.handle callback
        (if kind = .exception then 0 else a.self.timeout)).2 := by
    unfold Active.register Loop.assign
    dsimp only
    rw [Loop.reset_of_moved _ hmoved]
  have hold : ∀ handle other callback' timeout,
      a.wire handle other = some (callback', timeout) → callback'.owner = some a.self.id →
      other ≠ kind ∧ a.self.registration other = ⟨handle, some other⟩ ∧
        expected other = some callback' := by
    intro handle other callback' timeout hwire howner
    obtain ⟨hregistration, hexpected⟩ := h handle other callback' timeout hwire howner
    refine ⟨?_, hregistration, hexpected⟩
    intro heq
    rw [← heq, hregistration] at hmoved
    contradiction
  rw [hregistered]
  intro handle other callback' timeout hwire howner
  change Loop.wire (a.world.loop.register kind a.handle callback _).2 handle other = _ at hwire
  change (if other = kind then (a.world.loop.register kind a.handle callback _).1 else
    a.self.registration other) = _ ∧ _
  unfold Loop.register at hwire ⊢
  split at hwire
  next =>
    obtain ⟨hother, hregistration, hexpected⟩ := hold handle other callback' timeout hwire howner
    rw [if_neg hother, Function.update_of_ne hother]
    exact ⟨hregistration, hexpected⟩
  next hfree =>
    unfold Loop.wire at hwire
    rw [Loop.find_insert] at hwire
    split at hwire
    next hnew =>
      cases hwire
      rw [if_pos hnew.1, if_neg hfree, hnew.1, hnew.2, Function.update_self]
      exact ⟨rfl, rfl⟩
    next =>
      obtain ⟨hother, hregistration, hexpected⟩ := hold handle other callback' timeout hwire howner
      rw [if_neg hother, Function.update_of_ne hother]
      exact ⟨hregistration, hexpected⟩

theorem Tracks.ensure (h : a.Tracks expected) {kind : Kind} {callback : Callback}
    (hexpected : expected kind = some callback) : (a.ensure kind callback).Tracks expected := by
  unfold Active.ensure
  split
  next => exact h
  next hvalid =>
    have hmoved : (a.self.registration kind).kind = none := by
      simpa [Registration.valid] using hvalid
    apply (h.register hmoved callback).mono
    rw [← hexpected, Function.update_eq_self]
    exact fun _ _ heq => heq

theorem due_of_reset (id : Nat) {state : State} (hstate : state ≠ .closed) (kind : Kind)
    (callback : Callback) (s : State)
    (h : Function.update (Function.update (due id s) .read none) .write none kind =
      some callback) : due id state kind = some callback := by
  cases kind with
  | read => simp at h
  | write => simp at h
  | exception =>
    cases s <;> cases state <;> simp_all [due]

end Tracks

structure Advance (a : Active) (result : Active × Upcall) : Prop where
  id : result.1.self.id = a.self.id
  tracks : result.1.Tracks (due a.self.id result.1.self.state)
  rank : a.self.state.rank ≤ result.1.self.state.rank
  upcall : (result.1.self.socket = a.self.socket ∧ result.2 ≠ .shutdown) ∨
    (a.self.socket ≠ none ∧ result.1.self.socket = none ∧
      result.2 = if a.self.hasShutdown then .shutdown else .none)
  incoming : ∀ buffer, result.2 = .incoming buffer →
    a.self.state = .opened ∧ result.1.self.state = .opened

section Advance

variable {a a' : Active}

theorem Carries.advance (h : Carries a a') {result : Active × Upcall}
    (hadvance : Advance a' result) : Advance a result where
  id := hadvance.id.trans h.id
  tracks := by
    rw [← h.id]
    exact hadvance.tracks
  rank := by
    rw [← h.state]
    exact hadvance.rank
  upcall := by
    rw [← h.socket, ← h.hasShutdown]
    exact hadvance.upcall
  incoming := by
    rw [← h.state]
    exact hadvance.incoming

theorem Carries.goes_on (h : Carries a a') (htracks : a'.Tracks (due a.self.id a'.self.state))
    {upcall : Upcall} (hshutdown : upcall ≠ .shutdown)
    (hincoming : ∀ buffer, upcall = .incoming buffer → a.self.state = .opened) :
    Advance a (a', upcall) where
  id := h.id
  tracks := htracks
  rank := by rw [h.state]
  upcall := .inl ⟨h.socket, hshutdown⟩
  incoming buffer heq := ⟨hincoming buffer heq, h.state.trans (hincoming buffer heq)⟩

theorem Same.tracks {expected : Kind → Option Callback} (h : Same a a')
    (htracks : a.Tracks expected) : a'.Tracks expected := by
  refine Tracks.of_same htracks (by rw [h.self]) (by rw [h.self]) ?_
  intro handle kind callback timeout _ hwire
  exact (h.wire kind).symm.trans hwire

theorem Advance.setState {state : State} (h : Carries a a')
    (htracks : a'.Tracks (due a.self.id state)) (hrank : a.self.state.rank ≤ state.rank) :
    Advance a (a'.setState state, .none) :=
  ⟨h.id, htracks, hrank, .inl ⟨h.socket, by simp⟩, by simp⟩

theorem close_advance (h : a.Tracks (due a.self.id a.self.state)) : Advance a a.close := by
  have hcarries := ((carries_reset a .read).trans (carries_reset _ .write)).trans
    (carries_reset _ .exception)
  unfold close
  split
  next hsocket => exact ⟨rfl, h, le_rfl, .inl ⟨rfl, by simp⟩, by simp⟩
  next handle hsocket =>
    refine ⟨hcarries.id, ?_, ?_, .inr ⟨by simp [hsocket], rfl, ?_⟩, ?_⟩
    · have hreset := ((h.reset .read).reset .write).reset .exception
      apply hreset.mono
      intro kind callback hexpected
      cases kind <;> simp at hexpected
    · cases a.self.state <;> simp [State.rank]
    · dsimp only
      rw [hcarries.hasShutdown]
    · intro buffer heq
      dsimp only at heq
      split at heq <;> contradiction

theorem setBad_close_advance (h : a.Tracks (due a.self.id a.self.state)) :
    Advance a a.setBad.close := by
  have hbad : Same a a.setBad := ⟨rfl, rfl, rfl⟩
  exact hbad.carries.advance (close_advance (hbad.tracks h))

theorem await_advance {kind other : Kind} {callback : Callback}
    (h : a.Tracks (due a.self.id a.self.state))
    (hdue : due a.self.id a.self.state kind = some callback) :
    Advance a ((a.ensure kind callback).reset other, .none) := by
  have hcarries := (carries_ensure a kind callback).trans (carries_reset _ other)
  apply hcarries.goes_on
  · apply ((h.ensure hdue).reset other).mono
    intro kind' callback' heq
    rw [hcarries.state]
    by_cases hkind : kind' = other
    · rw [hkind, Function.update_self] at heq
      contradiction
    · rw [Function.update_of_ne hkind] at heq
      exact heq
  · simp
  · simp

theorem opens_advance (h : a.Tracks (due a.self.id a.self.state))
    (hstate : a.self.state = .connecting) : Advance a (a.opens, .none) := by
  let b := ((a.reset .read).reset .write).registerRead (.incoming a.self.id)
  let c := if b.self.buffer = [] then b else b.registerWrite (.outgoing b.self.id)
  have hreset := (h.reset .read).reset .write
  have hread : (((a.reset .read).reset .write).self.registration .read).kind = none := by
    rw [reset_registration _ (by simp), reset_moved]
  have hb := hreset.register hread (.incoming a.self.id)
  have hbwrite : (b.self.registration .write).kind = none := reset_moved (a.reset .read) .write
  have hbcarries : Carries a b := (carries_reset a .read).trans
    ((carries_reset _ .write).trans (carries_register _ .read (.incoming a.self.id)))
  have hc : Carries a c ∧ c.Tracks (due a.self.id .opened) := by
    unfold c
    split
    next =>
      refine ⟨hbcarries, hb.mono ?_⟩
      intro kind callback heq
      cases kind with
      | read => simpa [due] using heq
      | write => simp at heq
      | exception => simpa [hstate, due] using heq
    next =>
      refine ⟨hbcarries.trans (carries_register b .write (.outgoing b.self.id)), ?_⟩
      apply (hb.register hbwrite (.outgoing b.self.id)).mono
      intro kind callback heq
      cases kind with
      | read => simpa [due] using heq
      | write =>
        rw [Function.update_self, hbcarries.id] at heq
        exact heq
      | exception => simpa [hstate, due] using heq
  apply Advance.setState hc.1 hc.2
  rw [hstate]
  decide

theorem written_advance (h : a.Tracks (due a.self.id a.self.state)) :
    Advance a ((a.setBuffer []).reset .write, .none) := by
  have hsent : Carries a (a.setBuffer []) := ⟨rfl, rfl, rfl, rfl, .refl⟩
  have hset : (a.setBuffer []).Tracks (due a.self.id a.self.state) := h
  apply (hsent.trans (carries_reset _ .write)).goes_on _ (by simp) (by simp)
  apply (hset.reset .write).mono
  intro kind callback heq
  cases kind with
  | write => simp at heq
  | read => exact heq
  | exception => exact heq

theorem Comes.advance {env : Env} {callback : Callback} {result : Active × Upcall}
    (h : Comes env a callback result) (htracks : a.Tracks (due a.self.id a.self.state))
    {kind : Kind} (hdue : due a.self.id a.self.state kind = some callback) :
    Advance a result := by
  have hcases := due_cases hdue
  have hcarries : Carries a a.ask := (same_ask a).carries
  have hask : a.ask.Tracks (due a.ask.self.id a.ask.self.state) := (same_ask a).tracks htracks
  cases h with
  | @connecting id kind _ hturns =>
    obtain ⟨hstate, -⟩ : a.self.state = .connecting ∧ id = a.self.id := by simpa using hcases
    apply hcarries.advance
    apply await_advance hask
    rw [show a.ask.self = a.self from rfl, hstate]
    rcases hturns with ⟨rfl, -⟩ | ⟨rfl, -⟩
    · rfl
    · rfl
  | opened id =>
    obtain ⟨hstate, -⟩ : a.self.state = .connecting ∧ id = a.self.id := by simpa using hcases
    exact hcarries.advance (opens_advance hask hstate)
  | cached id _ _ =>
    obtain ⟨hstate, -⟩ : a.self.state = .connecting ∧ id = a.self.id := by simpa using hcases
    have hcached : Same a (a.ask.share (.cacheSession (some a.self.forwarder))) := ⟨rfl, rfl, rfl⟩
    exact hcached.carries.advance (opens_advance (hcached.tracks htracks) hstate)
  | refused _ =>
    have hcleared : Same a (a.ask.share (.cacheSession none)) := ⟨rfl, rfl, rfl⟩
    exact hcleared.carries.advance (setBad_close_advance (hcleared.tracks htracks))
  | dropped _ _ => exact hcarries.advance (close_advance hask)
  | waiting _ => exact hcarries.goes_on hask (by simp) (by simp)
  | read id _ buffer =>
    obtain ⟨hstate, -⟩ : a.self.state = .opened ∧ id = a.self.id := by simpa using hcases
    exact hcarries.goes_on hask (by simp) fun _ _ => hstate
  | writing _ => exact hcarries.goes_on hask (by simp) (by simp)
  | written _ _ => exact hcarries.advance (written_advance hask)
  | empty _ _ => exact written_advance htracks
  | closed _ _ => exact hcarries.advance (close_advance hask)
  | failed _ _ => exact hcarries.advance (setBad_close_advance hask)
  | @ending id kind _ hturns =>
    obtain ⟨hstate, -⟩ : a.self.state = .shuttingDown ∧ id = a.self.id := by simpa using hcases
    rw [show a.setState .shuttingDown = a by rw [← hstate]; rfl]
    apply hcarries.advance
    apply await_advance hask
    rw [show a.ask.self = a.self from rfl, hstate]
    rcases hturns with ⟨rfl, -⟩ | ⟨rfl, -⟩
    · rfl
    · rfl
  | ended id _ _ =>
    obtain ⟨hstate, -⟩ : a.self.state = .shuttingDown ∧ id = a.self.id := by simpa using hcases
    rw [show a.setState .shuttingDown = a by rw [← hstate]; rfl]
    exact hcarries.advance (close_advance hask)
  | raised _ =>
    split
    next => exact setBad_close_advance htracks
    next => exact close_advance htracks
  | server => exact absurd hcases (by simp)
  | checker => exact absurd hcases (by simp)

theorem handler_advance (env : Env) (h : a.Tracks (due a.self.id a.self.state)) {kind : Kind}
    {callback : Callback} (hdue : due a.self.id a.self.state kind = some callback) :
    Advance a (a.handler env callback) :=
  (handler_comes env a callback).advance h hdue

theorem shutdown_advance (env : Env) (h : a.Tracks (due a.self.id a.self.state)) :
    Advance a (a.shutdown env) ∧
      State.shuttingDown.rank ≤ (a.shutdown env).1.self.state.rank := by
  have hcarries := (carries_reset a .read).trans (carries_reset _ .write)
  unfold shutdown
  split
  next hstate =>
    let b := ((a.reset .read).reset .write).setState .shuttingDown
    have htracks : b.Tracks (due b.self.id .shuttingDown) := by
      apply ((h.reset .read).reset .write).mono
      intro kind callback heq
      rw [show b.self.id = a.self.id from hcarries.id]
      exact due_of_reset a.self.id (by simp) kind callback a.self.state heq
    have hadvance : Advance b (b.continueShutdown env) :=
      (continueShutdown_comes env b b.self.id).advance htracks (show due _ _ .read = _ from rfl)
    refine ⟨hcarries.advance ⟨hadvance.id, hadvance.tracks, ?_, hadvance.upcall, ?_⟩,
      hadvance.rank⟩
    · refine Nat.le_trans ?_ hadvance.rank
      rw [hcarries.state]
      cases hstate with
      | inl hstate => simp [hstate, State.rank, b]
      | inr hstate => simp [hstate, State.rank, b]
    · exact fun buffer heq => absurd (hadvance.incoming buffer heq).1 (by simp [b])
  next hstate =>
    refine ⟨(Carries.mk rfl rfl rfl rfl .refl).goes_on h (by simp) (by simp), ?_⟩
    change _ ≤ a.self.state.rank
    cases hs : a.self.state <;> simp [hs, State.rank] at hstate ⊢

theorem send_advance (h : a.Tracks (due a.self.id a.self.state)) (buffer : Bytes) :
    Advance a ((a.send buffer).2, .none) := by
  have hstay : ∀ a' : Active, Carries a a' → a'.Tracks (due a.self.id a.self.state) →
      Advance a (a', .none) := by
    intro a' hcarries htracks
    apply hcarries.goes_on _ (by simp) (by simp)
    rw [hcarries.state]
    exact htracks
  unfold send
  split
  next => exact hstay a ⟨rfl, rfl, rfl, rfl, .refl⟩ h
  next =>
    split
    next =>
      dsimp only
      split
      next hopen =>
        have hcarries := carries_register a .write (.outgoing a.self.id)
        have hset : Carries a ((a.registerWrite (.outgoing a.self.id)).setBuffer buffer) :=
          ⟨hcarries.id, hcarries.socket, hcarries.state, hcarries.hasShutdown, hcarries.evolves⟩
        refine hstay _ hset ?_
        have hmoved : (a.self.registration .write).kind = none := by
          simpa [Registration.valid] using hopen.2
        apply (h.register hmoved (.outgoing a.self.id)).mono
        intro kind callback heq
        by_cases hkind : kind = .write
        · rw [hkind, Function.update_self] at heq
          rw [hkind, hopen.1]
          exact heq
        · rw [Function.update_of_ne hkind] at heq
          exact heq
      next => exact hstay (a.setBuffer buffer) ⟨rfl, rfl, rfl, rfl, .refl⟩ h
    next => exact hstay a ⟨rfl, rfl, rfl, rfl, .refl⟩ h

theorem Advance.shutdown_iff {result : Active × Upcall} (h : Advance a result) :
    result.2 = .shutdown ↔
      a.self.socket ≠ none ∧ result.1.self.socket = none ∧ a.self.hasShutdown = true := by
  rcases h.upcall with ⟨hsocket, hupcall⟩ | ⟨hopen, hnone, hupcall⟩
  · rw [hsocket]
    tauto
  · rw [hupcall]
    cases a.self.hasShutdown <;> simp [hopen, hnone]

end Advance

end Active

end Dote
