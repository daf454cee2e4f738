import Dote.Connection.Handlers

/-! The session that is held against the head of the forwarder list, through the handlers
of a connection and through its constructor. -/
namespace Dote
open Config

namespace Shared

/-- A session that is held is from the head of the list, and so was every one
that was offered. -/
structure FromHead (s : Shared) : Prop where
  session : ∀ session, s.session = some session → s.config.get = some session
  offers : ∀ offer ∈ s.offers, offer.1 = offer.2

theorem create_same (s : Shared) :
    (s.apply .create).session = s.session ∧ (s.apply .create).config = s.config := by
  unfold Shared.apply
  dsimp only
  split
  next => exact ⟨rfl, rfl⟩
  next => exact ⟨rfl, rfl⟩

namespace FromHead

variable {s : Shared}

theorem of_get (h : s.FromHead) {config : ForwarderConfig}
    (hget : s.session = none ∨ config.get = s.config.get) :
    FromHead { s with config := config } where
  session := by
    intro session hsession
    change s.session = some session at hsession
    cases hget with
    | inl hnone =>
      rw [hnone] at hsession
      contradiction
    | inr hsame => exact hsame.trans (h.session session hsession)
  offers := h.offers

theorem create (h : s.FromHead) : (s.apply .create).FromHead := by
  unfold Shared.apply
  dsimp only
  split
  next session chosen hsession hchosen =>
    refine ⟨h.session, ?_⟩
    intro offer hoffer
    rw [List.mem_append, List.mem_singleton] at hoffer
    cases hoffer with
    | inl hmem => exact h.offers offer hmem
    | inr hnew =>
      have hhead := h.session session hsession
      rw [hchosen] at hhead
      cases hhead
      rw [hnew]
  next => exact h

theorem cacheSession (h : s.FromHead) {session : Option Forwarder}
    (hsession : session = none ∨ s.config.get = session) :
    (s.apply (.cacheSession session)).FromHead where
  session := by
    intro held hheld
    change session = some held at hheld
    cases hsession with
    | inl hnone =>
      rw [hnone] at hheld
      contradiction
    | inr hhead => exact hhead.trans hheld
  offers := h.offers

theorem setForwarders (h : s.FromHead) {forwarders : List Forwarder}
    (hhead : s.session = none ∨ forwarders.head? = s.config.get) :
    (s.apply (.setForwarders forwarders)).FromHead := by
  refine h.of_get (hhead.imp_right fun hsame => ?_)
  rw [ForwarderConfig.foldl_addForwarder]
  exact hsame

end FromHead

end Shared

namespace World

/-- Connections are tried one after the other from the tick on, until one goes on or its
handshake fails and clears the session. None of them finds no socket, where the report of
its forwarder would move the head of the list. -/
def TriesKeep (env : Env) (handles : List Int) : Nat → ForwarderConfig → Nat → Prop
  | 0, _, _ => True
  | tries + 1, config, tick =>
    if env.create tick ∧ config.get.isSome then
      if (env.socket (tick + 1)).any (· ∉ handles) then
        doFunction (env.ssl (tick + 2)) = .closed → TriesKeep env handles tries config (tick + 3)
      else
        ∀ chosen ∈ config.get, (config.setBad chosen).get = config.get ∧
          TriesKeep env handles tries (config.setBad chosen) (tick + 2)
    else TriesKeep env handles tries config (tick + 1)

instance decidableTriesKeep (env : Env) (handles : List Int) :
    ∀ tries config tick, Decidable (TriesKeep env handles tries config tick)
  | 0, _, _ => .isTrue trivial
  | tries + 1, config, tick =>
    have := decidableTriesKeep env handles tries
    inferInstanceAs (Decidable (if env.create tick ∧ config.get.isSome then
      if (env.socket (tick + 1)).any (· ∉ handles) then
        doFunction (env.ssl (tick + 2)) = .closed → TriesKeep env handles tries config (tick + 3)
      else
        ∀ chosen ∈ config.get, (config.setBad chosen).get = config.get ∧
          TriesKeep env handles tries (config.setBad chosen) (tick + 2)
      else TriesKeep env handles tries config (tick + 1)))

def Ready (env : Env) (tries : Nat) (w : World) : Prop :=
  w.session = none ∨ TriesKeep env w.handles tries w.config w.tick

instance (env : Env) (tries : Nat) (w : World) : Decidable (w.Ready env tries) :=
  inferInstanceAs (Decidable (_ ∨ _))

theorem Ready.of_same {env : Env} {tries : Nat} {w w' : World} (h : w.Ready env tries)
    (hsharing : w'.sharing = w.sharing) (hhandles : w'.handles = w.handles)
    (htick : w'.tick = w.tick) : w'.Ready env tries := by
  unfold Ready session config at h ⊢
  rw [hsharing, hhandles, htick]
  exact h

/-- A connection is closed and leaves that list behind at that tick. While a session is
held the list has the head of before, and keeps it while the next ones are tried. -/
def EndKeeps (env : Env) (tries : Nat) (w : World) (handle : Int) (config : ForwarderConfig)
    (tick : Nat) : Prop :=
  w.session = none ∨ config.get = w.config.get ∧
    TriesKeep env (w.handles.erase handle) tries config tick

instance (env : Env) (tries : Nat) (w : World) (handle : Int) (config : ForwarderConfig)
    (tick : Nat) : Decidable (w.EndKeeps env tries handle config tick) :=
  inferInstanceAs (Decidable (_ ∨ _ ∧ _))

end World

namespace Active

def ShutdownKeeps (env : Env) (tries : Nat) (a : Active) (tick : Nat) : Prop :=
  doFunction (env.ssl tick) ≠ .needRead → doFunction (env.ssl tick) ≠ .needWrite →
    a.world.EndKeeps env tries a.handle a.world.config (tick + 1)

instance (env : Env) (tries : Nat) (a : Active) (tick : Nat) :
    Decidable (a.ShutdownKeeps env tries tick) := inferInstanceAs (Decidable (_ → _ → _))

/-- What a callback asks for, by the answers of OpenSSL, for a session that is held
behind it to be from the head of the list: a handshake may only leave the session of the
head, a failure may only move the head while no session is held. -/
def CallbackKeeps (env : Env) (tries : Nat) (a : Active) : Callback → Prop
  | .connect _ =>
    (doFunction (env.ssl a.world.tick) = .success → env.hasSession a.world.tick →
      a.world.config.get = some a.self.forwarder) ∧
    (doFunction (env.ssl a.world.tick) = .closed →
      a.world.EndKeeps env tries a.handle a.world.config (a.world.tick + 1))
  | .incoming _ =>
    (doFunction (env.ssl a.world.tick) = .fatal → a.world.EndKeeps env tries a.handle
      (a.world.config.setBad a.self.forwarder) (a.world.tick + 1)) ∧
    (doFunction (env.ssl a.world.tick) = .closed →
      a.world.EndKeeps env tries a.handle a.world.config (a.world.tick + 1)) ∧
    (doFunction (env.ssl a.world.tick) = .success →
      a.self.state = .connecting ∨ a.self.state = .opened →
      a.ShutdownKeeps env tries (a.world.tick + 1))
  | .outgoing _ => a.self.buffer ≠ [] →
    (doFunction (env.ssl a.world.tick) = .fatal → a.world.EndKeeps env tries a.handle
      (a.world.config.setBad a.self.forwarder) (a.world.tick + 1)) ∧
    (doFunction (env.ssl a.world.tick) = .closed →
      a.world.EndKeeps env tries a.handle a.world.config (a.world.tick + 1))
  | .shutdown _ => a.ShutdownKeeps env tries a.world.tick
  | .exception _ => a.world.EndKeeps env tries a.handle
    (if a.self.state = .connecting then a.world.config.setBad a.self.forwarder
      else a.world.config) a.world.tick
  | .handleDnsRequest => True
  | .handleRead => True

instance (env : Env) (tries : Nat) (a : Active) : ∀ callback,
    Decidable (a.CallbackKeeps env tries callback)
  | .connect _ => inferInstanceAs (Decidable (_ ∧ _))
  | .incoming _ => inferInstanceAs (Decidable (_ ∧ _ ∧ _))
  | .outgoing _ => inferInstanceAs (Decidable (_ → _))
  | .shutdown _ => inferInstanceAs (Decidable (ShutdownKeeps _ _ _ _))
  | .exception _ => inferInstanceAs (Decidable (World.EndKeeps _ _ _ _ _ _))
  | .handleDnsRequest => .isTrue trivial
  | .handleRead => .isTrue trivial

/-- Where the connection has ended, the next ones can be tried. -/
structure Settled (env : Env) (tries : Nat) (a : Active) : Prop where
  fromHead : a.world.sharing.state.FromHead
  ready : a.self.socket = none → a.world.Ready env tries

variable {env : Env} {tries : Nat} {a : Active}

theorem settled_stay (h : a.world.sharing.state.FromHead) (hsocket : a.self.socket ≠ none)
    {b : Active} (hsharing : b.world.sharing = a.world.sharing)
    (hsame : b.self.socket = a.self.socket) : Settled env tries b where
  fromHead := by
    rw [hsharing]
    exact h
  ready hnone := absurd (hsame.symm.trans hnone) hsocket

theorem settled_close (h : a.world.sharing.state.FromHead) (hsocket : a.self.socket ≠ none)
    (hend : a.world.EndKeeps env tries a.handle a.world.config a.world.tick) :
    Settled env tries a.close.1 := by
  have hready : (a.world.close a.handle).Ready env tries := hend.imp_right And.right
  unfold close
  split
  next hnone => exact absurd hnone hsocket
  next handle hsome =>
    rw [show a.handle = handle by rw [Active.handle, hsome]; rfl] at hready
    exact ⟨h, fun _ => hready.of_same rfl rfl rfl⟩

theorem settled_report (h : a.world.sharing.state.FromHead) (hsocket : a.self.socket ≠ none)
    (hend : a.world.EndKeeps env tries a.handle (a.world.config.setBad a.self.forwarder)
      a.world.tick) : Settled env tries a.setBad.close.1 :=
  settled_close (a := a.setBad) (h.of_get (hend.imp_right And.left)) hsocket
    (hend.imp_right fun hkeeps => ⟨rfl, hkeeps.2⟩)

theorem settled_await (h : a.world.sharing.state.FromHead) (hsocket : a.self.socket ≠ none)
    (kind other : Kind) (callback : Callback) :
    Settled env tries ((a.ensure kind callback).reset other) := by
  unfold ensure
  split
  next => exact settled_stay h hsocket rfl rfl
  next => exact settled_stay h hsocket rfl rfl

theorem sharing_register (a : Active) (kind : Kind) (callback : Callback) :
    (a.register kind callback).world.sharing = a.world.sharing := rfl

theorem settled_opens (h : a.world.sharing.state.FromHead) (hsocket : a.self.socket ≠ none) :
    Settled env tries a.opens := by
  have hsame : a.opens.self.socket = a.self.socket :=
    (Works.refl.opens : Works False a a.opens).socket
  have hread := sharing_register ((a.reset .read).reset .write) .read (.incoming a.self.id)
  refine settled_stay h hsocket ?_ hsame
  unfold opens
  dsimp only
  split
  next => exact hread
  next => exact (sharing_register _ .write _).trans hread

theorem CallbackKeeps.of_talks {callback : Callback} (h : a.CallbackKeeps env tries callback)
    (htalks : a.Talks callback) :
    (doFunction (env.ssl a.world.tick) = .fatal → a.world.EndKeeps env tries a.handle
      (a.world.config.setBad a.self.forwarder) (a.world.tick + 1)) ∧
    (doFunction (env.ssl a.world.tick) = .closed →
      a.world.EndKeeps env tries a.handle a.world.config (a.world.tick + 1)) := by
  cases callback with
  | incoming id => exact ⟨h.1, h.2.1⟩
  | outgoing id => exact h htalks
  | _ => exact htalks.elim

theorem Comes.settled {callback : Callback} {result : Active × Upcall}
    (h : Comes env a callback result) (hhead : a.world.sharing.state.FromHead)
    (hsocket : a.self.socket ≠ none) (hkeeps : a.CallbackKeeps env tries callback) :
    Settled env tries result.1 := by
  have hask : Settled env tries a.ask := settled_stay hhead hsocket rfl rfl
  cases h with
  | connecting _ _ => exact settled_await (a := a.ask) hhead hsocket _ _ _
  | opened _ => exact settled_opens (a := a.ask) hhead hsocket
  | cached _ hresult hsession =>
    have hcached := hhead.cacheSession (.inr (hkeeps.1 hresult hsession))
    exact settled_opens (a := a.ask.share _) hcached hsocket
  | refused _ =>
    exact settled_report (a := a.ask.share _) (hhead.cacheSession (.inl rfl)) hsocket (.inl rfl)
  | dropped _ hresult => exact settled_close (a := a.ask) hhead hsocket (hkeeps.2 hresult)
  | waiting _ => exact hask
  | read _ _ buffer => exact hask
  | writing _ => exact hask
  | written _ _ => exact settled_stay hhead hsocket rfl rfl
  | empty _ _ => exact settled_stay hhead hsocket rfl rfl
  | closed htalks hresult =>
    exact settled_close (a := a.ask) hhead hsocket ((hkeeps.of_talks htalks).2 hresult)
  | failed htalks hresult =>
    exact settled_report (a := a.ask) hhead hsocket ((hkeeps.of_talks htalks).1 hresult)
  | ending _ _ => exact settled_await (a := (a.setState .shuttingDown).ask) hhead hsocket _ _ _
  | ended _ hread hwrite =>
    exact settled_close (a := (a.setState .shuttingDown).ask) hhead hsocket (hkeeps hread hwrite)
  | raised _ =>
    unfold CallbackKeeps at hkeeps
    split
    next hconnecting =>
      rw [if_pos hconnecting] at hkeeps
      exact settled_report hhead hsocket hkeeps
    next hconnected =>
      rw [if_neg hconnected] at hkeeps
      exact settled_close hhead hsocket hkeeps
  | server => exact settled_stay hhead hsocket rfl rfl
  | checker => exact settled_stay hhead hsocket rfl rfl

theorem settled_shutdown (h : a.world.sharing.state.FromHead) (hsocket : a.self.socket ≠ none)
    (hkeeps : a.self.state = .connecting ∨ a.self.state = .opened →
      a.ShutdownKeeps env tries a.world.tick) : Settled env tries (a.shutdown env).1 := by
  unfold shutdown
  split
  next hopen =>
    exact (continueShutdown_comes env ((a.reset .read).reset .write) a.self.id).settled h hsocket
      (hkeeps hopen)
  next => exact settled_stay h hsocket rfl rfl

theorem Comes.read_asked {callback : Callback} {result : Active × Upcall}
    (h : Comes env a callback result) {buffer : Bytes} (hread : result.2 = .incoming buffer) :
    ∃ id, callback = .incoming id ∧ doFunction (env.ssl a.world.tick) = .success ∧
      result.1 = a.ask := by
  cases h with
  | read id hresult _ => exact ⟨id, rfl, hresult, rfl⟩
  | refused _ | dropped _ _ | closed _ _ | failed _ _ | ended _ _ _ | raised _ =>
    exact absurd hread (close_upcall _ _)
  | _ => contradiction

theorem sharing_send (a : Active) (request : Bytes) :
    (a.send request).2.world.sharing = a.world.sharing := by
  unfold send
  split
  next => rfl
  next =>
    split
    next =>
      dsimp only
      split
      next => rfl
      next => rfl
    next => rfl

end Active

namespace ForwarderConnection
open Active

theorem new_session (env : Env) (id : Nat) {w : World} (h : w.sharing.state.FromHead)
    (hsocket : (new env id w).self.socket ≠ none) : (new env id w).self.session = none ∨
      (new env id w).self.session = some (new env id w).self.forwarder := by
  revert hsocket
  unfold new
  dsimp only
  split
  next chosen htrue hchosen =>
    split
    next handle w' _ =>
      intro _
      have hkeeps := fun self : ForwarderConnection => (handshake_ends env ⟨self, w'⟩ id).keeps
      rw [(hkeeps _).session, (hkeeps _).forwarder, if_pos htrue]
      change w.session = none ∨ w.session = some chosen
      cases hsession : w.session with
      | none => exact .inl rfl
      | some session => exact .inr ((h.session session hsession).symm.trans hchosen)
    next => exact fun hsocket => absurd rfl hsocket
  next => exact fun hsocket => absurd rfl hsocket

theorem new_send (env : Env) (id : Nat) (w : World) (request : Bytes)
    (hsocket : (new env id w).self.socket ≠ none) :
    ((new env id w).send request).1 = true := by
  have hopen : ((new env id w).self.state = .connecting ∨ (new env id w).self.state = .opened) ∧
      (new env id w).self.buffer = [] := by
    revert hsocket
    unfold new
    dsimp only
    split
    next =>
      split
      next handle w' _ =>
        intro hsocket
        obtain ⟨hstate, hbuffer⟩ := (connect_comes env
          ((Active.mk _ w').registerException (.exception id)) id).connect_state
        refine ⟨?_, hbuffer⟩
        rcases hstate with hsame | hopened | hnone
        · exact .inl hsame
        · exact .inr hopened
        · exact absurd hnone hsocket
      next => exact fun hsocket => absurd rfl hsocket
    next => exact fun hsocket => absurd rfl hsocket
  unfold send
  rw [if_neg, if_pos hopen.2]
  rintro (hnone | hclosed)
  · exact hsocket hnone
  · exact hopen.1.elim hclosed.1 hclosed.2

theorem settled_new {env : Env} {tries : Nat} {w : World} (h : w.sharing.state.FromHead)
    (hready : w.Ready env (tries + 1)) (id : Nat) : Settled env tries (new env id w) := by
  obtain ⟨hsession, hconfig⟩ := w.sharing.state.create_same
  have hcreated : (w.ask.share .create).sharing.state.FromHead := h.create
  unfold World.Ready World.TriesKeep at hready
  unfold new
  dsimp only
  split
  next chosen htrue hchosen =>
    rw [if_pos ⟨htrue, by rw [hchosen]; rfl⟩] at hready
    rcases World.openHandle_cases env (w.ask.share .create) with
      ⟨handle, hsocket, hfresh, hopen⟩ | ⟨hnone, hopen⟩
    · change env.socket (w.tick + 1) = some handle at hsocket
      change handle ∉ w.handles at hfresh
      rw [if_pos (by simpa [hsocket] using hfresh)] at hready
      rw [hopen]
      refine (connect_comes env _ id).settled hcreated (by simp [registerException])
        ⟨fun _ _ => ?_, fun hclosed => ?_⟩
      · exact (congrArg ForwarderConfig.get hconfig).trans hchosen
      · refine hready.imp hsession.trans fun htries => ⟨rfl, ?_⟩
        change World.TriesKeep env ((handle :: w.handles).erase handle) tries
          (w.sharing.state.apply .create).config (w.tick + 3)
        rw [hconfig, List.erase_cons_head]
        exact htries hclosed
    · change (env.socket (w.tick + 1)).any (· ∉ w.handles) = false at hnone
      rw [if_neg (by rw [hnone]; simp)] at hready
      rw [hopen]
      have hmoves := hready.imp_right fun htries => htries chosen hchosen
      rw [World.session, World.config, ← hsession, ← hconfig] at hmoves
      exact ⟨hcreated.of_get (hmoves.imp_right And.left), fun _ => hmoves.imp_right And.right⟩
  next hnone =>
    refine ⟨h, fun _ => hready.imp_right fun htries => ?_⟩
    rw [if_neg] at htries
    · exact htries
    · rintro ⟨htrue, hsome⟩
      obtain ⟨chosen, hchosen⟩ := Option.isSome_iff_exists.mp hsome
      exact hnone chosen htrue hchosen

end ForwarderConnection

end Dote
