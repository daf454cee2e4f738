import Dote.Connection.ForwarderConnection

/-! The handlers of a connection by the operations that they are made of. Each way that
a handler can take is listed once, and what is known of each is known of the handler. -/
namespace Dote.Active
open Config

/-- What the end of a handshake makes of the connection. -/
def opens (a : Active) : Active :=
  let b := ((a.reset .read).reset .write).registerRead (.incoming a.self.id)
  (if b.self.buffer = [] then b else b.registerWrite (.outgoing b.self.id)).setState .opened

/-- To wait for the one kind is not to wait for the other. -/
def Turns (kind other : Kind) : Prop :=
  (kind = .read ∧ other = .write) ∨ (kind = .write ∧ other = .read)

/-- The callbacks of an open connection, where they ask OpenSSL. -/
def Talks (a : Active) : Callback → Prop
  | .incoming _ => True
  | .outgoing _ => a.self.buffer ≠ []
  | _ => False

/-- All that the handler of a callback can do, and on which answer of OpenSSL. -/
inductive Comes (env : Env) (a : Active) : Callback → Active × Upcall → Prop where
  | connecting (id : Nat) {kind other : Kind} (hturns : Turns kind other) :
      Comes env a (.connect id) ((a.ask.ensure kind (.connect a.self.id)).reset other, .none)
  | opened (id : Nat) : Comes env a (.connect id) (a.ask.opens, .none)
  | cached (id : Nat) (hresult : doFunction (env.ssl a.world.tick) = .success)
      (hsession : env.hasSession a.world.tick) : Comes env a (.connect id)
        ((a.ask.share (.cacheSession (some a.self.forwarder))).opens, .none)
  | refused (id : Nat) :
      Comes env a (.connect id) (a.ask.share (.cacheSession none)).setBad.close
  | dropped (id : Nat) (hresult : doFunction (env.ssl a.world.tick) = .closed) :
      Comes env a (.connect id) a.ask.close
  | waiting (id : Nat) : Comes env a (.incoming id) (a.ask, .none)
  | read (id : Nat) (hresult : doFunction (env.ssl a.world.tick) = .success) (buffer : Bytes) :
      Comes env a (.incoming id) (a.ask, .incoming buffer)
  | writing (id : Nat) : Comes env a (.outgoing id) (a.ask, .none)
  | written (id : Nat) (hresult : doFunction (env.ssl a.world.tick) = .success) :
      Comes env a (.outgoing id) ((a.ask.setBuffer []).reset .write, .none)
  | empty (id : Nat) (hbuffer : a.self.buffer = []) :
      Comes env a (.outgoing id) ((a.setBuffer []).reset .write, .none)
  | closed {callback : Callback} (htalks : a.Talks callback)
      (hresult : doFunction (env.ssl a.world.tick) = .closed) : Comes env a callback a.ask.close
  | failed {callback : Callback} (htalks : a.Talks callback)
      (hresult : doFunction (env.ssl a.world.tick) = .fatal) :
      Comes env a callback a.ask.setBad.close
  | ending (id : Nat) {kind other : Kind} (hturns : Turns kind other) :
      Comes env a (.shutdown id)
        (((a.setState .shuttingDown).ask.ensure kind (.shutdown a.self.id)).reset other, .none)
  | ended (id : Nat) (hread : doFunction (env.ssl a.world.tick) ≠ .needRead)
      (hwrite : doFunction (env.ssl a.world.tick) ≠ .needWrite) :
      Comes env a (.shutdown id) (a.setState .shuttingDown).ask.close
  | raised (id : Nat) :
      Comes env a (.exception id) (if a.self.state = .connecting then a.setBad else a).close
  | server : Comes env a .handleDnsRequest (a, .none)
  | checker : Comes env a .handleRead (a, .none)

section Comes

variable (env : Env) (a : Active)

theorem connect_comes (id : Nat) : Comes env a (.connect id) (a.connect env) := by
  unfold connect sslConnect
  dsimp only
  cases hresult : doFunction (env.ssl a.world.tick) with
  | needRead => exact .connecting id (.inl ⟨rfl, rfl⟩)
  | needWrite => exact .connecting id (.inr ⟨rfl, rfl⟩)
  | success =>
    dsimp only
    split
    next hsession => exact .cached id hresult hsession
    next => exact .opened id
  | fatal => exact .refused id
  | closed => exact .dropped id hresult

theorem incoming_comes (id : Nat) : Comes env a (.incoming id) (a.incoming env) := by
  unfold incoming sslRead
  dsimp only
  cases hresult : doFunction (env.ssl a.world.tick) with
  | needRead => exact .waiting id
  | needWrite => exact .waiting id
  | success =>
    dsimp only
    split
    next => exact .read id hresult _
    next => exact .waiting id
  | fatal => exact .failed trivial hresult
  | closed => exact .closed trivial hresult

theorem outgoing_comes (id : Nat) : Comes env a (.outgoing id) (a.outgoing env) := by
  unfold outgoing sslWrite
  by_cases hbuffer : a.self.buffer = []
  · rw [if_pos hbuffer]
    exact .empty id hbuffer
  · rw [if_neg hbuffer]
    cases hresult : doFunction (env.ssl a.world.tick) with
    | needRead => exact .writing id
    | needWrite => exact .writing id
    | success => exact .written id hresult
    | fatal => exact .failed hbuffer hresult
    | closed => exact .closed hbuffer hresult

theorem continueShutdown_comes (id : Nat) :
    Comes env a (.shutdown id) (a.continueShutdown env) := by
  unfold continueShutdown sslShutdown
  rw [show (a.setState .shuttingDown).world.tick = a.world.tick from rfl]
  cases hresult : doFunction (env.ssl a.world.tick) with
  | needRead => exact .ending id (.inl ⟨rfl, rfl⟩)
  | needWrite => exact .ending id (.inr ⟨rfl, rfl⟩)
  | success => exact .ended id (by simp [hresult]) (by simp [hresult])
  | fatal => exact .ended id (by simp [hresult]) (by simp [hresult])
  | closed => exact .ended id (by simp [hresult]) (by simp [hresult])

theorem exception_comes (id : Nat) : Comes env a (.exception id) a.exception := .raised id

theorem handler_comes (callback : Callback) : Comes env a callback (a.handler env callback) := by
  cases callback with
  | connect id => exact connect_comes env a id
  | incoming id => exact incoming_comes env a id
  | outgoing id => exact outgoing_comes env a id
  | shutdown id => exact continueShutdown_comes env a id
  | exception id => exact exception_comes env a id
  | handleDnsRequest => exact .server
  | handleRead => exact .checker

end Comes

/-- In that callback `SSL_write` takes the buffer, or there was nothing to take. -/
def Drains (env : Env) (a : Active) : Callback → Prop
  | .outgoing _ => a.self.buffer = [] ∨ doFunction (env.ssl a.world.tick) = .success
  | _ => False

/-- Work on a connection that keeps its socket. Only where it `drains` the buffer can be
emptied. -/
inductive Works (drains : Prop) (a : Active) : Active → Prop where
  | refl : Works drains a a
  | ask {b : Active} (h : Works drains a b) : Works drains a b.ask
  | cache {b : Active} (h : Works drains a b) (session : Option Forwarder) :
      Works drains a (b.share (.cacheSession session))
  | reset {b : Active} (h : Works drains a b) (kind : Kind) : Works drains a (b.reset kind)
  | register {b : Active} (h : Works drains a b) (kind : Kind) (callback : Callback) :
      Works drains a (b.register kind callback)
  | setState {b : Active} (h : Works drains a b) {state : State} (hstate : state ≠ .closed) :
      Works drains a (b.setState state)
  | drain {b : Active} (h : Works drains a b) (hdrains : drains) : Works drains a (b.setBuffer [])

/-- A handler comes to its end: the connection goes on, or something was read on it, or
it is closed, after a report of its forwarder or without one. -/
inductive Ends (drains reads : Prop) (a : Active) : Active × Upcall → Prop where
  | stay {b : Active} (h : Works drains a b) : Ends drains reads a (b, .none)
  | read {b : Active} (h : Works drains a b) (hreads : reads) (buffer : Bytes) :
      Ends drains reads a (b, .incoming buffer)
  | close {b : Active} (h : Works drains a b) : Ends drains reads a b.close
  | report {b : Active} (h : Works drains a b) : Ends drains reads a b.setBad.close

section Works

variable {drains reads : Prop} {a b : Active}

theorem Works.await (h : Works drains a b) (kind other : Kind) (callback : Callback) :
    Works drains a ((b.ensure kind callback).reset other) := by
  apply Works.reset
  unfold ensure
  split
  next => exact h
  next => exact h.register kind callback

theorem Works.opens (h : Works drains a b) : Works drains a b.opens := by
  have hread := ((h.reset .read).reset .write).register .read (.incoming b.self.id)
  apply Works.setState _ (by simp)
  split
  next => exact hread
  next => exact hread.register .write _

theorem Works.trans {drains' : Prop} (h : Works drains a b) (hle : drains' → drains) {c : Active}
    (hlater : Works drains' b c) : Works drains a c := by
  induction hlater with
  | refl => exact h
  | ask _ ih => exact ih.ask
  | cache _ session ih => exact ih.cache session
  | reset _ kind ih => exact ih.reset kind
  | register _ kind callback ih => exact ih.register kind callback
  | setState _ hstate ih => exact ih.setState hstate
  | drain _ hdrains ih => exact ih.drain (hle hdrains)

theorem Works.ends {drains' reads' : Prop} (h : Works drains a b) (hdrains : drains' → drains)
    (hreads : reads' → reads) {result : Active × Upcall} (hends : Ends drains' reads' b result) :
    Ends drains reads a result := by
  cases hends with
  | stay hworks => exact .stay (h.trans hdrains hworks)
  | read hworks hread buffer => exact .read (h.trans hdrains hworks) (hreads hread) buffer
  | close hworks => exact .close (h.trans hdrains hworks)
  | report hworks => exact .report (h.trans hdrains hworks)

theorem Comes.ends {env : Env} {callback : Callback} {result : Active × Upcall}
    (h : Comes env a callback result) :
    Ends (a.Drains env callback) (∃ id, callback = .incoming id) a result := by
  have hask : Works (a.Drains env callback) a a.ask := Works.refl.ask
  cases h with
  | connecting _ _ => exact .stay (hask.await _ _ _)
  | opened _ => exact .stay hask.opens
  | cached _ _ _ => exact .stay (hask.cache _).opens
  | refused _ => exact .report (hask.cache none)
  | dropped _ _ => exact .close hask
  | waiting _ => exact .stay hask
  | read id _ buffer => exact .read hask ⟨id, rfl⟩ buffer
  | writing _ => exact .stay hask
  | written _ hresult => exact .stay ((hask.drain (.inr hresult)).reset .write)
  | empty _ hbuffer => exact .stay ((Works.refl.drain (.inl hbuffer)).reset .write)
  | closed _ _ => exact .close hask
  | failed _ _ => exact .report hask
  | ending _ _ => exact .stay ((Works.refl.setState (by simp)).ask.await _ _ _)
  | ended _ _ _ => exact .close (Works.refl.setState (by simp)).ask
  | raised _ =>
    split
    next => exact .report .refl
    next => exact .close .refl
  | server => exact .stay .refl
  | checker => exact .stay .refl

end Works

theorem handler_ends (env : Env) (a : Active) (callback : Callback) :
    Ends (a.Drains env callback) (∃ id, callback = .incoming id) a (a.handler env callback) :=
  (handler_comes env a callback).ends

theorem exception_ends (env : Env) (a : Active) : Ends False False a a.exception :=
  Works.refl.ends id (by simp) (exception_comes env a 0).ends

theorem shutdown_ends (env : Env) (a : Active) : Ends False False a (a.shutdown env) := by
  unfold shutdown
  split
  next =>
    exact ((Works.refl.reset .read).reset .write).ends id (by simp)
      (continueShutdown_comes env _ a.self.id).ends
  next => exact .stay .refl

theorem handshake_ends (env : Env) (a : Active) (id : Nat) :
    Ends False False a ((a.registerException (.exception id)).connect env) :=
  (Works.refl.register .exception _).ends (by simp [Drains]) (by simp) (connect_comes env _ id).ends

theorem send_works (a : Active) (request : Bytes) : a.send request = (false, a) ∨
    (a.self.socket ≠ none ∧ a.self.state ≠ .closed ∧ a.self.buffer = [] ∧
      ∃ b, Works False a b ∧ b.self.state = a.self.state ∧
        a.send request = (true, b.setBuffer request)) := by
  unfold send
  split
  next => exact .inl rfl
  next hguard =>
    simp only [not_or, not_and_or, not_not] at hguard
    have hstate : a.self.state ≠ .closed := by
      cases hguard.2 with
      | inl heq => simp [heq]
      | inr heq => simp [heq]
    split
    next hbuffer =>
      refine .inr ⟨hguard.1, hstate, hbuffer, ?_⟩
      dsimp only
      split
      next => exact ⟨_, Works.refl.register .write _, rfl, rfl⟩
      next => exact ⟨a, .refl, rfl, rfl⟩
    next => exact .inl rfl

theorem socket_of_send {a : Active} {request : Bytes} (h : (a.send request).1 = true) :
    a.self.socket ≠ none := by
  rcases send_works a request with hrefused | haccepted
  · rw [hrefused] at h
    contradiction
  · exact haccepted.1

section Keeps

variable {drains reads : Prop} {a b : Active}

structure Keeps (a b : Active) : Prop where
  id : b.self.id = a.self.id
  timeout : b.self.timeout = a.self.timeout
  session : b.self.session = a.self.session
  incoming : b.self.incoming = a.self.incoming
  hasShutdown : b.self.hasShutdown = a.self.hasShutdown
  forwarder : b.self.forwarder = a.self.forwarder

theorem Keeps.refl (a : Active) : Keeps a a := ⟨rfl, rfl, rfl, rfl, rfl, rfl⟩

theorem Works.keeps (h : Works drains a b) : Keeps a b := by
  induction h with
  | refl => exact .refl a
  | ask _ ih | cache _ _ ih | reset _ _ ih | register _ _ _ ih | setState _ _ ih | drain _ _ ih =>
    exact ⟨ih.id, ih.timeout, ih.session, ih.incoming, ih.hasShutdown, ih.forwarder⟩

theorem Works.socket (h : Works drains a b) : b.self.socket = a.self.socket := by
  induction h with
  | refl => rfl
  | ask _ ih | cache _ _ ih | reset _ _ ih | register _ _ _ ih | setState _ _ ih | drain _ _ ih =>
    exact ih

theorem Works.buffer (h : Works drains a b) :
    b.self.buffer = a.self.buffer ∨ drains ∧ b.self.buffer = [] := by
  induction h with
  | refl => exact .inl rfl
  | drain _ hdrains _ => exact .inr ⟨hdrains, rfl⟩
  | ask _ ih | cache _ _ ih | reset _ _ ih | register _ _ _ ih | setState _ _ ih => exact ih

theorem Keeps.close (h : Keeps a b) : Keeps a b.close.1 := by
  unfold Active.close
  split
  next => exact h
  next => exact ⟨h.id, h.timeout, h.session, h.incoming, h.hasShutdown, h.forwarder⟩

theorem close_buffer (a : Active) : a.close.1.self.buffer = a.self.buffer := by
  unfold close
  split
  next => rfl
  next => rfl

theorem close_upcall (a : Active) (buffer : Bytes) : a.close.2 ≠ .incoming buffer := by
  unfold close
  split
  next => simp
  next =>
    dsimp only
    split
    next => simp
    next => simp

theorem send_keeps (a : Active) (request : Bytes) : Keeps a (a.send request).2 := by
  rcases send_works a request with heq | ⟨-, -, -, b, hworks, -, heq⟩
  · rw [heq]
    exact .refl a
  · have h := hworks.keeps
    rw [heq]
    exact ⟨h.id, h.timeout, h.session, h.incoming, h.hasShutdown, h.forwarder⟩

theorem send_buffer {request : Bytes} (h : (a.send request).1 = true) :
    (a.send request).2.self.buffer = request := by
  rcases send_works a request with heq | ⟨-, -, -, b, -, -, heq⟩
  · rw [heq] at h
    contradiction
  · rw [heq]
    rfl

variable {result : Active × Upcall}

theorem Ends.keeps (h : Ends drains reads a result) : Keeps a result.1 := by
  cases h with
  | stay hworks => exact hworks.keeps
  | read hworks _ _ => exact hworks.keeps
  | close hworks => exact hworks.keeps.close
  | report hworks =>
    have h := hworks.keeps
    exact Keeps.close ⟨h.id, h.timeout, h.session, h.incoming, h.hasShutdown, h.forwarder⟩

theorem Ends.buffer (h : Ends drains reads a result) :
    result.1.self.buffer = a.self.buffer ∨ drains ∧ result.1.self.buffer = [] := by
  cases h with
  | stay hworks => exact hworks.buffer
  | read hworks _ _ => exact hworks.buffer
  | close hworks =>
    rw [close_buffer]
    exact hworks.buffer
  | report hworks =>
    rw [close_buffer]
    exact hworks.buffer

theorem Ends.upcall (h : Ends drains reads a result) {buffer : Bytes}
    (hread : result.2 = .incoming buffer) : reads := by
  cases h with
  | stay _ => contradiction
  | read _ hreads _ => exact hreads
  | close _ => exact absurd hread (close_upcall _ _)
  | report _ => exact absurd hread (close_upcall _ _)

theorem close_socket (a : Active) : a.close.1.self.socket = none := by
  unfold close
  split
  next h => exact h
  next => rfl

theorem Ends.ended (h : Ends drains reads a result) (hshutdown : result.2 = .shutdown) :
    result.1.self.socket = none := by
  cases h with
  | stay _ => contradiction
  | read _ _ _ => contradiction
  | close _ => exact close_socket _
  | report _ => exact close_socket _

end Keeps

end Dote.Active
