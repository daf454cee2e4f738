import Dote.Connection.World

/-! `ForwarderConnection`: one TLS connection to the first forwarder, for one
request. Its callbacks into the owner are the last thing that a handler does, so
a handler says which one it makes and the owner goes on from there. -/
namespace Dote
open Config

inductive State where
  | connecting
  | opened
  | shuttingDown
  | closed
deriving DecidableEq, Repr

/-- Whom a response is for; `number` counts the requests. -/
structure Requester where
  socket : Int
  client : SockAddr
  server : SockAddr
  interface : Int
  number : Nat
deriving DecidableEq, Repr

/-- `session` is the session of the `SslConnection`; `incoming` is what the
incoming callback captures, and `hasShutdown` whether there is a shutdown
callback. `registration` are `m_read`, `m_write` and `m_exception`. -/
structure ForwarderConnection where
  id : Nat
  timeout : Int
  session : Option Forwarder
  incoming : Option Requester
  hasShutdown : Bool
  state : State
  socket : Option Int
  registration : Kind → Registration
  buffer : Bytes
  forwarder : Forwarder

/-- The callback into the owner that a handler ends with. -/
inductive Upcall where
  | none
  | incoming (buffer : Bytes)
  | shutdown
deriving DecidableEq, Repr

structure Active where
  self : ForwarderConnection
  world : World

namespace Active

/-- `m_socket->get()`. -/
def handle (a : Active) : Int := a.self.socket.getD (-1)

def setState (a : Active) (state : State) : Active :=
  { a with self := { a.self with state := state } }

def setBuffer (a : Active) (buffer : Bytes) : Active :=
  { a with self := { a.self with buffer := buffer } }

def share (a : Active) (op : Shared.Op) : Active := { a with world := a.world.share op }

def setBad (a : Active) : Active := a.share (.setBad a.self.forwarder)

def setRegistration (a : Active) (kind : Kind) (registration : Registration)
    (loop : Loop Callback) : Active where
  self := { a.self with
    registration := fun other => if other = kind then registration else a.self.registration other }
  world := { a.world with loop := loop }

/-- A registration with the loop, assigned to the member of that kind. An
exception has no deadline. -/
def register (a : Active) (kind : Kind) (callback : Callback) : Active :=
  let timeout := if kind = .exception then 0 else a.self.timeout
  let (temporary, loop) := a.world.loop.register kind a.handle callback timeout
  let (registration, loop) := loop.assign (a.self.registration kind) temporary
  a.setRegistration kind registration loop

def registerRead (a : Active) (callback : Callback) : Active := a.register .read callback
def registerWrite (a : Active) (callback : Callback) : Active := a.register .write callback
def registerException (a : Active) (callback : Callback) : Active := a.register .exception callback

def reset (a : Active) (kind : Kind) : Active :=
  let (registration, loop) := a.world.loop.reset (a.self.registration kind)
  a.setRegistration kind registration loop

/-- `if (!m_read) m_read = ...`, for either kind. -/
def ensure (a : Active) (kind : Kind) (callback : Callback) : Active :=
  if (a.self.registration kind).valid then a else a.register kind callback

def ask (a : Active) : Active := { a with world := a.world.ask }

def sslConnect (env : Env) (a : Active) : Result × Active :=
  let tick := a.world.tick
  let result := doFunction (env.ssl tick)
  let a := a.ask
  match result with
  | .success =>
    (result, if env.hasSession tick then a.share (.cacheSession (some a.self.forwarder)) else a)
  | .fatal => (result, a.share (.cacheSession none))
  | _ => (result, a)

def sslRead (env : Env) (a : Active) : Result × Bytes × Active :=
  let answer := env.ssl a.world.tick
  match doFunction answer with
  | .success => (.success, answer.buffer.take answer.ret.toNat, a.ask)
  | result => (result, [], a.ask)

def sslWrite (env : Env) (a : Active) (buffer : Bytes) : Result × Active :=
  if buffer = [] then (.success, a)
  else (doFunction (env.ssl a.world.tick), a.ask)

def sslShutdown (env : Env) (a : Active) : Result × Active :=
  (doFunction (env.ssl a.world.tick), a.ask)

def close (a : Active) : Active × Upcall :=
  match a.self.socket with
  | none => (a, .none)
  | some handle =>
    let a := ((a.reset .read).reset .write).reset .exception
    ({ self := { a.self with state := .closed, socket := none }
       world := a.world.close handle },
      if a.self.hasShutdown then .shutdown else .none)

def connect (env : Env) (a : Active) : Active × Upcall :=
  match a.sslConnect env with
  | (.needRead, a) => ((a.ensure .read (.connect a.self.id)).reset .write, .none)
  | (.needWrite, a) => ((a.ensure .write (.connect a.self.id)).reset .read, .none)
  | (.success, a) =>
    let a := (a.reset .read).reset .write
    let a := a.registerRead (.incoming a.self.id)
    let a := if a.self.buffer = [] then a else a.registerWrite (.outgoing a.self.id)
    (a.setState .opened, .none)
  | (.fatal, a) => a.setBad.close
  | (.closed, a) => a.close

def incoming (env : Env) (a : Active) : Active × Upcall :=
  match a.sslRead env with
  | (.needRead, _, a) => (a, .none)
  | (.needWrite, _, a) => (a, .none)
  | (.success, buffer, a) =>
    (a, if buffer ≠ [] ∧ a.self.incoming.isSome then .incoming buffer else .none)
  | (.fatal, _, a) => a.setBad.close
  | (.closed, _, a) => a.close

/-- `ForwarderConnection::_shutdown`. -/
def continueShutdown (env : Env) (a : Active) : Active × Upcall :=
  match (a.setState .shuttingDown).sslShutdown env with
  | (.needRead, a) => ((a.ensure .read (.shutdown a.self.id)).reset .write, .none)
  | (.needWrite, a) => ((a.ensure .write (.shutdown a.self.id)).reset .read, .none)
  | (.closed, a) => a.close
  | (.success, a) => a.close
  | (.fatal, a) => a.close

def shutdown (env : Env) (a : Active) : Active × Upcall :=
  if a.self.state = .connecting ∨ a.self.state = .opened then
    ((a.reset .read).reset .write).continueShutdown env
  else (a, .none)

def send (a : Active) (buffer : Bytes) : Bool × Active :=
  if a.self.socket = none ∨ (a.self.state ≠ .connecting ∧ a.self.state ≠ .opened) then (false, a)
  else if a.self.buffer = [] then
    let a :=
      if a.self.state = .opened ∧ ¬ (a.self.registration .write).valid then
        a.registerWrite (.outgoing a.self.id)
      else a
    (true, a.setBuffer buffer)
  else (false, a)

def outgoing (env : Env) (a : Active) : Active × Upcall :=
  match a.sslWrite env a.self.buffer with
  | (.needRead, a) => (a, .none)
  | (.needWrite, a) => (a, .none)
  | (.success, a) => ((a.setBuffer []).reset .write, .none)
  | (.fatal, a) => a.setBad.close
  | (.closed, a) => a.close

def exception (a : Active) : Active × Upcall :=
  (if a.self.state = .connecting then a.setBad else a).close

def handler (env : Env) (a : Active) : Callback → Active × Upcall
  | .connect _ => a.connect env
  | .incoming _ => a.incoming env
  | .outgoing _ => a.outgoing env
  | .shutdown _ => a.continueShutdown env
  | .exception _ => a.exception
  | .handleDnsRequest => (a, .none)
  | .handleRead => (a, .none)

end Active

namespace ForwarderConnection

/-- The constructor. The session is taken with the connection, before the
forwarder is chosen; there are no callbacks yet. -/
def new (env : Env) (id : Nat) (w : World) : Active :=
  let timeout := env.time w.tick + w.config.timeout
  let created := env.create w.tick
  let session := if created then w.session else none
  let unset : ForwarderConnection :=
    ⟨id, timeout, session, none, false, .connecting, none, fun _ => .moved, [], .empty⟩
  match created, w.config.get with
  | true, some chosen =>
    let self := { unset with forwarder := chosen }
    match (w.ask.share .create).openHandle env with
    | (some handle, w) =>
      let a := Active.mk { self with socket := some handle } w
      ((a.registerException (.exception id)).connect env).1
    | (none, w) => (Active.mk self w).setBad.setState .closed
  | _, _ => ⟨{ unset with state := .closed }, w.ask⟩

end ForwarderConnection

end Dote
