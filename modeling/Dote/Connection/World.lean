import Dote.Connection.Shared
import Dote.Loop.Registry

/-! What a connection works with: OpenSSL, the sockets, the loop, and the state
that it shares with the other connections. -/
namespace Dote
open Config

/-- `SSL_get_error`. -/
inductive SslError where
  | wantRead
  | wantWrite
  | zeroReturn
  | other
deriving DecidableEq, Repr

/-- What an SSL function returns, the error behind it, and what it has put into
the buffer it was given. -/
structure SslAnswer where
  ret : Int
  error : SslError
  buffer : Bytes
deriving DecidableEq, Repr

inductive Result where
  | needRead
  | needWrite
  | success
  | fatal
  | closed
deriving DecidableEq, Repr

def doFunction (answer : SslAnswer) : Result :=
  if answer.ret > 0 then .success
  else if answer.ret = 0 then .closed
  else
    match answer.error with
    | .wantRead => .needRead
    | .wantWrite => .needWrite
    | .zeroReturn => .closed
    | .other => .fatal

/-- What `recvmsg` delivers on a server socket. -/
structure Message where
  data : Bytes
  client : SockAddr
  server : SockAddr
  interface : Int
deriving DecidableEq, Repr

/-- The outside. Its answers may depend on how much it was asked before. `reload`
are the valid configurations that a change of the files leads to. -/
structure Env where
  time : Nat → Int
  create : Nat → Bool
  socket : Nat → Option Int
  ssl : Nat → SslAnswer
  hasSession : Nat → Bool
  receive : Nat → Option Message
  reload : Nat → List (List Forwarder)

/-- The functions that are registered with the loop, for the connection with a
number or for the two other users of the loop. -/
inductive Callback where
  | connect (id : Nat)
  | incoming (id : Nat)
  | outgoing (id : Nat)
  | shutdown (id : Nat)
  | exception (id : Nat)
  | handleDnsRequest
  | handleRead
deriving DecidableEq, Repr

def Callback.owner : Callback → Option Nat
  | .connect id => some id
  | .incoming id => some id
  | .outgoing id => some id
  | .shutdown id => some id
  | .exception id => some id
  | .handleDnsRequest => none
  | .handleRead => none

/-- `handles` are the open file descriptors, `tick` counts the questions to the
outside. -/
structure World where
  loop : Loop Callback
  sharing : Sharing
  handles : List Int
  tick : Nat

namespace World

def config (w : World) : ForwarderConfig := w.sharing.state.config

def session (w : World) : Option Forwarder := w.sharing.state.session

def share (w : World) (op : Shared.Op) : World := { w with sharing := w.sharing.apply op }

def ask (w : World) : World := { w with tick := w.tick + 1 }

/-- `Socket::connect`, `Socket::bind` and `inotify_init1`: a new descriptor never
has the number of an open one. -/
def openHandle (env : Env) (w : World) : Option Int × World :=
  match env.socket w.tick with
  | some handle =>
    if handle ∈ w.handles then (none, w.ask)
    else (some handle, { w.ask with handles := handle :: w.handles })
  | none => (none, w.ask)

def close (w : World) (handle : Int) : World := { w with handles := w.handles.erase handle }

theorem openHandle_cases (env : Env) (w : World) :
    (∃ handle, env.socket w.tick = some handle ∧ handle ∉ w.handles ∧
      w.openHandle env = (some handle, { w.ask with handles := handle :: w.handles })) ∨
    (env.socket w.tick).any (· ∉ w.handles) = false ∧ w.openHandle env = (none, w.ask) := by
  unfold openHandle
  split
  next handle hsocket =>
    split
    next hopen => exact .inr ⟨by simp [hsocket, hopen], rfl⟩
    next hfresh => exact .inl ⟨handle, hsocket, hfresh, rfl⟩
  next hnone => exact .inr ⟨by simp [hnone], rfl⟩

theorem openHandle_some {env : Env} {w w' : World} {handle : Int}
    (h : w.openHandle env = (some handle, w')) :
    handle ∉ w.handles ∧ w'.loop = w.loop ∧ w'.handles = handle :: w.handles := by
  rcases openHandle_cases env w with ⟨_, -, hfresh, heq⟩ | ⟨-, heq⟩
  · cases h.symm.trans heq
    exact ⟨hfresh, rfl, rfl⟩
  · cases h.symm.trans heq

theorem openHandle_socket {env : Env} {w w' : World} {handle : Int}
    (h : w.openHandle env = (some handle, w')) : env.socket w.tick = some handle := by
  rcases openHandle_cases env w with ⟨_, hsocket, -, heq⟩ | ⟨-, heq⟩
  · cases h.symm.trans heq
    exact hsocket
  · cases h.symm.trans heq

theorem openHandle_none {env : Env} {w w' : World} (h : w.openHandle env = (none, w')) :
    w'.loop = w.loop ∧ w'.handles = w.handles := by
  rcases openHandle_cases env w with ⟨_, -, -, heq⟩ | ⟨-, heq⟩
  · cases h.symm.trans heq
  · cases h.symm.trans heq
    exact ⟨rfl, rfl⟩

end World

end Dote
