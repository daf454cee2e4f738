import Dote.Clients.Evolution
import Dote.Loop.Watching

/-! The program: `Dote` with its `Server`, and the `VyattaCheck` that `main` adds
on Linux, around the loop. -/
namespace Dote
open Config

/-- `server` are the sockets of `m_server` with their registrations, `checker` is
the descriptor of `VyattaCheck`. `received` counts the requests. -/
structure Program where
  clients : ClientForwarders
  server : Option (List (Int × Registration))
  checker : Option (Int × Registration)
  received : Nat

def DNS_BUFFER : Nat := 512

def frame (data : Bytes) : Bytes :=
  UInt8.ofNat (data.length / 256) :: UInt8.ofNat (data.length % 256) :: data

/-- A registration that is reset, and its descriptor closed. A server socket that
requests still hold is closed with the last of them; here its number is free at
once. -/
def World.release (w : World) (socket : Int × Registration) : World :=
  World.close { w with loop := (w.loop.reset socket.2).2 } socket.1

namespace Program

def world (p : Program) : World := p.clients.world

def loop (p : Program) : Loop Callback := p.world.loop

def setWorld (p : Program) (world : World) : Program :=
  { p with clients := { p.clients with world := world } }

def sockets (p : Program) : List (Int × Registration) := p.server.getD []

def handleDnsRequest (env : Env) (handle : Int) (p : Program) : Program :=
  if p.sockets.any (·.1 = handle) then
    let received := env.receive p.world.tick
    let p := p.setWorld p.world.ask
    match received with
    | none => p
    | some message =>
      if message.data.length > DNS_BUFFER then p
      else
        let requester := ⟨handle, message.client, message.server, message.interface, p.received⟩
        { p with
          clients := p.clients.handleRequest env ⟨requester, frame message.data⟩
          received := p.received + 1 }
  else p

def setForwarders (p : Program) (forwarders : List Forwarder) : Program :=
  p.setWorld (p.world.share (.setForwarders forwarders))

def handleRead (env : Env) (p : Program) : Program :=
  (env.reload p.world.tick).foldl setForwarders (p.setWorld p.world.ask)

def call (env : Env) (callback : Callback) (handle : Int) (p : Program) : Program :=
  match callback with
  | .connect id => { p with clients := p.clients.call env id callback }
  | .incoming id => { p with clients := p.clients.call env id callback }
  | .outgoing id => { p with clients := p.clients.call env id callback }
  | .shutdown id => { p with clients := p.clients.call env id callback }
  | .exception id => { p with clients := p.clients.call env id callback }
  | .handleDnsRequest => p.handleDnsRequest env handle
  | .handleRead => p.handleRead env

def shutdown (p : Program) : Program :=
  { p.setWorld (p.sockets.foldl World.release p.world) with server := none }

/-- `Server::addServer`. Whether the address can be bound is for the outside to
say. -/
def addServer (env : Env) (p : Program) : Bool × Program :=
  match p.world.openHandle env with
  | (none, w) => (false, p.setWorld w)
  | (some handle, w) =>
    let (registration, loop) := w.loop.registerRead handle .handleDnsRequest 0
    (true, { p.setWorld { w with loop := loop } with
      server := some (p.sockets ++ [(handle, registration)]) })

/-- The loop of `Dote::listen`. -/
def addServers (env : Env) : List SockAddr → Program → Bool × Program
  | [], p => (true, p)
  | _ :: servers, p =>
    let (added, p) := p.addServer env
    let (result, p) := addServers env servers p
    (added && result, p)

def listen (env : Env) (servers : List SockAddr) (p : Program) : Bool × Program :=
  match addServers env servers { p with server := some [] } with
  | (true, p) => (true, p)
  | (false, p) => (false, p.shutdown)

/-- `VyattaCheck::VyattaCheck` and `configure`; `watched` is whether
`inotify_add_watch` finds the directory. -/
def configure (env : Env) (watched : Bool) (p : Program) : Program :=
  match p.world.openHandle env with
  | (none, w) => p.setWorld w
  | (some handle, w) =>
    if watched then
      let (registration, loop) := w.loop.registerRead handle .handleRead 0
      { p.setWorld { w with loop := loop } with checker := some (handle, registration) }
    else p.setWorld (w.close handle)

/-- `Dote::Dote`, with the descriptors that are open already. -/
def new (config : ConfigParser) (handles : List Int) : Program :=
  let forwarders := config.forwarders.foldl ForwarderConfig.addForwarder ForwarderConfig.new.clear
  let world : World := ⟨.new, .new (forwarders.setTimeout config.timeout), handles, 0⟩
  ⟨.new world config.maxConnections, none, none, 0⟩

/-- `main` up to `Dote::run`, unless a server cannot be bound. -/
def start (env : Env) (config : ConfigParser) (handles : List Int) (watched : Bool) :
    Option Program :=
  match (new config handles).listen env config.servers with
  | (true, p) => some (p.configure env watched)
  | (false, _) => none

/-- A reload changes the world alone, and of the world neither the loop nor the
descriptors. -/
theorem handleRead_eq (env : Env) (p : Program) : ∃ w : World,
    p.handleRead env = p.setWorld w ∧ w.loop = p.loop ∧ w.handles = p.world.handles := by
  have hfold : ∀ (reloads : List (List Forwarder)) (w : World), ∃ w' : World,
      reloads.foldl setForwarders (p.setWorld w) = p.setWorld w' ∧ w'.loop = w.loop ∧
        w'.handles = w.handles := by
    intro reloads
    induction reloads with
    | nil => exact fun w => ⟨w, rfl, rfl, rfl⟩
    | cons forwarders reloads ih => exact fun w => ih (w.share (.setForwarders forwarders))
  exact hfold (env.reload p.world.tick) p.world.ask

theorem handleRead_loop (env : Env) (p : Program) : (p.handleRead env).loop = p.loop := by
  obtain ⟨w, heq, hloop, -⟩ := p.handleRead_eq env
  rw [heq]
  exact hloop

theorem handleDnsRequest_evolves (p : Program) (env : Env) (handle : Int) :
    p.loop.Evolves (p.handleDnsRequest env handle).loop := by
  unfold handleDnsRequest
  split
  next =>
    dsimp only
    split
    next => exact .refl
    next message _ =>
      split
      next => exact .refl
      next => exact (p.setWorld p.world.ask).clients.handleRequest_evolves env _
  next => exact .refl

theorem call_evolves (env : Env) (callback : Callback) (handle : Int) (p : Program) :
    p.loop.Evolves (p.call env callback handle).loop := by
  cases callback with
  | connect id => exact p.clients.call_evolves env id _
  | incoming id => exact p.clients.call_evolves env id _
  | outgoing id => exact p.clients.call_evolves env id _
  | shutdown id => exact p.clients.call_evolves env id _
  | exception id => exact p.clients.call_evolves env id _
  | handleDnsRequest => exact p.handleDnsRequest_evolves env handle
  | handleRead =>
    rw [call, handleRead_loop]
    exact .refl

def machine (env : Env) : Machine Program Callback := ⟨loop, call env, call_evolves env⟩

/-- What can happen next: a task of the loop, or the shutdown signal, which is
delivered between two tasks or while `poll` waits. -/
inductive Event where
  | task (now : Int) (revents : Int → PollEvents)
  | signal
  | interrupt

/-- `shutdownHandler` runs in the middle of the program. A `poll` that it
interrupts returns -1. -/
def step (env : Env) (r : Running Program) : Event → Running Program
  | .task now revents => (machine env).step r ⟨now, some revents⟩
  | .signal => { r with state := r.state.shutdown }
  | .interrupt =>
    let r := { r with state := r.state.shutdown }
    if Machine.Polls r then (machine env).step r ⟨0, none⟩ else r

namespace Sample

def address : SockAddr := ⟨.inet, 53, [127, 0, 0, 1]⟩

def config : ConfigParser :=
  { ConfigParser.new with
    servers := [address]
    forwarders := [⟨⟨.inet, 853, [1, 1, 1, 1]⟩, true, [], []⟩]
    maxConnections := 1
    timeout := 5 }

/-- Every datagram is a request, and every call of OpenSSL ends alike. -/
def env (answer : SslAnswer) : Env where
  time _ := 100
  create _ := true
  socket tick := some (3 + tick)
  ssl _ := answer
  hasSession _ := true
  receive _ := some ⟨[0, 1], address, .unspec, -1⟩
  reload _ := []

def stuck : SslAnswer := ⟨-1, .wantRead, []⟩

def done : SslAnswer := ⟨1, .other, []⟩

theorem start_isSome (answer : SslAnswer) (watched : Bool) :
    (start (env answer) config [0, 1, 2] watched).isSome = true := by
  cases watched <;> rfl

def program (answer : SslAnswer) (watched : Bool) : Program :=
  (start (env answer) config [0, 1, 2] watched).get (start_isSome answer watched)

theorem start_eq (answer : SslAnswer) (watched : Bool) :
    start (env answer) config [0, 1, 2] watched = some (program answer watched) :=
  (Option.some_get _).symm

def task (now : Int) (readable : List Int) : Event :=
  .task now fun handle => if handle ∈ readable then POLLIN else 0

/-- A request arrives at the server and is sent on. The next task is a poll. -/
def busy : List Event :=
  [task 100 [], task 100 [], task 100 [], task 100 [], task 100 [3], task 100 [], task 100 [],
    task 100 [], task 100 [], task 100 []]

end Sample

end Program

end Dote
