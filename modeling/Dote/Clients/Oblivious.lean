import Dote.Clients.Answers

/-! What a connection and its owner do without looking: the bytes of a request and the
addresses that its response is for. -/
namespace Dote

/-- Of the bytes that wait to be written only whether there are any. -/
def veilBuffer (buffer : Bytes) : Bytes := if buffer = [] then [] else [0, 0]

theorem veilBuffer_eq_nil (buffer : Bytes) : veilBuffer buffer = [] ↔ buffer = [] := by
  unfold veilBuffer
  split
  next h => simp [h]
  next h => simp [h]

def Requester.veil (requester : Requester) : Requester :=
  ⟨requester.socket, .unspec, .unspec, -1, requester.number⟩

def ForwarderConnection.veil (c : ForwarderConnection) : ForwarderConnection :=
  { c with
    incoming := c.incoming.map Requester.veil
    buffer := veilBuffer c.buffer }

def QueuedQuery.veil (query : QueuedQuery) : QueuedQuery :=
  ⟨query.requester.veil, veilBuffer query.request⟩

def Datagram.veil (datagram : Datagram) : Datagram :=
  ⟨datagram.requester.veil, 0, none, datagram.payload⟩

def Message.veil (message : Message) : Message where
  data := if message.data.length > 512 then List.replicate 513 0 else []
  client := .unspec
  server := .unspec
  interface := -1

def Env.veil (env : Env) : Env :=
  { env with receive tick := (env.receive tick).map Message.veil }

theorem response_veil (requester : Requester) (buffer : Bytes) :
    response requester.veil buffer = (response requester buffer).map Datagram.veil := by
  unfold response
  split
  next =>
    cases DnsPacket.removeEdnsPadding buffer with
    | none => rfl
    | some result => rfl
  next => rfl

namespace Active

def veil (a : Active) : Active := { a with self := a.self.veil }

variable (env : Env) (a : Active)

theorem reset_veil (kind : Kind) : (a.reset kind).veil = a.veil.reset kind := rfl

theorem ensure_veil (kind : Kind) (callback : Callback) :
    (a.ensure kind callback).veil = a.veil.ensure kind callback := by
  unfold ensure
  rw [apply_ite veil]
  rfl

theorem ensure_reset_veil (kind other : Kind) (callback : Callback) :
    ((a.ensure kind callback).reset other).veil = (a.veil.ensure kind callback).reset other := by
  rw [reset_veil, ensure_veil]

/-- What a call of OpenSSL or a handler gives besides the connection. -/
def veilResult {α : Type} (result : α × Active) : α × Active := (result.1, result.2.veil)

def veilHandled (result : Active × Upcall) : Active × Upcall := (result.1.veil, result.2)

theorem sslConnect_veil : veilResult (a.sslConnect env) = a.veil.sslConnect env.veil := by
  unfold sslConnect
  dsimp only
  rw [show doFunction (env.veil.ssl a.veil.world.tick) = doFunction (env.ssl a.world.tick) from rfl]
  generalize doFunction (env.ssl a.world.tick) = result
  cases result with
  | success =>
    change (Result.success, veil (if env.hasSession a.world.tick then _ else _)) =
      (Result.success, if env.hasSession a.world.tick then _ else _)
    rw [apply_ite veil]
    rfl
  | _ => rfl

theorem close_veil : veilHandled a.close = a.veil.close := by
  unfold close
  rw [show a.veil.self.socket = a.self.socket from rfl]
  cases a.self.socket with
  | none => rfl
  | some handle => rfl

theorem connect_veil : veilHandled (a.connect env) = a.veil.connect env.veil := by
  unfold connect
  rw [← sslConnect_veil]
  cases a.sslConnect env with
  | mk result a =>
    cases result with
    | needRead =>
      exact congrArg (·, Upcall.none) (ensure_reset_veil a .read .write (.connect a.self.id))
    | needWrite =>
      exact congrArg (·, Upcall.none) (ensure_reset_veil a .write .read (.connect a.self.id))
    | success =>
      let opened := ((a.reset .read).reset .write).registerRead (.incoming a.self.id)
      change (((if opened.self.buffer = [] then opened
          else opened.registerWrite (.outgoing a.self.id)).setState .opened).veil, Upcall.none) =
        ((if veilBuffer opened.self.buffer = [] then opened.veil
          else opened.veil.registerWrite (.outgoing a.self.id)).setState .opened, Upcall.none)
      simp only [veilBuffer_eq_nil]
      split
      next => rfl
      next => rfl
    | fatal => exact close_veil a.setBad
    | closed => exact close_veil a

theorem incoming_veil : veilHandled (a.incoming env) = a.veil.incoming env.veil := by
  unfold incoming sslRead
  rw [show env.veil.ssl a.veil.world.tick = env.ssl a.world.tick from rfl]
  generalize env.ssl a.world.tick = answer
  dsimp only
  cases doFunction answer with
  | success =>
    let buffer := answer.buffer.take answer.ret.toNat
    change (a.ask.veil, if buffer ≠ [] ∧ a.self.incoming.isSome then .incoming buffer else .none) =
      (a.ask.veil, if buffer ≠ [] ∧ (a.self.incoming.map Requester.veil).isSome then
        Upcall.incoming buffer else .none)
    simp only [Option.isSome_map]
  | fatal => exact close_veil a.ask.setBad
  | closed => exact close_veil a.ask
  | _ => rfl

theorem received_veil : a.veil.received env.veil = a.received env := by
  unfold received sslRead
  rw [show env.veil.ssl a.veil.world.tick = env.ssl a.world.tick from rfl]
  generalize env.ssl a.world.tick = answer
  dsimp only
  cases doFunction answer with
  | success => rfl
  | _ => rfl

theorem taken_veil (callback : Callback) :
    a.veil.taken env.veil callback = (a.taken env callback).map veilBuffer := by
  cases callback with
  | outgoing id =>
    change (if veilBuffer a.self.buffer ≠ [] ∧ doFunction (env.ssl a.world.tick) = .success then
        some (veilBuffer a.self.buffer) else none) =
      (if a.self.buffer ≠ [] ∧ doFunction (env.ssl a.world.tick) = .success then
        some a.self.buffer else none).map veilBuffer
    simp only [ne_eq, veilBuffer_eq_nil]
    split
    next => rfl
    next => rfl
  | _ => rfl

theorem continueShutdown_veil :
    veilHandled (a.continueShutdown env) = a.veil.continueShutdown env.veil := by
  unfold continueShutdown sslShutdown
  rw [show env.veil.ssl (a.veil.setState .shuttingDown).world.tick =
    env.ssl (a.setState .shuttingDown).world.tick from rfl]
  generalize doFunction (env.ssl (a.setState .shuttingDown).world.tick) = result
  let shutting := (a.setState .shuttingDown).ask
  cases result with
  | needRead =>
    exact congrArg (·, Upcall.none) (ensure_reset_veil shutting .read .write (.shutdown a.self.id))
  | needWrite =>
    exact congrArg (·, Upcall.none) (ensure_reset_veil shutting .write .read (.shutdown a.self.id))
  | _ => exact close_veil shutting

theorem shutdown_veil : veilHandled (a.shutdown env) = a.veil.shutdown env.veil := by
  unfold shutdown
  rw [show a.veil.self.state = a.self.state from rfl]
  split
  next => exact continueShutdown_veil env ((a.reset .read).reset .write)
  next => rfl

theorem send_veil (buffer : Bytes) :
    veilResult (a.send buffer) = a.veil.send (veilBuffer buffer) := by
  unfold send
  rw [show a.veil.self.socket = a.self.socket from rfl,
    show a.veil.self.state = a.self.state from rfl,
    show (a.veil.self.registration .write) = a.self.registration .write from rfl,
    show a.veil.self.buffer = veilBuffer a.self.buffer from rfl]
  simp only [veilBuffer_eq_nil]
  split
  next => rfl
  next =>
    split
    next =>
      split
      next => rfl
      next => rfl
    next => rfl

theorem sslWrite_veil (buffer : Bytes) :
    veilResult (a.sslWrite env buffer) = a.veil.sslWrite env.veil (veilBuffer buffer) := by
  unfold sslWrite
  simp only [veilBuffer_eq_nil]
  split
  next => rfl
  next => rfl

theorem outgoing_veil : veilHandled (a.outgoing env) = a.veil.outgoing env.veil := by
  unfold outgoing
  rw [show a.veil.self.buffer = veilBuffer a.self.buffer from rfl, ← sslWrite_veil]
  cases a.sslWrite env a.self.buffer with
  | mk result a =>
    cases result with
    | fatal => exact close_veil a.setBad
    | closed => exact close_veil a
    | _ => rfl

theorem exception_veil : veilHandled a.exception = a.veil.exception := by
  unfold exception
  rw [close_veil, apply_ite veil]
  rfl

theorem handler_veil (callback : Callback) :
    veilHandled (a.handler env callback) = a.veil.handler env.veil callback := by
  cases callback with
  | connect id => exact connect_veil env a
  | incoming id => exact incoming_veil env a
  | outgoing id => exact outgoing_veil env a
  | shutdown id => exact continueShutdown_veil env a
  | exception id => exact exception_veil a
  | handleDnsRequest => rfl
  | handleRead => rfl

end Active

theorem new_veil (env : Env) (id : Nat) (w : World) :
    (ForwarderConnection.new env id w).veil = ForwarderConnection.new env.veil id w := by
  unfold ForwarderConnection.new
  dsimp only
  rw [show env.veil.create w.tick = env.create w.tick from rfl]
  generalize env.create w.tick = created
  cases created with
  | false => rfl
  | true =>
    cases w.config.get with
    | none => rfl
    | some chosen =>
      dsimp only
      rw [show (w.ask.share .create).openHandle env.veil = (w.ask.share .create).openHandle env
        from rfl]
      cases (w.ask.share .create).openHandle env with
      | mk handle w =>
        cases handle with
        | none => rfl
        | some handle => exact congrArg Prod.fst (Active.connect_veil env _)

namespace ClientForwarders

def veil (s : ClientForwarders) : ClientForwarders :=
  { s with
    forwarders := s.forwarders.map ForwarderConnection.veil
    queue := s.queue.map QueuedQuery.veil
    started := s.started.map QueuedQuery.veil
    sent := s.sent.map Datagram.veil }

variable (env : Env) (s : ClientForwarders)

theorem find_veil (id : Nat) : s.veil.find id = (s.find id).map ForwarderConnection.veil :=
  List.find?_map

theorem put_veil (a : Active) : (s.put a).veil = s.veil.put a.veil := by
  have hforwarders : (s.forwarders.map fun c => if c.id = a.self.id then a.self else c).map
      ForwarderConnection.veil = (s.forwarders.map ForwarderConnection.veil).map
        fun c => if c.id = a.self.id then a.self.veil else c := by
    rw [List.map_map, List.map_map]
    refine List.map_congr_left fun c _ => ?_
    exact apply_ite ForwarderConnection.veil _ _ _
  unfold put veil
  rw [hforwarders]
  rfl

theorem trySend_veil (query : QueuedQuery) :
    ((s.trySend env query).1, (s.trySend env query).2.veil) =
      s.veil.trySend env.veil query.veil := by
  unfold trySend
  rw [show (ForwarderConnection.new env.veil s.veil.nextId s.veil.world).send query.veil.request =
    Active.veilResult ((ForwarderConnection.new env s.nextId s.world).send query.request) by
      rw [Active.send_veil, new_veil]; rfl]
  cases (ForwarderConnection.new env s.nextId s.world).send query.request with
  | mk accepted a =>
    cases accepted with
    | true =>
      simp [veil, Active.veilResult, Active.veil, ForwarderConnection.veil, QueuedQuery.veil]
    | false => simp [veil, Active.veilResult, Active.veil]

theorem sendQueued_veil (queue : List QueuedQuery) :
    ∀ (s : ClientForwarders) (query : QueuedQuery), (sendQueued env queue s query).veil =
      sendQueued env.veil (queue.map QueuedQuery.veil) s.veil query.veil := by
  induction queue with
  | nil =>
    intro s query
    have hsend := trySend_veil env { s with queue := [] } query
    rw [List.map_nil, sendQueued, sendQueued]
    rw [show { s.veil with queue := [] } = veil { s with queue := [] } from rfl, ← hsend]
    cases trySend env { s with queue := [] } query with
    | mk accepted s =>
      cases accepted with
      | true => rfl
      | false => rfl
  | cons front queue ih =>
    intro s query
    have hsend := trySend_veil env { s with queue := front :: queue } query
    rw [List.map_cons, sendQueued, sendQueued]
    rw [show { s.veil with queue := front.veil :: queue.map QueuedQuery.veil } =
      veil { s with queue := front :: queue } from rfl, ← hsend]
    cases trySend env { s with queue := front :: queue } query with
    | mk accepted s =>
      cases accepted with
      | true => rfl
      | false => exact ih s front

theorem sendRequest_veil (query : QueuedQuery) :
    (s.sendRequest env query).veil = s.veil.sendRequest env.veil query.veil :=
  sendQueued_veil env s.queue s query

theorem dequeue_veil : (s.dequeue env).veil = s.veil.dequeue env.veil := by
  unfold dequeue
  rw [show s.veil.queue = s.queue.map QueuedQuery.veil from rfl]
  cases s.queue with
  | nil => rfl
  | cons front queue => exact sendRequest_veil env { s with queue := queue } front

theorem handleRequest_veil (query : QueuedQuery) :
    (s.handleRequest env query).veil = s.veil.handleRequest env.veil query.veil := by
  unfold handleRequest
  rw [show s.veil.forwarders = s.forwarders.map ForwarderConnection.veil from rfl, List.length_map,
    show s.veil.maxConnections = s.maxConnections from rfl]
  split
  next => exact sendRequest_veil env s query
  next => simp [veil]

theorem handleShutdown_veil (id : Nat) :
    (s.handleShutdown env id).veil = s.veil.handleShutdown env.veil id := by
  have herase : (s.forwarders.eraseP (·.id = id)).map ForwarderConnection.veil =
      (s.forwarders.map ForwarderConnection.veil).eraseP (·.id = id) := by
    rw [List.eraseP_map]
    rfl
  unfold handleShutdown
  rw [dequeue_veil, veil, herase]
  rfl

theorem handleIncoming_veil (requester : Requester) (buffer : Bytes) :
    (s.handleIncoming requester buffer).veil = s.veil.handleIncoming requester.veil buffer := by
  unfold handleIncoming
  rw [response_veil]
  cases response requester buffer with
  | none => simp [veil]
  | some datagram => simp [veil]

theorem upcall_veil (c : ForwarderConnection) (upcall : Upcall) :
    (s.upcall env c upcall).veil = s.veil.upcall env.veil c.veil upcall := by
  cases upcall with
  | none => rfl
  | shutdown => exact handleShutdown_veil env s c.id
  | incoming buffer =>
    unfold ClientForwarders.upcall
    dsimp only
    rw [show c.veil.incoming = c.incoming.map Requester.veil from rfl]
    cases c.incoming with
    | none => rfl
    | some requester =>
      dsimp only [Option.map_some]
      rw [← handleIncoming_veil]
      have hshutdown := Active.shutdown_veil env ⟨c, (s.handleIncoming requester buffer).world⟩
      rw [show (Active.mk c.veil (s.handleIncoming requester buffer).veil.world) =
        Active.veil ⟨c, (s.handleIncoming requester buffer).world⟩ from rfl, ← hshutdown]
      cases Active.shutdown env ⟨c, (s.handleIncoming requester buffer).world⟩ with
      | mk a upcall =>
        cases upcall with
        | none => exact put_veil _ a
        | shutdown => rw [handleShutdown_veil, put_veil]; rfl
        | incoming buffer => exact put_veil _ a

theorem call_veil (id : Nat) (callback : Callback) :
    (s.call env id callback).veil = s.veil.call env.veil id callback := by
  unfold call
  rw [find_veil]
  cases s.find id with
  | none => rfl
  | some c =>
    dsimp only [Option.map_some]
    rw [show Active.mk c.veil s.veil.world = Active.veil ⟨c, s.world⟩ from rfl,
      ← Active.handler_veil]
    cases Active.handler env ⟨c, s.world⟩ callback with
    | mk a upcall =>
      dsimp only [Active.veilHandled]
      rw [upcall_veil, put_veil]
      rfl

theorem readBy_veil (callback : Callback) :
    s.veil.readBy env.veil callback = s.readBy env callback := by
  cases callback with
  | incoming id =>
    unfold readBy
    dsimp only
    rw [find_veil]
    cases s.find id with
    | none => rfl
    | some c =>
      exact congrArg (fun bytes => bytes.toList.map (id, ·))
        (Active.received_veil env ⟨c, s.world⟩)
  | _ => rfl

theorem writtenBy_veil (callback : Callback) : s.veil.writtenBy callback =
    (s.writtenBy callback).map fun piece => (piece.1, veilBuffer piece.2) := by
  cases callback with
  | outgoing id =>
    unfold writtenBy
    dsimp only
    rw [find_veil]
    cases s.find id with
    | none => rfl
    | some c =>
      have hbuffer : veilBuffer c.buffer = [] ↔ c.buffer = [] := veilBuffer_eq_nil c.buffer
      by_cases hempty : c.buffer = []
      · simp [ForwarderConnection.veil, hempty, veilBuffer]
      · simp [ForwarderConnection.veil, hempty, hbuffer]
  | _ => rfl

theorem takenBy_veil (callback : Callback) : s.veil.takenBy env.veil callback =
    (s.takenBy env callback).map fun piece => (piece.1, veilBuffer piece.2) := by
  cases callback with
  | outgoing id =>
    unfold takenBy
    dsimp only
    rw [find_veil]
    cases s.find id with
    | none => rfl
    | some c =>
      dsimp only [Option.map_some, Option.bind_some]
      rw [show Active.mk c.veil s.veil.world = Active.veil ⟨c, s.world⟩ from rfl,
        Active.taken_veil]
      cases Active.taken env ⟨c, s.world⟩ (.outgoing id) with
      | none => rfl
      | some buffer => rfl
  | _ => rfl

end ClientForwarders

end Dote
