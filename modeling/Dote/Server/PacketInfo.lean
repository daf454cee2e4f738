import Dote.Library.ControlMessage
import Dote.Server.Responses

/-! The control messages at both ends: where a request came in, and where its response
leaves from. -/
namespace Dote.PacketInfo
open Config Library ControlMessage

def SOL_IP : Nat := 0
def IP_PKTINFO : Nat := 8
def IPPROTO_IP : Nat := 0
def IPPROTO_IPV6 : Nat := 41
def IPV6_RECVPKTINFO : Nat := 49
def IPV6_PKTINFO : Nat := 50

def toInt (value : Nat) : Int := if value < 2 ^ 31 then value else value - 2 ^ 32
def ofInt (value : Int) : Nat := (value % 2 ^ 32).toNat

/-- `dstAddr` and `ifIndex`. -/
structure Destination where
  family : Family
  addr : Bytes
  ifIndex : Int
deriving DecidableEq, Repr

section

variable (order : ByteOrder)

/-- The comparison of `cmsg_level` and `cmsg_type`. -/
def isOf (buf : Bytes) (it level type : Nat) : Logged Access Bool := do
  let cmsgLevel ← numberAt order buf (it + 8) 4
  if cmsgLevel = level then do
    let cmsgType ← numberAt order buf (it + 12) 4
    pure (cmsgType == type)
  else pure false

/-- The block for an `in_pktinfo`: the interface, the local address and the one of the
header. -/
def takePktInfo (buf : Bytes) (it : Nat) (dst : Destination) : Logged Access Destination := do
  let found ← isOf order buf it SOL_IP IP_PKTINFO
  if found then do
    let addr ← bytesAt buf (it + 24) 4
    let ifindex ← numberAt order buf (it + 16) 4
    pure ⟨.inet, addr, toInt ifindex⟩
  else pure dst

/-- The block for an `in6_pktinfo`: the address and the interface. -/
def takePktInfo6 (buf : Bytes) (it : Nat) (dst : Destination) : Logged Access Destination := do
  let found ← isOf order buf it IPPROTO_IPV6 IPV6_RECVPKTINFO
  if found then do
    let addr ← bytesAt buf (it + 16) 16
    let ifindex ← numberAt order buf (it + 32) 4
    pure ⟨.inet6, addr, toInt ifindex⟩
  else pure dst

def inspect (buf : Bytes) (it : Nat) (dst : Destination) : Logged Access Destination := do
  let dst ← takePktInfo order buf it dst
  takePktInfo6 order buf it dst

/-- `getDestinationAddress`, of a message with that control data. -/
def getDestinationAddress (buf : Bytes) (controllen : Nat) : Logged Access Destination :=
  walk order buf controllen (inspect order buf) (controllen + 1) (hdrAt controllen 0)
    ⟨.unspec, [], -1⟩

def poke (buf : Bytes) (offset : Nat) (part : Bytes) : Bytes :=
  buf.take offset ++ (part ++ buf.drop (offset + part.length))

def startMessage (buf : Bytes) (level type length : Nat) : Bytes :=
  let buf := poke buf 8 (order.encode 4 level)
  let buf := poke buf 12 (order.encode 4 type)
  let buf := poke buf 0 (order.encode 8 (headerSize + length))
  poke buf headerSize (List.replicate length 0)

/-- `addSourceAddress`: the control data, and `msg_controllen`. -/
def addSourceAddress (buf : Bytes) (server : SockAddr) (interface : Int) : Bytes × Nat :=
  match server.family with
  | .inet6 =>
    let buf := startMessage order buf IPPROTO_IPV6 IPV6_PKTINFO 20
    let buf := poke buf 16 server.addr
    (poke buf 32 (order.encode 4 (ofInt interface)), headerSize + 20)
  | .inet =>
    let buf := startMessage order buf IPPROTO_IP IP_PKTINFO 12
    let buf := poke buf 20 server.addr
    (poke buf 16 (order.encode 4 (ofInt interface)), headerSize + 12)
  | .unspec => (buf, 0)

/-- The control data of `sendmsg`, over whatever the buffer has in it. -/
def control (requester : Requester) (buf : Bytes) : Bytes × Nat :=
  if requester.interface ≠ -1 then
    addSourceAddress order buf requester.server requester.interface
  else (buf, 0)

end

def IsPktInfo (m : ControlMessage) : Prop := m.level.toNat = SOL_IP ∧ m.type.toNat = IP_PKTINFO

instance (m : ControlMessage) : Decidable (IsPktInfo m) := inferInstanceAs (Decidable (_ ∧ _))

/-- A message as the kernel delivers it: an `in_pktinfo` is whole, and over IPv6 the type
is `IPV6_PKTINFO`, never the name of the option that asks for it. -/
structure FromKernel (m : ControlMessage) : Prop where
  pktInfo : IsPktInfo m → m.data.length = 12
  pktInfo6 : m.level.toNat = IPPROTO_IPV6 → m.type.toNat ≠ IPV6_RECVPKTINFO

/-- The interface, and the address in the header of the datagram. -/
def pktInfo (order : ByteOrder) (m : ControlMessage) : Option (Int × Bytes) :=
  if IsPktInfo m then some (toInt (order.value (m.data.take 4)), m.data.drop 8) else none

section

variable {order : ByteOrder} {buf : Bytes} {len : Nat} {before : Bytes} {m : ControlMessage}

theorem isOf_gives (h : Delivered order buf len before m) (level type : Nat) :
    (isOf order buf before.length level type).Gives (Access.Inside len)
      (decide (m.level.toNat = level ∧ m.type.toNat = type)) := by
  refine h.level.bind ?_
  split
  next hlevel =>
    refine h.type.bind ?_
    have hsame : (m.type.toNat == type) =
        decide (m.level.toNat = level ∧ m.type.toNat = type) := by
      rw [Bool.eq_iff_iff, beq_iff_eq, decide_eq_true_iff, hlevel]
      simp
    rw [hsame]
    exact Logged.gives_pure _
  next hlevel =>
    rw [decide_eq_false fun hboth => hlevel hboth.1]
    exact Logged.gives_pure false

theorem takePktInfo6_gives (h : Delivered order buf len before m) (hkernel : FromKernel m)
    (dst : Destination) :
    (takePktInfo6 order buf before.length dst).Gives (Access.Inside len) dst := by
  refine (isOf_gives h IPPROTO_IPV6 IPV6_RECVPKTINFO).bind ?_
  rw [decide_eq_false fun hboth => hkernel.pktInfo6 hboth.1 hboth.2]
  exact Logged.gives_pure dst

theorem takePktInfo_gives (h : Delivered order buf len before m) (hkernel : FromKernel m)
    (dst : Destination) :
    (takePktInfo order buf before.length dst).Gives (Access.Inside len)
      (((pktInfo order m).map fun info => ⟨.inet, info.2, info.1⟩).getD dst) := by
  refine (isOf_gives h SOL_IP IP_PKTINFO).bind ?_
  change Logged.Gives _ (if decide (IsPktInfo m) = true then _ else _) _
  by_cases hinfo : IsPktInfo m
  · have hlength := hkernel.pktInfo hinfo
    rw [pktInfo, if_pos hinfo, if_pos (decide_eq_true hinfo)]
    have haddr := h.part (m.data.take 8) (m.data.drop 8) [] (by
      rw [List.append_nil, List.take_append_drop])
    have hindex := h.part [] (m.data.take 4) (m.data.drop 4) (List.take_append_drop 4 m.data).symm
    rw [List.length_take, List.length_drop, hlength] at haddr
    rw [List.length_take, hlength] at hindex
    have hnumber : (numberAt order buf (before.length + 16) 4).Gives (Access.Inside len)
        (order.value (m.data.take 4)) := hindex.bind (Logged.gives_pure _)
    exact haddr.bind (hnumber.bind (Logged.gives_pure _))
  · rw [pktInfo, if_neg hinfo, if_neg (by simpa using hinfo)]
    exact Logged.gives_pure dst

def destination (order : ByteOrder) (messages : List ControlMessage) : Destination :=
  match (messages.filterMap (pktInfo order)).getLast? with
  | some (ifIndex, addr) => ⟨.inet, addr, ifIndex⟩
  | none => ⟨.unspec, [], -1⟩

theorem foldl_pktInfo (order : ByteOrder) (messages : List ControlMessage) :
    messages.foldl (fun dst m =>
      ((pktInfo order m).map fun info => ⟨.inet, info.2, info.1⟩).getD dst) ⟨.unspec, [], -1⟩ =
      destination order messages := by
  induction messages using List.reverseRecOn with
  | nil => rfl
  | append_singleton messages m ih =>
    rw [List.foldl_append, List.foldl_cons, List.foldl_nil, ih, destination, destination,
      List.filterMap_append]
    cases hinfo : pktInfo order m with
    | none => simp [hinfo]
    | some info => simp [hinfo]

theorem getDestinationAddress_gives {messages : List ControlMessage}
    (h : Holds order buf len [] messages) (hkernel : ∀ m ∈ messages, FromKernel m) :
    (getDestinationAddress order buf len).Gives (Access.Inside len)
      (destination order messages) := by
  rw [← foldl_pktInfo]
  refine walk_gives (inspect order buf) _ messages ?_ [] (len + 1) _ h
    (Nat.lt_succ_of_le h.length_le)
  intro before m hm hdelivered dst
  exact (takePktInfo_gives hdelivered (hkernel m hm) dst).bind
    (takePktInfo6_gives hdelivered (hkernel m hm) _)

end

theorem poke_split (before old part rest : Bytes) {offset : Nat} (hoffset : before.length = offset)
    (hlength : old.length = part.length) :
    poke (before ++ (old ++ rest)) offset part = before ++ (part ++ rest) := by
  rw [poke, ← hoffset, List.take_left, ← List.drop_drop, List.drop_left, ← hlength, List.drop_left]

theorem exists_split {buf : Bytes} {length : Nat} (h : length ≤ buf.length) :
    ∃ first rest, buf = first ++ rest ∧ first.length = length :=
  ⟨buf.take length, buf.drop length, (List.take_append_drop length buf).symm,
    List.length_take_of_le h⟩

theorem startMessage_eq (order : ByteOrder) {buf : Bytes} (level type : Nat) {length : Nat}
    (hlength : headerSize + length ≤ buf.length) :
    startMessage order buf level type length =
      order.encode 8 (headerSize + length) ++ (order.encode 4 level ++ (order.encode 4 type ++
        (List.replicate length 0 ++ buf.drop (headerSize + length)))) := by
  unfold headerSize at hlength
  obtain ⟨len, rest, rfl, hlen⟩ := exists_split (show 8 ≤ buf.length by omega)
  rw [List.length_append, hlen] at hlength
  obtain ⟨oldLevel, rest, rfl, hlevel⟩ := exists_split (show 4 ≤ rest.length by omega)
  rw [List.length_append, hlevel] at hlength
  obtain ⟨oldType, rest, rfl, htype⟩ := exists_split (show 4 ≤ rest.length by omega)
  rw [List.length_append, htype] at hlength
  obtain ⟨data, rest, rfl, hdata⟩ := exists_split (show length ≤ rest.length by omega)
  have hdrop : (len ++ (oldLevel ++ (oldType ++ (data ++ rest)))).drop (headerSize + length) =
      rest := by
    rw [← List.append_assoc, ← List.append_assoc, ← List.append_assoc]
    apply List.drop_left'
    simp only [List.length_append, hlen, hlevel, htype, hdata]
    rfl
  have hzeros : data.length = (List.replicate length (0 : UInt8)).length := by
    rw [hdata, List.length_replicate]
  let levels := order.encode 4 level
  let types := order.encode 4 type
  let lengths := order.encode 8 (headerSize + length)
  have hlevels : levels.length = 4 := ByteOrder.length_encode 4 level
  have htypes : types.length = 4 := ByteOrder.length_encode 4 type
  have hlengths : lengths.length = 8 := ByteOrder.length_encode 8 _
  have hfirst : poke (len ++ (oldLevel ++ (oldType ++ (data ++ rest)))) 8 levels =
      len ++ levels ++ (oldType ++ (data ++ rest)) := by
    rw [poke_split len oldLevel levels _ hlen (hlevel.trans hlevels.symm), List.append_assoc]
  have hsecond : poke (len ++ levels ++ (oldType ++ (data ++ rest))) 12 types =
      len ++ (levels ++ (types ++ (data ++ rest))) := by
    rw [poke_split (len ++ levels) oldType types _ (by rw [List.length_append, hlen, hlevels])
      (htype.trans htypes.symm), List.append_assoc]
  have hthird : poke (len ++ (levels ++ (types ++ (data ++ rest)))) 0 lengths =
      lengths ++ (levels ++ types) ++ (data ++ rest) := by
    have hpoke : poke (len ++ (levels ++ (types ++ (data ++ rest)))) 0 lengths =
        lengths ++ (levels ++ (types ++ (data ++ rest))) :=
      poke_split [] len lengths _ rfl (hlen.trans hlengths.symm)
    rw [hpoke]
    simp only [List.append_assoc]
  have hfourth : poke (lengths ++ (levels ++ types) ++ (data ++ rest)) headerSize
      (List.replicate length 0) =
      lengths ++ (levels ++ (types ++ (List.replicate length 0 ++ rest))) := by
    rw [poke_split (lengths ++ (levels ++ types)) data _ rest
      (by simp only [List.length_append, hlengths, hlevels, htypes]; rfl) hzeros]
    simp only [List.append_assoc]
  rw [hdrop, startMessage, hfirst, hsecond, hthird, hfourth]

/-- The message that is built for an IPv4 address is the only one in the control data, and
has the address as the one to send from. -/
theorem read_addSourceAddress (order : ByteOrder) {buf : Bytes} (hbuf : buf.length = 256)
    {server : SockAddr} (hfamily : server.family = .inet) (haddr : server.addr.length = 4)
    (interface : Int) :
    ControlMessage.read order (addSourceAddress order buf server interface).1
      (addSourceAddress order buf server interface).2 = some [(IPPROTO_IP, IP_PKTINFO,
        order.encode 4 (ofInt interface) ++ (server.addr ++ List.replicate 4 0))] := by
  let index := order.encode 4 (ofInt interface)
  let head := order.encode 8 (headerSize + 12) ++ (order.encode 4 IPPROTO_IP ++
    order.encode 4 IP_PKTINFO)
  let zeros : Bytes := List.replicate 4 0
  let rest := buf.drop (headerSize + 12)
  have hindex : index.length = 4 := ByteOrder.length_encode 4 _
  have hhead : head.length = 16 := by simp only [head, List.length_append, ByteOrder.length_encode]
  have hstart : startMessage order buf IPPROTO_IP IP_PKTINFO 12 =
      head ++ zeros ++ (zeros ++ (zeros ++ rest)) := by
    rw [startMessage_eq order _ _ (by rw [hbuf]; decide)]
    simp only [head, List.append_assoc]
    rfl
  have hdst : poke (head ++ zeros ++ (zeros ++ (zeros ++ rest))) 20 server.addr =
      head ++ (zeros ++ (server.addr ++ (zeros ++ rest))) := by
    rw [poke_split (head ++ zeros) zeros _ _ (by rw [List.length_append, hhead]; rfl)
      haddr.symm, List.append_assoc]
  have hifindex := poke_split head zeros index (server.addr ++ (zeros ++ rest)) hhead hindex.symm
  rw [addSourceAddress, hfamily]
  dsimp only
  rw [hstart, hdst, hifindex]
  have hdata : (index ++ (server.addr ++ zeros)).length = 12 := by
    rw [List.length_append, List.length_append, hindex, haddr]
    rfl
  have hread := read_single order 0 8 (index ++ (server.addr ++ zeros)) rest (by rw [hdata]; decide)
    (by rw [List.length_drop, hbuf]; decide)
  rw [hdata] at hread
  simp only [head, List.append_assoc] at hread ⊢
  exact hread

/-- What `recvmsg` gives for a datagram: the control data has the messages of the kernel. -/
structure Received (order : ByteOrder) where
  data : Bytes
  client : SockAddr
  buf : Bytes
  len : Nat
  messages : List ControlMessage
  holds : Holds order buf len [] messages
  kernel : ∀ m ∈ messages, FromKernel m

def Received.message {order : ByteOrder} (received : Received order) : Option Message :=
  (getDestinationAddress order received.buf received.len).result.map fun dst =>
    ⟨received.data, received.client, ⟨dst.family, 0, dst.addr⟩, dst.ifIndex⟩

def replyTo (order : ByteOrder) (messages : List ControlMessage) : List (Nat × Nat × Bytes) :=
  match (messages.filterMap (pktInfo order)).getLast? with
  | none => []
  | some (ifIndex, addr) =>
    if ifIndex = -1 then []
    else [(IPPROTO_IP, IP_PKTINFO,
      order.encode 4 (ofInt ifIndex) ++ (addr ++ List.replicate 4 0))]

theorem length_pktInfo {order : ByteOrder} {m : ControlMessage} (hkernel : FromKernel m)
    {info : Int × Bytes} (h : pktInfo order m = some info) : info.2.length = 4 := by
  unfold pktInfo at h
  split at h
  next hinfo =>
    cases h
    rw [List.length_drop, hkernel.pktInfo hinfo]
  next => contradiction

theorem read_control {order : ByteOrder} {received : Received order} {message : Message}
    (h : received.message = some message) {requester : Requester}
    (hserver : requester.server = message.server)
    (hinterface : requester.interface = message.interface) {buf : Bytes}
    (hbuf : buf.length = 256) :
    ControlMessage.read order (control order requester buf).1 (control order requester buf).2 =
      some (replyTo order received.messages) := by
  have hnone : ControlMessage.read order buf 0 = some [] := by
    have hholds : Holds order buf 0 [] [] :=
      ⟨⟨buf, rfl⟩, fun hne => absurd rfl hne, Nat.le_refl _⟩
    exact read_eq hholds
  have hgives := getDestinationAddress_gives received.holds received.kernel
  rw [Received.message, hgives.2, Option.map_some, Option.some_inj] at h
  subst h
  rw [control, hserver, hinterface, replyTo, destination]
  cases hlast : (received.messages.filterMap (pktInfo order)).getLast? with
  | none => exact hnone
  | some info =>
    obtain ⟨ifIndex, addr⟩ := info
    dsimp only
    by_cases hindex : ifIndex = -1
    · rw [if_neg (not_not.mpr hindex), if_pos hindex]
      exact hnone
    · have haddr : addr.length = 4 := by
        obtain ⟨m, hm, hinfo⟩ := List.mem_filterMap.mp (List.mem_of_getLast? hlast)
        exact length_pktInfo (received.kernel m hm) hinfo
      rw [if_pos hindex, if_neg hindex]
      exact read_addSourceAddress order hbuf rfl haddr ifIndex

theorem replyTo_eq_nil {order : ByteOrder} {messages : List ControlMessage}
    (h : ∀ m ∈ messages, ¬ IsPktInfo m) : replyTo order messages = [] := by
  have hnone : messages.filterMap (pktInfo order) = [] := by
    rw [List.filterMap_eq_nil_iff]
    exact fun m hm => if_neg (h m hm)
  rw [replyTo, hnone]
  rfl

section

open Program Library.Run

variable {env : Env} {order : ByteOrder} {kernel : Nat → Option (Received order)}

structure Source (query : QueuedQuery) (given : Option (Received order)) (received : Received order)
    (message : Message) : Prop where
  kernel : given = some received
  parsed : received.message = some message
  request : query.request = frame received.data
  client : query.requester.client = received.client
  server : query.requester.server = message.server
  interface : query.requester.interface = message.interface

theorem source_of_accepts (henv : ∀ tick, env.receive tick = (kernel tick).bind Received.message)
    {p : Program} {handle : Int} {query : QueuedQuery} (h : p.accepts env handle = some query) :
    ∃ received message, Source query (kernel p.world.tick) received message := by
  unfold accepts at h
  split at h
  next =>
    split at h
    next => contradiction
    next message hreceive =>
      split at h
      next => contradiction
      next =>
        cases h
        rw [henv] at hreceive
        obtain ⟨received, hkernel, hmessage⟩ := Option.bind_eq_some_iff.mp hreceive
        obtain ⟨dst, hdst, rfl⟩ := Option.map_eq_some_iff.mp hmessage
        exact ⟨received, _, hkernel, hmessage, rfl, rfl, rfl, rfl⟩
  next => contradiction

theorem accepts_of_mem {p : Program} {turn : Kind × Int} {query : QueuedQuery}
    (h : Action.request query ∈ actionsOf env p turn) : p.accepts env turn.2 = some query := by
  unfold actionsOf at h
  split at h
  next => contradiction
  next =>
    split at h
    next => simpa using h
    next => simp [actionsBy] at h

theorem source_of_mem (henv : ∀ tick, env.receive tick = (kernel tick).bind Received.message)
    {r : Running Program} {event : Event} {query : QueuedQuery}
    (h : Action.request query ∈ actions env r event) :
    ∃ received message, Source query (kernel r.state.world.tick) received message := by
  cases event with
  | task now revents =>
    obtain ⟨turn, -, hmem⟩ := List.mem_flatMap.mp h
    exact source_of_accepts henv (accepts_of_mem hmem)
  | signal => contradiction
  | interrupt => contradiction

theorem request_of_requested {past : List Action} {query : QueuedQuery}
    (h : query ∈ past.filterMap Action.requested) : Action.request query ∈ past := by
  obtain ⟨action, haction, hrequest⟩ := List.mem_filterMap.mp h
  cases action with
  | request query' =>
    cases hrequest
    exact haction
  | _ => contradiction

/-- In every run. Each response is made of a read on the connection for a request, and that
request was made of the datagram that the kernel gave in one event: it has its bytes, and the
response goes back to where it came from. No byte was read outside what the kernel gave with
it, and whatever was in the buffer the control data says that the response leaves from the
address and the interface that the datagram came in on. Of these an IPv6 datagram has none. -/
theorem responses_from {config : ConfigParser} {handles : List Int} {watched : Bool}
    {p : Program} (hstart : start env config handles watched = some p)
    (henv : ∀ tick, env.receive tick = (kernel tick).bind Received.message)
    (events : List Event) {buf : Bytes} (hbuf : buf.length = 256) :
    let state events := run (step env) (Machine.start p) events
    let past := trace (step env) (actions env) (Machine.start p) events
    ∀ datagram ∈ (state events).state.clients.sent,
      ∃ query, (∃ read ∈ past.filterMap Action.wasRead,
          (past.filterMap Action.requested)[read.1]? = some query ∧
          response query.requester read.2 = some datagram) ∧
        ∃ before event after received, events = before ++ event :: after ∧
          Action.request query ∈ actions env (state before) event ∧
          kernel (state before).state.world.tick = some received ∧
          query.request = frame received.data ∧
          query.requester.client = received.client ∧
          datagram.requester = query.requester ∧
          (getDestinationAddress order received.buf received.len).Gives
            (Access.Inside received.len) (destination order received.messages) ∧
          ControlMessage.read order (control order datagram.requester buf).1
            (control order datagram.requester buf).2 = some (replyTo order received.messages) ∧
          ((∀ m ∈ received.messages, ¬ IsPktInfo m) → replyTo order received.messages = []) := by
  intro state past datagram hmem
  have hanswers : (state events).state.Answers past :=
    answers_run (r := Machine.start p) (Answers.start hstart) env events
  rw [hanswers.accounted.sent] at hmem
  obtain ⟨read, hread, hanswer⟩ := List.mem_filterMap.mp hmem
  obtain ⟨query, hquery, hresponse⟩ := Option.bind_eq_some_iff.mp hanswer
  have hrequested : (past.filterMap Action.requested)[read.1]? = some query := by
    rw [← hanswers.arrived, List.getElem?_append_left (List.getElem?_eq_some_iff.mp hquery).1,
      hquery]
  obtain ⟨before, event, after, heq, hnow⟩ :=
    exists_of_mem_trace (request_of_requested (List.mem_of_getElem? hrequested))
  obtain ⟨received, message, hsource⟩ := source_of_mem henv hnow
  have hrequester := (response_eq_some hresponse).1
  refine ⟨query, ⟨read, hread, hrequested, hresponse⟩, before, event, after, received, heq, hnow,
    hsource.kernel, hsource.request, hsource.client, hrequester,
    getDestinationAddress_gives received.holds received.kernel, ?_, replyTo_eq_nil⟩
  rw [hrequester]
  exact read_control hsource.parsed hsource.server hsource.interface hbuf

end

namespace Sample

/-- A datagram to 192.168.0.1 has come in on the second interface. -/
def pktinfo : ControlMessage where
  level := 0
  type := 8
  data := [2, 0, 0, 0, 192, 168, 0, 1, 192, 168, 0, 1]
  padding := [0, 0, 0, 0]
  length_lt := by decide
  padded := by decide
  padding_lt := by decide

def received : Received .little where
  data := [0, 1]
  client := Program.Sample.address
  buf := encodeAll .little [pktinfo]
  len := 32
  messages := [pktinfo]
  holds := ⟨⟨[], rfl⟩, by decide, by decide⟩
  kernel := by
    intro m hm
    rw [List.mem_singleton.mp hm]
    exact ⟨by decide, by decide⟩

def delivering : Env :=
  { Program.Sample.env Program.Sample.replying with receive _ := received.message }

def deliveringProgram : Program :=
  (Program.start delivering Program.Sample.config [0, 1, 2] false).get rfl

theorem delivering_eq : Program.start delivering Program.Sample.config [0, 1, 2] false =
    some deliveringProgram :=
  (Option.some_get _).symm

end Sample

open Program Library.Run Sample in
theorem responses_from_second :
    let events := Program.Sample.busy ++
      [Program.Sample.task 100 [7], Program.Sample.task 100 []]
    let sent := (run (step delivering) (Machine.start deliveringProgram) events).state.clients.sent
    let buf := List.replicate 256 255
    sent.length = 1 ∧ ∀ datagram ∈ sent,
      ControlMessage.read .little (control .little datagram.requester buf).1
        (control .little datagram.requester buf).2 =
          some [(0, 8, [2, 0, 0, 0, 192, 168, 0, 1, 0, 0, 0, 0])] := by
  refine ⟨by decide +kernel, fun datagram hmem => ?_⟩
  let kernel : Nat → Option (Received .little) := fun _ => some received
  have henv : ∀ tick, delivering.receive tick = (kernel tick).bind Received.message := fun _ => rfl
  obtain ⟨_, -, _, _, _, _, -, -, hkernel, -, -, -, -, hread, -⟩ :=
    responses_from delivering_eq henv _ List.length_replicate datagram hmem
  cases hkernel
  exact hread

end Dote.PacketInfo
