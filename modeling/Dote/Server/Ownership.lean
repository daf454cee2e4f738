import Dote.Clients.Wired
import Dote.Server.Program

/-! Who has what in the loop: the connections, the server sockets and the
descriptor of `VyattaCheck`, and nobody else, in every state of a run. -/
namespace Dote

namespace Wired

variable {others : List Other} {w : World} {connections : List ForwarderConnection}

theorem add_other (h : Wired others w connections) {other : Other} {w' : World}
    (hfresh : other.handle ∉ w.handles) (hhandles : w'.handles = other.handle :: w.handles)
    (hloop : w'.loop = (w.loop.registerRead other.handle other.callback 0).2) :
    Wired (others ++ [other]) w' connections := by
  have hnone := h.wire_of_not_open hfresh
  have hinsert : w'.loop = w.loop.insert .read other.handle other.callback 0 := by
    rw [hloop, Loop.registerRead, Loop.register_of_wire_none (hnone .read)]
  have htouches : Loop.Touches other.handle w.loop w'.loop := by
    rw [hloop]
    exact Loop.touches_register _ _ _ _ _
  have hwire : ∀ kind, w'.loop.wire other.handle kind =
      if kind = .read then some (other.callback, 0) else none := by
    intro kind
    rw [hinsert, Loop.wire_insert, hnone]
  have hne : ∀ other' ∈ others, other'.handle ≠ other.handle := by
    intro other' hmem heq
    exact hfresh (heq ▸ h.others_open other' hmem)
  constructor
  · intro c hc
    obtain ⟨k, hk, hother, -, hlinked⟩ := h.handle_of_mem hc
    have hkne : k ≠ other.handle := fun heq => hfresh (heq ▸ hk)
    refine ⟨k, by simp [hhandles, hk], ?_, linked_of_touches hlinked htouches hkne⟩
    rw [List.map_append, List.mem_append]
    simpa [hkne] using hother
  · exact h.apart
  · rw [List.map_append, List.nodup_append]
    refine ⟨h.others_apart, by simp, ?_⟩
    intro k hk k' hk'
    simp only [List.map_cons, List.map_nil, List.mem_singleton] at hk'
    obtain ⟨other', hmem, rfl⟩ := List.mem_map.mp hk
    rw [hk']
    exact hne other' hmem
  · intro other' hmem
    rw [List.mem_append, List.mem_singleton] at hmem
    rw [hhandles]
    cases hmem with
    | inl hold => exact List.mem_cons_of_mem _ (h.others_open other' hold)
    | inr hnew => simp [hnew]
  · intro other' hmem kind
    rw [List.mem_append, List.mem_singleton] at hmem
    cases hmem with
    | inl hold => rw [touches_wire htouches (hne other' hold), h.others_wire other' hold]
    | inr hnew => rw [hnew, hwire]
  · intro k kind hsome
    by_cases hk : k = other.handle
    · exact .inl (by simp [hk])
    · rw [touches_wire htouches hk] at hsome
      cases h.owned k kind hsome with
      | inl hold => exact .inl (by simp [hold])
      | inr hconnection => exact .inr hconnection

theorem release {other : Other} (h : Wired (other :: others) w connections) :
    Wired others (w.release (other.handle, ⟨other.handle, some .read⟩)) connections := by
  have hapart := h.others_apart
  rw [List.map_cons, List.nodup_cons] at hapart
  have hloop : (w.release (other.handle, ⟨other.handle, some .read⟩)).loop =
      w.loop.remove .read other.handle := rfl
  have htouches : Loop.Touches other.handle w.loop (w.loop.remove .read other.handle) :=
    Loop.touches_remove _ _ _
  have hopen : ∀ k, k ≠ other.handle → k ∈ w.handles →
      k ∈ (w.release (other.handle, ⟨other.handle, some .read⟩)).handles :=
    fun k hk hmem => (List.mem_erase_of_ne hk).mpr hmem
  constructor
  · intro c hc
    obtain ⟨k, hk, hother, -, hlinked⟩ := h.handle_of_mem hc
    rw [List.map_cons, List.mem_cons, not_or] at hother
    exact ⟨k, hopen k hother.1 hk, hother.2, linked_of_touches hlinked htouches hother.1⟩
  · exact h.apart
  · exact hapart.2
  · intro other' hmem
    exact hopen _ (ne_of_not_mem hapart.1 hmem) (h.others_open other' (List.mem_cons_of_mem _ hmem))
  · intro other' hmem kind
    rw [hloop, touches_wire htouches (ne_of_not_mem hapart.1 hmem),
      h.others_wire other' (List.mem_cons_of_mem _ hmem)]
  · intro k kind hsome
    rw [hloop] at hsome
    by_cases hk : k = other.handle
    · rw [hk, Loop.wire_remove, h.others_wire other List.mem_cons_self] at hsome
      split at hsome
      next => contradiction
      next => simp at hsome
    · rw [touches_wire htouches hk] at hsome
      cases h.owned k kind hsome with
      | inl hother =>
        rw [List.map_cons, List.mem_cons] at hother
        exact .inl (hother.resolve_left hk)
      | inr hconnection => exact .inr hconnection

end Wired

namespace Program
open ClientForwarders

def serverOther (socket : Int × Registration) : Other := ⟨socket.1, .handleDnsRequest, rfl⟩

def checkerOther (checker : Int × Registration) : Other := ⟨checker.1, .handleRead, rfl⟩

def others (p : Program) : List Other :=
  p.sockets.map serverOther ++ p.checker.toList.map checkerOther

/-- The registrations of the loop are those of the connections and of the others. -/
structure Owned (p : Program) : Prop where
  listed : p.clients.Listed
  capped : p.clients.Capped
  wired : p.clients.IsWired p.others
  registered : ∀ socket ∈ p.sockets, socket.2 = ⟨socket.1, some .read⟩

namespace Owned

variable {p : Program}

theorem of_clients (h : p.Owned) {p' : Program} (hserver : p'.server = p.server)
    (hchecker : p'.checker = p.checker) (hslots : p'.clients.Listed ∧ p'.clients.Capped)
    (hwired : p'.clients.IsWired p.others) : p'.Owned := by
  have hsockets : p'.sockets = p.sockets := by rw [sockets, hserver, sockets]
  constructor
  · exact hslots.1
  · exact hslots.2
  · rw [others, hsockets, hchecker]
    exact hwired
  · rw [hsockets]
    exact h.registered

theorem setWorld (h : p.Owned) {w : World} (hloop : w.loop = p.loop)
    (hhandles : w.handles = p.world.handles) : (p.setWorld w).Owned := by
  refine h.of_clients rfl rfl ?_ ?_
  · exact ⟨⟨h.listed.alive, h.listed.ids, h.listed.ids_lt⟩, h.capped.bounded, h.capped.waiting⟩
  · apply Wired.of_same h.wired hhandles
    intro kind k
    change w.loop.wire k kind = p.loop.wire k kind
    rw [hloop]

theorem handleDnsRequest (h : p.Owned) (env : Env) (handle : Int) :
    (p.handleDnsRequest env handle).Owned := by
  unfold Program.handleDnsRequest
  split
  next =>
    have hasked := h.setWorld (w := p.world.ask) rfl rfl
    dsimp only
    split
    next => exact hasked
    next message _ =>
      split
      next => exact hasked
      next =>
        refine hasked.of_clients rfl rfl ?_ ?_
        · exact handleRequest_capped env hasked.listed hasked.capped _
        · exact hasked.wired.handleRequest env _
  next => exact h

theorem handleRead (h : p.Owned) (env : Env) : (p.handleRead env).Owned := by
  obtain ⟨w, heq, hloop, hhandles⟩ := p.handleRead_eq env
  rw [heq]
  exact h.setWorld hloop hhandles

theorem callCallback (h : p.Owned) (env : Env) (kind : Kind) (handle : Int) :
    ((machine env).callCallback kind handle p).Owned := by
  unfold Machine.callCallback
  split
  next entry hfind =>
    have hwire : p.clients.world.loop.wire handle kind = some (entry.callback, entry.timeout) :=
      Loop.wire_of_find hfind
    have hclients : ∀ id, entry.callback.owner = some id →
        Owned { p with clients := p.clients.call env id entry.callback } := by
      intro id howner
      refine h.of_clients rfl rfl ?_ ?_
      · exact call_capped env h.listed h.capped id entry.callback
      · exact h.wired.call h.listed env hwire howner
    change (p.call env entry.callback handle).Owned
    unfold Program.call
    cases hcallback : entry.callback <;> rw [hcallback] at hclients
    case connect id => exact hclients id rfl
    case incoming id => exact hclients id rfl
    case outgoing id => exact hclients id rfl
    case shutdown id => exact hclients id rfl
    case exception id => exact hclients id rfl
    case handleDnsRequest => exact h.handleDnsRequest env handle
    case handleRead => exact h.handleRead env
  next => exact h

theorem raiseException (h : p.Owned) (env : Env) (handle : Int) :
    ((machine env).raiseException handle p).2.Owned := by
  rw [Machine.raiseException_eq]
  exact h.callCallback env .exception handle

theorem release_sockets {s : ClientForwarders} (rest : List Other) :
    ∀ (sockets : List (Int × Registration)) {w : World},
      (∀ socket ∈ sockets, socket.2 = ⟨socket.1, some .read⟩) →
      Wired (sockets.map serverOther ++ rest) w s.forwarders →
      Wired rest (sockets.foldl World.release w) s.forwarders := by
  intro sockets
  induction sockets with
  | nil => exact fun _ h => h
  | cons socket sockets ih =>
    intro w hregistered h
    have hsocket : socket = (socket.1, ⟨socket.1, some .read⟩) := by
      rw [← hregistered socket List.mem_cons_self]
    have hreleased : Wired (sockets.map serverOther ++ rest) (w.release socket) s.forwarders := by
      have hfirst : Wired (serverOther socket :: (sockets.map serverOther ++ rest)) w
        s.forwarders := h
      rw [hsocket]
      exact hfirst.release
    exact ih (fun socket' hmem => hregistered socket' (List.mem_cons_of_mem _ hmem)) hreleased

theorem shutdown (h : p.Owned) : p.shutdown.Owned where
  listed := ⟨h.listed.alive, h.listed.ids, h.listed.ids_lt⟩
  capped := ⟨h.capped.bounded, h.capped.waiting⟩
  wired := release_sockets _ p.sockets h.registered h.wired
  registered := by simp [sockets, Program.shutdown]

theorem openHandle_some (h : p.Owned) (other : Other) {env : Env} {w : World}
    (hopen : p.world.openHandle env = (some other.handle, w)) :
    w.loop.registerRead other.handle other.callback 0 =
        (⟨other.handle, some .read⟩, (w.loop.registerRead other.handle other.callback 0).2) ∧
      Wired (p.others ++ [other])
        { w with loop := (w.loop.registerRead other.handle other.callback 0).2 }
        p.clients.forwarders := by
  obtain ⟨hfresh, hloop, hhandles⟩ := World.openHandle_some hopen
  have hnone : w.loop.wire other.handle .read = none := by
    rw [hloop]
    exact Wired.wire_of_not_open h.wired hfresh .read
  constructor
  · rw [Loop.registerRead, Loop.register_of_wire_none hnone]
  · refine Wired.add_other h.wired hfresh hhandles ?_
    change _ = (p.world.loop.registerRead other.handle other.callback 0).2
    rw [← hloop]

theorem openHandle_none (h : p.Owned) {env : Env} {w : World}
    (hopen : p.world.openHandle env = (none, w)) : (p.setWorld w).Owned := by
  obtain ⟨hloop, hhandles⟩ := World.openHandle_none hopen
  exact h.setWorld hloop hhandles

theorem addServer (h : p.Owned) (hchecker : p.checker = none) (env : Env) :
    (p.addServer env).2.Owned ∧ (p.addServer env).2.checker = none := by
  unfold Program.addServer
  split
  next w hopen => exact ⟨h.openHandle_none hopen, hchecker⟩
  next handle w hopen =>
    obtain ⟨hregistration, hwired⟩ := h.openHandle_some ⟨handle, .handleDnsRequest, rfl⟩ hopen
    rw [hregistration]
    refine ⟨⟨⟨h.listed.alive, h.listed.ids, h.listed.ids_lt⟩,
      ⟨h.capped.bounded, h.capped.waiting⟩, ?_, ?_⟩, hchecker⟩
    · rw [others, hchecker, Option.toList_none, List.map_nil, List.append_nil] at hwired
      change Wired (List.map serverOther (p.sockets ++ [(handle, ⟨handle, some .read⟩)]) ++
        p.checker.toList.map checkerOther) _ p.clients.forwarders
      rw [hchecker, Option.toList_none, List.map_nil, List.append_nil, List.map_append]
      exact hwired
    · intro socket hmem
      simp only [sockets, Option.getD_some, List.mem_append, List.mem_singleton] at hmem
      cases hmem with
      | inl hold => exact h.registered socket hold
      | inr hnew => rw [hnew]

theorem addServers (env : Env) (servers : List Config.SockAddr) :
    ∀ {p : Program}, p.Owned → p.checker = none →
      (addServers env servers p).2.Owned ∧ (addServers env servers p).2.checker = none := by
  induction servers with
  | nil => exact fun h hchecker => ⟨h, hchecker⟩
  | cons address servers ih =>
    intro p h hchecker
    have hadded := h.addServer hchecker env
    exact ih hadded.1 hadded.2

theorem configure (h : p.Owned) (hchecker : p.checker = none) (env : Env) (watched : Bool) :
    (p.configure env watched).Owned := by
  unfold Program.configure
  split
  next w hopen => exact h.openHandle_none hopen
  next handle w hopen =>
    split
    next =>
      obtain ⟨-, hwired⟩ := h.openHandle_some ⟨handle, .handleRead, rfl⟩ hopen
      refine ⟨⟨h.listed.alive, h.listed.ids, h.listed.ids_lt⟩,
        ⟨h.capped.bounded, h.capped.waiting⟩, ?_, h.registered⟩
      simp only [others, hchecker, Option.toList_none, List.map_nil, List.append_nil] at hwired
      exact hwired
    next =>
      obtain ⟨hfresh, hloop, hhandles⟩ := World.openHandle_some hopen
      refine h.setWorld hloop ?_
      change w.handles.erase handle = _
      rw [hhandles, List.erase_cons_head]

theorem new (config : Config.ConfigParser) (handles : List Int) : (new config handles).Owned where
  listed := (new_capped _ _).1
  capped := (new_capped _ _).2
  wired := by
    constructor
    · simp [Program.new, ClientForwarders.new]
    · simp [Program.new, ClientForwarders.new]
    · simp [others, sockets, Program.new]
    · simp [others, sockets, Program.new]
    · simp [others, sockets, Program.new]
    · intro handle kind hwire
      simp [Program.new, ClientForwarders.new, Loop.wire, Loop.find, Loop.new] at hwire
  registered := by simp [sockets, Program.new]

theorem start {env : Env} {config : Config.ConfigParser} {handles : List Int} {watched : Bool}
    (hstart : Program.start env config handles watched = some p) : p.Owned := by
  have hnew := Owned.new config handles
  have hserver : Owned { Program.new config handles with server := some [] } :=
    ⟨hnew.listed, hnew.capped, hnew.wired, by simp [sockets]⟩
  have hadded := addServers env config.servers hserver rfl
  unfold Program.start listen at hstart
  cases hlisten : Program.addServers env config.servers
      { Program.new config handles with server := some [] } with
  | mk result p' =>
    rw [hlisten] at hstart hadded
    cases result with
    | true =>
      cases hstart
      exact hadded.1.configure hadded.2 env watched
    | false => contradiction

end Owned

/-- What callbacks and the shutdown keep holds of every state of a run. -/
theorem step_preserves {env : Env} {P : Program → Prop}
    (hcall : ∀ kind handle p, P p → P ((machine env).callCallback kind handle p))
    (hshutdown : ∀ p : Program, P p → P p.shutdown) {r : Running Program} (h : P r.state)
    (event : Event) : P (step env r event).state := by
  cases event with
  | task now revents => exact (machine env).step_preserves hcall h _
  | signal => exact hshutdown r.state h
  | interrupt =>
    unfold step
    dsimp only
    split
    next =>
      exact (machine env).step_preserves hcall
        (r := { r with state := r.state.shutdown }) (hshutdown r.state h) _
    next => exact hshutdown r.state h

theorem Owned.step (env : Env) {r : Running Program} (h : r.state.Owned) (event : Event) :
    (step env r event).state.Owned :=
  step_preserves (fun kind handle _ h => h.callCallback env kind handle) (fun _ h => h.shutdown) h
    event

theorem owned_run {env : Env} {config : Config.ConfigParser} {handles : List Int}
    {watched : Bool} {p : Program} (hstart : start env config handles watched = some p)
    (events : List Event) : (Library.Run.run (step env) (Machine.start p) events).state.Owned := by
  have hkeep : ∀ (r : Running Program) (event : Event), r.state.Owned →
      (step env r event).state.Owned := fun _ event h => h.step env event
  exact Library.Run.run_preserves hkeep (Owned.start hstart) events

end Program

end Dote
