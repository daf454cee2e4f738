import Dote.Clients.Descriptors
import Dote.Server.Growth

/-! The descriptors of the running program, each with one owner: what was open at the
start, the server sockets, the checker and the connections. -/
namespace Dote.Program
open ClientForwarders Library.Run

def otherHandles (base : List Int) (p : Program) : List Int := base ++ p.others.map Other.handle

theorem otherHandles_eq (base : List Int) (p : Program) : p.otherHandles base =
    base ++ (p.sockets.map Prod.fst ++ p.checker.toList.map Prod.fst) := by
  rw [otherHandles, others, List.map_append, List.map_map, List.map_map]
  rfl

def Holds (base : List Int) (p : Program) : Prop := p.clients.Holds (p.otherHandles base)

namespace Holds

variable {base : List Int} {p : Program}

theorem setWorld (h : p.Holds base) {w : World} (hhandles : w.handles = p.world.handles) :
    (p.setWorld w).Holds base :=
  ⟨by change w.handles.Perm _; rw [hhandles]; exact h.owned,
    by change w.handles.Nodup; rw [hhandles]; exact h.apart⟩

theorem handleDnsRequest (h : p.Holds base) (howned : p.Owned) (env : Env) (handle : Int) :
    (p.handleDnsRequest env handle).Holds base := by
  have hasked : (p.setWorld p.world.ask).Holds base := h.setWorld rfl
  have howned' : (p.setWorld p.world.ask).Owned := howned.setWorld rfl rfl
  unfold Program.handleDnsRequest
  split
  next =>
    dsimp only
    split
    next => exact hasked
    next message _ =>
      split
      next => exact hasked
      next => exact ClientForwarders.Holds.handleRequest hasked howned'.wired env _
  next => exact h

theorem handleRead (h : p.Holds base) (env : Env) : (p.handleRead env).Holds base := by
  obtain ⟨w, heq, -, hhandles⟩ := p.handleRead_eq env
  rw [heq]
  exact h.setWorld hhandles

theorem callCallback (h : p.Holds base) (howned : p.Owned) (env : Env) (kind : Kind)
    (handle : Int) : ((machine env).callCallback kind handle p).Holds base := by
  unfold Machine.callCallback
  split
  next entry hfind =>
    have hwire : p.clients.world.loop.wire handle kind = some (entry.callback, entry.timeout) :=
      Loop.wire_of_find hfind
    have hclients : ∀ id, entry.callback.owner = some id →
        Holds base { p with clients := p.clients.call env id entry.callback } :=
      fun id howner => ClientForwarders.Holds.call h howned.wired howned.listed env hwire howner
    change (p.call env entry.callback handle).Holds base
    unfold Program.call
    cases hcallback : entry.callback <;> rw [hcallback] at hclients
    case connect id => exact hclients id rfl
    case incoming id => exact hclients id rfl
    case outgoing id => exact hclients id rfl
    case shutdown id => exact hclients id rfl
    case exception id => exact hclients id rfl
    case handleDnsRequest => exact h.handleDnsRequest howned env handle
    case handleRead => exact h.handleRead env
  next => exact h

theorem open_some (h : p.Holds base) {env : Env} {w : World} {handle : Int}
    (hopen : p.world.openHandle env = (some handle, w)) {p' : Program}
    (hhandles : p'.world.handles = w.handles)
    (hclients : p'.clients.forwarders = p.clients.forwarders)
    (hothers : (p'.otherHandles base).Perm (handle :: p.otherHandles base)) : p'.Holds base := by
  obtain ⟨hfresh, -, hnew⟩ := World.openHandle_some hopen
  constructor
  · change p'.world.handles.Perm _
    rw [hhandles, hnew, hclients]
    exact (h.owned.cons handle).trans (hothers.symm.append_right _)
  · change p'.world.handles.Nodup
    rw [hhandles, hnew]
    exact List.nodup_cons.mpr ⟨hfresh, h.apart⟩

theorem addServer (h : p.Holds base) (env : Env) : (p.addServer env).2.Holds base := by
  unfold Program.addServer
  split
  next w hopen => exact h.setWorld (World.openHandle_none hopen).2
  next handle w hopen =>
    refine h.open_some hopen rfl rfl ?_
    rw [otherHandles_eq, otherHandles_eq]
    simp only [sockets, Option.getD_some, List.map_append, List.map_cons, List.map_nil,
      List.append_assoc, List.cons_append, List.nil_append]
    rw [← List.append_assoc, ← List.append_assoc]
    exact List.perm_middle

theorem addServer_checker (env : Env) (p : Program) : (p.addServer env).2.checker = p.checker := by
  unfold Program.addServer
  split
  next => rfl
  next => rfl

theorem configure (h : p.Holds base) (hchecker : p.checker = none) (env : Env) (watched : Bool) :
    (p.configure env watched).Holds base := by
  unfold Program.configure
  split
  next w hopen => exact h.setWorld (World.openHandle_none hopen).2
  next handle w hopen =>
    split
    next =>
      refine h.open_some hopen rfl rfl ?_
      rw [otherHandles_eq, otherHandles_eq, hchecker]
      simp only [Option.toList_some, Option.toList_none, List.map_cons, List.map_nil,
        List.append_nil, ← List.append_assoc]
      exact List.perm_append_singleton handle _
    next =>
      refine h.setWorld ?_
      change w.handles.erase handle = _
      rw [(World.openHandle_some hopen).2.2, List.erase_cons_head]

theorem new (config : Config.ConfigParser) {handles : List Int} (hnodup : handles.Nodup) :
    (new config handles).Holds handles := by
  refine ⟨?_, hnodup⟩
  rw [otherHandles_eq]
  simp [Program.new, ClientForwarders.new, sockets]

theorem start {env : Env} {config : Config.ConfigParser} {handles : List Int} {watched : Bool}
    (hnodup : handles.Nodup) (hstart : Program.start env config handles watched = some p) :
    p.Holds handles := by
  obtain ⟨hholds, hchecker⟩ := addServers_preserves env
    (P := fun p' => p'.Holds handles ∧ p'.checker = none)
    (fun p' h => ⟨h.1.addServer env, (addServer_checker env p').trans h.2⟩) config.servers
    { Program.new config handles with server := some [] }
    ⟨⟨(new config hnodup).owned, hnodup⟩, rfl⟩
  rw [start_eq_configure hstart]
  exact hholds.configure hchecker env watched

end Holds

/-- What holds in every state of a run. Behind the shutdown the requests still hold the
sockets of the server, which the model has given up. -/
structure Ledger (base : List Int) (p : Program) : Prop where
  owned : p.Owned
  holds : p.server ≠ none → p.Holds base

theorem Ledger.step {base : List Int} {r : Running Program} (h : r.state.Ledger base) (env : Env)
    (event : Event) : (step env r event).state.Ledger base := by
  refine step_preserves ?_ ?_ h event
  · intro kind handle p h
    refine ⟨h.owned.callCallback env kind handle, fun hserver => ?_⟩
    rw [callCallback_server] at hserver
    exact (h.holds hserver).callCallback h.owned env kind handle
  · exact fun p h => ⟨h.owned.shutdown, fun hserver => absurd rfl hserver⟩

/-- In every run, until the shutdown, each open descriptor has one owner: it was open at
the start, or it is of a server socket, of the checker or of an open connection. So there
is a bound on how many there are, and none is left behind. -/
theorem descriptors_owned {env : Env} {config : Config.ConfigParser} {handles : List Int}
    {watched : Bool} {p : Program} (hnodup : handles.Nodup)
    (hstart : start env config handles watched = some p) {events : List Event}
    (hserving : Serving events) :
    let last := (run (step env) (Machine.start p) events).state
    last.world.handles.Nodup ∧
      last.world.handles.Perm (handles ++ (last.sockets.map Prod.fst ++
        last.checker.toList.map Prod.fst) ++ last.clients.forwarders.filterMap (·.socket)) ∧
      last.world.handles.length ≤
        handles.length + config.servers.length + 1 + config.maxConnections := by
  intro last
  have hserver : last.server ≠ none := by
    rw [show last.server = p.server from run_server env hserving (Machine.start p)]
    exact start_server hstart
  have hledger : last.Ledger handles :=
    run_preserves (I := fun r : Running Program => r.state.Ledger handles)
      (fun _ event h => h.step env event) (s := Machine.start p)
      ⟨.start hstart, fun _ => .start hnodup hstart⟩ events
  have hholds := hledger.holds hserver
  have howned := hholds.owned
  rw [otherHandles_eq] at howned
  refine ⟨hholds.apart, howned, ?_⟩
  have hgrows := (grows_start hstart).trans
    (grows_run (r := Machine.start p) (Owned.start hstart) env events)
  have hmax : last.clients.maxConnections = config.maxConnections := hgrows.maxConnections
  have hbounded := hledger.owned.capped.bounded
  have hsockets : last.sockets.length = config.servers.length := run_sockets hstart hserving
  have hconnections := List.length_filterMap_le (·.socket) last.clients.forwarders
  have hchecker : last.checker.toList.length ≤ 1 := by cases last.checker <;> simp
  have hlength := howned.length_eq
  simp only [List.length_append, List.length_map] at hlength
  change last.world.handles.length = _ at hlength
  omega

open Sample in
theorem descriptors_owned_busy :
    let last := (run (step (env stuck)) (Machine.start (program stuck true)) busy).state
    last.world.handles.Nodup ∧
      last.world.handles.Perm ([0, 1, 2] ++ (last.sockets.map Prod.fst ++
        last.checker.toList.map Prod.fst) ++ last.clients.forwarders.filterMap (·.socket)) ∧
      last.world.handles.length ≤ [0, 1, 2].length + config.servers.length + 1 +
        config.maxConnections :=
  descriptors_owned (by decide) (start_eq stuck true) (by simp [Serving, busy, task])

end Dote.Program
