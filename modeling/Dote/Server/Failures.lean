import Dote.Clients.Failures
import Dote.Config.FailureOrder
import Dote.Server.Growth

/-! Which forwarder the connections of a run are made to, and which are reported bad. -/
namespace Dote
open Config Library.Run

namespace Program
open ClientForwarders

/-- The reports are paid for, and the lists are those of the reloads. -/
structure Attributed (env : Env) (p : Program) : Prop where
  owned : p.Owned
  paid : p.clients.Attributed p.world.loads
  reloaded : ∀ forwarders ∈ p.world.loads, ∃ tick, forwarders ∈ env.reload tick

namespace Attributed

variable {env : Env} {p : Program}

theorem of_clients (h : p.Attributed env) {p' : Program} (howned : p'.Owned)
    (hpaid : p'.clients.Attributed p.world.loads) : p'.Attributed env := by
  have hloads : p'.world.loads = p.world.loads := hpaid.loads
  exact ⟨howned, hloads ▸ hpaid, hloads ▸ h.reloaded⟩

theorem of_sharing (h : p.Attributed env) {p' : Program} (howned : p'.Owned)
    (hsharing : p'.world.sharing = p.world.sharing)
    (hforwarders : p'.clients.forwarders = p.clients.forwarders) : p'.Attributed env := by
  refine h.of_clients howned ⟨?_, fun forwarder => ?_⟩
  · change p'.world.sharing.loads = _
    rw [hsharing]
    rfl
  · have hpaid := h.paid.paid forwarder
    change p'.world.sharing.reported forwarder + _ ≤ p'.world.sharing.chosen.count forwarder
    rw [hsharing, hforwarders]
    exact hpaid

theorem handleDnsRequest (h : p.Attributed env) (handle : Int) :
    (p.handleDnsRequest env handle).Attributed env := by
  have hasked : (p.setWorld p.world.ask).Attributed env :=
    h.of_sharing (h.owned.setWorld rfl rfl) rfl rfl
  have howned := h.owned.handleDnsRequest env handle
  unfold Program.handleDnsRequest at *
  split
  next hany =>
    rw [if_pos hany] at howned
    dsimp only at howned ⊢
    split
    next => exact hasked
    next message hreceive =>
      rw [hreceive] at howned
      dsimp only at howned
      split
      next => exact hasked
      next hshort =>
        rw [if_neg hshort] at howned
        exact hasked.of_clients howned (hasked.paid.handleRequest env _)
  next => exact h

theorem setForwarders (h : p.Attributed env) {forwarders : List Forwarder} {tick : Nat}
    (hreload : forwarders ∈ env.reload tick) : (p.setForwarders forwarders).Attributed env := by
  have hloads : (p.setForwarders forwarders).world.loads = p.world.loads ++ [forwarders] :=
    p.world.sharing.loads_apply (.setForwarders forwarders)
  refine ⟨h.owned.setWorld rfl rfl, ⟨rfl, fun forwarder => ?_⟩, ?_⟩
  · have hpaid := h.paid.paid forwarder
    have hreported := p.world.sharing.reported_apply (.setForwarders forwarders) forwarder
    have hchosen := p.world.sharing.chosen_apply (.setForwarders forwarders)
    change (p.world.sharing.apply (.setForwarders forwarders)).reported forwarder + _ ≤
      (p.world.sharing.apply (.setForwarders forwarders)).chosen.count forwarder
    rw [hreported, hchosen]
    exact hpaid.trans_eq (congrArg (List.count forwarder) (List.append_nil _).symm)
  · rw [hloads]
    intro forwarders' hmem
    rw [List.mem_append, List.mem_singleton] at hmem
    rcases hmem with hold | rfl
    · exact h.reloaded forwarders' hold
    · exact ⟨tick, hreload⟩

theorem handleRead (h : p.Attributed env) : (p.handleRead env).Attributed env := by
  have hfold : ∀ (reloads : List (List Forwarder)) (p' : Program),
      reloads ⊆ env.reload p.world.tick → p'.Attributed env →
        (reloads.foldl Program.setForwarders p').Attributed env := by
    intro reloads
    induction reloads with
    | nil => exact fun _ _ h => h
    | cons forwarders reloads ih =>
      intro p' hsubset h
      rw [List.cons_subset] at hsubset
      exact ih _ hsubset.2 (h.setForwarders hsubset.1)
  exact hfold _ _ (List.Subset.refl _) (h.of_sharing (h.owned.setWorld rfl rfl) rfl rfl)

theorem callCallback (h : p.Attributed env) (kind : Kind) (handle : Int) :
    ((machine env).callCallback kind handle p).Attributed env := by
  have howned := h.owned.callCallback env kind handle
  unfold Machine.callCallback at *
  split
  next entry hfind =>
    rw [hfind] at howned
    change (p.call env entry.callback handle).Owned at howned
    change (p.call env entry.callback handle).Attributed env
    have hlisted := h.owned.listed
    cases hcallback : entry.callback <;> rw [hcallback] at howned
    case connect id => exact h.of_clients howned (h.paid.call hlisted env id (.connect id))
    case incoming id => exact h.of_clients howned (h.paid.call hlisted env id (.incoming id))
    case outgoing id => exact h.of_clients howned (h.paid.call hlisted env id (.outgoing id))
    case shutdown id => exact h.of_clients howned (h.paid.call hlisted env id (.shutdown id))
    case exception id => exact h.of_clients howned (h.paid.call hlisted env id (.exception id))
    case handleDnsRequest => exact h.handleDnsRequest handle
    case handleRead => exact h.handleRead
  next => exact h

theorem shutdown (h : p.Attributed env) : p.shutdown.Attributed env := by
  have hrelease : ∀ (sockets : List (Int × Registration)) (w : World),
      (sockets.foldl World.release w).sharing = w.sharing := by
    intro sockets
    induction sockets with
    | nil => exact fun _ => rfl
    | cons socket sockets ih => exact fun w => ih _
  exact h.of_sharing h.owned.shutdown (hrelease p.sockets p.world) rfl

theorem sharing_addServer (env : Env) (p : Program) :
    (p.addServer env).2.world.sharing = p.world.sharing ∧
      (p.addServer env).2.clients.forwarders = p.clients.forwarders := by
  have hopened := World.sharing_openHandle env p.world
  unfold addServer
  split
  next w hopen =>
    rw [hopen] at hopened
    exact ⟨hopened, rfl⟩
  next handle w hopen =>
    rw [hopen] at hopened
    exact ⟨hopened, rfl⟩

theorem sharing_configure (env : Env) (watched : Bool) (p : Program) :
    (p.configure env watched).world.sharing = p.world.sharing ∧
      (p.configure env watched).clients.forwarders = p.clients.forwarders := by
  have hopened := World.sharing_openHandle env p.world
  unfold configure
  split
  next w hopen =>
    rw [hopen] at hopened
    exact ⟨hopened, rfl⟩
  next handle w hopen =>
    rw [hopen] at hopened
    split
    next => exact ⟨hopened, rfl⟩
    next => exact ⟨hopened, rfl⟩

theorem start {config : ConfigParser} {handles : List Int} {watched : Bool}
    (hstart : Program.start env config handles watched = some p) : p.Attributed env := by
  obtain ⟨hsharing, hforwarders⟩ := addServers_preserves env
    (P := fun p' => p'.world.sharing = (new config handles).world.sharing ∧
      p'.clients.forwarders = [])
    (fun p' h => ⟨(sharing_addServer env p').1.trans h.1, (sharing_addServer env p').2.trans h.2⟩)
    config.servers { new config handles with server := some [] } ⟨rfl, rfl⟩
  have hconfigured := sharing_configure env watched
    (addServers env config.servers { new config handles with server := some [] }).2
  rw [← start_eq_configure hstart, hsharing, hforwarders] at hconfigured
  refine ⟨.start hstart, ⟨rfl, fun forwarder => ?_⟩, ?_⟩
  · change p.world.sharing.reported forwarder + _ ≤ _
    rw [hconfigured.1, hconfigured.2]
    exact Nat.zero_le _
  · change ∀ forwarders ∈ p.world.sharing.loads, _
    rw [hconfigured.1]
    exact fun _ h => absurd h List.not_mem_nil

theorem step {r : Running Program} (h : r.state.Attributed env) (event : Event) :
    (step env r event).state.Attributed env :=
  step_preserves (fun kind handle _ h => h.callCallback kind handle) (fun _ h => h.shutdown) h event

theorem run {r : Running Program} (h : r.state.Attributed env) (events : List Event) :
    (Library.Run.run (Program.step env) r events).state.Attributed env :=
  run_preserves (I := fun r : Running Program => r.state.Attributed env)
    (fun _ event h => h.step event) h events

end Attributed

variable {env : Env} {config : ConfigParser} {handles : List Int} {watched : Bool} {p : Program}

/-- In every run a forwarder was reported bad at most once for each connection that was
made to it, and not for those that are still open. -/
theorem failures_attributed (hstart : start env config handles watched = some p)
    (events : List Event) (forwarder : Forwarder) :
    let last := (run (step env) (Machine.start p) events).state
    last.world.reported forwarder +
        (last.clients.forwarders.filter fun c => c.forwarder = forwarder).length ≤
      last.world.chosen.count forwarder := by
  intro last
  have h : last.Attributed env := Attributed.run (r := Machine.start p) (.start hstart) events
  have hopens : ∀ connections : List ForwarderConnection, (∀ c ∈ connections, c.socket ≠ none) →
      (connections.map (·.opens forwarder)).sum =
        (connections.filter fun c => c.forwarder = forwarder).length := by
    intro connections
    induction connections with
    | nil => exact fun _ => rfl
    | cons c connections ih =>
      intro hopen
      have hrest := ih fun c' hc' => hopen c' (List.mem_cons_of_mem _ hc')
      have hsocket := hopen c List.mem_cons_self
      rw [List.map_cons, List.sum_cons, hrest, ForwarderConnection.opens, List.filter_cons]
      by_cases hforwarder : c.forwarder = forwarder
      · simp [hsocket, hforwarder, Nat.add_comm]
      · simp [hforwarder]
  rw [← hopens _ fun c hc => (h.owned.listed.alive c hc).socket]
  exact h.paid.paid forwarder

namespace Sample

def twoConfig : ConfigParser :=
  { Sample.config with
    forwarders := [ForwarderConfig.forwarderAt 1, ForwarderConfig.forwarderAt 2] }

def failing : Env := Sample.env ⟨-1, .other, []⟩

def failingProgram : Program := (start failing twoConfig [0, 1, 2] false).get rfl

theorem failing_eq : start failing twoConfig [0, 1, 2] false = some failingProgram :=
  (Option.some_get _).symm

def twice : List Event := busy ++ [task 100 [3], task 100 []]

end Sample

open Sample in
theorem failures_attributed_twice :
    let last := (run (step failing) (Machine.start failingProgram) twice).state
    last.world.reported (ForwarderConfig.forwarderAt 1) +
        (last.clients.forwarders.filter fun c =>
          c.forwarder = ForwarderConfig.forwarderAt 1).length ≤
      last.world.chosen.count (ForwarderConfig.forwarderAt 1) :=
  failures_attributed failing_eq twice (ForwarderConfig.forwarderAt 1)

theorem leastRecent_of_history (hdistinct : (config.forwarders.map Forwarder.remote).Nodup)
    (hreloads : ∀ tick, ∀ forwarders ∈ env.reload tick, (forwarders.map Forwarder.remote).Nodup)
    (handles : List Int) {last : Program} (h : last.Attributed env) {ops : List Shared.Op}
    (hops : ops <+: last.world.sharing.history) {chosen : Forwarder}
    (hchosen : (run Shared.apply (.new (new config handles).world.sharing.initial)
      ops).config.get = some chosen) : Shared.LeastRecent config.forwarders ops chosen := by
  unfold Shared.LeastRecent
  intro noted
  have hnodup : ((ForwarderConfig.mk noted.1 0).forwarders.map Forwarder.remote).Nodup := by
    rcases Shared.note_configured ops (config.forwarders, []) with hsame | hload
    · change (noted.1.map _).Nodup
      rw [hsame]
      exact hdistinct
    · have hmem : noted.1 ∈ last.world.loads := (hops.filterMap Shared.Op.load).subset hload
      obtain ⟨tick, hreload⟩ := h.reloaded noted.1 hmem
      exact hreloads tick noted.1 hreload
  have hforwarders : (run Shared.apply (.new (new config handles).world.sharing.initial)
      ops).config.forwarders = (ForwarderConfig.report ⟨noted.1, 0⟩ noted.2).forwarders := by
    refine Shared.run_note ops _ _ ?_
    change ((config.forwarders.foldl ForwarderConfig.addForwarder _).setTimeout _).forwarders = _
    rw [ForwarderConfig.foldl_addForwarder]
    rfl
  have hfirst : (ForwarderConfig.report ⟨noted.1, 0⟩ noted.2).get = some chosen := by
    rw [ForwarderConfig.get, ← hforwarders]
    exact hchosen
  exact ForwarderConfig.get_leastRecent hnodup hfirst

/-- Every connection of a run is made to the forwarder that has not failed for longest,
and that is the forwarder of the connection. -/
theorem failover_leastRecent (hstart : start env config handles watched = some p)
    (hdistinct : (config.forwarders.map Forwarder.remote).Nodup)
    (hreloads : ∀ tick, ∀ forwarders ∈ env.reload tick, (forwarders.map Forwarder.remote).Nodup)
    (events : List Event) :
    let last := (run (step env) (Machine.start p) events).state
    (∀ before after, last.world.sharing.history = before ++ .create :: after →
      ∀ chosen, (run Shared.apply (.new (new config handles).world.sharing.initial)
        before).config.get = some chosen → Shared.LeastRecent config.forwarders before chosen) ∧
    ∀ c ∈ last.clients.forwarders, ∃ ops, Made env config.timeout p events ops c ∧
      Shared.LeastRecent config.forwarders ops c.forwarder := by
  intro last
  have h : last.Attributed env := Attributed.run (r := Machine.start p) (.start hstart) events
  constructor
  · intro before after hmade chosen hchosen
    refine leastRecent_of_history hdistinct hreloads handles h ?_ hchosen
    rw [hmade]
    exact List.prefix_append _ _
  · intro c hc
    obtain ⟨ops, hmade⟩ := made_of_mem hstart hc
    refine ⟨ops, hmade, ?_⟩
    obtain ⟨before, event, after, rfl, hstamped⟩ := hmade
    have hbefore := (grows_start hstart).trans
      (grows_run (r := Machine.start p) (Owned.start hstart) env before)
    have hafter := grows_run ((owned_run hstart before).step env event) env after
    refine leastRecent_of_history hdistinct hreloads handles h ?_ ?_
    · refine ((List.prefix_append ops _).trans hstamped.created).trans ?_
      have hhistory := hafter.later.history
      rw [← run_cons (step env), ← run_append] at hhistory
      exact hhistory
    · have hforwarder := hstamped.forwarder
      rw [hbefore.later.initial] at hforwarder
      exact hforwarder

open Sample in
theorem failover_leastRecent_twice :
    Shared.LeastRecent twoConfig.forwarders
      [.create, .cacheSession none, .setBad (ForwarderConfig.forwarderAt 1)]
      (ForwarderConfig.forwarderAt 2) := by
  have hmade : (run (step failing) (Machine.start failingProgram)
      twice).state.world.sharing.history =
      [.create, .cacheSession none, .setBad (ForwarderConfig.forwarderAt 1)] ++ .create ::
        [.cacheSession none, .setBad (ForwarderConfig.forwarderAt 2)] := by decide +kernel
  exact (failover_leastRecent failing_eq (by decide) (fun _ _ h => absurd h List.not_mem_nil)
    twice).1 _ _ hmade _ (by decide)

end Program

end Dote
