import Dote.Clients.Growth
import Dote.Server.Ownership

/-! The clock, the shared history and the connections of the program, through every
callback and every signal of a run. -/
namespace Dote
open World

namespace Program
open ClientForwarders

variable {env : Env} {p : Program}

theorem grows_setWorld {w : World} (hlater : p.world.Later w) :
    Grows env p.clients (p.setWorld w).clients :=
  .of_subset hlater (Nat.le_refl _) rfl (List.Subset.refl _)

theorem grows_handleDnsRequest (env : Env) (handle : Int) (p : Program) :
    Grows env p.clients (p.handleDnsRequest env handle).clients := by
  have hasked : Grows env p.clients (p.setWorld p.world.ask).clients := grows_setWorld (.ask _)
  unfold handleDnsRequest
  split
  next =>
    dsimp only
    split
    next => exact hasked
    next message _ =>
      split
      next => exact hasked
      next => exact hasked.trans (grows_handleRequest env _ _)
  next => exact .refl env _

theorem grows_handleRead (env : Env) (p : Program) :
    Grows env p.clients (p.handleRead env).clients := by
  have hfold : ∀ (reloads : List (List Config.Forwarder)) (p' : Program),
      Grows env p.clients p'.clients →
        Grows env p.clients (reloads.foldl setForwarders p').clients := by
    intro reloads
    induction reloads with
    | nil => exact fun _ h => h
    | cons forwarders reloads ih =>
      exact fun p' h => ih _ (h.trans (grows_setWorld (.share p'.world _)))
  exact hfold (env.reload p.world.tick) _ (grows_setWorld (.ask p.world))

theorem callCallback_server (env : Env) (kind : Kind) (handle : Int) (p : Program) :
    ((machine env).callCallback kind handle p).server = p.server := by
  unfold Machine.callCallback
  split
  next entry _ =>
    change (p.call env entry.callback handle).server = p.server
    cases entry.callback with
    | handleDnsRequest =>
      change (p.handleDnsRequest env handle).server = p.server
      unfold handleDnsRequest
      split
      next =>
        dsimp only
        split
        next => rfl
        next => split <;> rfl
      next => rfl
    | handleRead =>
      obtain ⟨w, heq, -⟩ := p.handleRead_eq env
      change (p.handleRead env).server = p.server
      rw [heq]
      rfl
    | _ => rfl
  next => rfl

theorem grows_callCallback (h : p.Owned) (env : Env) (kind : Kind) (handle : Int) :
    Grows env p.clients ((machine env).callCallback kind handle p).clients := by
  unfold Machine.callCallback
  split
  next entry _ =>
    change Grows env p.clients (p.call env entry.callback handle).clients
    cases entry.callback with
    | connect id => exact grows_call h.listed id (.connect id)
    | incoming id => exact grows_call h.listed id (.incoming id)
    | outgoing id => exact grows_call h.listed id (.outgoing id)
    | shutdown id => exact grows_call h.listed id (.shutdown id)
    | exception id => exact grows_call h.listed id (.exception id)
    | handleDnsRequest => exact grows_handleDnsRequest env handle p
    | handleRead => exact grows_handleRead env p
  next => exact .refl env _

theorem later_shutdown (p : Program) : p.world.Later p.shutdown.world := by
  have hfold : ∀ (sockets : List (Int × Registration)) (w : World), p.world.Later w →
      p.world.Later (sockets.foldl World.release w) := by
    intro sockets
    induction sockets with
    | nil => exact fun _ h => h
    | cons socket sockets ih =>
      intro w h
      have hrelease : w.Later (w.release socket) := .of_same rfl (Nat.le_refl _)
      exact ih _ (h.trans hrelease)
  exact hfold p.sockets p.world (.refl _)

theorem grows_shutdown (env : Env) (p : Program) : Grows env p.clients p.shutdown.clients :=
  grows_setWorld (later_shutdown p)

theorem grows_step {r : Running Program} (h : r.state.Owned) (env : Env) (event : Event) :
    Grows env r.state.clients (step env r event).state.clients := by
  refine (step_preserves (P := fun p => p.Owned ∧ Grows env r.state.clients p.clients) ?_ ?_
    ⟨h, .refl env _⟩ event).2
  · exact fun kind handle p h =>
      ⟨h.1.callCallback env kind handle, h.2.trans (grows_callCallback h.1 env kind handle)⟩
  · exact fun p h => ⟨h.1.shutdown, h.2.trans (grows_shutdown env p)⟩

theorem grows_run {r : Running Program} (h : r.state.Owned) (env : Env) (events : List Event) :
    Grows env r.state.clients (Library.Run.run (step env) r events).state.clients := by
  have hkeep : ∀ (r' : Running Program) (event : Event),
      r'.state.Owned ∧ Grows env r.state.clients r'.state.clients →
        (step env r' event).state.Owned ∧
          Grows env r.state.clients (step env r' event).state.clients :=
    fun r' event h => ⟨h.1.step env event, h.2.trans (grows_step h.1 env event)⟩
  exact (Library.Run.run_preserves hkeep ⟨h, .refl env _⟩ events).2

theorem grows_addServer (env : Env) (p : Program) :
    Grows env p.clients (p.addServer env).2.clients := by
  have hopened := Later.openHandle env p.world
  unfold addServer
  split
  next w hopen =>
    rw [hopen] at hopened
    exact grows_setWorld hopened
  next handle w hopen =>
    rw [hopen] at hopened
    exact grows_setWorld (hopened.trans (.of_same rfl (Nat.le_refl _)))

theorem grows_configure (env : Env) (watched : Bool) (p : Program) :
    Grows env p.clients (p.configure env watched).clients := by
  have hopened := Later.openHandle env p.world
  unfold configure
  split
  next w hopen =>
    rw [hopen] at hopened
    exact grows_setWorld hopened
  next handle w hopen =>
    rw [hopen] at hopened
    split
    next => exact grows_setWorld (hopened.trans (.of_same rfl (Nat.le_refl _)))
    next => exact grows_setWorld (hopened.trans (.of_same rfl (Nat.le_refl _)))

theorem configure_sockets (env : Env) (watched : Bool) (p : Program) :
    (p.configure env watched).sockets = p.sockets := by
  unfold configure
  split
  next => rfl
  next =>
    split
    next => rfl
    next => rfl

variable {config : Config.ConfigParser} {handles : List Int} {watched : Bool}

theorem start_eq_configure (hstart : start env config handles watched = some p) :
    p = (addServers env config.servers
      { new config handles with server := some [] }).2.configure env watched := by
  unfold start listen at hstart
  cases hlisten : addServers env config.servers { new config handles with server := some [] } with
  | mk result p' =>
    rw [hlisten] at hstart
    cases result with
    | true =>
      cases hstart
      rfl
    | false => contradiction

theorem addServers_preserves (env : Env) {P : Program → Prop}
    (hadd : ∀ p, P p → P (p.addServer env).2) (servers : List Config.SockAddr) :
    ∀ p, P p → P (addServers env servers p).2 := by
  induction servers with
  | nil => exact fun _ h => h
  | cons address servers ih => exact fun p h => ih _ (hadd p h)

theorem start_preserves {P : Program → Prop}
    (hstart : start env config handles watched = some p)
    (hnew : P { new config handles with server := some [] })
    (hadd : ∀ p, P p → P (p.addServer env).2)
    (hconfigure : ∀ p, P p → P (p.configure env watched)) : P p := by
  rw [start_eq_configure hstart]
  exact hconfigure _ (addServers_preserves env hadd config.servers _ hnew)

theorem start_clients (hstart : start env config handles watched = some p) :
    ∃ w, p.clients = { (new config handles).clients with world := w } := by
  refine start_preserves
    (P := fun p => ∃ w, p.clients = { (new config handles).clients with world := w }) hstart
    ⟨_, rfl⟩ ?_ ?_
  · rintro p ⟨w, hclients⟩
    unfold addServer setWorld
    rw [hclients]
    split
    next w' _ => exact ⟨w', rfl⟩
    next w' _ => exact ⟨_, rfl⟩
  · rintro p ⟨w, hclients⟩
    unfold configure setWorld
    rw [hclients]
    split
    next w' _ => exact ⟨w', rfl⟩
    next w' _ =>
      split
      next => exact ⟨_, rfl⟩
      next => exact ⟨_, rfl⟩

theorem start_server (hstart : start env config handles watched = some p) : p.server ≠ none := by
  refine start_preserves (P := fun p => p.server ≠ none) hstart (by simp) ?_ ?_
  · intro p h
    unfold addServer
    split
    next => exact h
    next => simp
  · intro p h
    unfold configure
    split
    next => exact h
    next =>
      split
      next => exact h
      next => exact h

theorem addServers_sockets (env : Env) (servers : List Config.SockAddr) :
    ∀ p : Program, (addServers env servers p).1 = true →
      (addServers env servers p).2.sockets.length = p.sockets.length + servers.length := by
  induction servers with
  | nil => exact fun _ _ => rfl
  | cons address servers ih =>
    intro p h
    unfold addServers at h ⊢
    dsimp only at h ⊢
    rw [Bool.and_eq_true] at h
    rw [ih _ h.2, List.length_cons]
    have hadded : (p.addServer env).2.sockets.length = p.sockets.length + 1 := by
      have hadd := h.1
      unfold addServer at hadd ⊢
      split at hadd
      next => contradiction
      next => simp [sockets]
    omega

theorem start_sockets (hstart : start env config handles watched = some p) :
    p.sockets.length = config.servers.length := by
  have hlistens : (addServers env config.servers
      { new config handles with server := some [] }).1 = true := by
    unfold start listen at hstart
    cases hlisten : addServers env config.servers
        { new config handles with server := some [] } with
    | mk result p' =>
      rw [hlisten] at hstart
      cases result with
      | true => rfl
      | false => contradiction
  rw [start_eq_configure hstart, configure_sockets, addServers_sockets env _ _ hlistens]
  exact Nat.zero_add _

/-- The shutdown has not been asked for. -/
def Serving (events : List Event) : Prop := .signal ∉ events ∧ .interrupt ∉ events

/-- The server keeps its sockets until the shutdown. -/
theorem run_server (env : Env) {events : List Event} (h : Serving events) :
    ∀ r : Running Program,
      (Library.Run.run (step env) r events).state.server = r.state.server := by
  induction events with
  | nil => exact fun _ => rfl
  | cons event events ih =>
    intro r
    obtain ⟨hsignal, hinterrupt⟩ := h
    rw [List.mem_cons, not_or] at hsignal hinterrupt
    rw [Library.Run.run_cons, ih ⟨hsignal.2, hinterrupt.2⟩]
    cases event with
    | task now revents =>
      refine (machine env).step_preserves (P := fun p => p.server = r.state.server) ?_ rfl _
      intro kind handle p hsame
      exact (callCallback_server env kind handle p).trans hsame
    | signal => exact absurd rfl hsignal.1
    | interrupt => exact absurd rfl hinterrupt.1

theorem run_sockets (hstart : start env config handles watched = some p) {events : List Event}
    (h : Serving events) :
    (Library.Run.run (step env) (Machine.start p) events).state.sockets.length =
      config.servers.length := by
  rw [sockets, run_server env h]
  exact start_sockets hstart

theorem grows_start (hstart : start env config handles watched = some p) :
    Grows env (new config handles).clients p.clients := by
  refine start_preserves (P := fun p => Grows env (new config handles).clients p.clients) hstart
    (.refl env _) ?_ ?_
  · exact fun p h => h.trans (grows_addServer env p)
  · exact fun p h => h.trans (grows_configure env watched p)

theorem dated_start (hstart : start env config handles watched = some p) :
    p.clients.Dated env config.timeout :=
  (grows_start hstart).dated ⟨rfl, by simp [new, ClientForwarders.new]⟩

/-- The connection was made in one of the events, so many seconds before its deadline and
behind those operations on what is shared. -/
def Made (env : Env) (seconds : Nat) (p : Program) (events : List Event) (ops : List Shared.Op)
    (c : ForwarderConnection) : Prop :=
  ∃ before event after, events = before ++ event :: after ∧
    let r := Library.Run.run (step env) (Machine.start p) before
    Stamped env seconds r.state.clients (step env r event).state.clients ops c

/-- Its number was given out in one event, and with it all that it has kept since. -/
theorem made_of_mem (hstart : start env config handles watched = some p) {events : List Event}
    {c : ForwarderConnection}
    (hc : c ∈ (Library.Run.run (step env) (Machine.start p) events).state.clients.forwarders) :
    ∃ ops, Made env config.timeout p events ops c := by
  have hnone : ¬ c.id < (Machine.start p).state.clients.nextId := by
    obtain ⟨w, hclients⟩ := start_clients hstart
    rw [Machine.start, hclients]
    exact Nat.not_lt_zero _
  have hlast := (owned_run hstart events).listed.ids_lt c hc
  obtain ⟨before, event, after, rfl, hfresh, hgiven⟩ := Library.Run.exists_switch
    (A := fun r : Running Program => c.id < r.state.clients.nextId) hnone hlast
  have hbefore := owned_run hstart before
  have hconfig := (grows_run (r := Machine.start p) (Owned.start hstart) env before).dated
    (dated_start hstart)
  generalize hr : Library.Run.run (step env) (Machine.start p) before = r at *
  rw [Library.Run.run_append, hr, Library.Run.run_cons] at hc
  have hevent := grows_step hbefore env event
  have hafter := grows_run (hbefore.step env event) env after
  rcases hafter.connections c hc with ⟨c', hc', hkept⟩ | ⟨ops, hlater⟩
  · rcases hevent.connections c' hc' with ⟨old, hold, hkept'⟩ | ⟨ops, hstamped⟩
    · have hid := hbefore.listed.ids_lt old hold
      rw [← hkept'.id, ← hkept.id] at hid
      contradiction
    · rw [hconfig.config] at hstamped
      refine ⟨ops, before, event, after, rfl, ?_⟩
      rw [hr]
      exact hstamped.of_grows hkept (.refl env _) (.refl env _)
  · exact absurd hlater.fresh (Nat.not_le_of_lt hgiven)

end Program

end Dote
