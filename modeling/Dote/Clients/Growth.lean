import Dote.Clients.Slots
import Dote.Connection.Later

/-! Whatever a client or the loop makes of `ClientForwarders`, its connections are
those of before, or they have later numbers and a deadline from then on. -/
namespace Dote
open World

/-- The connection expires so many seconds after a moment that the clock has shown. -/
def ForwarderConnection.Dated (env : Env) (seconds tick : Nat) (c : ForwarderConnection) : Prop :=
  ∃ made < tick, c.timeout = env.time made + seconds

namespace ClientForwarders

structure Kept (c c' : ForwarderConnection) : Prop where
  id : c'.id = c.id
  timeout : c'.timeout = c.timeout
  forwarder : c'.forwarder = c.forwarder

/-- The connection has been made between the two states, behind those operations on what
is shared. -/
structure Stamped (env : Env) (seconds : Nat) (s s' : ClientForwarders) (ops : List Shared.Op)
    (c : ForwarderConnection) : Prop where
  fresh : s.nextId ≤ c.id
  numbered : c.id < s'.nextId
  timeout : ∃ made, s.world.tick ≤ made ∧ made < s'.world.tick ∧
    c.timeout = env.time made + seconds
  before : s.world.sharing.history <+: ops
  created : ops ++ [.create] <+: s'.world.sharing.history
  forwarder : (Library.Run.run Shared.apply (.new s.world.sharing.initial) ops).config.get =
    some c.forwarder

structure Grows (env : Env) (s s' : ClientForwarders) : Prop where
  later : s.world.Later s'.world
  nextId : s.nextId ≤ s'.nextId
  maxConnections : s'.maxConnections = s.maxConnections
  connections : ∀ c ∈ s'.forwarders, (∃ c' ∈ s.forwarders, Kept c' c) ∨
    ∃ ops, Stamped env s.world.config.timeout s s' ops c

variable {env : Env} {s s' s'' : ClientForwarders}

theorem Stamped.of_grows {seconds : Nat} {t t' : ClientForwarders} {ops : List Shared.Op}
    {c c' : ForwarderConnection} (h : Stamped env seconds s s' ops c) (hkept : Kept c c')
    (hbefore : Grows env t s) (hbehind : Grows env s' t') : Stamped env seconds t t' ops c' where
  fresh := by
    rw [hkept.id]
    exact Nat.le_trans hbefore.nextId h.fresh
  numbered := by
    rw [hkept.id]
    exact Nat.lt_of_lt_of_le h.numbered hbehind.nextId
  timeout := by
    obtain ⟨made, hle, hlt, hmade⟩ := h.timeout
    exact ⟨made, Nat.le_trans hbefore.later.tick hle, Nat.lt_of_lt_of_le hlt hbehind.later.tick,
      hkept.timeout.trans hmade⟩
  before := hbefore.later.history.trans h.before
  created := h.created.trans hbehind.later.history
  forwarder := by
    rw [hkept.forwarder, ← hbefore.later.initial]
    exact h.forwarder

theorem Grows.of_subset (hlater : s.world.Later s'.world) (hnext : s.nextId ≤ s'.nextId)
    (hmax : s'.maxConnections = s.maxConnections) (hsubset : s'.forwarders ⊆ s.forwarders) :
    Grows env s s' :=
  ⟨hlater, hnext, hmax, fun c hc => .inl ⟨c, hsubset hc, rfl, rfl, rfl⟩⟩

theorem Grows.refl (env : Env) (s : ClientForwarders) : Grows env s s :=
  .of_subset (.refl _) (Nat.le_refl _) rfl (List.Subset.refl _)

theorem Grows.trans (h : Grows env s s') (h' : Grows env s' s'') : Grows env s s'' where
  later := h.later.trans h'.later
  nextId := Nat.le_trans h.nextId h'.nextId
  maxConnections := h'.maxConnections.trans h.maxConnections
  connections := by
    intro c hc
    rcases h'.connections c hc with ⟨c', hc', hkept⟩ | ⟨ops, hnew⟩
    · rcases h.connections c' hc' with ⟨c'', hc'', hkept'⟩ | ⟨ops, hnew⟩
      · exact .inl ⟨c'', hc'', hkept.id.trans hkept'.id, hkept.timeout.trans hkept'.timeout,
          hkept.forwarder.trans hkept'.forwarder⟩
      · exact .inr ⟨ops, hnew.of_grows hkept (.refl env s) h'⟩
    · rw [h.later.timeout] at hnew
      exact .inr ⟨ops, hnew.of_grows ⟨rfl, rfl, rfl⟩ h (.refl env s'')⟩

/-- The time of the configuration is that, and so is the time of each connection. -/
structure Dated (env : Env) (seconds : Nat) (s : ClientForwarders) : Prop where
  config : s.world.config.timeout = seconds
  dated : ∀ c ∈ s.forwarders, c.Dated env seconds s.world.tick

theorem Grows.dated (h : Grows env s s') {seconds : Nat} (hdated : s.Dated env seconds) :
    s'.Dated env seconds where
  config := h.later.timeout.trans hdated.config
  dated := by
    intro c hc
    rcases h.connections c hc with ⟨c', hc', hkept⟩ | ⟨ops, hnew⟩
    · obtain ⟨made, hlt, hmade⟩ := hdated.dated c' hc'
      exact ⟨made, Nat.lt_of_lt_of_le hlt h.later.tick, hkept.timeout.trans hmade⟩
    · obtain ⟨made, -, hlt, hmade⟩ := hnew.timeout
      exact ⟨made, hlt, hmade.trans (by rw [hdated.config])⟩

theorem Kept.of_keeps {a b : Active} (h : Active.Keeps a b) : Kept a.self b.self :=
  ⟨h.id, h.timeout, h.forwarder⟩

variable (env s)

theorem grows_trySend (query : QueuedQuery) : Grows env s (s.trySend env query).2 := by
  have hnew := ForwarderConnection.later_new env s.nextId s.world
  have hsend := Active.later_send (ForwarderConnection.new env s.nextId s.world) query.request
  have hkept := Active.send_keeps (ForwarderConnection.new env s.nextId s.world) query.request
  have hlater := (Later.ask s.world).trans (hnew.1.trans hsend)
  unfold trySend
  dsimp only
  split
  next haccepted =>
    obtain ⟨hchosen, hcreated⟩ := ForwarderConnection.new_chosen env s.nextId s.world
      (Active.socket_of_send haccepted)
    refine ⟨hlater, Nat.le_succ _, rfl, ?_⟩
    intro c hc
    rw [List.mem_append, List.mem_singleton] at hc
    rcases hc with hold | rfl
    · exact .inl ⟨c, hold, rfl, rfl, rfl⟩
    · have hnumber := (Active.send_true haccepted).1.trans
        (ForwarderConnection.new_id env s.nextId s.world)
      refine .inr ⟨s.world.sharing.history, Nat.le_of_eq hnumber.symm, ?_, ?_, List.prefix_rfl, ?_,
        ?_⟩
      · exact Nat.lt_succ_of_le (Nat.le_of_eq hnumber)
      · exact ⟨s.world.tick, Nat.le_refl _, (hnew.1.trans hsend).tick,
          hkept.timeout.trans hnew.2⟩
      · exact hcreated.trans hsend.history
      · rw [← s.world.sharing.state_eq, hkept.forwarder]
        exact hchosen
  next => exact .of_subset hlater (Nat.le_succ _) rfl (List.Subset.refl _)

theorem grows_sendQueued (queue : List QueuedQuery) (query : QueuedQuery) :
    Grows env s (sendQueued env queue s query) :=
  sendQueued_preserves (P := fun s' => Grows env s s')
    (fun _ _ h => h.trans (.of_subset (.refl _) (Nat.le_refl _) rfl (List.Subset.refl _)))
    (fun s' query h => h.trans (grows_trySend env s' query)) queue s query (.refl env s)

theorem grows_dequeue : Grows env s (s.dequeue env) := by
  unfold dequeue
  split
  next => exact .refl env s
  next front queue _ =>
    have hqueue : Grows env s { s with queue := queue } :=
      .of_subset (.refl _) (Nat.le_refl _) rfl (List.Subset.refl _)
    exact hqueue.trans (grows_sendQueued env _ queue front)

theorem grows_handleRequest (query : QueuedQuery) : Grows env s (s.handleRequest env query) := by
  unfold handleRequest
  split
  next => exact grows_sendQueued env s s.queue query
  next => exact .of_subset (.refl _) (Nat.le_refl _) rfl (List.Subset.refl _)

theorem grows_handleShutdown (id : Nat) : Grows env s (s.handleShutdown env id) := by
  have herase : Grows env s { s with forwarders := s.forwarders.eraseP (·.id = id) } :=
    .of_subset (.refl _) (Nat.le_refl _) rfl List.eraseP_subset
  exact herase.trans (grows_dequeue env _)

variable {env s}

theorem grows_put {a : Active} (hlater : s.world.Later a.world)
    (hsame : ∀ c ∈ s.forwarders, c.id = a.self.id → Kept c a.self) :
    Grows env s (s.put a) := by
  refine ⟨hlater, Nat.le_refl _, rfl, ?_⟩
  intro c hc
  obtain ⟨c', hc', rfl⟩ := List.mem_map.mp hc
  left
  refine ⟨c', hc', ?_⟩
  split
  next hid => exact hsame c' hc' hid
  next => exact ⟨rfl, rfl, rfl⟩

theorem put_same (s : ClientForwarders) (a : Active) :
    ∀ c ∈ (s.put a).forwarders, c.id = a.self.id → c = a.self := by
  intro c hc hid
  obtain ⟨c', -, rfl⟩ := List.mem_map.mp hc
  split
  next => rfl
  next hne =>
    rw [if_neg hne] at hid
    contradiction

theorem grows_upcall {c : ForwarderConnection}
    (hsame : ∀ c' ∈ s.forwarders, c'.id = c.id → c' = c) (upcall : Upcall) :
    Grows env s (s.upcall env c upcall) := by
  cases upcall with
  | none => exact .refl env s
  | shutdown => exact grows_handleShutdown env s c.id
  | incoming buffer =>
    unfold ClientForwarders.upcall
    dsimp only
    split
    next => exact .refl env s
    next requester _ =>
      have hends := Active.shutdown_ends env ⟨c, s.world⟩
      have hput : Grows env s ((s.handleIncoming requester buffer).put
          (Active.shutdown env ⟨c, s.world⟩).1) := by
        have hanswered : Grows env s (s.handleIncoming requester buffer) :=
          .of_subset (.refl _) (Nat.le_refl _) rfl (List.Subset.refl _)
        refine hanswered.trans (grows_put hends.later ?_)
        intro c' hc' hid'
        rw [hsame c' hc' (hid'.trans hends.keeps.id)]
        exact .of_keeps hends.keeps
      split
      next a heq =>
        change Active.shutdown env ⟨c, s.world⟩ = _ at heq
        rw [heq] at hput
        exact hput.trans (grows_handleShutdown env _ c.id)
      next a upcall _ heq =>
        change Active.shutdown env ⟨c, s.world⟩ = _ at heq
        rw [heq] at hput
        exact hput

theorem grows_call (h : s.Listed) (id : Nat) (callback : Callback) :
    Grows env s (s.call env id callback) := by
  unfold call
  split
  next => exact .refl env s
  next c hfind =>
    have hends := Active.handler_ends env ⟨c, s.world⟩ callback
    have hput : Grows env s (s.put (Active.handler env ⟨c, s.world⟩ callback).1) := by
      refine grows_put hends.later ?_
      intro c' hc' hid'
      have hmem := List.mem_of_find?_eq_some hfind
      rw [List.inj_on_of_nodup_map h.ids hc' hmem (hid'.trans hends.keeps.id)]
      exact .of_keeps hends.keeps
    exact hput.trans (grows_upcall (put_same s _) _)

end ClientForwarders

end Dote
