import Dote.Connection.Operations
import Dote.Connection.Wiring

/-! What each handler of a connection leaves behind: a connection that the loop
will call again, or one that has ended. -/
namespace Dote.Active

variable {a : Active} {handle : Int}

/-- At most that callback is registered, with the deadline of the connection. -/
def Plugged (a : Active) (handle : Int) (kind : Kind) (callback : Callback) : Prop :=
  a.wire handle kind = none ∨ a.wire handle kind = some (callback, a.self.timeout)

def Alternates (a : Active) (handle : Int) (callback : Callback) : Prop :=
  (a.wire handle .read = some (callback, a.self.timeout) ∧ a.wire handle .write = none) ∨
    (a.wire handle .read = none ∧ a.wire handle .write = some (callback, a.self.timeout))

def Awaits (a : Active) (handle : Int) : State → Prop
  | .connecting => a.Alternates handle (.connect a.self.id)
  | .opened => a.wire handle .read = some (.incoming a.self.id, a.self.timeout) ∧
      a.Plugged handle .write (.outgoing a.self.id) ∧
      (a.wire handle .write = none → a.self.buffer = [])
  | .shuttingDown => a.Alternates handle (.shutdown a.self.id)
  | .closed => False

structure Guarded (a : Active) (handle : Int) : Prop where
  consistent : a.Consistent handle
  exception : a.wire handle .exception = some (.exception a.self.id, 0)

structure Linked (a : Active) (handle : Int) : Prop extends Guarded a handle where
  awaits : a.Awaits handle a.self.state

/-- A connection without a socket, which the loop does not know of. -/
structure Ended (a : Active) (handle : Int) : Prop where
  socket : a.self.socket = none
  state : a.self.state = .closed
  moved : ∀ kind, (a.self.registration kind).kind = none
  unwired : ∀ kind, a.wire handle kind = none

structure Outcome (handle : Int) (a : Active) (result : Active × Upcall) : Prop where
  kept : Kept handle a result.1
  cases : (result.1.Linked handle ∧ result.1.world.handles = a.world.handles ∧
      result.2 ≠ .shutdown) ∨
    (result.1.Ended handle ∧ result.1.world.handles = a.world.handles.erase handle ∧
      result.2 = if a.self.hasShutdown then .shutdown else .none)

theorem Outcome.after {a' : Active} {result : Active × Upcall} (hkept : Kept handle a a')
    (hhandles : a'.world.handles = a.world.handles) (h : Outcome handle a' result) :
    Outcome handle a result where
  kept := hkept.trans h.kept
  cases := by
    rw [← hhandles, ← hkept.hasShutdown]
    exact h.cases

theorem Linked.of_wire (h : a.Linked handle) {a' : Active} (hself : a'.self = a.self)
    (hwire : ∀ kind, a'.wire handle kind = a.wire handle kind) : a'.Linked handle where
  consistent := by
    have hconsistent := h.consistent
    constructor
    · rw [hself]
      exact hconsistent.socket
    · intro kind hsome
      rw [hwire] at hsome
      rw [hself]
      exact hconsistent.wired kind hsome
    · intro kind hnone
      rw [hwire] at hnone
      rw [hself]
      exact hconsistent.unwired kind hnone
  exception := by
    rw [hwire, hself]
    exact h.exception
  awaits := by
    have hawaits := h.awaits
    rw [hself]
    cases hstate : a.self.state <;> rw [hstate] at hawaits
    · unfold Awaits Alternates at hawaits ⊢
      simpa only [hwire, hself] using hawaits
    · unfold Awaits Plugged at hawaits ⊢
      simpa only [hwire, hself] using hawaits
    · unfold Awaits Alternates at hawaits ⊢
      simpa only [hwire, hself] using hawaits
    · exact hawaits

theorem Guarded.of_same (h : a.Guarded handle) {a' : Active}
    (hid : a'.self.id = a.self.id) (hsocket : a'.self.socket = a.self.socket)
    (hregistration : a'.self.registration = a.self.registration)
    (hloop : a'.world.loop = a.world.loop) : a'.Guarded handle where
  consistent := h.consistent.of_same hsocket hregistration hloop
  exception := by
    rw [wire, hloop, hid]
    exact h.exception

theorem Guarded.reset (h : a.Guarded handle) {kind : Kind} (hkind : kind ≠ .exception) :
    (a.reset kind).Guarded handle where
  consistent := h.consistent.reset kind
  exception := by
    rw [h.consistent.reset_wire, if_neg hkind.symm]
    exact h.exception

theorem Guarded.register (h : a.Guarded handle) {kind : Kind} (hkind : kind ≠ .exception)
    (hnone : a.wire handle kind = none) (callback : Callback) :
    (a.register kind callback).Guarded handle where
  consistent := h.consistent.register hnone callback
  exception := by
    rw [h.consistent.register_wire hnone, if_neg hkind.symm]
    exact h.exception

theorem close_outcome (h : a.Consistent handle) : Outcome handle a a.close := by
  have hread := h.reset .read
  have hwrite := hread.reset .write
  have hexception := hwrite.reset .exception
  have hkept := ((h.kept_reset .read).trans (hread.kept_reset .write)).trans
    (hwrite.kept_reset .exception)
  have hwires : ∀ kind, (((a.reset .read).reset .write).reset .exception).wire handle kind =
      none := by
    intro kind
    rw [hwrite.reset_wire, hread.reset_wire, h.reset_wire]
    cases kind <;> rfl
  unfold close
  rw [h.socket]
  constructor
  · exact ⟨hkept.id, hkept.timeout, hkept.incoming, hkept.hasShutdown, hkept.forwarder,
      hkept.touches⟩
  · refine .inr ⟨⟨rfl, rfl, ?_, hwires⟩, rfl, rfl⟩
    intro kind
    exact hexception.unwired kind (hwires kind)

theorem Turns.ne_exception {kind other : Kind} (h : Turns kind other) :
    kind ≠ .exception ∧ other ≠ .exception := by
  rcases h with ⟨rfl, rfl⟩ | ⟨rfl, rfl⟩
  · simp
  · simp

theorem await_outcome (h : a.Guarded handle) {kind other : Kind} {callback : Callback}
    (hturns : Turns kind other) (hplugged : a.Plugged handle kind callback)
    (hstate : ∀ a' : Active, a'.self.state = a.self.state → a'.self.id = a.self.id →
      a'.Alternates handle callback → a'.Awaits handle a'.self.state) :
    Outcome handle a ((a.ensure kind callback).reset other, .none) := by
  have hkind := hturns.ne_exception.1
  have hother := hturns.ne_exception.2
  have hensure : (a.ensure kind callback).Guarded handle ∧
      Kept handle a (a.ensure kind callback) ∧
      (a.ensure kind callback).wire handle kind = some (callback, a.self.timeout) ∧
      (a.ensure kind callback).self.state = a.self.state ∧
      (a.ensure kind callback).world.handles = a.world.handles := by
    unfold ensure
    split
    next hvalid =>
      rw [h.consistent.valid_iff] at hvalid
      refine ⟨h, .refl _ _, ?_, rfl, rfl⟩
      cases hplugged with
      | inl hnone => contradiction
      | inr hsome => exact hsome
    next hvalid =>
      rw [h.consistent.valid_iff, not_not] at hvalid
      refine ⟨h.register hkind hvalid callback, h.consistent.kept_register hvalid callback, ?_,
        rfl, rfl⟩
      rw [h.consistent.register_wire hvalid, if_pos rfl, if_neg hkind]
  obtain ⟨hguarded, hkept, hwire, hstate', hhandles⟩ := hensure
  have hreset := hguarded.reset hother
  have hkept' := hkept.trans (hguarded.consistent.kept_reset other)
  constructor
  · exact hkept'
  · refine .inl ⟨⟨hreset, ?_⟩, hhandles, by simp⟩
    apply hstate ((a.ensure kind callback).reset other) hstate' hkept'.id
    unfold Alternates
    simp only [hguarded.consistent.reset_wire]
    rw [show ((a.ensure kind callback).reset other).self.timeout = a.self.timeout from
      hkept'.timeout]
    cases hturns with
    | inl hkinds =>
      rw [hkinds.1] at hwire ⊢
      rw [hkinds.2]
      left
      simp [hwire]
    | inr hkinds =>
      rw [hkinds.1] at hwire ⊢
      rw [hkinds.2]
      right
      simp [hwire]

/-- The two differ in what the connections share and in the questions asked only. -/
structure Same (a a' : Active) : Prop where
  self : a'.self = a.self
  loop : a'.world.loop = a.world.loop
  handles : a'.world.handles = a.world.handles

theorem same_ask (a : Active) : Same a a.ask := ⟨rfl, rfl, rfl⟩

section Same

variable {a' : Active} (hsame : Same a a')
include hsame

theorem Same.kept : Kept handle a a' := by
  constructor
  · rw [hsame.self]
  · rw [hsame.self]
  · rw [hsame.self]
  · rw [hsame.self]
  · rw [hsame.self]
  · rw [hsame.loop]
    exact .refl _ _

theorem Same.wire (kind : Kind) : a'.wire handle kind = a.wire handle kind := by
  rw [Active.wire, hsame.loop, Active.wire]

theorem Same.plugged {kind : Kind} {callback : Callback} (h : a.Plugged handle kind callback) :
    a'.Plugged handle kind callback := by
  unfold Plugged
  rw [hsame.wire, hsame.self]
  exact h

theorem Same.guarded (h : a.Guarded handle) : a'.Guarded handle := by
  apply h.of_same
  · rw [hsame.self]
  · rw [hsame.self]
  · rw [hsame.self]
  · exact hsame.loop

theorem Same.linked (h : a.Linked handle) : a'.Linked handle :=
  h.of_wire hsame.self hsame.wire

theorem Same.outcome {result : Active × Upcall} (h : Outcome handle a' result) :
    Outcome handle a result :=
  h.after hsame.kept hsame.handles

theorem Same.stay (h : a.Linked handle) {upcall : Upcall} (hupcall : upcall ≠ .shutdown) :
    Outcome handle a (a', upcall) where
  kept := hsame.kept
  cases := .inl ⟨hsame.linked h, hsame.handles, hupcall⟩

theorem Same.close (h : a.Consistent handle) : Outcome handle a a'.close := by
  apply hsame.outcome
  apply close_outcome
  apply h.of_same
  · rw [hsame.self]
  · rw [hsame.self]
  · exact hsame.loop

theorem Same.setBad : Same a a'.setBad :=
  ⟨hsame.self, hsame.loop, hsame.handles⟩

end Same

theorem opens_outcome (h : a.Guarded handle) : Outcome handle a (a.opens, .none) := by
  let b := ((a.reset .read).reset .write).registerRead (.incoming a.self.id)
  let c := if b.self.buffer = [] then b else b.registerWrite (.outgoing b.self.id)
  have hread : .read ≠ Kind.exception := by simp
  have hwrite : .write ≠ Kind.exception := by simp
  have hfirst := h.reset hread
  have hsecond := hfirst.reset hwrite
  have hnone : ∀ kind, kind ≠ .exception → ((a.reset .read).reset .write).wire handle kind =
      none := by
    intro kind hkind
    rw [hfirst.consistent.reset_wire, h.consistent.reset_wire]
    cases kind with
    | read => rfl
    | write => rfl
    | exception => contradiction
  have hb : b.Guarded handle := hsecond.register hread (hnone .read hread) _
  have hbwire := hsecond.consistent.register_wire (hnone .read hread) (.incoming a.self.id)
  have hbkept : Kept handle a b :=
    ((h.consistent.kept_reset .read).trans (hfirst.consistent.kept_reset .write)).trans
      (hsecond.consistent.kept_register (hnone .read hread) _)
  have hbnone : b.wire handle .write = none := (hbwire .write).trans (hnone .write hwrite)
  have hc : c.Guarded handle ∧ Kept handle a c ∧ c.world.handles = a.world.handles ∧
      c.wire handle .read = some (.incoming a.self.id, a.self.timeout) ∧
      c.Plugged handle .write (.outgoing a.self.id) ∧
      (c.wire handle .write = none → c.self.buffer = []) := by
    unfold c
    split
    next hbuffer => exact ⟨hb, hbkept, rfl, hbwire .read, .inl hbnone, fun _ => hbuffer⟩
    next =>
      have hcwire := hb.consistent.register_wire hbnone (.outgoing b.self.id)
      refine ⟨hb.register hwrite hbnone _,
        hbkept.trans (hb.consistent.kept_register hbnone _), rfl, ?_, .inr ?_, ?_⟩
      · rw [registerWrite, hcwire]
        exact hbwire .read
      · rw [registerWrite, hcwire]
        rfl
      · rw [registerWrite, hcwire]
        intro hsome
        contradiction
  obtain ⟨hguarded, hkept, hhandles, hcread, hcwrite, hcbuffer⟩ := hc
  constructor
  · exact ⟨hkept.id, hkept.timeout, hkept.incoming, hkept.hasShutdown, hkept.forwarder,
      hkept.touches⟩
  · refine .inl ⟨⟨hguarded.of_same rfl rfl rfl rfl, ?_⟩, hhandles, by simp⟩
    refine ⟨?_, ?_, hcbuffer⟩
    · rw [← hkept.id, ← hkept.timeout] at hcread
      exact hcread
    · rw [← hkept.id] at hcwrite
      exact hcwrite

theorem written_outcome (h : a.Linked handle) (hstate : a.self.state = .opened) :
    Outcome handle a ((a.setBuffer []).reset .write, .none) := by
  have hawaits := h.awaits
  have hsent : (a.setBuffer []).Guarded handle := h.toGuarded.of_same rfl rfl rfl rfl
  rw [hstate] at hawaits
  constructor
  · exact ⟨rfl, rfl, rfl, rfl, rfl, (hsent.consistent.kept_reset .write).touches⟩
  · refine .inl ⟨⟨hsent.reset (by simp), ?_⟩, rfl, by simp⟩
    change Awaits _ handle a.self.state
    rw [hstate]
    refine ⟨?_, .inl ?_, fun _ => rfl⟩
    · rw [hsent.consistent.reset_wire, if_neg (by simp)]
      exact hawaits.1
    · rw [hsent.consistent.reset_wire, if_pos rfl]

/-- What the handler of that callback relies on. -/
def Expects (a : Active) (handle : Int) : Callback → Prop
  | .connect _ => a.self.state = .connecting ∧
      ∀ kind ≠ .exception, a.Plugged handle kind (.connect a.self.id)
  | .shutdown _ => ∀ kind ≠ .exception, a.Plugged handle kind (.shutdown a.self.id)
  | .outgoing _ => a.self.state = .opened ∧ a.Awaits handle a.self.state
  | _ => a.Awaits handle a.self.state

theorem Comes.outcome {env : Env} {callback : Callback} {result : Active × Upcall}
    (h : Comes env a callback result) (hguarded : a.Guarded handle)
    (hexpects : a.Expects handle callback) : Outcome handle a result := by
  have hask := same_ask a
  have hkept : Kept handle a (a.setState .shuttingDown).ask :=
    ⟨rfl, rfl, rfl, rfl, rfl, .refl _ _⟩
  have hshutting : (a.setState .shuttingDown).ask.Guarded handle :=
    hguarded.of_same rfl rfl rfl rfl
  cases h with
  | @connecting _ kind _ hturns =>
    apply hask.outcome
    apply await_outcome (hask.guarded hguarded) hturns
    · exact hask.plugged (hexpects.2 kind hturns.ne_exception.1)
    · intro a' hstate hid halternates
      rw [hstate, hask.self, hexpects.1]
      unfold Awaits
      rw [hid]
      exact halternates
  | opened _ => exact hask.outcome (opens_outcome (hask.guarded hguarded))
  | cached _ _ _ =>
    have hcached : Same a (a.ask.share (.cacheSession (some a.self.forwarder))) := ⟨rfl, rfl, rfl⟩
    exact hcached.outcome (opens_outcome (hcached.guarded hguarded))
  | refused _ =>
    have hcleared : Same a (a.ask.share (.cacheSession none)) := ⟨rfl, rfl, rfl⟩
    exact hcleared.setBad.close hguarded.consistent
  | dropped _ _ => exact hask.close hguarded.consistent
  | waiting _ => exact hask.stay ⟨hguarded, hexpects⟩ (by simp)
  | read _ _ buffer => exact hask.stay ⟨hguarded, hexpects⟩ (by simp)
  | writing _ => exact hask.stay ⟨hguarded, hexpects.2⟩ (by simp)
  | written _ _ =>
    exact hask.outcome (written_outcome (hask.linked ⟨hguarded, hexpects.2⟩) hexpects.1)
  | empty _ _ => exact written_outcome ⟨hguarded, hexpects.2⟩ hexpects.1
  | closed _ _ => exact hask.close hguarded.consistent
  | failed _ _ => exact hask.setBad.close hguarded.consistent
  | @ending _ kind _ hturns =>
    apply Outcome.after hkept rfl
    apply await_outcome hshutting hturns
    · exact hexpects kind hturns.ne_exception.1
    · intro a' hstate hid halternates
      rw [hstate]
      change a'.Alternates handle (.shutdown a'.self.id)
      rw [hid]
      exact halternates
  | ended _ _ _ => exact Outcome.after hkept rfl (close_outcome hshutting.consistent)
  | raised _ =>
    split
    next => exact (Same.mk rfl rfl rfl : Same a a).setBad.close hguarded.consistent
    next => exact close_outcome hguarded.consistent
  | server => exact (Same.mk rfl rfl rfl).stay ⟨hguarded, hexpects⟩ (by simp)
  | checker => exact (Same.mk rfl rfl rfl).stay ⟨hguarded, hexpects⟩ (by simp)

theorem shutdown_outcome (env : Env) (h : a.Linked handle) :
    Outcome handle a (a.shutdown env) := by
  unfold shutdown
  split
  next =>
    have hfirst := h.toGuarded.reset (by simp : Kind.read ≠ .exception)
    have hsecond := hfirst.reset (by simp : Kind.write ≠ .exception)
    have hkept := (h.consistent.kept_reset .read).trans (hfirst.consistent.kept_reset .write)
    apply Outcome.after hkept rfl
    apply (continueShutdown_comes env _ a.self.id).outcome hsecond
    intro kind hkind
    left
    rw [hfirst.consistent.reset_wire, h.consistent.reset_wire]
    cases kind with
    | read => rfl
    | write => rfl
    | exception => contradiction
  next => exact (Same.mk rfl rfl rfl).stay h (by simp)

theorem exception_outcome (env : Env) (h : a.Linked handle) : Outcome handle a a.exception :=
  (exception_comes env a a.self.id).outcome h.toGuarded h.awaits

theorem Alternates.plugged {callback : Callback} (h : a.Alternates handle callback) {kind : Kind}
    (hkind : kind ≠ .exception) : a.Plugged handle kind callback := by
  cases kind with
  | read => exact h.symm.imp And.left And.left
  | write => exact h.imp And.right And.right
  | exception => contradiction

def due (id : Nat) : State → Kind → Option Callback
  | .closed, _ => none
  | _, .exception => some (.exception id)
  | .connecting, _ => some (.connect id)
  | .opened, .read => some (.incoming id)
  | .opened, .write => some (.outgoing id)
  | .shuttingDown, _ => some (.shutdown id)

/-- Which callback the state asks for. -/
theorem due_cases {id : Nat} {state : State} {kind : Kind} {callback : Callback}
    (h : due id state kind = some callback) :
    callback = .exception id ∨ (state = .connecting ∧ callback = .connect id) ∨
      (state = .opened ∧ (callback = .incoming id ∨ callback = .outgoing id)) ∨
      (state = .shuttingDown ∧ callback = .shutdown id) := by
  cases state <;> cases kind <;> cases h <;> simp

theorem due_owner {id : Nat} {state : State} {kind : Kind} {callback : Callback}
    (h : due id state kind = some callback) : callback.owner = some id := by
  cases state <;> cases kind <;> cases h <;> rfl

theorem Linked.plugged (h : a.Linked handle) {kind : Kind} (hkind : kind ≠ .exception) :
    ∃ callback, due a.self.id a.self.state kind = some callback ∧
      a.Plugged handle kind callback := by
  have hawaits := h.awaits
  cases hstate : a.self.state <;> rw [hstate] at hawaits
  case connecting =>
    refine ⟨.connect a.self.id, ?_, Alternates.plugged hawaits hkind⟩
    cases kind <;> trivial
  case opened =>
    cases kind with
    | read => exact ⟨_, rfl, .inr hawaits.1⟩
    | write => exact ⟨_, rfl, hawaits.2.1⟩
    | exception => contradiction
  case shuttingDown =>
    refine ⟨.shutdown a.self.id, ?_, Alternates.plugged hawaits hkind⟩
    cases kind <;> trivial
  case closed => contradiction

theorem Linked.wire_eq (h : a.Linked handle) {kind : Kind} {callback : Callback} {timeout : Int}
    (hwire : a.wire handle kind = some (callback, timeout)) :
    due a.self.id a.self.state kind = some callback ∧
      (kind ≠ .exception → timeout = a.self.timeout) := by
  by_cases hkind : kind = .exception
  · rw [hkind, h.exception] at hwire
    cases hwire
    have hawaits := h.awaits
    refine ⟨?_, fun hne => absurd hkind hne⟩
    rw [hkind]
    cases hstate : a.self.state <;> rw [hstate] at hawaits
    case closed => contradiction
    all_goals rfl
  · obtain ⟨expected, hdue, hplugged⟩ := h.plugged hkind
    rw [Plugged, hwire] at hplugged
    cases hplugged.resolve_left (by simp)
    exact ⟨hdue, fun _ => rfl⟩

theorem Linked.expects (h : a.Linked handle) {kind : Kind} {callback : Callback}
    {timeout : Int} (hwire : a.wire handle kind = some (callback, timeout)) :
    a.Expects handle callback := by
  have hawaits := h.awaits
  rcases due_cases (h.wire_eq hwire).1 with rfl | ⟨hstate, rfl⟩ | ⟨hstate, rfl | rfl⟩ |
    ⟨hstate, rfl⟩
  · exact hawaits
  · rw [hstate] at hawaits
    exact ⟨hstate, fun _ => Alternates.plugged hawaits⟩
  · exact hawaits
  · exact ⟨hstate, hawaits⟩
  · rw [hstate] at hawaits
    exact fun _ => Alternates.plugged hawaits

theorem handler_outcome (env : Env) (h : a.Linked handle) {kind : Kind} {callback : Callback}
    {timeout : Int} (hwire : a.wire handle kind = some (callback, timeout)) :
    Outcome handle a (a.handler env callback) :=
  (handler_comes env a callback).outcome h.toGuarded (h.expects hwire)

theorem Linked.owner_eq (h : a.Linked handle) {kind : Kind} {callback : Callback} {timeout : Int}
    (hwire : a.wire handle kind = some (callback, timeout)) :
    callback.owner = some a.self.id :=
  due_owner (h.wire_eq hwire).1

theorem Linked.setCallbacks (h : a.Linked handle) (incoming : Option Requester)
    (hasShutdown : Bool) :
    Linked ⟨{ a.self with incoming := incoming, hasShutdown := hasShutdown }, a.world⟩ handle where
  toGuarded := h.toGuarded.of_same rfl rfl rfl rfl
  awaits := by
    have hawaits := h.awaits
    change Awaits _ handle a.self.state
    cases hstate : a.self.state <;> rw [hstate] at hawaits <;> exact hawaits

theorem ensure_state (a : Active) (kind : Kind) (callback : Callback) :
    (a.ensure kind callback).self.state = a.self.state := by
  unfold ensure
  split
  · rfl
  · rfl

theorem Comes.connect_state {env : Env} {id : Nat} {result : Active × Upcall}
    (h : Comes env a (.connect id) result) :
    (result.1.self.state = a.self.state ∨ result.1.self.state = .opened ∨
      result.1.self.socket = none) ∧ result.1.self.buffer = a.self.buffer := by
  refine ⟨?_, h.ends.buffer.resolve_right And.left⟩
  cases h with
  | connecting _ _ => exact .inl (ensure_state a.ask _ _)
  | opened _ => exact .inr (.inl rfl)
  | cached _ _ _ => exact .inr (.inl rfl)
  | refused _ => exact .inr (.inr (close_socket _))
  | dropped _ _ => exact .inr (.inr (close_socket _))
  | closed _ _ => exact .inr (.inr (close_socket _))
  | failed _ _ => exact .inr (.inr (close_socket _))

theorem Comes.shutdown_state {env : Env} {id : Nat} {result : Active × Upcall}
    (h : Comes env a (.shutdown id) result) :
    result.1.self.state = .shuttingDown ∨ result.1.self.socket = none := by
  cases h with
  | ending _ _ => exact .inl (ensure_state _ _ _)
  | ended _ _ _ => exact .inr (close_socket _)
  | closed _ _ => exact .inr (close_socket _)
  | failed _ _ => exact .inr (close_socket _)

theorem shutdown_state (env : Env) (hstate : a.self.state = .opened) :
    (a.shutdown env).1.self.state = .shuttingDown ∨ (a.shutdown env).1.self.socket = none := by
  unfold shutdown
  rw [if_pos (.inr hstate)]
  exact (continueShutdown_comes env _ a.self.id).shutdown_state

theorem send_linked (h : a.Linked handle) (hstate : a.self.state ≠ .shuttingDown)
    (hbuffer : a.self.buffer = []) (request : Bytes) :
    (a.send request).1 = true ∧ (a.send request).2.Linked handle ∧
      Kept handle a (a.send request).2 ∧
      (a.send request).2.world.handles = a.world.handles := by
  have hawaits := h.awaits
  have hset : ∀ b : Active, b.Guarded handle → (b.setBuffer request).Guarded handle :=
    fun b hb => hb.of_same rfl rfl rfl rfl
  unfold send
  rw [h.consistent.socket, hbuffer]
  cases hs : a.self.state <;> rw [hs] at hawaits hstate
  case connecting =>
    refine ⟨rfl, ⟨hset a h.toGuarded, ?_⟩, ⟨rfl, rfl, rfl, rfl, rfl, .refl _ _⟩, rfl⟩
    change Awaits _ handle a.self.state
    rw [hs]
    exact hawaits
  case opened =>
    simp only [reduceCtorEq, ne_eq, not_false_eq_true, not_true_eq_false, and_false, or_false,
      if_false, if_true, true_and]
    split
    next hvalid =>
      rw [h.consistent.valid_iff, not_not] at hvalid
      have hwire := h.consistent.register_wire hvalid (.outgoing a.self.id)
      have hguarded := hset _ (h.toGuarded.register (by simp) hvalid (.outgoing a.self.id))
      have hkept := h.consistent.kept_register hvalid (.outgoing a.self.id)
      refine ⟨⟨hguarded, ?_⟩, ⟨rfl, rfl, rfl, rfl, rfl, hkept.touches⟩, rfl⟩
      change Awaits _ handle a.self.state
      rw [hs]
      refine ⟨(hwire .read).trans hawaits.1, .inr (hwire .write), ?_⟩
      intro hnone
      exact absurd ((hwire .write).symm.trans hnone) (by simp)
    next hvalid =>
      rw [h.consistent.valid_iff, not_not] at hvalid
      refine ⟨⟨hset a h.toGuarded, ?_⟩, ⟨rfl, rfl, rfl, rfl, rfl, .refl _ _⟩, rfl⟩
      change Awaits _ handle a.self.state
      rw [hs]
      exact ⟨hawaits.1, hawaits.2.1, fun hnone => absurd hnone hvalid⟩
  case shuttingDown => contradiction
  case closed => contradiction

end Dote.Active

namespace Dote.ForwarderConnection
open Active

/-- A new connection waits for its socket, or it has failed and left nothing
behind. No handle of the loop may be closed. -/
structure Fresh (id : Nat) (w : World) (a : Active) : Prop where
  id : a.self.id = id
  cases : (∃ handle, handle ∉ w.handles ∧ a.Linked handle ∧ a.self.state ≠ .shuttingDown ∧
      a.self.buffer = [] ∧ a.world.handles = handle :: w.handles ∧
      Loop.Touches handle w.loop a.world.loop) ∨
    (a.self.socket = none ∧ a.world.handles = w.handles ∧
      ∀ kind k, a.world.loop.wire k kind = w.loop.wire k kind)

theorem connect_fresh (env : Env) {w : World} {a : Active} {handle : Int}
    (hsocket : a.self.socket = some handle) (hstate : a.self.state = .connecting)
    (hmoved : ∀ kind, (a.self.registration kind).kind = none) (hbuffer : a.self.buffer = [])
    (hfresh : handle ∉ w.handles) (hhandles : a.world.handles = handle :: w.handles)
    (hloop : a.world.loop = w.loop) (hunused : ∀ kind, w.loop.wire handle kind = none) :
    Fresh a.self.id w ((a.registerException (.exception a.self.id)).connect env).1 := by
  have hnone : ∀ kind, a.wire handle kind = none := by
    intro kind
    rw [Active.wire, hloop]
    exact hunused kind
  have hconsistent : a.Consistent handle :=
    ⟨hsocket, fun kind hsome => absurd (hnone kind) hsome, fun kind _ => hmoved kind⟩
  have hwire := hconsistent.register_wire (hnone .exception) (.exception a.self.id)
  have hkept := hconsistent.kept_register (hnone .exception) (.exception a.self.id)
  have hguarded : (a.registerException (.exception a.self.id)).Guarded handle :=
    ⟨hconsistent.register (hnone .exception) _, hwire .exception⟩
  have hplugged : ∀ kind, kind ≠ .exception → ∀ callback,
      (a.registerException (.exception a.self.id)).Plugged handle kind callback := by
    intro kind hkind callback
    left
    rw [registerException, hwire, if_neg hkind]
    exact hnone kind
  have hcomes := connect_comes env (a.registerException (.exception a.self.id)) a.self.id
  have houtcome := hcomes.outcome hguarded ⟨hstate, fun kind hkind => hplugged kind hkind _⟩
  have hconnect := hcomes.connect_state
  have htouches : Loop.Touches handle w.loop
      ((a.registerException (.exception a.self.id)).connect env).1.world.loop := by
    rw [← hloop]
    exact hkept.touches.trans houtcome.kept.touches
  refine ⟨houtcome.kept.id, ?_⟩
  cases houtcome.cases with
  | inl h =>
    have hsocket := h.1.consistent.socket
    refine .inl ⟨handle, hfresh, h.1, ?_, ?_, h.2.1.trans hhandles, htouches⟩
    · rcases hconnect.1 with heq | heq | heq
      · have hstate' : (a.registerException (.exception a.self.id)).self.state = .connecting :=
          hstate
        rw [heq, hstate']
        decide
      · rw [heq]
        decide
      · rw [heq] at hsocket
        contradiction
    · rw [hconnect.2]
      exact hbuffer
  | inr h =>
    refine .inr ⟨h.1.socket, ?_, ?_⟩
    · rw [h.2.1]
      change a.world.handles.erase handle = w.handles
      rw [hhandles, List.erase_cons_head]
    · intro kind k
      by_cases hk : k = handle
      · rw [hk, hunused kind]
        exact h.1.unwired kind
      · unfold Loop.wire
        rw [htouches kind k hk]

theorem new_fresh (env : Env) (id : Nat) (w : World)
    (hopen : ∀ handle, env.socket (w.tick + 1) = some handle → handle ∉ w.handles →
      ∀ kind, w.loop.wire handle kind = none) :
    Fresh id w (new env id w) := by
  unfold new
  dsimp only
  split
  next chosen hcreated hchosen =>
    split
    next handle w' hconnect =>
      obtain ⟨hfresh, hloop, hhandles⟩ := World.openHandle_some hconnect
      have hunused := hopen handle (World.openHandle_socket hconnect) hfresh
      exact connect_fresh env (a := ⟨⟨id, _, _, none, false, .connecting, some handle, _, [],
        chosen⟩, w'⟩) rfl rfl (fun _ => rfl) rfl hfresh hhandles hloop hunused
    next w' hconnect =>
      have hfailed := World.openHandle_none hconnect
      refine ⟨rfl, .inr ⟨rfl, hfailed.2, ?_⟩⟩
      intro kind k
      change w'.loop.wire k kind = _
      rw [hfailed.1]
      rfl
  next => exact ⟨rfl, .inr ⟨rfl, rfl, fun _ _ => rfl⟩⟩

end Dote.ForwarderConnection
