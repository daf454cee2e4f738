import Dote.Connection.Advance
import Dote.Library.Run

/-! The life of one connection among the other users of the loop. Whatever calls
it, and whatever OpenSSL answers, its state only moves forward. -/
namespace Dote

namespace Active

/-- What can happen to a connection once it is made. The loop calls what it has
registered with a handle, the owner makes its calls, and the other users of the
loop and of the forwarders go on. -/
inductive Op where
  | callback (env : Env) (kind : Kind) (handle : Int)
  | send (buffer : Bytes)
  | shutdown (env : Env)
  | setIncomingCallback (incoming : Option Requester)
  | setShutdownCallback (hasShutdown : Bool)
  | destroy
  | elsewhere (world : World)

def act (a : Active) : Op → Active × Upcall
  | .callback env kind handle =>
    match a.world.loop.find kind handle with
    | none => (a, .none)
    | some entry =>
      if entry.callback.owner = some a.self.id then a.handler env entry.callback else (a, .none)
  | .send buffer => ((a.send buffer).2, .none)
  | .shutdown env => a.shutdown env
  | .setIncomingCallback incoming =>
    ({ a with self := { a.self with incoming := incoming } }, .none)
  | .setShutdownCallback hasShutdown =>
    ({ a with self := { a.self with hasShutdown := hasShutdown } }, .none)
  | .destroy => a.close
  | .elsewhere world => ({ a with world := world }, .none)

def next (a : Active) (op : Op) : Active := (a.act op).1

def upcalls (a : Active) (op : Op) : List Upcall := [(a.act op).2]

/-- The other users of the loop do not register a callback of the connection. -/
def Apart (a : Active) : Op → Prop
  | .elsewhere world => ∀ handle kind callback timeout, callback.owner = some a.self.id →
      world.loop.wire handle kind = some (callback, timeout) →
      a.wire handle kind = some (callback, timeout)
  | _ => True

theorem act_callback (a : Active) (env : Env) (kind : Kind) (handle : Int) :
    a.act (.callback env kind handle) = (a, .none) ∨
      ∃ callback timeout, a.wire handle kind = some (callback, timeout) ∧
        callback.owner = some a.self.id ∧
        a.act (.callback env kind handle) = a.handler env callback := by
  unfold act
  dsimp only
  split
  next => exact .inl rfl
  next entry hfind =>
    split
    next howner =>
      exact .inr ⟨entry.callback, entry.timeout, Loop.wire_of_find hfind, howner, rfl⟩
    next => exact .inl rfl

theorem act_advance {a : Active} (h : a.Tracks (due a.self.id a.self.state)) {op : Op}
    (hop : a.Apart op) : Advance a (a.act op) := by
  cases op with
  | callback env kind handle =>
    cases a.act_callback env kind handle with
    | inl heq =>
      rw [heq]
      exact (Carries.mk rfl rfl rfl rfl .refl).goes_on h (by simp) (by simp)
    | inr hcalled =>
      obtain ⟨callback, timeout, hwire, howner, heq⟩ := hcalled
      rw [heq]
      exact handler_advance env h (h handle kind callback timeout hwire howner).2
  | send buffer => exact send_advance h buffer
  | shutdown env => exact (shutdown_advance env h).1
  | setIncomingCallback incoming => exact ⟨rfl, h, le_rfl, .inl ⟨rfl, by simp [act]⟩, by simp [act]⟩
  | setShutdownCallback hasShutdown =>
    exact ⟨rfl, h, le_rfl, .inl ⟨rfl, by simp [act]⟩, by simp [act]⟩
  | destroy => exact close_advance h
  | elsewhere world =>
    exact ⟨rfl, h.of_same rfl rfl hop, le_rfl, .inl ⟨rfl, by simp [act]⟩, by simp [act]⟩

theorem next_tracks {a : Active} {op : Op} (h : a.Tracks (due a.self.id a.self.state))
    (hop : a.Apart op) : (a.next op).Tracks (due (a.next op).self.id (a.next op).self.state) := by
  have hadvance := act_advance h hop
  unfold next
  rw [hadvance.id]
  exact hadvance.tracks

section Run
open Library.Run

variable {a : Active} {ops : List Op}

theorem run_tracks (h : a.Tracks (due a.self.id a.self.state))
    (hothers : Throughout next Apart a ops) :
    (run next a ops).Tracks (due (run next a ops).self.id (run next a ops).self.state) :=
  run_invariant (I := fun a : Active => a.Tracks (due a.self.id a.self.state))
    (fun _ _ h hop => next_tracks h hop) h hothers

theorem run_rank (h : a.Tracks (due a.self.id a.self.state))
    (hothers : Throughout next Apart a ops) :
    a.self.state.rank ≤ (run next a ops).self.state.rank := by
  induction ops generalizing a with
  | nil => exact le_rfl
  | cons op ops ih =>
    exact (act_advance h hothers.1).rank.trans (ih (next_tracks h hothers.1) hothers.2)

theorem run_shutdown (h : a.Tracks (due a.self.id a.self.state))
    (hothers : Throughout next Apart a ops) :
    (a.self.socket = none → (run next a ops).self.socket = none) ∧
    (a.self.socket = none ∨ (run next a ops).self.socket ≠ none →
      (trace next upcalls a ops).count .shutdown = 0) ∧
    (a.self.socket ≠ none → (run next a ops).self.socket = none →
      ∃ before op after, ops = before ++ op :: after ∧
        (run next a before).self.socket ≠ none ∧
        ((run next a before).act op).1.self.socket = none ∧
        (trace next upcalls a ops).count .shutdown =
          if (run next a before).self.hasShutdown then 1 else 0) := by
  induction ops generalizing a with
  | nil => exact ⟨id, fun _ => rfl, fun hopen hnone => absurd hnone hopen⟩
  | cons op ops ih =>
    have hadvance := act_advance h hothers.1
    obtain ⟨hstays, hsilent, hreleased⟩ := ih (next_tracks h hothers.1) hothers.2
    have hcount : (trace next upcalls a (op :: ops)).count .shutdown =
        [(a.act op).2].count .shutdown + (trace next upcalls (a.next op) ops).count .shutdown :=
      List.count_append
    rcases hadvance.upcall with ⟨hsocket, hupcall⟩ | ⟨hopen, hnone, hupcall⟩
    · have hnext : (a.next op).self.socket = a.self.socket := hsocket
      rw [hcount, List.count_singleton, if_neg (by simpa using hupcall), Nat.zero_add]
      rw [hnext] at hstays hsilent hreleased
      refine ⟨hstays, hsilent, fun hopen hnone => ?_⟩
      obtain ⟨before, op', after, heq, hrest⟩ := hreleased hopen hnone
      exact ⟨op :: before, op', after, by rw [heq, List.cons_append], hrest⟩
    · have hend : (run next a (op :: ops)).self.socket = none := hstays hnone
      refine ⟨fun _ => hend, ?_, fun _ _ => ⟨[], op, ops, rfl, hopen, hnone, ?_⟩⟩
      · rintro (hclosed | hfinal)
        · exact absurd hclosed hopen
        · exact absurd hend hfinal
      · rw [hcount, hsilent (.inl hnone), hupcall, run_nil]
        cases a.self.hasShutdown <;> rfl

theorem run_silent (h : a.Tracks (due a.self.id a.self.state))
    (hothers : Throughout next Apart a ops) (hrank : State.shuttingDown.rank ≤ a.self.state.rank)
    (buffer : Bytes) : .incoming buffer ∉ trace next upcalls a ops := by
  induction ops generalizing a with
  | nil => simp [trace]
  | cons op ops ih =>
    have hadvance := act_advance h hothers.1
    rw [trace, List.mem_append, not_or, upcalls, List.mem_singleton]
    constructor
    · intro heq
      rw [(hadvance.incoming buffer heq.symm).1] at hrank
      revert hrank
      decide
    · exact ih (next_tracks h hothers.1) hothers.2 (hrank.trans hadvance.rank)

theorem run_shutdown_silent {env : Env} (h : a.Tracks (due a.self.id a.self.state))
    (hothers : Throughout next Apart a (.shutdown env :: ops)) (buffer : Bytes) :
    .incoming buffer ∉ trace next upcalls a (.shutdown env :: ops) := by
  have hadvance := act_advance h hothers.1
  have hrank := (shutdown_advance env h).2
  rw [trace, List.mem_append, not_or, upcalls, List.mem_singleton]
  constructor
  · intro hincoming
    have hopened : (a.shutdown env).1.self.state = .opened :=
      (hadvance.incoming buffer hincoming.symm).2
    rw [hopened] at hrank
    revert hrank
    decide
  · exact run_silent (next_tracks h hothers.1) hothers.2 hrank buffer

/-- A connection that has taken a request has its socket, and the step that releases it
is the one that reports the end. -/
theorem run_sent {request : Bytes} (h : a.Tracks (due a.self.id a.self.state))
    (hothers : Throughout next Apart a (.send request :: ops)) (hsent : (a.send request).1 = true)
    (hend : (run next a (.send request :: ops)).self.socket = none) :
    a.self.socket ≠ none ∧ ∃ between op rest, ops = between ++ op :: rest ∧
      let b := run next a (.send request :: between)
      b.self.socket ≠ none ∧ (b.act op).1.self.socket = none ∧
        (trace next upcalls a (.send request :: ops)).count .shutdown =
          if b.self.hasShutdown then 1 else 0 := by
  have hopen := socket_of_send hsent
  have hnext : (a.next (.send request)).self.socket ≠ none := (send_true hsent).2.1
  obtain ⟨between, op, rest, hsplit, hheld, hreleased, hcount⟩ :=
    (run_shutdown (next_tracks h hothers.1) hothers.2).2.2 hnext hend
  refine ⟨hopen, between, op, rest, hsplit, hheld, hreleased, ?_⟩
  have htrace : trace next upcalls a (.send request :: ops) =
      .none :: trace next upcalls (a.next (.send request)) ops := rfl
  rw [htrace, List.count_cons_of_ne (by simp), hcount, run_cons]

end Run

end Active

/-- No callback in the loop is one of the connection with that number. -/
def World.Unbound (w : World) (id : Nat) : Prop :=
  ∀ handle kind callback timeout, w.loop.wire handle kind = some (callback, timeout) →
    callback.owner ≠ some id

theorem ForwarderConnection.new_tracks (env : Env) {id : Nat} {w : World} (h : w.Unbound id) :
    let a := ForwarderConnection.new env id w
    a.Tracks (Active.due a.self.id a.self.state) := by
  intro a
  rw [show a.self.id = id from new_id env id w]
  have hunbound : ∀ (a : Active) (expected : Kind → Option Callback), a.self.id = id →
      a.world.loop = w.loop → a.Tracks expected := by
    intro a expected hid hloop handle kind callback timeout hwire howner
    rw [Active.wire, hloop] at hwire
    rw [hid] at howner
    exact absurd howner (h handle kind callback timeout hwire)
  unfold a new
  dsimp only
  split
  next chosen hcreated hchosen =>
    split
    next handle w' hconnect =>
      have hloop : w'.loop = w.loop := (World.openHandle_some hconnect).2.1
      let a : Active := ⟨⟨id, env.time w.tick + w.config.timeout,
        if env.create w.tick then w.session else none, none, false, .connecting, some handle,
        fun _ => .moved, [], chosen⟩, w'⟩
      have ha : a.Tracks (Active.due id .connecting) := hunbound a _ rfl hloop
      have hregistered : (a.registerException (.exception id)).Tracks
          (Active.due id .connecting) := by
        have hregister := Active.Tracks.register ha
          (rfl : (a.self.registration .exception).kind = none) (.exception id)
        rwa [show some (Callback.exception id) = Active.due id .connecting .exception from rfl,
          Function.update_eq_self] at hregister
      exact ((Active.connect_comes env _ id).advance hregistered
        (show Active.due id .connecting .read = _ from rfl)).tracks
    next w' hconnect =>
      exact hunbound _ _ rfl (World.openHandle_none hconnect).1
  next => exact hunbound _ _ rfl rfl

namespace Active
open Library.Run

/-- The life of a connection. Its state moves forward only; the step that releases
the socket is the one that reports the end, once, if there is a callback for it;
and nothing that is read is reported after `shutdown`. -/
theorem life_cycle (env : Env) {id : Nat} {w : World} (hunbound : w.Unbound id) {ops : List Op}
    (hothers : Throughout next Apart (ForwarderConnection.new env id w) ops) :
    let start := ForwarderConnection.new env id w
    let reported := trace next upcalls start ops
    (∀ before after, ops = before ++ after →
      (run next start before).self.state.rank ≤ (run next start ops).self.state.rank) ∧
    (∀ before op after, ops = before ++ op :: after →
      let a := run next start before
      (a.act op).2 = .shutdown ↔
        a.self.socket ≠ none ∧ (a.act op).1.self.socket = none ∧ a.self.hasShutdown = true) ∧
    (start.self.socket = none → reported.count .shutdown = 0) ∧
    (∀ before buffer after, ops = before ++ .send buffer :: after →
      ((run next start before).send buffer).1 = true →
      (run next start ops).self.socket = none →
      ∃ between op rest, after = between ++ op :: rest ∧
        let a := run next start (before ++ .send buffer :: between)
        a.self.socket ≠ none ∧ (a.act op).1.self.socket = none ∧
        reported.count .shutdown = if a.self.hasShutdown then 1 else 0) ∧
    ((run next start ops).next .destroy).self.socket = none ∧
    (∀ before env after, ops = before ++ .shutdown env :: after → ∀ buffer,
      .incoming buffer ∉ trace next upcalls (run next start before) (.shutdown env :: after)) := by
  intro start reported
  have hstart : start.Tracks (due start.self.id start.self.state) :=
    ForwarderConnection.new_tracks env hunbound
  have hpart : ∀ before after, ops = before ++ after →
      Throughout next Apart start before ∧ Throughout next Apart (run next start before) after ∧
        (run next start before).Tracks
          (due (run next start before).self.id (run next start before).self.state) := by
    intro before after heq
    rw [heq, throughout_append] at hothers
    exact ⟨hothers.1, hothers.2, run_tracks hstart hothers.1⟩
  refine ⟨?_, ?_, ?_, ?_, close_socket _, ?_⟩
  · intro before after heq
    obtain ⟨-, hafter, htracks⟩ := hpart before after heq
    rw [heq, run_append]
    exact run_rank htracks hafter
  · intro before op after heq
    obtain ⟨-, hafter, htracks⟩ := hpart before (op :: after) heq
    exact (act_advance htracks hafter.1).shutdown_iff
  · exact fun hnone => (run_shutdown hstart hothers).2.1 (.inl hnone)
  · intro before buffer after heq hsent hend
    obtain ⟨hbefore, hafter, htracks⟩ := hpart before (.send buffer :: after) heq
    rw [heq, run_append] at hend
    obtain ⟨hopen, between, op, rest, hsplit, hheld, hreleased, hcount⟩ :=
      run_sent htracks hafter hsent hend
    refine ⟨between, op, rest, hsplit, ?_⟩
    rw [run_append]
    refine ⟨hheld, hreleased, ?_⟩
    have hsilent := (run_shutdown hstart hbefore).2.1 (.inr hopen)
    have hreported : reported = trace next upcalls start before ++
        trace next upcalls (run next start before) (.send buffer :: after) := by
      unfold reported
      rw [heq, trace_append]
    rw [hreported, List.count_append, hsilent, Nat.zero_add, hcount]
  · intro before env after heq buffer
    obtain ⟨-, hafter, htracks⟩ := hpart before (.shutdown env :: after) heq
    exact run_shutdown_silent htracks hafter buffer

namespace Sample

def env : Env where
  time _ := 100
  create _ := true
  socket tick := some (3 + tick)
  ssl _ := ⟨-1, .wantRead, []⟩
  hasSession _ := true
  receive _ := none
  reload _ := []

def quiet : World :=
  ⟨.new, .new (Config.ForwarderConfig.new.clear.addForwarder
    ⟨⟨.inet, 853, [1, 1, 1, 1]⟩, true, [], []⟩), [0, 1, 2], 0⟩

theorem quiet_unbound (id : Nat) : quiet.Unbound id := by
  intro handle kind callback timeout hwire
  simp [quiet, Loop.wire, Loop.find, Loop.new] at hwire

end Sample

open Sample in
theorem life_cycle_timeout :
    ((run next (ForwarderConnection.new env 0 quiet) [.send [7], .setShutdownCallback true]).act
      (.callback env .exception 4)).2 = .shutdown := by
  have hothers : Throughout next Apart (ForwarderConnection.new env 0 quiet)
      [.send [7], .setShutdownCallback true, .callback env .exception 4] :=
    ⟨trivial, trivial, trivial, trivial⟩
  apply ((life_cycle env (quiet_unbound 0) hothers).2.1 _ _ [] rfl).mpr
  decide

end Active

end Dote
