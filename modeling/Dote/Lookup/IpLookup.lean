import Dote.Config.ConfigParser
import Dote.Connection.Wiring
import Dote.Loop.Idle

/-! `IpLookup`: a connection in a loop of its own, made for the certificate of the peer.
All its callbacks are `IpLookup::connect`, and its constructor returns with `Loop::run`. -/
namespace Dote
open Library.Run

def Result.final : Result → Bool
  | .needRead => false
  | .needWrite => false
  | .success => true
  | .fatal => true
  | .closed => true

/-- `results` are what `SslConnection::connect` returns, one call after the other, and
`calls` counts the calls. `registration` are `m_read`, `m_write` and `m_exception`. -/
structure IpLookup where
  loop : Loop Unit
  socket : Int
  registration : Kind → Registration
  timeout : Int
  results : Nat → Result
  calls : Nat

namespace IpLookup

def setRegistration (s : IpLookup) (kind : Kind) (registration : Registration)
    (loop : Loop Unit) : IpLookup :=
  { s with
    loop := loop
    registration := fun other => if other = kind then registration else s.registration other }

/-- A registration with the loop, assigned to the member of that kind. -/
def register (s : IpLookup) (kind : Kind) : IpLookup :=
  let timeout := if kind = .exception then 0 else s.timeout
  let (temporary, loop) := s.loop.register kind s.socket () timeout
  let (registration, loop) := loop.assign (s.registration kind) temporary
  s.setRegistration kind registration loop

def reset (s : IpLookup) (kind : Kind) : IpLookup :=
  let (registration, loop) := s.loop.reset (s.registration kind)
  s.setRegistration kind registration loop

/-- `if (!m_read) m_read = ...`, for either kind. -/
def ensure (s : IpLookup) (kind : Kind) : IpLookup :=
  if (s.registration kind).valid then s else s.register kind

def ask (s : IpLookup) : IpLookup := { s with calls := s.calls + 1 }

def connect (s : IpLookup) : IpLookup :=
  match s.results s.calls with
  | .needRead => (s.ask.ensure .read).reset .write
  | .needWrite => (s.ask.ensure .write).reset .read
  | .success => s.ask.reset .exception
  | .fatal => s.ask.reset .exception
  | .closed => s.ask.reset .exception

/-- The constructor up to `Loop::run`, with the socket that is connected to the address. -/
def new (config : Config.ConfigParser) (time socket : Int) (results : Nat → Result) : IpLookup :=
  let s : IpLookup :=
    ⟨.new, socket, fun _ => .moved, time + config.timeout, results, 0⟩
  (s.register .exception).connect

def held (s : IpLookup) (kind : Kind) : Bool := (s.registration kind).valid

def next (held : Kind → Bool) : Result → Kind → Bool
  | .needRead => Function.update (Function.update held .read true) .write false
  | .needWrite => Function.update (Function.update held .write true) .read false
  | .success => Function.update held .exception false
  | .fatal => Function.update held .exception false
  | .closed => Function.update held .exception false

def Waits (held : Kind → Bool) : Prop := held .read = true ∨ held .write = true

theorem next_of_final {result : Result} (h : result.final = true) (held : Kind → Bool) :
    next held result = Function.update held .exception false := by
  cases result with
  | needRead => contradiction
  | needWrite => contradiction
  | success => rfl
  | fatal => rfl
  | closed => rfl

theorem next_of_not_final {result : Result} (h : result.final = false) (held : Kind → Bool) :
    Waits (next held result) := by
  cases result with
  | needRead => exact .inl rfl
  | needWrite => exact .inr rfl
  | success => contradiction
  | fatal => contradiction
  | closed => contradiction

theorem waits_next {held : Kind → Bool} (h : Waits held) (result : Result) :
    Waits (next held result) := by
  cases hresult : result.final with
  | false => exact next_of_not_final hresult held
  | true =>
    rw [next_of_final hresult]
    exact h

structure Consistent (s : IpLookup) : Prop where
  mem_iff : ∀ kind handle,
    handle ∈ s.loop.functions kind ↔ handle = s.socket ∧ s.held kind = true
  registration_eq : ∀ kind, s.held kind = true → s.registration kind = ⟨s.socket, some kind⟩

section Consistent

variable {s : IpLookup}

theorem Consistent.reset (h : s.Consistent) (kind : Kind) :
    (s.reset kind).Consistent ∧ (s.reset kind).held = Function.update s.held kind false := by
  have hheld : (s.reset kind).held = Function.update s.held kind false := by
    funext other
    change Registration.valid (if other = kind then (s.loop.reset (s.registration kind)).1
      else s.registration other) = _
    rw [Function.update_apply]
    split
    next =>
      unfold Loop.reset
      split
      next hmoved => simp [Registration.valid, hmoved]
      next => rfl
    next => rfl
  refine ⟨⟨fun other handle => ?_, fun other hother => ?_⟩, hheld⟩
  · change handle ∈ (s.loop.reset (s.registration kind)).2.functions other ↔
      handle = s.socket ∧ (s.reset kind).held other = true
    rw [hheld, Function.update_apply]
    by_cases hkind : s.held kind = true
    · rw [h.registration_eq kind hkind]
      change handle ∈ (s.loop.remove kind s.socket).functions other ↔ _
      rw [Loop.mem_remove_iff, h.mem_iff]
      by_cases hother : other = kind
      · simp +contextual [hother]
      · simp [hother]
    · rw [Loop.reset_of_moved _ (by simpa [held, Registration.valid] using hkind), h.mem_iff]
      by_cases hother : other = kind
      · simp [hother, hkind]
      · simp [hother]
  · rw [hheld, Function.update_apply] at hother
    split at hother
    next => contradiction
    next hne =>
      change (if other = kind then _ else s.registration other) = _
      rw [if_neg hne]
      exact h.registration_eq other hother

theorem Consistent.register (h : s.Consistent) {kind : Kind} (hkind : s.held kind = false) :
    (s.register kind).Consistent ∧
      (s.register kind).held = Function.update s.held kind true := by
  have hnone : s.socket ∉ s.loop.functions kind := by simp [h.mem_iff, hkind]
  have hregister : s.register kind = s.setRegistration kind ⟨s.socket, some kind⟩
      (s.loop.insert kind s.socket () (if kind = .exception then 0 else s.timeout)) := by
    unfold IpLookup.register Loop.assign Loop.register
    simp only [hnone, if_false]
    rw [Loop.reset_of_moved _ (by simpa [held, Registration.valid] using hkind)]
  have hheld : (s.register kind).held = Function.update s.held kind true := by
    funext other
    rw [hregister, Function.update_apply]
    change Registration.valid (if other = kind then _ else s.registration other) = _
    split
    next => rfl
    next => rfl
  refine ⟨⟨fun other handle => ?_, fun other hother => ?_⟩, hheld⟩
  · rw [hheld, Function.update_apply, hregister]
    change handle ∈ (s.loop.insert kind s.socket () _).functions other ↔ handle = s.socket ∧ _
    rw [Loop.mem_insert_iff, h.mem_iff]
    by_cases hother : other = kind
    · simp [hother, hkind]
    · simp [hother]
  · rw [hheld, Function.update_apply] at hother
    rw [hregister]
    change (if other = kind then _ else s.registration other) = _
    split
    next heq => rw [heq]; rfl
    next hne =>
      rw [if_neg hne] at hother
      exact h.registration_eq other hother

theorem Consistent.ensure (h : s.Consistent) (kind : Kind) :
    (s.ensure kind).Consistent ∧ (s.ensure kind).held = Function.update s.held kind true := by
  unfold IpLookup.ensure
  split
  next hvalid =>
    refine ⟨h, ?_⟩
    rw [Function.eq_update_iff]
    exact ⟨hvalid, fun _ _ => rfl⟩
  next hinvalid => exact h.register (by simpa [held] using hinvalid)

theorem Consistent.connect (h : s.Consistent) :
    s.connect.Consistent ∧ s.connect.held = next s.held (s.results s.calls) := by
  have hask : s.ask.Consistent := ⟨h.mem_iff, h.registration_eq⟩
  unfold IpLookup.connect
  cases s.results s.calls with
  | needRead =>
    obtain ⟨hread, heq⟩ := hask.ensure .read
    obtain ⟨hwrite, heq'⟩ := hread.reset .write
    exact ⟨hwrite, by rw [heq', heq]; rfl⟩
  | needWrite =>
    obtain ⟨hwrite, heq⟩ := hask.ensure .write
    obtain ⟨hread, heq'⟩ := hwrite.reset .read
    exact ⟨hread, by rw [heq', heq]; rfl⟩
  | success => exact hask.reset .exception
  | fatal => exact hask.reset .exception
  | closed => exact hask.reset .exception

end Consistent

theorem reset_evolves (s : IpLookup) (kind : Kind) : s.loop.Evolves (s.reset kind).loop :=
  s.loop.evolves_reset (s.registration kind)

theorem ensure_evolves (s : IpLookup) (kind : Kind) : s.loop.Evolves (s.ensure kind).loop := by
  unfold ensure
  split
  next => exact .refl
  next => exact (s.loop.evolves_register kind _ _ _).trans (Loop.evolves_reset _ _)

theorem connect_evolves (s : IpLookup) : s.loop.Evolves s.connect.loop := by
  unfold connect
  cases s.results s.calls with
  | needRead => exact (s.ask.ensure_evolves .read).trans (reset_evolves _ .write)
  | needWrite => exact (s.ask.ensure_evolves .write).trans (reset_evolves _ .read)
  | success => exact s.ask.reset_evolves .exception
  | fatal => exact s.ask.reset_evolves .exception
  | closed => exact s.ask.reset_evolves .exception

def machine : Machine IpLookup Unit where
  loop s := s.loop
  call _ _ s := s.connect
  call_evolves _ _ s := s.connect_evolves

@[simp] theorem machine_loop (s : IpLookup) : machine.loop s = s.loop := rfl

/-- `Loop::run` of the constructor. -/
def lookup (s : IpLookup) (inputs : List Input) : Running IpLookup :=
  run machine.step (Machine.start s) inputs

theorem lookup_preserves {P : IpLookup → Prop} (keep : ∀ s, P s → P s.connect) {s : IpLookup}
    (h : P s) (inputs : List Input) : P (s.lookup inputs).state := by
  apply run_preserves (I := fun r : Running IpLookup => P r.state) _ h
  intro r input hr
  refine machine.step_preserves ?_ hr input
  intro kind handle s hs
  unfold Machine.callCallback
  split
  next => exact keep s hs
  next => exact hs

theorem Consistent.empty_iff {s : IpLookup} (h : s.Consistent) :
    s.loop.Empty ↔ ∀ kind, s.held kind = false := by
  rw [Loop.empty_iff_not_mem]
  simp only [h.mem_iff]
  constructor
  · intro hnone kind
    simpa using hnone kind s.socket
  · intro hnone kind handle
    simp [hnone kind]

/-- The task is the last one of a `Loop::timeout()` that was called at `m_timeout` or
after it. -/
def Expires (r : Running IpLookup) : Prop :=
  match r.tasks with
  | .sweepWrite now _ excepted earliest :: _ =>
    r.state.timeout ≤ now ∧
      (r.state.loop.sweep now excepted earliest r.state.loop.writeFunctions.toList).2 = none
  | _ => False

/-- A result of the lookup so far has nothing to wait for, or a `Loop::timeout()` that
was called at the deadline or after it has come to its end. -/
def Over (s : IpLookup) (inputs : List Input) : Prop :=
  (∃ n < (s.lookup inputs).state.calls, (s.results n).final = true) ∨
    ∃ before input after, inputs = before ++ input :: after ∧ Expires (s.lookup before)

/-- No member holds a registration, the loop is empty, and `Loop::run` returns. -/
structure Released (r : Running IpLookup) : Prop where
  registration : ∀ kind, r.state.held kind = false
  empty : r.state.loop.Empty
  returns : ∀ inputs, Machine.remaining r < inputs.length → (run machine.step r inputs).tasks = []

theorem lookup_scheduled (s : IpLookup) (inputs : List Input) :
    ∃ populated : Loop Unit,
      Machine.Scheduled (s.lookup inputs) populated ∧ machine.Settled (s.lookup inputs) := by
  apply run_preserves (I := fun r =>
    ∃ populated : Loop Unit, Machine.Scheduled r populated ∧ machine.Settled r)
  · rintro r input ⟨populated, hscheduled, hsettled⟩
    exact ⟨_, hscheduled.step machine input, hsettled.step hscheduled input⟩
  · exact ⟨_, machine.scheduled_start s, machine.settled_start s⟩

theorem new_spec (config : Config.ConfigParser) (time socket : Int) (results : Nat → Result) :
    (new config time socket results).Consistent ∧
      (new config time socket results).held =
        next (Function.update (fun _ => false) .exception true) (results 0) := by
  have hunset : Consistent
      ⟨.new, socket, fun _ => .moved, time + config.timeout, results, 0⟩ := by
    constructor
    · intro kind handle
      simp [Loop.new, held, Registration.moved, Registration.valid]
    · intro kind hkind
      contradiction
  obtain ⟨hregister, hheld⟩ := hunset.register (show held _ .exception = false from rfl)
  obtain ⟨hconnect, hnext⟩ := hregister.connect
  refine ⟨hconnect, ?_⟩
  unfold new
  rw [hnext, hheld]
  rfl

theorem Consistent.sweep_some {s : IpLookup} (h : s.Consistent) {kind : Kind}
    {now earliest handle : Int} {excepted : List Int}
    (hsweep : (s.loop.sweep now excepted earliest (s.loop.functions kind).toList).2 =
      some handle) : handle = s.socket ∧ s.socket ∉ excepted := by
  obtain ⟨entry, hmem, -, -, hfresh, -⟩ := Loop.sweep_eq_some hsweep
  have hkey := List.mem_map_of_mem (f := Prod.fst) hmem
  rw [Std.TreeMap.map_fst_toList_eq_keys, Std.TreeMap.mem_keys, h.mem_iff] at hkey
  rw [← hkey.1]
  exact ⟨rfl, hfresh⟩

theorem ensure_kept (s : IpLookup) (kind : Kind) :
    (s.ensure kind).socket = s.socket ∧ (s.ensure kind).timeout = s.timeout := by
  unfold ensure
  split
  next => exact ⟨rfl, rfl⟩
  next => exact ⟨rfl, rfl⟩

theorem connect_kept (s : IpLookup) :
    s.connect.socket = s.socket ∧ s.connect.timeout = s.timeout := by
  unfold connect
  cases s.results s.calls with
  | needRead => exact s.ask.ensure_kept .read
  | needWrite => exact s.ask.ensure_kept .write
  | success => exact ⟨rfl, rfl⟩
  | fatal => exact ⟨rfl, rfl⟩
  | closed => exact ⟨rfl, rfl⟩

theorem Consistent.raise {s : IpLookup} (h : s.Consistent) (handle : Int) :
    (machine.raiseException handle s).2.Consistent ∧
      (machine.raiseException handle s).2.socket = s.socket ∧
      (machine.raiseException handle s).2.timeout = s.timeout := by
  unfold Machine.raiseException
  split
  next => exact ⟨h.connect.1, s.connect_kept⟩
  next => exact ⟨h, rfl, rfl⟩

theorem Consistent.sweep_raised {s : IpLookup} (h : s.Consistent) (kind : Kind)
    (now earliest : Int) :
    ((machine.raiseException s.socket s).2.loop.sweep now [s.socket] earliest
      ((machine.raiseException s.socket s).2.loop.functions kind).toList).2 = none := by
  obtain ⟨hraised, hsocket, -⟩ := h.raise s.socket
  rw [Option.eq_none_iff_forall_ne_some]
  intro handle hsweep
  have hfresh := (hraised.sweep_some hsweep).2
  simp [hsocket] at hfresh

section Passes

variable {r : Running IpLookup} {now earliest : Int} {tasks : List Task}

theorem read_pass_done {excepted : List Int}
    (htasks : r.tasks = .sweepRead now excepted earliest :: tasks)
    (hnone : (r.state.loop.sweep now excepted earliest r.state.loop.readFunctions.toList).2 = none)
    (input : Input) : ∃ earliestRead, (machine.step r input).tasks =
      .sweepWrite now earliestRead [] 0 :: tasks := by
  refine ⟨(r.state.loop.sweep now excepted earliest r.state.loop.readFunctions.toList).1, ?_⟩
  rw [machine.step_sweepRead htasks rfl, machine_loop, hnone]
  rfl

theorem read_pass_ends (h : r.state.Consistent)
    (htasks : r.tasks = .sweepRead now [] earliest :: tasks) (input : Input) :
    ∃ n earliestRead, (run machine.step r (List.replicate n input)).tasks =
      .sweepWrite now earliestRead [] 0 :: tasks := by
  rcases hsweep : r.state.loop.sweep now [] earliest r.state.loop.readFunctions.toList with
    ⟨earliest', _ | handle⟩
  · exact ⟨1, read_pass_done htasks (congrArg Prod.snd hsweep) input⟩
  · obtain ⟨rfl, -⟩ := h.sweep_some (congrArg Prod.snd hsweep)
    have hraise := machine.step_sweepRead htasks hsweep input
    refine ⟨2, ?_⟩
    rw [List.replicate_succ, List.replicate_one, run_cons, run_cons, run_nil, hraise]
    exact read_pass_done rfl (h.sweep_raised .read now earliest') input

theorem write_pass_ends (h : r.state.Consistent) {earliestRead : Int}
    (htasks : r.tasks = .sweepWrite now earliestRead [] earliest :: tasks)
    (hnow : r.state.timeout ≤ now) (input : Input) :
    ∃ n, Expires (run machine.step r (List.replicate n input)) := by
  rcases hsweep : r.state.loop.sweep now [] earliest r.state.loop.writeFunctions.toList with
    ⟨earliest', _ | handle⟩
  · refine ⟨0, ?_⟩
    rw [List.replicate_zero, run_nil, Expires, htasks]
    exact ⟨hnow, congrArg Prod.snd hsweep⟩
  · obtain ⟨rfl, -⟩ := h.sweep_some (congrArg Prod.snd hsweep)
    refine ⟨1, ?_⟩
    rw [List.replicate_one, run_cons, run_nil, machine.step_sweepWrite htasks hsweep]
    exact ⟨(h.raise r.state.socket).2.2.trans_le hnow, h.sweep_raised .write now earliest'⟩

end Passes

theorem Consistent.exists_over {s : IpLookup} (h : s.Consistent) : ∃ inputs, Over s inputs := by
  have hconsistent : ∀ inputs, (s.lookup inputs).state.Consistent :=
    lookup_preserves (fun _ h => h.connect.1) h
  have htimeout : ∀ inputs, (s.lookup inputs).state.timeout = s.timeout :=
    lookup_preserves (P := fun s' => s'.timeout = s.timeout)
      (fun s' h => s'.connect_kept.2.trans h) rfl
  let input : Input := ⟨s.timeout, none⟩
  obtain ⟨n, earliestRead, hread⟩ := read_pass_ends (hconsistent [input]) rfl input
  rw [lookup, ← run_append] at hread
  obtain ⟨n', hwrite⟩ := write_pass_ends (hconsistent ([input] ++ List.replicate n input)) hread
    (htimeout _).le input
  rw [lookup, ← run_append] at hwrite
  exact ⟨_, .inr ⟨_, input, [], rfl, hwrite⟩⟩

section New

variable (config : Config.ConfigParser) (time socket : Int) (results : Nat → Result)

theorem lookup_consistent (inputs : List Input) :
    ((new config time socket results).lookup inputs).state.Consistent :=
  lookup_preserves (fun _ h => h.connect.1) (new_spec config time socket results).1 inputs

theorem lookup_waits (hwaits : (results 0).final = false) (inputs : List Input) :
    Waits ((new config time socket results).lookup inputs).state.held := by
  obtain ⟨hnew, hheld⟩ := new_spec config time socket results
  refine (lookup_preserves (P := fun s => s.Consistent ∧ Waits s.held) ?_ ⟨hnew, ?_⟩ inputs).2
  · intro s h
    rw [h.1.connect.2]
    exact ⟨h.1.connect.1, waits_next h.2 _⟩
  · rw [hheld]
    exact next_of_not_final hwaits _

theorem new_empty (hfinal : (results 0).final = true) :
    (new config time socket results).loop.Empty := by
  obtain ⟨hnew, hheld⟩ := new_spec config time socket results
  rw [hnew.empty_iff, hheld, next_of_final hfinal]
  intro kind
  cases kind <;> rfl

/-- In every state of every run, everything is released exactly when the first
result was one with nothing to wait for. -/
theorem released_iff (inputs : List Input) :
    Released ((new config time socket results).lookup inputs) ↔ (results 0).final = true := by
  have hconsistent := lookup_consistent config time socket results inputs
  constructor
  · intro hreleased
    by_contra hwaits
    have hheld := lookup_waits config time socket results (by simpa using hwaits) inputs
    simp [Waits, hreleased.registration] at hheld
  · intro hfinal
    have hempty : ((new config time socket results).lookup inputs).state.loop.Empty := by
      refine run_preserves (I := fun r : Running IpLookup => r.state.loop.Empty) ?_
        (new_empty config time socket results hfinal) inputs
      intro r input h
      rw [machine.step_state]
      cases machine.calls r with
      | none => exact h
      | some turn =>
        change (machine.callCallback turn.1 turn.2 r.state).loop.Empty
        rw [machine.callCallback_of_empty h]
        exact h
    obtain ⟨populated, hscheduled, -⟩ := lookup_scheduled (new config time socket results) inputs
    exact ⟨hconsistent.empty_iff.mp hempty, hempty, fun more hlong =>
      machine.returns_of_empty hempty hscheduled hlong⟩

/-- The first result decides. Where it has nothing to wait for, everything is released
by then and for good; after any other one there are runs that are over and go on. -/
theorem ends_released_iff :
    (∀ inputs, Over (new config time socket results) inputs →
      Released ((new config time socket results).lookup inputs)) ↔
        (results 0).final = true := by
  constructor
  · intro hends
    obtain ⟨inputs, hover⟩ := (new_spec config time socket results).1.exists_over
    exact (released_iff config time socket results inputs).mp (hends inputs hover)
  · intro hfinal inputs _
    exact (released_iff config time socket results inputs).mpr hfinal

/-- As long as `poll` does not fail, such a lookup never gets to its end. -/
theorem lookup_runs_on (hwaits : (results 0).final = false) (inputs : List Input)
    (hpoll : ∀ input ∈ inputs, input.poll ≠ none) :
    ((new config time socket results).lookup inputs).tasks ≠ [] := by
  induction inputs using List.reverseRecOn with
  | nil => simp [lookup, Machine.start]
  | append_singleton inputs input ih =>
    have hrunning := ih fun input' hinput => hpoll input' (by simp [hinput])
    obtain ⟨populated, hscheduled, hsettled⟩ :=
      lookup_scheduled (new config time socket results) inputs
    have hheld := lookup_waits config time socket results hwaits (inputs ++ [input])
    have hempty := (lookup_consistent config time socket results (inputs ++ [input])).empty_iff
    unfold lookup at hheld hempty ⊢
    rw [run_append, run_cons, run_nil] at hheld hempty ⊢
    intro hreturns
    cases input with
    | mk now poll =>
      cases poll with
      | none => exact absurd rfl (hpoll ⟨now, none⟩ (by simp))
      | some revents =>
        have hnone := hempty.mp (hsettled.empty_of_returns hscheduled hrunning hreturns)
        simp [Waits, hnone] at hheld

end New

/-- The server has not answered yet when the constructor connects. -/
def waiting : IpLookup :=
  new { Config.ConfigParser.new with ipLookup := ⟨.inet, 853, [1, 1, 1, 1]⟩ } 1000 3
    fun n => if n = 0 then .needRead else .success

def answered : List Input :=
  List.replicate 4 ⟨1000, none⟩ ++ [⟨1000, some fun _ => POLLIN⟩, ⟨1000, none⟩]

/-- The second call of `SslConnection::connect` succeeds, and the socket is still
registered for reads. -/
theorem answered_not_released :
    Over waiting answered ∧ (waiting.lookup answered).state.held .read = true ∧
      ¬ ∀ inputs, Over waiting inputs → Released (waiting.lookup inputs) := by
  have hcalls : (waiting.lookup answered).state.calls = 2 := by decide
  have hheld : (waiting.lookup answered).state.held .read = true := by decide
  have hover : Over waiting answered := by
    refine .inl ⟨1, ?_, rfl⟩
    rw [hcalls]
    decide
  refine ⟨hover, hheld, fun hends => ?_⟩
  have hreleased := (hends answered hover).registration .read
  rw [hheld] at hreleased
  contradiction

end IpLookup

end Dote
