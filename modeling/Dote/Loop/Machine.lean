import Dote.Library.Run
import Dote.Loop.Poll

/-! `Loop::run` around any program. The run is a list of the tasks that are left
of the current round; a callback is one task, and the program between two tasks
is a state in which anything else may look at it. -/
namespace Dote

/-- A program around the loop. A callback may do anything to the program; to the
loop it can only register and remove. -/
structure Machine (σ C : Type) where
  loop : σ → Loop C
  call : C → Int → σ → σ
  call_evolves : ∀ (callback : C) (handle : Int) (s : σ),
    (loop s).Evolves (loop (call callback handle s))

/-- `sweepRead` and `sweepWrite` are `Loop::timeout(now, functions)` from
`functions.begin()` on, with what it has found so far. -/
inductive Task where
  | timeout
  | sweepRead (now : Int) (excepted : List Int) (earliest : Int)
  | sweepWrite (now earliestRead : Int) (excepted : List Int) (earliest : Int)
  | populate
  | poll
  | turn (kind : Kind) (handle : Int)
deriving DecidableEq, Repr

/-- `Loop::run` has returned when no task is left. -/
structure Running (σ : Type) where
  state : σ
  fds : List PollFd
  currentTimeout : Int
  tasks : List Task

/-- What a task can be told from outside: the time, and the result of `poll`,
which is the `revents` of each handle or -1. -/
structure Input where
  now : Int
  poll : Option (Int → PollEvents)

namespace Loop

variable {C : Type}

/-- `Loop::timeout(now, functions)` up to the first handle that it raises. Until
then nothing changes, so the iterator runs over a fixed map. -/
def sweep (loop : Loop C) (now : Int) (excepted : List Int) :
    Int → List (Int × Entry C) → Int × Option Int
  | earliest, [] => (earliest, none)
  | earliest, (handle, entry) :: rest =>
    let thisTime := entry.timeout
    if thisTime ≠ 0 ∧ thisTime ≤ now ∧ handle ∉ excepted ∧ handle ∈ loop.exceptFunctions then
      (earliest, some handle)
    else if earliest = 0 ∨ thisTime < earliest then loop.sweep now excepted thisTime rest
    else loop.sweep now excepted earliest rest

/-- The handle that the search comes to has expired, was not raised yet in the pass,
and has an exception handler. -/
theorem sweep_eq_some {loop : Loop C} {now handle : Int} {excepted : List Int}
    {entries : List (Int × Entry C)} : ∀ {earliest : Int},
    (loop.sweep now excepted earliest entries).2 = some handle →
      ∃ entry, (handle, entry) ∈ entries ∧ entry.timeout ≠ 0 ∧ entry.timeout ≤ now ∧
        handle ∉ excepted ∧ handle ∈ loop.exceptFunctions := by
  induction entries with
  | nil =>
    intro earliest h
    contradiction
  | cons first entries ih =>
    intro earliest h
    have hrest : ∀ {earliest}, (loop.sweep now excepted earliest entries).2 = some handle →
        ∃ entry, (handle, entry) ∈ first :: entries ∧ entry.timeout ≠ 0 ∧ entry.timeout ≤ now ∧
          handle ∉ excepted ∧ handle ∈ loop.exceptFunctions := by
      intro earliest h
      obtain ⟨entry, hmem, hexpired⟩ := ih h
      exact ⟨entry, List.mem_cons_of_mem _ hmem, hexpired⟩
    rw [sweep] at h
    split at h
    next hraise =>
      cases h
      exact ⟨first.2, List.mem_cons_self, hraise⟩
    next =>
      split at h
      next => exact hrest h
      next => exact hrest h

theorem sweep_eq_none {loop : Loop C} {now : Int} {excepted : List Int}
    {entries : List (Int × Entry C)} : ∀ {earliest : Int},
    (loop.sweep now excepted earliest entries).2 = none →
      ∀ handle entry, (handle, entry) ∈ entries → entry.timeout ≠ 0 → entry.timeout ≤ now →
        handle ∉ excepted → handle ∉ loop.exceptFunctions := by
  induction entries with
  | nil => simp
  | cons first entries ih =>
    intro earliest h handle entry hmem hne hle hnew hexcept
    rw [sweep] at h
    split at h
    next => contradiction
    next hraise =>
      have hrest : (handle, entry) ∈ entries := by
        cases List.mem_cons.mp hmem with
        | inl heq =>
          cases heq
          exact absurd ⟨hne, hle, hnew, hexcept⟩ hraise
        | inr hrest => exact hrest
      split at h
      next => exact ih h handle entry hrest hne hle hnew hexcept
      next => exact ih h handle entry hrest hne hle hnew hexcept

/-- The end of `Loop::timeout()`. The result is an `int`: a deadline that is at most 65535
seconds ahead keeps it below 2^31. -/
def pollTimeout (now earliestRead earliestWrite : Int) : Int :=
  let earliest := if earliestRead < earliestWrite then earliestRead else earliestWrite
  if earliest = 0 then -1
  else if now ≥ earliest then 0
  else (earliest - now) * 1000

end Loop

namespace Machine

variable {σ C : Type} (m : Machine σ C)

def callCallback (kind : Kind) (handle : Int) (s : σ) : σ :=
  match (m.loop s).find kind handle with
  | some entry => m.call entry.callback handle s
  | none => s

def raiseException (handle : Int) (s : σ) : Bool × σ :=
  match (m.loop s).find .exception handle with
  | some entry => (true, m.call entry.callback handle s)
  | none => (false, s)

def dispatchFd (s : σ) (fd : PollFd) : σ :=
  let s := if fd.revents.has POLLIN then m.callCallback .read fd.fd s else s
  let s := if fd.revents.has POLLOUT then m.callCallback .write fd.fd s else s
  if fd.revents.has (POLLERR ||| POLLHUP ||| POLLNVAL) then (m.raiseException fd.fd s).2 else s

/-- The dispatch pass of `Loop::run`. -/
def dispatch (fds : List PollFd) (s : σ) : σ := fds.foldl m.dispatchFd s

/-- The turns that the pass gives to the registrations of one handle. -/
def turnsOf (fd : PollFd) : List (Kind × Int) :=
  (if fd.revents.has POLLIN then [(.read, fd.fd)] else []) ++
    (if fd.revents.has POLLOUT then [(.write, fd.fd)] else []) ++
    (if fd.revents.has (POLLERR ||| POLLHUP ||| POLLNVAL) then [(.exception, fd.fd)] else [])

def turns (fds : List PollFd) : List (Kind × Int) := fds.flatMap turnsOf

def takeTurn (s : σ) (turn : Kind × Int) : σ := m.callCallback turn.1 turn.2 s

theorem raiseException_eq (handle : Int) (s : σ) :
    (m.raiseException handle s).2 = m.callCallback .exception handle s := by
  unfold raiseException callCallback
  split <;> simp_all

theorem dispatchFd_eq (s : σ) (fd : PollFd) :
    m.dispatchFd s fd = Library.Run.run m.takeTurn s (turnsOf fd) := by
  unfold dispatchFd turnsOf
  simp only [raiseException_eq]
  split <;> split <;> split <;> rfl

/-- The pass is a run of turns. -/
theorem dispatch_eq (fds : List PollFd) (s : σ) :
    m.dispatch fds s = Library.Run.run m.takeTurn s (turns fds) := by
  unfold dispatch turns
  induction fds generalizing s with
  | nil => rfl
  | cons fd fds ih =>
    rw [List.foldl_cons, List.flatMap_cons, Library.Run.run_append, ih, dispatchFd_eq]

theorem callCallback_evolves (kind : Kind) (handle : Int) (s : σ) :
    (m.loop s).Evolves (m.loop (m.callCallback kind handle s)) := by
  unfold callCallback
  split
  next entry _ => exact m.call_evolves entry.callback handle s
  next => exact .refl

theorem takeTurn_evolves (s : σ) (turn : Kind × Int) :
    (m.loop s).Evolves (m.loop (m.takeTurn s turn)) :=
  m.callCallback_evolves turn.1 turn.2 s

/-- The start of `Loop::run`: here the timeouts come before `populateFds`. -/
def start (s : σ) : Running σ := ⟨s, [], 0, [.timeout, .populate, .poll]⟩

def polled (fds : List PollFd) (revents : Int → PollEvents) : List PollFd :=
  fds.map fun fd => { fd with revents := revents fd.fd }

/-- One task of `Loop::run`. After a poll the dispatch pass is due, and then
`populateFds` and the timeouts for the next poll. -/
def step (r : Running σ) (input : Input) : Running σ :=
  match r.tasks with
  | [] => r
  | .timeout :: tasks => { r with tasks := .sweepRead input.now [] 0 :: tasks }
  | .sweepRead now excepted earliest :: tasks =>
    match (m.loop r.state).sweep now excepted earliest (m.loop r.state).readFunctions.toList with
    | (earliest, some handle) =>
      { r with
        state := (m.raiseException handle r.state).2
        tasks := .sweepRead now (excepted ++ [handle]) earliest :: tasks }
    | (earliest, none) => { r with tasks := .sweepWrite now earliest [] 0 :: tasks }
  | .sweepWrite now earliestRead excepted earliest :: tasks =>
    match (m.loop r.state).sweep now excepted earliest (m.loop r.state).writeFunctions.toList with
    | (earliest, some handle) =>
      { r with
        state := (m.raiseException handle r.state).2
        tasks := .sweepWrite now earliestRead (excepted ++ [handle]) earliest :: tasks }
    | (earliest, none) =>
      { r with currentTimeout := Loop.pollTimeout now earliestRead earliest, tasks := tasks }
  | .populate :: tasks => { r with fds := (m.loop r.state).populateFds r.fds, tasks := tasks }
  | .poll :: _ =>
    match input.poll with
    | some revents =>
      if r.fds = [] then { r with tasks := [] }
      else
        let fds := polled r.fds revents
        { r with
          fds := fds
          tasks := (turns fds).map (fun turn => .turn turn.1 turn.2) ++
            [.populate, .timeout, .poll] }
    | none => { r with tasks := [] }
  | .turn kind handle :: tasks =>
    { r with state := m.takeTurn r.state (kind, handle), tasks := tasks }

section Sweep

variable {r : Running σ} {now earliestRead earliest : Int} {excepted : List Int}
  {tasks : List Task} {found : Int × Option Int}

theorem step_sweepRead (htasks : r.tasks = .sweepRead now excepted earliest :: tasks)
    (hsweep : (m.loop r.state).sweep now excepted earliest
      (m.loop r.state).readFunctions.toList = found) (input : Input) :
    m.step r input =
      found.2.elim { r with tasks := .sweepWrite now found.1 [] 0 :: tasks } fun handle =>
        { r with
          state := (m.raiseException handle r.state).2
          tasks := .sweepRead now (excepted ++ [handle]) found.1 :: tasks } := by
  obtain ⟨earliest', _ | handle⟩ := found
  · simp only [step, htasks, hsweep, Option.elim_none]
  · simp only [step, htasks, hsweep, Option.elim_some]

theorem step_sweepWrite (htasks : r.tasks = .sweepWrite now earliestRead excepted earliest :: tasks)
    (hsweep : (m.loop r.state).sweep now excepted earliest
      (m.loop r.state).writeFunctions.toList = found) (input : Input) :
    m.step r input =
      found.2.elim
        { r with currentTimeout := Loop.pollTimeout now earliestRead found.1, tasks := tasks }
        fun handle =>
          { r with
            state := (m.raiseException handle r.state).2
            tasks := .sweepWrite now earliestRead (excepted ++ [handle]) found.1 :: tasks } := by
  obtain ⟨earliest', _ | handle⟩ := found
  · simp only [step, htasks, hsweep, Option.elim_none]
  · simp only [step, htasks, hsweep, Option.elim_some]

end Sweep

/-- The registration whose callback a task calls, if there is one. -/
def calls (r : Running σ) : Option (Kind × Int) :=
  match r.tasks with
  | .sweepRead now excepted earliest :: _ =>
    ((m.loop r.state).sweep now excepted earliest (m.loop r.state).readFunctions.toList).2.map
      (.exception, ·)
  | .sweepWrite now _ excepted earliest :: _ =>
    ((m.loop r.state).sweep now excepted earliest (m.loop r.state).writeFunctions.toList).2.map
      (.exception, ·)
  | .turn kind handle :: _ => some (kind, handle)
  | _ => none

/-- To the program a task does nothing but call one callback. -/
theorem step_state (r : Running σ) (input : Input) :
    (m.step r input).state = (m.calls r).elim r.state (m.takeTurn r.state) := by
  unfold step calls
  cases r.tasks with
  | nil => rfl
  | cons task tasks =>
    cases task with
    | timeout => rfl
    | sweepRead now excepted earliest =>
      dsimp only
      split
      next earliest' handle hsweep =>
        rw [hsweep]
        exact m.raiseException_eq handle r.state
      next earliest' hsweep =>
        rw [hsweep]
        rfl
    | sweepWrite now earliestRead excepted earliest =>
      dsimp only
      split
      next earliest' handle hsweep =>
        rw [hsweep]
        exact m.raiseException_eq handle r.state
      next earliest' hsweep =>
        rw [hsweep]
        rfl
    | populate => rfl
    | poll =>
      dsimp only
      split
      · split <;> rfl
      · rfl
    | turn kind handle => rfl

theorem step_preserves {P : σ → Prop}
    (hcall : ∀ kind handle s, P s → P (m.callCallback kind handle s)) {r : Running σ}
    (h : P r.state) (input : Input) : P (m.step r input).state := by
  rw [step_state]
  cases m.calls r with
  | none => exact h
  | some turn => exact hcall turn.1 turn.2 r.state h

end Machine

end Dote
