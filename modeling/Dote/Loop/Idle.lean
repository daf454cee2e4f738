import Dote.Loop.Watching

/-! A loop without registrations. Nothing is called any more, and `Loop::run`
returns after the tasks that are left and at most one more round. -/
namespace Dote

namespace Loop

variable {C : Type}

def Empty (loop : Loop C) : Prop :=
  loop.readFunctions.isEmpty = true ∧ loop.writeFunctions.isEmpty = true ∧
    loop.exceptFunctions.isEmpty = true

instance (loop : Loop C) : Decidable loop.Empty := inferInstanceAs (Decidable (_ ∧ _ ∧ _))

theorem empty_iff_not_mem (loop : Loop C) :
    loop.Empty ↔ ∀ kind handle, handle ∉ loop.functions kind := by
  unfold Empty
  simp only [Std.TreeMap.isEmpty_iff_forall_not_mem]
  constructor
  · intro h kind
    cases kind with
    | read => exact h.1
    | write => exact h.2.1
    | exception => exact h.2.2
  · exact fun h => ⟨h .read, h .write, h .exception⟩

theorem empty_iff_registered (loop : Loop C) :
    loop.Empty ↔ ∀ handle, ¬ loop.Registered handle := by
  simp only [empty_iff_not_mem, registered_iff, not_exists]
  exact forall_comm

theorem Empty.find {loop : Loop C} (h : loop.Empty) (kind : Kind) (handle : Int) :
    loop.find kind handle = none := by
  rw [← Option.not_isSome_iff_eq_none, ← mem_functions_iff]
  exact (empty_iff_not_mem loop).mp h kind handle

theorem Empty.toList {loop : Loop C} (h : loop.Empty) (kind : Kind) :
    (loop.functions kind).toList = [] := by
  rw [← List.isEmpty_iff, Std.TreeMap.isEmpty_toList, Std.TreeMap.isEmpty_iff_forall_not_mem]
  exact (empty_iff_not_mem loop).mp h kind

theorem Empty.remove {loop : Loop C} (h : loop.Empty) (kind : Kind) (handle : Int) :
    (loop.remove kind handle).Empty := by
  rw [empty_iff_not_mem]
  intro other k
  rw [mem_functions_iff, find_remove, h.find]
  split <;> simp

theorem Empty.reset {loop : Loop C} (h : loop.Empty) (registration : Registration) :
    (loop.reset registration).2.Empty := by
  unfold Loop.reset
  split
  next => exact h
  next kind _ => exact h.remove kind registration.handle

theorem Watches.empty_of_nil {loop : Loop C} (h : loop.Watches []) : loop.Empty := by
  rw [empty_iff_registered]
  intro handle hregistered
  simpa using (h.mem_iff handle).mpr hregistered

theorem Empty.populateFds {loop : Loop C} (h : loop.Empty) {fds : List PollFd}
    (hnodup : (fds.map PollFd.fd).Nodup) : loop.populateFds fds = [] := by
  have hwatches := loop.populateFds_watches hnodup
  rw [List.eq_nil_iff_forall_not_mem]
  intro fd hfd
  exact (empty_iff_registered loop).mp h fd.fd
    ((hwatches.mem_iff fd.fd).mp (List.mem_map_of_mem hfd))

end Loop

namespace Machine
open Library.Run

variable {σ C : Type} (m : Machine σ C)

theorem callCallback_of_empty {s : σ} (h : (m.loop s).Empty) (kind : Kind) (handle : Int) :
    m.callCallback kind handle s = s := by
  unfold callCallback
  rw [h.find]

theorem sweep_of_empty {s : σ} (h : (m.loop s).Empty) (kind : Kind) (now : Int)
    (excepted : List Int) (earliest : Int) :
    (m.loop s).sweep now excepted earliest ((m.loop s).functions kind).toList =
      (earliest, none) := by
  rw [h.toList]
  rfl

/-- Before the vector is filled again every callback of the pass is called. -/
def TurnsFirst : List Task → Prop
  | [] => True
  | .turn _ _ :: tasks => .populate ∈ tasks ∧ TurnsFirst tasks
  | _ :: tasks => TurnsFirst tasks

theorem turnsFirst_turns {tasks : List Task} (h : TurnsFirst tasks) (hpopulate : .populate ∈ tasks)
    (turns : List (Kind × Int)) :
    TurnsFirst (turns.map (fun turn => .turn turn.1 turn.2) ++ tasks) := by
  induction turns with
  | nil => exact h
  | cons turn turns ih => exact ⟨List.mem_append_right _ hpopulate, ih⟩

/-- What makes an empty vector a reason to return: unless it is filled again
first, there is nothing registered, and no callback comes in between. -/
structure Settled (r : Running σ) : Prop where
  turnsFirst : TurnsFirst r.tasks
  empty : .populate ∉ r.tasks → r.fds = [] → (m.loop r.state).Empty

theorem settled_start (s : σ) : m.Settled (start s) where
  turnsFirst := trivial
  empty h := by simp [start] at h

section Settled

variable {m} {r : Running σ} {populated : Loop C}

theorem Settled.step (h : m.Settled r) (hscheduled : Scheduled r populated) (input : Input) :
    m.Settled (m.step r input) := by
  obtain ⟨hturns, hempty⟩ := h
  cases htasks : r.tasks with
  | nil =>
    rw [show m.step r input = r by simp [Machine.step, htasks]]
    exact ⟨hturns, hempty⟩
  | cons task tasks =>
    rw [htasks] at hturns hempty
    cases task with
    | timeout =>
      simp only [Machine.step, htasks]
      refine ⟨hturns, fun hnone hfds => hempty ?_ hfds⟩
      simpa using hnone
    | sweepRead now excepted earliest =>
      simp only [Machine.step, htasks]
      split
      next handle hsweep =>
        refine ⟨hturns, fun hnone hfds => ?_⟩
        rw [Loop.readFunctions, m.sweep_of_empty (hempty (by simpa using hnone) hfds)] at hsweep
        simp at hsweep
      next =>
        refine ⟨hturns, fun hnone hfds => hempty ?_ hfds⟩
        simpa using hnone
    | sweepWrite now earliestRead excepted earliest =>
      simp only [Machine.step, htasks]
      split
      next handle hsweep =>
        refine ⟨hturns, fun hnone hfds => ?_⟩
        rw [Loop.writeFunctions, m.sweep_of_empty (hempty (by simpa using hnone) hfds)] at hsweep
        simp at hsweep
      next =>
        refine ⟨hturns, fun hnone hfds => hempty ?_ hfds⟩
        simpa using hnone
    | populate =>
      have hwatches := (m.loop r.state).populateFds_watches hscheduled.nodup
      simp only [Machine.step, htasks]
      refine ⟨hturns, fun _ hfds => ?_⟩
      change (m.loop r.state).populateFds r.fds = [] at hfds
      rw [hfds] at hwatches
      exact hwatches.empty_of_nil
    | poll =>
      have hnone : .populate ∉ Task.poll :: tasks := by simp [hscheduled.nil_of_poll htasks]
      simp only [Machine.step, htasks]
      split
      next revents _ =>
        split
        next => exact ⟨trivial, fun _ => hempty hnone⟩
        next =>
          have hround : TurnsFirst [.populate, .timeout, .poll] := trivial
          exact ⟨turnsFirst_turns hround (by simp) _, by simp⟩
      next => exact ⟨trivial, fun _ => hempty hnone⟩
    | turn kind handle =>
      simp only [Machine.step, htasks]
      exact ⟨hturns.2, fun hnone _ => absurd hturns.1 hnone⟩

theorem Settled.empty_of_returns (h : m.Settled r) (hscheduled : Scheduled r populated)
    (hrunning : r.tasks ≠ []) {now : Int} {revents : Int → PollEvents}
    (hreturns : (m.step r ⟨now, some revents⟩).tasks = []) :
    (m.loop (m.step r ⟨now, some revents⟩).state).Empty := by
  obtain ⟨front, htasks, hfront⟩ := hscheduled.pollLast.resolve_left hrunning
  cases front with
  | nil =>
    rw [List.nil_append] at htasks
    simp only [Machine.step, htasks] at hreturns ⊢
    split at hreturns
    next hfds =>
      rw [if_pos hfds]
      exact h.empty (by simp [htasks]) hfds
    next => simp at hreturns
  | cons task front =>
    rw [List.cons_append] at htasks
    cases task with
    | timeout => simp [Machine.step, htasks] at hreturns
    | sweepRead now excepted earliest =>
      simp only [Machine.step, htasks] at hreturns
      split at hreturns <;> simp at hreturns
    | sweepWrite now earliestRead excepted earliest =>
      simp only [Machine.step, htasks] at hreturns
      split at hreturns <;> simp at hreturns
    | populate => simp [Machine.step, htasks] at hreturns
    | poll => simp at hfront
    | turn kind handle => simp [Machine.step, htasks] at hreturns

end Settled

/-- How many tasks a task still leads to, itself included, before the next poll. -/
def weight : Task → Nat
  | .timeout => 3
  | .sweepRead _ _ _ => 2
  | _ => 1

def weights (tasks : List Task) : Nat := (tasks.map weight).sum

/-- What is left of the run when the loop is empty. A vector that is not filled
again before the next poll makes for one more round. -/
def remaining (r : Running σ) : Nat :=
  weights r.tasks + if r.tasks = [] ∨ .populate ∈ r.tasks then 0 else 8 * r.fds.length

@[simp] theorem weights_nil : weights [] = 0 := rfl

@[simp] theorem weights_cons (task : Task) (tasks : List Task) :
    weights (task :: tasks) = weight task + weights tasks := by
  simp [weights]

@[simp] theorem weights_append (first second : List Task) :
    weights (first ++ second) = weights first + weights second := by
  simp [weights]

theorem weights_turns (fds : List PollFd) :
    weights ((turns fds).map fun turn => .turn turn.1 turn.2) ≤ 3 * fds.length := by
  unfold turns
  induction fds with
  | nil => simp
  | cons fd fds ih =>
    have hfd : weights ((turnsOf fd).map fun turn => .turn turn.1 turn.2) ≤ 3 := by
      unfold turnsOf
      split <;> split <;> split <;> simp [weight]
    rw [List.flatMap_cons, List.map_append, weights_append, List.length_cons]
    omega

theorem remaining_next {r : Running σ} {task : Task} {tasks : List Task}
    (htasks : r.tasks = task :: tasks) (htask : task ≠ .populate) (new : List Task)
    (hless : weights (new ++ tasks) < weights (task :: tasks)) (s : σ) (currentTimeout : Int) :
    remaining ⟨s, r.fds, currentTimeout, new ++ tasks⟩ < remaining r := by
  unfold remaining
  rw [htasks]
  by_cases hpopulate : .populate ∈ tasks
  · simp only [List.mem_append, List.mem_cons, hpopulate, or_true, if_true]
    omega
  · simp only [reduceCtorEq, List.mem_cons, htask.symm, hpopulate, or_false, if_false]
    split <;> omega

theorem step_of_empty {r : Running σ} {populated : Loop C} (h : (m.loop r.state).Empty)
    (hscheduled : Scheduled r populated) (input : Input) :
    (m.step r input).state = r.state ∧
      (r.tasks ≠ [] → (m.step r input).tasks = [] ∨ remaining (m.step r input) < remaining r) := by
  cases htasks : r.tasks with
  | nil => simp [step, htasks]
  | cons task tasks =>
    cases task with
    | timeout =>
      simp only [step, htasks]
      refine ⟨trivial, fun _ => .inr ?_⟩
      exact remaining_next htasks (by simp) [_] (by simp [weight]) _ _
    | sweepRead now excepted earliest =>
      simp only [step, htasks, Loop.readFunctions, m.sweep_of_empty h]
      refine ⟨trivial, fun _ => .inr ?_⟩
      exact remaining_next htasks (by simp) [_] (by simp [weight]) _ _
    | sweepWrite now earliestRead excepted earliest =>
      simp only [step, htasks, Loop.writeFunctions, m.sweep_of_empty h]
      refine ⟨trivial, fun _ => .inr ?_⟩
      exact remaining_next htasks (by simp) [] (by simp [weight]) _ _
    | populate =>
      simp only [step, htasks, h.populateFds hscheduled.nodup]
      refine ⟨trivial, fun _ => .inr ?_⟩
      simp [remaining, htasks, weight]
    | poll =>
      have hlast := hscheduled.nil_of_poll htasks
      simp only [step, htasks]
      split
      next revents _ =>
        split
        next => exact ⟨rfl, fun _ => .inl rfl⟩
        next hfds =>
          refine ⟨rfl, fun _ => .inr ?_⟩
          have hturns := weights_turns (polled r.fds revents)
          have hlength : (polled r.fds revents).length = r.fds.length := by simp [polled]
          have hpositive := List.length_pos_of_ne_nil hfds
          unfold remaining
          simp [htasks, hlast, weight]
          omega
      next => exact ⟨rfl, fun _ => .inl rfl⟩
    | turn kind handle =>
      simp only [step, htasks, takeTurn, m.callCallback_of_empty h]
      refine ⟨trivial, fun _ => .inr ?_⟩
      exact remaining_next htasks (by simp) [] (by simp [weight]) _ _

theorem returns_of_empty {r : Running σ} {populated : Loop C} (h : (m.loop r.state).Empty)
    (hscheduled : Scheduled r populated) {inputs : List Input}
    (hlong : remaining r < inputs.length) : (run m.step r inputs).tasks = [] := by
  have hcount : remaining r < inputs.countP fun _ => true := by simpa using hlong
  refine run_done (I := fun r => (m.loop r.state).Empty ∧ ∃ populated, Scheduled r populated)
    (fun r => r.tasks = []) ?_ ?_ ?_ ⟨h, populated, hscheduled⟩ hcount
  · rintro r input ⟨h, populated, hscheduled⟩
    refine ⟨?_, _, hscheduled.step m input⟩
    rw [(m.step_of_empty h hscheduled input).1]
    exact h
  · intro r input _ hdone
    simp [step, hdone]
  · rintro r input ⟨h, populated, hscheduled⟩ hrunning
    refine ((m.step_of_empty h hscheduled input).2 hrunning).imp_right fun hless => ?_
    simpa using hless

end Machine

end Dote
