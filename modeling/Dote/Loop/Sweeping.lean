import Dote.Loop.TimeoutPass

/-! What the pass over the expired registrations has left for the next `poll`,
whatever runs between the two. -/
namespace Dote

namespace Loop

variable {C : Type} {now : Int} {before after : Loop C}

theorem Handling.renews (h : Handling now before after) (handle : Int) :
    Renews now before after handle :=
  (h.old_or_new handle).imp_right fun hnew kind entry hfind => (hnew kind entry hfind).2

theorem Handling.fresh (h : Handling now before after) {handles : List Int}
    (hfresh : before.Fresh now handles) : after.Fresh now handles := by
  intro handle hmem kind entry hfind
  cases h.renews handle with
  | inl hold => exact hfresh handle hmem kind entry (hold kind entry hfind)
  | inr hnew => exact hnew kind entry hfind

theorem Handling.done (h : Handling now before after) {kind : Kind}
    (hdone : before.Done kind now) : after.Done kind now := by
  intro handle entry hfind hexpired hexcept
  cases h.renews handle with
  | inl hold =>
    apply hdone handle entry (hold kind entry hfind) hexpired
    unfold exceptFunctions at hexcept ⊢
    rw [mem_functions_iff] at hexcept ⊢
    obtain ⟨handler, hhandler⟩ := Option.isSome_iff_exists.mp hexcept
    rw [hold .exception handler hhandler]
    rfl
  | inr hnew => exact hnew kind entry hfind hexpired

theorem done_of_sweep {loop : Loop C} {excepted : List Int} {earliest : Int} {kind : Kind}
    (hfresh : loop.Fresh now excepted)
    (hsweep : (loop.sweep now excepted earliest (loop.functions kind).toList).2 = none) :
    loop.Done kind now := by
  intro handle entry hfind hexpired
  apply sweep_eq_none hsweep handle entry (mem_toList.mpr hfind) hexpired.1 hexpired.2
  exact fun hmem => hfresh handle hmem kind entry hfind hexpired

theorem Handling.reset {loop : Loop C} (h : Handling now before loop)
    (registration : Registration) : Handling now before (loop.reset registration).2 := by
  unfold Loop.reset
  split
  next => exact h
  next kind _ => exact h.remove kind registration.handle

end Loop

namespace Machine

/-- What is left of a round behind its pass: in the first one the vector is filled
after it. -/
def Behind (tasks : List Task) : Prop := tasks = [.poll] ∨ tasks = [.populate, .poll]

/-- How far the round is with the pass, and the time of the last pass that has begun. -/
inductive Sweeping {C : Type} (loop : Loop C) : Option Int → List Task → Prop
  | returned {passed : Option Int} : Sweeping loop passed []
  | due {passed : Option Int} {front rest : List Task} :
      (∀ task ∈ front, task = .populate ∨ ∃ kind handle, task = .turn kind handle) →
      Behind rest → Sweeping loop passed (front ++ .timeout :: rest)
  | reading {now earliest : Int} {excepted : List Int} {rest : List Task} :
      Behind rest → loop.Fresh now excepted →
      Sweeping loop (some now) (.sweepRead now excepted earliest :: rest)
  | writing {now earliestRead earliest : Int} {excepted : List Int} {rest : List Task} :
      Behind rest → loop.Done .read now → loop.Fresh now excepted →
      Sweeping loop (some now) (.sweepWrite now earliestRead excepted earliest :: rest)
  | swept {now : Int} {rest : List Task} :
      Behind rest → loop.Done .read now → loop.Done .write now → Sweeping loop (some now) rest

section Loops

variable {C : Type} {loop loop' : Loop C} {passed : Option Int} {tasks : List Task}

theorem Sweeping.handling (h : Sweeping loop passed tasks)
    (hhandling : ∀ now ∈ passed, Loop.Handling now loop loop') : Sweeping loop' passed tasks := by
  cases h with
  | returned => exact .returned
  | due hfront hrest => exact .due hfront hrest
  | reading hrest hfresh => exact .reading hrest ((hhandling _ rfl).fresh hfresh)
  | writing hrest hdone hfresh =>
    exact .writing hrest ((hhandling _ rfl).done hdone) ((hhandling _ rfl).fresh hfresh)
  | swept hrest hread hwrite =>
    exact .swept hrest ((hhandling _ rfl).done hread) ((hhandling _ rfl).done hwrite)

theorem sweeping_polled (loop : Loop C) (passed : Option Int) (fds : List PollFd) :
    Sweeping loop passed ((turns fds).map (fun turn => .turn turn.1 turn.2) ++
      [.populate, .timeout, .poll]) := by
  rw [show [Task.populate, .timeout, .poll] = [.populate] ++ .timeout :: [.poll] from rfl,
    ← List.append_assoc]
  refine .due ?_ (.inl rfl)
  intro task hmem
  rw [List.mem_append, List.mem_map, List.mem_singleton] at hmem
  rcases hmem with ⟨turn, -, rfl⟩ | rfl
  · exact .inr ⟨turn.1, turn.2, rfl⟩
  · exact .inl rfl

theorem Sweeping.done_of_poll (h : Sweeping loop passed tasks)
    (hpoll : tasks.head? = some .poll) :
    ∃ now, passed = some now ∧ loop.Done .read now ∧ loop.Done .write now := by
  cases h with
  | returned => contradiction
  | due hfront hrest =>
    rename_i front rest
    cases front with
    | nil => simp at hpoll
    | cons task front =>
      simp only [List.cons_append, List.head?_cons, Option.some.injEq] at hpoll
      have hturn := hfront task List.mem_cons_self
      rw [hpoll] at hturn
      simp at hturn
  | reading hrest hfresh => simp at hpoll
  | writing hrest hdone hfresh => simp at hpoll
  | swept hrest hread hwrite => exact ⟨_, rfl, hread, hwrite⟩

end Loops

variable {σ C : Type} (m : Machine σ C)

def passed (r : Running σ) (last : Option Int) (now : Int) : Option Int :=
  if r.tasks.head? = some .timeout then some now else last

theorem sweeping_start (s : σ) (passed : Option Int) :
    Sweeping (m.loop s) passed (start s).tasks :=
  @Sweeping.due _ _ _ [] _ (by simp) (.inr rfl)

variable {m} {r : Running σ} {last : Option Int}

theorem Sweeping.step (h : Sweeping (m.loop r.state) last r.tasks)
    (hraise : ∀ now ∈ last, ∀ handle ∈ (m.loop r.state).exceptFunctions,
      Loop.Deregisters now handle (m.loop r.state) (m.loop (m.raiseException handle r.state).2))
    (input : Input) :
    Sweeping (m.loop (m.step r input).state) (passed r last input.now) (m.step r input).tasks := by
  unfold passed
  generalize htasks : r.tasks = tasks at h
  cases h with
  | returned =>
    simp only [Machine.step, htasks]
    exact .returned
  | due hfront hrest =>
    rename_i front rest
    cases front with
    | nil =>
      simp only [Machine.step, htasks, List.nil_append, List.head?_cons, if_true]
      exact .reading hrest (by simp [Loop.Fresh])
    | cons task front =>
      have hrest' : ∀ task ∈ front, task = .populate ∨ ∃ kind handle, task = .turn kind handle :=
        fun task hmem => hfront task (List.mem_cons_of_mem _ hmem)
      rcases hfront task List.mem_cons_self with rfl | ⟨kind, handle, rfl⟩
      · simp only [Machine.step, htasks, List.cons_append]
        exact .due hrest' hrest
      · simp only [Machine.step, htasks, List.cons_append]
        exact .due hrest' hrest
  | @reading now earliest excepted rest hrest hfresh =>
    generalize hsweep : (m.loop r.state).sweep now excepted earliest
      (m.loop r.state).readFunctions.toList = found
    rw [m.step_sweepRead htasks hsweep, if_neg (by simp)]
    obtain ⟨earliest', _ | handle⟩ := found
    · have hdone := Loop.done_of_sweep hfresh (congrArg Prod.snd hsweep)
      exact .writing hrest hdone (by simp [Loop.Fresh])
    · obtain ⟨entry, -, -, -, -, hexcept⟩ := Loop.sweep_eq_some (congrArg Prod.snd hsweep)
      exact .reading hrest ((hraise now rfl handle hexcept).handled.fresh hfresh)
  | @writing now earliestRead earliest excepted rest hrest hread hfresh =>
    generalize hsweep : (m.loop r.state).sweep now excepted earliest
      (m.loop r.state).writeFunctions.toList = found
    rw [m.step_sweepWrite htasks hsweep, if_neg (by simp)]
    obtain ⟨earliest', _ | handle⟩ := found
    · have hdone := Loop.done_of_sweep hfresh (congrArg Prod.snd hsweep)
      exact .swept hrest hread hdone
    · obtain ⟨entry, -, -, -, -, hexcept⟩ := Loop.sweep_eq_some (congrArg Prod.snd hsweep)
      have hhandled := (hraise now rfl handle hexcept).handled
      exact .writing hrest (hhandled.done hread) (hhandled.fresh hfresh)
  | @swept now rest hrest hread hwrite =>
    rcases hrest with rfl | rfl
    · simp only [Machine.step, htasks]
      split
      next revents _ =>
        split
        next => exact .returned
        next =>
          exact sweeping_polled _ _ _
      next => exact .returned
    · simp only [Machine.step, htasks]
      exact .swept (.inl rfl) hread hwrite

end Machine

end Dote
