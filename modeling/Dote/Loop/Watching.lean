import Dote.Loop.Machine

/-! What each `poll` of a run watches. The vector is filled before the timeouts
are looked at, except in the first round, and their callbacks can change the maps. -/
namespace Dote

namespace Loop

variable {C : Type}

/-- As far as a vector of `pollfd`s can tell, the two are registered alike. -/
structure SameHandles (loop loop' : Loop C) : Prop where
  read : ∀ handle, handle ∈ loop.readFunctions ↔ handle ∈ loop'.readFunctions
  write : ∀ handle, handle ∈ loop.writeFunctions ↔ handle ∈ loop'.writeFunctions
  registered : ∀ handle, loop.Registered handle ↔ loop'.Registered handle

theorem Watches.mem_map {loop loop' : Loop C} {fds : List PollFd} (h : loop.Watches fds)
    {kind : Kind} (flag : PollEvents)
    (hflag : ∀ fd ∈ fds, fd.events.has flag = true ↔ fd.fd ∈ loop.functions kind)
    (hflag' : ∀ fd ∈ fds, fd.events.has flag = true ↔ fd.fd ∈ loop'.functions kind)
    {handle : Int} (hmem : handle ∈ loop.functions kind) : handle ∈ loop'.functions kind := by
  have hfds := (h.mem_iff handle).mpr ((loop.registered_iff handle).mpr ⟨kind, hmem⟩)
  rw [List.mem_map] at hfds
  obtain ⟨fd, hfd, rfl⟩ := hfds
  rw [← hflag' fd hfd, hflag fd hfd]
  exact hmem

theorem Watches.watches_iff {loop loop' : Loop C} {fds : List PollFd} (h : loop.Watches fds) :
    loop'.Watches fds ↔ loop.SameHandles loop' := by
  constructor
  · intro h'
    constructor
    · intro handle
      constructor
      · exact h.mem_map POLLIN h.read_iff h'.read_iff
      · exact h'.mem_map POLLIN h'.read_iff h.read_iff
    · intro handle
      constructor
      · exact h.mem_map POLLOUT h.write_iff h'.write_iff
      · exact h'.mem_map POLLOUT h'.write_iff h.write_iff
    · intro handle
      rw [← h.mem_iff, ← h'.mem_iff]
  · intro hsame
    constructor
    · exact h.nodup
    · intro handle
      rw [h.mem_iff, hsame.registered]
    · intro fd hfd
      rw [h.read_iff fd hfd, hsame.read]
    · intro fd hfd
      rw [h.write_iff fd hfd, hsame.write]

theorem map_fd_polled (fds : List PollFd) (revents : Int → PollEvents) :
    (Machine.polled fds revents).map PollFd.fd = fds.map PollFd.fd := by
  simp [Machine.polled]

theorem Watches.polled {loop : Loop C} {fds : List PollFd} (h : loop.Watches fds)
    (revents : Int → PollEvents) : loop.Watches (Machine.polled fds revents) := by
  constructor
  · rw [map_fd_polled]
    exact h.nodup
  · intro handle
    rw [map_fd_polled]
    exact h.mem_iff handle
  · intro fd hfd
    obtain ⟨fd', hfd', rfl⟩ := List.mem_map.mp hfd
    exact h.read_iff fd' hfd'
  · intro fd hfd
    obtain ⟨fd', hfd', rfl⟩ := List.mem_map.mp hfd
    exact h.write_iff fd' hfd'

end Loop

namespace Machine
open Library.Run

variable {σ C : Type} (m : Machine σ C)

def Polls (r : Running σ) : Prop := r.tasks.head? = some .poll ∧ r.fds ≠ []

instance (r : Running σ) : Decidable (Polls r) := inferInstanceAs (Decidable (_ ∧ _))

def stepPopulated (p : Running σ × Loop C) (input : Input) : Running σ × Loop C :=
  (m.step p.1 input, if p.1.tasks.head? = some .populate then m.loop p.1.state else p.2)

/-- `populate` is due, or the vector is the one it made; a poll comes last in
every round. -/
structure Scheduled (r : Running σ) (populated : Loop C) : Prop where
  nodup : (r.fds.map PollFd.fd).Nodup
  watches : .populate ∉ r.tasks → populated.Watches r.fds
  pollLast : r.tasks = [] ∨ ∃ tasks, r.tasks = tasks ++ [.poll] ∧ .poll ∉ tasks

theorem scheduled_start (s : σ) : Scheduled (start s) (m.loop s) where
  nodup := by simp [start]
  watches h := by simp [start] at h
  pollLast := .inr ⟨[.timeout, .populate], rfl, by simp⟩

theorem Scheduled.nil_of_poll {r : Running σ} {populated : Loop C} (h : Scheduled r populated)
    {tasks : List Task} (htasks : r.tasks = .poll :: tasks) : tasks = [] := by
  cases h.pollLast with
  | inl hnil =>
    rw [htasks] at hnil
    contradiction
  | inr hlast =>
    obtain ⟨front, heq, hfront⟩ := hlast
    rw [htasks] at heq
    cases front with
    | nil =>
      cases heq
      rfl
    | cons first front =>
      cases heq
      simp at hfront

theorem Scheduled.next {r : Running σ} {populated : Loop C} (h : Scheduled r populated)
    {task : Task} {tasks : List Task} (htasks : r.tasks = task :: tasks)
    (hpoll : task ≠ .poll) (hpopulate : task ≠ .populate) (new : List Task) (hnew : .poll ∉ new)
    (s : σ) (currentTimeout : Int) :
    Scheduled ⟨s, r.fds, currentTimeout, new ++ tasks⟩ populated := by
  constructor
  · exact h.nodup
  · intro hnone
    apply h.watches
    rw [htasks, List.mem_cons]
    simp only [List.mem_append, not_or] at hnone
    simp [Ne.symm hpopulate, hnone.2]
  · cases h.pollLast with
    | inl hnil =>
      rw [htasks] at hnil
      contradiction
    | inr hlast =>
      obtain ⟨front, heq, hfront⟩ := hlast
      rw [htasks] at heq
      cases front with
      | nil =>
        cases heq
        contradiction
      | cons first front =>
        cases heq
        refine .inr ⟨new ++ front, by simp, ?_⟩
        simp only [List.mem_cons, not_or] at hfront
        simp [hnew, hfront.2]

theorem Scheduled.step {r : Running σ} {populated : Loop C} (h : Scheduled r populated)
    (input : Input) : Scheduled (m.step r input) (m.stepPopulated (r, populated) input).2 := by
  cases htasks : r.tasks with
  | nil => simpa [Machine.step, stepPopulated, htasks] using h
  | cons task tasks =>
    cases task with
    | timeout =>
      simp only [Machine.step, stepPopulated, htasks]
      exact h.next htasks (by simp) (by simp) [_] (by simp) r.state _
    | sweepRead now excepted earliest =>
      simp only [Machine.step, stepPopulated, htasks]
      split
      · exact h.next htasks (by simp) (by simp) [_] (by simp) _ _
      · exact h.next htasks (by simp) (by simp) [_] (by simp) _ _
    | sweepWrite now earliestRead excepted earliest =>
      simp only [Machine.step, stepPopulated, htasks]
      split
      · exact h.next htasks (by simp) (by simp) [_] (by simp) _ _
      · exact h.next htasks (by simp) (by simp) [] (by simp) _ _
    | populate =>
      simp only [Machine.step, stepPopulated, htasks]
      have hwatches := (m.loop r.state).populateFds_watches h.nodup
      constructor
      · exact hwatches.nodup
      · exact fun _ => hwatches
      · cases h.pollLast with
        | inl hnil =>
          rw [htasks] at hnil
          contradiction
        | inr hlast =>
          obtain ⟨front, heq, hfront⟩ := hlast
          rw [htasks] at heq
          cases front with
          | nil => simp at heq
          | cons first front =>
            cases heq
            exact .inr ⟨front, rfl, fun hmem => hfront (List.mem_cons_of_mem _ hmem)⟩
    | poll =>
      have hlast := h.nil_of_poll htasks
      have hwatches : populated.Watches r.fds := by
        apply h.watches
        simp [htasks, hlast]
      simp only [Machine.step, stepPopulated, htasks]
      split
      next revents _ =>
        split
        next => exact ⟨h.nodup, fun _ => hwatches, .inl rfl⟩
        next =>
          refine ⟨(hwatches.polled _).nodup, fun _ => hwatches.polled _, .inr
            ⟨(turns (polled r.fds revents)).map (fun turn => .turn turn.1 turn.2) ++
              [.populate, .timeout], ?_, ?_⟩⟩
          · simp
          · simp
      next => exact ⟨h.nodup, fun _ => hwatches, .inl rfl⟩
    | turn kind handle =>
      simp only [Machine.step, stepPopulated, htasks]
      exact h.next htasks (by simp) (by simp) [] (by simp) _ _

theorem Scheduled.polls_watches {r : Running σ} {populated : Loop C} (h : Scheduled r populated)
    (hpolls : Polls r) : populated.Watches r.fds := by
  apply h.watches
  cases h.pollLast with
  | inl hnil => simp [hnil]
  | inr hlast =>
    obtain ⟨front, heq, hfront⟩ := hlast
    have hhead := hpolls.1
    rw [heq] at hhead ⊢
    cases front with
    | nil => simp
    | cons first front =>
      simp only [List.cons_append, List.head?_cons, Option.some.injEq] at hhead
      simp [hhead] at hfront

/-- Every poll of a run watches the current registrations exactly when the maps
still have the handles that `populateFds` found in them. -/
theorem polls_watch_iff (s : σ) (inputs : List Input) :
    Throughout m.step (fun r _ => Polls r → (m.loop r.state).Watches r.fds) (start s) inputs ↔
      Throughout m.stepPopulated
        (fun p _ => Polls p.1 → p.2.SameHandles (m.loop p.1.state))
        (start s, m.loop s) inputs := by
  apply throughout_congr (R := fun r p _ => p.1 = r ∧ Scheduled r p.2)
  · rintro r ⟨_, populated⟩ input inputs ⟨rfl, h⟩
    exact ⟨rfl, h.step m input⟩
  · rintro r ⟨_, populated⟩ input inputs ⟨rfl, h⟩
    apply forall_congr'
    intro hpolls
    exact (h.polls_watches hpolls).watches_iff
  · exact ⟨rfl, m.scheduled_start s⟩

namespace Sample

/-- The callback closes its handle, and something new is written to handle 6. -/
def moving : Machine (Loop Unit) Unit where
  loop := id
  call _ handle loop :=
    ((loop.remove .read handle).remove .exception handle).insert .write 6 () 0
  call_evolves _ _ _ := .insert .write 6 () 0 (.remove _ _ (.remove _ _ .refl))

def waiting : Loop Unit := (Loop.new.insert .read 5 () 10).insert .exception 5 () 0

/-- A poll without any event, and a time at which the deadline has passed. -/
def inputs : List Input := List.replicate 5 ⟨1, some fun _ => 0⟩ ++ List.replicate 5 ⟨20, none⟩

end Sample

/-- The poll after a timeout watches the closed handle 5, and not handle 6. -/
theorem polls_watch_stale :
    ¬ Throughout Sample.moving.step
      (fun r _ => Polls r → (Sample.moving.loop r.state).Watches r.fds)
      (start Sample.waiting) (Sample.inputs ++ [⟨20, none⟩]) := by
  intro h
  rw [throughout_iff_forall] at h
  have hwatches := h Sample.inputs ⟨20, none⟩ [] rfl (by unfold Polls; decide)
  have hmem := hwatches.mem_iff 6
  revert hmem
  decide

end Machine

end Dote
