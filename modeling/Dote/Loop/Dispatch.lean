import Dote.Loop.Machine

/-! To which registrations the dispatch pass gives the events of a poll. A handle
that a callback closes can be reused within the pass, for another registration. -/
namespace Dote.Machine
open Library.Run

variable {σ C : Type} (m : Machine σ C)

/-- What the turn calls, if anything, was registered when `poll` was called. -/
def CallsRegistered (polled : Loop C) (s : σ) (turn : Kind × Int) : Prop :=
  ∀ entry, (m.loop s).find turn.1 turn.2 = some entry → polled.find turn.1 turn.2 = some entry

/-- No callback of the pass makes a registration, for a handle and a kind whose
turn is still to come, that is still there at that turn. -/
def NoReuse (s : σ) (turns : List (Kind × Int)) : Prop :=
  ∀ (before : List (Kind × Int)) (turn : Kind × Int) (between : List (Kind × Int))
    (later : Kind × Int) (after : List (Kind × Int)),
    turns = before ++ turn :: (between ++ later :: after) →
    let calling := run m.takeTurn s before
    let called := m.takeTurn calling turn
    ∀ entry, (m.loop calling).find later.1 later.2 ≠ some entry →
      (m.loop called).find later.1 later.2 = some entry →
      (m.loop (run m.takeTurn called between)).find later.1 later.2 ≠ some entry

theorem run_evolves (s : σ) (turns : List (Kind × Int)) :
    (m.loop s).Evolves (m.loop (run m.takeTurn s turns)) := by
  induction turns generalizing s with
  | nil => exact .refl
  | cons turn turns ih => exact (m.takeTurn_evolves s turn).trans (ih (m.takeTurn s turn))

theorem find_of_run {s : σ} {turns : List (Kind × Int)} {kind : Kind} {handle : Int}
    {entry : Entry C} (hpolled : (m.loop s).find kind handle = some entry)
    (hturn : (m.loop (run m.takeTurn s turns)).find kind handle = some entry)
    (before after : List (Kind × Int)) (heq : turns = before ++ after) :
    (m.loop (run m.takeTurn s before)).find kind handle = some entry := by
  have hserial := Loop.find_serial_lt hpolled
  have hevolves := m.run_evolves s before
  rw [heq, run_append] at hturn
  apply (m.run_evolves (run m.takeTurn s before) after).find_of_serial_lt hturn
  exact Nat.lt_of_lt_of_le hserial hevolves.nextSerial_le

/-- The events of a poll go to registrations of before the poll exactly when no
callback of the pass reuses a handle and a kind that is still to be called. -/
theorem dispatch_callsRegistered_iff (s : σ) (fds : List PollFd) :
    Throughout m.takeTurn (m.CallsRegistered (m.loop s)) s (turns fds) ↔
      m.NoReuse s (turns fds) := by
  rw [throughout_iff_forall]
  constructor
  · intro hold before turn between later after heq calling called entry hnew hmade hstays
    have hrun : run m.takeTurn called between =
        run m.takeTurn s (before ++ turn :: between) := by
      rw [run_append, run_cons]
    have hlater := hold (before ++ turn :: between) later after (by rw [heq]; simp)
    rw [hrun] at hstays
    apply hnew
    exact m.find_of_run (hlater entry hstays) hstays before (turn :: between) rfl
  · intro hreuse before later after heq entry hfind
    by_contra hpolled
    obtain ⟨first, turn, between, hbefore, hnew, hmade⟩ :=
      exists_switch (A := fun s => (m.loop s).find later.1 later.2 = some entry) hpolled hfind
    apply hreuse first turn between later after (by rw [heq, hbefore]; simp) entry hnew hmade
    rw [hbefore, run_append, run_cons] at hfind
    exact hfind

namespace Sample

/-- A program that is nothing but its loop. The callback `true` closes its handle
and opens it again for the callback `false`, which does nothing. -/
def reopening : Machine (Loop Bool) Bool where
  loop := id
  call callback handle loop :=
    if callback then
      ((loop.remove .read handle).remove .exception handle).insert .exception handle false 0
    else loop
  call_evolves callback handle loop := by
    cases callback with
    | false => exact .refl
    | true => exact .insert .exception handle false 0 (.remove _ _ (.remove _ _ .refl))

def registered : Loop Bool :=
  (Loop.new.insert .read 5 true 0).insert .exception 5 true 0

def hungUp : List PollFd := [⟨5, POLLIN, POLLIN ||| POLLHUP⟩]

end Sample

/-- The hangup of the closed handle is given to its successor. -/
theorem dispatch_calls_reused :
    ¬ Throughout Sample.reopening.takeTurn
      (Sample.reopening.CallsRegistered (Sample.reopening.loop Sample.registered))
      Sample.registered (turns Sample.hungUp) := by
  intro h
  have hturns : turns Sample.hungUp = [(.read, 5), (.exception, 5)] := by decide
  rw [hturns] at h
  have hlater := h.2.1
  revert hlater
  unfold CallsRegistered
  decide

end Dote.Machine
