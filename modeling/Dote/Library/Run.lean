import Mathlib.Logic.Basic
import Mathlib.Tactic.Common

/-! Runs of a deterministic machine: what holds at every step of a run, and how
two machines that read the same events are compared. -/
namespace Dote.Library.Run

variable {σ τ ε ω : Type}

def run (step : σ → ε → σ) (s : σ) (events : List ε) : σ := events.foldl step s

@[simp] theorem run_nil (step : σ → ε → σ) (s : σ) : run step s [] = s := rfl

@[simp] theorem run_cons (step : σ → ε → σ) (s : σ) (e : ε) (events : List ε) :
    run step s (e :: events) = run step (step s e) events := rfl

theorem run_append (step : σ → ε → σ) (s : σ) (first second : List ε) :
    run step s (first ++ second) = run step (run step s first) second :=
  List.foldl_append

/-- `P` holds at every step of the run, of the state before the event. -/
def Throughout (step : σ → ε → σ) (P : σ → ε → Prop) : σ → List ε → Prop
  | _, [] => True
  | s, e :: events => P s e ∧ Throughout step P (step s e) events

variable {step : σ → ε → σ} {P Q : σ → ε → Prop}

instance [∀ s e, Decidable (P s e)] : ∀ s events, Decidable (Throughout step P s events)
  | _, [] => .isTrue trivial
  | s, e :: events =>
    have := instDecidableThroughout (step s e) events
    inferInstanceAs (Decidable (P s e ∧ Throughout step P (step s e) events))

theorem throughout_append (s : σ) (first second : List ε) :
    Throughout step P s (first ++ second) ↔
      Throughout step P s first ∧ Throughout step P (run step s first) second := by
  induction first generalizing s with
  | nil => simp [Throughout]
  | cons e first ih => simp [Throughout, ih, and_assoc]

theorem throughout_iff_forall (s : σ) (events : List ε) :
    Throughout step P s events ↔
      ∀ before e after, events = before ++ e :: after → P (run step s before) e := by
  induction events generalizing s with
  | nil => simp [Throughout]
  | cons first events ih =>
    simp only [Throughout, ih]
    constructor
    · intro h before e after heq
      cases before with
      | nil =>
        cases heq
        exact h.1
      | cons first' before =>
        cases heq
        exact h.2 before e after rfl
    · intro h
      constructor
      · exact h [] first events rfl
      · intro before e after heq
        apply h (first :: before) e after
        rw [heq, List.cons_append]

/-- What comes to hold in a run is made to hold by one of its steps. -/
theorem exists_switch {A : σ → Prop} {s : σ} {events : List ε} (hstart : ¬ A s)
    (hend : A (run step s events)) : ∃ before e after, events = before ++ e :: after ∧
      ¬ A (run step s before) ∧ A (step (run step s before) e) := by
  induction events generalizing s with
  | nil => contradiction
  | cons first events ih =>
    by_cases hfirst : A (step s first)
    · exact ⟨[], first, events, rfl, hstart, hfirst⟩
    · obtain ⟨before, e, after, heq, hbefore, hafter⟩ := ih hfirst hend
      exact ⟨first :: before, e, after, by rw [heq, List.cons_append], hbefore, hafter⟩

theorem run_invariant {I : σ → Prop} (keep : ∀ s e, I s → P s e → I (step s e)) {s : σ}
    {events : List ε} (hI : I s) (hP : Throughout step P s events) : I (run step s events) := by
  induction events generalizing s with
  | nil => exact hI
  | cons e events ih => exact ih (keep s e hI hP.1) hP.2

theorem throughout_of_invariant {I : σ → Prop} (keep : ∀ s e, I s → P s e → I (step s e))
    (himplies : ∀ s e, I s → P s e → Q s e) {s : σ} {events : List ε} (hI : I s)
    (hP : Throughout step P s events) : Throughout step Q s events := by
  induction events generalizing s with
  | nil => trivial
  | cons e events ih => exact ⟨himplies s e hI hP.1, ih (keep s e hI hP.1) hP.2⟩

theorem run_preserves {I : σ → Prop} (keep : ∀ s e, I s → I (step s e)) {s : σ} (hI : I s)
    (events : List ε) : I (run step s events) := by
  induction events generalizing s with
  | nil => exact hI
  | cons e events ih => exact ih (keep s e hI)

def trace (step : σ → ε → σ) (out : σ → ε → List ω) : σ → List ε → List ω
  | _, [] => []
  | s, e :: events => out s e ++ trace step out (step s e) events

theorem trace_of_events (out : ε → List ω) (s : σ) (events : List ε) :
    trace step (fun _ e => out e) s events = events.flatMap out := by
  induction events generalizing s with
  | nil => rfl
  | cons e events ih => rw [trace, ih, List.flatMap_cons]

theorem trace_append (out : σ → ε → List ω) (s : σ) (first second : List ε) :
    trace step out s (first ++ second) =
      trace step out s first ++ trace step out (run step s first) second := by
  induction first generalizing s with
  | nil => rfl
  | cons e first ih => rw [List.cons_append, trace, ih, trace, List.append_assoc, run_cons]

theorem exists_of_mem_trace {out : σ → ε → List ω} {s : σ} {events : List ε} {x : ω}
    (h : x ∈ trace step out s events) : ∃ before e after, events = before ++ e :: after ∧
      x ∈ out (run step s before) e := by
  induction events generalizing s with
  | nil => contradiction
  | cons first events ih =>
    rw [trace, List.mem_append] at h
    cases h with
    | inl hfirst => exact ⟨[], first, events, rfl, hfirst⟩
    | inr hrest =>
      obtain ⟨before, e, after, heq, hmem⟩ := ih hrest
      exact ⟨first :: before, e, after, by rw [heq, List.cons_append], hmem⟩

/-- An invariant of the state together with what was put out so far. -/
theorem run_traces {I : σ → List ω → Prop} {out : σ → ε → List ω}
    (keep : ∀ s past e, I s past → I (step s e) (past ++ out s e)) {s : σ} {past : List ω}
    (hI : I s past) (events : List ε) :
    I (run step s events) (past ++ trace step out s events) := by
  induction events generalizing s past with
  | nil => simpa [trace] using hI
  | cons e events ih =>
    rw [trace, ← List.append_assoc]
    exact ih (keep s past e hI)

/-- A list that each step adds its output to has that of the run at its end. -/
theorem run_gathers {I : σ → Prop} {out : σ → ε → List ω} (gathered : σ → List ω)
    (keep : ∀ s e, I s → I (step s e))
    (gather : ∀ s e, I s → gathered (step s e) = gathered s ++ out s e) {s : σ} (hI : I s)
    (events : List ε) : gathered (run step s events) = gathered s ++ trace step out s events := by
  refine (run_traces (I := fun s' past => I s' ∧ gathered s' = past) ?_ ⟨hI, rfl⟩ events).2
  intro s' past e h
  exact ⟨keep s' e h.1, by rw [gather s' e h.1, h.2]⟩

/-- Under an invariant that one of the two properties keeps up, they hold
throughout the same runs. -/
theorem throughout_iff {I : σ → Prop} (hiff : ∀ s e, I s → (P s e ↔ Q s e))
    (keep : ∀ s e, I s → P s e → I (step s e)) {s : σ} {events : List ε} (hI : I s) :
    Throughout step P s events ↔ Throughout step Q s events := by
  induction events generalizing s with
  | nil => exact Iff.rfl
  | cons e events ih =>
    constructor
    · exact fun h => ⟨(hiff s e hI).mp h.1, (ih (keep s e hI h.1)).mp h.2⟩
    · intro h
      have hP := (hiff s e hI).mpr h.1
      exact ⟨hP, (ih (keep s e hI hP)).mpr h.2⟩

/-- A run gets done when the measure never grows and each counted event takes
from it, for as long as the run is not done. -/
theorem run_done {counts : ε → Bool} {measure : σ → Nat} {I : σ → Prop} (Done : σ → Prop)
    (keep : ∀ s e, I s → I (step s e)) (stay : ∀ s e, I s → Done s → Done (step s e))
    (less : ∀ s e, I s → ¬ Done s → Done (step s e) ∨
      measure (step s e) + (if counts e then 1 else 0) ≤ measure s)
    {s : σ} {events : List ε} (hI : I s) (hlong : measure s < events.countP counts) :
    Done (run step s events) := by
  have hdone : ∀ (events : List ε) {s : σ}, I s → Done s → Done (run step s events) := by
    intro events
    induction events with
    | nil => exact fun _ h => h
    | cons e events ih => exact fun hI h => ih (keep _ e hI) (stay _ e hI h)
  induction events generalizing s with
  | nil => simp at hlong
  | cons e events ih =>
    rw [List.countP_cons] at hlong
    by_cases hs : Done s
    · exact hdone events (keep s e hI) (stay s e hI hs)
    · cases less s e hI hs with
      | inl h => exact hdone events (keep s e hI) h
      | inr h => exact ih (keep s e hI) (by omega)

/-- Two machines whose states stay related, `R` being indexed by the events
still to come, agree on what holds throughout. -/
theorem throughout_congr {step' : τ → ε → τ} {Q : τ → ε → Prop} {R : σ → τ → List ε → Prop}
    (hnext : ∀ s t e events, R s t (e :: events) → R (step s e) (step' t e) events)
    (hiff : ∀ s t e events, R s t (e :: events) → (P s e ↔ Q t e))
    {s : σ} {t : τ} {events : List ε} (h : R s t events) :
    Throughout step P s events ↔ Throughout step' Q t events := by
  induction events generalizing s t with
  | nil => exact Iff.rfl
  | cons e events ih => exact and_congr (hiff s t e events h) (ih (hnext s t e events h))

theorem run_map {f : σ → τ} {step' : τ → ε → τ} (hstep : ∀ s e, f (step s e) = step' (f s) e)
    (s : σ) (events : List ε) : f (run step s events) = run step' (f s) events := by
  induction events generalizing s with
  | nil => rfl
  | cons e events ih => rw [run_cons, run_cons, ih, hstep]

theorem trace_map {ω' : Type} {f : σ → τ} {g : ω → ω'} {step' : τ → ε → τ} {out : σ → ε → List ω}
    {out' : τ → ε → List ω'} (hstep : ∀ s e, f (step s e) = step' (f s) e)
    (hout : ∀ s e, (out s e).map g = out' (f s) e) (s : σ) (events : List ε) :
    (trace step out s events).map g = trace step' out' (f s) events := by
  induction events generalizing s with
  | nil => rfl
  | cons e events ih => rw [trace, trace, List.map_append, ih, hout, hstep]

end Dote.Library.Run
