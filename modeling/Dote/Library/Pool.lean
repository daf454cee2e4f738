import Mathlib.Data.Finset.Card
import Mathlib.Tactic.Common

/-! Jobs before a number of slots. They wait in one line, leave it in the order in
which they came as soon as a slot is free, and have one answer each at most. -/
namespace Dote.Library

/-- The number of a job is its place in `jobs`. The first `taken` of them have left
the line. -/
@[ext] structure Pool (J : Type) where
  slots : Nat
  jobs : List J
  taken : Nat
  running : Finset Nat
  answered : Finset Nat
  taken_le : taken ≤ jobs.length
  running_lt : ∀ id ∈ running, id < taken
  answered_lt : ∀ id ∈ answered, id < taken
  fits : running.card ≤ slots

namespace Pool

variable {J A : Type}

/-- `refuse` is a job that leaves the line and gets no slot. -/
inductive Label (J A : Type) where
  | arrive (id : Nat) (job : J)
  | take (id : Nat)
  | refuse (id : Nat)
  | answer (id : Nat) (content : A)
  | finish (id : Nat)
deriving DecidableEq, Repr

def Label.id : Label J A → Nat
  | .arrive id _ => id
  | .take id => id
  | .refuse id => id
  | .answer id _ => id
  | .finish id => id

def Label.answered : Label J A → Option (Nat × A)
  | .answer id content => some (id, content)
  | _ => none

def empty (slots : Nat) : Pool J where
  slots := slots
  jobs := []
  taken := 0
  running := ∅
  answered := ∅
  taken_le := Nat.le_refl _
  running_lt := by simp
  answered_lt := by simp
  fits := by simp

def waiting (p : Pool J) : List J := p.jobs.drop p.taken

def Settled (p : Pool J) : Prop := p.taken = p.jobs.length ∨ p.running.card = p.slots

instance (p : Pool J) : Decidable p.Settled := inferInstanceAs (Decidable (_ ∨ _))

theorem lt_of_not_settled {p : Pool J} (h : ¬ p.Settled) :
    p.taken < p.jobs.length ∧ p.running.card < p.slots := by
  rw [Settled, not_or] at h
  exact ⟨Nat.lt_of_le_of_ne p.taken_le h.1, Nat.lt_of_le_of_ne p.fits h.2⟩

/-- While a slot is free for a job that waits, the front of the line is next. -/
def step (p : Pool J) : Label J A → Option (Pool J)
  | .arrive id job =>
    if p.Settled ∧ id = p.jobs.length then
      some { p with
        jobs := p.jobs ++ [job]
        taken_le := p.taken_le.trans (by simp) }
    else none
  | .take id =>
    if h : ¬ p.Settled ∧ id = p.taken then
      some { p with
        taken := p.taken + 1
        running := insert id p.running
        taken_le := (lt_of_not_settled h.1).1
        running_lt := by
          intro other hmem
          rcases Finset.mem_insert.mp hmem with rfl | hold
          · omega
          · exact Nat.lt_succ_of_lt (p.running_lt other hold)
        answered_lt := fun other hmem => Nat.lt_succ_of_lt (p.answered_lt other hmem)
        fits := (Finset.card_insert_le _ _).trans (lt_of_not_settled h.1).2 }
    else none
  | .refuse id =>
    if h : ¬ p.Settled ∧ id = p.taken then
      some { p with
        taken := p.taken + 1
        taken_le := (lt_of_not_settled h.1).1
        running_lt := fun other hmem => Nat.lt_succ_of_lt (p.running_lt other hmem)
        answered_lt := fun other hmem => Nat.lt_succ_of_lt (p.answered_lt other hmem) }
    else none
  | .answer id _ =>
    if h : p.Settled ∧ id ∈ p.running ∧ id ∉ p.answered then
      some { p with
        answered := insert id p.answered
        answered_lt := by
          intro other hmem
          rcases Finset.mem_insert.mp hmem with rfl | hold
          · exact p.running_lt other h.2.1
          · exact p.answered_lt other hold }
    else none
  | .finish id =>
    if p.Settled ∧ id ∈ p.running then
      some { p with
        running := p.running.erase id
        running_lt := fun other hmem => p.running_lt other (Finset.mem_of_mem_erase hmem)
        fits := (Finset.card_erase_le).trans p.fits }
    else none

theorem step_arrive {p p' : Pool J} {id : Nat} {job : J} :
    p.step (.arrive id job : Label J A) = some p' ↔ (p.Settled ∧ id = p.jobs.length) ∧
      p'.slots = p.slots ∧ p'.jobs = p.jobs ++ [job] ∧ p'.taken = p.taken ∧
      p'.running = p.running ∧ p'.answered = p.answered := by
  rw [step, Option.ite_none_right_eq_some, Option.some_inj, eq_comm (b := p'), Pool.ext_iff]

theorem step_take {p p' : Pool J} {id : Nat} :
    p.step (.take id : Label J A) = some p' ↔ (¬ p.Settled ∧ id = p.taken) ∧
      p'.slots = p.slots ∧ p'.jobs = p.jobs ∧ p'.taken = p.taken + 1 ∧
      p'.running = insert id p.running ∧ p'.answered = p.answered := by
  simp only [step, Option.dite_none_right_eq_some, Option.some_inj, eq_comm (b := p'),
    Pool.ext_iff, exists_prop]

theorem step_refuse {p p' : Pool J} {id : Nat} :
    p.step (.refuse id : Label J A) = some p' ↔ (¬ p.Settled ∧ id = p.taken) ∧
      p'.slots = p.slots ∧ p'.jobs = p.jobs ∧ p'.taken = p.taken + 1 ∧
      p'.running = p.running ∧ p'.answered = p.answered := by
  simp only [step, Option.dite_none_right_eq_some, Option.some_inj, eq_comm (b := p'),
    Pool.ext_iff, exists_prop]

theorem step_answer {p p' : Pool J} {id : Nat} {content : A} :
    p.step (.answer id content : Label J A) = some p' ↔
      (p.Settled ∧ id ∈ p.running ∧ id ∉ p.answered) ∧
      p'.slots = p.slots ∧ p'.jobs = p.jobs ∧ p'.taken = p.taken ∧
      p'.running = p.running ∧ p'.answered = insert id p.answered := by
  simp only [step, Option.dite_none_right_eq_some, Option.some_inj, eq_comm (b := p'),
    Pool.ext_iff, exists_prop]

theorem step_finish {p p' : Pool J} {id : Nat} :
    p.step (.finish id : Label J A) = some p' ↔ (p.Settled ∧ id ∈ p.running) ∧
      p'.slots = p.slots ∧ p'.jobs = p.jobs ∧ p'.taken = p.taken ∧
      p'.running = p.running.erase id ∧ p'.answered = p.answered := by
  rw [step, Option.ite_none_right_eq_some, Option.some_inj, eq_comm (b := p'), Pool.ext_iff]

section Enabled

variable {p : Pool J}

theorem exists_arrive (h : p.Settled) (job : J) :
    ∃ p', p.step (.arrive p.jobs.length job : Label J A) = some p' := ⟨_, if_pos ⟨h, rfl⟩⟩

theorem exists_take (h : ¬ p.Settled) : ∃ p', p.step (.take p.taken : Label J A) = some p' :=
  ⟨_, dif_pos ⟨h, rfl⟩⟩

theorem exists_refuse (h : ¬ p.Settled) : ∃ p', p.step (.refuse p.taken : Label J A) = some p' :=
  ⟨_, dif_pos ⟨h, rfl⟩⟩

theorem exists_answer (h : p.Settled) {id : Nat} (hmem : id ∈ p.running) (hfirst : id ∉ p.answered)
    (content : A) : ∃ p', p.step (.answer id content : Label J A) = some p' :=
  ⟨_, dif_pos ⟨h, hmem, hfirst⟩⟩

theorem exists_finish (h : p.Settled) {id : Nat} (hmem : id ∈ p.running) :
    ∃ p', p.step (.finish id : Label J A) = some p' := ⟨_, if_pos ⟨h, hmem⟩⟩

end Enabled

def runs (p : Pool J) : List (Label J A) → Option (Pool J)
  | [] => some p
  | label :: labels => (p.step label).bind (·.runs labels)

theorem runs_append (first second : List (Label J A)) :
    ∀ p : Pool J, p.runs (first ++ second) = (p.runs first).bind (·.runs second) := by
  induction first with
  | nil => exact fun _ => rfl
  | cons label first ih =>
    intro p
    rw [List.cons_append, runs, runs]
    cases p.step label with
    | none => rfl
    | some p' => exact ih p'

theorem runs_trans {p p' p'' : Pool J} {first second : List (Label J A)}
    (h : p.runs first = some p') (h' : p'.runs second = some p'') :
    p.runs (first ++ second) = some p'' := by
  rw [runs_append, h, Option.bind_some, h']

inductive Phase where
  | unknown
  | waiting
  | running
  | answered
  | over
deriving DecidableEq, Repr

def phase (p : Pool J) (id : Nat) : Phase :=
  if p.jobs.length ≤ id then .unknown
  else if p.taken ≤ id then .waiting
  else if id ∉ p.running then .over
  else if id ∈ p.answered then .answered
  else .running

theorem phase_empty (slots id : Nat) : (empty slots : Pool J).phase id = .unknown :=
  if_pos (Nat.zero_le id)

def Phase.next : Phase → Label J A → Option Phase
  | .unknown, .arrive _ _ => some .waiting
  | .waiting, .take _ => some .running
  | .waiting, .refuse _ => some .over
  | .running, .answer _ _ => some .answered
  | .running, .finish _ => some .over
  | .answered, .finish _ => some .over
  | _, _ => none

def Phase.lives (phase : Phase) : List (Label J A) → Option Phase
  | [] => some phase
  | label :: labels => (phase.next label).bind (·.lives labels)

theorem phase_next {p p' : Pool J} {label : Label J A} (h : p.step label = some p') :
    (p.phase label.id).next label = some (p'.phase label.id) := by
  cases label with
  | arrive id job =>
    obtain ⟨⟨-, rfl⟩, -, hjobs, htaken, -⟩ := step_arrive.mp h
    have htaken_le := p.taken_le
    simp [Label.id, phase, Phase.next, hjobs, htaken, htaken_le]
  | take id =>
    obtain ⟨⟨hfree, rfl⟩, -, hjobs, htaken, hrunning, hanswered⟩ := step_take.mp h
    have hwaits := (lt_of_not_settled hfree).1
    have hnew : p.taken ∉ p.answered := fun hmem => Nat.lt_irrefl _ (p.answered_lt _ hmem)
    simp [Label.id, phase, Phase.next, hjobs, htaken, hrunning, hanswered, hwaits.not_ge, hnew]
  | refuse id =>
    obtain ⟨⟨hfree, rfl⟩, -, hjobs, htaken, hrunning, -⟩ := step_refuse.mp h
    have hwaits := (lt_of_not_settled hfree).1
    have hnew : p.taken ∉ p.running := fun hmem => Nat.lt_irrefl _ (p.running_lt _ hmem)
    simp [Label.id, phase, Phase.next, hjobs, htaken, hrunning, hwaits.not_ge, hnew]
  | answer id content =>
    obtain ⟨⟨-, hmem, hfirst⟩, -, hjobs, htaken, hrunning, hanswered⟩ := step_answer.mp h
    have hlt := p.running_lt id hmem
    have hjob := hlt.trans_le p.taken_le
    simp [Label.id, phase, Phase.next, hjobs, htaken, hrunning, hanswered, hlt.not_ge, hjob.not_ge,
      hmem, hfirst]
  | finish id =>
    obtain ⟨⟨-, hmem⟩, -, hjobs, htaken, hrunning, -⟩ := step_finish.mp h
    have hlt := p.running_lt id hmem
    have hjob := hlt.trans_le p.taken_le
    by_cases hanswered : id ∈ p.answered <;>
      simp [Label.id, phase, Phase.next, hjobs, htaken, hrunning, hlt.not_ge, hjob.not_ge, hmem,
        hanswered]

theorem phase_other {p p' : Pool J} {label : Label J A} (h : p.step label = some p') {id : Nat}
    (hother : label.id ≠ id) : p'.phase id = p.phase id := by
  cases label with
  | arrive other job =>
    obtain ⟨⟨-, rfl⟩, -, hjobs, htaken, hrunning, hanswered⟩ := step_arrive.mp h
    have hlength : p'.jobs.length = p.jobs.length + 1 := by rw [hjobs, List.length_append]; rfl
    have hiff : p.jobs.length + 1 ≤ id ↔ p.jobs.length ≤ id := by
      change p.jobs.length ≠ id at hother
      omega
    simp only [phase, hlength, htaken, hrunning, hanswered, hiff]
  | take other =>
    obtain ⟨⟨-, rfl⟩, -, hjobs, htaken, hrunning, hanswered⟩ := step_take.mp h
    change p.taken ≠ id at hother
    have hiff : p.taken + 1 ≤ id ↔ p.taken ≤ id := by omega
    simp only [phase, hjobs, htaken, hrunning, hanswered, hiff, Finset.mem_insert, hother.symm,
      false_or]
  | refuse other =>
    obtain ⟨⟨-, rfl⟩, -, hjobs, htaken, hrunning, hanswered⟩ := step_refuse.mp h
    change p.taken ≠ id at hother
    have hiff : p.taken + 1 ≤ id ↔ p.taken ≤ id := by omega
    simp only [phase, hjobs, htaken, hrunning, hanswered, hiff]
  | answer other content =>
    obtain ⟨-, -, hjobs, htaken, hrunning, hanswered⟩ := step_answer.mp h
    change other ≠ id at hother
    simp only [phase, hjobs, htaken, hrunning, hanswered, Finset.mem_insert, hother.symm, false_or]
  | finish other =>
    obtain ⟨-, -, hjobs, htaken, hrunning, hanswered⟩ := step_finish.mp h
    change other ≠ id at hother
    simp only [phase, hjobs, htaken, hrunning, hanswered, Finset.mem_erase, ne_eq, hother.symm,
      not_false_eq_true, true_and]

theorem runs_lives (id : Nat) (labels : List (Label J A)) : ∀ {p p' : Pool J},
    p.runs labels = some p' →
      (p.phase id).lives (labels.filter (·.id = id)) = some (p'.phase id) := by
  induction labels with
  | nil =>
    intro p p' h
    cases h
    rfl
  | cons label labels ih =>
    intro p p'' h
    obtain ⟨p', hstep, hrest⟩ := Option.bind_eq_some_iff.mp h
    by_cases hid : label.id = id
    · rw [List.filter_cons_of_pos (by simpa using hid), Phase.lives]
      subst hid
      rw [phase_next hstep, Option.bind_some]
      exact ih hrest
    · rw [List.filter_cons_of_neg (by simpa using hid), ← phase_other hstep hid]
      exact ih hrest

end Pool

end Dote.Library
