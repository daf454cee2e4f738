import Dote.Library.Run

/-! The user ids of a process under Linux, and the system calls that change them. To change
them at will a process needs `CAP_SETUID`, which it has as long as its effective id is 0. -/
namespace Dote.Library

structure UserIds where
  real : Nat
  effective : Nat
  saved : Nat
  deriving DecidableEq, Repr

namespace UserIds

/-- An id of -1, which leaves an id as it is, is `none`. -/
inductive Call where
  | setuid (uid : Nat)
  | setreuid (real effective : Option Nat)
  | setresuid (real effective saved : Option Nat)

def Privileged (ids : UserIds) : Prop := ids.effective = 0

instance (ids : UserIds) : Decidable ids.Privileged := inferInstanceAs (Decidable (_ = _))

def Has (ids : UserIds) (uid : Nat) : Prop :=
  uid = ids.real ∨ uid = ids.effective ∨ uid = ids.saved

instance (ids : UserIds) (uid : Nat) : Decidable (ids.Has uid) :=
  inferInstanceAs (Decidable (_ ∨ _ ∨ _))

def setuid (ids : UserIds) (uid : Nat) : Option UserIds :=
  if ids.Privileged then some ⟨uid, uid, uid⟩
  else if uid = ids.real ∨ uid = ids.saved then some { ids with effective := uid }
  else none

/-- The saved id follows when the real one is set, or the effective one is set to another
than the real one was. -/
def setreuid (ids : UserIds) (real effective : Option Nat) : Option UserIds :=
  if ids.Privileged ∨ ((∀ uid ∈ real, uid = ids.real ∨ uid = ids.effective) ∧
      ∀ uid ∈ effective, ids.Has uid) then
    some {
      real := real.getD ids.real
      effective := effective.getD ids.effective
      saved :=
        if real.isSome ∨ (effective.isSome ∧ effective ≠ some ids.real) then
          effective.getD ids.effective
        else ids.saved }
  else none

def setresuid (ids : UserIds) (real effective saved : Option Nat) : Option UserIds :=
  if ids.Privileged ∨ ((∀ uid ∈ real, ids.Has uid) ∧ (∀ uid ∈ effective, ids.Has uid) ∧
      ∀ uid ∈ saved, ids.Has uid) then
    some ⟨real.getD ids.real, effective.getD ids.effective, saved.getD ids.saved⟩
  else none

def step (ids : UserIds) : Call → UserIds
  | .setuid uid => (ids.setuid uid).getD ids
  | .setreuid real effective => (ids.setreuid real effective).getD ids
  | .setresuid real effective saved => (ids.setresuid real effective saved).getD ids

theorem setreuid_both {ids : UserIds} (h : ids.Privileged) (uid : Nat) :
    ids.setreuid (some uid) (some uid) = some ⟨uid, uid, uid⟩ := by
  rw [setreuid, if_pos (.inl h)]
  rfl

structure Plain (ids : UserIds) : Prop where
  real : ids.real ≠ 0
  effective : ids.effective ≠ 0
  saved : ids.saved ≠ 0

variable {ids : UserIds}

theorem Plain.of_has (h : ids.Plain) {uid : Nat} (hhas : ids.Has uid) : uid ≠ 0 := by
  rcases hhas with rfl | rfl | rfl
  · exact h.real
  · exact h.effective
  · exact h.saved

theorem Plain.not_privileged (h : ids.Plain) : ¬ ids.Privileged := h.effective

theorem Plain.getD (h : ids.Plain) {old : Nat} (hold : old ≠ 0) {new : Option Nat}
    (hnew : ∀ uid ∈ new, ids.Has uid) : new.getD old ≠ 0 := by
  cases new with
  | none => exact hold
  | some uid => exact h.of_has (hnew uid rfl)

theorem Plain.step (h : ids.Plain) (call : Call) : (ids.step call).Plain := by
  cases call with
  | setuid uid =>
    change ((ids.setuid uid).getD ids).Plain
    unfold UserIds.setuid
    rw [if_neg h.not_privileged]
    split
    next huid =>
      refine ⟨h.real, h.of_has ?_, h.saved⟩
      exact huid.imp_right .inr
    next => exact h
  | setreuid real effective =>
    change ((ids.setreuid real effective).getD ids).Plain
    unfold UserIds.setreuid
    split
    next hallowed =>
      obtain ⟨hreal, heffective⟩ := hallowed.resolve_left h.not_privileged
      have hreal' : ∀ uid ∈ real, ids.Has uid := fun uid hmem =>
        (hreal uid hmem).imp_right .inl
      have hset := h.getD h.effective heffective
      refine ⟨h.getD h.real hreal', hset, ?_⟩
      dsimp only [Option.getD_some]
      split
      next => exact hset
      next => exact h.saved
    next => exact h
  | setresuid real effective saved =>
    change ((ids.setresuid real effective saved).getD ids).Plain
    unfold UserIds.setresuid
    split
    next hallowed =>
      obtain ⟨hreal, heffective, hsaved⟩ := hallowed.resolve_left h.not_privileged
      exact ⟨h.getD h.real hreal, h.getD h.effective heffective, h.getD h.saved hsaved⟩
    next => exact h

theorem exists_root_iff (ids : UserIds) :
    (∃ calls, (Run.run step ids calls).effective = 0) ↔ ¬ ids.Plain := by
  constructor
  · rintro ⟨calls, hroot⟩ h
    exact (Run.run_preserves (I := Plain) (fun _ call h => h.step call) h calls).effective hroot
  · intro h
    by_cases heffective : ids.effective = 0
    · exact ⟨[], heffective⟩
    · -- one of the two others is 0, and the effective id can be set to it
      have hhas : ids.Has 0 := by
        by_contra hnone
        refine h ⟨?_, heffective, ?_⟩
        · exact fun hzero => hnone (.inl hzero.symm)
        · exact fun hzero => hnone (.inr (.inr hzero.symm))
      refine ⟨[.setresuid none (some 0) none], ?_⟩
      have hallowed : ids.Privileged ∨ ((∀ uid ∈ (none : Option Nat), ids.Has uid) ∧
          (∀ uid ∈ some 0, ids.Has uid) ∧ ∀ uid ∈ (none : Option Nat), ids.Has uid) := by
        refine .inr ⟨fun _ hmem => absurd hmem (by simp), ?_, fun _ hmem => absurd hmem (by simp)⟩
        rintro uid ⟨⟩
        exact hhas
      change ((ids.setresuid none (some 0) none).getD ids).effective = 0
      rw [setresuid, if_pos hallowed]
      rfl

end UserIds

end Dote.Library
