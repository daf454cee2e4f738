import Dote.Library.Run
import Dote.Loop.Registry

/-! The `Registration` objects of one loop, and what becomes of its maps when they
are made, moved, reset and destroyed. -/
namespace Dote
open Library.Run

/-- An operation on the objects, which have numbers for names. `construct` is one of
the calls that register. -/
inductive Operation (C : Type) where
  | default (id : Nat)
  | construct (id : Nat) (kind : Kind) (handle : Int) (callback : C) (timeout : Int)
  | moveConstruct (id other : Nat)
  | moveAssign (id other : Nat)
  | reset (id : Nat)
  | destroy (id : Nat)

structure Registrations (C : Type) where
  loop : Loop C
  objects : Nat → Option Registration

namespace Loop

variable {C : Type}

/-- `registerRead`, `registerWrite` and `registerException`. -/
def registerKind (loop : Loop C) (kind : Kind) (handle : Int) (callback : C) (timeout : Int) :
    Registration × Loop C :=
  match kind with
  | .read => loop.registerRead handle callback timeout
  | .write => loop.registerWrite handle callback timeout
  | .exception => loop.registerException handle callback

theorem registerKind_eq (loop : Loop C) (kind : Kind) (handle : Int) (callback : C)
    (timeout : Int) : ∃ timeout', loop.registerKind kind handle callback timeout =
      loop.register kind handle callback timeout' := by
  cases kind with
  | read => exact ⟨timeout, rfl⟩
  | write => exact ⟨timeout, rfl⟩
  | exception => exact ⟨0, rfl⟩

end Loop

namespace Registrations

variable {C : Type}

def start : Registrations C := ⟨.new, fun _ => none⟩

def put (s : Registrations C) (id : Nat) (registration : Registration) : Registrations C :=
  { s with objects := Function.update s.objects id (some registration) }

def reset (s : Registrations C) (id : Nat) (registration : Registration) : Registrations C :=
  let (registration, loop) := s.loop.reset registration
  { s with loop := loop }.put id registration

/-- An object is made where there is none, and the others are done to objects that
live. -/
def step (s : Registrations C) : Operation C → Registrations C
  | .default id => if s.objects id = none then s.put id .moved else s
  | .construct id kind handle callback timeout =>
    if s.objects id = none then
      let (registration, loop) := s.loop.registerKind kind handle callback timeout
      { s with loop := loop }.put id registration
    else s
  | .moveConstruct id other =>
    match s.objects id, s.objects other with
    | none, some registration =>
      (s.put id registration).put other { registration with kind := none }
    | _, _ => s
  | .moveAssign id other =>
    match s.objects id, s.objects other with
    | some registration, some registration' => (s.put id registration').put other registration
    | _, _ => s
  | .reset id =>
    match s.objects id with
    | some registration => s.reset id registration
    | none => s
  | .destroy id =>
    match s.objects id with
    | some registration =>
      let s := s.reset id registration
      { s with objects := Function.update s.objects id none }
    | none => s

def Holds (s : Registrations C) (id : Nat) (kind : Kind) (handle : Int) : Prop :=
  s.objects id = some ⟨handle, some kind⟩

/-- Each entry of a map has its object, and each valid object its entry. -/
structure OneToOne (s : Registrations C) : Prop where
  mem_iff : ∀ kind handle, handle ∈ s.loop.functions kind ↔ ∃ id, s.Holds id kind handle
  unique : ∀ kind handle id id', s.Holds id kind handle → s.Holds id' kind handle → id = id'

theorem oneToOne_start : (start : Registrations C).OneToOne where
  mem_iff kind handle := by simp [start, Loop.new, Holds]
  unique kind handle id id' h := by simp [start, Holds] at h

@[simp] theorem put_loop (s : Registrations C) (id : Nat) (registration : Registration) :
    (s.put id registration).loop = s.loop := rfl

theorem holds_put {s : Registrations C} {id k : Nat} {registration : Registration} {kind : Kind}
    {handle : Int} : (s.put id registration).Holds k kind handle ↔
      if k = id then registration = ⟨handle, some kind⟩ else s.Holds k kind handle := by
  unfold Holds put
  by_cases h : k = id
  · simp [h]
  · simp [h]

variable {s s' : Registrations C}

theorem OneToOne.rename (h : s.OneToOne) (names : Equiv.Perm Nat) (hloop : s'.loop = s.loop)
    (hholds : ∀ id kind handle, s'.Holds id kind handle ↔ s.Holds (names id) kind handle) :
    s'.OneToOne where
  mem_iff kind handle := by
    rw [hloop, h.mem_iff]
    constructor
    · rintro ⟨id, hid⟩
      refine ⟨names.symm id, ?_⟩
      rw [hholds, names.apply_symm_apply]
      exact hid
    · rintro ⟨id, hid⟩
      exact ⟨names id, (hholds id kind handle).mp hid⟩
  unique kind handle id id' hid hid' := by
    rw [hholds] at hid hid'
    exact names.injective (h.unique kind handle _ _ hid hid')

theorem OneToOne.insert (h : s.OneToOne) {id : Nat} {kind : Kind} {handle : Int} {callback : C}
    {timeout : Int} (hid : ∀ kind handle, ¬ s.Holds id kind handle)
    (hnew : handle ∉ s.loop.functions kind)
    (hloop : s'.loop = s.loop.insert kind handle callback timeout)
    (hholds : ∀ k other handle', s'.Holds k other handle' ↔
      if k = id then kind = other ∧ handle = handle' else s.Holds k other handle') :
    s'.OneToOne where
  mem_iff other handle' := by
    rw [hloop, Loop.mem_insert_iff, h.mem_iff]
    constructor
    · rintro (⟨rfl, rfl⟩ | ⟨k, hk⟩)
      · exact ⟨id, by simp [hholds]⟩
      · have hne : k ≠ id := by
          rintro rfl
          exact hid _ _ hk
        exact ⟨k, by rwa [hholds, if_neg hne]⟩
    · rintro ⟨k, hk⟩
      rw [hholds] at hk
      split at hk
      next => exact .inl ⟨hk.1.symm, hk.2.symm⟩
      next => exact .inr ⟨k, hk⟩
  unique other handle' k k' hk hk' := by
    have hother : ∀ k, ¬ s.Holds k kind handle := fun k hk =>
      hnew ((h.mem_iff kind handle).mpr ⟨k, hk⟩)
    rw [hholds] at hk hk'
    split at hk
    next heq =>
      obtain ⟨rfl, rfl⟩ := hk
      split at hk'
      next heq' => rw [heq, heq']
      next => exact absurd hk' (hother k')
    next =>
      split at hk'
      next =>
        obtain ⟨rfl, rfl⟩ := hk'
        exact absurd hk (hother k)
      next => exact h.unique other handle' k k' hk hk'

theorem OneToOne.remove (h : s.OneToOne) {id : Nat} {kind : Kind} {handle : Int}
    (hid : s.Holds id kind handle) (hloop : s'.loop = s.loop.remove kind handle)
    (hholds : ∀ k other handle', s'.Holds k other handle' ↔ k ≠ id ∧ s.Holds k other handle') :
    s'.OneToOne where
  mem_iff other handle' := by
    rw [hloop, Loop.mem_remove_iff, h.mem_iff]
    constructor
    · rintro ⟨hne, k, hk⟩
      refine ⟨k, (hholds k other handle').mpr ⟨?_, hk⟩⟩
      rintro rfl
      unfold Holds at hk hid
      rw [hid] at hk
      cases hk
      exact hne ⟨rfl, rfl⟩
    · rintro ⟨k, hk⟩
      rw [hholds] at hk
      refine ⟨?_, k, hk.2⟩
      rintro ⟨rfl, rfl⟩
      exact hk.1 (h.unique _ _ k id hk.2 hid)
  unique other handle' k k' hk hk' :=
    h.unique other handle' k k' ((hholds _ _ _).mp hk).2 ((hholds _ _ _).mp hk').2

theorem not_holds_of_none {id : Nat} (h : s.objects id = none) (kind : Kind) (handle : Int) :
    ¬ s.Holds id kind handle := by
  intro hid
  rw [Holds, h] at hid
  contradiction

theorem not_holds_of_moved {id : Nat} {registration : Registration}
    (h : s.objects id = some registration) (hmoved : registration.kind = none) (kind : Kind)
    (handle : Int) : ¬ s.Holds id kind handle := by
  intro hid
  rw [Holds, h] at hid
  cases hid
  contradiction

theorem holds_put_moved {id k : Nat} {registration : Registration} {kind : Kind} {handle : Int}
    (hid : ∀ kind handle, ¬ s.Holds id kind handle) (hmoved : registration.kind = none) :
    (s.put id registration).Holds k kind handle ↔ s.Holds k kind handle := by
  rw [holds_put]
  split
  next hk =>
    subst hk
    constructor
    · intro heq
      rw [heq] at hmoved
      contradiction
    · exact fun hk => absurd hk (hid kind handle)
  next => rfl

theorem OneToOne.default (h : s.OneToOne) (id : Nat) : (s.step (.default id)).OneToOne := by
  rw [step.eq_def]
  dsimp only
  split
  next hnone =>
    exact h.rename (Equiv.refl Nat) rfl fun k kind handle =>
      holds_put_moved (not_holds_of_none hnone) rfl
  next => exact h

theorem OneToOne.construct (h : s.OneToOne) (id : Nat) (kind : Kind) (handle : Int) (callback : C)
    (timeout : Int) : (s.step (.construct id kind handle callback timeout)).OneToOne := by
  rw [step.eq_def]
  dsimp only
  split
  next hnone =>
    obtain ⟨timeout', hregister⟩ := s.loop.registerKind_eq kind handle callback timeout
    rw [hregister, Loop.register]
    split
    next =>
      exact h.rename (Equiv.refl Nat) rfl fun k kind handle =>
        holds_put_moved (s := s) (not_holds_of_none hnone) rfl
    next hnew =>
      refine h.insert (not_holds_of_none hnone) hnew rfl fun k other handle' => ?_
      rw [holds_put]
      simp only [Registration.mk.injEq, Option.some.injEq, and_comm]
      rfl
  next => exact h

theorem OneToOne.moveConstruct (h : s.OneToOne) (id other : Nat) :
    (s.step (.moveConstruct id other)).OneToOne := by
  rw [step.eq_def]
  dsimp only
  split
  next registration hnone hother =>
    have hne : id ≠ other := by
      rintro rfl
      rw [hnone] at hother
      contradiction
    refine h.rename (Equiv.swap id other) rfl fun k kind handle => ?_
    rw [holds_put, holds_put]
    by_cases hk : k = other
    · subst hk
      rw [if_pos rfl, Equiv.swap_apply_right]
      constructor
      · intro heq
        cases heq
      · exact fun hid => absurd hid (not_holds_of_none hnone kind handle)
    · rw [if_neg hk]
      by_cases hk' : k = id
      · subst hk'
        rw [if_pos rfl, Equiv.swap_apply_left, Holds, hother, Option.some.injEq]
      · rw [if_neg hk', Equiv.swap_apply_of_ne_of_ne hk' hk]
  next => exact h

theorem OneToOne.moveAssign (h : s.OneToOne) (id other : Nat) :
    (s.step (.moveAssign id other)).OneToOne := by
  rw [step.eq_def]
  dsimp only
  split
  next registration registration' hid hother =>
    refine h.rename (Equiv.swap id other) rfl fun k kind handle => ?_
    rw [holds_put, holds_put]
    by_cases hk : k = other
    · subst hk
      rw [if_pos rfl, Equiv.swap_apply_right, Holds, hid, Option.some.injEq]
    · rw [if_neg hk]
      by_cases hk' : k = id
      · subst hk'
        rw [if_pos rfl, Equiv.swap_apply_left, Holds, hother, Option.some.injEq]
      · rw [if_neg hk', Equiv.swap_apply_of_ne_of_ne hk' hk]
  next => exact h

theorem holds_reset {id k : Nat} {registration : Registration} {kind : Kind} {handle : Int} :
    (s.reset id registration).Holds k kind handle ↔ k ≠ id ∧ s.Holds k kind handle := by
  have hmoved : (s.loop.reset registration).1.kind = none := by
    unfold Loop.reset
    split
    next hnone => exact hnone
    next => rfl
  unfold reset
  rw [holds_put]
  split
  next hk =>
    constructor
    · intro heq
      rw [heq] at hmoved
      contradiction
    · exact fun h => absurd hk h.1
  next hk =>
    constructor
    · exact fun h => ⟨hk, h⟩
    · exact fun h => h.2

theorem OneToOne.reset (h : s.OneToOne) {id : Nat} {registration : Registration}
    (hid : s.objects id = some registration) : (s.reset id registration).OneToOne := by
  obtain ⟨handle, kind⟩ := registration
  cases kind with
  | none =>
    refine h.rename (Equiv.refl Nat) rfl fun k kind handle' => ?_
    rw [holds_reset]
    constructor
    · exact fun hk => hk.2
    · intro hk
      refine ⟨?_, hk⟩
      rintro rfl
      exact not_holds_of_moved hid rfl kind handle' hk
  | some kind => exact h.remove hid rfl fun k other handle' => holds_reset

theorem OneToOne.destroy (h : s.OneToOne) (id : Nat) : (s.step (.destroy id)).OneToOne := by
  rw [step.eq_def]
  dsimp only
  split
  next registration hid =>
    refine (h.reset hid).rename (Equiv.refl Nat) rfl fun k kind handle => ?_
    rw [Equiv.refl_apply, holds_reset]
    unfold Holds
    by_cases hk : k = id
    · simp [hk]
    · simp [hk, Registrations.reset, put]
  next => exact h

theorem OneToOne.step (h : s.OneToOne) (operation : Operation C) :
    (s.step operation).OneToOne := by
  cases operation with
  | default id => exact h.default id
  | construct id kind handle callback timeout => exact h.construct id kind handle callback timeout
  | moveConstruct id other => exact h.moveConstruct id other
  | moveAssign id other => exact h.moveAssign id other
  | reset id =>
    rw [Registrations.step.eq_def]
    dsimp only
    split
    next registration hid => exact h.reset hid
    next => exact h
  | destroy id => exact h.destroy id

/-- Over every sequence of operations there is an entry for each valid object and for
no other, and what registers finds an entry exactly when an object holds it. -/
theorem registrations_oneToOne (operations : List (Operation C)) :
    (run step start operations).OneToOne ∧
      ∀ kind handle callback timeout,
        (((run step start operations).loop.registerKind kind handle callback timeout).1.valid =
            false ↔ ∃ id, (run step start operations).Holds id kind handle) ∧
        ((∃ id, (run step start operations).Holds id kind handle) →
          ((run step start operations).loop.registerKind kind handle callback timeout).2 =
            (run step start operations).loop) := by
  have hrun : (run step start operations : Registrations C).OneToOne :=
    run_preserves (fun _ operation h => h.step operation) oneToOne_start operations
  refine ⟨hrun, fun kind handle callback timeout => ?_⟩
  obtain ⟨timeout', hregister⟩ :=
    (run step start operations).loop.registerKind_eq kind handle callback timeout
  rw [hregister, Loop.register, ← hrun.mem_iff]
  split
  next h => simp [h, Registration.moved, Registration.valid]
  next h => simp [h, Registration.valid]

/-- The assignment of what a call returns, by the operations that it is made of: the
temporary is swapped with the object, and destroyed. -/
theorem assign_eq {id temporary : Nat} {registration registration' : Registration}
    (hid : s.objects id = some registration) (htemporary : s.objects temporary = some registration')
    (hne : id ≠ temporary) :
    let s' := run Registrations.step s [.moveAssign id temporary, .destroy temporary]
    s'.objects id = some (s.loop.assign registration registration').1 ∧
      s'.loop = (s.loop.assign registration registration').2 ∧ s'.objects temporary = none := by
  simp only [run_cons, run_nil, Registrations.step, hid, htemporary, put, Function.update_self,
    Registrations.reset, Loop.assign]
  simp [hne]

end Registrations

end Dote
