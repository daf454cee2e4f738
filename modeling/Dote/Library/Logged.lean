import Mathlib.Logic.Basic
import Mathlib.Tactic.Common

/-! Partial computations that log what they touch. A property of all that is
logged is put together from the parts of the computation. -/
namespace Dote.Library

variable {ε α β : Type}

structure Logged (ε α : Type) where
  trace : List ε
  result : Option α

namespace Logged

def pure (a : α) : Logged ε α := ⟨[], some a⟩

def bind (x : Logged ε α) (f : α → Logged ε β) : Logged ε β :=
  match x.result with
  | none => ⟨x.trace, none⟩
  | some a => ⟨x.trace ++ (f a).trace, (f a).result⟩

instance : Monad (Logged ε) where
  pure := pure
  bind := bind

/-- One entry of the log, and what the computation goes on with. -/
def log (e : ε) (result : Option α) : Logged ε α := ⟨[e], result⟩

def lift (result : Option α) : Logged ε α := ⟨[], result⟩

@[simp] theorem result_lift (result : Option α) : (lift result : Logged ε α).result = result := rfl

@[simp] theorem trace_lift (result : Option α) : (lift result : Logged ε α).trace = [] := rfl

@[simp] theorem result_log (e : ε) (result : Option α) : (log e result).result = result := rfl

@[simp] theorem trace_log (e : ε) (result : Option α) : (log e result).trace = [e] := rfl

@[simp] theorem result_pure (a : α) : (Pure.pure a : Logged ε α).result = some a := rfl

@[simp] theorem trace_pure (a : α) : (Pure.pure a : Logged ε α).trace = [] := rfl

@[simp] theorem result_bind (x : Logged ε α) (f : α → Logged ε β) :
    (x >>= f).result = x.result.bind fun a => (f a).result := by
  change (x.bind f).result = _
  unfold bind
  cases x.result with
  | none => rfl
  | some a => rfl

theorem result_ite (c : Prop) [Decidable c] (x y : Logged ε α) :
    (if c then x else y).result = if c then x.result else y.result := by
  split
  next => rfl
  next => rfl

theorem bind_of_some {x : Logged ε α} {a : α} (h : x.result = some a) (f : α → Logged ε β) :
    x >>= f = ⟨x.trace ++ (f a).trace, (f a).result⟩ := by
  change x.bind f = _
  unfold bind
  rw [h]

theorem bind_log (e : ε) (a : α) (f : α → Logged ε β) :
    log e (some a) >>= f = ⟨e :: (f a).trace, (f a).result⟩ := rfl

theorem bind_lift (a : α) (f : α → Logged ε β) : lift (some a) >>= f = f a := rfl

theorem mem_bind_left {e : ε} {x : Logged ε α} (h : e ∈ x.trace) (f : α → Logged ε β) :
    e ∈ (x >>= f).trace := by
  change e ∈ (x.bind f).trace
  unfold bind
  cases x.result with
  | none => exact h
  | some a => exact List.mem_append_left _ h

theorem mem_bind_right {e : ε} {x : Logged ε α} {f : α → Logged ε β} {a : α}
    (hx : x.result = some a) (h : e ∈ (f a).trace) : e ∈ (x >>= f).trace := by
  rw [bind_of_some hx]
  exact List.mem_append_right _ h

/-- All that is logged has the property `P`, and so has the result with `Q`. -/
def Within (P : ε → Prop) (x : Logged ε α) (Q : α → Prop) : Prop :=
  (∀ e ∈ x.trace, P e) ∧ ∀ a, x.result = some a → Q a

variable {P : ε → Prop} {Q : α → Prop} {R : β → Prop}

theorem within_pure {a : α} (h : Q a) : Within P (Pure.pure a) Q := by
  constructor
  · simp
  · intro a' ha'
    cases ha'
    exact h

theorem within_log {e : ε} {result : Option α} (he : P e) (h : ∀ a, result = some a → Q a) :
    Within P (log e result) Q := by
  constructor
  · simpa using he
  · exact h

theorem Within.bind {x : Logged ε α} {f : α → Logged ε β} (hx : Within P x Q)
    (hf : ∀ a, Q a → Within P (f a) R) : Within P (x >>= f) R := by
  change Within P (x.bind f) R
  unfold Logged.bind
  cases h : x.result with
  | none => exact ⟨hx.1, fun _ h => by simp at h⟩
  | some a =>
    have ha := hf a (hx.2 a h)
    refine ⟨?_, ha.2⟩
    intro e he
    cases List.mem_append.mp he with
    | inl he => exact hx.1 e he
    | inr he => exact ha.1 e he

theorem Within.result {x : Logged ε α} (hx : Within P x Q) :
    Within P x fun a => x.result = some a ∧ Q a := ⟨hx.1, fun a ha => ⟨ha, hx.2 a ha⟩⟩

theorem Within.mono {Q' : α → Prop} {x : Logged ε α} (hx : Within P x Q)
    (h : ∀ a, Q a → Q' a) : Within P x Q' := ⟨hx.1, fun a ha => h a (hx.2 a ha)⟩

/-- All that is logged has the property, and there is a result, which is `a`. -/
def Gives (P : ε → Prop) (x : Logged ε α) (a : α) : Prop :=
  (∀ e ∈ x.trace, P e) ∧ x.result = some a

theorem gives_pure (a : α) : Gives P (Pure.pure a) a := by
  constructor
  · simp
  · rfl

theorem gives_log {e : ε} (he : P e) (a : α) : Gives P (log e (some a)) a := by
  constructor
  · simpa using he
  · rfl

theorem Gives.bind {x : Logged ε α} {f : α → Logged ε β} {a : α} {b : β} (hx : Gives P x a)
    (hf : Gives P (f a) b) : Gives P (x >>= f) b := by
  rw [bind_of_some hx.2]
  refine ⟨?_, hf.2⟩
  intro e he
  cases List.mem_append.mp he with
  | inl he => exact hx.1 e he
  | inr he => exact hf.1 e he

/-- After a part that keeps to the property, it is left to what comes behind it. -/
theorem Gives.forall_bind {x : Logged ε α} {f : α → Logged ε β} {a : α} (hx : Gives P x a) :
    (∀ e ∈ (x >>= f).trace, P e) ↔ ∀ e ∈ (f a).trace, P e := by
  rw [bind_of_some hx.2]
  constructor
  · intro h e he
    exact h e (List.mem_append_right _ he)
  · intro h e he
    cases List.mem_append.mp he with
    | inl he => exact hx.1 e he
    | inr he => exact h e he

/-- All that is logged has the property, and `result` is what comes of it. -/
def Computes (P : ε → Prop) (x : Logged ε α) (result : Option α) : Prop :=
  (∀ e ∈ x.trace, P e) ∧ x.result = result

theorem computes_lift (result : Option α) : Computes P (lift result) result := by
  constructor
  · simp
  · rfl

theorem Gives.bind_computes {x : Logged ε α} {f : α → Logged ε β} {a : α} {result : Option β}
    (hx : Gives P x a) (hf : Computes P (f a) result) : Computes P (x >>= f) result :=
  ⟨hx.forall_bind.mpr hf.1, by rw [bind_of_some hx.2]; exact hf.2⟩

theorem Computes.bind {x : Logged ε α} {f : α → Logged ε β} {result : Option α}
    {g : α → Option β} (hx : Computes P x result) (hf : ∀ a, Computes P (f a) (g a)) :
    Computes P (x >>= f) (result.bind g) := by
  obtain ⟨htrace, rfl⟩ := hx
  cases h : x.result with
  | none =>
    refine ⟨?_, by rw [result_bind, h]; rfl⟩
    change ∀ e ∈ (x.bind f).trace, P e
    unfold Logged.bind
    rw [h]
    exact htrace
  | some a => exact Gives.bind_computes ⟨htrace, h⟩ (hf a)

end Logged

end Dote.Library
