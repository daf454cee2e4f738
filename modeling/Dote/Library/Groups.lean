import Mathlib.Data.List.Basic
import Mathlib.Tactic.Common

/-! A list cut in front of each item that is a head: what is in front of the first
one, and each head with the items up to the next. -/
namespace Dote.Library

variable {α β : Type} (head : α → Option β)

def front : List α → List α
  | [] => []
  | a :: items =>
    match head a with
    | some _ => []
    | none => a :: front items

def groups : List α → List (β × List α)
  | [] => []
  | a :: items =>
    match head a with
    | some b => (b, front head items) :: groups items
    | none => groups items

variable {head}

@[simp] theorem front_nil : front head [] = [] := rfl

@[simp] theorem groups_nil : groups head [] = [] := rfl

section Cons

variable {a : α} (items : List α)

theorem front_head {b : β} (h : head a = some b) : front head (a :: items) = [] := by
  simp [front, h]

theorem front_other (h : head a = none) :
    front head (a :: items) = a :: front head items := by
  simp [front, h]

theorem groups_head {b : β} (h : head a = some b) :
    groups head (a :: items) = (b, front head items) :: groups head items := by
  simp [groups, h]

theorem groups_other (h : head a = none) :
    groups head (a :: items) = groups head items := by
  simp [groups, h]

end Cons

theorem front_append_head {a : α} {b : β} (h : head a = some b) (before after : List α) :
    front head (before ++ a :: after) = front head before := by
  induction before with
  | nil => exact front_head after h
  | cons item before ih =>
    rw [List.cons_append]
    cases hitem : head item with
    | some b' => rw [front_head _ hitem, front_head _ hitem]
    | none => rw [front_other _ hitem, front_other _ hitem, ih]

theorem groups_append_head {a : α} {b : β} (h : head a = some b) (before after : List α) :
    groups head (before ++ a :: after) =
      groups head before ++ (b, front head after) :: groups head after := by
  induction before with
  | nil => exact groups_head after h
  | cons item before ih =>
    rw [List.cons_append]
    cases hitem : head item with
    | some b' =>
      rw [groups_head _ hitem, groups_head _ hitem, front_append_head h, ih, List.cons_append]
    | none => rw [groups_other _ hitem, groups_other _ hitem, ih]

end Dote.Library
