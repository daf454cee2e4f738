import Mathlib.Tactic

/-! The registrations of the event loop. The three maps of `Loop` are one family
indexed by `Kind`; everything outside the loop changes them through `register`
and `remove` only. -/
namespace Dote

/-- `ILoop::Type`, where `Moved` is the absence of a kind. -/
inductive Kind where
  | read
  | write
  | exception
deriving DecidableEq, Repr

/-- `serial` is the place of the registration among all that were ever made. The
program has no such number; it tells a registration from a later one for the
same handle. An exception entry has no deadline, which is 0. -/
structure Entry (C : Type) where
  callback : C
  timeout : Int
  serial : Nat
deriving DecidableEq, Repr

abbrev Functions (C : Type) := Std.TreeMap Int (Entry C) compare

structure Loop (C : Type) where
  functions : Kind → Functions C
  nextSerial : Nat
  serial_lt : ∀ (kind : Kind) (handle : Int) (entry : Entry C),
    (functions kind)[handle]? = some entry → entry.serial < nextSerial

structure Registration where
  handle : Int
  kind : Option Kind
deriving DecidableEq, Repr

namespace Registration

def moved : Registration := ⟨-1, none⟩

def valid (registration : Registration) : Bool := registration.kind.isSome

end Registration

namespace Loop

variable {C : Type}

def new : Loop C := ⟨fun _ => ∅, 0, by simp⟩

def readFunctions (loop : Loop C) : Functions C := loop.functions .read
def writeFunctions (loop : Loop C) : Functions C := loop.functions .write
def exceptFunctions (loop : Loop C) : Functions C := loop.functions .exception

def find (loop : Loop C) (kind : Kind) (handle : Int) : Option (Entry C) :=
  (loop.functions kind)[handle]?

def insert (loop : Loop C) (kind : Kind) (handle : Int) (callback : C) (timeout : Int) :
    Loop C where
  functions other :=
    if other = kind then
      (loop.functions kind).insert handle ⟨callback, timeout, loop.nextSerial⟩
    else loop.functions other
  nextSerial := loop.nextSerial + 1
  serial_lt other k entry h := by
    split at h
    next =>
      rw [Std.TreeMap.getElem?_insert] at h
      split at h
      next =>
        cases h
        exact Nat.lt_succ_self _
      next => exact Nat.lt_succ_of_lt (loop.serial_lt kind k entry h)
    next => exact Nat.lt_succ_of_lt (loop.serial_lt other k entry h)

def remove (loop : Loop C) (kind : Kind) (handle : Int) : Loop C where
  functions other :=
    if other = kind then (loop.functions kind).erase handle else loop.functions other
  nextSerial := loop.nextSerial
  serial_lt other k entry h := by
    split at h
    next =>
      rw [Std.TreeMap.getElem?_erase] at h
      split at h
      next => contradiction
      next => exact loop.serial_lt kind k entry h
    next => exact loop.serial_lt other k entry h

def register (loop : Loop C) (kind : Kind) (handle : Int) (callback : C) (timeout : Int) :
    Registration × Loop C :=
  if handle ∈ loop.functions kind then (.moved, loop)
  else (⟨handle, some kind⟩, loop.insert kind handle callback timeout)

def registerRead (loop : Loop C) (handle : Int) (callback : C) (timeout : Int) :
    Registration × Loop C :=
  loop.register .read handle callback timeout

def registerWrite (loop : Loop C) (handle : Int) (callback : C) (timeout : Int) :
    Registration × Loop C :=
  loop.register .write handle callback timeout

def registerException (loop : Loop C) (handle : Int) (callback : C) : Registration × Loop C :=
  loop.register .exception handle callback 0

def reset (loop : Loop C) (registration : Registration) : Registration × Loop C :=
  match registration.kind with
  | none => (registration, loop)
  | some kind => ({ registration with kind := none }, loop.remove kind registration.handle)

/-- The move assignment of a temporary: the two are swapped, and the destructor
of the temporary resets what the registration was before. -/
def assign (loop : Loop C) (registration temporary : Registration) : Registration × Loop C :=
  (temporary, (loop.reset registration).2)

theorem find_insert (loop : Loop C) (kind other : Kind) (handle k : Int) (callback : C)
    (timeout : Int) : (loop.insert kind handle callback timeout).find other k =
      if other = kind ∧ k = handle then some ⟨callback, timeout, loop.nextSerial⟩
      else loop.find other k := by
  unfold find insert
  by_cases hkind : other = kind
  · cases hkind
    by_cases hhandle : k = handle
    · simp [hhandle]
    · simp [Std.TreeMap.getElem?_insert, hhandle, Ne.symm hhandle]
  · simp [hkind]

theorem find_remove (loop : Loop C) (kind other : Kind) (handle k : Int) :
    (loop.remove kind handle).find other k =
      if other = kind ∧ k = handle then none else loop.find other k := by
  unfold find remove
  by_cases hkind : other = kind
  · cases hkind
    by_cases hhandle : k = handle
    · simp [hhandle]
    · simp [Std.TreeMap.getElem?_erase, hhandle, Ne.symm hhandle]
  · simp [hkind]

@[simp] theorem nextSerial_insert (loop : Loop C) (kind : Kind) (handle : Int) (callback : C)
    (timeout : Int) :
    (loop.insert kind handle callback timeout).nextSerial = loop.nextSerial + 1 := rfl

theorem mem_functions_iff (loop : Loop C) (kind : Kind) (handle : Int) :
    handle ∈ loop.functions kind ↔ (loop.find kind handle).isSome := by
  rw [find, Std.TreeMap.mem_iff_isSome_getElem?]

theorem mem_insert_iff (loop : Loop C) (kind other : Kind) (handle k : Int) (callback : C)
    (timeout : Int) : k ∈ (loop.insert kind handle callback timeout).functions other ↔
      (other = kind ∧ k = handle) ∨ k ∈ loop.functions other := by
  rw [mem_functions_iff, mem_functions_iff, find_insert]
  split
  next h => simp [h]
  next h => simp [h]

theorem mem_remove_iff (loop : Loop C) (kind other : Kind) (handle k : Int) :
    k ∈ (loop.remove kind handle).functions other ↔
      ¬ (other = kind ∧ k = handle) ∧ k ∈ loop.functions other := by
  rw [mem_functions_iff, mem_functions_iff, find_remove]
  split
  next h => simp [h]
  next h => simp [h]

theorem mem_toList {loop : Loop C} {kind : Kind} {handle : Int} {entry : Entry C} :
    (handle, entry) ∈ (loop.functions kind).toList ↔ loop.find kind handle = some entry := by
  rw [Std.TreeMap.mem_toList_iff_getElem?_eq_some]
  rfl

theorem find_serial_lt {loop : Loop C} {kind : Kind} {handle : Int} {entry : Entry C}
    (h : loop.find kind handle = some entry) : entry.serial < loop.nextSerial :=
  loop.serial_lt kind handle entry h

/-- What a callback can make of the loop: registrations and removals in any
order and number. -/
inductive Evolves (loop : Loop C) : Loop C → Prop where
  | refl : Evolves loop loop
  | insert {loop' : Loop C} (kind : Kind) (handle : Int) (callback : C) (timeout : Int) :
      Evolves loop loop' → Evolves loop (loop'.insert kind handle callback timeout)
  | remove {loop' : Loop C} (kind : Kind) (handle : Int) :
      Evolves loop loop' → Evolves loop (loop'.remove kind handle)

theorem Evolves.trans {first second third : Loop C} (h : first.Evolves second)
    (h' : second.Evolves third) : first.Evolves third := by
  induction h' with
  | refl => exact h
  | insert kind handle callback timeout _ ih => exact ih.insert kind handle callback timeout
  | remove kind handle _ ih => exact ih.remove kind handle

theorem evolves_register (loop : Loop C) (kind : Kind) (handle : Int) (callback : C)
    (timeout : Int) : loop.Evolves (loop.register kind handle callback timeout).2 := by
  unfold register
  split
  next => exact .refl
  next => exact .insert kind handle callback timeout .refl

theorem evolves_reset (loop : Loop C) (registration : Registration) :
    loop.Evolves (loop.reset registration).2 := by
  unfold reset
  split
  next => exact .refl
  next kind _ => exact .remove kind registration.handle .refl

theorem Evolves.nextSerial_le {loop loop' : Loop C} (h : loop.Evolves loop') :
    loop.nextSerial ≤ loop'.nextSerial := by
  induction h with
  | refl => exact Nat.le_refl _
  | insert kind handle callback timeout _ ih =>
    rw [nextSerial_insert]
    omega
  | remove kind handle _ ih => exact ih

/-- A registration of before is still the one that it was, or it is gone: what
is found with an old serial was found before. -/
theorem Evolves.find_of_serial_lt {loop loop' : Loop C} (h : loop.Evolves loop') {kind : Kind}
    {handle : Int} {entry : Entry C} (hfind : loop'.find kind handle = some entry)
    (hserial : entry.serial < loop.nextSerial) : loop.find kind handle = some entry := by
  induction h with
  | refl => exact hfind
  | @insert middle other k callback timeout hmiddle ih =>
    rw [find_insert] at hfind
    split at hfind
    next =>
      have hle := hmiddle.nextSerial_le
      cases hfind
      dsimp at hserial
      omega
    next => exact ih hfind
  | remove other k _ ih =>
    rw [find_remove] at hfind
    split at hfind
    next => contradiction
    next => exact ih hfind

end Loop

end Dote
