import Mathlib.Logic.Function.Basic
import Dote.Library.Run

/-! The PID file. Any number of processes construct and destroy `PidFile`s on one
filename; each system call they make is a step, and the steps come in any order. -/
namespace Dote

abbrev FileId := Nat

/-- What the system keeps of the filename. A lock belongs to a process and to
the file; the name can come to refer to another file. -/
structure FileSystem where
  name : Option FileId
  created : Nat
  lock : FileId → Option Int

namespace FileSystem

/-- `open` with `O_CREAT` -/
def openCreate (fs : FileSystem) : FileSystem × FileId :=
  match fs.name with
  | some file => (fs, file)
  | none => (⟨some fs.created, fs.created + 1, fs.lock⟩, fs.created)

def lockable (fs : FileSystem) (pid : Int) (file : FileId) : Bool :=
  fs.lock file = none || fs.lock file = some pid

/-- `lockf` with `F_TLOCK`, granted: the file is locked from its start. -/
def tlock (fs : FileSystem) (pid : Int) (file : FileId) : FileSystem :=
  { fs with lock := Function.update fs.lock file (some pid) }

/-- `close`: the process loses what it has locked of the file, through
whichever descriptor it did so. -/
def close (fs : FileSystem) (pid : Int) (file : FileId) : FileSystem :=
  if fs.lock file = some pid then { fs with lock := Function.update fs.lock file none } else fs

/-- `lockf` with `F_ULOCK`: the section that is given up starts at the offset of
the descriptor, and what is in front of it stays locked. -/
def ulock (fs : FileSystem) (pid : Int) (file : FileId) (offset : Nat) : FileSystem :=
  if offset = 0 then fs.close pid file else fs

def unlink (fs : FileSystem) : FileSystem := { fs with name := none }

/-- Whoever opens the name finds the file, and it is the process' own. -/
def Guards (fs : FileSystem) (pid : Int) (file : FileId) : Prop :=
  fs.name = some file ∧ fs.lock file = some pid

variable {fs : FileSystem} {pid pid' : Int} {file file' : FileId}

theorem Guards.openCreate (h : fs.Guards pid file) : fs.openCreate.1.Guards pid file := by
  unfold FileSystem.openCreate
  rw [h.1]
  exact h

theorem tlock_guards (fs : FileSystem) (h : fs.name = some file) :
    (fs.tlock pid file).Guards pid file := ⟨h, Function.update_self file _ _⟩

theorem Guards.tlock (h : fs.Guards pid file) (hlockable : fs.lockable pid' file' = true) :
    (fs.tlock pid' file').Guards pid file := by
  refine ⟨h.1, ?_⟩
  by_cases hfile : file = file'
  · subst hfile
    have hpid : pid = pid' := by simpa [lockable, h.2] using hlockable
    simp [FileSystem.tlock, hpid]
  · simp [FileSystem.tlock, Function.update_of_ne hfile, h.2]

theorem Guards.close (h : fs.Guards pid file) (hother : pid = pid' → file ≠ file') :
    (fs.close pid' file').Guards pid file := by
  unfold FileSystem.close
  split
  next hlock =>
    refine ⟨h.1, ?_⟩
    have hfile : file ≠ file' := by
      intro hfile
      subst hfile
      exact hother (Option.some.inj (h.2.symm.trans hlock)) rfl
    simp [Function.update_of_ne hfile, h.2]
  next => exact h

theorem not_guards_close (fs : FileSystem) (h : fs.Guards pid file) :
    ¬ (fs.close pid file).Guards pid' file := by
  rw [FileSystem.close, if_pos h.2]
  intro h'
  have hlock : Function.update fs.lock file none file = some pid' := h'.2
  rw [Function.update_self] at hlock
  contradiction

theorem Guards.ulock (h : fs.Guards pid file) {offset : Nat} (hoffset : offset ≠ 0) :
    (fs.ulock pid' file' offset).Guards pid file := by
  rw [FileSystem.ulock, if_neg hoffset]
  exact h

end FileSystem

/-- Where an object is: which system call it makes next, and on which file. -/
inductive Stage where
  | opening
  | locking (handle : FileId)
  -- `lockf` failed
  | refused (handle : FileId)
  | writing (handle : FileId)
  -- `write` fell short
  | shortened (handle : FileId)
  | discarding
  | constructed (handle : Option FileId)
  | unlocking (handle : FileId)
  | closing (handle : FileId)
  | unlinking
  | destroyed
deriving DecidableEq, Repr

/-- The file that the object has locked, until its destructor starts. -/
def Stage.locked : Stage → Option FileId
  | .writing handle => some handle
  | .constructed handle => handle
  | _ => none

structure PidFile where
  pid : Int
  stage : Stage
deriving DecidableEq, Repr

namespace PidFile

def contents (pid : Int) : String := toString pid ++ "\n"

/-- The constructor up to its first system call, if it makes one. -/
def construct (filename : String) (pid : Int) : PidFile :=
  if pid ≠ -1 ∧ filename ≠ "" then ⟨pid, .opening⟩ else ⟨pid, .constructed none⟩

/-- The destructor up to its first system call, if it makes one. -/
def destroy (file : PidFile) : PidFile :=
  match file.stage with
  | .constructed (some handle) => ⟨file.pid, .unlocking handle⟩
  | .constructed none => ⟨file.pid, .destroyed⟩
  | _ => file

def valid (filename : String) (file : PidFile) : Bool :=
  match file.stage with
  | .constructed handle => filename = "" || handle.isSome
  | _ => false

/-- The next system call of the object. It fails when `result` is negative, and
a `write` writes `result` bytes. -/
def call (fs : FileSystem) (file : PidFile) (result : Int) : FileSystem × Stage :=
  match file.stage with
  | .opening =>
    if result < 0 then (fs, .constructed none)
    else (fs.openCreate.1, .locking fs.openCreate.2)
  | .locking handle =>
    if 0 ≤ result ∧ fs.lockable file.pid handle then (fs.tlock file.pid handle, .writing handle)
    else (fs, .refused handle)
  | .refused handle => (fs.close file.pid handle, .constructed none)
  | .writing handle =>
    if result ≠ (contents file.pid).length then (fs, .shortened handle)
    else (fs, .constructed (some handle))
  | .shortened handle => (fs.close file.pid handle, .discarding)
  | .discarding => (if result < 0 then fs else fs.unlink, .constructed none)
  | .unlocking handle =>
    -- the offset is where the constructor's `write` has left it
    (if result < 0 then fs else fs.ulock file.pid handle (contents file.pid).length,
      .closing handle)
  | .closing handle => (fs.close file.pid handle, .unlinking)
  | .unlinking => (if result < 0 then fs else fs.unlink, .destroyed)
  | .constructed handle => (fs, .constructed handle)
  | .destroyed => (fs, .destroyed)

theorem contents_ne_zero (pid : Int) : (contents pid).length ≠ 0 := by
  simp [contents]

@[simp] theorem construct_locked (filename : String) (pid : Int) :
    (construct filename pid).stage.locked = none := by
  unfold construct
  split
  next => rfl
  next => rfl

@[simp] theorem destroy_pid (file : PidFile) : file.destroy.pid = file.pid := by
  unfold destroy
  split
  next => rfl
  next => rfl
  next => rfl

theorem destroy_locked (file : PidFile) {handle : FileId}
    (h : file.destroy.stage.locked = some handle) : file.stage.locked = some handle := by
  unfold destroy at h
  split at h
  next => contradiction
  next => contradiction
  next => exact h

theorem locked_of_valid {filename : String} (hname : filename ≠ "") (file : PidFile)
    (h : file.valid filename = true) : ∃ handle, file.stage.locked = some handle := by
  unfold valid at h
  split at h
  next handle hstage =>
    rw [hstage]
    apply Option.isSome_iff_exists.mp
    change handle.isSome = true
    simpa [hname] using h
  next => contradiction

end PidFile

namespace PidFiles
open Library.Run

structure State where
  fs : FileSystem
  files : List PidFile

/-- Before any process starts: the file may be there or not. -/
def start (there : Bool) : State := ⟨⟨if there then some 0 else none, 1, fun _ => none⟩, []⟩

inductive Event where
  | construct (pid : Int)
  | call (i : Nat) (result : Int)
  | destroy (i : Nat)
deriving DecidableEq, Repr

def step (filename : String) (s : State) : Event → State
  | .construct pid => ⟨s.fs, s.files ++ [PidFile.construct filename pid]⟩
  | .call i result =>
    match s.files[i]? with
    | none => s
    | some file =>
      ⟨(file.call s.fs result).1, s.files.set i ⟨file.pid, (file.call s.fs result).2⟩⟩
  | .destroy i =>
    match s.files[i]? with
    | none => s
    | some file => ⟨s.fs, s.files.set i file.destroy⟩

def Exclusive (filename : String) (s : State) : Prop :=
  ∀ a ∈ s.files, ∀ b ∈ s.files, a.valid filename → b.valid filename → a.pid = b.pid

instance (filename : String) (s : State) : Decidable (Exclusive filename s) :=
  inferInstanceAs (Decidable (∀ a ∈ s.files, ∀ b ∈ s.files, _ → _ → _))

/-- Lock and name stay together at the next call of the object: a lock is got on
the file under the name only, the name is not taken from a file that is locked,
and no `close` costs the process the lock of another of its objects. -/
def Undisturbed (s : State) (file : PidFile) (result : Int) : Prop :=
  match file.stage with
  | .locking handle =>
    0 ≤ result → s.fs.lockable file.pid handle = true → s.fs.name = some handle
  | .refused handle | .shortened handle | .closing handle =>
    ∀ other ∈ s.files, other.pid = file.pid → other.stage.locked ≠ some handle
  | .discarding | .unlinking =>
    0 ≤ result → ∀ other ∈ s.files, s.fs.name = none ∨ other.stage.locked ≠ s.fs.name
  | _ => True

instance (s : State) (result : Int) : ∀ file, Decidable (Undisturbed s file result)
  | ⟨_, .locking _⟩ => inferInstanceAs (Decidable (_ → _ → _))
  | ⟨_, .refused _⟩ | ⟨_, .shortened _⟩ | ⟨_, .closing _⟩ =>
    inferInstanceAs (Decidable (∀ other ∈ s.files, _ → _))
  | ⟨_, .discarding⟩ | ⟨_, .unlinking⟩ => inferInstanceAs (Decidable (_ → ∀ other ∈ s.files, _))
  | ⟨_, .opening⟩ | ⟨_, .writing _⟩ | ⟨_, .constructed _⟩ | ⟨_, .unlocking _⟩
  | ⟨_, .destroyed⟩ => .isTrue trivial

def StepUndisturbed (s : State) : Event → Prop
  | .call i result => ∀ file ∈ s.files[i]?, Undisturbed s file result
  | _ => True

instance (s : State) : ∀ e, Decidable (StepUndisturbed s e)
  | .call i _ => inferInstanceAs (Decidable (∀ file ∈ s.files[i]?, _))
  | .construct _ | .destroy _ => .isTrue trivial

def Guarded (s : State) : Prop :=
  ∀ file ∈ s.files, ∀ handle, file.stage.locked = some handle → s.fs.Guards file.pid handle

theorem guarded_start (there : Bool) : Guarded (start there) := by
  simp [Guarded, start]

variable {s : State} {file other : PidFile} {result : Int} {handle : FileId}

theorem call_guards (hmem : other ∈ s.files) (hlocked : other.stage.locked = some handle)
    (hother : s.fs.Guards other.pid handle) (h : Undisturbed s file result) :
    (file.call s.fs result).1.Guards other.pid handle := by
  unfold PidFile.call
  unfold Undisturbed at h
  cases hstage : file.stage with
  | opening =>
    dsimp only
    split
    next => exact hother
    next => exact hother.openCreate
  | locking handle' =>
    dsimp only
    split
    next hgranted => exact hother.tlock hgranted.2
    next => exact hother
  | refused handle' | shortened handle' | closing handle' =>
    rw [hstage] at h
    apply hother.close
    intro hpid heq
    exact h other hmem hpid (heq ▸ hlocked)
  | discarding | unlinking =>
    rw [hstage] at h
    dsimp only at h ⊢
    split
    next => exact hother
    next hresult =>
      -- the name is the file's, which is locked
      cases h (by omega) other hmem with
      | inl hname => simp [hother.1] at hname
      | inr hname => exact absurd (hlocked.trans hother.1.symm) hname
  | unlocking handle' =>
    dsimp only
    split
    next => exact hother
    next => exact hother.ulock (PidFile.contents_ne_zero file.pid)
  | writing handle' =>
    dsimp only
    split
    next => exact hother
    next => exact hother
  | constructed handle' => exact hother
  | destroyed => exact hother

theorem call_locked
    (hfile : ∀ handle, file.stage.locked = some handle → s.fs.Guards file.pid handle)
    (h : Undisturbed s file result) (hlocked : (file.call s.fs result).2.locked = some handle) :
    (file.call s.fs result).1.Guards file.pid handle := by
  unfold PidFile.call at hlocked ⊢
  unfold Undisturbed at h
  cases hstage : file.stage with
  | locking handle' =>
    rw [hstage] at h hlocked
    dsimp only at h hlocked ⊢
    split at hlocked
    next hgranted =>
      cases hlocked
      rw [if_pos hgranted]
      exact s.fs.tlock_guards (h hgranted.1 hgranted.2)
    next => contradiction
  | writing handle' =>
    rw [hstage] at hlocked hfile
    dsimp only at hlocked ⊢
    split at hlocked
    next => contradiction
    next hwritten =>
      cases hlocked
      rw [if_neg hwritten]
      exact hfile handle rfl
  | constructed handle' =>
    rw [hstage] at hlocked hfile
    exact hfile handle hlocked
  | opening =>
    rw [hstage] at hlocked
    dsimp only at hlocked
    split at hlocked
    next => contradiction
    next => contradiction
  | refused handle' | shortened handle' | closing handle' | discarding | unlinking
  | unlocking handle' | destroyed =>
    rw [hstage] at hlocked
    contradiction

theorem guarded_step (filename : String) (e : Event) (hs : Guarded s) (h : StepUndisturbed s e) :
    Guarded (step filename s e) := by
  cases e with
  | construct pid =>
    intro file hmem handle hlocked
    cases List.mem_append.mp hmem with
    | inl hmem => exact hs file hmem handle hlocked
    | inr hmem =>
      obtain rfl : file = PidFile.construct filename pid := by simpa using hmem
      simp [PidFile.construct_locked] at hlocked
  | call i result =>
    simp only [step]
    cases hi : s.files[i]? with
    | none => exact hs
    | some file =>
      have hmem := List.mem_of_getElem? hi
      have h : Undisturbed s file result := h file hi
      intro other hother handle hlocked
      cases List.mem_or_eq_of_mem_set hother with
      | inl hother => exact call_guards hother hlocked (hs other hother handle hlocked) h
      | inr heq =>
        subst heq
        exact call_locked (hs file hmem) h hlocked
  | destroy i =>
    simp only [step]
    cases hi : s.files[i]? with
    | none => exact hs
    | some file =>
      intro other hother handle hlocked
      cases List.mem_or_eq_of_mem_set hother with
      | inl hother => exact hs other hother handle hlocked
      | inr heq =>
        subst heq
        have hmem := List.mem_of_getElem? hi
        simpa using hs file hmem handle (file.destroy_locked hlocked)

theorem locked_mem_set {i : Nat} (hfile : s.files[i]? = some file)
    (hfree : file.stage.locked = none) (hother : other ∈ s.files)
    (hlocked : other.stage.locked = some handle) (next : PidFile) :
    other ∈ s.files.set i next := by
  obtain ⟨j, hj⟩ := List.mem_iff_getElem?.mp hother
  have hne : i ≠ j := by
    intro hij
    rw [← hij, hfile] at hj
    cases hj
    simp [hfree] at hlocked
  rw [List.mem_iff_getElem?]
  exact ⟨j, by rw [List.getElem?_set_ne hne, hj]⟩

theorem undisturbed_of_guarded {filename : String} {i : Nat} (hs : Guarded s)
    (hfile : s.files[i]? = some file) (hnext : Guarded (step filename s (.call i result))) :
    Undisturbed s file result := by
  simp only [step, hfile] at hnext
  unfold PidFile.call at hnext
  unfold Undisturbed
  cases hstage : file.stage with
  | locking handle =>
    intro hresult hlockable
    rw [hstage] at hnext
    dsimp only at hnext
    rw [if_pos ⟨hresult, hlockable⟩] at hnext
    have hi : i < s.files.length := (List.getElem?_eq_some_iff.mp hfile).1
    exact (hnext ⟨file.pid, .writing handle⟩ (List.mem_set hi _) handle rfl).1
  | refused handle | shortened handle | closing handle =>
    intro other hother hpid hlocked
    rw [hstage] at hnext
    have hmem := locked_mem_set hfile (by rw [hstage]; rfl) hother hlocked
    have hguards := hs other hother handle hlocked
    rw [hpid] at hguards
    exact s.fs.not_guards_close hguards (hnext other (hmem _) handle hlocked)
  | discarding | unlinking =>
    intro hresult other hother
    rw [hstage] at hnext
    dsimp only at hnext
    rw [if_neg (by omega)] at hnext
    rw [or_iff_not_imp_right, not_not]
    intro hlocked
    cases hname : s.fs.name with
    | none => rfl
    | some handle =>
      rw [hname] at hlocked
      have hmem := locked_mem_set hfile (by rw [hstage]; rfl) hother hlocked
      have hguards := hnext other (hmem _) handle hlocked
      simp [FileSystem.unlink, FileSystem.Guards] at hguards
  | opening | writing handle | constructed handle | unlocking handle | destroyed => trivial

theorem guarded_step_iff (filename : String) (e : Event) (hs : Guarded s) :
    Guarded (step filename s e) ↔ StepUndisturbed s e := by
  constructor
  · intro hnext
    cases e with
    | construct pid => trivial
    | destroy i => trivial
    | call i result =>
      intro file hfile
      exact undisturbed_of_guarded hs hfile hnext
  · exact guarded_step filename e hs

/-- The runs that meet the condition at every step are those in which who has the
lock always has it on the file under the name. -/
theorem undisturbed_iff_guarded (filename : String) (there : Bool) (events : List Event) :
    Throughout (step filename) StepUndisturbed (start there) events ↔
      ∀ before, before <+: events → Guarded (run (step filename) (start there) before) := by
  constructor
  · intro h before hbefore
    obtain ⟨after, rfl⟩ := hbefore
    rw [throughout_append] at h
    exact run_invariant (fun _ e => guarded_step filename e) (guarded_start there) h.1
  · intro h
    rw [throughout_iff_forall]
    intro before e after heq
    have hbefore := h before ⟨e :: after, heq.symm⟩
    have hnext := h (before ++ [e]) ⟨after, by simp [heq]⟩
    rw [run_append] at hnext
    exact (guarded_step_iff filename e hbefore).mp hnext

theorem Guarded.exclusive {filename : String} (hname : filename ≠ "") (hs : Guarded s) :
    Exclusive filename s := by
  intro a ha b hb hvalida hvalidb
  obtain ⟨handlea, hlockeda⟩ := a.locked_of_valid hname hvalida
  obtain ⟨handleb, hlockedb⟩ := b.locked_of_valid hname hvalidb
  have hguarda := hs a ha handlea hlockeda
  have hguardb := hs b hb handleb hlockedb
  have hsame : handlea = handleb := Option.some.inj (hguarda.1.symm.trans hguardb.1)
  rw [hsame] at hguarda
  exact Option.some.inj (hguarda.2.symm.trans hguardb.2)

/-- In a run that keeps lock and name together the file excludes, in every
state that is reached. -/
theorem exclusive_of_undisturbed {filename : String} (hname : filename ≠ "") (there : Bool)
    (events : List Event)
    (h : Throughout (step filename) StepUndisturbed (start there) events) (before : List Event)
    (hbefore : before <+: events) :
    Exclusive filename (run (step filename) (start there) before) := by
  apply Guarded.exclusive hname
  exact (undisturbed_iff_guarded filename there events).mp h before hbefore

/-- One process after the other: the second is refused while the first has the
file, and the third gets it once the first is through with its destructor. -/
theorem exclusive_one_after_the_other :
    let events : List Event :=
      [.construct 7, .call 0 3, .call 0 0, .call 0 2,
        .construct 8, .call 1 3, .call 1 0, .call 1 0,
        .destroy 0, .call 0 0, .call 0 0, .call 0 0,
        .construct 9, .call 2 3, .call 2 0, .call 2 2]
    let s := run (step "dote.pid") (start false) events
    Exclusive "dote.pid" s ∧ s.files.map (PidFile.valid "dote.pid") = [false, false, true] := by
  intro events s
  constructor
  · exact exclusive_of_undisturbed (by decide) false events (by decide +kernel) events
      (List.prefix_refl events)
  · decide +kernel

/-- The second process opens and locks the file when the first has closed it
and not yet removed the name; the third then gets a file of its own. -/
theorem not_exclusive_between_close_and_unlink :
    ¬ ∀ filename : String, filename ≠ "" → ∀ there events,
      Exclusive filename (run (step filename) (start there) events) := by
  intro h
  have hrun := h "dote.pid" (by decide) false
    [.construct 7, .call 0 3, .call 0 0, .call 0 2, .destroy 0, .call 0 0, .call 0 0,
      .construct 8, .call 1 3, .call 1 0, .call 1 2, .call 0 0,
      .construct 9, .call 2 3, .call 2 0, .call 2 2]
  revert hrun
  decide +kernel

end PidFiles

end Dote
