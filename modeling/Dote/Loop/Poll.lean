import Dote.Loop.Registry

/-! The vector of `pollfd`s. It is kept from one poll to the next: the handles
that are still registered stay where they are, the others are taken out. -/
namespace Dote

abbrev PollEvents := BitVec 16

def POLLIN : PollEvents := 0x001
def POLLOUT : PollEvents := 0x004
def POLLERR : PollEvents := 0x008
def POLLHUP : PollEvents := 0x010
def POLLNVAL : PollEvents := 0x020

structure PollFd where
  fd : Int
  events : PollEvents
  revents : PollEvents
deriving DecidableEq, Repr

def PollEvents.has (events flag : PollEvents) : Bool := events &&& flag != 0

namespace Loop

variable {C : Type}

def markFd (event : PollEvents) (fds : List PollFd) (handle : Int) : List PollFd :=
  if fds.any (·.fd = handle) then
    fds.map fun fd => if fd.fd = handle then { fd with events := fd.events ||| event } else fd
  else fds ++ [⟨handle, event, 0⟩]

def popluateFds (fds : List PollFd) (functions : Functions C) (event : PollEvents) :
    List PollFd :=
  functions.keys.foldl (markFd event) fds

def clearFds (fds : List PollFd) : List PollFd := fds.map fun fd => { fd with events := 0 }

def removeFds (fds : List PollFd) : List PollFd :=
  fds.filterMap fun fd =>
    if fd.events = 0 then none else some { fd with events := fd.events &&& ~~~POLLERR }

def populateFds (loop : Loop C) (fds : List PollFd) : List PollFd :=
  let fds := clearFds fds
  let fds := popluateFds fds loop.readFunctions POLLIN
  let fds := popluateFds fds loop.writeFunctions POLLOUT
  let fds := popluateFds fds loop.exceptFunctions POLLERR
  removeFds fds

def Registered (loop : Loop C) (handle : Int) : Prop :=
  handle ∈ loop.readFunctions ∨ handle ∈ loop.writeFunctions ∨ handle ∈ loop.exceptFunctions

instance (loop : Loop C) (handle : Int) : Decidable (loop.Registered handle) :=
  inferInstanceAs (Decidable (_ ∨ _ ∨ _))

theorem registered_iff (loop : Loop C) (handle : Int) :
    loop.Registered handle ↔ ∃ kind, handle ∈ loop.functions kind := by
  constructor
  · rintro (h | h | h)
    · exact ⟨.read, h⟩
    · exact ⟨.write, h⟩
    · exact ⟨.exception, h⟩
  · rintro ⟨kind, h⟩
    cases kind with
    | read => exact .inl h
    | write => exact .inr (.inl h)
    | exception => exact .inr (.inr h)

/-- The vector watches the registrations of the loop and nothing else. -/
structure Watches (loop : Loop C) (fds : List PollFd) : Prop where
  nodup : (fds.map PollFd.fd).Nodup
  mem_iff : ∀ handle, handle ∈ fds.map PollFd.fd ↔ loop.Registered handle
  read_iff : ∀ fd ∈ fds, fd.events.has POLLIN = true ↔ fd.fd ∈ loop.readFunctions
  write_iff : ∀ fd ∈ fds, fd.events.has POLLOUT = true ↔ fd.fd ∈ loop.writeFunctions

def requested (fds : List PollFd) (handle : Int) : Option PollEvents :=
  (fds.find? (·.fd = handle)).map PollFd.events

@[simp] theorem requested_nil (handle : Int) : requested [] handle = none := rfl

theorem requested_cons (fd : PollFd) (fds : List PollFd) (handle : Int) :
    requested (fd :: fds) handle =
      if fd.fd = handle then some fd.events else requested fds handle := by
  unfold requested
  rw [List.find?_cons]
  split
  next h => simp [of_decide_eq_true h]
  next h => rw [if_neg (of_decide_eq_false h)]

theorem requested_eq_none_iff (fds : List PollFd) (handle : Int) :
    requested fds handle = none ↔ handle ∉ fds.map PollFd.fd := by
  induction fds with
  | nil => simp
  | cons fd fds ih =>
    rw [requested_cons, List.map_cons, List.mem_cons]
    split
    next h => simp [h]
    next h => simp [ih, Ne.symm h]

theorem requested_isSome_iff (fds : List PollFd) (handle : Int) :
    (requested fds handle).isSome ↔ handle ∈ fds.map PollFd.fd := by
  rw [← not_iff_not, ← requested_eq_none_iff, Option.not_isSome_iff_eq_none]

theorem requested_of_mem {fds : List PollFd} (hnodup : (fds.map PollFd.fd).Nodup) {fd : PollFd}
    (hmem : fd ∈ fds) : requested fds fd.fd = some fd.events := by
  induction fds with
  | nil => contradiction
  | cons first fds ih =>
    rw [List.map_cons, List.nodup_cons] at hnodup
    rw [requested_cons]
    cases hmem with
    | head => simp
    | tail _ hmem =>
      rw [if_neg, ih hnodup.2 hmem]
      intro h
      apply hnodup.1
      rw [h]
      exact List.mem_map_of_mem hmem

theorem requested_append_single (fds : List PollFd) (fd : PollFd) (handle : Int) :
    requested (fds ++ [fd]) handle =
      (requested fds handle).or (if fd.fd = handle then some fd.events else none) := by
  induction fds with
  | nil => simp [requested_cons]
  | cons first fds ih =>
    rw [List.cons_append, requested_cons, requested_cons, ih]
    split <;> simp

theorem requested_map (fds : List PollFd) (f : PollFd → PollFd) (hf : ∀ fd, (f fd).fd = fd.fd)
    (handle : Int) :
    requested (fds.map f) handle = (fds.find? (·.fd = handle)).map fun fd => (f fd).events := by
  unfold requested
  simp [List.find?_map, Function.comp_def, hf]

theorem map_fd_map (fds : List PollFd) (f : PollFd → PollFd) (hf : ∀ fd, (f fd).fd = fd.fd) :
    (fds.map f).map PollFd.fd = fds.map PollFd.fd := by
  simp [hf]

theorem any_fd_iff (fds : List PollFd) (handle : Int) :
    (fds.any (·.fd = handle)) = true ↔ handle ∈ fds.map PollFd.fd := by
  simp

theorem markFd_nodup (event : PollEvents) {fds : List PollFd} (handle : Int)
    (h : (fds.map PollFd.fd).Nodup) : ((markFd event fds handle).map PollFd.fd).Nodup := by
  unfold markFd
  split
  next =>
    rw [map_fd_map _ _ (fun fd => by split <;> rfl)]
    exact h
  next hnew =>
    rw [any_fd_iff] at hnew
    rw [List.map_append, List.nodup_append]
    refine ⟨h, by simp, ?_⟩
    intro k hk k' hk' heq
    simp only [List.map_cons, List.map_nil, List.mem_singleton] at hk'
    exact hnew (hk' ▸ heq ▸ hk)

theorem requested_markFd (event : PollEvents) (fds : List PollFd) (handle k : Int) :
    requested (markFd event fds handle) k =
      if k = handle then some ((requested fds k).getD 0 ||| event) else requested fds k := by
  unfold markFd
  split
  next hmem =>
    rw [requested_map _ _ (fun fd => by split <;> rfl)]
    rw [any_fd_iff, ← requested_isSome_iff] at hmem
    unfold requested at hmem ⊢
    cases hfind : fds.find? (·.fd = k) with
    | none =>
      split
      next hk =>
        rw [← hk, hfind] at hmem
        contradiction
      next => rfl
    | some fd =>
      have hfd : fd.fd = k := by simpa using List.find?_some hfind
      simp only [Option.map_some, Option.getD_some, hfd]
      split <;> rfl
  next hnew =>
    rw [any_fd_iff, ← requested_eq_none_iff] at hnew
    rw [requested_append_single]
    by_cases hk : k = handle
    · simp [hk, hnew]
    · simp [hk, Ne.symm hk]

theorem popluateFds_nodup (functions : Functions C) (event : PollEvents) {fds : List PollFd}
    (h : (fds.map PollFd.fd).Nodup) :
    ((popluateFds fds functions event).map PollFd.fd).Nodup := by
  unfold popluateFds
  induction functions.keys generalizing fds with
  | nil => exact h
  | cons handle handles ih => exact ih (markFd_nodup event handle h)

theorem requested_popluateFds (fds : List PollFd) (functions : Functions C) (event : PollEvents)
    (handle : Int) :
    requested (popluateFds fds functions event) handle =
      if handle ∈ functions then some ((requested fds handle).getD 0 ||| event)
      else requested fds handle := by
  unfold popluateFds
  simp only [← Std.TreeMap.mem_keys (t := functions)]
  induction functions.keys generalizing fds with
  | nil => simp
  | cons k handles ih =>
    rw [List.foldl_cons, ih, requested_markFd]
    by_cases hk : handle = k
    · simp [hk, BitVec.or_assoc]
    · simp [hk]

theorem clearFds_nodup {fds : List PollFd} (h : (fds.map PollFd.fd).Nodup) :
    ((clearFds fds).map PollFd.fd).Nodup := by
  unfold clearFds
  rw [map_fd_map]
  · exact h
  · exact fun _ => rfl

theorem requested_clearFds (fds : List PollFd) (handle : Int) :
    (requested (clearFds fds) handle).getD 0 = 0 ∧
      ∀ events, requested (clearFds fds) handle = some events → events = 0 := by
  unfold clearFds
  rw [requested_map fds _ (fun fd => by rfl)]
  cases fds.find? (·.fd = handle) with
  | none => simp
  | some fd => simp

theorem removeFds_sublist (fds : List PollFd) :
    ((removeFds fds).map PollFd.fd).Sublist (fds.map PollFd.fd) := by
  unfold removeFds
  induction fds with
  | nil => simp
  | cons fd fds ih =>
    rw [List.filterMap_cons]
    split
    next => exact ih.cons _
    next fd' h =>
      split at h
      next => contradiction
      next =>
        cases h
        exact ih.cons_cons _

theorem requested_removeFds {fds : List PollFd} (hnodup : (fds.map PollFd.fd).Nodup)
    (handle : Int) :
    requested (removeFds fds) handle = (requested fds handle).bind fun events =>
      if events = 0 then none else some (events &&& ~~~POLLERR) := by
  induction fds with
  | nil => rfl
  | cons fd fds ih =>
    rw [List.map_cons, List.nodup_cons] at hnodup
    have htail := ih hnodup.2
    have hcons : removeFds (fd :: fds) = if fd.events = 0 then removeFds fds else
        { fd with events := fd.events &&& ~~~POLLERR } :: removeFds fds := by
      unfold removeFds
      rw [List.filterMap_cons]
      split <;> simp_all
    rw [hcons, requested_cons fd]
    by_cases hfd : fd.fd = handle
    · have hgone : requested fds handle = none := by
        rw [requested_eq_none_iff, ← hfd]
        exact hnodup.1
      rw [hgone] at htail
      rw [if_pos hfd, Option.bind_some]
      split
      next => exact htail
      next => rw [requested_cons, if_pos hfd]
    · rw [if_neg hfd, ← htail]
      split
      next => rfl
      next => rw [requested_cons, if_neg hfd]

def flagOf (functions : Functions C) (event : PollEvents) (handle : Int) : PollEvents :=
  if handle ∈ functions then event else 0

theorem requested_populateFds (loop : Loop C) {fds : List PollFd}
    (hnodup : (fds.map PollFd.fd).Nodup) (handle : Int) :
    requested (loop.populateFds fds) handle =
      if loop.Registered handle then
        some (flagOf loop.readFunctions POLLIN handle ||| flagOf loop.writeFunctions POLLOUT handle)
      else none := by
  have hcleared := requested_clearFds fds handle
  unfold populateFds
  rw [requested_removeFds (popluateFds_nodup _ _ (popluateFds_nodup _ _ (popluateFds_nodup _ _
    (clearFds_nodup hnodup))))]
  simp only [requested_popluateFds, Registered, flagOf]
  by_cases hread : handle ∈ loop.readFunctions <;>
    by_cases hwrite : handle ∈ loop.writeFunctions <;>
      by_cases hexcept : handle ∈ loop.exceptFunctions
  all_goals simp only [hread, hwrite, hexcept, if_true, if_false, Option.getD_some, hcleared.1,
    Option.bind_some, or_true, or_false, or_self]
  all_goals try rfl
  cases hrequested : requested (clearFds fds) handle with
  | none => rfl
  | some events => simp [hcleared.2 events hrequested]

theorem populateFds_nodup (loop : Loop C) {fds : List PollFd}
    (hnodup : (fds.map PollFd.fd).Nodup) : ((loop.populateFds fds).map PollFd.fd).Nodup :=
  (popluateFds_nodup _ _ (popluateFds_nodup _ _ (popluateFds_nodup _ _
    (clearFds_nodup hnodup)))).sublist (removeFds_sublist _)

theorem populateFds_events (loop : Loop C) {fds : List PollFd}
    (hnodup : (fds.map PollFd.fd).Nodup) {fd : PollFd} (hfd : fd ∈ loop.populateFds fds) :
    fd.events =
      (flagOf loop.readFunctions POLLIN fd.fd ||| flagOf loop.writeFunctions POLLOUT fd.fd) := by
  have hrequested := requested_of_mem (loop.populateFds_nodup hnodup) hfd
  rw [requested_populateFds loop hnodup] at hrequested
  split at hrequested
  next => exact (Option.some.inj hrequested).symm
  next => contradiction

theorem populateFds_watches (loop : Loop C) {fds : List PollFd}
    (hnodup : (fds.map PollFd.fd).Nodup) : loop.Watches (loop.populateFds fds) := by
  constructor
  · exact loop.populateFds_nodup hnodup
  · intro handle
    rw [← requested_isSome_iff, requested_populateFds loop hnodup]
    split
    next h => simp [h]
    next h => simp [h]
  · intro fd hfd
    rw [loop.populateFds_events hnodup hfd]
    unfold flagOf
    split <;> split <;> simp [PollEvents.has, POLLIN, POLLOUT, *]
  · intro fd hfd
    rw [loop.populateFds_events hnodup hfd]
    unfold flagOf
    split <;> split <;> simp [PollEvents.has, POLLIN, POLLOUT, *]

theorem populateFds_no_error (loop : Loop C) {fds : List PollFd}
    (hnodup : (fds.map PollFd.fd).Nodup) {fd : PollFd} (hfd : fd ∈ loop.populateFds fds) :
    fd.events.has POLLERR = false := by
  rw [loop.populateFds_events hnodup hfd]
  unfold flagOf
  split <;> split <;> rfl

theorem mem_map_iff_requested {fds : List PollFd} (hnodup : (fds.map PollFd.fd).Nodup)
    (handle : Int) (events : PollEvents) :
    (handle, events) ∈ (fds.map fun fd => (fd.fd, fd.events)) ↔
      requested fds handle = some events := by
  rw [List.mem_map]
  constructor
  · intro h
    obtain ⟨fd, hfd, heq⟩ := h
    cases heq
    exact requested_of_mem hnodup hfd
  · intro h
    unfold requested at h
    obtain ⟨fd, hfind, hevents⟩ := Option.map_eq_some_iff.mp h
    have hfd : fd.fd = handle := by simpa using List.find?_some hfind
    exact ⟨fd, List.mem_of_find?_eq_some hfind, by rw [hfd, hevents]⟩

theorem perm_of_requested {fds fds' : List PollFd} (hnodup : (fds.map PollFd.fd).Nodup)
    (hnodup' : (fds'.map PollFd.fd).Nodup)
    (h : ∀ handle, requested fds handle = requested fds' handle) :
    (fds.map fun fd => (fd.fd, fd.events)).Perm (fds'.map fun fd => (fd.fd, fd.events)) := by
  have hpairs : ∀ {fds : List PollFd}, (fds.map PollFd.fd).Nodup →
      (fds.map fun fd => (fd.fd, fd.events)).Nodup := by
    intro fds hnodup
    apply List.Nodup.of_map Prod.fst
    rw [List.map_map]
    exact hnodup
  rw [List.perm_ext_iff_of_nodup (hpairs hnodup) (hpairs hnodup')]
  intro pair
  rw [mem_map_iff_requested hnodup, mem_map_iff_requested hnodup', h]

/-- What is kept from the last round makes no difference, up to the order: the
vector is the one that an empty vector is populated to. -/
theorem populateFds_rebuilds (loop : Loop C) {fds : List PollFd}
    (hnodup : (fds.map PollFd.fd).Nodup) :
    ((loop.populateFds fds).map PollFd.fd).Nodup ∧
      (∀ handle, handle ∈ (loop.populateFds fds).map PollFd.fd ↔ loop.Registered handle) ∧
      (∀ fd ∈ loop.populateFds fds,
        (fd.events.has POLLIN = true ↔ fd.fd ∈ loop.readFunctions) ∧
        (fd.events.has POLLOUT = true ↔ fd.fd ∈ loop.writeFunctions) ∧
        fd.events.has POLLERR = false) ∧
      ((loop.populateFds fds).map fun fd => (fd.fd, fd.events)).Perm
        ((loop.populateFds []).map fun fd => (fd.fd, fd.events)) := by
  have hwatches := loop.populateFds_watches hnodup
  have hempty : (([] : List PollFd).map PollFd.fd).Nodup := List.nodup_nil
  refine ⟨hwatches.nodup, hwatches.mem_iff, ?_, ?_⟩
  · intro fd hfd
    exact ⟨hwatches.read_iff fd hfd, hwatches.write_iff fd hfd,
      loop.populateFds_no_error hnodup hfd⟩
  · apply perm_of_requested hwatches.nodup (loop.populateFds_nodup hempty)
    intro handle
    rw [requested_populateFds loop hnodup, requested_populateFds loop hempty]

/-- The handle 9 was watched for an exception and is gone; 4 was to be read and
is now only to be written, and 6 has all three registrations. -/
theorem populateFds_rebuilds_leftover :
    let loop := ((((Loop.new.registerWrite 4 () 10).2.registerRead 6 () 10).2.registerWrite 6 ()
      10).2.registerException 6 ()).2
    let fds := [⟨9, POLLERR, POLLERR⟩, ⟨4, POLLIN, POLLIN ||| POLLHUP⟩]
    ((loop.populateFds fds).map fun fd => (fd.fd, fd.events)).Perm
      [(6, POLLIN ||| POLLOUT), (4, POLLOUT)] := by
  intro loop fds
  have hnodup : (fds.map PollFd.fd).Nodup := by decide
  apply (populateFds_rebuilds loop hnodup).2.2.2.trans
  decide +kernel

end Loop

end Dote
