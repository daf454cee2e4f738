import Dote.Library.ByteOrder
import Dote.Library.Logged
import Dote.Server.Reload

/-! The stream of inotify events that `VyattaCheck::handleRead` walks over, byte by
byte in a buffer that one read after the other is put into. -/
namespace Dote.VyattaCheck
open Library

/-- `sizeof(struct inotify_event)`: the watch, the mask, the cookie and the length
of the name, of four bytes each. -/
def headerSize : Nat := 16

def nameMax : Nat := 255

/-- `sizeof(buf)`. -/
def bufferSize : Nat := headerSize + nameMax + 1

/-- `CONFIG_FILE` with its NUL. -/
def configFile : Bytes := bytes "config.boot" ++ [0]

/-- Bytes of the buffer that are read, and how many the last `read` has put there. -/
structure Access where
  offset : Nat
  count : Nat
  len : Nat
  deriving DecidableEq, Repr

def slice (buf : Bytes) (offset count : Nat) : Bytes := (buf.drop offset).take count

section
variable {σ : Type} (order : ByteOrder) (reload : σ → Option σ)

/-- `event->len` of the event at `ptr`. -/
def eventLen (buf : Bytes) (len ptr : Nat) : Logged Access Nat :=
  .log ⟨ptr + 12, 4, len⟩ (some (order.value (slice buf (ptr + 12) 4)))

/-- The `memcmp` of the name with `CONFIG_FILE`. -/
def isConfigFile (buf : Bytes) (len ptr : Nat) : Logged Access Bool :=
  .log ⟨ptr + headerSize, configFile.length, len⟩
    (some (slice buf (ptr + headerSize) configFile.length == configFile))

def isChange (buf : Bytes) (len ptr : Nat) : Logged Access Bool := do
  let length ← eventLen order buf len ptr
  if length ≠ 0 then isConfigFile buf len ptr else pure false

def handleEvent (buf : Bytes) (len ptr : Nat) (s : σ) : Logged Access σ := do
  let changed ← isChange order buf len ptr
  if changed then .lift (reload s) else pure s

/-- The loop over the events of one read. The first number bounds its rounds. -/
def handleEvents (buf : Bytes) (len : Nat) : Nat → Nat → σ → Logged Access σ
  | 0, _, _ => .lift none
  | rounds + 1, ptr, s =>
    if ptr < len then do
      let s ← handleEvent order reload buf len ptr s
      let length ← eventLen order buf len ptr
      handleEvents buf len rounds (ptr + (headerSize + length)) s
    else pure s

/-- What `handleRead` does with what it reads, up to the read that gives -1. -/
def handleRead (buf : Bytes) : List Bytes → σ → Logged Access σ
  | [], s => pure s
  | read :: reads, s => do
    let buf := read ++ buf.drop read.length
    let s ← handleEvents order reload buf read.length (read.length + 1) 0 s
    handleRead buf reads s

end

/-- An event of a watched directory. One without a name is about the directory
itself or about the queue. -/
structure Event where
  wd : UInt32
  mask : UInt32
  cookie : UInt32
  name : Bytes
  noNul : 0 ∉ name
  length_le : name.length ≤ nameMax

namespace Event

/-- The length of the name with its NULs, which is a multiple of the header's. -/
def nameLength (e : Event) : Nat :=
  if e.name = [] then 0 else (e.name.length / headerSize + 1) * headerSize

def field (e : Event) : Bytes := e.name ++ List.replicate (e.nameLength - e.name.length) 0

def encode (order : ByteOrder) (e : Event) : Bytes :=
  order.encode 4 e.wd.toNat ++ order.encode 4 e.mask.toNat ++ order.encode 4 e.cookie.toNat ++
    order.encode 4 e.nameLength ++ e.field

theorem nameLength_le (e : Event) : e.nameLength ≤ nameMax + 1 := by
  have h := e.length_le
  unfold nameLength nameMax headerSize at *
  split
  next => omega
  next => omega

theorem length_field (e : Event) : e.field.length = e.nameLength := by
  unfold field nameLength headerSize
  rw [List.length_append, List.length_replicate]
  split
  next h => rw [h]; rfl
  next => omega

theorem length_encode (e : Event) (order : ByteOrder) :
    (e.encode order).length = headerSize + e.nameLength := by
  unfold encode
  simp only [List.length_append, ByteOrder.length_encode, length_field]
  rfl

def isConfig (e : Event) : Bool := e.name == bytes "config.boot"

end Event

theorem slice_append {before part : Bytes} {offset count : Nat} (rest : Bytes)
    (hoffset : before.length = offset) (hcount : part.length = count) :
    slice (before ++ (part ++ rest)) offset count = part := by
  rw [slice, ← hoffset, List.drop_left, ← hcount, List.take_left]

theorem takeWhile_name {name padding : Bytes} (hnul : 0 ∉ name)
    (hpadding : ∀ byte ∈ padding, byte = 0) :
    (name ++ padding).takeWhile (· != 0) = name := by
  rw [List.takeWhile_append_of_pos]
  · have hnone : padding.takeWhile (· != 0) = [] := by
      cases padding with
      | nil => rfl
      | cons byte padding => simp [hpadding byte]
    rw [hnone, List.append_nil]
  · intro byte hbyte
    rw [bne_iff_ne]
    rintro rfl
    exact hnul hbyte

theorem take_eq_configFile {name padding : Bytes} (hnul : 0 ∉ name)
    (hpadding : ∀ byte ∈ padding, byte = 0)
    (hlength : configFile.length ≤ (name ++ padding).length) :
    (name ++ padding).take configFile.length = configFile ↔ name = bytes "config.boot" := by
  constructor
  · intro h
    have hsplit := List.take_append_drop configFile.length (name ++ padding)
    rw [h, configFile, List.append_assoc] at hsplit
    rw [← takeWhile_name hnul hpadding, ← hsplit, List.takeWhile_append_of_pos (by decide +kernel)]
    simp
  · rintro rfl
    cases padding with
    | nil => exact absurd hlength (by decide +kernel)
    | cons byte padding =>
      rw [hpadding byte List.mem_cons_self]
      rfl

section
variable {order : ByteOrder} {buf before rest : Bytes} {e : Event} {len : Nat}

/-- The access is within what the last `read` has put into the buffer. -/
def Access.Delivered (len : Nat) (access : Access) : Prop :=
  access.offset + access.count ≤ access.len ∧ access.len = len

theorem eventLen_gives (hbuf : buf = before ++ (e.encode order ++ rest))
    (hlen : before.length + (e.encode order).length ≤ len) :
    (eventLen order buf len before.length).Gives (Access.Delivered len) e.nameLength := by
  have hvalue : order.value (slice buf (before.length + 12) 4) = e.nameLength := by
    have hslice : slice buf (before.length + 12) 4 = order.encode 4 e.nameLength := by
      have hsplit : buf = (before ++ (order.encode 4 e.wd.toNat ++ order.encode 4 e.mask.toNat ++
          order.encode 4 e.cookie.toNat)) ++
          (order.encode 4 e.nameLength ++ (e.field ++ rest)) := by
        rw [hbuf, Event.encode]
        simp only [List.append_assoc]
      rw [hsplit]
      apply slice_append
      · simp
      · simp
    rw [hslice]
    apply ByteOrder.value_encode
    have hle := e.nameLength_le
    unfold nameMax at hle
    omega
  rw [← hvalue]
  refine Logged.gives_log ⟨?_, rfl⟩ _
  dsimp only
  rw [Event.length_encode, headerSize] at hlen
  omega

theorem isConfigFile_gives (hbuf : buf = before ++ (e.encode order ++ rest))
    (hlen : before.length + (e.encode order).length ≤ len) (hname : e.nameLength ≠ 0) :
    (isConfigFile buf len before.length).Gives (Access.Delivered len) e.isConfig := by
  have hle : configFile.length ≤ e.nameLength := by
    unfold Event.nameLength headerSize at *
    split at hname
    next => contradiction
    next h =>
      rw [if_neg h]
      change 12 ≤ _
      omega
  have hslice : (slice buf (before.length + headerSize) configFile.length == configFile) =
      e.isConfig := by
    have hsplit : buf = (before ++ (order.encode 4 e.wd.toNat ++ order.encode 4 e.mask.toNat ++
        order.encode 4 e.cookie.toNat ++ order.encode 4 e.nameLength)) ++ (e.field ++ rest) := by
      rw [hbuf, Event.encode]
      simp only [List.append_assoc]
    have htake : slice buf (before.length + headerSize) configFile.length =
        e.field.take configFile.length := by
      rw [slice, hsplit, List.drop_left' (by simp [headerSize]),
        List.take_append_of_le_length (by rw [e.length_field]; exact hle)]
    rw [htake, Bool.eq_iff_iff, beq_iff_eq, Event.isConfig, beq_iff_eq]
    refine take_eq_configFile e.noNul ?_ ?_
    · intro byte hbyte
      exact (List.mem_replicate.mp hbyte).2
    · exact hle.trans_eq e.length_field.symm
  rw [← hslice]
  refine Logged.gives_log ⟨?_, rfl⟩ _
  dsimp only
  rw [Event.length_encode] at hlen
  omega

theorem isChange_gives (hbuf : buf = before ++ (e.encode order ++ rest))
    (hlen : before.length + (e.encode order).length ≤ len) :
    (isChange order buf len before.length).Gives (Access.Delivered len) e.isConfig := by
  refine (eventLen_gives hbuf hlen).bind ?_
  split
  next hname => exact isConfigFile_gives hbuf hlen hname
  next hname =>
    have hnone : e.isConfig = false := by
      unfold Event.nameLength headerSize at hname
      split at hname
      next h => rw [Event.isConfig, h]; rfl
      next => omega
    rw [hnone]
    exact Logged.gives_pure false

end

def encode (order : ByteOrder) (events : List Event) : Bytes :=
  events.flatMap fun e => e.encode order

section
variable {σ : Type} {order : ByteOrder} {reload : σ → Option σ}

/-- A reload for every event of the configuration's file, one after the other. -/
def reloads (reload : σ → Option σ) (events : List Event) (s : σ) : Option σ :=
  (events.filter Event.isConfig).foldlM (fun s _ => reload s) s

theorem reloads_cons (e : Event) (events : List Event) (s : σ) :
    reloads reload (e :: events) s =
      (if e.isConfig then reload s else some s).bind (reloads reload events) := by
  unfold reloads
  cases h : e.isConfig with
  | true => rw [List.filter_cons_of_pos h]; rfl
  | false => rw [List.filter_cons_of_neg (by simp [h])]; rfl

theorem reloads_append (events events' : List Event) (s : σ) :
    reloads reload (events ++ events') s =
      (reloads reload events s).bind (reloads reload events') := by
  unfold reloads
  rw [List.filter_append, List.foldlM_append]
  rfl

theorem handleEvents_computes (order : ByteOrder) (reload : σ → Option σ) (events : List Event)
    (before : Bytes) {buf rest : Bytes} {len rounds : Nat}
    (hbuf : buf = before ++ (encode order events ++ rest))
    (hlen : len = before.length + (encode order events).length) (hrounds : events.length < rounds)
    (s : σ) :
    (handleEvents order reload buf len rounds before.length s).Computes (Access.Delivered len)
      (reloads reload events s) := by
  induction events generalizing before rounds s with
  | nil =>
    cases rounds with
    | zero => contradiction
    | succ rounds =>
      rw [handleEvents, if_neg (by simp [hlen, encode])]
      exact Logged.gives_pure s
  | cons e events ih =>
    cases rounds with
    | zero => contradiction
    | succ rounds =>
      have hencode : encode order (e :: events) = e.encode order ++ encode order events := rfl
      rw [hencode, List.append_assoc] at hbuf
      rw [hencode, List.length_append] at hlen
      have hheader := e.length_encode order
      have hwithin : before.length + (e.encode order).length ≤ len := by omega
      rw [handleEvents, if_pos (by rw [headerSize] at hheader; omega), reloads_cons]
      refine Logged.Computes.bind ?_ fun s => (eventLen_gives hbuf hwithin).bind_computes ?_
      · refine (isChange_gives hbuf hwithin).bind_computes ?_
        split
        next => exact Logged.computes_lift (reload s)
        next => exact Logged.gives_pure s
      · have hnext : (before ++ e.encode order).length =
            before.length + (headerSize + e.nameLength) := by rw [List.length_append, hheader]
        rw [← hnext]
        refine ih (before ++ e.encode order) ?_ ?_ (by simpa using hrounds) s
        · rw [hbuf, List.append_assoc]
        · rw [hlen, List.length_append, Nat.add_assoc]

theorem length_le_length_encode (order : ByteOrder) (events : List Event) :
    events.length ≤ (encode order events).length := by
  induction events with
  | nil => rfl
  | cons e events ih =>
    have h := e.length_encode order
    unfold encode headerSize at *
    rw [List.flatMap_cons, List.length_append, List.length_cons]
    omega

theorem handleRead_computes (order : ByteOrder) (reload : σ → Option σ) (buf : Bytes)
    (reads : List (List Event)) (s : σ)
    (hfits : ∀ events ∈ reads, (encode order events).length ≤ bufferSize) :
    (handleRead order reload buf (reads.map (encode order)) s).Computes
      (fun access => access.offset + access.count ≤ access.len ∧ access.len ≤ bufferSize)
      (reloads reload reads.flatten s) := by
  induction reads generalizing buf s with
  | nil => exact Logged.gives_pure s
  | cons events reads ih =>
    rw [List.flatten_cons, reloads_append]
    rw [List.map_cons, handleRead]
    refine Logged.Computes.bind ?_ fun s =>
      ih _ s fun events hevents => hfits events (List.mem_cons_of_mem _ hevents)
    have hsplit : encode order events ++ buf.drop (encode order events).length =
        [] ++ (encode order events ++ buf.drop (encode order events).length) := rfl
    have h := handleEvents_computes order reload events [] hsplit (Nat.zero_add _).symm
      (Nat.lt_succ_of_le (length_le_length_encode order events)) s
    refine ⟨fun access haccess => ?_, h.2⟩
    obtain ⟨hwithin, hlen⟩ := h.1 access haccess
    exact ⟨hwithin, hlen ▸ hfits events List.mem_cons_self⟩

end

section
open Config
variable (libc : Libc) (fuel : Nat) (base : ConfigParser)

/-- A reload from the store as the next change of the file leaves it. -/
def reloadNext : Program × List Vyatta → Option (Program × List Vyatta)
  | (_, []) => none
  | (p, vyatta :: stores) =>
    (p.reloadConfiguration libc vyatta fuel base).map fun p => (p, stores)

variable {libc fuel base}

theorem foldlM_reloadNext {ε : Type} {events : List ε} {stores : List Vyatta}
    (hlength : events.length = stores.length) (p : Program) :
    events.foldlM (fun s _ => reloadNext libc fuel base s) (p, stores) =
      (stores.foldlM (fun (p : Program) vyatta => p.reloadConfiguration libc vyatta fuel base)
        p).map fun p => (p, []) := by
  induction events generalizing stores p with
  | nil =>
    rw [List.length_nil, eq_comm, List.length_eq_zero_iff] at hlength
    rw [hlength]
    rfl
  | cons e events ih =>
    cases stores with
    | nil => contradiction
    | cons vyatta stores =>
      have hrest : events.length = stores.length := Nat.succ.inj hlength
      rw [List.foldlM_cons, List.foldlM_cons, reloadNext]
      cases p.reloadConfiguration libc vyatta fuel base with
      | none => rfl
      | some p => exact ih hrest p

/-- However the events are split into reads and whatever the buffer held before, there
is one reload for each event of the configuration's file, in their order. No byte is
looked at that the last read has not put there. -/
theorem handleRead_eventwise (order : ByteOrder) (buf : Bytes) {reads : List (List Event)}
    {stores : List Vyatta} {configs : List ConfigParser} {env : Env} {p : Program}
    (hfits : ∀ events ∈ reads, (encode order events).length ≤ bufferSize)
    (hstores : reads.flatten.countP Event.isConfig = stores.length)
    (hconfigs : List.Forall₂
      (fun vyatta config => workingConfig libc vyatta fuel base = some config) stores configs)
    (hchecker : p.checker.isSome = true)
    (hreload : env.reload p.world.tick = configs.filterMap Program.reloaded) :
    let run := handleRead order (reloadNext libc fuel base) buf (reads.map (encode order))
      (p.setWorld p.world.ask, stores)
    run.result = some (p.handleRead env, []) ∧
      ∀ access ∈ run.trace, access.offset + access.count ≤ access.len ∧
        access.len ≤ bufferSize := by
  have h := handleRead_computes order (reloadNext libc fuel base) buf reads
    (p.setWorld p.world.ask, stores) hfits
  refine ⟨?_, h.1⟩
  rw [h.2, reloads, foldlM_reloadNext (by rw [← List.countP_eq_length_filter, hstores]),
    Program.handleRead_reloads hconfigs env hchecker hreload]
  rfl

end

namespace Sample
open Config

def named (name : Bytes) (noNul : 0 ∉ name) (length_le : name.length ≤ nameMax) : Event :=
  ⟨1, 8, 0, name, noNul, length_le⟩

def changed : Event := named (bytes "config.boot") (by decide) (by decide)

def other : Event := named (bytes "config.boot.1") (by decide) (by decide)

def overflow : Event := ⟨0xffffffff, 0x4000, 0, [], by decide, by decide⟩

def stores : List Vyatta :=
  [sampleStore none,
    ⟨some fun path => if path = Vyatta.forwarderPath 0 then some (bytes "one.one") else none⟩]

def loaded : List ConfigParser :=
  stores.map fun vyatta => (workingConfig sampleLibc vyatta 2 .new).getD .new

theorem loaded_eq : List.Forall₂
    (fun vyatta config => workingConfig sampleLibc vyatta 2 .new = some config) stores loaded := by
  rw [loaded, List.forall₂_map_right_iff, List.forall₂_same]
  intro vyatta hvyatta
  rcases List.mem_pair.mp hvyatta with rfl | rfl
  · rfl
  · rfl

def reloading : Env :=
  { Program.Sample.env Program.Sample.stuck with
    reload := fun _ => loaded.filterMap Program.reloaded }

end Sample

open Sample Config in
theorem handleRead_eventwise_twice :
    let p := Program.Sample.program Program.Sample.stuck true
    let run := handleRead .big (reloadNext sampleLibc 2 .new) (List.replicate 272 255)
      ([[other, changed], [overflow, changed]].map (encode .big)) (p.setWorld p.world.ask, stores)
    run.result = some (p.handleRead reloading, []) ∧
      ∀ access ∈ run.trace, access.offset + access.count ≤ access.len ∧
        access.len ≤ bufferSize := by
  refine handleRead_eventwise .big _ ?_ ?_ loaded_eq ?_ ?_
  · decide
  · decide
  · decide
  · rfl

end Dote.VyattaCheck
