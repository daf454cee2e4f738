import Dote.Library.ByteOrder
import Dote.Library.Logged

/-! Control messages one behind the other in a buffer, as `CMSG_FIRSTHDR` and
`CMSG_NXTHDR` walk over them where a `size_t` has eight bytes. -/
namespace Dote.Library

/-- `padding` is what there is in memory up to the next message. -/
structure ControlMessage where
  level : UInt32
  type : UInt32
  data : List UInt8
  padding : List UInt8
  length_lt : data.length < 2 ^ 32
  padded : 8 ∣ data.length + padding.length
  padding_lt : padding.length < 8

namespace ControlMessage

/-- `sizeof(struct cmsghdr)`: the length with the header, the level and the type. -/
def headerSize : Nat := 16

/-- `CMSG_ALIGN`. -/
def align (length : Nat) : Nat := (length + 7) / 8 * 8

def encode (order : ByteOrder) (m : ControlMessage) : List UInt8 :=
  order.encode 8 (headerSize + m.data.length) ++ order.encode 4 m.level.toNat ++
    order.encode 4 m.type.toNat ++ m.data ++ m.padding

def encodeAll (order : ByteOrder) (messages : List ControlMessage) : List UInt8 :=
  messages.flatMap (encode order)

/-- How far the messages reach without the padding of the last one. -/
def span : List ControlMessage → Nat
  | [] => 0
  | [m] => headerSize + m.data.length
  | m :: next :: messages =>
    headerSize + m.data.length + m.padding.length + span (next :: messages)

structure Access where
  offset : Nat
  count : Nat
  deriving DecidableEq, Repr

def Access.Inside (len : Nat) (access : Access) : Prop := access.offset + access.count ≤ len

instance (len : Nat) (access : Access) : Decidable (access.Inside len) :=
  inferInstanceAs (Decidable (_ ≤ _))

def bytesAt (buf : List UInt8) (offset count : Nat) : Logged Access (List UInt8) :=
  .log ⟨offset, count⟩ (some ((buf.drop offset).take count))

def numberAt (order : ByteOrder) (buf : List UInt8) (offset count : Nat) : Logged Access Nat := do
  let bytes ← bytesAt buf offset count
  pure (order.value bytes)

def hdrAt (controllen it : Nat) : Option Nat :=
  if it + headerSize ≤ controllen then some it else none

/-- `CMSG_NXTHDR`. -/
def nextHdr (order : ByteOrder) (buf : List UInt8) (controllen it : Nat) :
    Logged Access (Option Nat) := do
  let length ← numberAt order buf it 8
  pure (if length < headerSize then none else hdrAt controllen (it + align length))

/-- The loop from `CMSG_FIRSTHDR` on. The first number bounds its rounds. -/
def walk {σ : Type} (order : ByteOrder) (buf : List UInt8) (controllen : Nat)
    (body : Nat → σ → Logged Access σ) : Nat → Option Nat → σ → Logged Access σ
  | 0, _, _ => .lift none
  | _ + 1, none, s => pure s
  | rounds + 1, some it, s => do
    let s ← body it s
    let next ← nextHdr order buf controllen it
    walk order buf controllen body rounds next s

section

variable {order : ByteOrder} {m : ControlMessage} {buf : List UInt8}

theorem length_encode (m : ControlMessage) (order : ByteOrder) :
    (m.encode order).length = headerSize + m.data.length + m.padding.length := by
  unfold encode headerSize
  simp only [List.length_append, ByteOrder.length_encode]

theorem align_length (m : ControlMessage) (order : ByteOrder) :
    align (headerSize + m.data.length) = (m.encode order).length := by
  have hpadded := m.padded
  have hlt := m.padding_lt
  rw [length_encode]
  unfold align headerSize
  omega

theorem bytesAt_gives (before part rest : List UInt8) {offset len : Nat}
    (hbuf : buf = before ++ (part ++ rest)) (hoffset : before.length = offset)
    (hlen : offset + part.length ≤ len) :
    (bytesAt buf offset part.length).Gives (Access.Inside len) part := by
  have hpart : (buf.drop offset).take part.length = part := by
    rw [hbuf, ← hoffset, List.drop_left, List.take_left]
  have hinside : Access.Inside len ⟨offset, part.length⟩ := hlen
  rw [bytesAt, hpart]
  exact Logged.gives_log hinside part

theorem numberAt_gives (before rest : List UInt8) {offset width value len : Nat}
    (hbuf : buf = before ++ (order.encode width value ++ rest)) (hoffset : before.length = offset)
    (hvalue : value < 256 ^ width) (hlen : offset + width ≤ len) :
    (numberAt order buf offset width).Gives (Access.Inside len) value := by
  have hwidth : (order.encode width value).length = width := ByteOrder.length_encode width value
  have hwhole : offset + (order.encode width value).length ≤ len := by
    rw [hwidth]
    exact hlen
  have hbytes := bytesAt_gives before (order.encode width value) rest hbuf hoffset hwhole
  rw [hwidth] at hbytes
  refine hbytes.bind ?_
  rw [ByteOrder.value_encode hvalue]
  exact Logged.gives_pure value

/-- The message begins behind those bytes, and what was delivered has all of it. -/
structure Delivered (order : ByteOrder) (buf : List UInt8) (len : Nat) (before : List UInt8)
    (m : ControlMessage) : Prop where
  split : ∃ rest, buf = before ++ (m.encode order ++ rest)
  whole : before.length + (headerSize + m.data.length) ≤ len

namespace Delivered

variable {len : Nat} {before : List UInt8}

theorem length (h : Delivered order buf len before m) :
    (numberAt order buf before.length 8).Gives (Access.Inside len)
      (headerSize + m.data.length) := by
  obtain ⟨rest, hbuf⟩ := h.split
  have hwhole := h.whole
  have hlt := m.length_lt
  unfold headerSize at *
  refine numberAt_gives before (order.encode 4 m.level.toNat ++ (order.encode 4 m.type.toNat ++
    (m.data ++ (m.padding ++ rest)))) ?_ rfl ?_ ?_
  · rw [hbuf, encode]
    simp only [List.append_assoc]
    rfl
  · omega
  · omega

theorem level (h : Delivered order buf len before m) :
    (numberAt order buf (before.length + 8) 4).Gives (Access.Inside len) m.level.toNat := by
  obtain ⟨rest, hbuf⟩ := h.split
  have hwhole := h.whole
  unfold headerSize at *
  refine numberAt_gives (before ++ order.encode 8 (16 + m.data.length))
    (order.encode 4 m.type.toNat ++ (m.data ++ (m.padding ++ rest))) ?_ ?_ m.level.toNat_lt ?_
  · rw [hbuf, encode]
    simp only [List.append_assoc]
    rfl
  · rw [List.length_append, ByteOrder.length_encode]
  · omega

theorem type (h : Delivered order buf len before m) :
    (numberAt order buf (before.length + 12) 4).Gives (Access.Inside len) m.type.toNat := by
  obtain ⟨rest, hbuf⟩ := h.split
  have hwhole := h.whole
  unfold headerSize at *
  refine numberAt_gives (before ++ (order.encode 8 (16 + m.data.length) ++
    order.encode 4 m.level.toNat)) (m.data ++ (m.padding ++ rest)) ?_ ?_ m.type.toNat_lt ?_
  · rw [hbuf, encode]
    simp only [List.append_assoc]
    rfl
  · simp only [List.length_append, ByteOrder.length_encode]
  · omega

theorem part (h : Delivered order buf len before m) (first part last : List UInt8)
    (hdata : m.data = first ++ (part ++ last)) :
    (bytesAt buf (before.length + (headerSize + first.length)) part.length).Gives
      (Access.Inside len) part := by
  obtain ⟨rest, hbuf⟩ := h.split
  have hwhole := h.whole
  have hlength : m.data.length = first.length + (part.length + last.length) := by
    rw [hdata, List.length_append, List.length_append]
  unfold headerSize at *
  refine bytesAt_gives (before ++ (order.encode 8 (16 + m.data.length) ++
    (order.encode 4 m.level.toNat ++ (order.encode 4 m.type.toNat ++ first)))) part
    (last ++ (m.padding ++ rest)) ?_ ?_ ?_
  · rw [hbuf, encode]
    conv_lhs => rw [hdata]
    conv_rhs => rw [hdata]
    simp only [List.append_assoc]
    rfl
  · simp only [List.length_append, ByteOrder.length_encode]
    omega
  · omega

end Delivered

/-- What was delivered is the messages behind those bytes; the padding of the last one
may be cut. -/
structure Holds (order : ByteOrder) (buf : List UInt8) (len : Nat) (before : List UInt8)
    (messages : List ControlMessage) : Prop where
  split : ∃ rest, buf = before ++ (encodeAll order messages ++ rest)
  span_le : messages ≠ [] → before.length + span messages ≤ len
  le_length : len ≤ before.length + (encodeAll order messages).length

theorem span_cons_le (m : ControlMessage) (messages : List ControlMessage) :
    headerSize + m.data.length ≤ span (m :: messages) := by
  cases messages with
  | nil => exact Nat.le_refl _
  | cons next messages =>
    rw [span, Nat.add_assoc]
    exact Nat.le_add_right _ _

namespace Holds

variable {len : Nat} {before : List UInt8} {messages : List ControlMessage}

theorem first (h : Holds order buf len before (m :: messages)) :
    Delivered order buf len before m := by
  obtain ⟨rest, hbuf⟩ := h.split
  have hspan := h.span_le (List.cons_ne_nil m messages)
  refine ⟨⟨encodeAll order messages ++ rest, ?_⟩, ?_⟩
  · rw [hbuf, encodeAll, List.flatMap_cons, List.append_assoc]
    rfl
  · exact Nat.le_trans (Nat.add_le_add_left (span_cons_le m messages) _) hspan

theorem hdrAt_nil (h : Holds order buf len before []) : hdrAt len before.length = none := by
  have hle : len ≤ before.length := h.le_length
  refine if_neg fun hroom => ?_
  unfold headerSize at hroom
  omega

theorem hdrAt_cons (h : Holds order buf len before (m :: messages)) :
    hdrAt len before.length = some before.length := by
  have hwhole := h.first.whole
  exact if_pos (by omega)

theorem later (h : Holds order buf len before (m :: messages)) :
    Holds order buf len (before ++ m.encode order) messages := by
  obtain ⟨rest, hbuf⟩ := h.split
  have hspan := h.span_le (List.cons_ne_nil m messages)
  have hle := h.le_length
  rw [encodeAll, List.flatMap_cons, List.length_append] at hle
  refine ⟨⟨rest, ?_⟩, ?_, ?_⟩
  · rw [hbuf, encodeAll, List.flatMap_cons, List.append_assoc, List.append_assoc]
    rfl
  · intro hne
    cases messages with
    | nil => contradiction
    | cons next messages =>
      rw [span] at hspan
      rw [List.length_append, length_encode]
      omega
  · rw [List.length_append, Nat.add_assoc]
    exact hle

theorem nextHdr_gives (h : Holds order buf len before (m :: messages)) :
    (nextHdr order buf len before.length).Gives (Access.Inside len)
      (hdrAt len (before ++ m.encode order).length) := by
  refine h.first.length.bind ?_
  rw [if_neg (Nat.not_lt.mpr (Nat.le_add_right _ _)), align_length m order, List.length_append]
  exact Logged.gives_pure _

end Holds

theorem length_le_span (messages : List ControlMessage) : messages.length ≤ span messages := by
  induction messages with
  | nil => exact Nat.le_refl _
  | cons m messages ih =>
    cases messages with
    | nil =>
      unfold span headerSize
      exact Nat.le_add_right_of_le (show 1 ≤ 16 by decide)
    | cons next messages =>
      rw [span, headerSize, List.length_cons]
      omega

theorem Holds.length_le {len : Nat} {before : List UInt8} {messages : List ControlMessage}
    (h : Holds order buf len before messages) : messages.length ≤ len := by
  by_cases hne : messages = []
  · rw [hne]
    exact Nat.zero_le _
  · have hspan := h.span_le hne
    have hlength := length_le_span messages
    omega

/-- The loop takes the messages one after the other, and then it ends. -/
theorem walk_gives {σ : Type} (body : Nat → σ → Logged Access σ) (effect : ControlMessage → σ → σ)
    {len : Nat} (messages : List ControlMessage)
    (hbody : ∀ (before : List UInt8), ∀ m ∈ messages, Delivered order buf len before m →
      ∀ s, (body before.length s).Gives (Access.Inside len) (effect m s)) :
    ∀ (before : List UInt8) (rounds : Nat) (s : σ), Holds order buf len before messages →
      messages.length < rounds →
        (walk order buf len body rounds (hdrAt len before.length) s).Gives (Access.Inside len)
          (messages.foldl (fun s m => effect m s) s) := by
  induction messages with
  | nil =>
    intro before rounds s h hrounds
    cases rounds with
    | zero => contradiction
    | succ rounds =>
      rw [h.hdrAt_nil, walk]
      exact Logged.gives_pure s
  | cons m messages ih =>
    intro before rounds s h hrounds
    cases rounds with
    | zero => contradiction
    | succ rounds =>
      rw [h.hdrAt_cons, walk, List.foldl_cons]
      refine (hbody before m List.mem_cons_self h.first s).bind (h.nextHdr_gives.bind ?_)
      exact ih (fun before m hm => hbody before m (List.mem_cons_of_mem _ hm)) _ _ _ h.later
        (Nat.lt_of_succ_lt_succ hrounds)

end

/-- The level, the type and the data of the messages that are found. -/
def collect (order : ByteOrder) (buf : List UInt8) (it : Nat)
    (found : List (Nat × Nat × List UInt8)) : Logged Access (List (Nat × Nat × List UInt8)) := do
  let length ← numberAt order buf it 8
  let level ← numberAt order buf (it + 8) 4
  let type ← numberAt order buf (it + 12) 4
  let data ← bytesAt buf (it + headerSize) (length - headerSize)
  pure (found ++ [(level, type, data)])

def read (order : ByteOrder) (buf : List UInt8) (controllen : Nat) :
    Option (List (Nat × Nat × List UInt8)) :=
  (walk order buf controllen (collect order buf) (controllen + 1) (hdrAt controllen 0) []).result

section

variable {order : ByteOrder} {buf : List UInt8} {len : Nat}

theorem Delivered.collect {m : ControlMessage} {before : List UInt8}
    (h : Delivered order buf len before m) (found : List (Nat × Nat × List UInt8)) :
    (collect order buf before.length found).Gives (Access.Inside len)
      (found ++ [(m.level.toNat, m.type.toNat, m.data)]) := by
  have hdata := h.part [] m.data [] (List.append_nil m.data).symm
  refine h.length.bind (h.level.bind (h.type.bind ?_))
  rw [Nat.add_sub_cancel_left]
  exact Logged.Gives.bind hdata (Logged.gives_pure _)

theorem read_eq {messages : List ControlMessage} (h : Holds order buf len [] messages) :
    read order buf len = some (messages.map fun m => (m.level.toNat, m.type.toNat, m.data)) := by
  have hwalk := walk_gives (ControlMessage.collect order buf)
    (fun m found => found ++ [(m.level.toNat, m.type.toNat, m.data)]) messages
    (fun _ _ _ hdelivered found => hdelivered.collect found) [] (len + 1) [] h
    (Nat.lt_succ_of_le h.length_le)
  have hfold : messages.foldl (fun found m => found ++ [(m.level.toNat, m.type.toNat, m.data)]) [] =
      messages.map fun m => (m.level.toNat, m.type.toNat, m.data) := by
    rw [List.foldl_append_eq_append, List.nil_append, ← List.flatMap_def, ← List.map_eq_flatMap]
  rw [read, ← hfold]
  exact hwalk.2

/-- One message at the start of a buffer, with the length that goes up to its end. -/
theorem read_single (order : ByteOrder) (level type : UInt32) (data rest : List UInt8)
    (hlength : data.length < 2 ^ 32) (hrest : 8 ≤ rest.length) :
    read order (order.encode 8 (headerSize + data.length) ++ (order.encode 4 level.toNat ++
      (order.encode 4 type.toNat ++ (data ++ rest)))) (headerSize + data.length) =
        some [(level.toNat, type.toNat, data)] := by
  let m : ControlMessage :=
    { level := level
      type := type
      data := data
      padding := rest.take ((8 - data.length % 8) % 8)
      length_lt := hlength
      padded := by
        rw [List.length_take]
        omega
      padding_lt := by
        rw [List.length_take]
        omega }
  suffices h : Holds order (order.encode 8 (headerSize + data.length) ++
      (order.encode 4 level.toNat ++ (order.encode 4 type.toNat ++ (data ++ rest))))
      (headerSize + data.length) [] [m] from read_eq h
  refine ⟨⟨rest.drop ((8 - data.length % 8) % 8), ?_⟩, fun _ => ?_, ?_⟩
  · rw [encodeAll, List.flatMap_cons, List.flatMap_nil, List.append_nil, encode]
    simp only [List.nil_append, List.append_assoc]
    rw [show m.padding = rest.take ((8 - data.length % 8) % 8) from rfl, List.take_append_drop]
  · exact Nat.le_of_eq (Nat.zero_add _)
  · rw [encodeAll, List.flatMap_cons, List.flatMap_nil, List.append_nil, length_encode,
      List.length_nil, Nat.zero_add]
    exact Nat.le_add_right _ _

end

end ControlMessage

end Dote.Library
