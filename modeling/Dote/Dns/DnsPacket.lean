import Dote.Bytes
import Mathlib.Tactic

/-! TCP DNS packets. An iterator is an index into the packet. It may pass the end;
`none` is what happens when a byte is read there, or a range is copied backwards,
and nothing is known of the program from then on. -/
namespace Dote.DnsPacket

def OPT : Nat := 41
def PADDING : Nat := 12

/-- `sizeof(DnsHeader)`. -/
def headerSize : Nat := 14

/-- The fields of the header that are read, in host byte order. -/
structure DnsHeader where
  length : Nat
  queries : Nat
  answers : Nat
  authorities : Nat
  additional : Nat
deriving DecidableEq, Repr

def shortAt (packet : Bytes) (it : Nat) : Nat :=
  (packet.getD it 0).toNat * 256 + (packet.getD (it + 1) 0).toNat

def getHeader (packet : Bytes) : Option DnsHeader :=
  if packet.length < headerSize then none
  else if shortAt packet 0 ≠ packet.length - 2 then none
  else some ⟨shortAt packet 0, shortAt packet 6, shortAt packet 8, shortAt packet 10,
    shortAt packet 12⟩

/-- A difference of iterators where it is compared with a `size_t`. -/
def toUnsigned (difference : Int) : Nat := (difference % 2 ^ 64).toNat

def distance (packet : Bytes) (it : Nat) : Int := packet.length - it

/-- `*current + 1u`: a `char` is signed, and the sum is an `unsigned int`. -/
def labelStep (current : UInt8) : Nat :=
  if current < 128 then current.toNat + 1 else current.toNat + (2 ^ 32 - 256) + 1

/-- The loop of `skipName`. The fuel is never used up: within the packet every
round that does not end the loop moves on. -/
def skipLabels (packet : Bytes) : Nat → Nat → Option Nat
  | 0, _ => none
  | fuel + 1, current =>
    if current = packet.length then some current
    else do
      let byte ← packet[current]?
      if byte = 0 then some (current + 1)
      else if byte &&& 0xc0 = 0xc0 then some (current + 2)
      else if distance packet current > labelStep byte then
        skipLabels packet fuel (current + labelStep byte)
      else some packet.length

def skipName (packet : Bytes) (current : Nat) : Option Nat :=
  skipLabels packet (packet.length + 1) current

def skipFixed (packet : Bytes) (current length : Nat) : Nat :=
  if toUnsigned (distance packet current) > length then current + length else packet.length

def getShort (packet : Bytes) (it : Nat) : Option Nat :=
  if it + 1 < packet.length then some (shortAt packet it) else none

def setShort (packet : Bytes) (it value : Nat) : Bytes :=
  (packet.set it (UInt8.ofNat (value / 256))).set (it + 1) (UInt8.ofNat value)

def skipQueries (packet : Bytes) : Nat → Nat → Option Nat
  | 0, it => some it
  | count + 1, it =>
    if it = packet.length then some it
    else do
      let it ← skipName packet it
      skipQueries packet count (skipFixed packet it 4)

def skipResponses (packet : Bytes) : Nat → Nat → Option Nat
  | 0, it => some it
  | count + 1, it =>
    if it = packet.length then some it
    else do
      let it ← skipName packet it
      let it := skipFixed packet it 8
      if toUnsigned (distance packet it) ≥ 2 then
        let length ← getShort packet it
        let it := it + 2
        skipResponses packet count
          (if distance packet it ≥ length then it + length else packet.length)
      else skipResponses packet count packet.length

/-- `std::copy` within the packet. -/
def copy (packet : Bytes) (first last dest : Nat) : Option Bytes :=
  if first ≤ last then
    some (packet.take dest ++ (packet.take last).drop first ++ packet.drop (dest + (last - first)))
  else none

/-- The loop of `removePaddingOption`. A round moves the cursor or its end by at
least four bytes. -/
def removePadding : Nat → Bytes → Nat → Nat → Option (Nat × Bytes)
  | 0, _, _, _ => none
  | fuel + 1, packet, it, stop =>
    if it = stop then some (it, packet)
    else do
      let optLength ← getShort packet (it + 2)
      let fullLength := 4 + optLength
      let code ← getShort packet it
      if code = PADDING then
        let packet ← copy packet (it + fullLength) stop it
        removePadding fuel packet it (stop - fullLength)
      else removePadding fuel packet (it + fullLength) stop

def removePaddingOption (packet : Bytes) (it length : Nat) : Option (Nat × Bytes) := do
  let (last, packet) ← removePadding (2 * packet.length + 1) packet it (it + length)
  return ((last - it) % 2 ^ 16, packet)

/-- The record at `it`: `*it`, the room and the type are looked at in turn. -/
def isOpt (packet : Bytes) (it : Nat) : Option Bool := do
  let byte ← packet[it]?
  if byte ≠ 0 ∨ distance packet it < 11 then return false
  let type ← getShort packet (it + 1)
  return type = OPT

/-- The loop over the additional records. A record of type OPT whose data is not
all there is looked at again. -/
def removeFromAdditional (packet : Bytes) : Nat → Nat → Option (Bool × Bytes)
  | 0, _ => some (false, packet)
  | count + 1, it =>
    if it = packet.length then some (false, packet)
    else do
      if ← isOpt packet it then
        let dataLength := it + 9
        let length ← getShort packet dataLength
        if distance packet it ≥ length + 11 then
          let options := dataLength + 2
          let (optionsLength, packet) ← removePaddingOption packet options length
          let packet := setShort packet dataLength optionsLength
          let diff := (length + 2 ^ 16 - optionsLength) % 2 ^ 16
          let packet := setShort packet 0 ((shortAt packet 0 + 2 ^ 16 - diff) % 2 ^ 16)
          let packet ← copy packet (options + diff) packet.length options
          return (true, packet.take (packet.length - diff))
        else removeFromAdditional packet count it
      else
        let it ← skipResponses packet 1 it
        removeFromAdditional packet count it

def removeEdnsPadding (packet : Bytes) : Option (Bool × Bytes) :=
  match getHeader packet with
  | none => some (false, packet)
  | some header => do
    let it ← skipQueries packet header.queries headerSize
    let it ← skipResponses packet header.answers it
    let it ← skipResponses packet header.authorities it
    removeFromAdditional packet header.additional it

def valid (packet : Bytes) : Bool := (getHeader packet).isSome

def data (packet : Bytes) : Bytes := packet.drop 2

def length (packet : Bytes) : Nat :=
  match getHeader packet with
  | none => 0
  | some header => header.length

theorem valid_iff (packet : Bytes) :
    valid packet = true ↔ headerSize ≤ packet.length ∧ shortAt packet 0 = packet.length - 2 := by
  unfold valid getHeader
  split
  next h =>
    constructor
    · intro h'
      contradiction
    · intro h'
      omega
  next h =>
    split
    next hne =>
      constructor
      · intro h'
        contradiction
      · intro h'
        exact absurd h'.2 hne
    next heq =>
      rw [not_not] at heq
      simp [heq]
      omega

theorem getHeader_length {packet : Bytes} {header : DnsHeader}
    (h : getHeader packet = some header) :
    headerSize ≤ packet.length ∧ packet.length < 2 ^ 32 - 256 := by
  have hvalid : valid packet = true := by
    rw [valid, h]
    rfl
  rw [valid_iff] at hvalid
  have hhigh := (packet.getD 0 0).toNat_lt
  have hlow := (packet.getD (0 + 1) 0).toNat_lt
  unfold shortAt at hvalid
  omega

theorem valid_length {packet packet' : Bytes} (h : valid packet = true)
    (h' : valid packet' = true) (hshort : shortAt packet 0 = shortAt packet' 0) :
    packet.length = packet'.length := by
  rw [valid_iff] at h h'
  unfold headerSize at h h'
  omega

theorem shortAt_append {packet : Bytes} (rest : Bytes) (h : 2 ≤ packet.length) :
    shortAt (packet ++ rest) 0 = shortAt packet 0 := by
  unfold shortAt
  simp only [List.getD_eq_getElem?_getD]
  rw [List.getElem?_append_left (by omega), List.getElem?_append_left (by omega)]

theorem not_valid_of_append {packet rest : Bytes} (h : valid (packet ++ rest) = true)
    (hrest : rest ≠ []) : valid packet = false := by
  rw [Bool.eq_false_iff]
  intro hvalid
  have hsize := (valid_iff packet).mp hvalid
  unfold headerSize at hsize
  have hlength := valid_length h hvalid (shortAt_append rest (by omega))
  rw [List.length_append] at hlength
  apply hrest
  apply List.eq_nil_of_length_eq_zero
  omega

end Dote.DnsPacket
