import Dote.Dns.Entry

/-! The walk of `removeEdnsPadding` over the sections, up to the OPT record. -/
namespace Dote.DnsPacket

/-- The walk of `removeEdnsPadding` over the additional records, up to the OPT
record that it finds and the length of its data. -/
def findOpt (packet : Bytes) : Nat → Nat → Option (Option (Nat × Nat))
  | 0, _ => some none
  | count + 1, it =>
    if it = packet.length then some none
    else do
      if ← isOpt packet it then
        let length ← getShort packet (it + 9)
        if distance packet it ≥ length + 11 then return some (it, length)
        else findOpt packet count it
      else
        let it ← skipResponses packet 1 it
        findOpt packet count it

def walk (packet : Bytes) : Option (Option (Nat × Nat)) :=
  match getHeader packet with
  | none => some none
  | some header => do
    let it ← skipQueries packet header.queries headerSize
    let it ← skipResponses packet header.answers it
    let it ← skipResponses packet header.authorities it
    findOpt packet header.additional it

def removeFromOpt (packet : Bytes) (it length : Nat) : Option (Bool × Bytes) := do
  let options := it + 9 + 2
  let (optionsLength, packet) ← removePaddingOption packet options length
  let packet := setShort packet (it + 9) optionsLength
  let diff := (length + 2 ^ 16 - optionsLength) % 2 ^ 16
  let packet := setShort packet 0 ((shortAt packet 0 + 2 ^ 16 - diff) % 2 ^ 16)
  let packet ← copy packet (options + diff) packet.length options
  return (true, packet.take (packet.length - diff))

theorem removeFromAdditional_eq (packet : Bytes) (count : Nat) : ∀ it,
    removeFromAdditional packet count it = (findOpt packet count it).bind fun found =>
      match found with
      | none => some (false, packet)
      | some (it, length) => removeFromOpt packet it length := by
  induction count with
  | zero => exact fun _ => rfl
  | succ count ih =>
    intro it
    unfold removeFromAdditional findOpt
    split
    next => rfl
    next =>
      cases isOpt packet it with
      | none => rfl
      | some opt =>
        cases opt with
        | true =>
          simp only [Option.bind_eq_bind, Option.bind_some, if_true]
          cases getShort packet (it + 9) with
          | none => rfl
          | some length =>
            simp only [Option.bind_some]
            split
            next => rfl
            next => exact ih it
        | false =>
          simp only [Option.bind_eq_bind, Option.bind_some, Bool.false_eq_true, if_false]
          cases skipResponses packet 1 it with
          | none => rfl
          | some it => exact ih it

/-- The walk first, which changes nothing, and then the OPT record. -/
theorem removeEdnsPadding_eq (packet : Bytes) :
    removeEdnsPadding packet = (walk packet).bind fun found =>
      match found with
      | none => some (false, packet)
      | some (it, length) => removeFromOpt packet it length := by
  unfold removeEdnsPadding walk
  cases getHeader packet with
  | none => rfl
  | some header =>
    simp only [Option.bind_eq_bind, removeFromAdditional_eq, Option.bind_assoc]

theorem findOpt_eq_some {packet : Bytes} {count : Nat} : ∀ {it found length : Nat},
    findOpt packet count it = some (some (found, length)) →
      found + 11 + length ≤ packet.length ∧ length < 2 ^ 16 := by
  induction count with
  | zero =>
    intro it found length h
    simp [findOpt] at h
  | succ count ih =>
    intro it found length h
    unfold findOpt at h
    split at h
    next => simp at h
    next =>
      simp only [Option.bind_eq_bind, Option.bind_eq_some_iff] at h
      obtain ⟨opt, -, h⟩ := h
      split at h
      next =>
        obtain ⟨length', hlength, h⟩ := Option.bind_eq_some_iff.mp h
        split at h
        next hroom =>
          cases h
          unfold distance at hroom
          exact ⟨by omega, (drop_of_getShort hlength).1⟩
        next => exact ih h
      next =>
        obtain ⟨it', -, h⟩ := Option.bind_eq_some_iff.mp h
        exact ih h

theorem walk_eq_some {packet : Bytes} {found length : Nat}
    (h : walk packet = some (some (found, length))) :
    found + 11 + length ≤ packet.length ∧ length < 2 ^ 16 := by
  unfold walk at h
  split at h
  next => simp at h
  next header _ =>
    simp only [Option.bind_eq_bind, Option.bind_eq_some_iff] at h
    obtain ⟨_, -, _, -, _, -, h⟩ := h
    exact findOpt_eq_some h

end Dote.DnsPacket
