import Dote.Dns.Walk
import Dote.Library.Logged

/-! The data of an OPT record, and what the removal of the padding does to it. The
data is whatever the network sends; only whole options are taken apart. -/
namespace Dote.DnsPacket
open Dote.Library

structure EdnsOption where
  code : Nat
  data : Bytes
  code_lt : code < 2 ^ 16
  data_lt : data.length < 2 ^ 16

def EdnsOption.encode (option : EdnsOption) : Bytes :=
  short option.code ++ (short option.data.length ++ option.data)

def EdnsOption.isPadding (option : EdnsOption) : Bool := option.code = PADDING

def encodeOptions (options : List EdnsOption) : Bytes := options.flatMap EdnsOption.encode

def withoutPadding (options : List EdnsOption) : List EdnsOption :=
  options.filter fun option => !option.isPadding

/-- What the removals leave behind the last option, each of them the last bytes of
what it moved over. -/
def leftover : List EdnsOption → Bytes
  | [] => []
  | option :: options =>
    if option.isPadding then
      leftover options ++
        (option.encode ++ encodeOptions options).drop (encodeOptions options).length
    else leftover options

@[simp] theorem length_short (value : Nat) : (short value).length = 2 := rfl

@[simp] theorem EdnsOption.length_encode (option : EdnsOption) :
    option.encode.length = 4 + option.data.length := by
  simp [EdnsOption.encode]
  omega

@[simp] theorem encodeOptions_nil : encodeOptions [] = [] := rfl

@[simp] theorem encodeOptions_cons (option : EdnsOption) (options : List EdnsOption) :
    encodeOptions (option :: options) = option.encode ++ encodeOptions options := rfl

section Cons

variable {option : EdnsOption} (options : List EdnsOption)

theorem withoutPadding_padding (h : option.isPadding = true) :
    withoutPadding (option :: options) = withoutPadding options := by
  simp [withoutPadding, h]

theorem withoutPadding_other (h : option.isPadding = false) :
    withoutPadding (option :: options) = option :: withoutPadding options := by
  simp [withoutPadding, h]

theorem leftover_padding (h : option.isPadding = true) : leftover (option :: options) =
    leftover options ++
      (option.encode ++ encodeOptions options).drop (encodeOptions options).length := if_pos h

theorem leftover_other (h : option.isPadding = false) :
    leftover (option :: options) = leftover options := by
  simp [leftover, h]

end Cons

theorem leftover_length (options : List EdnsOption) :
    (encodeOptions (withoutPadding options)).length + (leftover options).length =
      (encodeOptions options).length := by
  induction options with
  | nil => rfl
  | cons option options ih =>
    cases h : option.isPadding with
    | true =>
      rw [withoutPadding_padding options h, leftover_padding options h]
      simp
      omega
    | false =>
      rw [withoutPadding_other options h, leftover_other options h]
      simp
      omega

/-! What a round of the loop touches, and where its cursor and its end are then. -/

inductive Touch
  | read (index : Nat)
  | copy (first last dest : Nat)
  | cursor (it stop : Nat)
deriving DecidableEq, Repr

/-- Reads and writes are between `first` and `last`, a copy does not run backwards,
and the cursor is not past its end. -/
def Touch.Stays (first last : Nat) : Touch → Prop
  | read index => first ≤ index ∧ index < last
  | copy source stop dest => source ≤ stop ∧ first ≤ source ∧ stop ≤ last ∧ first ≤ dest ∧
      dest + (stop - source) ≤ last
  | cursor it stop => it ≤ stop

instance (first last : Nat) : (touch : Touch) → Decidable (touch.Stays first last)
  | .read index => inferInstanceAs (Decidable (first ≤ index ∧ index < last))
  | .copy source stop dest => inferInstanceAs (Decidable (source ≤ stop ∧ first ≤ source ∧
      stop ≤ last ∧ first ≤ dest ∧ dest + (stop - source) ≤ last))
  | .cursor it stop => inferInstanceAs (Decidable (it ≤ stop))

namespace Touching

def getShort (packet : Bytes) (it : Nat) : Logged Touch Nat :=
  ⟨[.read it, .read (it + 1)], DnsPacket.getShort packet it⟩

def removePadding : Nat → Bytes → Nat → Nat → Logged Touch (Nat × Bytes)
  | 0, _, _, _ => ⟨[], none⟩
  | fuel + 1, packet, it, stop =>
    if it = stop then pure (it, packet)
    else do
      let optLength ← getShort packet (it + 2)
      let fullLength := 4 + optLength
      let code ← getShort packet it
      if code = PADDING then
        let packet ← .log (.copy (it + fullLength) stop it) (copy packet (it + fullLength) stop it)
        let stop ← .log (.cursor it (stop - fullLength)) (some (stop - fullLength))
        removePadding fuel packet it stop
      else
        let it ← .log (.cursor (it + fullLength) stop) (some (it + fullLength))
        removePadding fuel packet it stop

def removePaddingOption (packet : Bytes) (it length : Nat) : Logged Touch (Nat × Bytes) := do
  let (last, packet) ← removePadding (2 * packet.length + 1) packet it (it + length)
  pure ((last - it) % 2 ^ 16, packet)

theorem removePadding_result (fuel : Nat) : ∀ packet it stop,
    (removePadding fuel packet it stop).result = DnsPacket.removePadding fuel packet it stop := by
  induction fuel with
  | zero => exact fun _ _ _ => rfl
  | succ fuel ih =>
    intro packet it stop
    unfold removePadding DnsPacket.removePadding
    simp [Logged.result_ite, getShort, ih]

/-- What is traced is the loop. -/
theorem removePaddingOption_result (packet : Bytes) (it length : Nat) :
    (removePaddingOption packet it length).result =
      DnsPacket.removePaddingOption packet it length := by
  unfold removePaddingOption DnsPacket.removePaddingOption
  simp [removePadding_result]

end Touching

/-! What is not whole options. -/

theorem copy_eq_some {packet packet' : Bytes} {first last dest : Nat}
    (h : copy packet first last dest = some packet') : first ≤ last ∧ packet' =
      packet.take dest ++ (packet.take last).drop first ++ packet.drop (dest + (last - first)) := by
  unfold copy at h
  split at h
  next hle =>
    cases h
    exact ⟨hle, rfl⟩
  next => contradiction

theorem removePadding_past (fuel : Nat) : ∀ {packet : Bytes} {it stop : Nat}, stop < it →
    removePadding fuel packet it stop = none := by
  induction fuel with
  | zero => exact fun _ => rfl
  | succ fuel ih =>
    intro packet it stop h
    rw [removePadding, if_neg (by omega)]
    cases getShort packet (it + 2) with
    | none => rfl
    | some optLength =>
      cases getShort packet it with
      | none => rfl
      | some code =>
        simp only [Option.bind_eq_bind, Option.bind_some]
        split
        next =>
          rw [copy, if_neg (by omega)]
          rfl
        next => exact ih (by omega)

theorem exists_option {packet : Bytes} {it code optLength : Nat} (hlength : optLength < 2 ^ 16)
    (hcode : code < 2 ^ 16)
    (hlengthDrop : packet.drop (it + 2) = short optLength ++ packet.drop (it + 2 + 2))
    (hcodeDrop : packet.drop it = short code ++ packet.drop (it + 2))
    (hroom : it + (4 + optLength) ≤ packet.length) :
    ∃ option : EdnsOption, option.encode.length = 4 + optLength ∧
      packet.drop it = option.encode ++ packet.drop (it + (4 + optLength)) := by
  obtain ⟨data, rfl, hdata⟩ : ∃ data : Bytes, data.length = optLength ∧
      packet.drop (it + 4) = data ++ packet.drop (it + (4 + optLength)) := by
    refine ⟨(packet.drop (it + 4)).take optLength, ?_, ?_⟩
    · simp
      omega
    · have hsplit := List.take_append_drop optLength (packet.drop (it + 4))
      rw [List.drop_drop, Nat.add_assoc] at hsplit
      exact hsplit.symm
  refine ⟨⟨code, data, hcode, hlength⟩, EdnsOption.length_encode _, ?_⟩
  rw [hcodeDrop, hlengthDrop, hdata, EdnsOption.encode, List.append_assoc, List.append_assoc]

theorem options_of_removePadding (fuel : Nat) : ∀ {packet : Bytes} {it stop : Nat}
    {result : Nat × Bytes}, removePadding fuel packet it stop = some result → it ≤ stop →
      stop ≤ packet.length →
        ∃ options, (packet.drop it).take (stop - it) = encodeOptions options := by
  induction fuel with
  | zero =>
    intro packet it stop result h
    contradiction
  | succ fuel ih =>
    intro packet it stop result h hle hstop
    unfold removePadding at h
    split at h
    next heq => exact ⟨[], by simp [heq]⟩
    next hne =>
      simp only [Option.bind_eq_bind, Option.bind_eq_some_iff] at h
      obtain ⟨optLength, hlength, code, hcode, h⟩ := h
      obtain ⟨hlength, -, hlengthDrop⟩ := drop_of_getShort hlength
      obtain ⟨hcode, -, hcodeDrop⟩ := drop_of_getShort hcode
      have hfull : it + (4 + optLength) ≤ stop := by
        by_contra hpast
        split at h
        next =>
          obtain ⟨packet', hcopy, -⟩ := Option.bind_eq_some_iff.mp h
          exact hpast (copy_eq_some hcopy).1
        next =>
          rw [removePadding_past fuel (by omega)] at h
          contradiction
      have hrest : ∃ options, (packet.drop (it + (4 + optLength))).take
          (stop - (it + (4 + optLength))) = encodeOptions options := by
        split at h
        next =>
          obtain ⟨packet', hcopy, h⟩ := Option.bind_eq_some_iff.mp h
          obtain ⟨-, rfl⟩ := copy_eq_some hcopy
          obtain ⟨options, hoptions⟩ := ih h (by omega) (by simp; omega)
          refine ⟨options, ?_⟩
          rw [← hoptions, List.append_assoc, List.drop_left' (by simp; omega), List.drop_take,
            List.take_left' (by simp; omega)]
        next => exact ih h hfull hstop
      obtain ⟨options, hoptions⟩ := hrest
      obtain ⟨option, henc, hdrop⟩ := exists_option hlength hcode hlengthDrop hcodeDrop
        (by omega)
      refine ⟨option :: options, ?_⟩
      rw [hdrop, encodeOptions_cons, ← hoptions, List.take_append, henc,
        List.take_of_length_le (by omega), Nat.sub_sub]

/-! What the loop does to whole options. -/

theorem copy_move (pre a b post : Bytes) :
    copy (pre ++ (a ++ (b ++ post))) (pre.length + a.length) (pre.length + (a ++ b).length)
        pre.length =
      some (pre ++ (b ++ ((a ++ b).drop b.length ++ post))) := by
  have htaken : (pre ++ (a ++ (b ++ post))).take (pre.length + (a ++ b).length) =
      pre ++ (a ++ b) := by
    rw [← List.append_assoc a, ← List.append_assoc pre, List.take_left' (by simp)]
  have hmoved : (pre ++ (a ++ b)).drop (pre.length + a.length) = b := by
    rw [← List.append_assoc, List.drop_left' (by simp)]
  have hkept : (pre ++ (a ++ (b ++ post))).drop (pre.length + b.length) =
      (a ++ b).drop b.length ++ post := by
    rw [List.drop_length_add_append, ← List.append_assoc a,
      List.drop_append_of_le_length (by simp)]
  have hlength : pre.length + (a ++ b).length - (pre.length + a.length) = b.length := by
    simp
    omega
  rw [copy, if_pos (by simp), hlength, htaken, hmoved, hkept, List.take_left, List.append_assoc]

theorem gives_getShort {first last : Nat} {packet rest : Bytes} {it value : Nat}
    (hvalue : value < 2 ^ 16) (h : packet.drop it = short value ++ rest) (hfirst : first ≤ it)
    (hlast : it + 2 ≤ last) :
    (Touching.getShort packet it).Gives (Touch.Stays first last) value := by
  refine ⟨?_, getShort_of_drop hvalue h⟩
  intro touch htouch
  simp only [Touching.getShort, List.mem_cons, List.not_mem_nil, or_false] at htouch
  cases htouch with
  | inl h =>
    rw [h]
    exact ⟨hfirst, by omega⟩
  | inr h =>
    rw [h]
    exact ⟨by omega, hlast⟩

theorem removePadding_options {first last : Nat} (options : List EdnsOption) :
    ∀ {fuel : Nat} {pre post : Bytes}, options.length < fuel → first ≤ pre.length →
      pre.length + (encodeOptions options).length ≤ last →
        (Touching.removePadding fuel (pre ++ (encodeOptions options ++ post)) pre.length
          (pre.length + (encodeOptions options).length)).Gives (Touch.Stays first last)
            (pre.length + (encodeOptions (withoutPadding options)).length,
              pre ++ (encodeOptions (withoutPadding options) ++ (leftover options ++ post))) := by
  induction options with
  | nil =>
    intro fuel pre post hfuel _ _
    cases fuel with
    | zero => contradiction
    | succ fuel =>
      rw [Touching.removePadding, if_pos (by simp)]
      exact Logged.gives_pure _
  | cons option options ih =>
    intro fuel pre post hfuel hfirst hlast
    rw [encodeOptions_cons, List.length_append] at hlast
    have hlength := option.length_encode
    cases fuel with
    | zero => contradiction
    | succ fuel =>
      rw [Touching.removePadding, encodeOptions_cons, if_neg (by simp)]
      have hcode : (pre ++ (option.encode ++ encodeOptions options ++ post)).drop pre.length =
          short option.code ++ (short option.data.length ++ (option.data ++
            (encodeOptions options ++ post))) := by
        simp [EdnsOption.encode]
      have hdata := drop_of_drop hcode
      refine (gives_getShort option.data_lt hdata (by simp; omega) (by simp; omega)).bind ?_
      refine (gives_getShort option.code_lt hcode hfirst (by omega)).bind ?_
      rw [← hlength]
      split
      next hpadding =>
        have hmove := copy_move pre option.encode (encodeOptions options) post
        have hstop : pre.length + (option.encode ++ encodeOptions options).length -
            option.encode.length = pre.length + (encodeOptions options).length := by
          simp
          omega
        rw [List.append_assoc option.encode, hmove, hstop]
        refine (Logged.gives_log ?_ _).bind ?_
        · simp [Touch.Stays]
          omega
        refine (Logged.gives_log ?_ _).bind ?_
        · exact Nat.le_add_right _ _
        have hisPadding : option.isPadding = true := decide_eq_true hpadding
        have hrest := @ih fuel pre ((option.encode ++ encodeOptions options).drop
          (encodeOptions options).length ++ post) (by simpa using hfuel) hfirst (by omega)
        rwa [withoutPadding_padding options hisPadding, leftover_padding options hisPadding,
          List.append_assoc (leftover options)]
      next hother =>
        have hisOther : option.isPadding = false := decide_eq_false hother
        have hrest := @ih fuel (pre ++ option.encode) post (by simpa using hfuel)
          (by simp; omega) (by simp at hlast ⊢; omega)
        refine (Logged.gives_log ?_ _).bind ?_
        · simp [Touch.Stays]
        · rw [withoutPadding_other options hisOther, leftover_other options hisOther]
          simpa [Nat.add_assoc] using hrest

theorem length_le_encodeOptions (options : List EdnsOption) :
    options.length ≤ (encodeOptions options).length := by
  induction options with
  | nil => rfl
  | cons option options ih =>
    simp
    omega

theorem removePaddingOption_gives (options : List EdnsOption) (pre post : Bytes)
    (hlength : (encodeOptions options).length < 2 ^ 16) :
    (Touching.removePaddingOption (pre ++ (encodeOptions options ++ post)) pre.length
      (encodeOptions options).length).Gives
        (Touch.Stays pre.length (pre.length + (encodeOptions options).length))
        ((encodeOptions (withoutPadding options)).length,
          pre ++ (encodeOptions (withoutPadding options) ++ (leftover options ++ post))) := by
  have hcount := length_le_encodeOptions options
  have hless := leftover_length options
  have hloop := @removePadding_options pre.length (pre.length + (encodeOptions options).length)
    options (2 * (pre ++ (encodeOptions options ++ post)).length + 1) pre post (by simp; omega)
    (le_refl _) (le_refl _)
  have hreturned : (pre.length + (encodeOptions (withoutPadding options)).length - pre.length) %
      2 ^ 16 = (encodeOptions (withoutPadding options)).length := by omega
  rw [← hreturned]
  exact hloop.bind (Logged.gives_pure _)

theorem removePaddingOption_options (options : List EdnsOption) (pre post : Bytes)
    (hlength : (encodeOptions options).length < 2 ^ 16) :
    removePaddingOption (pre ++ (encodeOptions options ++ post)) pre.length
        (encodeOptions options).length =
      some ((encodeOptions (withoutPadding options)).length,
        pre ++ (encodeOptions (withoutPadding options) ++ (leftover options ++ post))) := by
  rw [← Touching.removePaddingOption_result]
  exact (removePaddingOption_gives options pre post hlength).2

theorem options_of_removePaddingOption {packet : Bytes} {it length : Nat} {result : Nat × Bytes}
    (h : removePaddingOption packet it length = some result)
    (hlength : it + length ≤ packet.length) :
    ∃ options, (packet.drop it).take length = encodeOptions options := by
  unfold removePaddingOption at h
  obtain ⟨⟨last, packet'⟩, hloop, -⟩ := Option.bind_eq_some_iff.mp h
  obtain ⟨options, hoptions⟩ := options_of_removePadding _ hloop (by omega) hlength
  rw [Nat.add_sub_cancel_left] at hoptions
  exact ⟨options, hoptions⟩

theorem split_options {packet : Bytes} {it length : Nat} {options : List EdnsOption}
    (hlength : it + length ≤ packet.length)
    (hoptions : (packet.drop it).take length = encodeOptions options) :
    packet = packet.take it ++ (encodeOptions options ++ packet.drop (it + length)) ∧
      (packet.take it).length = it ∧ (encodeOptions options).length = length := by
  refine ⟨?_, by simp; omega, by rw [← hoptions]; simp; omega⟩
  rw [← hoptions, ← List.drop_drop, List.take_append_drop, List.take_append_drop]

/-- The loop ends, and stays within the data of the record that the walk has found,
exactly when the data is a list of options. -/
theorem removePaddingOption_stays_iff {packet : Bytes} {it length : Nat}
    (h : walk packet = some (some (it, length))) :
    ((Touching.removePaddingOption packet (it + 11) length).result.isSome = true ∧
      ∀ touch ∈ (Touching.removePaddingOption packet (it + 11) length).trace,
        touch.Stays (it + 11) (it + 11 + length)) ↔
      ∃ options, (packet.drop (it + 11)).take length = encodeOptions options := by
  obtain ⟨hroom, hshort⟩ := walk_eq_some h
  constructor
  · rintro ⟨hresult, -⟩
    rw [Touching.removePaddingOption_result] at hresult
    obtain ⟨result, hresult⟩ := Option.isSome_iff_exists.mp hresult
    exact options_of_removePaddingOption hresult hroom
  · rintro ⟨options, hoptions⟩
    obtain ⟨hpacket, hit, hlength⟩ := split_options hroom hoptions
    have hgives := removePaddingOption_gives options (packet.take (it + 11))
      (packet.drop (it + 11 + length)) (by omega)
    rw [← hpacket, hit, hlength] at hgives
    exact ⟨Option.isSome_of_eq_some hgives.2, hgives.1⟩

/-- An option that announces a byte of data where there is none. -/
def truncatedOption : Bytes := [0, 27, 0, 0, 1, 0, 0, 0, 0, 0, 0, 0, 0, 1,
  0, 0, 41, 0x10, 0, 0, 0, 0, 0, 0, 4, 0, 10, 0, 1]

def paddedOption : Bytes := [0, 35, 0, 0, 1, 0, 0, 0, 0, 0, 0, 0, 0, 1,
  0, 0, 41, 0x10, 0, 0, 0, 0, 0, 0, 12, 0, 10, 0, 2, 1, 2, 0, 12, 0, 2, 0, 0]

theorem removePaddingOption_stays_padded :
    walk paddedOption = some (some (14, 12)) ∧
      (Touching.removePaddingOption paddedOption 25 12).result.isSome = true ∧
      ∀ touch ∈ (Touching.removePaddingOption paddedOption 25 12).trace, touch.Stays 25 37 := by
  have hwalk : walk paddedOption = some (some (14, 12)) := by decide
  refine ⟨hwalk, (removePaddingOption_stays_iff hwalk).mpr ?_⟩
  exact ⟨[⟨10, [1, 2], by decide, by decide⟩, ⟨12, [0, 0], by decide, by decide⟩], by decide⟩

/-- The cursor passes its end, and the loop reads on behind the packet. -/
theorem removePaddingOption_not_stays :
    walk truncatedOption = some (some (14, 4)) ∧
      (Touching.removePaddingOption truncatedOption 25 4).result = none ∧
      .cursor 30 29 ∈ (Touching.removePaddingOption truncatedOption 25 4).trace ∧
      .read 32 ∈ (Touching.removePaddingOption truncatedOption 25 4).trace ∧
      ¬ ∀ touch ∈ (Touching.removePaddingOption truncatedOption 25 4).trace,
        touch.Stays 25 29 := by
  decide

end Dote.DnsPacket
