import Dote.Dns.DnsPacket

/-! The entries of the sections, as the walk takes them: what a whole name, a
whole query and a whole response are, and that the walk passes over them. -/
namespace Dote.DnsPacket

/-- A whole name: labels, and the root or a pointer behind them. -/
inductive IsName : Bytes → Prop
  | root : IsName [0]
  | pointer (byte next : UInt8) : byte &&& 0xc0 = 0xc0 → IsName [byte, next]
  | label (byte : UInt8) (text name : Bytes) : byte ≠ 0 → byte < 128 →
      text.length = byte.toNat → IsName name → IsName (byte :: (text ++ name))

def short (value : Nat) : Bytes := [UInt8.ofNat (value / 256), UInt8.ofNat value]

def IsQuery (query : Bytes) : Prop :=
  ∃ name fixed, IsName name ∧ fixed.length = 4 ∧ query = name ++ fixed

def IsResponse (response : Bytes) : Prop :=
  ∃ name fixed data, IsName name ∧ fixed.length = 8 ∧ data.length < 2 ^ 16 ∧
    response = name ++ (fixed ++ (short data.length ++ data))

def IsOpt (response : Bytes) : Prop := ∃ rest, response = 0 :: (short OPT ++ rest)

/-- Entries that follow one another, and what is left behind them. -/
inductive Whole (Entry : Bytes → Prop) : Nat → Bytes → Bytes → Prop
  | none (rest : Bytes) : Whole Entry 0 rest rest
  | entry {count : Nat} {entry bytes rest : Bytes} : Entry entry →
      Whole Entry count bytes rest → Whole Entry (count + 1) (entry ++ bytes) rest

theorem IsName.length_pos {name : Bytes} (h : IsName name) : 0 < name.length := by
  cases h with
  | root => simp
  | pointer => simp
  | label => simp

theorem IsQuery.length_pos {query : Bytes} (h : IsQuery query) : 0 < query.length := by
  obtain ⟨name, fixed, hname, -, rfl⟩ := h
  have hpos := hname.length_pos
  simp
  omega

theorem IsResponse.length_ge {response : Bytes} (h : IsResponse response) :
    11 ≤ response.length := by
  obtain ⟨name, fixed, data, hname, hfixed, -, rfl⟩ := h
  have hpos := hname.length_pos
  simp [short]
  omega

theorem Whole.length_le {Entry : Bytes → Prop} {count : Nat} {bytes rest : Bytes}
    (h : Whole Entry count bytes rest) : rest.length ≤ bytes.length := by
  induction h with
  | none => rfl
  | entry _ _ ih =>
    rw [List.length_append]
    omega

theorem Whole.one {Entry : Bytes → Prop} {bytes rest : Bytes} (h : Whole Entry 1 bytes rest) :
    ∃ entry, Entry entry ∧ bytes = entry ++ rest := by
  cases h with
  | entry hentry h =>
    cases h
    exact ⟨_, hentry, rfl⟩

section Drop

variable {packet first rest : Bytes} {it : Nat}

theorem length_of_drop (h : packet.drop it = first ++ rest) (hit : it ≤ packet.length) :
    it + first.length + rest.length = packet.length := by
  have hlength := congrArg List.length h
  rw [List.length_drop, List.length_append] at hlength
  omega

theorem drop_of_drop (h : packet.drop it = first ++ rest) :
    packet.drop (it + first.length) = rest := by
  rw [← List.drop_drop, h, List.drop_left]

theorem getElem?_of_drop (h : packet.drop it = first ++ rest) {i : Nat} (hi : i < first.length) :
    packet[it + i]? = first[i]? := by
  rw [← List.getElem?_drop, h, List.getElem?_append_left hi]

theorem lt_of_drop {byte : UInt8} (h : packet.drop it = byte :: rest) : it < packet.length := by
  by_contra hle
  rw [List.drop_eq_nil_of_le (by omega)] at h
  simp at h

theorem byte_of_drop {byte : UInt8} (h : packet.drop it = byte :: rest) :
    packet[it]? = some byte := by
  have h' : packet.drop it = [byte] ++ rest := h
  have hhead := getElem?_of_drop h' (i := 0) (by simp)
  simpa using hhead

theorem getShort_of_drop {value : Nat} (hvalue : value < 2 ^ 16)
    (h : packet.drop it = short value ++ rest) : getShort packet it = some value := by
  have hit : it < packet.length := lt_of_drop h
  have hlength := length_of_drop h (by omega)
  simp only [short, List.length_cons, List.length_nil] at hlength
  have hhigh := getElem?_of_drop h (i := 0) (by simp [short])
  have hlow := getElem?_of_drop h (i := 1) (by simp [short])
  unfold getShort shortAt
  rw [if_pos (by omega)]
  simp only [short, Nat.add_zero, List.getElem?_cons_zero, List.getElem?_cons_succ] at hhigh hlow
  simp only [List.getD_eq_getElem?_getD, hhigh, hlow, Option.getD_some, UInt8.toNat_ofNat']
  congr 1
  omega

theorem shortAt_of_drop {value : Nat} (hvalue : value < 2 ^ 16)
    (h : packet.drop it = short value ++ rest) : shortAt packet it = value := by
  have hshort := getShort_of_drop hvalue h
  unfold getShort at hshort
  split at hshort
  next => exact Option.some.inj hshort
  next => contradiction

theorem drop_of_getShort {value : Nat} (h : getShort packet it = some value) :
    value < 2 ^ 16 ∧ it + 1 < packet.length ∧
      packet.drop it = short value ++ packet.drop (it + 2) := by
  unfold getShort at h
  split at h
  next hlt =>
    have hit : it < packet.length := by omega
    have hhigh := packet[it].toNat_lt
    have hlow := packet[it + 1].toNat_lt
    have hvalue : value = packet[it].toNat * 256 + packet[it + 1].toNat := by
      cases h
      simp [shortAt, List.getD_eq_getElem?_getD, List.getElem?_eq_getElem hit,
        List.getElem?_eq_getElem hlt]
    refine ⟨by omega, hlt, ?_⟩
    rw [List.drop_eq_getElem_cons hit, List.drop_eq_getElem_cons hlt, short]
    have hdiv : value / 256 = packet[it].toNat := by omega
    have hbyte : UInt8.ofNat value = packet[it + 1] := by
      apply UInt8.toNat_inj.mp
      rw [UInt8.toNat_ofNat']
      omega
    rw [hdiv, hbyte, UInt8.ofNat_toNat]
    rfl
  next => contradiction

end Drop

theorem isOpt_response {packet response rest : Bytes} {it : Nat} (hresponse : IsResponse response)
    (h : packet.drop it = response ++ rest) :
    ∃ opt, isOpt packet it = some opt ∧ (opt = true ↔ IsOpt response) := by
  have hlength := hresponse.length_ge
  match response, hlength with
  | byte :: high :: low :: response, hlength =>
    have hit := lt_of_drop h
    have hroom := length_of_drop h (by omega)
    simp only [List.length_cons] at hroom hlength
    unfold isOpt
    rw [byte_of_drop h]
    simp only [Option.bind_eq_bind, Option.bind_some]
    by_cases hbyte : byte = 0
    · subst hbyte
      have h' : packet.drop it = [0] ++ ([high, low] ++ (response ++ rest)) := h
      have htype := drop_of_drop h'
      simp only [List.length_singleton] at htype
      obtain ⟨value, hvalue⟩ : ∃ value, getShort packet (it + 1) = some value :=
        ⟨_, if_pos (by omega)⟩
      have hfar : ¬ distance packet it < 11 := by
        unfold distance
        omega
      rw [if_neg (by simp [hfar]), hvalue]
      refine ⟨decide (value = OPT), rfl, ?_⟩
      rw [decide_eq_true_iff]
      constructor
      · rintro rfl
        obtain ⟨-, -, hshort⟩ := drop_of_getShort hvalue
        rw [hshort] at htype
        obtain ⟨heq, -⟩ := List.append_inj htype rfl
        exact ⟨response, by rw [heq]; rfl⟩
      · rintro ⟨response', hopt⟩
        have htail : [high, low] ++ response = short OPT ++ response' := (List.cons.inj hopt).2
        obtain ⟨heq, -⟩ := List.append_inj htail rfl
        rw [heq] at htype
        have hopt := getShort_of_drop (by decide) htype
        rw [hvalue] at hopt
        exact Option.some.inj hopt
    · refine ⟨false, ?_, ?_⟩
      · rw [if_pos (.inl hbyte)]
        rfl
      · simp only [Bool.false_eq_true, false_iff]
        rintro ⟨response', hopt⟩
        exact hbyte (List.cons.inj hopt).1

theorem and_ne_of_lt {byte : UInt8} (h : byte < 128) : byte &&& 0xc0 ≠ 0xc0 := by
  intro heq
  have hle : (byte &&& 0xc0).toNat ≤ byte.toNat := by
    rw [UInt8.toNat_and]
    exact Nat.and_le_left
  rw [heq] at hle
  have hlt : byte.toNat < 128 := h
  simp at hle
  omega

theorem ne_zero_of_and {byte : UInt8} (h : byte &&& 0xc0 = 0xc0) : byte ≠ 0 := by
  rintro rfl
  simp at h

theorem toUnsigned_distance {packet : Bytes} {it : Nat} (hit : it ≤ packet.length)
    (hsize : packet.length < 2 ^ 63) : toUnsigned (distance packet it) = packet.length - it := by
  unfold toUnsigned distance
  omega

variable {packet : Bytes}

theorem skipLabels_name {name : Bytes} (hname : IsName name) : ∀ {fuel it : Nat} {rest : Bytes},
    packet.drop it = name ++ rest → packet.length < it + fuel →
      skipLabels packet fuel it = some (it + name.length) := by
  induction hname with
  | root =>
    intro fuel it rest h hfuel
    have hit := lt_of_drop h
    cases fuel with
    | zero => omega
    | succ fuel =>
      rw [skipLabels, if_neg (by omega), byte_of_drop h]
      simp
  | pointer byte next hbits =>
    intro fuel it rest h hfuel
    have hit := lt_of_drop h
    cases fuel with
    | zero => omega
    | succ fuel =>
      rw [skipLabels, if_neg (by omega), byte_of_drop h]
      simp [ne_zero_of_and hbits, hbits]
  | label byte text name hzero hbyte htext hname ih =>
    intro fuel it rest h hfuel
    have hit := lt_of_drop h
    have hlength := length_of_drop h (by omega)
    have hpos := hname.length_pos
    simp only [List.length_cons, List.length_append] at hlength
    have hstep : labelStep byte = (byte :: text).length := by
      simp [labelStep, hbyte, htext]
    cases fuel with
    | zero => omega
    | succ fuel =>
      rw [skipLabels, if_neg (by omega), byte_of_drop h]
      simp only [Option.bind_eq_bind, Option.bind_some, if_neg hzero, if_neg (and_ne_of_lt hbyte)]
      rw [if_pos (by rw [hstep]; unfold distance; simp; omega), hstep]
      have hnext : packet.drop (it + (byte :: text).length) = name ++ rest :=
        drop_of_drop (by simpa using h)
      rw [ih hnext (by simp; omega)]
      simp
      omega

theorem skipName_name {name rest : Bytes} {it : Nat} (hname : IsName name)
    (h : packet.drop it = name ++ rest) : skipName packet it = some (it + name.length) :=
  skipLabels_name hname h (by omega)

theorem loop_whole {Entry : Bytes → Prop} {loop : Nat → Nat → Option Nat}
    (hzero : ∀ it, loop 0 it = some it)
    (hentry : ∀ entry rest it count, Entry entry → packet.drop it = entry ++ rest →
      loop (count + 1) it = loop count (it + entry.length))
    {count : Nat} {bytes rest : Bytes} (h : Whole Entry count bytes rest) :
    ∀ {it : Nat}, it ≤ packet.length → packet.drop it = bytes →
      ∃ it', loop count it = some it' ∧ it' ≤ packet.length ∧ packet.drop it' = rest := by
  induction h with
  | none rest => exact fun hit h => ⟨_, hzero _, hit, h⟩
  | entry hfirst _ ih =>
    intro it hit h
    have hlength := length_of_drop h hit
    rw [hentry _ _ it _ hfirst h]
    exact ih (by omega) (drop_of_drop h)

variable (hsize : packet.length < 2 ^ 63)
include hsize

theorem skipFixed_of_drop {fixed rest : Bytes} {it : Nat} (hit : it ≤ packet.length)
    (h : packet.drop it = fixed ++ rest) :
    skipFixed packet it fixed.length = it + fixed.length := by
  have hlength := length_of_drop h hit
  unfold skipFixed
  rw [toUnsigned_distance hit hsize]
  split
  next => rfl
  next => omega

theorem skipQueries_entry {query rest : Bytes} {it : Nat} (hquery : IsQuery query)
    (h : packet.drop it = query ++ rest) (count : Nat) :
    skipQueries packet (count + 1) it = skipQueries packet count (it + query.length) := by
  obtain ⟨name, fixed, hname, hfixed, rfl⟩ := hquery
  rw [List.append_assoc] at h
  have hpos := hname.length_pos
  have hlength := congrArg List.length h
  simp only [List.length_drop, List.length_append] at hlength
  have hskip := skipFixed_of_drop hsize (by omega) (drop_of_drop h)
  rw [hfixed] at hskip
  rw [skipQueries, if_neg (by omega), skipName_name hname h]
  simp only [Option.bind_eq_bind, Option.bind_some, hskip, List.length_append, hfixed]
  rw [Nat.add_assoc]

theorem skipResponses_entry {response rest : Bytes} {it : Nat} (hresponse : IsResponse response)
    (h : packet.drop it = response ++ rest) (count : Nat) :
    skipResponses packet (count + 1) it = skipResponses packet count (it + response.length) := by
  obtain ⟨name, fixed, data, hname, hfixed, hdata, rfl⟩ := hresponse
  simp only [List.append_assoc] at h
  have hpos := hname.length_pos
  have hlength := congrArg List.length h
  simp only [List.length_drop, List.length_append, short, List.length_cons, List.length_nil]
    at hlength
  have hrest := drop_of_drop h
  have hskip := skipFixed_of_drop hsize (by omega) hrest
  have hshort := getShort_of_drop hdata (drop_of_drop hrest)
  rw [hfixed] at hskip hshort
  rw [skipResponses, if_neg (by omega), skipName_name hname h]
  simp only [Option.bind_eq_bind, Option.bind_some, hskip]
  rw [toUnsigned_distance (by omega) hsize, if_pos (by omega), hshort, Option.bind_some,
    if_pos (by unfold distance; omega)]
  congr 1
  simp [short]
  omega

theorem skipQueries_whole {count it : Nat} {bytes rest : Bytes}
    (h : Whole IsQuery count bytes rest) (hit : it ≤ packet.length)
    (hbytes : packet.drop it = bytes) :
    ∃ it', skipQueries packet count it = some it' ∧ it' ≤ packet.length ∧
      packet.drop it' = rest := by
  apply loop_whole (fun _ => rfl) _ h hit hbytes
  exact fun _ _ _ count hquery hrest => skipQueries_entry hsize hquery hrest count

theorem skipResponses_whole {count it : Nat} {bytes rest : Bytes}
    (h : Whole IsResponse count bytes rest) (hit : it ≤ packet.length)
    (hbytes : packet.drop it = bytes) :
    ∃ it', skipResponses packet count it = some it' ∧ it' ≤ packet.length ∧
      packet.drop it' = rest := by
  apply loop_whole (fun _ => rfl) _ h hit hbytes
  exact fun _ _ _ count hresponse hrest => skipResponses_entry hsize hresponse hrest count

end Dote.DnsPacket
