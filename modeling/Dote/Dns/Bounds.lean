import Dote.Dns.Entry
import Dote.Dns.Walk
import Dote.Library.Logged

/-! Where the walk over the sections gets to. The packet comes from the network,
and its counts and lengths are anything. -/
namespace Dote.DnsPacket
open Dote.Library

inductive Access
  | read (index : Nat)
  | iterator (it : Nat)
deriving DecidableEq, Repr

def Access.Inside (packet : Bytes) : Access → Prop
  | read index => index < packet.length
  | iterator it => it ≤ packet.length

instance (packet : Bytes) : (access : Access) → Decidable (access.Inside packet)
  | .read index => inferInstanceAs (Decidable (index < packet.length))
  | .iterator it => inferInstanceAs (Decidable (it ≤ packet.length))

/-! The functions of the walk, with every byte that they read and every iterator
that they come to. -/
namespace Traced

def reached (it : Nat) : Logged Access Nat := .log (.iterator it) (some it)

def byteAt (packet : Bytes) (it : Nat) : Logged Access UInt8 := .log (.read it) packet[it]?

def getShort (packet : Bytes) (it : Nat) : Logged Access Nat :=
  ⟨[.read it, .read (it + 1)], DnsPacket.getShort packet it⟩

def skipLabels (packet : Bytes) : Nat → Nat → Logged Access Nat
  | 0, _ => ⟨[], none⟩
  | fuel + 1, current =>
    if current = packet.length then reached current
    else do
      let byte ← byteAt packet current
      if byte = 0 then reached (current + 1)
      else if byte &&& 0xc0 = 0xc0 then reached (current + 2)
      else if distance packet current > labelStep byte then
        let current ← reached (current + labelStep byte)
        skipLabels packet fuel current
      else reached packet.length

def skipName (packet : Bytes) (current : Nat) : Logged Access Nat :=
  skipLabels packet (packet.length + 1) current

def skipFixed (packet : Bytes) (current length : Nat) : Logged Access Nat :=
  reached (DnsPacket.skipFixed packet current length)

def skipQuery (packet : Bytes) (it : Nat) : Logged Access Nat := do
  let it ← skipName packet it
  skipFixed packet it 4

def skipResponse (packet : Bytes) (it : Nat) : Logged Access Nat := do
  let it ← skipName packet it
  let it ← skipFixed packet it 8
  if toUnsigned (distance packet it) ≥ 2 then
    let length ← getShort packet it
    let it ← reached (it + 2)
    reached (if distance packet it ≥ length then it + length else packet.length)
  else reached packet.length

/-- The loop of `skipQueries` and of `skipResponses`. -/
def skipEntries (packet : Bytes) (skip : Nat → Logged Access Nat) : Nat → Nat → Logged Access Nat
  | 0, it => reached it
  | count + 1, it =>
    if it = packet.length then reached it
    else do
      let it ← skip it
      skipEntries packet skip count it

def skipQueries (packet : Bytes) : Nat → Nat → Logged Access Nat :=
  skipEntries packet (skipQuery packet)

def skipResponses (packet : Bytes) : Nat → Nat → Logged Access Nat :=
  skipEntries packet (skipResponse packet)

def isOpt (packet : Bytes) (it : Nat) : Logged Access Bool := do
  let byte ← byteAt packet it
  if byte ≠ 0 ∨ distance packet it < 11 then pure false
  else
    let type ← getShort packet (it + 1)
    pure (type = OPT)

def findOpt (packet : Bytes) : Nat → Nat → Logged Access (Option (Nat × Nat))
  | 0, _ => pure none
  | count + 1, it =>
    if it = packet.length then pure none
    else do
      if ← isOpt packet it then
        let length ← getShort packet (it + 9)
        if distance packet it ≥ length + 11 then pure (some (it, length))
        else findOpt packet count it
      else
        let it ← skipResponses packet 1 it
        findOpt packet count it

def walk (packet : Bytes) : Logged Access (Option (Nat × Nat)) :=
  match getHeader packet with
  | none => pure none
  | some header => do
    let it ← skipQueries packet header.queries headerSize
    let it ← skipResponses packet header.answers it
    let it ← skipResponses packet header.authorities it
    findOpt packet header.additional it

@[simp] theorem result_reached (it : Nat) : (reached it).result = some it := rfl

@[simp] theorem result_byteAt (packet : Bytes) (it : Nat) :
    (byteAt packet it).result = packet[it]? := rfl

@[simp] theorem result_getShort (packet : Bytes) (it : Nat) :
    (getShort packet it).result = DnsPacket.getShort packet it := rfl

theorem skipLabels_result (packet : Bytes) (fuel : Nat) : ∀ it,
    (skipLabels packet fuel it).result = DnsPacket.skipLabels packet fuel it := by
  induction fuel with
  | zero => exact fun _ => rfl
  | succ fuel ih =>
    intro it
    unfold skipLabels DnsPacket.skipLabels
    simp [Logged.result_ite, ih]

theorem skipName_result (packet : Bytes) (it : Nat) :
    (skipName packet it).result = DnsPacket.skipName packet it := skipLabels_result packet _ it

theorem skipQueries_result (packet : Bytes) (count : Nat) : ∀ it,
    (skipQueries packet count it).result = DnsPacket.skipQueries packet count it := by
  induction count with
  | zero => exact fun _ => rfl
  | succ count ih =>
    intro it
    unfold skipQueries at ih
    unfold skipQueries skipEntries DnsPacket.skipQueries
    simp [Logged.result_ite, skipQuery, skipFixed, skipName_result, ih,
      Option.bind_assoc]

theorem skipResponses_result (packet : Bytes) (count : Nat) : ∀ it,
    (skipResponses packet count it).result = DnsPacket.skipResponses packet count it := by
  induction count with
  | zero => exact fun _ => rfl
  | succ count ih =>
    intro it
    unfold skipResponses at ih
    unfold skipResponses skipEntries DnsPacket.skipResponses
    rw [Logged.result_ite]
    congr 1
    simp only [Logged.result_bind, skipResponse, skipFixed, skipName_result, result_reached,
      Option.bind_eq_bind, Option.bind_assoc, Option.bind_some, Logged.result_ite]
    congr 1
    ext1 it
    split
    next => simp [Option.bind_assoc, ih]
    next => simp [ih]

theorem isOpt_result (packet : Bytes) (it : Nat) :
    (isOpt packet it).result = DnsPacket.isOpt packet it := by
  unfold isOpt DnsPacket.isOpt
  simp [Logged.result_ite]

theorem findOpt_result (packet : Bytes) (count : Nat) : ∀ it,
    (findOpt packet count it).result = DnsPacket.findOpt packet count it := by
  induction count with
  | zero => exact fun _ => rfl
  | succ count ih =>
    intro it
    unfold findOpt DnsPacket.findOpt
    simp [Logged.result_ite, isOpt_result, skipResponses_result, ih]

/-- What is traced is the walk. -/
theorem walk_result (packet : Bytes) : (walk packet).result = DnsPacket.walk packet := by
  unfold walk DnsPacket.walk
  cases getHeader packet with
  | none => rfl
  | some header => simp [skipQueries_result, skipResponses_result, findOpt_result]

end Traced

inductive CutName : Bytes → Prop
  | pointer (byte : UInt8) : byte &&& 0xc0 = 0xc0 → CutName [byte]
  | label (byte : UInt8) (text name : Bytes) : byte ≠ 0 → byte < 128 →
      text.length = byte.toNat → CutName name → CutName (byte :: (text ++ name))

/-- Fewer than `count` whole entries, and a name that ends within its pointer. -/
inductive Cut (Entry : Bytes → Prop) : Nat → Bytes → Prop
  | name (count : Nat) {name : Bytes} : CutName name → Cut Entry (count + 1) name
  | entry {count : Nat} {entry bytes : Bytes} : Entry entry → Cut Entry count bytes →
      Cut Entry (count + 1) (entry ++ bytes)

def CutSections : List ((Bytes → Prop) × Nat) → Bytes → Prop
  | [], _ => False
  | (Entry, count) :: sections, bytes =>
    Cut Entry count bytes ∨ ∃ rest, Whole Entry count bytes rest ∧ CutSections sections rest

/-- The packet ends within the pointer of a name that the walk comes to. The walk
goes no further than to the first OPT record. -/
def CutPacket (packet : Bytes) : Prop :=
  ∃ header, getHeader packet = some header ∧
    CutSections [(IsQuery, header.queries), (IsResponse, header.answers),
      (IsResponse, header.authorities),
      (fun response => IsResponse response ∧ ¬ IsOpt response, header.additional)]
      (packet.drop headerSize)

theorem CutName.ne_nil {name : Bytes} (h : CutName name) : name ≠ [] := by
  cases h with
  | pointer => simp
  | label => simp

theorem CutName.head_ne {name : Bytes} (h : CutName name) {byte : UInt8} {rest : Bytes}
    (hname : name = byte :: rest) : byte ≠ 0 := by
  cases h with
  | pointer byte' hbits =>
    cases hname
    exact ne_zero_of_and hbits
  | label byte' text name hzero =>
    cases hname
    exact hzero

theorem Cut.mono {Entry : Bytes → Prop} {count : Nat} {bytes : Bytes} (h : Cut Entry count bytes) :
    Cut Entry (count + 1) bytes := by
  induction h with
  | name count h => exact .name _ h
  | entry h _ ih => exact .entry h ih

theorem Cut.name_of_one {Entry : Bytes → Prop} {bytes : Bytes} (h : Cut Entry 1 bytes) :
    CutName bytes := by
  cases h with
  | name _ h => exact h
  | entry _ h => cases h

theorem Cut.ne_nil {Entry : Bytes → Prop} {count : Nat} {bytes : Bytes}
    (h : Cut Entry count bytes) : bytes ≠ [] := by
  induction h with
  | name _ h => exact h.ne_nil
  | entry _ _ ih => exact List.append_ne_nil_of_right_ne_nil _ ih

theorem not_cutSections_nil : ∀ sections, ¬ CutSections sections [] := by
  intro sections
  induction sections with
  | nil => exact id
  | cons head sections ih =>
    rintro (h | ⟨rest, hwhole, h⟩)
    · exact h.ne_nil rfl
    · have hlength := hwhole.length_le
      have hnil : rest = [] := List.eq_nil_of_length_eq_zero (by simpa using hlength)
      rw [hnil] at h
      exact ih h

/-! What the walk does without a name that is cut off. -/

def Passed (packet : Bytes) (Entry : Bytes → Prop) (it it' : Nat) : Prop :=
  it' = packet.length ∨ it' ≤ packet.length ∧
    ∃ entry, Entry entry ∧ packet.drop it = entry ++ packet.drop it'

theorem Passed.le {packet : Bytes} {Entry : Bytes → Prop} {it it' : Nat}
    (h : Passed packet Entry it it') : it' ≤ packet.length := by
  cases h with
  | inl h => exact h.le
  | inr h => exact h.1

theorem Passed.mono {packet : Bytes} {A B : Bytes → Prop} {it it' : Nat}
    (h : Passed packet A it it') (hAB : ∀ entry, A entry → B entry) : Passed packet B it it' := by
  cases h with
  | inl h => exact .inl h
  | inr h =>
    obtain ⟨hle, entry, hentry, hdrop⟩ := h
    exact .inr ⟨hle, entry, hAB entry hentry, hdrop⟩

theorem passed_end {packet : Bytes} {Entry : Bytes → Prop} {it : Nat}
    (h : Passed packet Entry packet.length it) : it = packet.length := by
  cases h with
  | inl h => exact h
  | inr h =>
    obtain ⟨hle, entry, -, hdrop⟩ := h
    rw [List.drop_length] at hdrop
    have hnil := (List.append_eq_nil_iff.mp hdrop.symm).2
    rw [List.drop_eq_nil_iff] at hnil
    omega

theorem Passed.trans {packet : Bytes} {A B C : Bytes → Prop} {it it' it'' : Nat}
    (h : Passed packet A it it') (h' : Passed packet B it' it'')
    (hC : ∀ a b, A a → B b → C (a ++ b)) : Passed packet C it it'' := by
  cases h with
  | inl h =>
    rw [h] at h'
    exact .inl (passed_end h')
  | inr h =>
    cases h' with
    | inl h' => exact .inl h'
    | inr h' =>
      obtain ⟨-, first, hfirst, hdrop⟩ := h
      obtain ⟨hle, second, hsecond, hdrop'⟩ := h'
      refine .inr ⟨hle, first ++ second, hC _ _ hfirst hsecond, ?_⟩
      rw [hdrop, hdrop', List.append_assoc]

/-- At the end of the packet, or behind the entries of a section. -/
def Walked (packet : Bytes) (Entry : Bytes → Prop) (count it it' : Nat) : Prop :=
  it' = packet.length ∨
    it' ≤ packet.length ∧ Whole Entry count (packet.drop it) (packet.drop it')

theorem Walked.le {packet : Bytes} {Entry : Bytes → Prop} {count it it' : Nat}
    (h : Walked packet Entry count it it') : it' ≤ packet.length := by
  cases h with
  | inl h => exact h.le
  | inr h => exact h.1

theorem Walked.not_cut {packet : Bytes} {Entry : Bytes → Prop} {count it it' : Nat}
    {sections : List ((Bytes → Prop) × Nat)} (h : Walked packet Entry count it it')
    (hcut : ¬ CutSections ((Entry, count) :: sections) (packet.drop it)) :
    ¬ CutSections sections (packet.drop it') := by
  intro hsections
  cases h with
  | inl h =>
    rw [h, List.drop_length] at hsections
    exact not_cutSections_nil sections hsections
  | inr h => exact hcut (.inr ⟨_, h.2, hsections⟩)

theorem passed_range {packet : Bytes} {it length : Nat} (hlength : it + length ≤ packet.length) :
    Passed packet (fun range => range.length = length) it (it + length) := by
  refine .inr ⟨hlength, (packet.drop it).take length, ?_, ?_⟩
  · simp
    omega
  · rw [← List.drop_drop, List.take_append_drop]

theorem within_reached {packet : Bytes} {it : Nat} {Q : Nat → Prop} (hit : it ≤ packet.length)
    (h : Q it) : (Traced.reached it).Within (Access.Inside packet) Q := by
  apply Logged.within_log (show (Access.iterator it).Inside packet from hit)
  intro it' hit'
  cases hit'
  exact h

theorem within_getShort {packet : Bytes} {it : Nat} {Q : Nat → Prop} (hit : it + 1 < packet.length)
    (h : ∀ value, getShort packet it = some value → Q value) :
    (Traced.getShort packet it).Within (Access.Inside packet) Q := by
  refine ⟨?_, h⟩
  intro access haccess
  simp only [Traced.getShort, List.mem_cons, List.not_mem_nil, or_false] at haccess
  cases haccess with
  | inl h =>
    rw [h]
    exact (by omega : it < packet.length)
  | inr h =>
    rw [h]
    exact hit

theorem skipData_within {it : Nat} (hit : it + 2 ≤ packet.length) :
    (do
      let length ← Traced.getShort packet it
      let it ← Traced.reached (it + 2)
      Traced.reached (if distance packet it ≥ length then it + length else packet.length)
        : Logged Access Nat).Within (Access.Inside packet) (Passed packet
          (fun bytes => ∃ data : Bytes, data.length < 2 ^ 16 ∧
            bytes = short data.length ++ data) it) := by
  refine (within_getShort hit fun _ h => h).bind ?_
  intro length hlength
  obtain ⟨hlt, -, hdrop⟩ := drop_of_getShort hlength
  refine (within_reached (Q := (· = it + 2)) hit rfl).bind ?_
  rintro _ rfl
  have hshort : Passed packet (fun bytes => bytes = short length) it (it + 2) :=
    .inr ⟨hit, short length, rfl, hdrop⟩
  split
  next hroom =>
    unfold distance at hroom
    apply within_reached (by omega)
    apply hshort.trans (passed_range (by omega))
    rintro _ data rfl hdata
    exact ⟨data, by omega, by rw [hdata]⟩
  next => exact within_reached (le_refl _) (.inl rfl)

theorem skipEntries_within {packet : Bytes} {Entry : Bytes → Prop}
    {skip : Nat → Logged Access Nat}
    (hskip : ∀ it, it ≤ packet.length → ¬ CutName (packet.drop it) →
      (skip it).Within (Access.Inside packet) (Passed packet Entry it)) (count : Nat) :
    ∀ it, it ≤ packet.length → ¬ Cut Entry count (packet.drop it) →
      (Traced.skipEntries packet skip count it).Within (Access.Inside packet)
        (Walked packet Entry count it) := by
  induction count with
  | zero => exact fun it hit _ => within_reached hit (.inr ⟨hit, .none _⟩)
  | succ count ih =>
    intro it hit hcut
    unfold Traced.skipEntries
    split
    next hend => exact within_reached hit (.inl hend)
    next =>
      apply (hskip it hit fun h => hcut (.name count h)).bind
      intro it' hpassed
      have hcut' : ¬ Cut Entry count (packet.drop it') := by
        intro h
        cases hpassed with
        | inl hend =>
          rw [hend, List.drop_length] at h
          exact h.ne_nil rfl
        | inr hpassed =>
          obtain ⟨-, entry, hentry, hdrop⟩ := hpassed
          rw [hdrop] at hcut
          exact hcut (.entry hentry h)
      apply (ih it' hpassed.le hcut').mono
      intro it'' hwalked
      cases hwalked with
      | inl h => exact .inl h
      | inr h =>
        cases hpassed with
        | inl hend =>
          have hlength := h.2.length_le
          rw [hend, List.drop_length, List.length_nil, List.length_drop] at hlength
          have hle := h.1
          exact .inl (by omega)
        | inr hpassed =>
          obtain ⟨-, entry, hentry, hdrop⟩ := hpassed
          rw [Walked, hdrop]
          exact .inr ⟨h.1, .entry hentry h.2⟩

section Within

variable {packet : Bytes} (hsize : packet.length < 2 ^ 32 - 256)

include hsize

theorem exists_label {it : Nat} (hit : it < packet.length)
    (hroom : distance packet it > labelStep packet[it]) :
    ∃ text : Bytes, packet[it] < 128 ∧ text.length = packet[it].toNat ∧
      labelStep packet[it] = text.length + 1 ∧ it + labelStep packet[it] ≤ packet.length ∧
      packet.drop it = packet[it] :: (text ++ packet.drop (it + labelStep packet[it])) := by
  have hbyte : packet[it] < 128 := by
    by_contra hbyte
    unfold distance labelStep at hroom
    rw [if_neg hbyte] at hroom
    rw [UInt8.not_lt] at hbyte
    have hlow : 128 ≤ packet[it].toNat := hbyte
    omega
  have hstep : labelStep packet[it] = packet[it].toNat + 1 := by rw [labelStep, if_pos hbyte]
  rw [hstep] at hroom ⊢
  unfold distance at hroom
  have hrest := List.take_append_drop packet[it].toNat (packet.drop (it + 1))
  rw [List.drop_drop, Nat.add_assoc, Nat.add_comm 1] at hrest
  have htext : ((packet.drop (it + 1)).take packet[it].toNat).length = packet[it].toNat := by
    simp
    omega
  refine ⟨_, hbyte, htext, by omega, by omega, ?_⟩
  rw [hrest]
  exact List.drop_eq_getElem_cons hit

theorem skipLabels_within (fuel : Nat) : ∀ {it : Nat}, it ≤ packet.length →
    packet.length < it + fuel → ¬ CutName (packet.drop it) →
      (Traced.skipLabels packet fuel it).Within (Access.Inside packet)
        (Passed packet IsName it) := by
  induction fuel with
  | zero =>
    intro it hit hfuel
    omega
  | succ fuel ih =>
    intro it hit hfuel hcut
    unfold Traced.skipLabels
    split
    next hend => exact within_reached hit (.inl hend)
    next hend =>
      have hlt : it < packet.length := by omega
      have hdrop := List.drop_eq_getElem_cons hlt
      have hread : (Traced.byteAt packet it).Within (Access.Inside packet)
          (fun byte => byte = packet[it]) := by
        apply Logged.within_log (show (Access.read it).Inside packet from hlt)
        intro byte hbyte
        rw [List.getElem?_eq_getElem hlt] at hbyte
        cases hbyte
        rfl
      apply hread.bind
      rintro byte rfl
      split
      next hzero =>
        rw [hzero] at hdrop
        exact within_reached (by omega) (.inr ⟨by omega, [0], .root, hdrop⟩)
      next hzero =>
        split
        next hbits =>
          have hnext : it + 1 < packet.length := by
            by_contra hlast
            rw [List.drop_eq_nil_of_le (by omega : packet.length ≤ it + 1)] at hdrop
            rw [hdrop] at hcut
            exact hcut (.pointer _ hbits)
          rw [List.drop_eq_getElem_cons hnext] at hdrop
          exact within_reached (by omega) (.inr ⟨by omega, _, .pointer _ _ hbits, hdrop⟩)
        next hbits =>
          split
          next hroom =>
            obtain ⟨text, hbyte, htext, hstep, hnext, hlabel⟩ := exists_label hsize hlt hroom
            refine (within_reached (Q := (· = it + labelStep packet[it])) hnext rfl).bind ?_
            rintro _ rfl
            apply (ih hnext (by omega) _).mono
            · intro it' hit'
              cases hit' with
              | inl h => exact .inl h
              | inr h =>
                obtain ⟨hle, name, hname, hrest⟩ := h
                refine .inr ⟨hle, _, .label _ _ _ hzero hbyte htext hname, ?_⟩
                rw [hlabel, hrest]
                simp
            · intro hname
              rw [hlabel] at hcut
              exact hcut (.label _ _ _ hzero hbyte htext hname)
          next => exact within_reached (le_refl _) (.inl rfl)

theorem skipName_within {it : Nat} (hit : it ≤ packet.length) (hcut : ¬ CutName (packet.drop it)) :
    (Traced.skipName packet it).Within (Access.Inside packet) (Passed packet IsName it) :=
  skipLabels_within hsize _ hit (by omega) hcut

theorem skipFixed_within {it : Nat} (hit : it ≤ packet.length) (length : Nat) :
    (Traced.skipFixed packet it length).Within (Access.Inside packet)
      (Passed packet (fun fixed => fixed.length = length) it) := by
  unfold Traced.skipFixed skipFixed
  rw [toUnsigned_distance hit (hsize.trans (by decide))]
  split
  next hroom => exact within_reached (by omega) (passed_range (by omega))
  next => exact within_reached (le_refl _) (.inl rfl)

theorem skipQuery_within {it : Nat} (hit : it ≤ packet.length)
    (hcut : ¬ CutName (packet.drop it)) :
    (Traced.skipQuery packet it).Within (Access.Inside packet) (Passed packet IsQuery it) := by
  unfold Traced.skipQuery
  apply (skipName_within hsize hit hcut).bind
  intro it' hname
  apply (skipFixed_within hsize hname.le 4).mono
  intro it'' hfixed
  apply hname.trans hfixed
  exact fun name fixed hname hfixed => ⟨name, fixed, hname, hfixed, rfl⟩

theorem skipResponse_within {it : Nat} (hit : it ≤ packet.length)
    (hcut : ¬ CutName (packet.drop it)) :
    (Traced.skipResponse packet it).Within (Access.Inside packet)
      (Passed packet IsResponse it) := by
  unfold Traced.skipResponse
  apply (skipName_within hsize hit hcut).bind
  intro it₁ hname
  apply (skipFixed_within hsize hname.le 8).bind
  intro it₂ hfixed
  rw [toUnsigned_distance hfixed.le (hsize.trans (by decide))]
  split
  next hroom =>
    apply (skipData_within (by omega)).mono
    intro it₃ hdata
    have hrest : Passed packet (fun rest => ∃ fixed data : Bytes, fixed.length = 8 ∧
        data.length < 2 ^ 16 ∧ rest = fixed ++ (short data.length ++ data)) it₁ it₃ := by
      apply hfixed.trans hdata
      rintro fixed _ hfixed ⟨data, hdata, rfl⟩
      exact ⟨fixed, data, hfixed, hdata, rfl⟩
    apply hname.trans hrest
    rintro name _ hname ⟨fixed, data, hfixed, hdata, rfl⟩
    exact ⟨name, fixed, data, hname, hfixed, hdata, rfl⟩
  next => exact within_reached (le_refl _) (.inl rfl)

theorem skipQueries_within (count : Nat) {it : Nat} (hit : it ≤ packet.length)
    (hcut : ¬ Cut IsQuery count (packet.drop it)) :
    (Traced.skipQueries packet count it).Within (Access.Inside packet)
      (Walked packet IsQuery count it) :=
  skipEntries_within (fun _ => skipQuery_within hsize) count it hit hcut

theorem skipResponses_within (count : Nat) {it : Nat} (hit : it ≤ packet.length)
    (hcut : ¬ Cut IsResponse count (packet.drop it)) :
    (Traced.skipResponses packet count it).Within (Access.Inside packet)
      (Walked packet IsResponse count it) :=
  skipEntries_within (fun _ => skipResponse_within hsize) count it hit hcut

omit hsize in
theorem isOpt_within {it : Nat} (hit : it < packet.length) :
    (Traced.isOpt packet it).Within (Access.Inside packet) fun opt =>
      isOpt packet it = some opt ∧ (opt = true → it + 11 ≤ packet.length) := by
  rw [← Traced.isOpt_result]
  apply Logged.Within.result
  unfold Traced.isOpt
  refine (Logged.within_log (Q := fun _ => True) ?_ fun _ _ => trivial).bind ?_
  · exact hit
  · intro byte _
    split
    next => exact Logged.within_pure fun h => absurd h Bool.false_ne_true
    next hnear =>
      rw [not_or] at hnear
      unfold distance at hnear
      have hroom : it + 11 ≤ packet.length := by omega
      refine (within_getShort (Q := fun _ => True) (by omega) fun _ _ => trivial).bind ?_
      exact fun type _ => Logged.within_pure fun _ => hroom

theorem findOpt_within (count : Nat) : ∀ {it : Nat}, it ≤ packet.length →
    ¬ Cut (fun response => IsResponse response ∧ ¬ IsOpt response) count (packet.drop it) →
      (Traced.findOpt packet count it).Within (Access.Inside packet) fun _ => True := by
  induction count with
  | zero => exact fun _ _ => Logged.within_pure trivial
  | succ count ih =>
    intro it hit hcut
    unfold Traced.findOpt
    split
    next => exact Logged.within_pure trivial
    next hend =>
      apply (isOpt_within (by omega)).bind
      rintro opt ⟨hopt, hroom⟩
      cases opt with
      | true =>
        have hroom := hroom rfl
        rw [if_pos rfl]
        refine (within_getShort (Q := fun _ => True) (by omega) fun _ _ => trivial).bind ?_
        intro length _
        split
        next => exact Logged.within_pure trivial
        next => exact ih hit fun h => hcut h.mono
      | false =>
        rw [if_neg Bool.false_ne_true]
        apply (skipResponses_within hsize 1 hit fun h => hcut (.name count h.name_of_one)).bind
        intro it' hskip
        apply ih
        · exact hskip.le
        · intro hcut'
          cases hskip with
          | inl h =>
            rw [h, List.drop_length] at hcut'
            exact hcut'.ne_nil rfl
          | inr h =>
            obtain ⟨-, hwhole⟩ := h
            obtain ⟨response, hresponse, hdrop⟩ := hwhole.one
            obtain ⟨opt', hopt', hiff⟩ := isOpt_response hresponse hdrop
            rw [hopt] at hopt'
            cases hopt'
            rw [hdrop] at hcut
            exact hcut (.entry ⟨hresponse, fun h => absurd (hiff.mpr h) Bool.false_ne_true⟩ hcut')

end Within

theorem walk_within {packet : Bytes} (hcut : ¬ CutPacket packet) :
    (Traced.walk packet).Within (Access.Inside packet) fun _ => True := by
  unfold Traced.walk
  split
  next => exact Logged.within_pure trivial
  next header hheader =>
    obtain ⟨hheaderSize, hsize⟩ := getHeader_length hheader
    have hqueries : ¬ CutSections _ (packet.drop headerSize) := fun h => hcut ⟨header, hheader, h⟩
    refine (skipQueries_within hsize _ hheaderSize fun h => hqueries (.inl h)).bind ?_
    intro it hwalked
    have hanswers := hwalked.not_cut hqueries
    refine (skipResponses_within hsize _ hwalked.le fun h => hanswers (.inl h)).bind ?_
    intro it' hwalked'
    have hauthorities := hwalked'.not_cut hanswers
    refine (skipResponses_within hsize _ hwalked'.le fun h => hauthorities (.inl h)).bind ?_
    intro it'' hwalked''
    have hadditional := hwalked''.not_cut hauthorities
    exact findOpt_within hsize _ hwalked''.le fun h => hadditional (.inl h)

/-! A name that is cut off takes the walk past the end. -/

section Leave

variable {packet : Bytes}

theorem skipLabels_leaves {name : Bytes} (hname : CutName name) : ∀ {fuel it : Nat},
    packet.drop it = name → packet.length < it + fuel →
      .iterator (packet.length + 1) ∈ (Traced.skipLabels packet fuel it).trace := by
  induction hname with
  | pointer byte hbits =>
    intro fuel it h hfuel
    have hit := lt_of_drop h
    have hlength := congrArg List.length h
    simp only [List.length_drop, List.length_singleton] at hlength
    cases fuel with
    | zero => omega
    | succ fuel =>
      rw [Traced.skipLabels, if_neg (by omega)]
      apply Logged.mem_bind_right (byte_of_drop h)
      rw [if_neg (ne_zero_of_and hbits), if_pos hbits]
      have hend : it + 2 = packet.length + 1 := by omega
      rw [hend]
      exact List.mem_singleton_self _
  | label byte text name hzero hbyte htext hname ih =>
    intro fuel it h hfuel
    have hit := lt_of_drop h
    have hlength := congrArg List.length h
    have hpos := List.length_pos_of_ne_nil hname.ne_nil
    simp only [List.length_drop, List.length_cons, List.length_append] at hlength
    have hstep : labelStep byte = (byte :: text).length := by
      simp [labelStep, hbyte, htext]
    have hnext : packet.drop (it + (byte :: text).length) = name :=
      drop_of_drop (by simpa using h)
    cases fuel with
    | zero => omega
    | succ fuel =>
      rw [Traced.skipLabels, if_neg (by omega)]
      apply Logged.mem_bind_right (byte_of_drop h)
      rw [if_neg hzero, if_neg (and_ne_of_lt hbyte),
        if_pos (by rw [hstep]; unfold distance; simp; omega), hstep]
      apply Logged.mem_bind_right (Traced.result_reached _)
      exact ih hnext (by simp; omega)

theorem skipName_leaves {it : Nat} (h : CutName (packet.drop it)) :
    .iterator (packet.length + 1) ∈ (Traced.skipName packet it).trace :=
  skipLabels_leaves h rfl (by omega)

theorem skipEntries_leaves {Entry : Bytes → Prop} {skip : Nat → Logged Access Nat}
    (hcut : ∀ it, CutName (packet.drop it) → .iterator (packet.length + 1) ∈ (skip it).trace)
    (hentry : ∀ entry rest it, Entry entry → packet.drop it = entry ++ rest →
      it < packet.length → (skip it).result = some (it + entry.length))
    {count : Nat} {bytes : Bytes} (h : Cut Entry count bytes) : ∀ {it : Nat},
      packet.drop it = bytes →
        .iterator (packet.length + 1) ∈ (Traced.skipEntries packet skip count it).trace := by
  induction h with
  | name count hname =>
    intro it h
    have hend : it ≠ packet.length := by
      rintro rfl
      rw [List.drop_length] at h
      exact hname.ne_nil h.symm
    rw [Traced.skipEntries, if_neg hend]
    apply Logged.mem_bind_left
    rw [← h] at hname
    exact hcut it hname
  | entry hfirst hrest ih =>
    intro it h
    have hit : it < packet.length := by
      by_contra hle
      rw [List.drop_eq_nil_of_le (by omega)] at h
      exact hrest.ne_nil (List.append_eq_nil_iff.mp h.symm).2
    rw [Traced.skipEntries, if_neg (by omega)]
    apply Logged.mem_bind_right (hentry _ _ it hfirst h hit)
    exact ih (drop_of_drop h)

theorem skipEntries_one (skip : Nat → Logged Access Nat) {it : Nat} (hit : it < packet.length) :
    (Traced.skipEntries packet skip 1 it).result = (skip it).result := by
  rw [Traced.skipEntries, if_neg (by omega), Logged.result_bind]
  exact Option.bind_fun_some _

variable (hsize : packet.length < 2 ^ 63)
include hsize

theorem skipQueries_leaves {count it : Nat} (h : Cut IsQuery count (packet.drop it)) :
    .iterator (packet.length + 1) ∈ (Traced.skipQueries packet count it).trace := by
  apply skipEntries_leaves _ _ h rfl
  · exact fun it hname => Logged.mem_bind_left (skipName_leaves hname) _
  · intro query rest it hquery hdrop hit
    rw [← skipEntries_one _ hit]
    exact (Traced.skipQueries_result packet 1 it).trans (skipQueries_entry hsize hquery hdrop 0)

theorem skipResponse_result {response rest : Bytes} {it : Nat} (hresponse : IsResponse response)
    (hdrop : packet.drop it = response ++ rest) (hit : it < packet.length) :
    (Traced.skipResponse packet it).result = some (it + response.length) := by
  rw [← skipEntries_one _ hit]
  exact (Traced.skipResponses_result packet 1 it).trans
    (skipResponses_entry hsize hresponse hdrop 0)

theorem skipResponses_leaves {count it : Nat} (h : Cut IsResponse count (packet.drop it)) :
    .iterator (packet.length + 1) ∈ (Traced.skipResponses packet count it).trace := by
  apply skipEntries_leaves _ _ h rfl
  · exact fun it hname => Logged.mem_bind_left (skipName_leaves hname) _
  · exact fun _ _ _ hresponse hdrop hit => skipResponse_result hsize hresponse hdrop hit

theorem findOpt_leaves {count : Nat} {bytes : Bytes}
    (h : Cut (fun response => IsResponse response ∧ ¬ IsOpt response) count bytes) :
    ∀ {it : Nat}, packet.drop it = bytes →
      .iterator (packet.length + 1) ∈ (Traced.findOpt packet count it).trace := by
  induction h with
  | name count hname =>
    intro it h
    obtain ⟨byte, rest, hbytes⟩ := List.exists_cons_of_ne_nil hname.ne_nil
    rw [hbytes] at h
    have hit := lt_of_drop h
    have hopt : (Traced.isOpt packet it).result = some false := by
      rw [Traced.isOpt_result, isOpt, byte_of_drop h]
      simp [hname.head_ne hbytes]
    rw [Traced.findOpt, if_neg (by omega)]
    apply Logged.mem_bind_right hopt
    rw [if_neg Bool.false_ne_true]
    apply Logged.mem_bind_left
    apply skipResponses_leaves hsize
    rw [h, ← hbytes]
    exact .name 0 hname
  | entry hresponse _ ih =>
    intro it h
    have hge := hresponse.1.length_ge
    have hlength := congrArg List.length h
    simp only [List.length_drop, List.length_append] at hlength
    obtain ⟨opt, hopt, hiff⟩ := isOpt_response hresponse.1 h
    have hfalse : opt = false := by
      rw [← Bool.not_eq_true, hiff]
      exact hresponse.2
    rw [hfalse, ← Traced.isOpt_result] at hopt
    rw [Traced.findOpt, if_neg (by omega)]
    apply Logged.mem_bind_right hopt
    rw [if_neg Bool.false_ne_true]
    have hskip := Traced.skipResponses_result packet 1 it
    rw [skipResponses_entry hsize hresponse.1 h 0] at hskip
    apply Logged.mem_bind_right hskip
    exact ih (drop_of_drop h)

end Leave

theorem walk_leaves {packet : Bytes} (hcut : CutPacket packet) :
    .iterator (packet.length + 1) ∈ (Traced.walk packet).trace := by
  obtain ⟨header, hheader, hqueries⟩ := hcut
  obtain ⟨hheaderSize, hless⟩ := getHeader_length hheader
  have hsize : packet.length < 2 ^ 63 := hless.trans (by decide)
  unfold Traced.walk
  rw [hheader]
  rcases hqueries with hqueries | ⟨_, hwhole, hanswers⟩
  · exact Logged.mem_bind_left (skipQueries_leaves hsize hqueries) _
  · obtain ⟨it, hit, hle, rfl⟩ := skipQueries_whole hsize hwhole hheaderSize rfl
    rw [← Traced.skipQueries_result] at hit
    apply Logged.mem_bind_right hit
    rcases hanswers with hanswers | ⟨_, hwhole, hauthorities⟩
    · exact Logged.mem_bind_left (skipResponses_leaves hsize hanswers) _
    · obtain ⟨it, hit, hle, rfl⟩ := skipResponses_whole hsize hwhole hle rfl
      rw [← Traced.skipResponses_result] at hit
      apply Logged.mem_bind_right hit
      rcases hauthorities with hauthorities | ⟨_, hwhole, hadditional⟩
      · exact Logged.mem_bind_left (skipResponses_leaves hsize hauthorities) _
      · obtain ⟨it, hit, hle, rfl⟩ := skipResponses_whole hsize hwhole hle rfl
        rw [← Traced.skipResponses_result] at hit
        apply Logged.mem_bind_right hit
        rcases hadditional with hadditional | ⟨_, _, hnone⟩
        · exact findOpt_leaves hsize hadditional rfl
        · exact hnone.elim

/-- The walk stays in the packet, except where the packet ends within a pointer. -/
theorem walk_inside_iff (packet : Bytes) :
    (∀ access ∈ (Traced.walk packet).trace, access.Inside packet) ↔ ¬ CutPacket packet := by
  constructor
  · intro hinside hcut
    have hend := hinside _ (walk_leaves hcut)
    exact absurd hend (Nat.not_succ_le_self _)
  · exact fun hcut => (walk_within hcut).1

/-- The header announces two queries, and all there is of the first is half a pointer. -/
theorem walk_not_inside : ∃ packet, valid packet = true ∧
    .iterator 16 ∈ (Traced.walk packet).trace ∧ .read 20 ∈ (Traced.walk packet).trace ∧
    ¬ ∀ access ∈ (Traced.walk packet).trace, access.Inside packet :=
  ⟨[0, 13, 0, 0, 1, 0, 0, 2, 0, 0, 0, 0, 0, 0, 0xc0], by decide⟩

end Dote.DnsPacket
