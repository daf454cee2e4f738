import Dote.Config.ConfigParser
import Mathlib.Data.List.TakeWhile

/-! The texts that `parseServer` takes for a server. -/
namespace Dote.Config

def isHexDigit (c : UInt8) : Bool := isDigit c || (65 ≤ c && c ≤ 70) || (97 ≤ c && c ≤ 102)

/-- What is documented of `inet_pton`: the characters that an address is written
with. -/
structure InetPton (libc : Libc) : Prop where
  inet : ∀ text addr, libc.inet_pton .inet text = some addr →
    ∀ c ∈ text, isDigit c = true ∨ c = 46
  inet6 : ∀ text addr, libc.inet_pton .inet6 text = some addr →
    ∀ c ∈ text, isHexDigit c = true ∨ c = 58 ∨ c = 46

inductive IsAddress (libc : Libc) : Bytes → Family → Bytes → Prop
  | inet {text addr : Bytes} : libc.inet_pton .inet text = some addr →
      IsAddress libc text .inet addr
  | inet6 {text addr : Bytes} : libc.inet_pton .inet6 text = some addr →
      IsAddress libc (91 :: (text ++ [93])) .inet6 addr

structure IsPort (number : Bytes) : Prop where
  digits : ∀ c ∈ number, isDigit c = true
  nonempty : number ≠ []
  pos : 1 ≤ digitsValue number
  le : digitsValue number ≤ 65535

/-- The documented forms of a server: an address, or an address and a port. -/
inductive IsServer (libc : Libc) (defaultPort : UInt16) : Bytes → SockAddr → Prop
  | address {text addr : Bytes} {family : Family} : IsAddress libc text family addr →
      IsServer libc defaultPort text ⟨family, defaultPort, addr⟩
  | port {text addr number : Bytes} {family : Family} : IsAddress libc text family addr →
      IsPort number → IsServer libc defaultPort (text ++ 58 :: number)
        ⟨family, UInt16.ofNat (digitsValue number), addr⟩

def IsLead (lead : Bytes) : Prop :=
  ∃ spaces : Bytes, (∀ c ∈ spaces, isSpace c = true) ∧ (lead = spaces ∨ lead = spaces ++ [43])

/-- Servers with something in front of the port, or behind the bracket in the place
of a port. -/
inductive IsSlack (libc : Libc) : Bytes → Prop
  | lead {text addr lead number : Bytes} {family : Family} : IsAddress libc text family addr →
      IsLead lead → lead ≠ [] → IsPort number → IsSlack libc (text ++ 58 :: (lead ++ number))
  | behind {text addr rest : Bytes} : IsAddress libc text .inet6 addr → rest ≠ [] →
      rest.head? ≠ some 58 → IsSlack libc (text ++ rest)

/-! The parts that the text is taken apart into. -/

theorem strchr_append {c : UInt8} {before : Bytes} (h : c ∉ before) (after : Bytes) :
    strchr (before ++ c :: after) c = some (before, after) := by
  have hne : ∀ b ∈ before, (b != c) = true := by
    intro b hb
    rw [bne_iff_ne]
    rintro rfl
    exact h hb
  rw [strchr, if_pos (by simp), List.takeWhile_append_of_pos hne, List.dropWhile_append_of_pos hne]
  simp

theorem strchr_eq_some {s before after : Bytes} {c : UInt8}
    (h : strchr s c = some (before, after)) : s = before ++ c :: after := by
  have hmem : c ∈ s := by
    by_contra hmem
    rw [strchr, if_neg hmem] at h
    contradiction
  obtain ⟨before', after', rfl, hbefore⟩ := List.eq_append_cons_of_mem hmem
  rw [strchr_append hbefore] at h
  cases h
  rfl

theorem strchr_eq_none {s : Bytes} {c : UInt8} (h : strchr s c = none) : c ∉ s := by
  unfold strchr at h
  split at h
  next => contradiction
  next hmem => exact hmem

def parts (s : Bytes) : Option (Family × Bytes × Bytes) :=
  match s with
  | 91 :: bracketed => (strchr bracketed 93).map fun found => (.inet6, found.1, found.2)
  | _ =>
    match strchr s 58 with
    | some (ip, rest) => some (.inet, ip, 58 :: rest)
    | none => some (.inet, s, [])

def readPort (defaultPort : UInt16) : Bytes → Option UInt16
  | 58 :: number =>
    if (strtol number).2 ≠ [] ∨ (strtol number).1 < 1 ∨ (strtol number).1 > 65535 then none
    else some (UInt16.ofNat (strtol number).1.toNat)
  | _ => some defaultPort

section Parts

variable {libc : Libc} {defaultPort : UInt16} {output result : SockAddr}

theorem readPort_other {rest : Bytes} (h : rest.head? ≠ some 58) :
    readPort defaultPort rest = some defaultPort := by
  unfold readPort
  split
  next => simp at h
  next => rfl

theorem parsePort_eq (ip server : Bytes) : parsePort libc ip server defaultPort output =
    match readPort defaultPort server with
    | none => (false, output)
    | some port =>
      match libc.inet_pton output.family ip with
      | none => (false, { output with port := port })
      | some addr => (true, { output with port := port, addr := addr }) := by
  unfold parsePort readPort
  cases server with
  | nil => rfl
  | cons c number => rfl

theorem parsePort_iff {ip server : Bytes} :
    parsePort libc ip server defaultPort output = (true, result) ↔
      ∃ port addr, readPort defaultPort server = some port ∧
        libc.inet_pton output.family ip = some addr ∧ result = ⟨output.family, port, addr⟩ := by
  rw [parsePort_eq]
  cases readPort defaultPort server with
  | none => simp
  | some port =>
    cases libc.inet_pton output.family ip with
    | none => simp
    | some addr => simp [eq_comm]

theorem parts_bracketed (bracketed : Bytes) : parts (91 :: bracketed) =
    (strchr bracketed 93).map fun found => (.inet6, found.1, found.2) := rfl

theorem parts_other {s : Bytes} (h : s.head? ≠ some 91) : parts s =
    match strchr s 58 with
    | some (ip, rest) => some (.inet, ip, 58 :: rest)
    | none => some (.inet, s, []) := by
  unfold parts
  split
  next => simp at h
  next => rfl

theorem parseServer_parts {s : Bytes} :
    parseServer libc s defaultPort output = (true, result) ↔
      ∃ family ip rest port addr, parts s = some (family, ip, rest) ∧
        readPort defaultPort rest = some port ∧ libc.inet_pton family ip = some addr ∧
        result = ⟨family, port, addr⟩ := by
  unfold parseServer
  split
  next bracketed =>
    rw [parts_bracketed]
    cases strchr bracketed 93 with
    | none => simp
    | some found =>
      obtain ⟨ip, rest⟩ := found
      simp [parsePort_iff]
  next hother =>
    have hbracket : s.head? ≠ some 91 := by
      intro h
      obtain ⟨bracketed, rfl⟩ := List.head?_eq_some_iff.mp h
      exact hother bracketed rfl
    rw [parts_other hbracket]
    dsimp only
    cases hcolon : strchr s 58 with
    | some found => simp [parsePort_iff]
    | none =>
      have hhead : s.head? ≠ some 58 := fun h =>
        strchr_eq_none hcolon (List.mem_of_mem_head? h)
      have hrest : readPort defaultPort [] = some defaultPort := rfl
      simp [parsePort_iff, readPort_other hhead, hrest]

/-- An address, and behind it a colon or nothing, unless there was a bracket. -/
def Ends (family : Family) (rest : Bytes) : Prop :=
  family = .inet6 ∨ rest = [] ∨ rest.head? = some 58

theorem IsAddress.eq_of_parts {s ip rest addr : Bytes} {family : Family}
    (h : parts s = some (family, ip, rest)) (haddr : libc.inet_pton family ip = some addr) :
    ∃ text, s = text ++ rest ∧ IsAddress libc text family addr ∧ Ends family rest := by
  unfold parts at h
  split at h
  next bracketed =>
    obtain ⟨⟨ip', rest'⟩, hfound, heq⟩ := Option.map_eq_some_iff.mp h
    cases heq
    exact ⟨91 :: (ip' ++ [93]), by simp [strchr_eq_some hfound], .inet6 haddr, .inl rfl⟩
  next =>
    split at h
    next hfound =>
      cases h
      exact ⟨_, strchr_eq_some hfound, .inet haddr, .inr (.inr rfl)⟩
    next =>
      cases h
      exact ⟨_, (List.append_nil _).symm, .inet haddr, .inr (.inl rfl)⟩

theorem IsAddress.parts_eq (hpton : InetPton libc) {text addr rest : Bytes} {family : Family}
    (h : IsAddress libc text family addr) (hrest : Ends family rest) :
    ∃ ip, parts (text ++ rest) = some (family, ip, rest) ∧
      libc.inet_pton family ip = some addr := by
  cases h with
  | inet h =>
    have hchars := hpton.inet text addr h
    have hcolon : (58 : UInt8) ∉ text := fun hmem => by simpa [isDigit] using hchars _ hmem
    have hrest := hrest.resolve_left (by decide)
    have hhead : (text ++ rest).head? ≠ some 91 := by
      intro hhead
      cases text with
      | nil => grind
      | cons c text =>
        have hc : c = 91 := by simpa using hhead
        simpa [isDigit, hc] using hchars c (by simp)
    refine ⟨text, ?_, h⟩
    rw [parts_other hhead]
    cases rest with
    | nil =>
      have hnone : strchr text 58 = none := if_neg hcolon
      simp [hnone]
    | cons c rest =>
      have hc : c = 58 := by simpa using hrest
      rw [hc, strchr_append hcolon]
  | @inet6 text addr h =>
    have hbracket : (93 : UInt8) ∉ text := fun hmem => by
      simpa [isHexDigit, isDigit] using hpton.inet6 text addr h _ hmem
    refine ⟨text, ?_, h⟩
    have hsplit := strchr_append hbracket rest
    simp [parts, hsplit]

end Parts

/-! `strtol` on what is behind the colon. -/

theorem isDigit_not_isSpace {c : UInt8} (h : isDigit c = true) : isSpace c = false := by
  unfold isDigit at h
  unfold isSpace
  grind

theorem IsPort.head {number : Bytes} (h : IsPort number) :
    ∃ c digits, number = c :: digits ∧ isDigit c = true := by
  obtain ⟨c, digits, rfl⟩ := List.exists_cons_of_ne_nil h.nonempty
  exact ⟨c, digits, rfl, h.digits c (by simp)⟩

def strtolDigits (negative : Bool) (s unsigned : Bytes) : Int × Bytes :=
  if unsigned.takeWhile isDigit = [] then (0, s)
  else
    (if negative then max (-(digitsValue (unsigned.takeWhile isDigit) : Int)) (-2 ^ 63)
      else min (digitsValue (unsigned.takeWhile isDigit) : Int) (2 ^ 63 - 1),
      unsigned.dropWhile isDigit)

theorem strtol_eq (s : Bytes) : strtol s =
    match s.dropWhile isSpace with
    | 45 :: unsigned => strtolDigits true s unsigned
    | 43 :: unsigned => strtolDigits false s unsigned
    | unsigned => strtolDigits false s unsigned := by
  unfold strtol
  generalize s.dropWhile isSpace = body
  cases body with
  | nil => rfl
  | cons c unsigned =>
    by_cases hminus : c = 45
    · rw [hminus]
      rfl
    · by_cases hplus : c = 43
      · rw [hplus]
        rfl
      · simp [hminus, hplus, strtolDigits]

theorem digitsValue_le {number : Bytes} {value : Int} (hpos : 1 ≤ value) (hle : value ≤ 65535)
    (h : min (digitsValue number : Int) (2 ^ 63 - 1) = value) :
    value = digitsValue number ∧ 1 ≤ digitsValue number ∧ digitsValue number ≤ 65535 := by
  omega

theorem isPort_of_strtolDigits {s unsigned : Bytes} {negative : Bool}
    (hrest : (strtolDigits negative s unsigned).2 = [])
    (hpos : 1 ≤ (strtolDigits negative s unsigned).1)
    (hle : (strtolDigits negative s unsigned).1 ≤ 65535) :
    negative = false ∧ IsPort unsigned ∧
      (strtolDigits negative s unsigned).1 = digitsValue unsigned := by
  unfold strtolDigits at *
  split at hpos
  next => contradiction
  next hdigits =>
    rw [if_neg hdigits] at hrest hle ⊢
    cases negative with
    | true =>
      simp only [if_true] at hpos
      omega
    | false =>
      have hall : unsigned.takeWhile isDigit = unsigned := by
        have hsplit := List.takeWhile_append_dropWhile (p := isDigit) (l := unsigned)
        rw [show unsigned.dropWhile isDigit = [] from hrest, List.append_nil] at hsplit
        exact hsplit
      simp only [hall, Bool.false_eq_true, if_false] at hpos hle hdigits ⊢
      obtain ⟨hvalue, hpos', hle'⟩ := digitsValue_le hpos hle rfl
      exact ⟨trivial, ⟨List.takeWhile_eq_self_iff.mp hall, hdigits, hpos', hle'⟩, hvalue⟩

theorem strtolDigits_port {s number : Bytes} (h : IsPort number) :
    strtolDigits false s number = ((digitsValue number : Int), ([] : Bytes)) := by
  have hall := List.takeWhile_eq_self_iff.mpr h.digits
  have hnone : number.dropWhile isDigit = [] := List.dropWhile_eq_nil_iff.mpr h.digits
  have hle := h.le
  rw [strtolDigits, hall, if_neg h.nonempty, hnone]
  simp only [Bool.false_eq_true, if_false, Prod.mk.injEq, and_true]
  omega

theorem ends_nil (family : Family) : Ends family [] := .inr (.inl rfl)

theorem ends_colon (family : Family) (rest : Bytes) : Ends family (58 :: rest) := .inr (.inr rfl)

theorem strtol_port {lead number : Bytes} (hlead : IsLead lead) (h : IsPort number) :
    strtol (lead ++ number) = ((digitsValue number : Int), ([] : Bytes)) := by
  obtain ⟨spaces, hspaces, hlead⟩ := hlead
  obtain ⟨c, digits, hnumber, hc⟩ := h.head
  have hstop : number.dropWhile isSpace = number := by
    rw [hnumber, List.dropWhile_cons_of_neg (by simp [isDigit_not_isSpace hc])]
  rw [strtol_eq]
  cases hlead with
  | inl hlead =>
    rw [hlead, List.dropWhile_append_of_pos hspaces, hstop]
    split
    next =>
      cases hnumber
      simp [isDigit] at hc
    next =>
      cases hnumber
      simp [isDigit] at hc
    next => exact strtolDigits_port h
  | inr hlead =>
    have hplus : ([43] ++ number).dropWhile isSpace = 43 :: number :=
      List.dropWhile_cons_of_neg (by decide)
    rw [hlead, List.append_assoc, List.dropWhile_append_of_pos hspaces, hplus]
    exact strtolDigits_port h

theorem strtol_lead (s : Bytes) :
    (∃ unsigned, strtol s = strtolDigits true s unsigned) ∨
      ∃ lead unsigned, s = lead ++ unsigned ∧ IsLead lead ∧
        strtol s = strtolDigits false s unsigned := by
  have hsplit := List.takeWhile_append_dropWhile (p := isSpace) (l := s)
  have hspaces : ∀ c ∈ s.takeWhile isSpace, isSpace c = true :=
    fun c hc => List.mem_takeWhile_imp hc
  rw [strtol_eq]
  split
  next unsigned heq => exact .inl ⟨unsigned, rfl⟩
  next unsigned heq =>
    refine .inr ⟨s.takeWhile isSpace ++ [43], unsigned, ?_, ⟨_, hspaces, .inr rfl⟩, rfl⟩
    rw [List.append_assoc, List.singleton_append, ← heq, hsplit]
  next => exact .inr ⟨s.takeWhile isSpace, _, hsplit.symm, ⟨_, hspaces, .inl rfl⟩, rfl⟩

theorem isPort_of_strtol {s : Bytes} (hrest : (strtol s).2 = []) (hpos : 1 ≤ (strtol s).1)
    (hle : (strtol s).1 ≤ 65535) :
    ∃ lead number, s = lead ++ number ∧ IsLead lead ∧ IsPort number ∧
      (strtol s).1 = digitsValue number := by
  obtain ⟨unsigned, heq⟩ | ⟨lead, unsigned, hs, hlead, heq⟩ := strtol_lead s
  · rw [heq] at hrest hpos hle
    exact absurd (isPort_of_strtolDigits hrest hpos hle).1 (by decide)
  · rw [heq] at hrest hpos hle
    obtain ⟨-, hport, hvalue⟩ := isPort_of_strtolDigits hrest hpos hle
    exact ⟨lead, unsigned, hs, hlead, hport, heq ▸ hvalue⟩

theorem readPort_iff {defaultPort port : UInt16} {rest : Bytes} :
    readPort defaultPort rest = some port ↔
      (rest.head? ≠ some 58 ∧ port = defaultPort) ∨
        ∃ lead number, rest = 58 :: (lead ++ number) ∧ IsLead lead ∧ IsPort number ∧
          port = UInt16.ofNat (digitsValue number) := by
  by_cases hhead : rest.head? = some 58
  · obtain ⟨number, rfl⟩ : ∃ number, rest = 58 :: number := by
      cases rest with
      | nil => simp at hhead
      | cons c number => exact ⟨number, by simpa using hhead⟩
    have hread : readPort defaultPort (58 :: number) =
        if (strtol number).2 ≠ [] ∨ (strtol number).1 < 1 ∨ (strtol number).1 > 65535 then none
        else some (UInt16.ofNat (strtol number).1.toNat) := rfl
    rw [hread]
    constructor
    · intro h
      split at h
      next => contradiction
      next hok =>
        rw [not_or, not_not, not_or, not_lt, not_lt] at hok
        obtain ⟨lead, digits, rfl, hlead, hport, hvalue⟩ := isPort_of_strtol hok.1 hok.2.1 hok.2.2
        rw [hvalue, Int.toNat_natCast] at h
        exact .inr ⟨lead, digits, rfl, hlead, hport, (Option.some.inj h).symm⟩
    · rintro (⟨hne, -⟩ | ⟨lead, digits, heq, hlead, hport, rfl⟩)
      · exact absurd hhead hne
      · cases heq
        have hpos := hport.pos
        have hle := hport.le
        rw [strtol_port hlead hport, if_neg (by simp; omega), Int.toNat_natCast]
  · rw [readPort_other hhead]
    constructor
    · intro h
      exact .inl ⟨hhead, (Option.some.inj h).symm⟩
    · rintro (⟨-, rfl⟩ | ⟨lead, digits, rfl, -⟩)
      · rfl
      · simp at hhead

theorem isLead_nil : IsLead [] := ⟨[], by simp, .inl rfl⟩

theorem IsLead.not_digits {lead : Bytes} (h : IsLead lead) (hne : lead ≠ []) :
    ∃ c ∈ lead, isDigit c = false := by
  obtain ⟨spaces, hspaces, hlead⟩ := h
  cases spaces with
  | nil =>
    cases hlead with
    | inl hlead => exact absurd hlead hne
    | inr hlead =>
      rw [hlead]
      exact ⟨43, by simp, by decide⟩
  | cons c spaces =>
    refine ⟨c, by cases hlead with | inl h => simp [h] | inr h => simp [h], ?_⟩
    have hspace := hspaces c (by simp)
    by_contra hdigit
    rw [Bool.not_eq_false] at hdigit
    rw [isDigit_not_isSpace hdigit] at hspace
    contradiction

section Grammar

variable {libc : Libc} {defaultPort : UInt16} {output result : SockAddr} {s : Bytes}

theorem parseServer_of_address (hpton : InetPton libc) {text addr rest : Bytes}
    {family : Family} {port : UInt16} (h : IsAddress libc text family addr)
    (hends : Ends family rest) (hport : readPort defaultPort rest = some port) :
    parseServer libc (text ++ rest) defaultPort output = (true, ⟨family, port, addr⟩) := by
  obtain ⟨ip, hparts, haddr⟩ := h.parts_eq hpton hends
  exact parseServer_parts.mpr ⟨family, ip, rest, port, addr, hparts, hport, haddr, rfl⟩

theorem IsServer.parseServer_eq (hpton : InetPton libc) (h : IsServer libc defaultPort s result) :
    parseServer libc s defaultPort output = (true, result) := by
  cases h with
  | address haddress =>
    rw [← List.append_nil s]
    exact parseServer_of_address hpton haddress (ends_nil _) rfl
  | port haddress hport =>
    exact parseServer_of_address hpton haddress (ends_colon _ _)
      (readPort_iff.mpr (.inr ⟨[], _, rfl, isLead_nil, hport, rfl⟩))

theorem IsSlack.parseServer_eq (hpton : InetPton libc) (h : IsSlack libc s) :
    ∃ result, parseServer libc s defaultPort output = (true, result) := by
  cases h with
  | lead haddress hlead _ hport =>
    exact ⟨_, parseServer_of_address hpton haddress (ends_colon _ _)
      (readPort_iff.mpr (.inr ⟨_, _, rfl, hlead, hport, rfl⟩))⟩
  | behind haddress _ hhead =>
    exact ⟨_, parseServer_of_address hpton haddress (.inl rfl) (readPort_other hhead)⟩

theorem isServer_or_isSlack (h : parseServer libc s defaultPort output = (true, result)) :
    IsServer libc defaultPort s result ∨ IsSlack libc s := by
  obtain ⟨family, ip, rest, port, addr, hparts, hport, haddr, rfl⟩ := parseServer_parts.mp h
  obtain ⟨text, rfl, haddress, hends⟩ := IsAddress.eq_of_parts hparts haddr
  obtain ⟨hhead, rfl⟩ | ⟨lead, number, rfl, hlead, hnumber, rfl⟩ := readPort_iff.mp hport
  · by_cases hrest : rest = []
    · rw [hrest, List.append_nil]
      exact .inl (.address haddress)
    · obtain rfl | hnil | hcolon := hends
      · exact .inr (.behind haddress hrest hhead)
      · exact absurd hnil hrest
      · exact absurd hcolon hhead
  · by_cases hempty : lead = []
    · rw [hempty]
      exact .inl (.port haddress hnumber)
    · exact .inr (.lead haddress hlead hempty hnumber)

theorem IsServer.rest (hpton : InetPton libc) (h : IsServer libc defaultPort s result) :
    ∃ family ip rest, parts s = some (family, ip, rest) ∧
      (rest = [] ∨ ∃ number, rest = 58 :: number ∧ ∀ c ∈ number, isDigit c = true) := by
  cases h with
  | @address text _ _ haddress =>
    obtain ⟨ip, hparts, -⟩ := haddress.parts_eq hpton (ends_nil _)
    rw [List.append_nil] at hparts
    exact ⟨_, ip, [], hparts, .inl rfl⟩
  | port haddress hport =>
    obtain ⟨ip, hparts, -⟩ := haddress.parts_eq hpton (ends_colon _ _)
    exact ⟨_, ip, _, hparts, .inr ⟨_, rfl, hport.digits⟩⟩

theorem IsSlack.not_isServer (hpton : InetPton libc) (h : IsSlack libc s) :
    ¬ IsServer libc defaultPort s result := by
  intro hserver
  obtain ⟨family, ip, rest, hparts, hrest⟩ := hserver.rest hpton
  cases h with
  | lead haddress hlead hne hport =>
    obtain ⟨ip', hparts', -⟩ := haddress.parts_eq hpton (ends_colon _ _)
    rw [hparts] at hparts'
    cases hparts'
    obtain hnil | ⟨number, hnumber, hdigits⟩ := hrest
    · simp at hnil
    · cases hnumber
      obtain ⟨c, hc, hdigit⟩ := hlead.not_digits hne
      rw [hdigits c (by simp [hc])] at hdigit
      contradiction
  | behind haddress hne hhead =>
    obtain ⟨ip', hparts', -⟩ := haddress.parts_eq hpton (.inl rfl)
    rw [hparts] at hparts'
    cases hparts'
    obtain hnil | ⟨number, hnumber, -⟩ := hrest
    · exact hne hnil
    · rw [hnumber] at hhead
      simp at hhead

/-- The documented forms are what is accepted, with the address and the port that
they have, exactly when the text is not one of the others that are. -/
theorem parseServer_grammar_iff (hpton : InetPton libc) (s : Bytes) (defaultPort : UInt16)
    (output : SockAddr) :
    (∀ result, parseServer libc s defaultPort output = (true, result) ↔
      IsServer libc defaultPort s result) ↔ ¬ IsSlack libc s := by
  constructor
  · intro h hslack
    obtain ⟨result, haccept⟩ : ∃ result, parseServer libc s defaultPort output = (true, result) :=
      hslack.parseServer_eq hpton
    exact hslack.not_isServer hpton ((h result).mp haccept)
  · intro hslack result
    constructor
    · exact fun h => (isServer_or_isSlack h).resolve_right hslack
    · exact fun h => h.parseServer_eq hpton

end Grammar

def loopbackLibc : Libc where
  getopt_long _ := ⟨[], 1⟩
  inet_pton
    | .inet, text => if text = bytes "127.0.0.1" then some [127, 0, 0, 1] else none
    | .inet6, text => if text = bytes "::1" then some (List.replicate 15 0 ++ [1]) else none
    | .unspec, _ => none
  bioRead _ _ := []

theorem loopbackLibc_inetPton : InetPton loopbackLibc where
  inet text addr h := by
    have htext : text = bytes "127.0.0.1" := by
      by_contra hne
      simp [loopbackLibc, hne] at h
    rw [htext]
    decide +kernel
  inet6 text addr h := by
    have htext : text = bytes "::1" := by
      by_contra hne
      simp [loopbackLibc, hne] at h
    rw [htext]
    decide +kernel

theorem parseServer_grammar_loopback :
    ¬ IsSlack loopbackLibc (bytes "127.0.0.1:5353") ∧ ∀ result,
      parseServer loopbackLibc (bytes "127.0.0.1:5353") 53 .unspec = (true, result) ↔
        IsServer loopbackLibc 53 (bytes "127.0.0.1:5353") result := by
  have haddress : IsAddress loopbackLibc (bytes "127.0.0.1") .inet [127, 0, 0, 1] :=
    .inet (by decide +kernel)
  have hport : IsPort (bytes "5353") :=
    ⟨by decide +kernel, by decide +kernel, by decide +kernel, by decide +kernel⟩
  have hserver : IsServer loopbackLibc 53 (bytes "127.0.0.1" ++ 58 :: bytes "5353") _ :=
    .port haddress hport
  have hslack : ¬ IsSlack loopbackLibc (bytes "127.0.0.1:5353") :=
    fun h => h.not_isServer loopbackLibc_inetPton hserver
  exact ⟨hslack, (parseServer_grammar_iff loopbackLibc_inetPton _ _ _).mpr hslack⟩

/-- What is behind the bracket is not looked at, and the default port is taken. -/
theorem parseServer_not_grammar :
    parseServer loopbackLibc (bytes "[::1]8053") 53 .unspec =
        (true, ⟨.inet6, 53, List.replicate 15 0 ++ [1]⟩) ∧
      parseServer loopbackLibc (bytes "127.0.0.1: +5353") 53 .unspec =
        (true, ⟨.inet, 5353, [127, 0, 0, 1]⟩) ∧
      ¬ ∀ libc, InetPton libc → ∀ s defaultPort output result,
        parseServer libc s defaultPort output = (true, result) ↔
          IsServer libc defaultPort s result := by
  have hbracket : parseServer loopbackLibc (bytes "[::1]8053") 53 .unspec =
      (true, ⟨.inet6, 53, List.replicate 15 0 ++ [1]⟩) := by decide
  refine ⟨hbracket, by decide, fun h => ?_⟩
  have haddress : IsAddress loopbackLibc (91 :: (bytes "::1" ++ [93])) .inet6
      (List.replicate 15 0 ++ [1]) := .inet6 (by decide +kernel)
  have hslack : IsSlack loopbackLibc (91 :: (bytes "::1" ++ [93]) ++ bytes "8053") :=
    .behind haddress (by decide) (by decide)
  have hserver := (h loopbackLibc loopbackLibc_inetPton _ _ _ _).mp hbracket
  exact hslack.not_isServer loopbackLibc_inetPton hserver

end Dote.Config
