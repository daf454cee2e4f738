import Dote.Library.Logged
import Dote.Openssl.HostnameSoundness

/-! Where `checkHostname` reads. The name comes from the peer's certificate; the
code is given a pointer and a length, and there need not be anything behind it. -/
namespace Dote.Openssl.HostnameVerifier
open Dote.Library

inductive Access
  | hostname (index : Nat)
  | certificateName (index : Nat)
deriving DecidableEq, Repr

def Access.Inside (hostname : Bytes) (length : Nat) : Access → Prop
  | .hostname index => index < hostname.length
  | .certificateName index => index < length

instance (hostname : Bytes) (length : Nat) : (access : Access) →
    Decidable (access.Inside hostname length)
  | .hostname index => inferInstanceAs (Decidable (index < hostname.length))
  | .certificateName index => inferInstanceAs (Decidable (index < length))

/-! The functions of the match, with every index at which they read. -/
namespace Traced

def hostAt (hostname : Bytes) (index : Nat) : Logged Access UInt8 :=
  .log (.hostname index) hostname[index]?

def certAt (certificateName : Nat → UInt8) (index : Nat) : Logged Access UInt8 :=
  .log (.certificateName index) (some (certificateName index))

/-- Whether `memchr` finds a null in the next `count` bytes. It stops there. -/
def memchr (certificateName : Nat → UInt8) : Nat → Nat → Logged Access Bool
  | 0, _ => pure false
  | count + 1, index => do
    let c ← certAt certificateName index
    if c = 0 then pure true else memchr certificateName count (index + 1)

def matchLoop (hostname : Bytes) (certificateName : Nat → UInt8) :
    Nat → Nat → Nat → Logged Access Cursors
  | certLength + 1, hostLength + 1, dotCount => do
    let h ← hostAt hostname hostLength
    let c ← certAt certificateName certLength
    if !matchChar h c then pure ⟨certLength, hostLength, dotCount⟩
    else
      let c ← certAt certificateName certLength
      matchLoop hostname certificateName certLength hostLength
        (if c = dot then dotCount + 1 else dotCount)
  | certLength, hostLength, dotCount => pure ⟨certLength, hostLength, dotCount⟩

def verdict (certificateName : Nat → UInt8) (c : Cursors) : Logged Access Bool :=
  if c.certLength = 0 ∧ c.hostLength = 0 then pure true
  else do
    let first ← certAt certificateName c.certLength
    if first = star then
      let second ← certAt certificateName (c.certLength + 1)
      pure (decide (second = dot ∧ 2 ≤ c.dotCount))
    else pure false

def checkHostname (hostname : Bytes) (certificateName : Nat → UInt8) (length : Nat) :
    Logged Access Bool := do
  if ← memchr certificateName length 0 then pure false
  else if length = 0 then pure false
  else
    let c ← matchLoop hostname certificateName length hostname.length 0
    verdict certificateName c

variable {hostname : Bytes} {certificateName : Nat → UInt8} {length : Nat}

theorem memchr_gives : ∀ {count index : Nat}, index + count ≤ length →
    (memchr certificateName count index).Gives (Access.Inside hostname length)
      ((List.range' index count).any fun i => certificateName i == 0) := by
  intro count
  induction count with
  | zero => exact fun _ => Logged.gives_pure _
  | succ count ih =>
    intro index hindex
    have hinside : (Access.certificateName index).Inside hostname length :=
      show index < length by omega
    unfold memchr
    apply (Logged.gives_log hinside _).bind
    rw [List.range'_succ, List.any_cons]
    by_cases hnull : certificateName index = 0
    · simpa [hnull] using Logged.gives_pure true
    · rw [if_neg hnull, beq_false_of_ne hnull, Bool.false_or]
      exact ih (by omega)

theorem matchLoop_gives : ∀ {certLength hostLength : Nat} (dotCount : Nat),
    certLength ≤ length → hostLength ≤ hostname.length →
    (matchLoop hostname certificateName certLength hostLength dotCount).Gives
      (Access.Inside hostname length)
      (HostnameVerifier.matchLoop hostname certificateName certLength hostLength dotCount) := by
  intro certLength
  induction certLength with
  | zero =>
    intro hostLength dotCount hcert hhost
    unfold matchLoop HostnameVerifier.matchLoop
    exact Logged.gives_pure _
  | succ certLength ih =>
    intro hostLength dotCount hcert hhost
    cases hostLength with
    | zero => exact Logged.gives_pure _
    | succ hostLength =>
      have hcertInside : (Access.certificateName certLength).Inside hostname length := hcert
      have hhostInside : (Access.hostname hostLength).Inside hostname length := hhost
      have hat : hostname[hostLength]? = some (hostname.getD hostLength 0) := by
        simp [List.getD_eq_getElem?_getD, List.getElem?_eq_getElem hhost]
      have hhostAt : (hostAt hostname hostLength).Gives (Access.Inside hostname length)
          (hostname.getD hostLength 0) := by
        rw [hostAt, hat]
        exact Logged.gives_log hhostInside _
      unfold matchLoop HostnameVerifier.matchLoop
      apply hhostAt.bind
      apply (Logged.gives_log hcertInside _).bind
      split
      next => exact Logged.gives_pure _
      next =>
        apply (Logged.gives_log hcertInside _).bind
        exact ih _ (by omega) (by omega)

theorem memchr_name_gives :
    (memchr certificateName length 0).Gives (Access.Inside hostname length)
      ((List.range length).any fun i => certificateName i == 0) := by
  rw [List.range_eq_range']
  exact memchr_gives (by omega)

theorem matchLoop_name_gives :
    (matchLoop hostname certificateName length hostname.length 0).Gives
      (Access.Inside hostname length)
      (HostnameVerifier.matchLoop hostname certificateName length hostname.length 0) :=
  matchLoop_gives 0 (le_refl _) (le_refl _)

theorem verdict_result (certificateName : Nat → UInt8) (c : Cursors) :
    (verdict certificateName c).result = some (HostnameVerifier.verdict certificateName c) := by
  unfold verdict HostnameVerifier.verdict
  by_cases hend : c.certLength = 0 ∧ c.hostLength = 0
  · rw [if_pos hend, if_pos hend]
    rfl
  · rw [if_neg hend, if_neg hend]
    by_cases hstar : certificateName c.certLength = star
    · by_cases hdot : certificateName (c.certLength + 1) = dot
      · simp [certAt, hstar, hdot]
      · simp [certAt, hstar, hdot]
    · simp [certAt, hstar]

theorem checkHostname_result (hostname : Bytes) (certificateName : Nat → UInt8) (length : Nat) :
    (checkHostname hostname certificateName length).result =
      some (HostnameVerifier.checkHostname hostname certificateName length) := by
  have hmemchr : (memchr certificateName length 0).Gives (Access.Inside hostname length) _ :=
    memchr_name_gives
  unfold checkHostname HostnameVerifier.checkHostname
  rw [Logged.result_bind, hmemchr.2, Option.bind_some]
  by_cases hnull : (List.range length).any (fun i => certificateName i == 0) = true
  · rw [if_pos hnull, if_pos hnull]
    rfl
  · rw [if_neg hnull, if_neg hnull]
    by_cases hlength : length = 0
    · rw [if_pos hlength, if_pos hlength]
      rfl
    · rw [if_neg hlength, if_neg hlength, Logged.result_bind, matchLoop_name_gives.2,
        Option.bind_some]
      exact verdict_result certificateName _

theorem verdict_inside (c : Cursors) :
    (∀ access ∈ (verdict certificateName c).trace, access.Inside hostname length) ↔
      (c.certLength = 0 ∧ c.hostLength = 0) ∨
        (c.certLength < length ∧
          (certificateName c.certLength = star → c.certLength + 1 < length)) := by
  unfold verdict
  by_cases hend : c.certLength = 0 ∧ c.hostLength = 0
  · simp [hend]
  · by_cases hstar : certificateName c.certLength = star
    · simp [hend, hstar, certAt, Logged.bind_log, Access.Inside]
    · simp [hend, hstar, certAt, Logged.bind_log, Access.Inside]

end Traced

theorem matchLoop_certLength_le (hostname : Bytes) (certificateName : Nat → UInt8)
    (certLength hostLength dotCount : Nat) :
    (matchLoop hostname certificateName certLength hostLength dotCount).certLength ≤
      certLength := by
  fun_induction matchLoop hostname certificateName certLength hostLength dotCount with
  | case1 certLength => exact Nat.le_succ certLength
  | case2 certLength _ _ _ ih => exact Nat.le_succ_of_le ih
  | case3 certLength => exact le_refl certLength

theorem matchLoop_certLength_lt (hostname : Bytes) (certificateName : Nat → UInt8)
    {certLength hostLength : Nat} (hcert : 0 < certLength) (hhost : 0 < hostLength)
    (dotCount : Nat) :
    (matchLoop hostname certificateName certLength hostLength dotCount).certLength <
      certLength := by
  obtain ⟨certLength, rfl⟩ := Nat.exists_eq_add_one.mpr hcert
  obtain ⟨hostLength, rfl⟩ := Nat.exists_eq_add_one.mpr hhost
  unfold matchLoop
  split
  next => exact Nat.lt_succ_self _
  next => exact Nat.lt_succ_of_le (matchLoop_certLength_le _ _ _ _ _)

/-- The match stops at a star that is the last byte of the name: the hostname
does not end in a star, or one of the two has come to its end there. -/
def StopsAtLastStar (hostname : Bytes) (certificateName : Nat → UInt8) (length : Nat) : Prop :=
  certificateName (length - 1) = star ∧ ¬ (length = 1 ∧ hostname.length = 1) ∧
    (hostname.getLast? ≠ some star ∨ length = 1 ∨ hostname.length = 1)

def Overreads (hostname : Bytes) (certificateName : Nat → UInt8) (length : Nat) : Prop :=
  0 < length ∧ (∀ i < length, certificateName i ≠ 0) ∧
    (hostname = [] ∨ StopsAtLastStar hostname certificateName length)

instance (hostname : Bytes) (certificateName : Nat → UInt8) (length : Nat) :
    Decidable (StopsAtLastStar hostname certificateName length) :=
  inferInstanceAs (Decidable (_ ∧ _ ∧ _))

instance (hostname : Bytes) (certificateName : Nat → UInt8) (length : Nat) :
    Decidable (Overreads hostname certificateName length) :=
  inferInstanceAs (Decidable (_ ∧ (∀ i < length, _) ∧ _))

section FirstTurn

variable {front : Bytes} {h : UInt8} {certificateName : Nat → UInt8} {n : Nat}

def StopsFirst (front : Bytes) (h : UInt8) (certificateName : Nat → UInt8) (n : Nat) : Prop :=
  matchChar h (certificateName n) = false ∨ n = 0 ∨ front.length = 0

theorem getD_concat (front : Bytes) (h : UInt8) : (front ++ [h]).getD front.length 0 = h := by
  simp [List.getD_eq_getElem?_getD]

theorem matchLoop_stops (hstop : StopsFirst front h certificateName n) :
    ∃ dotCount, matchLoop (front ++ [h]) certificateName (n + 1) (front.length + 1) 0 =
      ⟨n, front.length, dotCount⟩ := by
  rw [matchLoop, getD_concat]
  by_cases hmatch : matchChar h (certificateName n) = true
  · rw [if_neg (by simp [hmatch])]
    have hend : n = 0 ∨ front.length = 0 := hstop.resolve_left (by simp [hmatch])
    exact ⟨_, matchLoop_exhausted _ _ hend _⟩
  · rw [if_pos (by simp [hmatch])]
    exact ⟨0, rfl⟩

theorem matchLoop_goes_on (hgo : ¬ StopsFirst front h certificateName n) :
    (matchLoop (front ++ [h]) certificateName (n + 1) (front.length + 1) 0).certLength < n := by
  unfold StopsFirst at hgo
  simp only [not_or, Bool.not_eq_false] at hgo
  rw [matchLoop, getD_concat, if_neg (by simp [hgo.1])]
  apply matchLoop_certLength_lt
  · omega
  · omega

theorem matchChar_star : matchChar h star = true ↔ h = star := by
  rw [matchChar, beq_iff_eq, lower_eq_star]

theorem stopsAtLastStar_iff :
    StopsAtLastStar (front ++ [h]) certificateName (n + 1) ↔
      certificateName n = star ∧ ¬ (n = 0 ∧ front.length = 0) ∧
        StopsFirst front h certificateName n := by
  unfold StopsAtLastStar StopsFirst
  simp only [Nat.add_sub_cancel, List.length_append, List.length_singleton,
    List.getLast?_concat, Nat.add_eq_right]
  apply and_congr_right
  intro hstar
  rw [hstar, ← Bool.not_eq_true, matchChar_star, ne_eq, Option.some.injEq]

end FirstTurn

theorem verdict_matchLoop_inside (hostname : Bytes) (certificateName : Nat → UInt8) {length : Nat}
    (hlength : 0 < length) :
    (∀ access ∈ (Traced.verdict certificateName
        (matchLoop hostname certificateName length hostname.length 0)).trace,
      access.Inside hostname length) ↔
      ¬ (hostname = [] ∨ StopsAtLastStar hostname certificateName length) := by
  rw [Traced.verdict_inside]
  obtain ⟨n, rfl⟩ := Nat.exists_eq_add_one.mpr hlength
  rcases List.eq_nil_or_concat' hostname with rfl | ⟨front, h, rfl⟩
  · rw [List.length_nil, matchLoop_exhausted _ _ (.inr rfl)]
    simp
  · have hne : front ++ [h] ≠ [] := by simp
    rw [stopsAtLastStar_iff, List.length_append, List.length_singleton]
    by_cases hstop : StopsFirst front h certificateName n
    · obtain ⟨dotCount, hcursors⟩ := matchLoop_stops hstop
      rw [hcursors]
      simp only [hne, hstop, Nat.lt_irrefl, Nat.lt_succ_self]
      tauto
    · have hlt := matchLoop_goes_on hstop
      simp only [hne, hstop, and_false, or_false, not_false_eq_true, iff_true]
      exact .inr ⟨by omega, fun _ => by omega⟩

/-- `checkHostname` stays inside the two names, except on those that it overreads. -/
theorem checkHostname_reads_iff (hostname : Bytes) (certificateName : Nat → UInt8)
    (length : Nat) :
    (∀ access ∈ (Traced.checkHostname hostname certificateName length).trace,
      access.Inside hostname length) ↔ ¬ Overreads hostname certificateName length := by
  unfold Traced.checkHostname Overreads
  rw [Traced.memchr_name_gives.forall_bind]
  by_cases hnull : (List.range length).any (fun i => certificateName i == 0) = true
  · have hname : ¬ ∀ i < length, certificateName i ≠ 0 := by
      obtain ⟨i, hi, hzero⟩ := (any_null_iff certificateName length).mp hnull
      exact fun h => h i hi hzero
    simp [hnull, hname]
  · have hname : ∀ i < length, certificateName i ≠ 0 := by
      intro i hi hzero
      exact hnull ((any_null_iff certificateName length).mpr ⟨i, hi, hzero⟩)
    rw [if_neg hnull]
    by_cases hlength : length = 0
    · simp [hlength]
    · have hpos : 0 < length := Nat.pos_of_ne_zero hlength
      rw [if_neg hlength, Traced.matchLoop_name_gives.forall_bind,
        verdict_matchLoop_inside hostname certificateName hpos]
      exact not_congr ⟨fun h => ⟨hpos, hname, h⟩, fun h => h.2.2⟩

theorem checkHostname_reads_near (hostname : Bytes) (certificateName : Nat → UInt8)
    (length : Nat) :
    ∀ access ∈ (Traced.checkHostname hostname certificateName length).trace,
      access.Inside hostname (length + 2) := by
  have hmemchr : (Traced.memchr certificateName length 0).Gives
      (Access.Inside hostname (length + 2)) _ := Traced.memchr_gives (by omega)
  have hloop : (Traced.matchLoop hostname certificateName length hostname.length 0).Gives
      (Access.Inside hostname (length + 2)) _ := Traced.matchLoop_gives 0 (by omega) (le_refl _)
  have hle := matchLoop_certLength_le hostname certificateName length hostname.length 0
  unfold Traced.checkHostname
  rw [hmemchr.forall_bind]
  split
  next => simp
  next =>
    split
    next => simp
    next =>
      rw [hloop.forall_bind, Traced.verdict_inside]
      exact .inr ⟨by omega, fun _ => by omega⟩

/-- A certificate name `*`, which the host `ab` does not match: the byte behind
the star is read. -/
theorem checkHostname_reads_outside :
    ¬ ∀ (hostname : Bytes) (certificateName : Nat → UInt8) (length : Nat),
      ∀ access ∈ (Traced.checkHostname hostname certificateName length).trace,
        access.Inside hostname length := by
  intro h
  have hread : Access.certificateName 1 ∈
      (Traced.checkHostname (bytes "ab") ((bytes "*").getD · 0) 1).trace := by decide +kernel
  have hinside := h (bytes "ab") ((bytes "*").getD · 0) 1 _ hread
  revert hinside
  decide

end Dote.Openssl.HostnameVerifier
