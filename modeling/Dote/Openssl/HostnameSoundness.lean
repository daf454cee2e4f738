import Mathlib.Tactic
import Dote.Library.Suffix
import Dote.Openssl.HostnameVerifier

/-! What hostname verification accepts. The matching loop is run on the
decomposition of the two names at the point where it stops; each way of
stopping is then one shape of accepted name. -/
namespace Dote.Openssl.HostnameVerifier
open Dote.Library.Suffix

/-- A pointer to the bytes of the name, with anything behind them. -/
def PointsAt (certificateName : Nat → UInt8) (name : Bytes) : Prop :=
  ∀ i (h : i < name.length), certificateName i = name[i]

theorem PointsAt.append_left {certificateName : Nat → UInt8} {c d : Bytes}
    (h : PointsAt certificateName (c ++ d)) : PointsAt certificateName c := by
  intro i hi
  rw [h i (by simp; omega), List.getElem_append_left hi]

theorem pointsAt_bytes (name : Asn1String) : PointsAt name.data name.bytes := by
  intro i hi
  simp [Asn1String.bytes]

theorem matchLoop_append (hp hs ht cp cs : Bytes) (certificateName : Nat → UInt8)
    (hcert : PointsAt certificateName (cp ++ cs)) (hmatch : hs.map lower = cs.map lower)
    (dotCount : Nat) :
    matchLoop (hp ++ (hs ++ ht)) certificateName (cp.length + cs.length) (hp.length + hs.length)
        dotCount =
      matchLoop (hp ++ (hs ++ ht)) certificateName cp.length hp.length
        (dotCount + cs.count dot) := by
  induction hs using List.reverseRecOn generalizing cs ht dotCount with
  | nil =>
    obtain rfl : cs = [] := by simpa using hmatch.symm
    simp
  | append_singleton hs x ih =>
    rcases List.eq_nil_or_concat' cs with rfl | ⟨cs, y, rfl⟩
    · simp at hmatch
    · simp only [List.map_append, List.map_cons, List.map_nil] at hmatch
      obtain ⟨hmatch, hxy⟩ := List.append_inj' hmatch rfl
      have hx : (hp ++ (hs ++ [x] ++ ht)).getD (hp.length + hs.length) 0 = x := by
        simp [List.getD_eq_getElem?_getD]
      have hy : certificateName (cp.length + cs.length) = y := by
        rw [hcert _ (by simp)]
        simp
      have hcert' : PointsAt certificateName (cp ++ cs) := by
        rw [← List.append_assoc] at hcert
        exact hcert.append_left
      simp only [List.length_append, List.length_singleton, ← Nat.add_assoc]
      rw [matchLoop, hx, hy]
      simp only [List.cons.injEq, and_true] at hxy
      rw [if_neg (by simp [matchChar, hxy])]
      simp only [List.append_assoc] at ih ⊢
      rw [ih _ _ hcert' hmatch]
      congr 1
      by_cases hdot : y = dot
      · simp [hdot]
        omega
      · simp [hdot]

theorem matchLoop_mismatch (hp ht cp : Bytes) (x y : UInt8) (certificateName : Nat → UInt8)
    (hcert : PointsAt certificateName (cp ++ [y])) (hxy : lower x ≠ lower y) (dotCount : Nat) :
    matchLoop (hp ++ [x] ++ ht) certificateName (cp ++ [y]).length (hp ++ [x]).length dotCount =
      ⟨cp.length, hp.length, dotCount⟩ := by
  have hx : (hp ++ [x] ++ ht).getD hp.length 0 = x := by
    simp [List.getD_eq_getElem?_getD]
  have hy : certificateName cp.length = y := by
    rw [hcert _ (by simp)]
    simp
  simp only [List.length_append, List.length_singleton]
  rw [matchLoop, hx, hy, if_pos (by simp [matchChar, hxy])]

theorem matchLoop_exhausted (hostname : Bytes) (certificateName : Nat → UInt8)
    {certLength hostLength : Nat} (h : certLength = 0 ∨ hostLength = 0) (dotCount : Nat) :
    matchLoop hostname certificateName certLength hostLength dotCount =
      ⟨certLength, hostLength, dotCount⟩ := by
  unfold matchLoop
  split
  · omega
  · rfl

/-- A wildcard's suffix: it starts with a dot and holds at least two. -/
def WildcardSuffix (s : Bytes) : Prop := s.head? = some dot ∧ 2 ≤ s.count dot

instance (s : Bytes) : Decidable (WildcardSuffix s) :=
  inferInstanceAs (Decidable (_ ∧ _))

/-- Where the loop stops on `p ++ s` and `q ++ t`, when `s` and `t` agree and it
can go no further in front of them. -/
def stopCursors (p q : Bytes) (dotCount : Nat) : Cursors :=
  if p = [] ∨ q = [] then ⟨q.length, p.length, dotCount⟩
  else ⟨q.length - 1, p.length - 1, dotCount⟩

def verdict (certificateName : Nat → UInt8) (c : Cursors) : Bool :=
  if c.certLength = 0 ∧ c.hostLength = 0 then true
  else if certificateName c.certLength = star ∧ certificateName (c.certLength + 1) = dot then
    decide (2 ≤ c.dotCount)
  else false

theorem matchLoop_split (p s q t : Bytes) (certificateName : Nat → UInt8)
    (hcert : PointsAt certificateName (q ++ t)) (hmatch : s.map lower = t.map lower)
    (hstop : Stop lower p q) :
    matchLoop (p ++ s) certificateName (q ++ t).length (p ++ s).length 0 =
      stopCursors p q (t.count dot) := by
  have h := matchLoop_append p s [] q t certificateName hcert hmatch 0
  simp only [List.append_nil, Nat.zero_add] at h
  rw [List.length_append, List.length_append, h]
  by_cases hend : p = [] ∨ q = []
  · rw [stopCursors, if_pos hend, matchLoop_exhausted]
    rcases hend with rfl | rfl <;> simp
  · obtain ⟨p, x, rfl⟩ := (List.eq_nil_or_concat' p).resolve_left fun hp => hend (.inl hp)
    obtain ⟨q, y, rfl⟩ := (List.eq_nil_or_concat' q).resolve_left fun hq => hend (.inr hq)
    rw [matchLoop_mismatch p s q x y _ hcert.append_left (hstop p x q y rfl rfl)]
    simp [stopCursors]

theorem any_null_iff (certificateName : Nat → UInt8) (length : Nat) :
    ((List.range length).any fun i => certificateName i == 0) = true ↔
      ∃ i < length, certificateName i = 0 := by
  simp [List.any_eq_true]

theorem checkHostname_split (p s q t : Bytes) (certificateName : Nat → UInt8)
    (hcert : PointsAt certificateName (q ++ t)) (hmatch : s.map lower = t.map lower)
    (hstop : Stop lower p q) :
    checkHostname (p ++ s) certificateName (q ++ t).length = true ↔
      0 ∉ q ++ t ∧ q ++ t ≠ [] ∧
        verdict certificateName (stopCursors p q (t.count dot)) = true := by
  have hnul : ((List.range (q ++ t).length).any fun i => certificateName i == 0) = true ↔
      0 ∈ q ++ t := by
    rw [any_null_iff, List.mem_iff_getElem]
    constructor
    · intro h
      obtain ⟨i, hi, h0⟩ := h
      exact ⟨i, hi, by rw [← hcert i hi, h0]⟩
    · intro h
      obtain ⟨i, hi, h0⟩ := h
      exact ⟨i, hi, by rw [hcert i hi, h0]⟩
  unfold checkHostname
  rw [matchLoop_split p s q t certificateName hcert hmatch hstop]
  by_cases h0 : 0 ∈ q ++ t
  · rw [if_pos (hnul.mpr h0)]
    simp [h0]
  · rw [if_neg (fun h => h0 (hnul.mp h))]
    by_cases hlen : (q ++ t).length = 0
    · rw [if_pos hlen]
      simp [List.length_eq_zero_iff.mp hlen]
    · rw [if_neg hlen]
      have hne : q ++ t ≠ [] := fun h => hlen (by rw [h]; rfl)
      simp only [h0, not_false_eq_true, hne, ne_eq, true_and]
      rfl

/-- The wildcard test at a byte `y` that is followed by `t`. The byte behind an
empty `t` is not part of the name, but then no dot has been counted. -/
theorem verdict_wildcard (certificateName : Nat → UInt8) (q t : Bytes) (y : UInt8)
    (hostLength dotCount : Nat) (hcert : PointsAt certificateName (q ++ y :: t))
    (hpos : ¬ (q.length = 0 ∧ hostLength = 0)) (hdots : y = star → dotCount = t.count dot) :
    verdict certificateName ⟨q.length, hostLength, dotCount⟩ = true ↔
      y = star ∧ WildcardSuffix t := by
  have hy : certificateName q.length = y := by
    rw [hcert _ (by simp)]
    simp
  simp only [verdict, if_neg hpos, hy]
  by_cases hstar : y = star
  · simp only [hstar, hdots hstar, true_and, WildcardSuffix]
    cases t with
    | nil => simp
    | cons z t =>
      have hz : certificateName (q.length + 1) = z := by
        rw [hcert _ (by simp)]
        simp
      simp [hz]
  · simp [hstar]

/-- ASCII case folding, the ends of the alphabet included. -/
def foldCase (c : UInt8) : UInt8 := if 65 ≤ c ∧ c ≤ 90 then c + 32 else c

def EqFold (a b : Bytes) : Prop := a.map foldCase = b.map foldCase

instance (a b : Bytes) : Decidable (EqFold a b) :=
  inferInstanceAs (Decidable (_ = _))

theorem lower_cases (c : UInt8) :
    lower c = c ∨ (65 < c.toNat ∧ c.toNat < 90 ∧ (lower c).toNat = c.toNat + 32) := by
  unfold lower
  split
  next h =>
    have h1 := UInt8.lt_iff_toNat_lt.mp h.1
    have h2 := UInt8.lt_iff_toNat_lt.mp h.2
    simp only [UInt8.reduceToNat] at h1 h2
    refine .inr ⟨h1, h2, ?_⟩
    have h32 : (32 : UInt8).toNat = 32 := rfl
    rw [UInt8.toNat_add, h32, Nat.mod_eq_of_lt (by omega)]
  next => exact .inl rfl

theorem foldCase_lower (c : UInt8) : foldCase (lower c) = foldCase c := by
  rcases lower_cases c with h | ⟨hlo, hhi, h⟩
  · rw [h]
  · have hup : (65 : UInt8) ≤ c ∧ c ≤ 90 := by
      simp only [UInt8.le_iff_toNat_le, UInt8.reduceToNat]
      omega
    have hlow : ¬ (65 ≤ lower c ∧ lower c ≤ 90) := by
      simp only [UInt8.le_iff_toNat_le, UInt8.reduceToNat, h]
      omega
    have h32 : (32 : UInt8).toNat = 32 := rfl
    rw [foldCase, foldCase, if_pos hup, if_neg hlow, ← UInt8.toNat_inj, h, UInt8.toNat_add,
      h32, Nat.mod_eq_of_lt (by omega)]

theorem eqFold_of_lower {a b : Bytes} (h : a.map lower = b.map lower) : EqFold a b := by
  have h' := congrArg (List.map foldCase) h
  simpa [EqFold, Function.comp_def, foldCase_lower] using h'

theorem lower_eq_star {c : UInt8} : lower c = lower star ↔ c = star := by
  refine ⟨fun h => ?_, fun h => by rw [h]⟩
  rcases lower_cases c with hc | ⟨hlo, -, hc⟩
  · rw [← hc, h]
    rfl
  · rw [h, show (lower star).toNat = 42 from rfl] at hc
    omega

/-- The certificate name `c` stands for the host `h`: the same name up to ASCII
case, or a wildcard for it. -/
def NameCovers (c h : Bytes) : Prop :=
  c ≠ [] ∧ 0 ∉ c ∧ (EqFold c h ∨
    ∃ t p s, c = star :: t ∧ WildcardSuffix t ∧ h = p ++ s ∧ p ≠ [] ∧ EqFold t s)

/-- The two names are of one length and differ in their first byte only. -/
def FirstByteDiffers (c h : Bytes) : Prop :=
  ∃ y t x s, c = y :: t ∧ h = x :: s ∧ 0 ∉ c ∧ t.map lower = s.map lower ∧
    foldCase x ≠ foldCase y ∧ ¬ (y = star ∧ WildcardSuffix t)

/-- A wildcard that is not at the start of the name: `h` agrees with what comes
after the star, and the match goes no further than the star. -/
def BuriedWildcard (c h : Bytes) : Prop :=
  ∃ q t p s, c = q ++ star :: t ∧ q ≠ [] ∧ WildcardSuffix t ∧ h = p ++ s ∧ p ≠ [] ∧
    0 ∉ c ∧ t.map lower = s.map lower ∧ (p = [star] ∨ p.getLast? ≠ some star)

/-- The two kinds of names that the loop lets through by mistake. -/
def Escapes (c h : Bytes) : Prop := FirstByteDiffers c h ∨ BuriedWildcard c h

theorem checkHostname_sound {c h : Bytes} {certificateName : Nat → UInt8}
    (hcert : PointsAt certificateName c) (hh : h ≠ [])
    (haccept : checkHostname h certificateName c.length = true) :
    NameCovers c h ∨ Escapes c h := by
  obtain ⟨p, s, q, t, rfl, rfl, hmatch, hstop⟩ := exists_stop lower h c
  obtain ⟨hnul, hne, hverdict⟩ :=
    (checkHostname_split p s q t certificateName hcert hmatch hstop).mp haccept
  have hfold : EqFold t s := eqFold_of_lower hmatch.symm
  rcases List.eq_nil_or_concat' q with rfl | ⟨q, y, rfl⟩
  · -- the certificate name is used up
    rcases List.eq_nil_or_concat' p with rfl | ⟨p, x, rfl⟩
    · exact .inl ⟨hne, hnul, .inl hfold⟩
    · obtain ⟨y, t, rfl⟩ := List.exists_cons_of_ne_nil hne
      obtain ⟨x', s, rfl⟩ : ∃ x' s', s = x' :: s' :=
        List.exists_cons_of_ne_nil fun hs => by simp [hs] at hmatch
      simp only [stopCursors, or_true, if_true] at hverdict
      obtain ⟨rfl, ht⟩ := (verdict_wildcard certificateName [] t y _ _ hcert (by simp)
        fun hy => by simp [hy, star, dot]).mp hverdict
      simp only [List.map_cons, List.cons.injEq] at hmatch
      exact .inl ⟨hne, hnul, .inr ⟨t, p ++ [x] ++ [x'], s, rfl, ht, by simp, by simp,
        eqFold_of_lower hmatch.2.symm⟩⟩
  · rcases List.eq_nil_or_concat' p with rfl | ⟨p, x, rfl⟩
    · -- the hostname is used up: the cursor is at a star both names have
      obtain ⟨x, s, rfl⟩ := List.exists_cons_of_ne_nil hh
      obtain ⟨z, t, rfl⟩ : ∃ z t', t = z :: t' :=
        List.exists_cons_of_ne_nil fun ht => by simp [ht] at hmatch
      simp only [stopCursors, true_or, if_true] at hverdict
      obtain ⟨rfl, ht⟩ := (verdict_wildcard certificateName (q ++ [y]) t z _ _ hcert (by simp)
        fun hz => by simp [hz, star, dot]).mp hverdict
      simp only [List.map_cons, List.cons.injEq] at hmatch
      obtain rfl := lower_eq_star.mp hmatch.1
      exact .inr (.inr ⟨q ++ [y], t, [star], s, rfl, by simp, ht, rfl, by simp, hnul,
        hmatch.2.symm, .inl rfl⟩)
    · -- a mismatch of `x` and `y`
      have hxy : lower x ≠ lower y := hstop p x q y rfl rfl
      simp only [stopCursors, List.append_eq_nil_iff, List.cons_ne_nil, and_false, or_self,
        if_false, List.length_append, List.length_singleton, Nat.add_sub_cancel] at hverdict
      rw [List.append_assoc, List.singleton_append] at hcert hnul hne ⊢
      by_cases hzero : q.length = 0 ∧ p.length = 0
      · obtain rfl := List.length_eq_zero_iff.mp hzero.1
        obtain rfl := List.length_eq_zero_iff.mp hzero.2
        by_cases hstar : y = star ∧ WildcardSuffix t
        · exact .inl ⟨hne, hnul, .inr ⟨t, [x], s, by simp [hstar.1], hstar.2, rfl, by simp, hfold⟩⟩
        · by_cases hfirst : foldCase x = foldCase y
          · exact .inl ⟨hne, hnul, .inl (by simpa [EqFold, hfirst] using hfold)⟩
          · exact .inr (.inl ⟨y, t, x, s, rfl, rfl, hnul, hmatch.symm, hfirst, hstar⟩)
      · obtain ⟨rfl, ht⟩ :=
          (verdict_wildcard certificateName q t y _ _ hcert hzero fun _ => rfl).mp hverdict
        rcases List.eq_nil_or_concat' q with rfl | ⟨q, z, rfl⟩
        · exact .inl ⟨hne, hnul, .inr ⟨t, p ++ [x], s, rfl, ht, rfl, by simp, hfold⟩⟩
        · have hx : x ≠ star := fun hx => hxy (by rw [hx])
          exact .inr (.inr ⟨q ++ [z], t, p ++ [x], s, rfl, by simp, ht, rfl, by simp, hnul,
            hmatch.symm, .inr (by simpa using hx)⟩)

theorem checkHostname_of_escapes {c h : Bytes} {certificateName : Nat → UInt8}
    (hcert : PointsAt certificateName c) (hesc : Escapes c h) :
    checkHostname h certificateName c.length = true := by
  rcases hesc with ⟨y, t, x, s, rfl, rfl, hnul, hmatch, hfirst, -⟩ |
    ⟨q, t, p, s, rfl, hq, ht, rfl, hp, hnul, hmatch, hend⟩
  · have hxy : lower x ≠ lower y := fun h => hfirst (by
      rw [← foldCase_lower x, h, foldCase_lower])
    have hsplit := checkHostname_split [x] s [y] t certificateName hcert hmatch.symm
      (stop_concat lower hxy [] [])
    refine hsplit.mpr ⟨hnul, by simp, ?_⟩
    simp [stopCursors, verdict]
  · have hq0 : ∀ hostLength, ¬ (q.length = 0 ∧ hostLength = 0) := fun _ h0 =>
      hq (List.length_eq_zero_iff.mp h0.1)
    rcases hend with rfl | hend
    · have hsplit := checkHostname_split [] (star :: s) q (star :: t) certificateName hcert
        (by simp [hmatch]) (stop_nil_left lower q)
      refine hsplit.mpr ⟨hnul, by simp, ?_⟩
      simp only [stopCursors, true_or, if_true]
      exact (verdict_wildcard certificateName q t star _ _ hcert (hq0 _)
        fun _ => by simp [star, dot]).mpr ⟨rfl, ht⟩
    · obtain ⟨p, x, rfl⟩ := (List.eq_nil_or_concat' p).resolve_left hp
      have hx : x ≠ star := by simpa using hend
      have hassoc : q ++ star :: t = (q ++ [star]) ++ t := by simp
      have hsplit := checkHostname_split (p ++ [x]) s (q ++ [star]) t certificateName
        (hassoc ▸ hcert) hmatch.symm (stop_concat lower (fun h => hx (lower_eq_star.mp h)) p q)
      rw [← hassoc] at hsplit
      refine hsplit.mpr ⟨hnul, by simp, ?_⟩
      simp only [stopCursors, List.append_eq_nil_iff, List.cons_ne_nil, and_false, or_self,
        if_false, List.length_append, List.length_singleton, Nat.add_sub_cancel]
      exact (verdict_wildcard certificateName q t star _ _ hcert (hq0 _)
        fun _ => rfl).mpr ⟨rfl, ht⟩

theorem isValid_iff (certificate : X509) {hostname : Bytes} (hh : hostname ≠ []) :
    isValid certificate hostname = true ↔
      ∃ name ∈ certificate.names, isNameValid name hostname = true := by
  unfold isValid X509.names
  rw [if_neg hh]
  cases certificate.sanNames with
  | none => cases certificate.commonName <;> simp [isCnValid]
  | some sanNames =>
    simp only [isSanValid, List.any_eq_true, List.mem_filterMap]
    constructor
    · rintro ⟨currentName, hmem, hvalid⟩
      cases currentName with
      | dns dNSName => exact ⟨dNSName, ⟨_, hmem, rfl⟩, hvalid⟩
      | other => contradiction
    · rintro ⟨name, ⟨currentName, hmem, hname⟩, hvalid⟩
      cases currentName with
      | dns dNSName => exact ⟨_, hmem, by cases hname; exact hvalid⟩
      | other => contradiction

/-- Verification is sound for a certificate and a hostname exactly when none of
the certificate's names escapes against that hostname, or one covers it anyway. -/
theorem hostname_sound_iff (certificate : X509) (hostname : Bytes) (hh : hostname ≠ []) :
    (isValid certificate hostname = true →
        ∃ name ∈ certificate.names, NameCovers name.bytes hostname) ↔
      ((∃ name ∈ certificate.names, Escapes name.bytes hostname) →
        ∃ name ∈ certificate.names, NameCovers name.bytes hostname) := by
  rw [isValid_iff certificate hh]
  constructor
  · rintro hsound ⟨name, hmem, hesc⟩
    refine hsound ⟨name, hmem, ?_⟩
    have haccept := checkHostname_of_escapes (pointsAt_bytes name) hesc
    rwa [Asn1String.length_bytes] at haccept
  · rintro hcond ⟨name, hmem, haccept⟩
    rw [isNameValid, ← Asn1String.length_bytes] at haccept
    rcases checkHostname_sound (pointsAt_bytes name) hh haccept with hcovers | hesc
    · exact ⟨name, hmem, hcovers⟩
    · exact hcond ⟨name, hmem, hesc⟩

def aCom : X509 := ⟨some [.dns (.ofBytes [97, 46, 99, 111, 109])], none, [], []⟩

theorem hostname_sound_aCom :
    ∃ name ∈ aCom.names, NameCovers name.bytes [97, 46, 99, 111, 109] := by
  refine (hostname_sound_iff aCom [97, 46, 99, 111, 109] (by decide)).mpr ?_ (by decide)
  rintro ⟨name, hmem, hesc⟩
  obtain rfl : name = .ofBytes [97, 46, 99, 111, 109] := by simpa [X509.names, aCom] using hmem
  rw [Asn1String.bytes_ofBytes] at hesc
  rcases hesc with ⟨y, t, x, s, hc, hx, -, -, hfirst, -⟩ | ⟨q, t, p, s, hc, -⟩
  · simp only [List.cons.injEq] at hc hx
    exact absurd (by rw [← hx.1, ← hc.1]) hfirst
  · exact absurd (hc ▸ by simp) (by decide : star ∉ ([97, 46, 99, 111, 109] : Bytes))

/-- A certificate for `a.com` passes for `b.com`: the mismatch is at the first
byte, where both cursors have reached zero. -/
theorem hostname_unsound_firstByte :
    ¬ ∀ (certificate : X509) (hostname : Bytes), hostname ≠ [] →
      isValid certificate hostname = true →
      ∃ name ∈ certificate.names, NameCovers name.bytes hostname := by
  intro h
  obtain ⟨name, hmem, -, -, hcovers⟩ := h aCom [98, 46, 99, 111, 109] (by decide) (by decide)
  obtain rfl : name = .ofBytes [97, 46, 99, 111, 109] := by simpa [X509.names, aCom] using hmem
  rw [Asn1String.bytes_ofBytes] at hcovers
  rcases hcovers with hfold | ⟨t, p, s, hc, -⟩
  · exact absurd hfold (by decide)
  · simp [star] at hc

end Dote.Openssl.HostnameVerifier
