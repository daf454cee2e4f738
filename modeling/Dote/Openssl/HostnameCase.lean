import Dote.Openssl.HostnameSoundness

/-! The case of the letters in hostname verification. The source folds all letters
but the first and the last of the alphabet. -/
namespace Dote.Openssl.HostnameVerifier
open Dote.Library.Suffix

theorem lower_toNat (c : UInt8) : (lower c).toNat =
    if 65 < c.toNat ∧ c.toNat < 90 then c.toNat + 32 else c.toNat := by
  unfold lower
  simp only [UInt8.lt_iff_toNat_lt, UInt8.reduceToNat]
  split
  next h =>
    have h32 : (32 : UInt8).toNat = 32 := rfl
    rw [UInt8.toNat_add, h32, Nat.mod_eq_of_lt (by omega)]
  next => rfl

theorem foldCase_toNat (c : UInt8) : (foldCase c).toNat =
    if 65 ≤ c.toNat ∧ c.toNat ≤ 90 then c.toNat + 32 else c.toNat := by
  unfold foldCase
  simp only [UInt8.le_iff_toNat_le, UInt8.reduceToNat]
  split
  next h =>
    have h32 : (32 : UInt8).toNat = 32 := rfl
    rw [UInt8.toNat_add, h32, Nat.mod_eq_of_lt (by omega)]
  next => rfl

def EndLetter (c : UInt8) : Prop := foldCase c = 97 ∨ foldCase c = 122

instance (c : UInt8) : Decidable (EndLetter c) := inferInstanceAs (Decidable (_ ∨ _))

theorem foldCase_small (c : UInt8) : (foldCase c).toNat < 65 ∨ 90 < (foldCase c).toNat := by
  rw [foldCase_toNat]
  split
  next => omega
  next => omega

@[simp] theorem foldCase_foldCase (c : UInt8) : foldCase (foldCase c) = foldCase c := by
  have h := foldCase_small c
  rw [← UInt8.toNat_inj, foldCase_toNat (foldCase c), if_neg (by omega)]

@[simp] theorem foldCase_comp : foldCase ∘ foldCase = foldCase := by
  funext c
  exact foldCase_foldCase c

theorem lower_eq_of_foldCase {x y : UInt8} (h : foldCase x = foldCase y) (hy : ¬ EndLetter y) :
    lower x = lower y := by
  have hx' := foldCase_toNat x
  have hy' := foldCase_toNat y
  rw [h] at hx'
  unfold EndLetter at hy
  simp only [← UInt8.toNat_inj, UInt8.reduceToNat, lower_toNat] at hy ⊢
  grind

theorem foldCase_eq_of_lower {x y : UInt8} (h : lower x = lower y) : foldCase x = foldCase y := by
  rw [← foldCase_lower x, h, foldCase_lower]

theorem exists_unfolded {y : UInt8} (h : EndLetter y) :
    ∃ x, foldCase x = foldCase y ∧ lower x ≠ lower (foldCase y) := by
  rcases h with h | h
  · exact ⟨65, by rw [h]; rfl, by rw [h]; decide⟩
  · exact ⟨90, by rw [h]; rfl, by rw [h]; decide⟩

theorem foldCase_eq_iff {c symbol : UInt8} (h : symbol.toNat < 65) :
    foldCase c = symbol ↔ c = symbol := by
  simp only [← UInt8.toNat_inj, foldCase_toNat]
  split
  next => omega
  next => rfl

/-- What the two names may look like in front of the part `t` of the certificate name
that the host name agrees with: nothing is left, or a byte of each, or the
certificate name goes on with a star. Where one of them is used up the star may
be the last that was compared. -/
def Matches (p q t : Bytes) : Prop :=
  (p = [] ∧ q = []) ∨ (p.length = 1 ∧ q.length = 1) ∨
    (p ≠ [] ∧ q.getLast? = some star ∧ WildcardSuffix t) ∨
    ((p = [] ∨ q = []) ∧ ∃ t', t = star :: t' ∧ WildcardSuffix t')

theorem verdict_none (certificateName : Nat → UInt8) {certLength hostLength : Nat}
    (h : ¬ (certLength = 0 ∧ hostLength = 0)) :
    verdict certificateName ⟨certLength, hostLength, 0⟩ = false := by
  simp [verdict, h]

theorem verdict_iff (certificateName : Nat → UInt8) (p q t : Bytes)
    (hcert : PointsAt certificateName (q ++ t)) :
    verdict certificateName (stopCursors p q (t.count dot)) = true ↔ Matches p q t := by
  unfold Matches
  rcases List.eq_nil_or_concat' q with rfl | ⟨q, y, rfl⟩
  · rcases List.eq_nil_or_concat' p with rfl | ⟨p, x, rfl⟩
    · simp [stopCursors, verdict]
    · simp only [stopCursors, or_true, if_true, true_and]
      cases t with
      | nil => simp [verdict_none]
      | cons z t =>
        rw [verdict_wildcard certificateName [] t z _ _ hcert (by simp) (by
          intro hz
          simp [hz, star, dot])]
        simp
  · rcases List.eq_nil_or_concat' p with rfl | ⟨p, x, rfl⟩
    · simp only [stopCursors, true_or, if_true, true_and]
      cases t with
      | nil => simp [verdict_none]
      | cons z t =>
        rw [verdict_wildcard certificateName (q ++ [y]) t z _ _ hcert (by simp) (by
          intro hz
          simp [hz, star, dot])]
        simp
    · rw [List.append_assoc, List.singleton_append] at hcert
      simp only [stopCursors, List.append_eq_nil_iff, List.cons_ne_nil, and_false, or_self,
        if_false, List.length_append, List.length_singleton, Nat.add_sub_cancel]
      by_cases hzero : q.length = 0 ∧ p.length = 0
      · simp [verdict, hzero]
      · rw [verdict_wildcard certificateName q t y _ _ hcert hzero fun _ => rfl]
        simp
        rintro rfl rfl
        simp at hzero

theorem checkHostname_iff (p s q t : Bytes) (certificateName : Nat → UInt8)
    (hcert : PointsAt certificateName (q ++ t)) (hmatch : s.map lower = t.map lower)
    (hstop : Stop lower p q) :
    checkHostname (p ++ s) certificateName (q ++ t).length = true ↔
      0 ∉ q ++ t ∧ q ++ t ≠ [] ∧ Matches p q t := by
  rw [checkHostname_split p s q t certificateName hcert hmatch hstop,
    verdict_iff certificateName p q t hcert]

theorem head?_map_foldCase {t : Bytes} {symbol : UInt8} (h : symbol.toNat < 65) :
    (t.map foldCase).head? = some symbol ↔ t.head? = some symbol := by
  cases t with
  | nil => simp
  | cons c t => simp [foldCase_eq_iff h]

theorem wildcardSuffix_map (t : Bytes) : WildcardSuffix (t.map foldCase) ↔ WildcardSuffix t := by
  have hcount : (t.map foldCase).count dot = t.count dot := by
    rw [List.count_eq_countP, List.count_eq_countP, List.countP_map]
    congr 1
    ext c
    rw [Function.comp_apply, Bool.eq_iff_iff, beq_iff_eq, beq_iff_eq,
      foldCase_eq_iff (by decide)]
  unfold WildcardSuffix
  rw [head?_map_foldCase (by decide), hcount]

theorem matches_map (p q t : Bytes) :
    Matches (p.map foldCase) (q.map foldCase) (t.map foldCase) ↔ Matches p q t := by
  have hlast : (q.map foldCase).getLast? = some star ↔ q.getLast? = some star := by
    rw [List.getLast?_eq_head?_reverse, List.getLast?_eq_head?_reverse, ← List.map_reverse,
      head?_map_foldCase (by decide)]
  have hstar : (∃ t', t.map foldCase = star :: t' ∧ WildcardSuffix t') ↔
      ∃ t', t = star :: t' ∧ WildcardSuffix t' := by
    cases t with
    | nil => simp
    | cons c t =>
      simp only [List.map_cons, List.cons.injEq, foldCase_eq_iff (show star.toNat < 65 by decide)]
      constructor
      · rintro ⟨_, ⟨hc, rfl⟩, ht⟩
        exact ⟨t, ⟨hc, rfl⟩, (wildcardSuffix_map t).mp ht⟩
      · rintro ⟨_, ⟨hc, rfl⟩, ht⟩
        exact ⟨_, ⟨hc, rfl⟩, (wildcardSuffix_map _).mpr ht⟩
  unfold Matches
  rw [hlast, hstar, wildcardSuffix_map]
  simp

theorem map_lower_eq {t : Bytes} : ∀ {s : Bytes}, s.map foldCase = t.map foldCase →
    (∀ y ∈ t, ¬ EndLetter y) → s.map lower = t.map lower := by
  induction t with
  | nil =>
    intro s h _
    simpa using h
  | cons y t ih =>
    intro s h hends
    cases s with
    | nil => simp at h
    | cons x s =>
      simp only [List.map_cons, List.cons.injEq] at h ⊢
      exact ⟨lower_eq_of_foldCase h.1 (hends y (by simp)),
        ih h.2 fun y hy => hends y (by simp [hy])⟩

/-- The part of the certificate name that the host name agrees with up to case. The
first bytes of names that agree throughout are not compared. -/
def compared (p q t : Bytes) : Bytes := if p = [] ∧ q = [] then t.tail else t

theorem checkHostname_safe (p s q t : Bytes) (certificateName : Nat → UInt8)
    (hcert : PointsAt certificateName (q ++ t)) (hfold : s.map foldCase = t.map foldCase)
    (hstop : Stop foldCase p q) (hsafe : ∀ y ∈ compared p q t, ¬ EndLetter y) :
    checkHostname (p ++ s) certificateName (q ++ t).length = true ↔
      0 ∉ q ++ t ∧ q ++ t ≠ [] ∧ Matches p q t := by
  have hlower : Stop lower p q := hstop.finer fun _ _ => foldCase_eq_of_lower
  unfold compared at hsafe
  split at hsafe
  next hnil =>
    obtain ⟨rfl, rfl⟩ := hnil
    cases t with
    | nil => exact checkHostname_iff [] s [] [] certificateName hcert (by simpa using hfold) hlower
    | cons y t =>
      cases s with
      | nil => simp at hfold
      | cons x s =>
        simp only [List.map_cons, List.cons.injEq] at hfold
        have hrest := map_lower_eq hfold.2 hsafe
        by_cases hxy : lower x = lower y
        · exact checkHostname_iff [] (x :: s) [] (y :: t) certificateName hcert
            (by simp [hxy, hrest]) hlower
        · have hfirst := checkHostname_iff [x] s [y] t certificateName hcert hrest
            (stop_concat lower hxy [] [])
          simpa [Matches] using hfirst
  next =>
    exact checkHostname_iff p s q t certificateName hcert (map_lower_eq hfold hsafe) hlower

theorem matches_of_checkHostname (p s q t : Bytes) (certificateName : Nat → UInt8)
    (hcert : PointsAt certificateName (q ++ t)) (hfold : s.map foldCase = t.map foldCase)
    (hstop : Stop foldCase p q)
    (haccept : checkHostname (p ++ s) certificateName (q ++ t).length = true) :
    0 ∉ q ++ t ∧ q ++ t ≠ [] ∧ Matches p q t := by
  obtain ⟨p', s', q', t', hp, hq, hmatch, hstop'⟩ := exists_stop lower (p ++ s) (q ++ t)
  rw [hp, hq] at haccept
  rw [hq] at hcert ⊢
  obtain ⟨hnul, hne, hmatches⟩ :=
    (checkHostname_iff p' s' q' t' certificateName hcert hmatch hstop').mp haccept
  refine ⟨hnul, hne, ?_⟩
  by_cases hsame : Stop foldCase p' q'
  · obtain ⟨rfl, -, rfl, rfl⟩ := stop_unique hsame hstop hp hq (eqFold_of_lower hmatch) hfold
    exact hmatches
  · -- the source has stopped at a letter that it does not fold
    simp only [Stop, not_forall, not_not] at hsame
    obtain ⟨p'', x, q'', y, rfl, rfl, hxy⟩ := hsame
    have hdiffer := hstop' p'' x q'' y rfl rfl
    have hstar : y ≠ star := by
      rintro rfl
      have hx := (foldCase_eq_iff (show star.toNat < 65 by decide)).mp (hxy.trans rfl)
      exact hdiffer (by rw [hx])
    rcases hmatches with ⟨hnil, -⟩ | ⟨hp', hq'⟩ | ⟨-, hlast, -⟩ | ⟨hnil, -⟩
    · simp at hnil
    · obtain rfl : p'' = [] := List.eq_nil_of_length_eq_zero (by simpa using hp')
      obtain rfl : q'' = [] := List.eq_nil_of_length_eq_zero (by simpa using hq')
      have hwhole : (x :: s').map foldCase = (y :: t').map foldCase := by
        rw [List.map_cons, List.map_cons, hxy, eqFold_of_lower hmatch]
      obtain ⟨hp, -, hq, -⟩ := stop_unique hstop (stop_nil_left foldCase []) hp.symm hq.symm
        hfold hwhole
      exact .inl ⟨hp.symm, hq.symm⟩
    · rw [List.getLast?_concat] at hlast
      exact absurd (Option.some.inj hlast) hstar
    · simp at hnil

theorem checkHostname_folded (p s q t : Bytes) (certificateName : Nat → UInt8)
    (hcert : PointsAt certificateName ((q ++ t).map foldCase))
    (hfold : s.map foldCase = t.map foldCase) (hstop : Stop foldCase p q) :
    checkHostname ((p ++ s).map foldCase) certificateName ((q ++ t).map foldCase).length = true ↔
      0 ∉ (q ++ t).map foldCase ∧ q ++ t ≠ [] ∧ Matches p q t := by
  have hmatch : (s.map foldCase).map lower = (t.map foldCase).map lower := by rw [hfold]
  have hstop' : Stop lower (p.map foldCase) (q.map foldCase) :=
    (hstop.congr (by simp) (by simp)).finer fun _ _ => foldCase_eq_of_lower
  rw [List.map_append] at hcert ⊢
  rw [List.map_append, checkHostname_iff _ _ _ _ certificateName hcert hmatch hstop', matches_map]
  simp

/-- A letter at an end of the alphabet, a capital in one of the names only, is where
the two names stop to agree. -/
theorem not_checkHostname_unfolded (p s q t : Bytes) {x y : UInt8} (certificateName : Nat → UInt8)
    (hcert : PointsAt certificateName (q ++ ([y] ++ t))) (hmatch : s.map lower = t.map lower)
    (hxy : lower x ≠ lower y) (hy : y ≠ star) (hfirst : ¬ (p = [] ∧ q = [])) :
    checkHostname (p ++ ([x] ++ s)) certificateName (q ++ ([y] ++ t)).length = false := by
  rw [← List.append_assoc] at hcert ⊢
  rw [← List.append_assoc, Bool.eq_false_iff]
  intro haccept
  obtain ⟨-, -, hmatches⟩ := (checkHostname_iff (p ++ [x]) s (q ++ [y]) t certificateName hcert
    hmatch (stop_concat lower hxy p q)).mp haccept
  rcases hmatches with ⟨hnil, -⟩ | ⟨hp, hq⟩ | ⟨-, hlast, -⟩ | ⟨hnil, -⟩
  · simp at hnil
  · apply hfirst
    simpa using And.intro hp hq
  · rw [List.getLast?_concat] at hlast
    exact hy (Option.some.inj hlast)
  · simp at hnil

/-- Where the names match with all case folded, the part of the certificate name that
is compared has neither `A` nor `Z`, in either case. -/
def CaseSafe (h c : Bytes) : Prop :=
  ∀ p s q t, h = p ++ s → c = q ++ t → s.map foldCase = t.map foldCase → Stop foldCase p q →
    0 ∉ c → c ≠ [] → Matches p q t → ∀ y ∈ compared p q t, ¬ EndLetter y

def CaseBlind (h c : Bytes) (verdict : Bool) : Prop :=
  ∀ h' c' (certificateName : Nat → UInt8), PointsAt certificateName c' → EqFold h' h →
    EqFold c' c → checkHostname h' certificateName c'.length = verdict

theorem pointsAt_getD (c : Bytes) : PointsAt (c.getD · 0) c := by
  intro i hi
  simp [List.getD_eq_getElem?_getD, hi]

theorem zero_mem_map (c : Bytes) : 0 ∈ c.map foldCase ↔ 0 ∈ c := by
  simp [List.mem_map, foldCase_eq_iff (show (0 : UInt8).toNat < 65 by decide)]

theorem zero_mem_iff {c c' : Bytes} (h : EqFold c' c) : 0 ∈ c' ↔ 0 ∈ c := by
  rw [← zero_mem_map c', h, zero_mem_map]

theorem ne_nil_iff {c c' : Bytes} (h : EqFold c' c) : c' ≠ [] ↔ c ≠ [] := by
  rw [ne_eq, ne_eq, ← List.map_eq_nil_iff (f := foldCase), h, List.map_eq_nil_iff]

theorem matches_iff {p q t p' q' t' : Bytes} (hp : EqFold p' p) (hq : EqFold q' q)
    (ht : EqFold t' t) : Matches p' q' t' ↔ Matches p q t := by
  rw [← matches_map p', hp, hq, ht, matches_map]

theorem compared_map (p q t : Bytes) :
    (compared p q t).map foldCase =
      compared (p.map foldCase) (q.map foldCase) (t.map foldCase) := by
  unfold compared
  simp only [List.map_eq_nil_iff]
  split
  next => exact List.map_tail
  next => rfl

theorem checkHostname_eqFold (p s q t h' c' : Bytes) (certificateName : Nat → UInt8)
    (hcert : PointsAt certificateName c') (hh : EqFold h' (p ++ s)) (hc : EqFold c' (q ++ t))
    (hfold : s.map foldCase = t.map foldCase) (hstop : Stop foldCase p q)
    (hsafe : 0 ∉ q ++ t → q ++ t ≠ [] → Matches p q t → ∀ y ∈ compared p q t, ¬ EndLetter y) :
    checkHostname h' certificateName c'.length = true ↔
      0 ∉ q ++ t ∧ q ++ t ≠ [] ∧ Matches p q t := by
  obtain ⟨p', s', rfl, hp, hs⟩ :=
    List.map_eq_append_iff.mp (hh.trans List.map_append)
  obtain ⟨q', t', rfl, hq, ht⟩ :=
    List.map_eq_append_iff.mp (hc.trans List.map_append)
  have hfold' : s'.map foldCase = t'.map foldCase := by rw [hs, ht, hfold]
  have hstop' := hstop.congr hp hq
  rw [← zero_mem_iff hc, ← ne_nil_iff hc, ← matches_iff hp hq ht] at hsafe ⊢
  constructor
  · exact matches_of_checkHostname p' s' q' t' certificateName hcert hfold' hstop'
  · rintro ⟨hnul, hne, hmatches⟩
    have hsafe' : ∀ y ∈ compared p' q' t', ¬ EndLetter y := by
      intro y' hy' hend
      have hmem := List.mem_map_of_mem (f := foldCase) hy'
      rw [compared_map, hp, hq, ht, ← compared_map] at hmem
      obtain ⟨y, hy, hyy'⟩ := List.mem_map.mp hmem
      apply hsafe hnul hne hmatches y hy
      rwa [EndLetter, hyy']
    exact (checkHostname_safe p' s' q' t' certificateName hcert hfold' hstop' hsafe').mpr
      ⟨hnul, hne, hmatches⟩

theorem exists_compared {p q t : Bytes} {y : UInt8} (hy : y ∈ compared p q t) :
    ∃ t₁ t₂, t = t₁ ++ ([y] ++ t₂) ∧ ¬ (p ++ t₁ = [] ∧ q ++ t₁ = []) := by
  unfold compared at hy
  split at hy
  next hnil =>
    cases t with
    | nil => contradiction
    | cons z t =>
      obtain ⟨t₁, t₂, rfl⟩ := List.append_of_mem hy
      exact ⟨z :: t₁, t₂, rfl, by simp⟩
  next hnil =>
    obtain ⟨t₁, t₂, rfl⟩ := List.append_of_mem hy
    refine ⟨t₁, t₂, rfl, ?_⟩
    intro h
    exact hnil ⟨(List.append_eq_nil_iff.mp h.1).1, (List.append_eq_nil_iff.mp h.2).1⟩

/-- Hostname verification ignores the case of two names, and accepts names that are
equal up to case, exactly when they are safe from the letters that it does not fold. -/
theorem checkHostname_caseBlind_iff (h c : Bytes) {certificateName : Nat → UInt8}
    (hcert : PointsAt certificateName c) :
    (CaseBlind h c (checkHostname h certificateName c.length) ∧
      (EqFold h c → c ≠ [] → 0 ∉ c → checkHostname h certificateName c.length = true)) ↔
      CaseSafe h c := by
  constructor
  · rintro ⟨hblind, -⟩ p s q t rfl rfl hfold hstop hnul hne hmatches y hy hend
    obtain ⟨t₁, t₂, rfl, hfirst⟩ := exists_compared hy
    obtain ⟨x, hxy, hdiffer⟩ := exists_unfolded hend
    have haccept := (checkHostname_folded p s q (t₁ ++ ([y] ++ t₂)) _ (pointsAt_getD _) hfold
      hstop).mpr ⟨by rwa [zero_mem_map], hne, hmatches⟩
    have hstar : foldCase y ≠ star := by
      intro hstar
      rw [EndLetter, hstar] at hend
      revert hend
      decide
    have hreject := not_checkHostname_unfolded ((p ++ t₁).map foldCase) (t₂.map foldCase)
      ((q ++ t₁).map foldCase) (t₂.map foldCase) _ (pointsAt_getD _) rfl hdiffer hstar
      (by simpa using hfirst)
    rw [hblind _ _ _ (pointsAt_getD _) (by simp [EqFold]) (by simp [EqFold])] at haccept
    rw [hblind _ _ _ (pointsAt_getD _) (by simp [EqFold, hfold, hxy]) (by simp [EqFold]),
      haccept] at hreject
    contradiction
  · intro hsafe
    obtain ⟨p, s, q, t, rfl, rfl, hfold, hstop⟩ := exists_stop foldCase h c
    have hverdict := fun h' c' certificateName' hcert' hh hc =>
      checkHostname_eqFold p s q t h' c' certificateName' hcert' hh hc hfold hstop
        (hsafe p s q t rfl rfl hfold hstop)
    constructor
    · intro h' c' certificateName' hcert' hh hc
      rw [Bool.eq_iff_iff, hverdict h' c' _ hcert' hh hc, hverdict _ _ _ hcert rfl rfl]
    · intro heq hne hnul
      obtain ⟨hp, -, hq, -⟩ := stop_unique hstop (stop_nil_left foldCase []) rfl rfl hfold heq
      exact (hverdict _ _ _ hcert rfl rfl).mpr ⟨hnul, hne, .inl ⟨hp.symm, hq.symm⟩⟩

theorem checkHostname_caseBlind_foo :
    CaseBlind [102, 111, 111, 46, 111, 114, 103] [102, 111, 111, 46, 111, 114, 103] true := by
  have hsafe : CaseSafe [102, 111, 111, 46, 111, 114, 103] [102, 111, 111, 46, 111, 114, 103] := by
    intro p s q t _ hc _ _ _ _ _ y hy
    have hmem : y ∈ ([102, 111, 111, 46, 111, 114, 103] : Bytes) := by
      rw [hc]
      apply List.mem_append_right
      unfold compared at hy
      split at hy
      next => exact List.mem_of_mem_tail hy
      next => exact hy
    have hnone : ∀ y ∈ ([102, 111, 111, 46, 111, 114, 103] : Bytes), ¬ EndLetter y := by
      decide +kernel
    exact hnone y hmem
  exact ((checkHostname_caseBlind_iff _ _
    (pointsAt_getD [102, 111, 111, 46, 111, 114, 103])).mpr hsafe).1

/-- A certificate for `oz` passes for the host `oz`, and one for `oZ` does not. -/
theorem not_checkHostname_caseBlind :
    checkHostname [111, 122] ([111, 122].getD · 0) 2 = true ∧
      checkHostname [111, 122] ([111, 90].getD · 0) 2 = false ∧
      EqFold [111, 122] [111, 90] ∧
      ¬ ∀ (h c : Bytes) (certificateName : Nat → UInt8), PointsAt certificateName c →
        CaseBlind h c (checkHostname h certificateName c.length) := by
  have hsame : checkHostname [111, 122] ([111, 122].getD · 0) 2 = true := by decide
  have hother : checkHostname [111, 122] ([111, 90].getD · 0) 2 = false := by decide
  refine ⟨hsame, hother, by decide, ?_⟩
  intro hall
  have hblind := hall [111, 122] [111, 122] _ (pointsAt_getD _) [111, 122] [111, 90] _
    (pointsAt_getD _) rfl (by decide)
  exact absurd (hother.symm.trans (hblind.trans hsame)) (by decide)

end Dote.Openssl.HostnameVerifier
