import Mathlib.Data.List.Basic
import Mathlib.Data.List.Induction

/-! Suffixes of two lists that agree under a key. A comparison that walks two
lists from their ends stops at the longest pair of suffixes with equal keys;
everything it can report is read off the two prefixes left in front of them. -/
namespace Dote.Library.Suffix

variable {α κ : Type} (key : α → κ)

/-- Where a walk from the ends stops: one list is used up, or the keys of the
last two items left are different. -/
def Stop (left right : List α) : Prop :=
  ∀ p x q y, left = p ++ [x] → right = q ++ [y] → key x ≠ key y

theorem stop_nil_left (right : List α) : Stop key [] right := by
  intro p x q y h
  simp at h

theorem stop_nil_right (left : List α) : Stop key left [] := by
  intro p x q y _ h
  simp at h

theorem stop_concat {x y : α} (h : key x ≠ key y) (p q : List α) :
    Stop key (p ++ [x]) (q ++ [y]) := by
  intro p' x' q' y' hx hy
  have hx' := (List.append_inj' hx rfl).2
  have hy' := (List.append_inj' hy rfl).2
  simp only [List.cons.injEq, and_true] at hx' hy'
  rwa [← hx', ← hy']

theorem exists_stop (left right : List α) :
    ∃ p s q t, left = p ++ s ∧ right = q ++ t ∧ s.map key = t.map key ∧ Stop key p q := by
  induction left using List.reverseRecOn generalizing right with
  | nil => exact ⟨[], [], right, [], by simp, by simp, rfl, stop_nil_left key right⟩
  | append_singleton left x ih =>
    rcases List.eq_nil_or_concat' right with rfl | ⟨right, y, rfl⟩
    · exact ⟨left ++ [x], [], [], [], by simp, by simp, rfl, stop_nil_right key _⟩
    · by_cases h : key x = key y
      · obtain ⟨p, s, q, t, hl, hr, hst, hstop⟩ := ih right
        exact ⟨p, s ++ [x], q, t ++ [y], by simp [hl], by simp [hr], by simp [hst, h], hstop⟩
      · exact ⟨left ++ [x], [], right ++ [y], [], by simp, by simp, rfl,
          stop_concat key h left right⟩

variable {key} {p q s t : List α}

theorem Stop.finer {κ' : Type} {key' : α → κ'} (h : Stop key p q)
    (hfiner : ∀ x y, key' x = key' y → key x = key y) : Stop key' p q :=
  fun p' x q' y hp hq heq => h p' x q' y hp hq (hfiner x y heq)

theorem Stop.congr {p' q' : List α} (h : Stop key p q) (hp : p'.map key = p.map key)
    (hq : q'.map key = q.map key) : Stop key p' q' := by
  rintro p'' x' q'' y' rfl rfl
  rw [List.map_append, eq_comm, List.map_eq_append_iff] at hp hq
  obtain ⟨p₁, p₂, rfl, -, hx⟩ := hp
  obtain ⟨q₁, q₂, rfl, -, hy⟩ := hq
  obtain ⟨x, rfl, hxx'⟩ := List.map_eq_singleton_iff.mp hx
  obtain ⟨y, rfl, hyy'⟩ := List.map_eq_singleton_iff.mp hy
  rw [← hxx', ← hyy']
  exact h p₁ x q₁ y rfl rfl

/-- A walk does not stop before it has gone over suffixes that agree. -/
theorem Stop.length_le {p' q' s' t' : List α} (h : Stop key p' q') (hp : p' ++ s' = p ++ s)
    (hq : q' ++ t' = q ++ t) (hst : s.map key = t.map key) (hst' : s'.map key = t'.map key) :
    s.length ≤ s'.length := by
  by_contra hlt
  have hlength := congrArg List.length hst
  have hlength' := congrArg List.length hst'
  simp only [List.length_map] at hlength hlength'
  have hsplit : ∀ {a a' b b' : List α}, a' ++ b' = a ++ b → b'.length < b.length →
      ∃ u x, a' = a ++ (u ++ [x]) ∧ b = u ++ [x] ++ b' := by
    intro a a' b b' heq hshort
    rcases List.append_eq_append_iff.mp heq with ⟨u, rfl, rfl⟩ | ⟨u, rfl, rfl⟩
    · rw [List.length_append] at hshort
      omega
    · rcases List.eq_nil_or_concat' u with rfl | ⟨u, x, rfl⟩
      · simp at hshort
      · exact ⟨u, x, rfl, rfl⟩
  obtain ⟨u, x, rfl, rfl⟩ := hsplit hp (by omega)
  obtain ⟨v, y, rfl, rfl⟩ := hsplit hq (by omega)
  simp only [List.map_append] at hst
  have huv := (List.append_inj' hst (by simpa using hlength')).1
  have hxy := (List.append_inj' huv rfl).2
  simp only [List.map_cons, List.map_nil, List.cons.injEq, and_true] at hxy
  exact h (p ++ u) x (q ++ v) y (by simp) (by simp) hxy

theorem stop_unique {p' q' s' t' : List α} (h : Stop key p q) (h' : Stop key p' q')
    (hp : p' ++ s' = p ++ s) (hq : q' ++ t' = q ++ t) (hst : s.map key = t.map key)
    (hst' : s'.map key = t'.map key) : p' = p ∧ s' = s ∧ q' = q ∧ t' = t := by
  have hle := h'.length_le hp hq hst hst'
  have hge := h.length_le hp.symm hq.symm hst' hst
  have hlength := congrArg List.length hst
  have hlength' := congrArg List.length hst'
  simp only [List.length_map] at hlength hlength'
  obtain ⟨hp, hs⟩ := List.append_inj' hp (by omega)
  obtain ⟨hq, ht⟩ := List.append_inj' hq (by omega)
  exact ⟨hp, hs, hq, ht⟩

end Dote.Library.Suffix
