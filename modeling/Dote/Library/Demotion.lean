import Mathlib.Data.List.Dedup
import Mathlib.Data.List.Induction
import Mathlib.Data.List.Perm.Basic
import Mathlib.Data.List.Nodup
import Mathlib.Tactic.Common

/-! A list whose items are moved to the end by their keys, and the order that it
has after any number of such moves. -/
namespace Dote.Library

variable {α κ : Type} [DecidableEq κ] (key : α → κ)

/-- The first item with the key goes to the end. -/
def demote (items : List α) (k : κ) : List α :=
  items.eraseP (fun a => key a = k) ++ (items.find? fun a => key a = k).toList

theorem perm_demote (items : List α) (k : κ) : (demote key items k).Perm items := by
  induction items with
  | nil => exact List.Perm.refl []
  | cons a items ih =>
    unfold demote at ih ⊢
    by_cases ha : key a = k
    · rw [List.eraseP_cons_of_pos (by simpa using ha), List.find?_cons_of_pos (by simpa using ha)]
      exact List.perm_append_singleton a items
    · rw [List.eraseP_cons_of_neg (by simpa using ha), List.find?_cons_of_neg (by simpa using ha)]
      exact ih.cons a

variable {key}

theorem demote_eq {items : List α} (h : (items.map key).Nodup) (k : κ) :
    demote key items k =
      items.filter (fun a => key a ≠ k) ++ items.filter fun a => key a = k := by
  induction items with
  | nil => rfl
  | cons a items ih =>
    rw [List.map_cons, List.nodup_cons] at h
    have hrest := ih h.2
    unfold demote at hrest ⊢
    by_cases ha : key a = k
    · have hothers : ∀ b ∈ items, key b ≠ k := by
        rintro b hb rfl
        exact h.1 (ha ▸ List.mem_map_of_mem hb)
      have hall : items.filter (fun b => decide (key b ≠ k)) = items :=
        List.filter_eq_self.mpr fun b hb => by simpa using hothers b hb
      have hnone : items.filter (fun b => decide (key b = k)) = [] :=
        List.filter_eq_nil_iff.mpr fun b hb => by simpa using hothers b hb
      simp only [ne_eq, decide_not] at hall
      simp [ha, hall, hnone]
    · simpa [ha] using hrest

theorem demote_perm {items : List α} (h : (items.map key).Nodup) (k : κ) :
    (demote key items k).Perm items := by
  have hparts := List.filter_append_perm (fun a => decide (key a ≠ k)) items
  have hnot : (fun a => !decide (key a ≠ k)) = fun a => decide (key a = k) := by
    funext a
    simp
  rw [hnot] at hparts
  rw [demote_eq h]
  exact hparts

theorem demote_nodup {items : List α} (h : (items.map key).Nodup) (k : κ) :
    ((demote key items k).map key).Nodup := ((demote_perm h k).map key).nodup_iff.mpr h

theorem filter_demote {items : List α} (h : (items.map key).Nodup) (k k' : κ) :
    (demote key items k).filter (fun a => key a = k') =
      items.filter fun a => key a = k' := by
  rw [demote_eq h, List.filter_append, List.filter_filter, List.filter_filter]
  by_cases hk : k' = k
  · have hnone : items.filter (fun a => decide (key a = k') && decide (key a ≠ k)) = [] := by
      rw [List.filter_eq_nil_iff]
      intro a _
      simp [hk]
    rw [hnone, List.nil_append]
    apply List.filter_congr
    intro a _
    simp [hk]
  · have hnone : items.filter (fun a => decide (key a = k') && decide (key a = k)) = [] := by
      rw [List.filter_eq_nil_iff]
      intro a _
      simp only [Bool.and_eq_true, decide_eq_true_eq, not_and]
      rintro rfl
      exact hk
    rw [hnone, List.append_nil]
    apply List.filter_congr
    intro a _
    by_cases ha : key a = k'
    · simp [ha, hk]
    · simp [ha]

theorem foldl_demote_perm (ks : List κ) : ∀ {items : List α}, (items.map key).Nodup →
    (ks.foldl (demote key) items).Perm items := by
  induction ks with
  | nil => exact fun _ => .refl _
  | cons k ks ih => exact fun h => (ih (demote_nodup h k)).trans (demote_perm h k)

/-- The items whose keys have not been named are in front, in the order that they
had; behind them are the others, by the last time that they were named. -/
theorem foldl_demote (ks : List κ) : ∀ {items : List α}, (items.map key).Nodup →
    ks.foldl (demote key) items = items.filter (fun a => key a ∉ ks) ++
      ks.dedup.flatMap fun k => items.filter fun a => key a = k := by
  induction ks with
  | nil => simp
  | cons k ks ih =>
    intro items h
    rw [List.foldl_cons, ih (demote_nodup h k)]
    simp only [filter_demote h]
    rw [demote_eq h, List.filter_append, List.filter_filter, List.filter_filter]
    have hfront : items.filter (fun a => decide (key a ∉ ks) && decide (key a ≠ k)) =
        items.filter fun a => key a ∉ k :: ks := by
      apply List.filter_congr
      intro a _
      simp [Bool.and_comm]
    rw [hfront]
    by_cases hk : k ∈ ks
    · have hnone : items.filter (fun a => decide (key a ∉ ks) && decide (key a = k)) = [] := by
        rw [List.filter_eq_nil_iff]
        intro a _
        simp only [Bool.and_eq_true, decide_eq_true_eq, not_and]
        rintro ha rfl
        exact ha hk
      rw [hnone, List.append_nil, List.dedup_cons_of_mem hk]
    · have hback : items.filter (fun a => decide (key a ∉ ks) && decide (key a = k)) =
          items.filter fun a => key a = k := by
        apply List.filter_congr
        intro a _
        by_cases ha : key a = k
        · simp [ha, hk]
        · simp [ha]
      rw [hback, List.dedup_cons_of_notMem hk, List.flatMap_cons, List.append_assoc]

/-- Of two items the one in front has not been named since the other was, or neither has
been named and they are in their order. -/
theorem of_pair_sublist (ks : List κ) {items : List α} (h : (items.map key).Nodup) {a b : α}
    (hpair : [a, b].Sublist (ks.foldl (demote key) items)) :
    (∃ earlier later, ks = earlier ++ later ∧ key b ∈ later ∧ key a ∉ later) ∨
      (key a ∉ ks ∧ key b ∉ ks ∧ [a, b].Sublist items) := by
  induction ks using List.reverseRecOn with
  | nil => exact .inr ⟨List.not_mem_nil, List.not_mem_nil, hpair⟩
  | append_singleton ks k ih =>
    have hkeys : ((ks.foldl (demote key) items).map key).Nodup :=
      ((foldl_demote_perm ks h).map key).nodup_iff.mpr h
    rw [List.foldl_append, List.foldl_cons, List.foldl_nil] at hpair
    have hne : key a ≠ key b := by
      have hnodup := (demote_nodup hkeys k).sublist (hpair.map key)
      simpa using hnodup
    rw [demote_eq hkeys] at hpair
    by_cases hb : key b = k
    · exact .inl ⟨ks, [k], rfl, by simp [hb], by simpa [hb] using hne⟩
    · have ha : key a ≠ k := by
        rintro rfl
        obtain ⟨front, back, heq, hfront, hback⟩ := List.sublist_append_iff.mp hpair
        cases front with
        | nil =>
          have hmem := hback.subset (heq ▸ List.mem_cons_of_mem a List.mem_cons_self)
          exact hb (by simpa using (List.mem_filter.mp hmem).2)
        | cons first front =>
          obtain rfl : a = first := (List.cons.inj heq).1
          have hmem := hfront.subset List.mem_cons_self
          simp at hmem
      have hbefore : [a, b].Sublist (ks.foldl (demote key) items) := by
        have hfilter := hpair.filter fun item => decide (key item ≠ k)
        have hnone : ((ks.foldl (demote key) items).filter fun item => key item = k).filter
            (fun item => decide (key item ≠ k)) = [] := by simp
        have hpairs : [a, b].filter (fun item => decide (key item ≠ k)) = [a, b] := by
          simp [ha, hb]
        rw [List.filter_append, hnone, List.append_nil, hpairs] at hfilter
        exact (hfilter.trans List.filter_sublist).trans List.filter_sublist
      rcases ih hbefore with ⟨earlier, later, rfl, hlater, hnot⟩ | ⟨hnota, hnotb, hitems⟩
      · exact .inl ⟨earlier, later ++ [k], by simp, by simp [hlater], by simp [hnot, ha]⟩
      · exact .inr ⟨by simp [hnota, ha], by simp [hnotb, hb], hitems⟩

theorem foldl_demote_again {ks ks' : List κ} {k : κ} (hk : k ∈ ks') {items : List α}
    (h : (items.map key).Nodup) :
    (ks ++ k :: ks').foldl (demote key) items = (ks ++ ks').foldl (demote key) items := by
  have hmem : ∀ k', k' ∈ ks ++ k :: ks' ↔ k' ∈ ks ++ ks' := by
    intro k'
    simp only [List.mem_append, List.mem_cons]
    constructor
    · rintro (h | rfl | h)
      · exact .inl h
      · exact .inr hk
      · exact .inr h
    · rintro (h | h)
      · exact .inl h
      · exact .inr (.inr h)
  rw [foldl_demote _ h, foldl_demote _ h, List.dedup_append, List.dedup_append,
    List.dedup_cons_of_mem hk]
  simp only [hmem]

end Dote.Library
