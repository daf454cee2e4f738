import Dote.Library.Logged
import Dote.Openssl.VerifyCache

/-! What a call of the cache returns, by the calls that came before it. -/
namespace Dote.Openssl
open Dote.Library

/-- A call of `verify`, and what the verifier behind the cache would return to it. -/
structure Verification where
  verifier : Option (StoreCtx → Int)
  context : StoreCtx
  now : Int

def Verification.hash (v : Verification) : Bytes := getHash v.context.certificate

/-! The calls, with the contexts that the verifier behind the cache is called on. -/
namespace Calling

def forwardVerify (verifier : Option (StoreCtx → Int)) (context : StoreCtx) :
    Logged StoreCtx Int :=
  match verifier with
  | none => pure 0
  | some verifier => .log context (some (verifier context))

def verify (verifier : Option (StoreCtx → Int)) (timeout : Int) (s : VerifyCache)
    (context : StoreCtx) (now : Int) : Logged StoreCtx (Int × VerifyCache) :=
  let currentHash := getHash context.certificate
  let s := if now > s.expiry then { s with cache := [] } else s
  if currentHash ≠ [] ∧ currentHash = s.cache then pure (1, s)
  else do
    let result ← forwardVerify verifier context
    if result = 1 then pure (result, ⟨currentHash, now + timeout * ticksPerSecond⟩)
    else pure (result, s)

theorem forwardVerify_result (verifier : Option (StoreCtx → Int)) (context : StoreCtx) :
    (forwardVerify verifier context).result =
      some (VerifyCache.forwardVerify verifier context) := by
  cases verifier with
  | none => rfl
  | some verifier => rfl

theorem verify_result (verifier : Option (StoreCtx → Int)) (timeout : Int) (s : VerifyCache)
    (context : StoreCtx) (now : Int) :
    (verify verifier timeout s context now).result =
      some (s.verify verifier timeout context now) := by
  unfold verify VerifyCache.verify
  dsimp only
  generalize (if now > s.expiry then { s with cache := [] } else s) = s
  split
  next => rfl
  next =>
    rw [Logged.result_bind, forwardVerify_result, Option.bind_some]
    split
    next => rfl
    next => rfl

end Calling

variable (timeout : Int)

namespace Verification

def run (v : Verification) (s : VerifyCache) : Logged StoreCtx (Int × VerifyCache) :=
  Calling.verify v.verifier timeout s v.context v.now

def returned (v : Verification) (s : VerifyCache) : Int :=
  (s.verify v.verifier timeout v.context v.now).1

def next (s : VerifyCache) (v : Verification) : VerifyCache :=
  (s.verify v.verifier timeout v.context v.now).2

def Accepts (v : Verification) (s : VerifyCache) : Prop :=
  (v.run timeout s).trace ≠ [] ∧ v.returned timeout s = 1

def forwarded (v : Verification) : Int := VerifyCache.forwardVerify v.verifier v.context

def Found (v : Verification) (s : VerifyCache) : Prop :=
  v.hash ≠ [] ∧ v.hash = s.cache ∧ v.now ≤ s.expiry

instance (v : Verification) (s : VerifyCache) : Decidable (v.Found s) :=
  inferInstanceAs (Decidable (_ ∧ _ ∧ _))

variable {v : Verification} {s : VerifyCache}

theorem run_found (h : v.Found s) : v.run timeout s = pure (1, s) := by
  obtain ⟨hne, hcache, hlive⟩ := h
  unfold hash at hne hcache
  unfold run Calling.verify
  rw [if_neg (Int.not_lt.mpr hlive), if_pos ⟨hne, hcache⟩]

theorem run_forwarded (h : ¬ v.Found s) :
    v.run timeout s = Calling.forwardVerify v.verifier v.context >>= fun result =>
      if result = 1 then pure (result, ⟨v.hash, v.now + timeout * ticksPerSecond⟩)
      else pure (result, s.expire v.now) := by
  have hmiss : ¬ (v.hash ≠ [] ∧ v.hash = (s.expire v.now).cache) := by
    rintro ⟨hne, hcache⟩
    unfold VerifyCache.expire at hcache
    split at hcache
    next => exact hne hcache
    next hlive => exact h ⟨hne, hcache, Int.not_lt.mp hlive⟩
  exact if_neg hmiss

theorem verify_of_run {result : Int × VerifyCache} (h : (v.run timeout s).result = some result) :
    v.returned timeout s = result.1 ∧ next timeout s v = result.2 := by
  have hverify := Calling.verify_result v.verifier timeout s v.context v.now
  have heq := Option.some.inj (hverify.symm.trans h)
  exact ⟨congrArg Prod.fst heq, congrArg Prod.snd heq⟩

theorem found_eq (h : v.Found s) : (v.run timeout s).trace = [] ∧ v.returned timeout s = 1 ∧
    next timeout s v = s := by
  have hrun := run_found timeout h
  obtain ⟨hreturned, hnext⟩ := verify_of_run timeout (by rw [hrun]; rfl)
  exact ⟨by rw [hrun]; rfl, hreturned, hnext⟩

theorem forwarded_eq (h : ¬ v.Found s) :
    (v.run timeout s).trace = (v.verifier.map fun _ => v.context).toList ∧
      v.returned timeout s = v.forwarded ∧
      next timeout s v = if v.forwarded = 1 then ⟨v.hash, v.now + timeout * ticksPerSecond⟩
        else s.expire v.now := by
  have hrun := run_forwarded timeout h
  have hresult : (v.run timeout s).result = some (if v.forwarded = 1 then
      (v.forwarded, ⟨v.hash, v.now + timeout * ticksPerSecond⟩)
        else (v.forwarded, s.expire v.now)) := by
    rw [hrun, Logged.result_bind, Calling.forwardVerify_result, Option.bind_some,
      Logged.result_ite]
    unfold forwarded
    split
    next => rfl
    next => rfl
  have htrace : (v.run timeout s).trace = (v.verifier.map fun _ => v.context).toList := by
    rw [hrun, Logged.bind_of_some (Calling.forwardVerify_result _ _)]
    have hpure : (if VerifyCache.forwardVerify v.verifier v.context = 1 then
        pure (VerifyCache.forwardVerify v.verifier v.context,
          ⟨v.hash, v.now + timeout * ticksPerSecond⟩)
        else pure (VerifyCache.forwardVerify v.verifier v.context, s.expire v.now) :
          Logged StoreCtx (Int × VerifyCache)).trace = [] := by
      split
      next => rfl
      next => rfl
    rw [hpure, List.append_nil]
    cases v.verifier with
    | none => rfl
    | some verifier => rfl
  obtain ⟨hreturned, hnext⟩ := verify_of_run timeout hresult
  refine ⟨htrace, ?_, ?_⟩
  · rw [hreturned]
    split
    next => rfl
    next => rfl
  · rw [hnext]
    split
    next => rfl
    next => rfl

theorem accepts_iff : v.Accepts timeout s ↔ ¬ v.Found s ∧ v.forwarded = 1 := by
  by_cases h : v.Found s
  · simp [Accepts, (found_eq timeout h).1, h]
  · obtain ⟨htrace, hreturned, -⟩ := forwarded_eq timeout h
    rw [Accepts, htrace, hreturned]
    simp only [h, not_false_eq_true, true_and, and_iff_right_iff_imp]
    intro hone
    unfold forwarded VerifyCache.forwardVerify at hone
    cases hverifier : v.verifier with
    | none =>
      simp [hverifier] at hone
    | some verifier => simp

instance : Decidable (v.Accepts timeout s) := decidable_of_iff' _ (accepts_iff timeout)

end Verification

def state (calls : List Verification) : VerifyCache :=
  calls.foldl (Verification.next timeout) .new

def acceptedFrom : VerifyCache → List Verification → List Verification
  | _, [] => []
  | s, v :: calls =>
    (if v.Accepts timeout s then [v] else []) ++ acceptedFrom (v.next timeout s) calls

def accepted (calls : List Verification) : List Verification := acceptedFrom timeout .new calls

def VerifyCache.live (s : VerifyCache) (now : Int) : Option (Bytes × Int) :=
  if s.cache ≠ [] ∧ now ≤ s.expiry then some (s.cache, s.expiry) else none

/-- The last of the calls that were forwarded and returned 1 answers for `v`. -/
def AnsweredBy (calls : List Verification) (v : Verification) : Prop :=
  v.hash ≠ [] ∧ ∃ last, (accepted timeout calls).getLast? = some last ∧ last.hash = v.hash ∧
    v.now ≤ last.now + timeout * ticksPerSecond

theorem state_concat (calls : List Verification) (v : Verification) :
    state timeout (calls ++ [v]) = v.next timeout (state timeout calls) := by
  simp [state]

theorem acceptedFrom_concat (calls : List Verification) (v : Verification) : ∀ s,
    acceptedFrom timeout s (calls ++ [v]) = acceptedFrom timeout s calls ++
      if v.Accepts timeout (calls.foldl (Verification.next timeout) s) then [v] else [] := by
  induction calls with
  | nil => exact fun _ => List.append_nil _
  | cons first calls ih =>
    intro s
    rw [List.cons_append, acceptedFrom, ih, acceptedFrom, List.append_assoc]
    rfl

theorem accepted_concat (calls : List Verification) (v : Verification) :
    accepted timeout (calls ++ [v]) = accepted timeout calls ++
      if v.Accepts timeout (state timeout calls) then [v] else [] :=
  acceptedFrom_concat timeout calls v .new

/-- The cache against the calls so far, of which none is later than `now`. An
expired entry may be gone already. -/
structure Kept (s : VerifyCache) (last : Option Verification) (now : Int) : Prop where
  none_cache : last = none → s.cache = []
  some_expiry : ∀ v, last = some v → s.expiry = v.now + timeout * ticksPerSecond
  some_cache : ∀ v, last = some v → s.cache = v.hash ∨ s.cache = [] ∧ s.expiry < now

variable {timeout}

theorem Kept.found_iff {s : VerifyCache} {last : Option Verification} {v : Verification}
    (h : Kept timeout s last v.now) :
    v.Found s ↔ v.hash ≠ [] ∧ ∃ u, last = some u ∧ u.hash = v.hash ∧
      v.now ≤ u.now + timeout * ticksPerSecond := by
  constructor
  · rintro ⟨hne, hcache, hlive⟩
    cases last with
    | none => exact absurd (hcache.trans (h.none_cache rfl)) hne
    | some u =>
      have hexpiry := h.some_expiry u rfl
      cases h.some_cache u rfl with
      | inl hu => exact ⟨hne, u, rfl, (hcache.trans hu).symm, by omega⟩
      | inr hgone => exact absurd (hcache.trans hgone.1) hne
  · rintro ⟨hne, u, hlast, hhash, hlive⟩
    have hexpiry := h.some_expiry u hlast
    cases h.some_cache u hlast with
    | inl hu => exact ⟨hne, hhash.symm.trans hu.symm, by omega⟩
    | inr hgone => omega

theorem Kept.later {s : VerifyCache} {last : Option Verification} {now now' : Int}
    (h : Kept timeout s last now) (hle : now ≤ now') : Kept timeout s last now' where
  none_cache := h.none_cache
  some_expiry := h.some_expiry
  some_cache u hu := (h.some_cache u hu).imp_right fun hgone => ⟨hgone.1, by omega⟩

theorem next_live {s : VerifyCache} {v : Verification} (h : ¬ v.Accepts timeout s) :
    ∀ now ≥ v.now, (v.next timeout s).live now = s.live now := by
  intro now hnow
  by_cases hfound : v.Found s
  · rw [(Verification.found_eq timeout hfound).2.2]
  · have hone : v.forwarded ≠ 1 := fun hone =>
      h ((Verification.accepts_iff timeout).mpr ⟨hfound, hone⟩)
    rw [(Verification.forwarded_eq timeout hfound).2.2, if_neg hone]
    unfold VerifyCache.expire VerifyCache.live
    split
    next hlate => rw [if_neg (by simp), if_neg (by omega)]
    next => rfl

theorem Kept.next {s : VerifyCache} {last : Option Verification} {v : Verification}
    (h : Kept timeout s last v.now) :
    Kept timeout (v.next timeout s) (if v.Accepts timeout s then some v else last) v.now := by
  by_cases hfound : v.Found s
  · have haccepts : ¬ v.Accepts timeout s := fun ha =>
      ((Verification.accepts_iff timeout).mp ha).1 hfound
    rw [if_neg haccepts, (Verification.found_eq timeout hfound).2.2]
    exact h
  · rw [(Verification.forwarded_eq timeout hfound).2.2]
    by_cases hone : v.forwarded = 1
    · rw [if_pos hone, if_pos ((Verification.accepts_iff timeout).mpr ⟨hfound, hone⟩)]
      constructor
      · simp
      · rintro u ⟨⟩
        rfl
      · rintro u ⟨⟩
        exact .inl rfl
    · have haccepts : ¬ v.Accepts timeout s := fun ha =>
        hone ((Verification.accepts_iff timeout).mp ha).2
      rw [if_neg hone, if_neg haccepts]
      unfold VerifyCache.expire
      split
      next hlate =>
        exact ⟨fun _ => rfl, h.some_expiry, fun u _ => .inr ⟨rfl, hlate⟩⟩
      next => exact h

theorem kept_state (calls : List Verification) : ∀ now,
    (calls.Pairwise (·.now ≤ ·.now)) → (∀ v ∈ calls, v.now ≤ now) →
      Kept timeout (state timeout calls) (accepted timeout calls).getLast? now := by
  induction calls using List.reverseRecOn with
  | nil => exact fun _ _ _ => ⟨fun _ => rfl, by simp [accepted, acceptedFrom],
      by simp [accepted, acceptedFrom]⟩
  | append_singleton calls v ih =>
    intro now hsorted hnow
    rw [List.pairwise_append] at hsorted
    have hcalls := ih v.now hsorted.1 fun u hu => hsorted.2.2 u hu v (by simp)
    have hnext := hcalls.next
    rw [state_concat, accepted_concat]
    refine Kept.later ?_ (hnow v (by simp))
    split
    next haccepts =>
      rw [if_pos haccepts] at hnext
      simpa using hnext
    next haccepts =>
      rw [if_neg haccepts] at hnext
      simpa using hnext

/-- A call is answered from the cache exactly when the last accepted call answers for
it. Any other call is answered by the verifier, and only what is accepted changes
what is cached. -/
theorem cache_history (timeout : Int) (calls : List Verification) (v : Verification)
    (hsorted : (calls ++ [v]).Pairwise (·.now ≤ ·.now)) :
    (((v.run timeout (state timeout calls)).trace = [] ∧
        v.returned timeout (state timeout calls) = 1) ↔ AnsweredBy timeout calls v) ∧
      (¬ AnsweredBy timeout calls v →
        v.returned timeout (state timeout calls) =
            (match v.verifier with | none => 0 | some verifier => verifier v.context) ∧
          (v.run timeout (state timeout calls)).trace =
            (v.verifier.map fun _ => v.context).toList) ∧
      (¬ v.Accepts timeout (state timeout calls) → ∀ now ≥ v.now,
        (state timeout (calls ++ [v])).live now = (state timeout calls).live now) := by
  rw [List.pairwise_append] at hsorted
  have hkept : Kept timeout (state timeout calls) (accepted timeout calls).getLast? v.now :=
    kept_state calls v.now hsorted.1 fun u hu => hsorted.2.2 u hu v (by simp)
  have hfound : v.Found (state timeout calls) ↔ AnsweredBy timeout calls v := hkept.found_iff
  refine ⟨?_, ?_, ?_⟩
  · rw [← hfound]
    constructor
    · rintro ⟨htrace, hone⟩
      by_contra hmiss
      obtain ⟨htrace', hreturned, -⟩ := Verification.forwarded_eq timeout hmiss
      have haccepts := (Verification.accepts_iff timeout).mpr ⟨hmiss, hreturned ▸ hone⟩
      exact haccepts.1 htrace
    · exact fun h => ⟨(Verification.found_eq timeout h).1, (Verification.found_eq timeout h).2.1⟩
  · intro hmiss
    rw [← hfound] at hmiss
    obtain ⟨htrace, hreturned, -⟩ := Verification.forwarded_eq timeout hmiss
    refine ⟨?_, htrace⟩
    rw [hreturned]
    unfold Verification.forwarded VerifyCache.forwardVerify
    cases v.verifier with
    | none => rfl
    | some verifier => rfl
  · intro haccepts
    rw [state_concat]
    exact next_live haccepts

namespace Sample

/-- The certificate is accepted, and then rejected by the verifier when it is asked. -/
def asked (now answer : Int) : Verification :=
  ⟨some fun _ => answer, ⟨some leaf, none⟩, now⟩

end Sample

theorem cache_history_asked :
    (Sample.asked ticksPerSecond 0).returned 1 (state 1 [Sample.asked 0 1]) = 1 ∧
      ((Sample.asked ticksPerSecond 0).run 1 (state 1 [Sample.asked 0 1])).trace = [] := by
  have hanswered : AnsweredBy 1 [Sample.asked 0 1] (Sample.asked ticksPerSecond 0) :=
    ⟨by decide, Sample.asked 0 1, rfl, by decide, by decide⟩
  have hhistory := (cache_history 1 [Sample.asked 0 1] (Sample.asked ticksPerSecond 0)
    (by decide)).1.mpr hanswered
  exact hhistory.symm

end Dote.Openssl
