import Dote.Library.Run
import Dote.Openssl.SpkiVerifier

/-! The certificate cache in front of `X509_verify_cert`, and when it decides as
verification without it would. -/
namespace Dote.Openssl
open Dote.Config Dote.Library.Run

structure StoreCtx where
  certificate : Option X509
  connection : Option SslConnection

/-- Ticks of the steady clock in a second. -/
def ticksPerSecond : Int := 1000000000

/-- `m_cache` and `m_expiry`. -/
structure VerifyCache where
  cache : Bytes
  expiry : Int
deriving DecidableEq, Repr

namespace VerifyCache

def new : VerifyCache := ⟨[], 0⟩

def forwardVerify (verifier : Option (StoreCtx → Int)) (context : StoreCtx) : Int :=
  match verifier with
  | none => 0
  | some verifier => verifier context

def verify (verifier : Option (StoreCtx → Int)) (timeout : Int) (s : VerifyCache)
    (context : StoreCtx) (now : Int) : Int × VerifyCache :=
  let currentHash := getHash context.certificate
  let s := if now > s.expiry then { s with cache := [] } else s
  if currentHash ≠ [] ∧ currentHash = s.cache then (1, s)
  else
    let result := forwardVerify verifier context
    if result = 1 then (result, ⟨currentHash, now + timeout * ticksPerSecond⟩)
    else (result, s)

end VerifyCache

/-- `Context::chainVerifyTrampoline`, over the state of the chain verifier. -/
def Context.chainVerifyTrampoline {σ : Type} (chainVerifier : Option (StoreCtx → σ → Int × σ))
    (store : StoreCtx) (s : σ) : Int × σ :=
  match chainVerifier with
  | none => (0, s)
  | some chainVerifier => chainVerifier store s

structure Handshake where
  forwarder : Forwarder
  leaf : X509
  now : Int

def Handshake.store (h : Handshake) : StoreCtx :=
  ⟨some h.leaf, some (configureVerifier h.forwarder)⟩

/-- `X509_verify_cert` as a function of the verify callback and the certificate.
The callback is the trampoline over the connection of the store. -/
abbrev VerifyCert := (Int → Int → Int) → Option X509 → Int

def x509VerifyCert (verifyCert : VerifyCert) (store : StoreCtx) : Int :=
  verifyCert (fun preverify error =>
    Context.verifyTrampoline store.connection preverify error store.certificate) store.certificate

/-- `CACHE_SECONDS` of `Dote`. -/
def cacheSeconds : Int := 30

/-- The chain verifier that `Dote::Dote` installs. -/
def chainVerify (verifyCert : VerifyCert) (s : VerifyCache) (h : Handshake) : Int × VerifyCache :=
  Context.chainVerifyTrampoline
    (some fun store s => s.verify (some (x509VerifyCert verifyCert)) cacheSeconds store h.now)
    h.store s

variable (verifyCert : VerifyCert)

def Handshake.uncached (h : Handshake) : Int := x509VerifyCert verifyCert h.store

/-- The handshake is accepted with the cache exactly when it is without. -/
def Agrees (s : VerifyCache) (h : Handshake) : Prop :=
  0 < (chainVerify verifyCert s h).1 ↔ 0 < h.uncached verifyCert

/-- Accepting `g` in full answers for `h` too: the same certificate, while the
time of the cache has not passed. -/
def Handshake.Covers (g h : Handshake) : Prop :=
  h.leaf.hash ≠ [] ∧ g.leaf.hash = h.leaf.hash ∧
    h.now ≤ g.now + cacheSeconds * ticksPerSecond

instance (g h : Handshake) : Decidable (g.Covers h) :=
  inferInstanceAs (Decidable (_ ∧ _ ∧ _))

/-- The last handshake that was verified in full and accepted. A handshake that
it covers is not verified. -/
def remember (last : Option Handshake) (h : Handshake) : Option Handshake :=
  if last.any fun g => decide (g.Covers h) then last
  else if h.uncached verifyCert = 1 then some h
  else last

/-- A handshake that is answered for by another one would be accepted itself. -/
def AcceptedAnyway (last : Option Handshake) (h : Handshake) : Prop :=
  ∀ g, last = some g → g.Covers h → 0 < h.uncached verifyCert

/-- The cache against the handshake it remembers, with `later` still to come. An
expired entry may be gone already. -/
structure Remembers (s : VerifyCache) (last : Option Handshake) (later : List Handshake) :
    Prop where
  none_cache : last = none → s.cache = []
  some_expiry : ∀ g, last = some g → s.expiry = g.now + cacheSeconds * ticksPerSecond
  some_cache : ∀ g, last = some g →
    s.cache = g.leaf.hash ∨ s.cache = [] ∧ ∀ h ∈ later, s.expiry < h.now
  sorted : later.Pairwise (·.now ≤ ·.now)

/-- The handshake presents the certificate that the cache holds, in its time. -/
def Hit (s : VerifyCache) (h : Handshake) : Prop :=
  h.leaf.hash ≠ [] ∧ h.leaf.hash = s.cache ∧ h.now ≤ s.expiry

theorem chainVerify_hit {s : VerifyCache} {h : Handshake} (hhit : Hit s h) :
    chainVerify verifyCert s h = (1, s) := by
  have hcache : getHash h.store.certificate = s.cache := hhit.2.1
  have hne : s.cache ≠ [] := hhit.2.1 ▸ hhit.1
  simp [chainVerify, Context.chainVerifyTrampoline, VerifyCache.verify, hcache, hne,
    Int.not_lt.mpr hhit.2.2]

/-- The state after a failed verification: an expired entry is dropped. -/
def VerifyCache.expire (s : VerifyCache) (now : Int) : VerifyCache :=
  if now > s.expiry then { s with cache := [] } else s

theorem chainVerify_miss {s : VerifyCache} {h : Handshake} (hmiss : ¬ Hit s h) :
    chainVerify verifyCert s h = (h.uncached verifyCert,
      if h.uncached verifyCert = 1 then ⟨h.leaf.hash, h.now + cacheSeconds * ticksPerSecond⟩
      else s.expire h.now) := by
  have hhash : getHash h.store.certificate = h.leaf.hash := rfl
  have hresult : VerifyCache.forwardVerify (some (x509VerifyCert verifyCert)) h.store =
      h.uncached verifyCert := rfl
  have hcached : ¬ (h.leaf.hash ≠ [] ∧ h.leaf.hash = (s.expire h.now).cache) := by
    rintro ⟨hne, hcache⟩
    unfold VerifyCache.expire at hcache
    split at hcache
    next => exact hne hcache
    next hlive => exact hmiss ⟨hne, hcache, Int.not_lt.mp hlive⟩
  simp only [chainVerify, Context.chainVerifyTrampoline, VerifyCache.verify, hhash, hresult]
  rw [← VerifyCache.expire, if_neg hcached]
  split <;> rfl

theorem Remembers.hit_iff {s : VerifyCache} {last : Option Handshake} {h : Handshake}
    {later : List Handshake} (hrem : Remembers s last (h :: later)) :
    Hit s h ↔ ∃ g, last = some g ∧ g.Covers h := by
  constructor
  · rintro ⟨hne, hcache, hlive⟩
    cases last with
    | none => exact absurd (hcache.trans (hrem.none_cache rfl)) hne
    | some g =>
      have hexpiry := hrem.some_expiry g rfl
      rcases hrem.some_cache g rfl with hg | ⟨hnil, -⟩
      · exact ⟨g, rfl, hne, (hcache.trans hg).symm, hexpiry ▸ hlive⟩
      · exact absurd (hcache.trans hnil) hne
  · rintro ⟨g, rfl, hne, hhash, hlive⟩
    have hexpiry := hrem.some_expiry g rfl
    rcases hrem.some_cache g rfl with hg | ⟨-, hgone⟩
    · exact ⟨hne, by rw [hg, hhash], by rw [hexpiry]; exact hlive⟩
    · have := hgone h List.mem_cons_self
      omega

theorem Remembers.next {s : VerifyCache} {last : Option Handshake} {h : Handshake}
    {later : List Handshake} (hrem : Remembers s last (h :: later)) :
    Remembers (chainVerify verifyCert s h).2 (remember verifyCert last h) later := by
  have hsorted := List.pairwise_cons.mp hrem.sorted
  have hiff := hrem.hit_iff
  have hany : (last.any fun g => decide (g.Covers h)) = true ↔ Hit s h := by
    rw [hiff]
    cases last <;> simp
  unfold remember
  by_cases hhit : Hit s h
  · rw [chainVerify_hit verifyCert hhit, if_pos (hany.mpr hhit)]
    exact ⟨hrem.none_cache, hrem.some_expiry, fun g hg => (hrem.some_cache g hg).imp_right
      fun hgone => ⟨hgone.1, fun k hk => hgone.2 k (List.mem_cons_of_mem _ hk)⟩, hsorted.2⟩
  · rw [chainVerify_miss verifyCert hhit, if_neg (fun h' => hhit (hany.mp h'))]
    by_cases hone : h.uncached verifyCert = 1
    · simp only [hone, if_true]
      refine ⟨by simp, ?_, ?_, hsorted.2⟩
      · rintro g ⟨⟩
        rfl
      · rintro g ⟨⟩
        exact .inl rfl
    · simp only [hone, if_false]
      unfold VerifyCache.expire
      split
      next hlate =>
        refine ⟨fun _ => rfl, hrem.some_expiry, fun g hg => .inr ⟨rfl, fun k hk => ?_⟩, hsorted.2⟩
        have hlater := hsorted.1 k hk
        change s.expiry < k.now
        omega
      next =>
        exact ⟨hrem.none_cache, hrem.some_expiry, fun g hg => (hrem.some_cache g hg).imp_right
          fun hgone => ⟨hgone.1, fun k hk => hgone.2 k (List.mem_cons_of_mem _ hk)⟩, hsorted.2⟩

theorem Remembers.agrees_iff {s : VerifyCache} {last : Option Handshake} {h : Handshake}
    {later : List Handshake} (hrem : Remembers s last (h :: later)) :
    Agrees verifyCert s h ↔ AcceptedAnyway verifyCert last h := by
  have hiff := hrem.hit_iff
  unfold Agrees AcceptedAnyway
  by_cases hhit : Hit s h
  · obtain ⟨g, rfl, hcovers⟩ := hiff.mp hhit
    rw [chainVerify_hit verifyCert hhit]
    simp [hcovers]
  · rw [chainVerify_miss verifyCert hhit]
    simp only [true_iff]
    exact fun g hg hcovers => absurd (hiff.mpr ⟨g, hg, hcovers⟩) hhit

/-- Over a whole run the cache decides as verification without it would exactly
when every handshake that an earlier one answers for would be accepted itself. -/
theorem cache_agrees_iff (handshakes : List Handshake)
    (hsorted : handshakes.Pairwise (·.now ≤ ·.now)) :
    Throughout (fun s h => (chainVerify verifyCert s h).2) (Agrees verifyCert) .new handshakes ↔
      Throughout (remember verifyCert) (AcceptedAnyway verifyCert) none handshakes :=
  throughout_congr (R := Remembers) (fun _ _ _ _ hrem => hrem.next verifyCert)
    (fun _ _ _ _ hrem => hrem.agrees_iff verifyCert)
    ⟨fun _ => rfl, by simp, by simp, hsorted⟩

namespace Sample

/-- A certificate for `b.com`, served by two forwarders of different names. -/
def leaf : X509 := ⟨some [.dns (.ofBytes (bytes "b.com"))], none, bytes "leaf", []⟩

def forwarder (host : String) : Forwarder := ⟨.unspec, false, bytes host, []⟩

def first : Handshake := ⟨forwarder "b.com", leaf, 0⟩

def second : Handshake := ⟨forwarder "c.net", leaf, ticksPerSecond⟩

def oneStep : VerifyCert := fun callback _ => callback 1 0

end Sample

theorem cache_agrees_sameForwarder :
    Throughout (fun s h => (chainVerify Sample.oneStep s h).2) (Agrees Sample.oneStep) .new
      [Sample.first, { Sample.first with now := 5 }] :=
  (cache_agrees_iff Sample.oneStep [Sample.first, { Sample.first with now := 5 }] (by decide)).mpr
    ⟨by simp [AcceptedAnyway], by
      intro g _ _
      decide, trivial⟩

/-- A certificate that was accepted for one forwarder is accepted for another
whose host it does not have. -/
theorem cache_accepts_wrongForwarder :
    [Sample.first, Sample.second].Pairwise (·.now ≤ ·.now) ∧
      ¬ Throughout (fun s h => (chainVerify Sample.oneStep s h).2) (Agrees Sample.oneStep) .new
        [Sample.first, Sample.second] := by
  refine ⟨by decide, fun h => ?_⟩
  have hsecond := h.2.1
  revert hsecond
  unfold Agrees
  decide

end Dote.Openssl
