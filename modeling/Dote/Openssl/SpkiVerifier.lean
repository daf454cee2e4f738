import Dote.Config.ConfigParser
import Dote.Openssl.HostnameVerifier

/-! The decision on a certificate: the verifier of a connection, and the two
callbacks through which OpenSSL reaches it. -/
namespace Dote.Openssl
open Dote.Config

/-- `CertificateUtilities` over the leaf certificate of a store, which is `none`
for a null pointer. -/
def getHash (certificate : Option X509) : Bytes := certificate.elim [] X509.hash
def getPublicKeyHash (certificate : Option X509) : Bytes := certificate.elim [] X509.publicKeyHash

namespace SpkiVerifier

def verifyHostname (config : Forwarder) (certificate : Option X509) : Bool :=
  match certificate with
  | none => false
  | some certificate =>
    if config.host ≠ [] then HostnameVerifier.isValid certificate config.host else false

def verifyHash (config : Forwarder) (certificate : Option X509) : Bool :=
  if config.pin ≠ [] then getPublicKeyHash certificate == config.pin else false

def verify (config : Forwarder) (certificate : Option X509) : Int :=
  let result := if verifyHash config certificate then 2 else 0
  if verifyHostname config certificate then
    if result = 2 ∨ config.pin = [] then 1 else result
  else result

end SpkiVerifier

structure SslConnection where
  verifier : Option (Option X509 → Int)

def SslConnection.verify (connection : SslConnection) (store : Option X509) : Int :=
  match connection.verifier with
  | none => 1
  | some verifier => verifier store

/-- `ForwarderConnection::configureVerifier`: with PKI disabled, and without a
host and a pin, no verifier is set. -/
def configureVerifier (forwarder : Forwarder) : SslConnection :=
  if forwarder.disablePki then ⟨none⟩
  else if forwarder.host ≠ [] ∨ forwarder.pin ≠ [] then ⟨some (SpkiVerifier.verify forwarder)⟩
  else ⟨none⟩

namespace Context

/-- `X509_V_ERR_UNABLE_TO_GET_ISSUER_CERT`, `_DEPTH_ZERO_SELF_SIGNED_CERT`,
`_SELF_SIGNED_CERT_IN_CHAIN`, `_UNABLE_TO_GET_ISSUER_CERT_LOCALLY` and
`_UNABLE_TO_VERIFY_LEAF_SIGNATURE`. -/
def allowedErrors : List Int := [2, 18, 19, 20, 21]

/-- `error` is what `X509_STORE_CTX_get_error` says of the step; `connection` is
`none` when no `SslConnection` is stored with the SSL object. -/
def verifyTrampoline (connection : Option SslConnection) (preverify error : Int)
    (store : Option X509) : Int :=
  let allowedError := preverify == 1 || allowedErrors.contains error
  match connection with
  | none => preverify
  | some connection =>
    if allowedError then
      let ret := connection.verify store
      if ret = 2 then 1 else if ret = 0 then 0 else preverify
    else preverify

end Context

/-- One call of the verify callback while OpenSSL checks a chain. -/
structure ChainStep where
  preverify : Bool
  error : Int
deriving DecidableEq

def ChainStep.passes (connection : SslConnection) (leaf : X509) (step : ChainStep) : Prop :=
  Context.verifyTrampoline (some connection) (if step.preverify then 1 else 0) step.error
    (some leaf) = 1

instance (connection : SslConnection) (leaf : X509) (step : ChainStep) :
    Decidable (step.passes connection leaf) :=
  inferInstanceAs (Decidable (_ = _))

/-- `X509_verify_cert` on a chain that makes the calls `steps`. -/
def chainAccepted (connection : SslConnection) (leaf : X509) (steps : List ChainStep) : Prop :=
  ∀ step ∈ steps, step.passes connection leaf

instance (connection : SslConnection) (leaf : X509) (steps : List ChainStep) :
    Decidable (chainAccepted connection leaf steps) :=
  inferInstanceAs (Decidable (∀ _ ∈ steps, _))

def ChainStep.Excusable (step : ChainStep) : Prop :=
  step.preverify = true ∨ step.error ∈ Context.allowedErrors

instance (step : ChainStep) : Decidable step.Excusable :=
  inferInstanceAs (Decidable (_ ∨ _))

section Passes

variable {connection : SslConnection} {leaf : X509} (step : ChainStep)

theorem passes_of_two (h : connection.verify (some leaf) = 2) :
    step.passes connection leaf ↔ step.Excusable := by
  obtain ⟨_ | _, error⟩ := step <;>
    simp [ChainStep.passes, ChainStep.Excusable, Context.verifyTrampoline, h]

theorem passes_of_one (h : connection.verify (some leaf) = 1) :
    step.passes connection leaf ↔ step.preverify = true := by
  obtain ⟨_ | _, error⟩ := step <;> simp [ChainStep.passes, Context.verifyTrampoline, h]

theorem not_passes_of_zero (h : connection.verify (some leaf) = 0) :
    ¬ step.passes connection leaf := by
  obtain ⟨_ | _, error⟩ := step <;> simp [ChainStep.passes, Context.verifyTrampoline, h]

end Passes

def HostMatches (forwarder : Forwarder) (leaf : X509) : Prop :=
  HostnameVerifier.isValid leaf forwarder.host = true

def PinMatches (forwarder : Forwarder) (leaf : X509) : Prop :=
  forwarder.pin ≠ [] ∧ leaf.publicKeyHash = forwarder.pin

theorem verifyHostname_iff (forwarder : Forwarder) (leaf : X509) :
    SpkiVerifier.verifyHostname forwarder (some leaf) = true ↔
      forwarder.host ≠ [] ∧ HostMatches forwarder leaf := by
  unfold SpkiVerifier.verifyHostname HostMatches
  by_cases h : forwarder.host = [] <;> simp [h]

theorem verifyHash_iff (forwarder : Forwarder) (leaf : X509) :
    SpkiVerifier.verifyHash forwarder (some leaf) = true ↔ PinMatches forwarder leaf := by
  unfold SpkiVerifier.verifyHash PinMatches
  by_cases h : forwarder.pin = [] <;> simp [h, getPublicKeyHash]

theorem configureVerifier_verify {forwarder : Forwarder} (hpki : forwarder.disablePki = false)
    (hconfig : forwarder.host ≠ [] ∨ forwarder.pin ≠ []) (store : Option X509) :
    (configureVerifier forwarder).verify store = SpkiVerifier.verify forwarder store := by
  rw [configureVerifier, if_neg (by simp [hpki]), if_pos hconfig]
  rfl

/-! The three results. Pin and host together give 1, and a pin whose host does
not match gives 2. -/

theorem verify_eq_two {forwarder : Forwarder} {leaf : X509} (hpin : PinMatches forwarder leaf)
    (hhost : ¬ (forwarder.host ≠ [] ∧ HostMatches forwarder leaf)) :
    SpkiVerifier.verify forwarder (some leaf) = 2 := by
  rw [← verifyHash_iff] at hpin
  rw [← verifyHostname_iff] at hhost
  simp [SpkiVerifier.verify, hpin, hhost]

theorem verify_eq_one {forwarder : Forwarder} {leaf : X509}
    (hpin : forwarder.pin = [] ∨ PinMatches forwarder leaf)
    (hhost : forwarder.host ≠ [] ∧ HostMatches forwarder leaf) :
    SpkiVerifier.verify forwarder (some leaf) = 1 := by
  rw [← verifyHash_iff] at hpin
  rw [← verifyHostname_iff] at hhost
  rcases hpin with hpin | hpin <;> simp [SpkiVerifier.verify, hpin, hhost]

theorem verify_eq_zero {forwarder : Forwarder} {leaf : X509} (hpin : ¬ PinMatches forwarder leaf)
    (hhost : forwarder.pin ≠ [] ∨ ¬ (forwarder.host ≠ [] ∧ HostMatches forwarder leaf)) :
    SpkiVerifier.verify forwarder (some leaf) = 0 := by
  rw [← verifyHash_iff] at hpin
  rw [← verifyHostname_iff] at hhost
  rcases hhost with hhost | hhost <;> simp [SpkiVerifier.verify, hpin, hhost]

/-- What a connection to the forwarder decides about a chain, as documented. -/
def Decision (forwarder : Forwarder) (leaf : X509) (steps : List ChainStep) : Prop :=
  (forwarder.host ≠ [] → HostMatches forwarder leaf) ∧
  (forwarder.pin ≠ [] → PinMatches forwarder leaf) ∧
  ∀ step ∈ steps, step.preverify = false →
    step.error ∈ Context.allowedErrors ∧ PinMatches forwarder leaf

/-- The pin matches and excuses every failure, a host is configured as well, and
it is the host or a failure that decides. -/
def PinOverrides (forwarder : Forwarder) (leaf : X509) (steps : List ChainStep) : Prop :=
  forwarder.host ≠ [] ∧ PinMatches forwarder leaf ∧ (∀ step ∈ steps, step.Excusable) ∧
    (HostMatches forwarder leaf → ∃ step ∈ steps, step.preverify = false)

theorem decision_of_pin {forwarder : Forwarder} {leaf : X509} (hpin : PinMatches forwarder leaf)
    (steps : List ChainStep) :
    Decision forwarder leaf steps ↔
      (forwarder.host ≠ [] → HostMatches forwarder leaf) ∧ ∀ step ∈ steps, step.Excusable := by
  have hexcuse (step : ChainStep) : (step.preverify = false → step.error ∈ Context.allowedErrors) ↔
      step.Excusable := by
    cases hstep : step.preverify <;> simp [ChainStep.Excusable, hstep]
  simp only [Decision, hpin, and_true, implies_true, true_and, hexcuse]

/-- The code decides as documented unless pin and host are both configured and
the matching pin is what the decision turns on. -/
theorem chain_decision_iff (forwarder : Forwarder) (hpki : forwarder.disablePki = false)
    (hconfig : forwarder.host ≠ [] ∨ forwarder.pin ≠ []) (leaf : X509) (steps : List ChainStep)
    (hsteps : steps ≠ []) :
    (chainAccepted (configureVerifier forwarder) leaf steps ↔ Decision forwarder leaf steps) ↔
      ¬ PinOverrides forwarder leaf steps := by
  have hverify := configureVerifier_verify hpki hconfig (some leaf)
  by_cases hpin : PinMatches forwarder leaf
  · rw [decision_of_pin hpin]
    have hpreverify : (∀ step ∈ steps, step.preverify = true) ↔
        ¬ ∃ step ∈ steps, step.preverify = false := by
      simp
    have hexcuse : (∀ step ∈ steps, step.preverify = true) → ∀ step ∈ steps, step.Excusable :=
      fun h step hstep => .inl (h step hstep)
    simp only [PinOverrides, hpin, true_and]
    by_cases hhost : forwarder.host ≠ [] ∧ HostMatches forwarder leaf
    · have hone := hverify.trans (verify_eq_one (.inr hpin) hhost)
      simp only [chainAccepted, passes_of_one _ hone, hhost.1, hhost.2, ne_eq, not_false_eq_true,
        true_implies, true_and]
      rw [hpreverify] at hexcuse ⊢
      constructor
      · rintro h ⟨hexcusable, hfails⟩
        exact h.mpr hexcusable hfails
      · intro h
        exact ⟨hexcuse, fun hexcusable hfails => h ⟨hexcusable, hfails⟩⟩
    · have htwo := hverify.trans (verify_eq_two hpin hhost)
      simp only [chainAccepted, passes_of_two _ htwo]
      by_cases hempty : forwarder.host = []
      · simp [hempty]
      · have hmatches : ¬ HostMatches forwarder leaf := fun h => hhost ⟨hempty, h⟩
        simp [hempty, hmatches]
  · have hoverrides : ¬ PinOverrides forwarder leaf steps := fun h => hpin h.2.1
    simp only [hoverrides, not_false_eq_true, iff_true]
    by_cases hone : forwarder.pin = [] ∧ forwarder.host ≠ [] ∧ HostMatches forwarder leaf
    · -- without a pin only the host counts, and no failure is excused
      have hverify := hverify.trans (verify_eq_one (.inl hone.1) hone.2)
      simp [chainAccepted, passes_of_one _ hverify, Decision, hone.1, hone.2.2, hpin]
    · have hzero := hverify.trans (verify_eq_zero hpin (by tauto))
      obtain ⟨first, hfirst⟩ := List.exists_mem_of_ne_nil steps hsteps
      have hrejects : ¬ chainAccepted (configureVerifier forwarder) leaf steps :=
        fun h => not_passes_of_zero first hzero (h first hfirst)
      have hdecision : ¬ Decision forwarder leaf steps := by
        rintro ⟨hhost, hpinned, -⟩
        tauto
      simp [hrejects, hdecision]

def pinnedForwarder (host : Bytes) : Forwarder := ⟨.unspec, false, host, [1]⟩

def pinnedLeaf : X509 := ⟨some [.dns (.ofBytes (bytes "b.com"))], none, [], [1]⟩

theorem chain_decision_selfSigned :
    chainAccepted (configureVerifier (pinnedForwarder [])) pinnedLeaf [⟨false, 18⟩] ↔
      Decision (pinnedForwarder []) pinnedLeaf [⟨false, 18⟩] :=
  (chain_decision_iff (pinnedForwarder []) rfl (by decide) pinnedLeaf [⟨false, 18⟩]
    (by decide)).mpr fun h => h.1 rfl

/-- The pin excuses the host `a.net`, which is not in the certificate. -/
theorem chain_accepts_wrong_host :
    ¬ ∀ (forwarder : Forwarder), forwarder.disablePki = false →
      (forwarder.host ≠ [] ∨ forwarder.pin ≠ []) →
      ∀ (leaf : X509) (steps : List ChainStep), steps ≠ [] →
        (chainAccepted (configureVerifier forwarder) leaf steps ↔
          Decision forwarder leaf steps) := by
  intro h
  have haccepted : chainAccepted (configureVerifier (pinnedForwarder (bytes "a.net"))) pinnedLeaf
      [⟨true, 0⟩] := by decide
  obtain ⟨hhost, -⟩ := (h (pinnedForwarder (bytes "a.net")) rfl (by decide) pinnedLeaf
    [⟨true, 0⟩] (by decide)).mp haccepted
  exact absurd (hhost (by decide)) (by unfold HostMatches; decide)

end Dote.Openssl
