import Dote.Config.ConfigParser

/-! The list of forwarders. The first one is used; one that is reported bad goes
to the end. -/
namespace Dote.Config

structure ForwarderConfig where
  forwarders : List Forwarder
  timeout : Nat
deriving DecidableEq, Repr

namespace ForwarderConfig

def new : ForwarderConfig := ⟨[], 5⟩

def clear (config : ForwarderConfig) : ForwarderConfig := { config with forwarders := [] }

def addForwarder (config : ForwarderConfig) (forwarder : Forwarder) : ForwarderConfig :=
  { config with forwarders := config.forwarders ++ [forwarder] }

/-- `get`, which is `end` for an empty list. -/
def get (config : ForwarderConfig) : Option Forwarder := config.forwarders.head?

/-- The first forwarder with that address is rotated to the end. -/
def setBad (config : ForwarderConfig) (bad : Forwarder) : ForwarderConfig :=
  { config with
    forwarders := config.forwarders.eraseP (·.remote = bad.remote) ++
      (config.forwarders.find? (·.remote = bad.remote)).toList }

def setTimeout (config : ForwarderConfig) (timeout : Nat) : ForwarderConfig :=
  { config with timeout := timeout }

theorem foldl_addForwarder (forwarders : List Forwarder) :
    ∀ config : ForwarderConfig, forwarders.foldl addForwarder config =
      { config with forwarders := config.forwarders ++ forwarders } := by
  induction forwarders with
  | nil =>
    intro config
    simp
  | cons forwarder forwarders ih =>
    intro config
    rw [List.foldl_cons, ih, addForwarder]
    simp

end ForwarderConfig

end Dote.Config
