import Dote.Config.ForwarderConfig
import Dote.Library.Run

/-! What all connections share besides the loop: the session slot of the
`Context` and the forwarder list. They change only by the operations below, and
the operations of a run are recorded. -/
namespace Dote
open Config Library.Run

/-- `session` is the forwarder that `Context::m_session` was negotiated with.
`offers` are the connections that were made with a session so far: the forwarder
of the session, and the one that is connected to. -/
structure Shared where
  session : Option Forwarder
  config : ForwarderConfig
  offers : List (Forwarder × Forwarder)
deriving DecidableEq, Repr

namespace Shared

def new (config : ForwarderConfig) : Shared := ⟨none, config, []⟩

inductive Op where
  | create
  | cacheSession (session : Option Forwarder)
  | setBad (forwarder : Forwarder)
  | setForwarders (forwarders : List Forwarder)
deriving DecidableEq, Repr

/-- `create` is an `SslConnection` that takes the session of the slot, in a
`ForwarderConnection` that then chooses the first forwarder. -/
def apply (s : Shared) : Op → Shared
  | .create =>
    match s.session, s.config.get with
    | some session, some chosen => { s with offers := s.offers ++ [(session, chosen)] }
    | _, _ => s
  | .cacheSession session => { s with session := session }
  | .setBad forwarder => { s with config := s.config.setBad forwarder }
  | .setForwarders forwarders =>
    { s with config := forwarders.foldl ForwarderConfig.addForwarder s.config.clear }

end Shared

/-- The shared state together with the operations that have made it, from a
`Context` without a session. -/
structure Sharing where
  initial : ForwarderConfig
  history : List Shared.Op
  state : Shared
  state_eq : state = run Shared.apply (.new initial) history

namespace Sharing

def new (config : ForwarderConfig) : Sharing := ⟨config, [], .new config, rfl⟩

def apply (s : Sharing) (op : Shared.Op) : Sharing where
  initial := s.initial
  history := s.history ++ [op]
  state := s.state.apply op
  state_eq := by rw [run_append, ← s.state_eq, run_cons, run_nil]

end Sharing

end Dote
