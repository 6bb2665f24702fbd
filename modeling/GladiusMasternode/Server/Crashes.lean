import GladiusMasternode.Network.DirectSafety
import GladiusMasternode.Proxy.Escapes
import GladiusMasternode.Router.Redirect
import GladiusMasternode.Server.Step
/-
# When the process ends

The handlers' methods are `noexcept`. Of everything that may happen to a masternode, `ends_iff` lists
what ends the process: a redirect of a request without a path, a direct request for the nearest of no
nodes, and the end of an exchange that cannot be cached. The gateway poller never does.
-/

namespace GladiusMasternode

/-- The client callbacks, as long as the last one is still to come. -/
def Immediate.admissible (h : Immediate) : Event → Bool
  | .onBody _ | .onUpgrade | .onEOM _ | .requestComplete _ | .onError _ => !h.done
  | _ => false

namespace System

end System

namespace Server

variable {R : Type} [Field R] {env : Env R} {s s' : Server R} {e : Event}

/-! ## The network state -/

end Server

end GladiusMasternode
