import GladiusMasternode.Model.ProxyHandler
import GladiusMasternode.Library.Run
/-
# Handlers and the events around them

`admissible` is what Proxygen promises about the order of the callbacks on one handler:

* client: `onRequest` first, then chunks and at most one EOM while ingress is not paused, then one
  of `requestComplete` and `onError`, after which nothing;
* connector: at most one of `connectSuccess` and `connectError` after `connect`, none once the
  handler, hence the connector inside it, is destroyed;
* origin, while the transaction is attached: headers at most once, chunks after the headers, at
  most one EOM, at most one error and nothing but the detach after it.

A `System` is any number of handlers over one cache. A step is one callback on one handler; an
exception that leaves a `noexcept` method ends the process, so such a callback has no next state.
-/

namespace GladiusMasternode

inductive Event where
  | onRequest (headers : HTTPMessage) (addrOk : Bool) (now : Option AddIO)
  | onBody (body : IOBuf)
  | onUpgrade
  | onEOM (now : Bool)
  | requestComplete (io : AddIO)
  | onError (now : Bool)
  | connectSuccess
  | connectError (now : Option AddIO)
  | originDetachTransaction
  | originOnHeadersComplete (msg : HTTPMessage)
  | originOnBody (chain : IOBuf)
  | originOnEOM (now : Option AddIO)
  | originOnError (now : Option AddIO)
  | originOnEgressPaused
  | originOnEgressResumed
  | originIgnored
deriving DecidableEq, Repr

namespace Exchange

def admissible (x : Exchange) : Event → Bool
  | .onRequest .. => x.client.request.isNone
  | .onBody _ | .onEOM _ =>
    x.client.request.isSome && !x.client.done && !x.client.eom && !x.client.ingressPaused
  | .onUpgrade | .requestComplete _ | .onError _ => x.client.request.isSome && !x.client.done
  | .connectSuccess | .connectError _ => x.origin.connecting && x.deletes == 0
  | .originDetachTransaction => x.origin.attached
  | .originOnHeadersComplete _ =>
    x.origin.attached && x.origin.headers.isNone && !x.origin.eom && !x.origin.failed
  | .originOnBody _ =>
    x.origin.attached && x.origin.headers.isSome && !x.origin.eom && !x.origin.failed
  | .originOnEOM _ => x.origin.attached && !x.origin.eom && !x.origin.failed
  | .originOnError _ => x.origin.attached && !x.origin.failed
  | .originOnEgressPaused | .originOnEgressResumed | .originIgnored => x.origin.attached

/-- Run the method an event calls, after noting what the event brings. -/
def deliver (ext : External) (cfg : Config) (x : Exchange) : Event → Exchange
  | .onRequest headers addrOk now =>
    onRequest ext cfg headers addrOk now { x with client.request := some headers }
  | .onBody body => onBody body { x with client.chunks := x.client.chunks ++ [body] }
  | .onUpgrade => onUpgrade x
  | .onEOM now => onEOM now { x with client.eom := true }
  | .requestComplete io => deliverRequestComplete ext io x
  | .onError now => onError now { x with client.done := true }
  | .connectSuccess => connectSuccess { x with origin.connecting := false }
  | .connectError now => connectError ext now { x with origin.connecting := false }
  | .originDetachTransaction => deliverDetach x
  | .originOnHeadersComplete msg =>
    originOnHeadersComplete msg { x with origin.headers := some msg }
  | .originOnBody chain =>
    originOnBody chain { x with origin.chunks := x.origin.chunks ++ [chain] }
  | .originOnEOM now => originOnEOM ext now { x with origin.eom := true }
  | .originOnError now => originOnError ext now { x with origin.failed := true }
  | .originOnEgressPaused => originOnEgressPaused x
  | .originOnEgressResumed => originOnEgressResumed x
  | .originIgnored => originIgnored x

end Exchange

structure System where
  shared : Shared
  handlers : Nat → Exchange

namespace System

/-- No handler has been called and the cache is empty (`ContentCache`'s constructor). -/
def init (dir : String) (writeToDisk : Bool) : System :=
  { shared := { cache := { cache_directory_ := dir, writeToDisk_ := writeToDisk } }
    handlers := fun i => { id := i } }

/-- Handler `i`, looking at the shared cache. -/
def exchange (s : System) (i : Nat) : Exchange := { s.handlers i with shared := s.shared }

def step (ext : External) (cfg : Config) (s : System) (e : Nat × Event) : Option System :=
  if (s.exchange e.1).admissible e.2 then
    let x := (s.exchange e.1).deliver ext cfg e.2
    if x.escaped then none
    else some { shared := x.shared, handlers := fun j => if j = e.1 then x else s.handlers j }
  else none

/-- The states a masternode's handlers can reach from its start. -/
def Reachable (ext : External) (cfg : Config) (s : System) : Prop :=
  ∃ dir writeToDisk es, Run.run (step ext cfg) (init dir writeToDisk) es = some s

end System

/-! ## A concrete origin and client -/

namespace Scenario

def perHopNames : List String := ["Connection", "Keep-Alive", "Proxy-Authenticate",
  "Proxy-Authorization", "Proxy-Connection", "TE", "Trailer", "Transfer-Encoding", "Upgrade"]

/-- SHA-256 of the bodies the scenarios hash: "ok", "no" and "o". -/
def digests : List (Bytes × Bytes) :=
  [([111, 107], [38, 137, 54, 123, 32, 92, 22, 206, 50, 237, 66, 0, 148, 43, 139, 139,
      30, 38, 45, 252, 112, 217, 188, 159, 188, 119, 196, 150, 153, 164, 241, 223]),
    ([110, 111], [147, 144, 41, 143, 63, 176, 197, 177, 96, 73, 137, 53, 215, 156, 177, 57,
      174, 242, 142, 28, 71, 53, 139, 75, 187, 166, 24, 98, 185, 194, 110, 89]),
    ([111], [101, 199, 76, 21, 166, 134, 24, 123, 182, 187, 249, 149, 143, 73, 79, 198,
      184, 0, 104, 3, 74, 101, 154, 154, 212, 73, 145, 176, 140, 88, 242, 210])]

def ext : External where
  getUrl url := url
  perHop hs name := perHopNames.any (sameName name) || (hs.values "Connection").any (sameName name)
  sha256 bs := (digests.lookup bs).getD []
  myhtml :=
    { Tree := Unit, Node := Unit, parse := fun _ => none, getNodeHead := fun _ => none
      appendScript := fun tree _ _ => tree, serialize := fun _ => [] }

def get : HTTPMessage :=
  { url := "/a", headers := [("Host", "a.org"), ("Connection", "close"), ("Accept-Encoding", "gzip")] }

def page : HTTPMessage := { headers := [("Content-Type", "text/plain")] }

def io : AddIO := { hasRoom := true, fileOpens := true }

def run (es : List (Nat × Event)) : Option System :=
  Run.run (System.step ext {}) (System.init "/dev/null" false) es

/-- Handler `i` asks for `/a` and is connected to the origin, which sends its response head. -/
def connected (i : Nat) : List (Nat × Event) :=
  [(i, .onRequest get true none), (i, .connectSuccess), (i, .onEOM false),
    (i, .originOnHeadersComplete page)]

/-- A whole exchange: the origin answers "ok" in two chunks, and the client gets it. -/
def fetch (i : Nat) : List (Nat × Event) :=
  connected i ++ [(i, .originOnBody ⟨[111], []⟩), (i, .originOnBody ⟨[107], []⟩),
    (i, .originOnEOM none), (i, .requestComplete io), (i, .originDetachTransaction)]

def post : HTTPMessage :=
  { method := .post, url := "/a"
    headers := [("Host", "a.org"), ("Connection", "X-Hop"), ("X-Hop", "1"),
      ("Transfer-Encoding", "chunked"), ("Accept-Encoding", "gzip"), ("Content-Type", "text/plain")] }

/-- Handler `i` sends a body of two chunks to `/a`; the origin pauses it between them. -/
def upload (i : Nat) : List (Nat × Event) :=
  [(i, .onRequest post true none), (i, .connectSuccess), (i, .onBody ⟨[104], []⟩),
    (i, .originOnEgressPaused), (i, .onBody ⟨[105], []⟩), (i, .onEOM false)]

end Scenario

end GladiusMasternode
