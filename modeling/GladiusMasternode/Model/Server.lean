import GladiusMasternode.Model.System
import GladiusMasternode.Model.Router
import GladiusMasternode.Model.DirectHandler
/-
# One masternode at work (`Masternode.cpp`, `Router.cpp` and all handlers)

Requests arrive and are routed, the handlers they get are called back, and the gateway is polled, in
any order. A `System` has the proxy handlers and the cache; the other handlers answer in `onRequest`
and wait for the end. A callback is one step here; what threads can see of each other inside one is
in `Interleaving` and `DiskCache`. A step that ends the process has no next state.

| here | there |
| --- | --- |
| `Env`         | what a masternode is started with, and the libraries |
| `Incoming`    | what Proxygen knows of a request |
| `Immediate`   | `RejectHandler`, `RedirectHandler`, `DirectHandler` or `ServiceWorkerHandler`; `deletes` counts its `delete this` |
| `slots`       | the handlers by number; `none` for one that does not exist yet |
| `poll`        | a turn of the gateway poller, which runs only with a network state |
-/

namespace GladiusMasternode

/-! ## The handlers that answer on the spot -/

def RejectHandler.onRequest (statusCode : Nat) (msg : String) : Response :=
  { status := statusCode, message := msg }

def ServiceWorkerHandler.onRequest (payload : String) : Response :=
  { status := 200, message := "OK", headers := [("Content-Type", "application/javascript")]
    body := some (IOBuf.copyBuffer payload.toUTF8.toList) }

structure Incoming where
  m : HTTPMessage
  secure : Bool
  clientIP : String
deriving DecidableEq, Repr

structure Immediate where
  routed : Routed
  request : Incoming
  sent : List Response
  /-- `requestComplete` or `onError` has been delivered -/
  done : Bool := false
  deletes : Nat := 0
deriving DecidableEq, Repr

namespace Immediate

/-- All callbacks but the last are empty, and the last one is `delete this`. -/
def deliver (h : Immediate) : Event → Option Immediate
  | .onBody _ | .onUpgrade | .onEOM _ => if h.done then none else some h
  | .requestComplete _ | .onError _ =>
    if h.done then none else some { h with done := true, deletes := h.deletes + 1 }
  | _ => none

end Immediate

inductive Slot where
  | proxy (request : Incoming)
  | immediate (handler : Immediate)
deriving DecidableEq, Repr

/-! ## The server -/

structure Env (R : Type) where
  ext : External
  lib : Libs R
  url : UrlLib
  config : MasternodeConfig
  /-- `ServiceWorker::payload_` -/
  payload : String

structure Server (R : Type) where
  system : System
  state_ : Option (NetworkState R)
  slots : Nat → Option Slot

namespace Server

variable {R : Type} [Field R] [LinearOrder R]

inductive Event where
  | request (i : Nat) (q : Incoming) (addrOk : Bool) (now : Option AddIO)
  | callback (i : Nat) (e : GladiusMasternode.Event)
  | poll (p : GatewayPoll)

/-- `Masternode::Masternode`: the cache writes to disk with `enableP2P`. -/
def init (env : Env R) (cache_directory : String) (geo_ip_enabled : Bool) (db : Option GeoLite) :
    Server R :=
  { system := System.init cache_directory env.config.enableP2P
    state_ := if env.config.enableP2P then
        some (NetworkState.new env.config.toConfig geo_ip_enabled db)
      else none
    slots := fun _ => none }

/-- What the handlers share. -/
def masternode (env : Env R) (s : Server R) : Masternode R :=
  { config_ := env.config.toConfig, cache_ := s.system.shared.cache, state_ := s.state_ }

/-- There is a service worker with `enableServiceWorker`. -/
def route (env : Env R) (q : Incoming) : Routed :=
  Router.onRequest env.url env.config env.config.enableServiceWorker q.m q.secure

/-- The responses of a handler that answers on the spot; `none` if an exception leaves it. -/
def answer (env : Env R) (s : Server R) (q : Incoming) : Routed → Option (List Response)
  | .reject statusCode msg => some [RejectHandler.onRequest statusCode msg]
  | .redirect =>
    let reply := RedirectHandler.onRequest env.url env.config (q.m.ensureHostHeader env.url)
    if reply.threw then none else some reply.sent
  | .direct => (DirectHandler.onRequest env.lib (s.masternode env) q.clientIP).toOption.map fun r => [r]
  | .serviceWorker => some [ServiceWorkerHandler.onRequest env.payload]
  | .proxy => none

def setSlot (s : Server R) (i : Nat) (slot : Slot) : Server R :=
  { s with slots := fun j => if j = i then some slot else s.slots j }

/-- A callback on a proxy handler; its `onRequest` is called where it is created. -/
def proxyStep (env : Env R) (s : Server R) (i : Nat) (e : GladiusMasternode.Event) : Option (Server R) :=
  (s.system.step env.ext env.config.toConfig (i, e)).map fun system => { s with system := system }

/-- `Router::onRequest`, and `onRequest` of the handler it creates. -/
def onRequest (env : Env R) (s : Server R) (i : Nat) (q : Incoming) (addrOk : Bool)
    (now : Option AddIO) : Option (Server R) :=
  match route env q with
  | .proxy =>
    (s.proxyStep env i (.onRequest (q.m.ensureHostHeader env.url) addrOk now)).map fun s =>
      s.setSlot i (.proxy q)
  | routed => (s.answer env q routed).map fun sent =>
      s.setSlot i (.immediate { routed := routed, request := q, sent := sent })

def step (env : Env R) (s : Server R) : Event → Option (Server R)
  | .request i q addrOk now =>
    match s.slots i with
    | none => s.onRequest env i q addrOk now
    | some _ => none
  | .callback i e =>
    match s.slots i, e with
    | some (.proxy _), .onRequest .. => none
    | some (.proxy _), e => s.proxyStep env i e
    | some (.immediate h), e => (h.deliver e).map fun h => s.setSlot i (.immediate h)
    | none, _ => none
  | .poll p => some { s with state_ := s.state_.map fun st => st.poll env.lib p.res p.time }

/-- The states a masternode can reach from its start. -/
def Reachable (env : Env R) (s : Server R) : Prop :=
  ∃ cache_directory geo_ip_enabled db es,
    Run.run (step env) (init env cache_directory geo_ip_enabled db) es = some s

end Server

/-! ## A concrete masternode -/

namespace Scenario

def env : Env ℚ where
  ext := ext
  lib := lib
  url := urlRef
  config := { protected_domain := "a.org", enableP2P := true }
  payload := "self.addEventListener(\"fetch\", null);"

def direct : HTTPMessage :=
  { url := "/", headers := [("Host", "a.org"), ("gladius-masternode-direct", "")] }

def serve (es : List Server.Event) : Option (Server ℚ) :=
  Run.run (Server.step env) (Server.init env "/dev/null" false none) es

/-- Handler 0 fetches `/a`, handler 1 is asked for the network state, handler 2 gets a foreign host. -/
def visits : List Server.Event :=
  [.request 0 ⟨get, false, "10.0.0.1"⟩ true none] ++
    (fetch 0).tail.map (fun e => .callback e.1 e.2) ++
    [.request 1 ⟨direct, false, "10.0.0.1"⟩ true none,
      .request 2 ⟨{ url := "/a", headers := [("Host", "b.org")] }, false, "10.0.0.1"⟩ true none]

/-- Two handlers ask for `/a` before either has an answer. Handler 1 finishes first; handler 0 then
finds the shard full and a file that does not open. The gateway does not answer. -/
def race : List Server.Event :=
  [.request 0 ⟨get, false, "10.0.0.1"⟩ true none, .request 1 ⟨get, false, "10.0.0.2"⟩ true none] ++
    ((fetch 1).tail ++ ((fetch 0).tail.take 6)).map (fun e => .callback e.1 e.2) ++
    [.poll ⟨none, 0⟩, .callback 0 (.requestComplete ⟨false, false⟩),
      .callback 0 .originDetachTransaction]

end Scenario

end GladiusMasternode
