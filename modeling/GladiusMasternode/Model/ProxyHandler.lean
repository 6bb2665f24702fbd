import GladiusMasternode.Model.Cache
import Mathlib.Data.List.Infix
/-
# The proxy handler (`ProxyHandler.h`, `ProxyHandler.cpp`)

One `ProxyHandler` serves one client request. It is called back from three sides: by the client
transaction (`downstream_`), by its connector and by the origin transaction. An `Exchange` is the
handler's own fields together with what these three sides have delivered and received so far.

| here | there |
| --- | --- |
| `ProxyHandler`        | the fields that change (`ProxyHandler.h:109-131`); pointers that only matter as null or not are a `Bool` or an `Option` |
| `touch`               | a method reads or writes a field: an error once `delete this` has run |
| `deletes`             | how often `delete this` in `checkForShutdown` has run |
| `uses`                | the calls on `downstream_`, each with the `clientTerminated_` it was made under |
| `sent`                | the calls on `originTxn_` |
| `adds`                | the `addCachedRoute` calls of all handlers that have returned |
| `now`                 | whether the call a method makes on a transaction delivers the matching last callback inside the call; `none` and `false` mean in a later step |

Every call that may call back comes last in its method or is the `sendAbort` of `onError`.
`connector_.connect` and `resumeIngress` end their methods, so what they deliver inside the call
is the same as the next step.
-/

namespace GladiusMasternode

structure Config where
  enableServiceWorker : Bool := true
  pool_domain : String := ""
  cdn_subdomain : String := "cdn"
  ignore_heartbeat : Bool := false
  enableP2P : Bool := false
deriving DecidableEq, Repr

/-! ## `ServiceWorker::injectServiceWorker` -/

def injectScript : String :=
  "navigator.serviceWorker.register('gladius-service-worker.js', \x7bscope: './'\x7d);fetch(\"/masternode-cache-list\",\x7bmethod: \"GET\",mode: \"cors\",headers: \x7b\"gladius-masternode-direct\":\"\",\x7d,cache: \"no-store\"\x7d)"

/-- Reads only the first buffer of its argument (`buf.data()`, `buf.length()`); empty when the
document does not parse or has no head (`ServiceWorker.cpp:14-55`). -/
def injectServiceWorker (ext : External) (buf : IOBuf) : Bytes :=
  match ext.myhtml.parse buf.data with
  | none => []
  | some tree => match ext.myhtml.getNodeHead tree with
    | none => []
    | some head => ext.myhtml.serialize (ext.myhtml.appendScript tree head injectScript)

/-! ## State -/

/-- Where a response is built. -/
inductive Site where
  | cacheHit | badAddress | connectError | originEOM
deriving DecidableEq, Repr

inductive Down where
  | pauseIngress | resumeIngress | sendAbort
  | response (site : Site) (r : Response)
deriving DecidableEq, Repr

structure Use where
  act : Down
  terminated : Bool
deriving DecidableEq, Repr

inductive Upstream where
  | headers (m : HTTPMessage) | body (b : IOBuf) | eom
  | abort | pauseIngress | resumeIngress
deriving DecidableEq, Repr

structure AddCall where
  handler : Nat
  url : String
  chain : IOBuf
  headers : HTTPMessage
  result : Bool
deriving DecidableEq, Repr

structure ProxyHandler where
  originTxn_ : Bool := false
  request_ : Option HTTPMessage := none
  contentBody_ : Option IOBuf := none
  contentHeaders_ : Option HTTPMessage := none
  clientTerminated_ : Bool := false
deriving DecidableEq, Repr

/-- What all handlers share through `cache_`. -/
structure Shared where
  cache : ContentCache := {}
  adds : List AddCall := []

/-- The client transaction: what it has delivered, and what was done to it. -/
structure Client where
  request : Option HTTPMessage := none
  chunks : List IOBuf := []
  eom : Bool := false
  /-- `requestComplete` or `onError` has been delivered -/
  done : Bool := false
  ingressPaused : Bool := false
  uses : List Use := []
deriving DecidableEq, Repr

/-- The connector and the origin transaction it leads to. -/
structure Origin where
  connecting : Bool := false
  attached : Bool := false
  headers : Option HTTPMessage := none
  chunks : List IOBuf := []
  eom : Bool := false
  failed : Bool := false
  sent : List Upstream := []
deriving DecidableEq, Repr

structure Exchange where
  id : Nat
  this : ProxyHandler := {}
  deletes : Nat := 0
  touched : Bool := false
  nullDeref : Bool := false
  /-- an exception has left a `noexcept` method -/
  escaped : Bool := false
  shared : Shared := {}
  client : Client := {}
  origin : Origin := {}

namespace Exchange

/-! ## Field accesses and outgoing calls -/

def touch (x : Exchange) : Exchange := { x with touched := x.touched || x.deletes != 0 }

@[simp] theorem touch_this (x : Exchange) : x.touch.this = x.this := rfl
@[simp] theorem touch_deletes (x : Exchange) : x.touch.deletes = x.deletes := rfl
@[simp] theorem touch_client (x : Exchange) : x.touch.client = x.client := rfl
@[simp] theorem touch_origin (x : Exchange) : x.touch.origin = x.origin := rfl
@[simp] theorem touch_shared (x : Exchange) : x.touch.shared = x.shared := rfl

def set (f : ProxyHandler → ProxyHandler) (x : Exchange) : Exchange :=
  { x.touch with this := f x.this }

def deleteThis (x : Exchange) : Exchange := { x with deletes := x.deletes + 1 }

def dereferenceNull (x : Exchange) : Exchange := { x with nullDeref := true }

/-- A call on `downstream_`. -/
def use (act : Down) (x : Exchange) : Exchange :=
  { x.touch with
    client.uses := x.client.uses ++ [⟨act, x.this.clientTerminated_⟩]
    client.ingressPaused := match act with
      | .pauseIngress => true
      | .resumeIngress => false
      | _ => x.client.ingressPaused }

/-- A call on `originTxn_`. -/
def send (m : Upstream) (x : Exchange) : Exchange := { x.touch with origin.sent := x.origin.sent ++ [m] }

/-- `cache_->addCachedRoute(..)`. -/
def addCachedRoute (ext : External) (io : AddIO) (url : String) (chain : IOBuf)
    (headers : HTTPMessage) (x : Exchange) : Exchange :=
  match x.touch.shared.cache.addCachedRoute ext io url chain headers with
  | (cache, .ok b) =>
    { x.touch with shared := ⟨cache, x.shared.adds ++ [⟨x.id, url, chain, headers, b⟩]⟩ }
  | (cache, .error _) => { x.touch with shared := ⟨cache, x.shared.adds⟩, escaped := true }

/-! ## The last callbacks of the two transactions

They come first because the calls below may deliver them on the spot. -/

def checkForShutdown (x : Exchange) : Bool × Exchange :=
  let x := x.touch
  if x.this.clientTerminated_ && !x.this.originTxn_ then (true, x.deleteThis) else (false, x)

/-- The cache insert of `requestComplete` (`ProxyHandler.cpp:126-135`). -/
def storeContent (ext : External) (io : AddIO) (req : HTTPMessage) (x : Exchange) : Exchange :=
  match x.this.contentBody_, x.this.contentHeaders_ with
  | some body, some headers =>
    if req.method = .get then
      x.addCachedRoute ext io (ext.getUrl req.url) body.cloneCoalesced headers
    else x
  | _, _ => x

def requestComplete (ext : External) (io : AddIO) (x : Exchange) : Exchange :=
  let x := x.touch
  match x.this.request_ with
  | none => x.dereferenceNull
  | some req =>
    let x := x.storeContent ext io req
    if x.escaped then x
    else (checkForShutdown (x.set fun h => { h with clientTerminated_ := true })).2

def originDetachTransaction (x : Exchange) : Exchange :=
  (checkForShutdown (x.set fun h => { h with originTxn_ := false })).2

def deliverRequestComplete (ext : External) (io : AddIO) (x : Exchange) : Exchange :=
  requestComplete ext io { x with client.done := true }

def deliverDetach (x : Exchange) : Exchange := originDetachTransaction { x with origin.attached := false }

/-- The client transaction may finish inside a call on it. -/
def mayComplete (ext : External) (now : Option AddIO) (x : Exchange) : Exchange :=
  match now with
  | none => x
  | some io => x.deliverRequestComplete ext io

/-- The origin transaction may detach inside a call on it. -/
def mayDetach (now : Bool) (x : Exchange) : Exchange := if now then x.deliverDetach else x

/-- `ResponseBuilder(downstream_)…sendWithEOM()`. -/
def sendWithEOM (ext : External) (now : Option AddIO) (site : Site) (r : Response) (x : Exchange) :
    Exchange :=
  (x.use (.response site r)).mayComplete ext now

/-- `downstream_->sendAbort()`. -/
def sendAbort (ext : External) (now : Option AddIO) (x : Exchange) : Exchange :=
  (x.use .sendAbort).mayComplete ext now

/-- `originTxn_->sendEOM()`. -/
def originSendEOM (now : Bool) (x : Exchange) : Exchange := (x.send .eom).mayDetach now

/-- `originTxn_->sendAbort()`. -/
def originSendAbort (now : Bool) (x : Exchange) : Exchange := (x.send .abort).mayDetach now

def abortDownstream (ext : External) (now : Option AddIO) (x : Exchange) : Exchange :=
  let x := x.touch
  if !x.this.clientTerminated_ then x.sendAbort ext now else x

/-! ## `RequestHandler` methods -/

/-- The response of a cache hit, with the service worker injected into pages. -/
def cachedResponse (ext : External) (cfg : Config) (cachedRoute : CachedRoute) : Response :=
  let hs := cachedRoute.getHeaders.headers
  let content := cachedRoute.getContent
  let content :=
    if cfg.enableServiceWorker &&
        decide ("text/html".toList <:+: (hs.rawGet "Content-Type").toList) then
      let injected_body := injectServiceWorker ext cachedRoute.getContent
      if injected_body.isEmpty then content else IOBuf.copyBuffer injected_body
    else content
  { status := 200, message := "OK"
    headers := [("Content-Type", hs.getSingleOrEmpty "Content-Type"),
      ("Cache-Control", hs.getSingleOrEmpty "Cache-Control"),
      ("ETag", hs.getSingleOrEmpty "ETag"),
      ("Expires", hs.getSingleOrEmpty "Expires"),
      ("Last-Modified", hs.getSingleOrEmpty "Last-Modified")]
    body := some content.clone }

def badGateway : Response := { status := 503, message := "Bad Gateway" }

/-- The cached route `onRequest` answers from, if any (`ProxyHandler.cpp:36-41`). -/
def cachedRouteFor (ext : External) (cache : ContentCache) (headers : HTTPMessage) :
    Option CachedRoute :=
  if headers.method = .get then cache.getCachedRoute (ext.getUrl headers.url) else none

/-- `addrOk`: whether `setFromHostPort` accepts the configured origin, or throws. -/
def onRequest (ext : External) (cfg : Config) (headers : HTTPMessage) (addrOk : Bool)
    (now : Option AddIO) (x : Exchange) : Exchange :=
  let x := x.set fun h => { h with request_ := some headers }
  match cachedRouteFor ext x.shared.cache headers with
  | some cachedRoute => x.sendWithEOM ext now .cacheHit (cachedResponse ext cfg cachedRoute)
  | none =>
    let x := x.set fun h => { h with request_ := some (headers.stripPerHopHeaders ext) }
    if addrOk then
      let x := x.use .pauseIngress
      { x.touch with origin.connecting := true }  -- connector_.connect(..)
    else x.sendWithEOM ext now .badAddress badGateway

def onBody (body : IOBuf) (x : Exchange) : Exchange :=
  let x := x.touch
  if x.this.originTxn_ then x.send (.body body) else x

def onUpgrade (x : Exchange) : Exchange := x

def onEOM (now : Bool) (x : Exchange) : Exchange :=
  let x := x.touch
  if x.this.originTxn_ then x.originSendEOM now else x

def onError (now : Bool) (x : Exchange) : Exchange :=
  let x := x.set fun h => { h with clientTerminated_ := true }
  let x := if x.this.originTxn_ then x.originSendAbort now else x
  (checkForShutdown x).2

/-! ## `HTTPConnector::Callback` methods -/

def originSetTransaction (x : Exchange) : Exchange := x.set fun h => { h with originTxn_ := true }

/-- `newTransaction` attaches the origin transaction and calls `setTransaction`. -/
def connectSuccess (x : Exchange) : Exchange :=
  let x := originSetTransaction { x.touch with origin.attached := true }
  let x := x.set fun h => { h with originTxn_ := true }
  match x.this.request_ with
  | none => x.dereferenceNull
  | some req =>
    let req := req.removeHeader "Accept-Encoding"
    let x := x.set fun h => { h with request_ := some req }
    let x := x.send (.headers req)
    x.use .resumeIngress

def connectError (ext : External) (now : Option AddIO) (x : Exchange) : Exchange :=
  let x := x.touch
  if !x.this.clientTerminated_ then x.sendWithEOM ext now .connectError badGateway
  else (checkForShutdown (x.abortDownstream ext now)).2

/-! ## Methods the origin transaction handler delegates to -/

def originOnHeadersComplete (msg : HTTPMessage) (x : Exchange) : Exchange :=
  let x := x.touch
  if x.this.clientTerminated_ then x else x.set fun h => { h with contentHeaders_ := some msg }

def originOnBody (chain : IOBuf) (x : Exchange) : Exchange :=
  let x := x.touch
  if x.this.clientTerminated_ then x
  else x.set fun h => { h with contentBody_ := IOBuf.addChunk h.contentBody_ chain }

/-- The response `originOnEOM` builds. -/
def originResponse (contentHeaders : HTTPMessage) (contentBody : IOBuf) : Response :=
  { status := 200, message := "OK"
    headers := [("Content-Type", contentHeaders.headers.rawGet "Content-Type")]
    body := some contentBody.clone }

def originOnEOM (ext : External) (now : Option AddIO) (x : Exchange) : Exchange :=
  let x := x.touch
  match x.this.contentHeaders_, x.this.contentBody_ with
  | some headers, some body =>
    if !x.this.clientTerminated_ then
      x.sendWithEOM ext now .originEOM (originResponse headers body)
    else x
  | _, _ => x

def originOnError (ext : External) (now : Option AddIO) (x : Exchange) : Exchange :=
  x.abortDownstream ext now

def originOnEgressPaused (x : Exchange) : Exchange :=
  let x := x.touch
  if !x.this.clientTerminated_ && x.this.originTxn_ then x.send .pauseIngress else x

def originOnEgressResumed (x : Exchange) : Exchange :=
  let x := x.touch
  if !x.this.clientTerminated_ && x.this.originTxn_ then x.send .resumeIngress else x

/-- `originOnChunkHeader`, `originOnChunkComplete`, `originOnTrailers`, `originOnUpgrade` and
`originOnPushedTransaction`: at most a log line. -/
def originIgnored (x : Exchange) : Exchange := x

end Exchange

end GladiusMasternode
