import GladiusMasternode.Library.RequestTarget
import GladiusMasternode.Model.ProxyHandler
/-
# Routing and redirects (`Router.cpp`, `RedirectHandler.cpp`, `MasternodeServer.cpp`)

| here | there |
| --- | --- |
| `MasternodeConfig` | the further fields of `MasternodeConfig.h` that routing reads |
| `ofFlags`          | what `main` makes of the command line |
| `UrlLib`           | `proxygen::URL`, and the host `ensureHostHeader` fills in |
| `UrlLib.Spec`      | **Proxygen boundary**: what parsing and printing a URL are taken to do |
| `urlRef`           | a reference implementation that meets it |
| `Routed`           | the handler `Router::onRequest` creates |
| `Reply`            | what a handler has sent when its `onRequest` is over, and whether an exception ended it |
-/

namespace GladiusMasternode

/-! ## Configuration -/

structure MasternodeConfig extends Config where
  port : UInt16 := 80
  ssl_enabled : Bool := false
  protected_domain : String := ""
  upgrade_insecure : Bool := false
  ssl_port : UInt16 := 443
deriving DecidableEq, Repr

/-- The flags that reach these fields. -/
structure Flags where
  port : Int := 80
  ssl_port : Int := 443
  protected_domain : String := "localhost"
  cert_path : String := ""
  key_path : String := ""
  upgrade_insecure : Bool := true
  pool_domain : String := ""
  cdn_subdomain : String := "cdn"
  enable_service_worker : Bool := true
  enable_p2p : Bool := false
  ignore_heartbeat : Bool := false

/-- `main` (`MasternodeServer.cpp:54-104`). -/
def MasternodeConfig.ofFlags (flags : Flags) : MasternodeConfig :=
  let config : MasternodeConfig := {}
  let config :=
    if !(flags.cert_path.isEmpty || flags.key_path.isEmpty) then
      { config with
        ssl_port := UInt16.ofInt flags.ssl_port
        ssl_enabled := true
        upgrade_insecure := if flags.upgrade_insecure then true else config.upgrade_insecure }
    else config
  { config with
    port := UInt16.ofInt flags.port
    protected_domain := flags.protected_domain
    enableP2P := flags.enable_p2p
    enableServiceWorker := flags.enable_service_worker
    ignore_heartbeat := flags.ignore_heartbeat
    pool_domain := flags.pool_domain
    cdn_subdomain := flags.cdn_subdomain }

/-! ## URLs -/

/-- A parsed `proxygen::URL`. -/
structure URL where
  hasHost : Bool
  host : String
  path : String
  query : String
  fragment : String

structure UrlLib where
  /-- the constructor from a string -/
  parse : String → URL
  /-- `getUrl()` of a URL made of scheme, host, port, path, query and fragment -/
  print : String → String → UInt16 → String → String → String → String
  /-- the host of a request that comes without one -/
  fallbackHost : HTTPMessage → String

def URL.ofParts (parts : RequestTarget.Parts) : URL :=
  { hasHost := parts.host ≠ "", host := parts.host, path := parts.path, query := parts.query
    fragment := "" }

/-- `path` comes without its slash; an empty query is not printed. -/
def URL.text (scheme host : String) (port : UInt16) (path query : String) : String :=
  scheme ++ "://" ++ host ++ ":" ++ toString port.toNat ++ "/" ++ path ++
    if query = "" then "" else "?" ++ query

structure UrlLib.Spec (lib : UrlLib) : Prop where
  parse : ∀ target : RequestTarget, target.WellFormed →
    lib.parse target.render = URL.ofParts target.parts
  print : ∀ scheme host port path query,
    lib.print scheme host port path query "" = URL.text scheme host port path query

def urlRef : UrlLib where
  parse s := URL.ofParts (RequestTarget.split s)
  print scheme host port path query fragment :=
    URL.text scheme host port path query ++ if fragment = "" then "" else "#" ++ fragment
  fallbackHost _ := ""

theorem spec_urlRef : urlRef.Spec where
  parse target h := by
    rw [urlRef]
    dsimp only
    rw [RequestTarget.split_render h]
  print scheme host port path query := String.append_empty

/-! ## `Router` -/

inductive Routed where
  | reject (statusCode : Nat) (msg : String)
  | redirect
  | direct
  | serviceWorker
  | proxy
deriving DecidableEq, Repr

namespace HTTPMessage

def ensureHostHeader (lib : UrlLib) (m : HTTPMessage) : HTTPMessage :=
  if (m.headers.values "Host").isEmpty then
    { m with headers := m.headers ++ [("Host", lib.fallbackHost m)] }
  else m

@[simp] theorem ensureHostHeader_url (lib : UrlLib) (m : HTTPMessage) :
    (m.ensureHostHeader lib).url = m.url := by
  unfold ensureHostHeader
  split <;> rfl

end HTTPMessage

namespace Router

def DIRECT_HEADER_NAME : String := "Gladius-Masternode-Direct"

def requestIsValid (config : MasternodeConfig) (host : String) : Bool :=
  if host = config.protected_domain then true
  else if config.ssl_enabled &&
      host = config.protected_domain ++ ":" ++ toString config.ssl_port.toNat then true
  else if host = config.protected_domain ++ ":" ++ toString config.port.toNat then true
  else false

/-- The handler goes on with `m.ensureHostHeader lib`. `sw`: whether there is a service worker;
`secure`: whether the request came over SSL. -/
def onRequest (lib : UrlLib) (config : MasternodeConfig) (sw : Bool) (m : HTTPMessage)
    (secure : Bool) : Routed :=
  let m := m.ensureHostHeader lib
  let host := m.headers.getSingleOrEmpty "Host"
  if !requestIsValid config host then .reject 400 "Bad Request"
  else if config.upgrade_insecure && !secure then .redirect
  else if m.headers.any fun h => sameName h.1 DIRECT_HEADER_NAME then .direct
  else if config.enableServiceWorker && sw && m.url = "/gladius-service-worker.js" then .serviceWorker
  else .proxy

end Router

/-! ## `RedirectHandler` -/

/-- `std::string::find_first_of` with one character. -/
def findFirstOf (s : String) (c : Char) : Option Nat := s.toList.findIdx? fun d => d == c

/-- `std::string::substr`; `none` is the `std::out_of_range` of a start past the end. -/
def substr (s : String) (pos : Nat) (n : Option Nat) : Option String :=
  if pos ≤ s.toList.length then
    let rest := s.toList.drop pos
    some (String.ofList (match n with
      | none => rest
      | some n => rest.take n))
  else none

structure Reply where
  sent : List Response
  threw : Bool
deriving DecidableEq, Repr

namespace RedirectHandler

def badRequest : Response := { status := 400, message := "Bad Request" }

def temporaryRedirect (location : String) : Response :=
  { status := 307, message := "Temporary Redirect", headers := [("Location", location)] }

/-- The host to redirect to, and the response sent on the way when there is none. -/
def redirectHost (url : URL) (host : String) : Option (List Response × String) :=
  if url.hasHost then some ([], url.host)
  else if !host.isEmpty then
    match findFirstOf host ':' with
    | none => some ([], host)
    | some colon => (substr host 0 (some colon)).map fun cut => ([], cut)
  else some ([badRequest], "")

def onRequest (lib : UrlLib) (config : MasternodeConfig) (headers : HTTPMessage) : Reply :=
  let host := headers.headers.rawGet "Host"
  let url := lib.parse headers.url
  match redirectHost url host with
  | none => { sent := [], threw := true }
  | some (sent, redirect_host) =>
    match substr url.path 1 none with
    | none => { sent := sent, threw := true }
    | some path =>
      let location := lib.print "https" redirect_host config.ssl_port path url.query url.fragment
      { sent := sent ++ [temporaryRedirect location], threw := false }

end RedirectHandler

end GladiusMasternode
