import GladiusMasternode.Model.NetworkState
import Mathlib.Algebra.Field.Rat
import Mathlib.Algebra.Order.Ring.Unbundled.Rat
/-
# The direct handler (`DirectHandler.h`, `DirectHandler.cpp`) and the masternode it serves

| here | there |
| --- | --- |
| `Masternode`   | what the handlers of one masternode share (`Masternode.cpp:6-29`) |
| `assetHashes`  | the loop that fills `jsonRes["assetHashes"]` |
| `onRequest`    | `DirectHandler::onRequest`: the response it sends, or how it ends the process |
-/

namespace GladiusMasternode

variable {R : Type} [Field R] [LinearOrder R]

structure Masternode (R : Type) where
  config_ : Config
  cache_ : ContentCache
  state_ : Option (NetworkState R)

/-- `state_` exists with `enableP2P`. -/
def Masternode.new (config : Config) (cache : ContentCache) (geo_ip_enabled : Bool)
    (db : Option GeoLite) : Masternode R :=
  { config_ := config, cache_ := cache
    state_ := if config.enableP2P then some (NetworkState.new config geo_ip_enabled db) else none }

/-- One turn of the gateway poller: what the gateway answers, and when. -/
structure GatewayPoll where
  res : Option HttpResult
  time : Int

def Masternode.poll (lib : Libs R) (m : Masternode R) (p : GatewayPoll) : Masternode R :=
  { m with state_ := m.state_.map fun st => st.poll lib p.res p.time }

namespace DirectHandler

def assetHashes (cache : ContentCache) : List (String × String) :=
  cache.getAssetHashMap.foldl (fun o kv => Dynamic.setEntry o kv.1 kv.2) []

/-- The nodes the response lists. -/
def edgeNodes (lib : Libs R) (state : NetworkState R) (clientIP : String) :
    Except Crash (List (EdgeNode R)) :=
  if state.geo_ip_enabled then state.getNearestEdgeNodesOfIP lib clientIP 5
  else .ok state.getEdgeNodes

def fqdns (config : Config) (edgeNodes : List (EdgeNode R)) : Dynamic :=
  edgeNodes.foldl (fun o edge =>
    o.push_back (.string (edge.getFQDN config.pool_domain config.cdn_subdomain))) (.array [])

/-- `if (config_->enableP2P && state_)` -/
def withEdgeNodes (lib : Libs R) (m : Masternode R) (clientIP : String) (jsonRes : Dynamic) :
    Except Crash Dynamic :=
  match m.config_.enableP2P, m.state_ with
  | true, some state =>
    (edgeNodes lib state clientIP).map fun edgeNodes =>
      jsonRes.set "edgeNodes" (fqdns m.config_ edgeNodes)
  | _, _ => .ok jsonRes

def jsonRes (lib : Libs R) (m : Masternode R) (clientIP : String) : Except Crash Dynamic :=
  (withEdgeNodes lib m clientIP (.object [])).map fun jsonRes =>
    jsonRes.set "assetHashes" (.object ((assetHashes m.cache_).map fun kv => (kv.1, .string kv.2)))

def onRequest (lib : Libs R) (m : Masternode R) (clientIP : String) : Except Crash Response :=
  (jsonRes lib m clientIP).map fun jsonRes =>
    { status := 200, message := "OK", headers := [("Content-Type", "application/json")]
      body := some (IOBuf.copyBuffer (lib.toJson jsonRes).toUTF8.toList) }

end DirectHandler

/-! ## A concrete gateway -/

namespace Scenario

/-- A body with one content node, in the gateway's format. -/
def oneNodeBody : String := "\x7b\"response\": \x7b\"node_data_map\": \x7b\"0xAB\": \x7b\"content_port\": \x7b\"data\": \"8080\"\x7d, \"ip_address\": \x7b\"data\": \"127.0.0.1\"\x7d, \"heartbeat\": \x7b\"data\": 100\x7d, \"disk_content\": \x7b\"data\": [\"a\"]\x7d\x7d\x7d\x7d\x7d"

def oneNodeJson : Dynamic :=
  let field (v : Dynamic) : Dynamic := .object [("data", v)]
  .object [("response", .object [("node_data_map", .object [("0xAB", .object
    [("content_port", field (.string "8080")), ("ip_address", field (.string "127.0.0.1")),
      ("heartbeat", field (.int64 100)), ("disk_content", field (.array [.string "a"]))])])])]

def emptyBody : String := "\x7b\"response\": \x7b\"node_data_map\": \x7b\x7d\x7d\x7d"

def emptyJson : Dynamic := .object [("response", .object [("node_data_map", .object [])])]

/-- `sin` and `cos` are only taken of 0 here, and nothing is looked up that `stod` would read. -/
def lib : Libs ℚ where
  parseJson body :=
    if body = oneNodeBody then some oneNodeJson
    else if body = emptyBody then some emptyJson else none
  toJson _ := ""
  stod _ := none
  pi := 884279719003555 / 281474976710656
  sin _ := 0
  cos _ := 1
  findNeighbors := scanLeaf

/-- A database that knows no address. -/
def db : GeoLite where
  lookup_raw _ := none

theorem findsNearest_lib : FindsNearest lib := findsNearest_scanLeaf rfl

end Scenario

end GladiusMasternode
