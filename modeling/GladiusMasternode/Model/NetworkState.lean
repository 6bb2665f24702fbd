import GladiusMasternode.Model.Geo
import GladiusMasternode.Model.ProxyHandler
import Mathlib.Algebra.Ring.Nat
/-
# The network state (`NetworkState.h`, `NetworkState.cpp`)

| here | there |
| --- | --- |
| `geo_ip_enabled` | the flag in the shared configuration, which the constructor turns off when the database does not load |
| `geo_present`    | with the flag on there is a `Geo`: the two places that dereference `geo_` rely on it |
| `time`           | `system_clock::now()` in seconds |
| `subInt64`       | a 64-bit difference; it wraps where C++ leaves the result open |
| `poll`           | one turn of the function `beginPollingGateway` schedules; the scheduler catches what it throws |
-/

namespace GladiusMasternode

variable {R : Type} [Field R] [LinearOrder R]

structure NetworkState (R : Type) where
  config_ : Config
  geo_ip_enabled : Bool
  edgeNodes_ : List (EdgeNode R) := []
  geo_ : Option (Geo R)
  geo_present : geo_ip_enabled = true → geo_.isSome = true

/-- An answer to `httpClient_->Get("/api/p2p/state")`. -/
structure HttpResult where
  status : Nat
  body : String

namespace NetworkState

/-- `db` is what `GeoLite2PP::DB(geoip_path + "GeoLite2-City.mmdb")` gives; `none` is a throw. -/
def new (config : Config) (geo_ip_enabled : Bool) (db : Option GeoLite) : NetworkState R :=
  if geo_ip_enabled then
    match db with
    | some db => { config_ := config, geo_ip_enabled := true, geo_ := some { db_ := db },
                   geo_present := fun _ => rfl }
    | none => { config_ := config, geo_ip_enabled := false, geo_ := none,
                geo_present := fun h => by cases h }
  else { config_ := config, geo_ip_enabled := false, geo_ := none, geo_present := fun h => by cases h }

/-- The geo module, where the flag is on. -/
def geo (st : NetworkState R) (h : st.geo_ip_enabled = true) : Geo R :=
  st.geo_.get (st.geo_present h)

/-! ## `parseStateUpdate` -/

def lowerCase (s : String) : String := String.ofList (s.toList.map Char.toLower)

def subInt64 (a b : Int) : Int := (a - b).bmod (2 ^ 64)

/-- `if (config_->geo_ip_enabled) node->setLocation(geo_->lookupCoordinates(ip))` -/
def locate (lib : Libs R) (st : NetworkState R) (ip : String) (node : EdgeNode R) : EdgeNode R :=
  if h : st.geo_ip_enabled = true then node.setLocation ((st.geo h).lookupCoordinates lib ip)
  else node

/-- The `try` block of one entry; `none` for an entry that `continue` skips. -/
def parseNode (lib : Libs R) (st : NetworkState R) (ignoreHeartbeat : Bool) (time : Int)
    (key : String) (value : Dynamic) : Except DynamicError (Option (EdgeNode R)) := do
  let nodeAddress := lowerCase key
  let ip ← (← (← value.at "ip_address").at "data").getString
  let port ← (← (← value.at "content_port").at "data").asInt
  let heartbeat ← (← (← value.at "heartbeat").at "data").asInt
  let hasNoContent ← (← (← value.at "disk_content").at "data").empty
  if !ignoreHeartbeat && decide (subInt64 time heartbeat > 2 * 60) then
    return none
  else if hasNoContent then
    return none
  else
    let node := EdgeNode.new ip (UInt16.ofInt port) nodeAddress (UInt32.ofInt heartbeat)
    return some (st.locate lib ip node)

/-- One turn of the loop over the entries; an exception is logged. -/
def pushNode (lib : Libs R) (st : NetworkState R) (ignoreHeartbeat : Bool) (time : Int)
    (newList : List (EdgeNode R)) (pair : String × Dynamic) : List (EdgeNode R) :=
  match parseNode lib st ignoreHeartbeat time pair.1 pair.2 with
  | .ok (some node) => newList ++ [node]
  | .ok none | .error _ => newList

/-- The list a body gives: parsed, found and filtered. -/
def newNodes (lib : Libs R) (st : NetworkState R) (body : String) (ignoreHeartbeat : Bool)
    (time : Int) : Except DynamicError (List (EdgeNode R)) :=
  match lib.parseJson body with
  | none => .error .conversionError
  | some state => do
    let nodeMap ← (← state.at "response").at "node_data_map"
    let items ← nodeMap.items
    return items.foldl (pushNode lib st ignoreHeartbeat time) []

/-- `geo_->setTreeData(geo_->buildTreeData(newList))`, where geo is on. -/
def installTree (st : NetworkState R) (newList : List (EdgeNode R)) : NetworkState R :=
  if h : st.geo_ip_enabled = true then
    { st with
      geo_ := some ((st.geo h).setTreeData (Geo.buildTreeData newList))
      geo_present := fun _ => rfl }
  else st

def setEdgeNodes (st : NetworkState R) (nodes : List (EdgeNode R)) : NetworkState R :=
  { st with edgeNodes_ := nodes }

def parseStateUpdate (lib : Libs R) (st : NetworkState R) (body : String) (ignoreHeartbeat : Bool)
    (time : Int) : NetworkState R × Except DynamicError Unit :=
  match newNodes lib st body ignoreHeartbeat time with
  | .error e => (st, .error e)
  | .ok newList => ((st.installTree newList).setEdgeNodes newList, .ok ())

/-- `res` is null when the gateway does not answer. -/
def poll (lib : Libs R) (st : NetworkState R) (res : Option HttpResult) (time : Int) :
    NetworkState R :=
  match res with
  | none => st
  | some res =>
    if res.status = 200 then (parseStateUpdate lib st res.body st.config_.ignore_heartbeat time).1
    else st

/-! ## Lookups -/

def getEdgeNodes (st : NetworkState R) : List (EdgeNode R) := st.edgeNodes_

def getEdgeNodeHostnames (st : NetworkState R) : List String :=
  st.edgeNodes_.map fun node => node.getFQDN st.config_.pool_domain st.config_.cdn_subdomain

/-- `edgeNodes_.rlock()->at(i)` -/
def nodeAt (st : NetworkState R) (i : Nat) : Except Crash (EdgeNode R) :=
  match st.edgeNodes_[i]? with
  | some node => .ok node
  | none => .error .outOfRange

/-- `getNearestEdgeNodes(Location, int)` -/
def getNearestEdgeNodes (lib : Libs R) (st : NetworkState R) (l : Location R) (n : Nat) :
    Except Crash (List (EdgeNode R)) :=
  match st.geo_ with
  | none => .error .nullGeo
  | some geo => do
    let indices ← geo.getNearestNodes lib l n
    indices.mapM st.nodeAt

/-- `getNearestEdgeNodes(std::string, int)` -/
def getNearestEdgeNodesOfIP (lib : Libs R) (st : NetworkState R) (ip : String) (n : Nat) :
    Except Crash (List (EdgeNode R)) :=
  match st.geo_ with
  | none => .error .nullGeo
  | some geo => st.getNearestEdgeNodes lib (geo.lookupCoordinates lib ip) n

end NetworkState

end GladiusMasternode
