import GladiusMasternode.Model.Dynamic
import GladiusMasternode.Library.Nearest
import Mathlib.Algebra.Field.Basic
import Mathlib.Algebra.Order.Ring.Defs
/-
# Edge nodes and their places (`EdgeNode.h`, `Location.h`, `Geo.h`, `Geo.cpp`)

| here | there |
| --- | --- |
| `R`              | the numbers that stand for `double`, taken as exact |
| `Libs`           | library code outside the repository: folly's JSON, `sin` and `cos`, `std::stod` |
| `findNeighbors`  | `KDTreeSingleIndexAdaptor::findNeighbors` on the tree built from these points, with the result array it is given: the array afterwards |
| `GeoLite`        | `GeoLite2PP::DB`; `none` is a throw |
| `TreeData.cloud` | the nodes the tree was built from, which it indexes |
| `kdtree_get_pt`  | `PointCloud::kdtree_get_pt`; `none` is a throw of `pts.at(idx)` |
| `evalMetric`     | nanoflann's `L2_Simple_Adaptor::evalMetric` over such a cloud |
| `scanLeaf`       | nanoflann on a tree that is one leaf: every point goes through `KNNResultSet::addPoint` |
-/

namespace GladiusMasternode

structure Location (R : Type) where
  latitude : R
  longitude : R
  x : R
  y : R
  z : R
deriving DecidableEq, Repr

structure Libs (R : Type) where
  /-- `folly::parseJson`; `none` is a throw -/
  parseJson : String → Option Dynamic
  /-- `folly::toJson` -/
  toJson : Dynamic → String
  /-- `std::stod`; `none` is a throw -/
  stod : String → Option R
  pi : R
  sin : R → R
  cos : R → R
  findNeighbors : List (Location R) → Location R → List Nat → List Nat

structure GeoLite where
  /-- `lookup_raw`, and `get_field` on what it returns -/
  lookup_raw : String → Option (List String → Option String)

section
variable {R : Type} [Field R] [LinearOrder R]

/-! ## `Location` -/

namespace Location

def EARTH_RADIUS : R := 6371

def convertToCartesian (lib : Libs R) (l : Location R) : Location R :=
  let lat_rads := l.latitude * lib.pi / 180
  let long_rads := l.longitude * lib.pi / 180
  { l with
    x := EARTH_RADIUS * lib.cos lat_rads * lib.cos long_rads
    y := EARTH_RADIUS * lib.cos lat_rads * lib.sin long_rads
    z := EARTH_RADIUS * lib.sin lat_rads }

/-- The sum of `evalMetric` over the three dimensions of the cloud. -/
def sqDist (a b : Location R) : R :=
  (a.x - b.x) * (a.x - b.x) + (a.y - b.y) * (a.y - b.y) + (a.z - b.z) * (a.z - b.z)

end Location

/-! ## `EdgeNode` -/

/-- `location_` is not initialised by the constructor; it is only read with geo on, when
`setLocation` has been called. -/
structure EdgeNode (R : Type) where
  ip_ : String
  port_ : UInt16
  eth_address_ : String
  heartbeat_ : UInt32
  location_ : Location R
deriving DecidableEq, Repr

namespace EdgeNode

def new (ip : String) (port : UInt16) (eth_addr : String) (heartbeat : UInt32) : EdgeNode R :=
  { ip_ := ip, port_ := port, eth_address_ := eth_addr, heartbeat_ := heartbeat
    location_ := ⟨0, 0, 0, 0, 0⟩ }

def getIP (n : EdgeNode R) : String := n.ip_
def getPort (n : EdgeNode R) : UInt16 := n.port_
def getEthAddress (n : EdgeNode R) : String := n.eth_address_
def getHeartbeat (n : EdgeNode R) : UInt32 := n.heartbeat_

def getFQDN (n : EdgeNode R) (pool_domain cdn_subdomain : String) : String :=
  "https://" ++ n.eth_address_ ++ "." ++ cdn_subdomain ++ "." ++ pool_domain ++ ":" ++
    toString n.port_.toNat

def getLocation (n : EdgeNode R) : Location R := n.location_
def setLocation (n : EdgeNode R) (l : Location R) : EdgeNode R := { n with location_ := l }

end EdgeNode

/-! ## `Geo` -/

/-- What ends the process in a `noexcept` method. -/
inductive Crash where
  /-- `treeData_` has not been set and is dereferenced -/
  | nullTreeData
  /-- `geo_` is null and is dereferenced -/
  | nullGeo
  /-- `std::out_of_range` from `at(i)` -/
  | outOfRange
deriving DecidableEq, Repr

structure TreeData (R : Type) where
  cloud : List (EdgeNode R)

/-- The default constructor, used by the tests, leaves `db_` null; they never look up an address. -/
structure Geo (R : Type) where
  db_ : GeoLite
  treeData_ : Option (TreeData R) := none

namespace Geo

/-- The last coordinate assigned stays when a later step throws. -/
def lookupCoordinates (lib : Libs R) (g : Geo R) (ip : String) : Location R :=
  let location : Location R := ⟨0, 0, 0, 0, 0⟩
  let location :=
    match g.db_.lookup_raw ip with
    | none => location
    | some get_field =>
      match get_field ["location", "latitude"], get_field ["location", "longitude"] with
      | some latitude_str, some longitude_str =>
        match if latitude_str.isEmpty then some location.latitude else lib.stod latitude_str with
        | none => location
        | some latitude =>
          let location := { location with latitude := latitude }
          match if longitude_str.isEmpty then some location.longitude else lib.stod longitude_str with
          | none => location
          | some longitude => { location with longitude := longitude }
      | _, _ => location
  location.convertToCartesian lib

def buildTreeData (nodes : List (EdgeNode R)) : TreeData R := { cloud := nodes }

/-- The result array starts as `n` zeros (`std::vector<size_t> ret_indices(n)`). -/
def getNearestNodes (lib : Libs R) (g : Geo R) (l : Location R) (n : Nat) :
    Except Crash (List Nat) :=
  let ret_indices := List.replicate n 0
  match g.treeData_ with
  | none => .error .nullTreeData
  | some td => .ok (lib.findNeighbors (td.cloud.map EdgeNode.getLocation) l ret_indices)

def setTreeData (g : Geo R) (treeData : TreeData R) : Geo R := { g with treeData_ := some treeData }

end Geo

/-! ## The metric -/

def kdtree_get_pt (cloud : List (EdgeNode R)) (idx dim : Nat) : Option R :=
  cloud[idx]?.map fun node =>
    if dim = 0 then node.getLocation.x
    else if dim = 1 then node.getLocation.y
    else node.getLocation.z

def evalMetric (cloud : List (EdgeNode R)) (a : List R) (b_idx size : Nat) : Option R :=
  (List.range size).foldlM (fun result i => do
    let diff := (← a[i]?) - (← kdtree_get_pt cloud b_idx i)
    return result + diff * diff) 0

/-- `std::vector<double> query_pt{l.x, l.y, l.z}` -/
def query_pt (l : Location R) : List R := [l.x, l.y, l.z]

/-! ## `findNeighbors` -/

/-- The distance of the query to the `i`-th point. -/
def distTo (q : Location R) (pts : List (Location R)) (i : Nat) : R :=
  (pts[i]?.map q.sqDist).getD 0

/-- What nanoflann promises: the nearest points in order in the first slots of the result array,
and the other slots left as they are. -/
def FindsNearest (lib : Libs R) : Prop :=
  ∀ pts q slots, 0 < slots.length → ∃ idx,
    Nearest.IsNearest (distTo q pts) pts.length slots.length idx ∧
    lib.findNeighbors pts q slots = idx ++ slots.drop idx.length

/-- The points of a leaf, offered one after the other to a `KNNResultSet` on the slots. -/
def scanLeaf (pts : List (Location R)) (q : Location R) (slots : List Nat) : List Nat :=
  let idx := Nearest.scan (distTo q pts) pts.length slots.length
  idx ++ slots.drop idx.length

theorem findsNearest_scanLeaf {lib : Libs R} (h : lib.findNeighbors = scanLeaf) :
    FindsNearest lib := fun pts q slots _ =>
  ⟨_, Nearest.isNearest_scan _ _ _, by rw [h]; rfl⟩

end

end GladiusMasternode
