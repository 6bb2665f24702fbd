import GladiusMasternode.Model.Geo
import Mathlib.Order.WithBot
import Mathlib.Algebra.GroupWithZero.Nat
import Mathlib.Data.Fin.VecNotation
/-
# The k-d tree (`libs/nanoflann.hpp`, instantiated in `Geo.h`)

`KDTreeSingleIndexAdaptor` with the `L2_Simple_Adaptor` metric: how the index is built, and how it is
searched with a `KNNResultSet`.

| here | there |
| --- | --- |
| `DatasetAdaptor`  | the point cloud, by point and dimension |
| `ind`             | the range of `vind` that a call works on, in place; nothing outside of it is touched |
| `⊤`               | `std::numeric_limits<DistanceType>::max()`, which no distance reaches |
| `turns`, `depth`  | bounds for a loop and a recursion, at least as many as they can take |
| `Node.leaf`       | a node without children, with `node_type.lr` |
| `Node.sub`        | a node with both children, with `node_type.sub` |
| the `Bool` of a search | the value returned: whether the search goes on |
-/

namespace GladiusMasternode

namespace Nanoflann

variable {R : Type} [Field R] [LinearOrder R] {dim : Nat}

structure DatasetAdaptor (R : Type) (dim : Nat) where
  kdtree_get_point_count : Nat
  kdtree_get_pt : Nat → Fin dim → R

structure Interval (R : Type) where
  low : R
  high : R

abbrev BoundingBox (R : Type) (dim : Nat) := Fin dim → Interval R

/-- `L2_Simple_Adaptor::evalMetric` -/
def evalMetric (data : DatasetAdaptor R dim) (a : Fin dim → R) (b_idx : Nat) : R :=
  (List.finRange dim).foldl (fun result i =>
    let diff := a i - data.kdtree_get_pt b_idx i
    result + diff * diff) 0

/-- `L2_Simple_Adaptor::accum_dist` -/
def accum_dist (a b : R) : R := (a - b) * (a - b)

/-! ## Splitting a range -/

def computeMinMax (data : DatasetAdaptor R dim) (ind : List Nat) (element : Fin dim) : R × R :=
  let first := data.kdtree_get_pt (ind.getD 0 0) element
  (ind.drop 1).foldl (fun (minmax : R × R) i =>
    let val := data.kdtree_get_pt i element
    (if val < minmax.1 then val else minmax.1, if val > minmax.2 then val else minmax.2)) (first, first)

/-- `while (left <= right && p(ind[left])) ++left;` with `room` positions up to `right` -/
def advance (p : Nat → Bool) (ind : List Nat) : Nat → Nat → Nat
  | left, 0 => left
  | left, room + 1 => if p (ind.getD left 0) then advance p ind (left + 1) room else left

/-- `while (right && left <= right && !p(ind[right])) --right;` -/
def retreat (p : Nat → Bool) (ind : List Nat) (left : Nat) : Nat → Nat
  | 0 => 0
  | right + 1 =>
    if left ≤ right + 1 && !p (ind.getD (right + 1) 0) then retreat p ind left right else right + 1

def swap (ind : List Nat) (i j : Nat) : List Nat :=
  (ind.set i (ind.getD j 0)).set j (ind.getD i 0)

/-- One `for (;;)` of `planeSplit`; `p` says what goes to the left. -/
def splitLoop (p : Nat → Bool) : Nat → List Nat → Nat → Nat → List Nat × Nat
  | 0, ind, left, _ => (ind, left)
  | turns + 1, ind, left, right =>
    let left := advance p ind left (right + 1 - left)
    let right := retreat p ind left right
    if left > right || right == 0 then (ind, left)
    else splitLoop p turns (swap ind left right) (left + 1) (right - 1)

structure Planes where
  ind : List Nat
  lim1 : Nat
  lim2 : Nat
deriving DecidableEq, Repr

def planeSplit (data : DatasetAdaptor R dim) (ind : List Nat) (cutfeat : Fin dim) (cutval : R) :
    Planes :=
  let count := ind.length
  let first := splitLoop (fun i => data.kdtree_get_pt i cutfeat < cutval) count ind 0 (count - 1)
  let second := splitLoop (fun i => data.kdtree_get_pt i cutfeat ≤ cutval) count first.1 first.2
    (count - 1)
  { ind := second.1, lim1 := first.2, lim2 := second.2 }

structure Split (R : Type) (dim : Nat) where
  ind : List Nat
  index : Nat
  cutfeat : Fin dim
  cutval : R

/-- `const DistanceType EPS = 0.00001` -/
def EPS : R := 1 / 100000

section
variable [NeZero dim]

def max_span (bbox : BoundingBox R dim) : R :=
  ((List.finRange dim).drop 1).foldl (fun max_span i =>
    let span := (bbox i).high - (bbox i).low
    if span > max_span then span else max_span) ((bbox 0).high - (bbox 0).low)

/-- The dimension of the largest spread, among those where the box is about as wide as anywhere. -/
def cutfeat (data : DatasetAdaptor R dim) (ind : List Nat) (bbox : BoundingBox R dim) : Fin dim :=
  ((List.finRange dim).foldl (fun (best : Fin dim × R) i =>
    let span := (bbox i).high - (bbox i).low
    if span > (1 - EPS) * max_span bbox then
      let minmax := computeMinMax data ind i
      let spread := minmax.2 - minmax.1
      if spread > best.2 then (i, spread) else best
    else best) (0, -1)).1

def middleSplit_ (data : DatasetAdaptor R dim) (ind : List Nat) (bbox : BoundingBox R dim) :
    Split R dim :=
  let count := ind.length
  let cutfeat := cutfeat data ind bbox
  let split_val := ((bbox cutfeat).low + (bbox cutfeat).high) / ((2 : Nat) : R)
  let minmax := computeMinMax data ind cutfeat
  let cutval :=
    if split_val < minmax.1 then minmax.1
    else if split_val > minmax.2 then minmax.2
    else split_val
  let planes := planeSplit data ind cutfeat cutval
  let index :=
    if planes.lim1 > count / 2 then planes.lim1
    else if planes.lim2 < count / 2 then planes.lim2
    else count / 2
  { ind := planes.ind, index := index, cutfeat := cutfeat, cutval := cutval }

/-! ## Building the index -/

inductive Node (R : Type) (dim : Nat) where
  | leaf (left right : Nat)
  | sub (divfeat : Fin dim) (divlow divhigh : R) (child1 child2 : Node R dim)

/-- Widen a box to a point. -/
def widen (data : DatasetAdaptor R dim) (bbox : BoundingBox R dim) (k : Nat) : BoundingBox R dim :=
  fun i =>
    let val := data.kdtree_get_pt k i
    { low := if val < (bbox i).low then val else (bbox i).low
      high := if val > (bbox i).high then val else (bbox i).high }

/-- The box of the points of a range; `bbox` where there are none. -/
def boxOf (data : DatasetAdaptor R dim) (ind : List Nat) (bbox : BoundingBox R dim) :
    BoundingBox R dim :=
  match ind with
  | [] => bbox
  | first :: rest =>
    rest.foldl (widen data) fun i =>
      { low := data.kdtree_get_pt first i, high := data.kdtree_get_pt first i }

structure Divided (R : Type) (dim : Nat) where
  node : Node R dim
  bbox : BoundingBox R dim
  ind : List Nat

/-- `divideTree` on the range of `vind` from `left` on. -/
def divideTree (data : DatasetAdaptor R dim) (leaf_max_size : Nat) :
    Nat → Nat → List Nat → BoundingBox R dim → Divided R dim
  | 0, left, ind, bbox => ⟨.leaf left (left + ind.length), boxOf data ind bbox, ind⟩
  | depth + 1, left, ind, bbox =>
    if ind.length ≤ leaf_max_size then
      ⟨.leaf left (left + ind.length), boxOf data ind bbox, ind⟩
    else
      let s := middleSplit_ data ind bbox
      let left_bbox := Function.update bbox s.cutfeat { bbox s.cutfeat with high := s.cutval }
      let l := divideTree data leaf_max_size depth left (s.ind.take s.index) left_bbox
      let right_bbox := Function.update bbox s.cutfeat { bbox s.cutfeat with low := s.cutval }
      let r := divideTree data leaf_max_size depth (left + s.index) (s.ind.drop s.index) right_bbox
      { node := .sub s.cutfeat (l.bbox s.cutfeat).high (r.bbox s.cutfeat).low l.node r.node
        bbox := fun i =>
          { low := min (l.bbox i).low (r.bbox i).low, high := max (l.bbox i).high (r.bbox i).high }
        ind := l.ind ++ r.ind }

structure Index (R : Type) (dim : Nat) where
  vind : List Nat
  root_node : Option (Node R dim)
  root_bbox : BoundingBox R dim

def buildIndex (data : DatasetAdaptor R dim) (leaf_max_size : Nat) : Index R dim :=
  let m_size := data.kdtree_get_point_count
  let vind := List.range m_size
  let root_bbox : BoundingBox R dim := fun _ => ⟨0, 0⟩
  if m_size = 0 then { vind := vind, root_node := none, root_bbox := root_bbox }
  else
    let d := divideTree data leaf_max_size m_size 0 vind (boxOf data vind root_bbox)
    { vind := d.ind, root_node := some d.node, root_bbox := d.bbox }

end

/-! ## Searching it -/

structure KNNResultSet (R : Type) where
  indices : List Nat
  dists : List (WithTop R)
  capacity : Nat
  count : Nat

namespace KNNResultSet

def init (indices : List Nat) (dists : List R) (capacity : Nat) : KNNResultSet R :=
  let dists := dists.map WithTop.some
  { indices := indices, dists := if capacity = 0 then dists else dists.set (capacity - 1) ⊤
    capacity := capacity, count := 0 }

def worstDist (s : KNNResultSet R) : WithTop R := s.dists.getD (s.capacity - 1) ⊤

/-- The loop of `addPoint` from `i` down; the place it stops at. -/
def shift (dist : R) : Nat → KNNResultSet R → Nat × KNNResultSet R
  | 0, s => (0, s)
  | i + 1, s =>
    if s.dists.getD i ⊤ > dist then
      shift dist i
        (if i + 1 < s.capacity then
          { s with
            dists := s.dists.set (i + 1) (s.dists.getD i ⊤)
            indices := s.indices.set (i + 1) (s.indices.getD i 0) }
        else s)
    else (i + 1, s)

def addPoint (dist : R) (index : Nat) (s : KNNResultSet R) : Bool × KNNResultSet R :=
  let shifted := shift dist s.count s
  let i := shifted.1
  let s := shifted.2
  let s :=
    if i < s.capacity then
      { s with dists := s.dists.set i dist, indices := s.indices.set i index }
    else s
  let s := if s.count < s.capacity then { s with count := s.count + 1 } else s
  (true, s)

end KNNResultSet

section
variable [NeZero dim]

/-- The loop over a leaf; `worst_dist` has been read before it. -/
def scanLeaf (data : DatasetAdaptor R dim) (vec : Fin dim → R) (worst_dist : WithTop R) :
    List Nat → KNNResultSet R → Bool × KNNResultSet R
  | [], result_set => (true, result_set)
  | index :: rest, result_set =>
    let dist := evalMetric data vec index
    if dist < worst_dist then
      let added := result_set.addPoint dist index
      if added.1 then scanLeaf data vec worst_dist rest added.2 else added
    else scanLeaf data vec worst_dist rest result_set

/-- `dists` is given back as it is left. -/
structure Searched (R : Type) (dim : Nat) where
  goOn : Bool
  dists : Fin dim → R
  result_set : KNNResultSet R

/-- The two recursive calls of `searchLevel`, the better child first. -/
def visit (idx : Fin dim) (cut_dist : R) (epsError : R) (best other : R → (Fin dim → R) →
    KNNResultSet R → Searched R dim) (mindistsq : R) (dists : Fin dim → R)
    (result_set : KNNResultSet R) : Searched R dim :=
  let s := best mindistsq dists result_set
  if s.goOn then
    let dst := s.dists idx
    let mindistsq := mindistsq + cut_dist - dst
    let dists := Function.update s.dists idx cut_dist
    if (mindistsq * epsError : R) ≤ s.result_set.worstDist then
      let t := other mindistsq dists s.result_set
      if t.goOn then { t with dists := Function.update t.dists idx dst } else t
    else { goOn := true, dists := Function.update dists idx dst, result_set := s.result_set }
  else s

def searchLevel (data : DatasetAdaptor R dim) (vind : List Nat) (vec : Fin dim → R) (epsError : R) :
    Node R dim → R → (Fin dim → R) → KNNResultSet R → Searched R dim
  | .leaf left right, _, dists, result_set =>
    let scanned := scanLeaf data vec result_set.worstDist ((vind.drop left).take (right - left))
      result_set
    { goOn := scanned.1, dists := dists, result_set := scanned.2 }
  | .sub divfeat divlow divhigh child1 child2, mindistsq, dists, result_set =>
    let val := vec divfeat
    let diff1 := val - divlow
    let diff2 := val - divhigh
    if diff1 + diff2 < 0 then
      visit divfeat (accum_dist val divhigh) epsError (searchLevel data vind vec epsError child1)
        (searchLevel data vind vec epsError child2) mindistsq dists result_set
    else
      visit divfeat (accum_dist val divlow) epsError (searchLevel data vind vec epsError child2)
        (searchLevel data vind vec epsError child1) mindistsq dists result_set

/-- The distance to the root's box, by dimension. -/
def initialDists (root_bbox : BoundingBox R dim) (vec : Fin dim → R) : Fin dim → R := fun i =>
  if vec i > (root_bbox i).high then accum_dist (vec i) (root_bbox i).high
  else if vec i < (root_bbox i).low then accum_dist (vec i) (root_bbox i).low
  else 0

def computeInitialDistances (root_bbox : BoundingBox R dim) (vec : Fin dim → R) : R :=
  (List.finRange dim).foldl (fun distsq i =>
    let distsq :=
      if vec i < (root_bbox i).low then distsq + accum_dist (vec i) (root_bbox i).low else distsq
    if vec i > (root_bbox i).high then distsq + accum_dist (vec i) (root_bbox i).high else distsq) 0

/-- `findNeighbors` with `SearchParams(10)`, whose `eps` is 0; a missing root has thrown before. -/
def findNeighbors (data : DatasetAdaptor R dim) (index : Index R dim) (vec : Fin dim → R)
    (result : KNNResultSet R) : KNNResultSet R :=
  let eps : R := 0
  let epsError := 1 + eps
  match index.root_node with
  | none => result
  | some root_node =>
    (searchLevel data index.vind vec epsError root_node
      (computeInitialDistances index.root_bbox vec) (initialDists index.root_bbox vec)
      result).result_set

end

/-! ## The tree of `Geo.cpp` -/

/-- `PointCloud` -/
def pointCloud (pts : List (Location R)) : DatasetAdaptor R 3 :=
  { kdtree_get_point_count := pts.length
    kdtree_get_pt := fun idx dim =>
      (pts[idx]?.map fun l => if dim = 0 then l.x else if dim = 1 then l.y else l.z).getD 0 }

/-- What `buildTreeData` and `getNearestNodes` make of nanoflann, from the slots to the slots. -/
def kdSearch (pts : List (Location R)) (l : Location R) (ret_indices : List Nat) : List Nat :=
  let n := ret_indices.length
  let out_dist_sqr : List R := List.replicate n 0
  let resultSet := KNNResultSet.init ret_indices out_dist_sqr n
  let tree := buildIndex (pointCloud pts) 10
  (findNeighbors (pointCloud pts) tree ![l.x, l.y, l.z] resultSet).indices

end Nanoflann

end GladiusMasternode
