import GladiusMasternode.Library.Sphere
import GladiusMasternode.Network.Nearest
/-
# Nearest in the tree is nearest on the globe

The tree compares squared straight distances between points in space. With exact numbers the
converted points are the points of a sphere, so this order is that of the great-circle arcs.

| here | there |
| --- | --- |
| `Libs.exact`   | a library whose `sin`, `cos` and `M_PI` are the real ones |
| `rads`         | the radians of a coordinate |
| `converted`    | the cloud of these nodes after `convertToCartesian` on each location |
-/

namespace GladiusMasternode

/-! ## The metric -/

section
variable {R : Type} [Field R]

theorem evalMetric_eq {cloud : List (EdgeNode R)} {i : Nat} {node : EdgeNode R}
    (hnode : cloud[i]? = some node) (l : Location R) :
    evalMetric cloud (query_pt l) i 3 = some (l.sqDist node.getLocation) := by
  have hpt : ∀ dim, kdtree_get_pt cloud i dim = some (if dim = 0 then node.getLocation.x
      else if dim = 1 then node.getLocation.y else node.getLocation.z) := by
    intro dim
    rw [kdtree_get_pt, hnode]
    rfl
  unfold evalMetric Location.sqDist
  simp [List.range_succ, query_pt, hpt]

/-- The search ranks the points by what the metric gives for them. -/
theorem evalMetric_eq_distTo {cloud : List (EdgeNode R)} {i : Nat} (hi : i < cloud.length)
    (l : Location R) : evalMetric cloud (query_pt l) i 3 =
      some (distTo l (cloud.map EdgeNode.getLocation) i) := by
  have hnode : cloud[i]? = some cloud[i] := List.getElem?_eq_getElem hi
  rw [evalMetric_eq hnode, distTo, List.getElem?_map, hnode]
  rfl

end

/-! ## Exact numbers -/

noncomputable section

def Libs.exact (lib : Libs ℝ) : Libs ℝ :=
  { lib with pi := Real.pi, sin := Real.sin, cos := Real.cos }

def rads (degrees : ℝ) : ℝ := degrees * Real.pi / ((180 : ℕ) : ℝ)

namespace Location

/-- The length of the great-circle arc between two places, in radians. -/
def centralAngle (p q : Location ℝ) : ℝ :=
  Sphere.centralAngle (rads p.latitude) (rads p.longitude) (rads q.latitude) (rads q.longitude)

/-- The Cartesian members as a vector. -/
def point (l : Location ℝ) : EuclideanSpace ℝ (Fin 3) := Sphere.vec l.x l.y l.z

theorem point_convertToCartesian (lib : Libs ℝ) (l : Location ℝ) :
    (l.convertToCartesian lib.exact).point =
      (EARTH_RADIUS : ℝ) • Sphere.direction (rads l.latitude) (rads l.longitude) := by
  rw [Sphere.direction, Sphere.smul_vec]
  simp [point, convertToCartesian, Libs.exact, rads, mul_assoc]

theorem norm_sq_point (l : Location ℝ) : ‖l.point‖ ^ 2 = l.x * l.x + l.y * l.y + l.z * l.z :=
  Sphere.norm_sq_vec l.x l.y l.z

theorem sqDist_eq_norm_sq (p q : Location ℝ) : p.sqDist q = ‖p.point - q.point‖ ^ 2 := by
  rw [point, point, Sphere.vec_sub_vec, Sphere.norm_sq_vec, sqDist]

/-- Both points on the sphere, as far apart as the chord of their arc. -/
theorem sqDist_convertToCartesian (lib : Libs ℝ) (p q : Location ℝ) :
    (p.convertToCartesian lib.exact).sqDist (q.convertToCartesian lib.exact) =
      2 * EARTH_RADIUS ^ 2 * (1 - Real.cos (p.centralAngle q)) := by
  rw [sqDist_eq_norm_sq, point_convertToCartesian, point_convertToCartesian,
    Sphere.norm_sub_sq_direction, centralAngle]

theorem sqDist_le_iff (lib : Libs ℝ) (c a b : Location ℝ) :
    (c.convertToCartesian lib.exact).sqDist (a.convertToCartesian lib.exact) ≤
      (c.convertToCartesian lib.exact).sqDist (b.convertToCartesian lib.exact) ↔
    c.centralAngle a ≤ c.centralAngle b := by
  have hpos : (0 : ℝ) < 2 * EARTH_RADIUS ^ 2 := by
    unfold EARTH_RADIUS
    positivity
  rw [sqDist_convertToCartesian, sqDist_convertToCartesian, mul_le_mul_iff_right₀ hpos,
    sub_le_sub_iff_left]
  exact Sphere.centralAngle_le_iff.symm

end Location

/-! ## The ranking -/

def converted (lib : Libs ℝ) (nodes : List (EdgeNode ℝ)) : List (EdgeNode ℝ) :=
  nodes.map fun node => node.setLocation (node.getLocation.convertToCartesian lib.exact)

theorem evalMetric_converted (lib : Libs ℝ) (c : Location ℝ) (nodes : List (EdgeNode ℝ))
    (i : Fin nodes.length) :
    evalMetric (converted lib nodes) (query_pt (c.convertToCartesian lib.exact)) i 3 =
      some ((c.convertToCartesian lib.exact).sqDist
        ((nodes.get i).getLocation.convertToCartesian lib.exact)) := by
  have hnode : (converted lib nodes)[i.1]? = some ((nodes.get i).setLocation
      ((nodes.get i).getLocation.convertToCartesian lib.exact)) := by
    rw [converted, List.getElem?_map, List.getElem?_eq_getElem i.2]
    rfl
  exact evalMetric_eq hnode _

/-- **The tree's metric ranks by great-circle distance.** -/
theorem nearer_iff_shorter_arc (lib : Libs ℝ) :
    -- the converted points are on the sphere
    (∀ p : Location ℝ, let P := p.convertToCartesian lib.exact
      P.x * P.x + P.y * P.y + P.z * P.z = Location.EARTH_RADIUS ^ 2) ∧
    -- what the metric sums up for a client and a node
    (∀ (c : Location ℝ) (nodes : List (EdgeNode ℝ)) (i : Fin nodes.length),
      evalMetric (converted lib nodes) (query_pt (c.convertToCartesian lib.exact)) i 3 =
        some (2 * Location.EARTH_RADIUS ^ 2 * (1 -
          (Real.sin (rads c.latitude) * Real.sin (rads (nodes.get i).getLocation.latitude) +
            Real.cos (rads c.latitude) * Real.cos (rads (nodes.get i).getLocation.latitude) *
              Real.cos (rads c.longitude - rads (nodes.get i).getLocation.longitude))))) ∧
    -- the arc between two places
    (∀ p q : Location ℝ, p.centralAngle q = Real.arccos
      (Real.sin (rads p.latitude) * Real.sin (rads q.latitude) +
        Real.cos (rads p.latitude) * Real.cos (rads q.latitude) *
          Real.cos (rads p.longitude - rads q.longitude))) ∧
    (∀ p q : Location ℝ, p.centralAngle q = InnerProductGeometry.angle
      (p.convertToCartesian lib.exact).point (q.convertToCartesian lib.exact).point) ∧
    -- the order
    ∀ (c : Location ℝ) (nodes : List (EdgeNode ℝ)) (i j : Fin nodes.length), ∃ di dj,
      evalMetric (converted lib nodes) (query_pt (c.convertToCartesian lib.exact)) i 3 = some di ∧
      evalMetric (converted lib nodes) (query_pt (c.convertToCartesian lib.exact)) j 3 = some dj ∧
      (di ≤ dj ↔
        c.centralAngle (nodes.get i).getLocation ≤ c.centralAngle (nodes.get j).getLocation) := by
  refine ⟨?_, ?_, ?_, ?_, ?_⟩
  · intro p P
    rw [← Location.norm_sq_point, Location.point_convertToCartesian, norm_smul,
      Sphere.norm_direction, mul_one, Real.norm_eq_abs, sq_abs]
  · intro c nodes i
    rw [evalMetric_converted, Location.sqDist_convertToCartesian, Location.centralAngle,
      Sphere.cos_centralAngle]
  · intro p q
    exact Sphere.centralAngle_eq_arccos
  · intro p q
    have hpos : (0 : ℝ) < Location.EARTH_RADIUS := by
      unfold Location.EARTH_RADIUS
      positivity
    rw [Location.point_convertToCartesian, Location.point_convertToCartesian,
      InnerProductGeometry.angle_smul_left_of_pos _ _ hpos,
      InnerProductGeometry.angle_smul_right_of_pos _ _ hpos]
    rfl
  · intro c nodes i j
    exact ⟨_, _, evalMetric_converted lib c nodes i, evalMetric_converted lib c nodes j,
      Location.sqDist_le_iff lib c _ _⟩

/-- The arc from a client to the `i`-th node. -/
def arcTo (c : Location ℝ) (nodes : List (EdgeNode ℝ)) (i : Nat) : ℝ :=
  (nodes[i]?.map fun node => c.centralAngle node.getLocation).getD 0

theorem distTo_le_iff (lib : Libs ℝ) (c : Location ℝ) {nodes : List (EdgeNode ℝ)} {i j : Nat}
    (hi : i < nodes.length) (hj : j < nodes.length) :
    distTo (c.convertToCartesian lib.exact) ((converted lib nodes).map EdgeNode.getLocation) i ≤
      distTo (c.convertToCartesian lib.exact) ((converted lib nodes).map EdgeNode.getLocation) j ↔
    arcTo c nodes i ≤ arcTo c nodes j := by
  have hlen : (converted lib nodes).length = nodes.length := List.length_map _
  have hdist : ∀ k (hk : k < nodes.length),
      distTo (c.convertToCartesian lib.exact) ((converted lib nodes).map EdgeNode.getLocation) k =
        (c.convertToCartesian lib.exact).sqDist
          (nodes[k].getLocation.convertToCartesian lib.exact) := by
    intro k hk
    have hmetric := evalMetric_eq_distTo (hlen ▸ hk) (c.convertToCartesian lib.exact)
    rw [evalMetric_converted lib c nodes ⟨k, hk⟩] at hmetric
    exact (Option.some.inj hmetric).symm
  rw [hdist i hi, hdist j hj, Location.sqDist_le_iff, arcTo, arcTo, List.getElem?_eq_getElem hi,
    List.getElem?_eq_getElem hj]
  rfl

/-- A search on the tree of these nodes finds the ones with the shortest arcs. -/
theorem getNearestNodes_by_arc {lib : Libs ℝ} (hfind : FindsNearest lib) {g : Geo ℝ}
    {nodes : List (EdgeNode ℝ)}
    (htree : g.treeData_ = some (Geo.buildTreeData (converted lib nodes))) (c : Location ℝ) {n : Nat}
    (hn : 1 ≤ n) : ∃ idx, Nearest.IsNearest (arcTo c nodes) nodes.length n idx ∧
      g.getNearestNodes lib.exact (c.convertToCartesian lib.exact) n =
        .ok (idx ++ List.replicate (n - idx.length) 0) := by
  have hexact : FindsNearest lib.exact := hfind
  obtain ⟨idx, hnear, hind⟩ :=
    Geo.getNearestNodes_spec hexact htree hn (c.convertToCartesian lib.exact)
  have hlen : (converted lib nodes).length = nodes.length := List.length_map _
  rw [hlen] at hnear
  exact ⟨idx, hnear.of_le_iff fun i hi j hj => distTo_le_iff lib c hi hj, hind⟩

end

end GladiusMasternode
