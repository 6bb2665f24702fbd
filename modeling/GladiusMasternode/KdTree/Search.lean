import GladiusMasternode.KdTree.Build
import GladiusMasternode.KdTree.ResultSet
import Mathlib.Algebra.BigOperators.Fin
import Mathlib.Algebra.Order.BigOperators.Group.Finset
import Mathlib.Algebra.Order.Ring.Defs
import Mathlib.Tactic.Linarith
import Mathlib.Tactic.Ring
/-
# The search is exact

`searchLevel` carries `mindistsq`, the sum of `dists`: by dimension, how far the query is at least from
the points of the node. A child is left out only if that sum exceeds the worst distance in the result
set. `dists` is one array for the whole search; every call gives it back as it got it.

| here | there |
| --- | --- |
| `Below`        | `dists` bounds the distance to these points in every dimension |
| `Finds`        | a call that offers these points, or those that could still get in |
-/

namespace GladiusMasternode

namespace Nanoflann

variable {R : Type} [Field R] [LinearOrder R] {dim : Nat} {data : DatasetAdaptor R dim}
  {vec dists : Fin dim → R} {slots pts : List Nat} {s : KNNResultSet R} {S : Finset Nat}

/-! ## The metric -/

omit [LinearOrder R] in
theorem foldl_add {α : Type} (f : α → R) (l : List α) (acc : R) :
    l.foldl (fun acc a => acc + f a) acc = acc + (l.map f).sum := by
  induction l generalizing acc with
  | nil => simp
  | cons a l ih => rw [List.foldl_cons, ih, List.map_cons, List.sum_cons, add_assoc]

omit [LinearOrder R] in
theorem evalMetric_eq_sum (data : DatasetAdaptor R dim) (vec : Fin dim → R) (i : Nat) :
    evalMetric data vec i = ∑ k, accum_dist (vec k) (data.kdtree_get_pt i k) := by
  rw [Fin.sum_univ_def]
  exact (foldl_add (fun k => accum_dist (vec k) (data.kdtree_get_pt i k)) (List.finRange dim) 0).trans
    (zero_add _)

def Below (data : DatasetAdaptor R dim) (vec dists : Fin dim → R) (pts : List Nat) : Prop :=
  ∀ i ∈ pts, ∀ k, dists k ≤ accum_dist (vec k) (data.kdtree_get_pt i k)

section
variable [IsStrictOrderedRing R]

/-- The sum then bounds the distance. -/
theorem Below.sum_le (h : Below data vec dists pts) {i : Nat} (hi : i ∈ pts) :
    ∑ k, dists k ≤ evalMetric data vec i := by
  rw [evalMetric_eq_sum]
  exact Finset.sum_le_sum fun k _ => h i hi k

/-- A plane between the query and a point is no farther than the point. -/
theorem accum_dist_le {v a b : R} (h : v ≤ a ∧ a ≤ b ∨ b ≤ a ∧ a ≤ v) : accum_dist v a ≤ accum_dist v b := by
  unfold accum_dist
  rcases h with ⟨h1, h2⟩ | ⟨h1, h2⟩
  · nlinarith
  · nlinarith

theorem accum_dist_nonneg (a b : R) : 0 ≤ accum_dist a b := mul_self_nonneg (a - b)

/-- The root's box bounds the distance in every dimension. -/
theorem below_initialDists {root_bbox : BoundingBox R dim} (h : Boxes data pts root_bbox) :
    Below data vec (initialDists root_bbox vec) pts := by
  intro i hi k
  obtain ⟨hlow, hhigh⟩ := (h k).inside i hi
  unfold initialDists
  split_ifs with h1 h2
  · exact accum_dist_le (.inr ⟨hhigh, le_of_lt h1⟩)
  · exact accum_dist_le (.inl ⟨le_of_lt h2, hlow⟩)
  · exact accum_dist_nonneg _ _

end

theorem computeInitialDistances_eq {root_bbox : BoundingBox R dim} (h : Boxes data pts root_bbox)
    (vec : Fin dim → R) :
    computeInitialDistances root_bbox vec = ∑ k, initialDists root_bbox vec k := by
  rw [Fin.sum_univ_def, computeInitialDistances, ← zero_add (List.sum _), ← foldl_add]
  congr 1
  funext distsq k
  have hle := (h k).le
  unfold initialDists
  split_ifs with h1 h2 h2
  · exact absurd (h1.trans_le hle) (not_lt.2 (le_of_lt h2))
  · rfl
  · rfl
  · rw [add_zero]

/-! ## A leaf -/

/-- The loop offers the points of the leaf: the worst distance was read before it, and only falls
while points are added. -/
theorem offered_scanLeaf (hpos : 0 < slots.length) {worst_dist : WithTop R}
    (hbest : s.Best (evalMetric data vec) slots S) (hworst : s.worstDist ≤ worst_dist)
    (hnodup : pts.Nodup) (hnew : ∀ i ∈ pts, i ∉ S) :
    ∃ s', scanLeaf data vec worst_dist pts s = (true, s') ∧
      KNNResultSet.Offered (evalMetric data vec) pts s s' := by
  induction pts generalizing s S with
  | nil => exact ⟨s, rfl, .nil s⟩
  | cons i rest ih =>
    obtain ⟨hi, hnodup⟩ := List.nodup_cons.1 hnodup
    have hnew' := KNNResultSet.new_of_cons hi hnew
    rw [scanLeaf]
    dsimp only
    split
    · obtain ⟨s', hadd, hbest', hle⟩ := hbest.addPoint hpos (hnew i List.mem_cons_self)
      rw [hadd]
      obtain ⟨t, heq, hoff⟩ := ih hbest' (hle.trans hworst) hnodup hnew'
      refine ⟨t, heq, .add ?_⟩
      rw [hadd]
      exact hoff
    · rename_i hfar
      have hskip := hworst.trans (not_lt.1 hfar)
      obtain ⟨t, heq, hoff⟩ := ih (hbest.skip_one hpos hskip) hworst hnodup hnew'
      exact ⟨t, heq, .skip hskip hoff⟩

theorem scanLeaf_spec (hpos : 0 < slots.length) {worst_dist : WithTop R}
    (hbest : s.Best (evalMetric data vec) slots S) (hworst : s.worstDist ≤ worst_dist)
    (hnodup : pts.Nodup) (hnew : ∀ i ∈ pts, i ∉ S) :
    ∃ s', scanLeaf data vec worst_dist pts s = (true, s') ∧
      s'.Best (evalMetric data vec) slots (S ∪ pts.toFinset) := by
  obtain ⟨s', heq, hoff⟩ := offered_scanLeaf hpos hbest hworst hnodup hnew
  exact ⟨s', heq, hbest.offered hoff hpos hnodup hnew⟩

/-! ## The tree -/

/-- Whatever the set holds already, this call adds the points and leaves `dists` as it was. -/
def Finds (data : DatasetAdaptor R dim) (vec : Fin dim → R) (slots pts : List Nat)
    (search : R → (Fin dim → R) → KNNResultSet R → Searched R dim) : Prop :=
  ∀ ⦃S : Finset Nat⦄ ⦃s : KNNResultSet R⦄ ⦃dists : Fin dim → R⦄, Below data vec dists pts →
    (∀ i ∈ pts, i ∉ S) → s.Best (evalMetric data vec) slots S →
    ∃ s', search (∑ k, dists k) dists s = ⟨true, dists, s'⟩ ∧
      s'.Best (evalMetric data vec) slots (S ∪ pts.toFinset)

theorem Finds.perm {pts' : List Nat} {search : R → (Fin dim → R) → KNNResultSet R → Searched R dim}
    (h : Finds data vec slots pts search) (hperm : pts.Perm pts') : Finds data vec slots pts' search := by
  intro S s dists hbelow hnew hs
  rw [← List.toFinset_eq_of_perm _ _ hperm]
  exact h (fun i hi => hbelow i (hperm.mem_iff.1 hi)) (fun i hi => hnew i (hperm.mem_iff.1 hi)) hs

/-- One coordinate of the bounds is replaced. -/
theorem Below.update (h : Below data vec dists pts) {idx : Fin dim} {cut_dist : R}
    (hcut : ∀ i ∈ pts, cut_dist ≤ accum_dist (vec idx) (data.kdtree_get_pt i idx)) :
    Below data vec (Function.update dists idx cut_dist) pts := by
  intro i hi k
  rcases eq_or_ne k idx with rfl | hk
  · rw [Function.update_self]
    exact hcut i hi
  · rw [Function.update_of_ne hk]
    exact h i hi k

omit [LinearOrder R] in
theorem sum_update (dists : Fin dim → R) (idx : Fin dim) (cut_dist : R) :
    ∑ k, dists k + cut_dist - dists idx = ∑ k, Function.update dists idx cut_dist k := by
  rw [Finset.sum_update_of_mem (Finset.mem_univ idx), ← Finset.erase_eq,
    ← Finset.add_sum_erase _ _ (Finset.mem_univ idx)]
  ring

variable [IsStrictOrderedRing R]

theorem visit_spec (hpos : 0 < slots.length) {near far : List Nat}
    {best other : R → (Fin dim → R) → KNNResultSet R → Searched R dim}
    (hbest : Finds data vec slots near best) (hother : Finds data vec slots far other)
    (hdisj : ∀ i ∈ near, i ∉ far) {idx : Fin dim} {cut_dist : R}
    (hcut : ∀ i ∈ far, cut_dist ≤ accum_dist (vec idx) (data.kdtree_get_pt i idx)) :
    Finds data vec slots (near ++ far) (visit idx cut_dist 1 best other) := by
  intro S s dists hbelow hnew hs
  obtain ⟨s1, heq1, hs1⟩ := hbest (fun i hi => hbelow i (List.mem_append_left _ hi))
    (fun i hi => hnew i (List.mem_append_left _ hi)) hs
  have hfar : Below data vec (Function.update dists idx cut_dist) far :=
    Below.update (fun i hi => hbelow i (List.mem_append_right _ hi)) hcut
  rw [List.toFinset_append, ← Finset.union_assoc, visit, heq1]
  dsimp only
  rw [if_pos rfl, sum_update, mul_one]
  split
  · obtain ⟨s2, heq2, hs2⟩ := hother hfar
      (fun i hi hiS => by
        rcases Finset.mem_union.1 hiS with hiS | hiS
        · exact hnew i (List.mem_append_right _ hi) hiS
        · exact hdisj i (List.mem_toFinset.1 hiS) hi) hs1
    rw [heq2]
    refine ⟨s2, ?_, hs2⟩
    simp
  · rename_i hprune
    refine ⟨s1, by simp, hs1.skip hpos fun i hi => ?_⟩
    -- no point of the other child is nearer than its bound
    exact (le_of_lt (not_le.1 hprune)).trans (WithTop.coe_le_coe.2 (hfar.sum_le (List.mem_toFinset.1 hi)))

theorem searchLevel_finds (hpos : 0 < slots.length) {vind : List Nat} {node : Node R dim}
    (hsep : node.Separated data vind) (hnodup : (node.points vind).Nodup) :
    Finds data vec slots (node.points vind) (searchLevel data vind vec 1 node) := by
  induction node with
  | leaf left right =>
    intro S s dists hbelow hnew hs
    obtain ⟨s', heq, hs'⟩ := scanLeaf_spec hpos hs (le_refl _) hnodup hnew
    rw [Node.points] at heq
    refine ⟨s', ?_, hs'⟩
    rw [searchLevel, heq]
  | sub divfeat divlow divhigh child1 child2 ih1 ih2 =>
    obtain ⟨hle, hlow, hhigh, hsep1, hsep2⟩ := hsep
    rw [Node.points, List.nodup_append] at hnodup
    obtain ⟨hnodup1, hnodup2, hdisj⟩ := hnodup
    intro S s dists hbelow hnew hs
    rw [searchLevel]
    split
    · rename_i hside
      have hcut : ∀ i ∈ child2.points vind,
          accum_dist (vec divfeat) divhigh ≤ accum_dist (vec divfeat) (data.kdtree_get_pt i divfeat) :=
        fun i hi => accum_dist_le (.inl ⟨by linarith, hhigh i hi⟩)
      exact visit_spec hpos (ih1 hsep1 hnodup1) (ih2 hsep2 hnodup2)
        (fun i hi hi' => hdisj i hi i hi' rfl) hcut hbelow hnew hs
    · rename_i hside
      have hcut : ∀ i ∈ child1.points vind,
          accum_dist (vec divfeat) divlow ≤ accum_dist (vec divfeat) (data.kdtree_get_pt i divfeat) :=
        fun i hi => accum_dist_le (.inr ⟨hlow i hi, by linarith⟩)
      have hvisit := visit_spec hpos (ih2 hsep2 hnodup2) (ih1 hsep1 hnodup1)
        (fun i hi hi' => hdisj i hi' i hi rfl) hcut
      exact hvisit.perm List.perm_append_comm hbelow hnew hs

/-- **The search is exact.** -/
theorem findNeighbors_best [NeZero dim] (data : DatasetAdaptor R dim) {leaf_max_size : Nat}
    (hleaf : 1 ≤ leaf_max_size) (vec : Fin dim → R) (hpos : 0 < slots.length)
    {dists : List R} (hlen : dists.length = slots.length) :
    (findNeighbors data (buildIndex data leaf_max_size) vec (.init slots dists slots.length)).Best
      (evalMetric data vec) slots (Finset.range data.kdtree_get_point_count) := by
  have hinit := KNNResultSet.best_init (evalMetric data vec) hpos hlen
  rcases Nat.eq_zero_or_pos data.kdtree_get_point_count with hnone | hsome
  · rw [findNeighbors, buildIndex, if_pos hnone, hnone]
    exact hinit
  · obtain ⟨root, hroot, hperm, -, hpoints, hsep, hboxes⟩ := buildIndex_good hleaf hsome
    have hfind := @searchLevel_finds _ _ _ _ data vec slots _ hpos _ root hsep
      (by rw [hpoints]; exact hperm.nodup_iff.2 List.nodup_range)
    rw [hpoints] at hfind
    obtain ⟨s', heq, hbest⟩ :=
      hfind (below_initialDists hboxes) (fun i _ => Finset.notMem_empty i) hinit
    rw [Finset.empty_union, List.toFinset_eq_of_perm _ _ hperm, List.toFinset_range] at hbest
    rw [findNeighbors, hroot]
    dsimp only
    rwa [add_zero, computeInitialDistances_eq hboxes, heq]

/-! ## Locations -/

omit [LinearOrder R] [IsStrictOrderedRing R] in
theorem evalMetric_pointCloud {pts : List (Location R)} (l : Location R) {i : Nat} (hi : i < pts.length) :
    evalMetric (pointCloud pts) ![l.x, l.y, l.z] i = distTo l pts i := by
  rw [evalMetric_eq_sum, Fin.sum_univ_three, distTo, List.getElem?_eq_getElem hi]
  simp [accum_dist, pointCloud, Location.sqDist, List.getElem?_eq_getElem hi]

/-- The tree that `Geo` builds finds the nearest locations: what was asked of a library. -/
theorem findsNearest_kdSearch {lib : Libs R} (h : lib.findNeighbors = kdSearch) : FindsNearest lib := by
  intro pts q slots hpos
  have hlen : (List.replicate slots.length (0 : R)).length = slots.length := List.length_replicate
  obtain ⟨idx, hholds, hbest⟩ :=
    findNeighbors_best (pointCloud pts) (show 1 ≤ 10 by decide) ![q.x, q.y, q.z] hpos hlen
  refine ⟨idx, (Nearest.isBest_range_iff.1 hbest).of_le_iff fun i hi j hj => ?_, ?_⟩
  · rw [evalMetric_pointCloud q hi, evalMetric_pointCloud q hj]
  · rw [h]
    exact hholds.indices

end Nanoflann

end GladiusMasternode
