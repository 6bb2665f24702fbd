import GladiusMasternode.KdTree.Split
import Mathlib.Algebra.Field.Rat
import Mathlib.Algebra.Order.Ring.Unbundled.Rat
/-
# The tree that `buildIndex` builds

`divideTree` works on a range of `vind` in place, and both children work on their halves of it.

| here | there |
| --- | --- |
| `Node.points`    | the entries of `vind` in the leaves of a node, from left to right |
| `Node.Tiles`     | the leaves follow each other without a gap, none empty and none too large |
| `Node.Separated` | `divlow` and `divhigh` are where the children end and begin |
| `Boxes`          | the smallest box around the points of a range |
-/

namespace GladiusMasternode

namespace Nanoflann

variable {R : Type} {dim : Nat}

/-! ## What a good tree is -/

namespace Node

def points (vind : List Nat) : Node R dim → List Nat
  | .leaf left right => (vind.drop left).take (right - left)
  | .sub _ _ _ child1 child2 => child1.points vind ++ child2.points vind

def Tiles (leaf_max_size : Nat) : Node R dim → Nat → Nat → Prop
  | .leaf left right, a, b => left = a ∧ right = b ∧ a < b ∧ b - a ≤ leaf_max_size
  | .sub _ _ _ child1 child2, a, b =>
    ∃ mid, child1.Tiles leaf_max_size a mid ∧ child2.Tiles leaf_max_size mid b

/-- The ranges of the leaves. -/
def leaves : Node R dim → List (Nat × Nat)
  | .leaf left right => [(left, right)]
  | .sub _ _ _ child1 child2 => child1.leaves ++ child2.leaves

def Separated [LinearOrder R] (data : DatasetAdaptor R dim) (vind : List Nat) : Node R dim → Prop
  | .leaf _ _ => True
  | .sub divfeat divlow divhigh child1 child2 =>
    divlow ≤ divhigh ∧
    (∀ i ∈ child1.points vind, data.kdtree_get_pt i divfeat ≤ divlow) ∧
    (∀ i ∈ child2.points vind, divhigh ≤ data.kdtree_get_pt i divfeat) ∧
    child1.Separated data vind ∧ child2.Separated data vind

theorem Tiles.lt {leaf_max_size : Nat} {node : Node R dim} {a b : Nat}
    (h : node.Tiles leaf_max_size a b) : a < b := by
  induction node generalizing a b with
  | leaf left right => exact h.2.2.1
  | sub divfeat divlow divhigh child1 child2 ih1 ih2 =>
    obtain ⟨mid, h1, h2⟩ := h
    have := ih1 h1
    have := ih2 h2
    omega

theorem Tiles.leaf_size {leaf_max_size : Nat} {node : Node R dim} {a b : Nat}
    (h : node.Tiles leaf_max_size a b) : ∀ r ∈ node.leaves, r.1 < r.2 ∧ r.2 - r.1 ≤ leaf_max_size := by
  induction node generalizing a b with
  | leaf left right =>
    obtain ⟨rfl, rfl, hlt, hsize⟩ := h
    intro r hr
    rw [List.mem_singleton.1 hr]
    exact ⟨hlt, hsize⟩
  | sub divfeat divlow divhigh child1 child2 ih1 ih2 =>
    obtain ⟨mid, h1, h2⟩ := h
    intro r hr
    rcases List.mem_append.1 hr with hr | hr
    · exact ih1 h1 r hr
    · exact ih2 h2 r hr

theorem points_eq_leaves (vind : List Nat) (node : Node R dim) :
    node.points vind = node.leaves.flatMap fun r => (vind.drop r.1).take (r.2 - r.1) := by
  induction node with
  | leaf left right => simp [points, leaves]
  | sub divfeat divlow divhigh child1 child2 ih1 ih2 =>
    rw [points, leaves, List.flatMap_append, ih1, ih2]

/-- A node holds the range it was built for. -/
theorem Tiles.points_eq {leaf_max_size : Nat} {node : Node R dim} {a b : Nat}
    (h : node.Tiles leaf_max_size a b) (vind : List Nat) :
    node.points vind = (vind.drop a).take (b - a) := by
  induction node generalizing a b with
  | leaf left right =>
    obtain ⟨rfl, rfl, -⟩ := h
    rfl
  | sub divfeat divlow divhigh child1 child2 ih1 ih2 =>
    obtain ⟨mid, h1, h2⟩ := h
    have hlt1 := h1.lt
    have hlt2 := h2.lt
    rw [points, ih1 h1, ih2 h2, show b - a = (mid - a) + (b - mid) by omega, List.take_add,
      List.drop_drop, show a + (mid - a) = mid by omega]

/-- The points of a node whose range is the middle part of `vind`. -/
theorem Tiles.points_append {leaf_max_size : Nat} {node : Node R dim} {left : Nat} {pre ind post : List Nat}
    (h : node.Tiles leaf_max_size left (left + ind.length)) (hpre : pre.length = left) :
    node.points (pre ++ ind ++ post) = ind := by
  rw [h.points_eq, List.append_assoc, List.drop_append_of_le_length (by omega),
    List.drop_eq_nil_of_le (by omega), List.nil_append, Nat.add_sub_cancel_left, List.take_left]

end Node

/-! ## Boxes -/

section
variable [LinearOrder R] {data : DatasetAdaptor R dim} {ind : List Nat} {bbox : BoundingBox R dim}

def Boxes (data : DatasetAdaptor R dim) (ind : List Nat) (bbox : BoundingBox R dim) : Prop :=
  ∀ k, Spans data ind k (bbox k).low (bbox k).high

theorem Boxes.foldl_widen (h : Boxes data ind bbox) (rest : List Nat) :
    Boxes data (ind ++ rest) (rest.foldl (widen data) bbox) := by
  induction rest generalizing ind bbox with
  | nil => simpa using h
  | cons i rest ih =>
    rw [List.append_cons, List.foldl_cons]
    exact ih fun k => (h k).extend i

theorem boxes_boxOf (hne : ind ≠ []) (bbox : BoundingBox R dim) : Boxes data ind (boxOf data ind bbox) := by
  obtain ⟨first, rest, rfl⟩ := List.exists_cons_of_ne_nil hne
  have hfirst : Boxes data [first] fun i =>
      { low := data.kdtree_get_pt first i, high := data.kdtree_get_pt first i } :=
    fun k => spans_singleton data first k
  exact hfirst.foldl_widen rest

end

/-! ## Building -/

section
variable [Field R] [LinearOrder R] [NeZero dim] {data : DatasetAdaptor R dim} {leaf_max_size : Nat}

/-- What `divideTree` leaves of the range `ind`, which begins at `left`. -/
structure Divided.Good (data : DatasetAdaptor R dim) (leaf_max_size left : Nat) (ind : List Nat)
    (d : Divided R dim) : Prop where
  perm : d.ind.Perm ind
  tiles : d.node.Tiles leaf_max_size left (left + ind.length)
  boxes : Boxes data ind d.bbox
  separated : ∀ pre post, pre.length = left → d.node.Separated data (pre ++ d.ind ++ post)

omit [Field R] [NeZero dim] in
theorem good_leaf {left : Nat} {ind : List Nat} (hne : ind ≠ []) (hsize : ind.length ≤ leaf_max_size)
    (bbox : BoundingBox R dim) :
    Divided.Good data leaf_max_size left ind
      ⟨.leaf left (left + ind.length), boxOf data ind bbox, ind⟩ := by
  have hpos := List.length_pos_of_ne_nil hne
  exact ⟨.refl _, ⟨rfl, rfl, by omega, by omega⟩, boxes_boxOf hne bbox, fun _ _ _ => trivial⟩

/-- The range is always cut into two that are shorter, so the recursion ends before `depth` does. -/
theorem divideTree_good (hleaf : 1 ≤ leaf_max_size) {depth left : Nat} {ind : List Nat} (hne : ind ≠ [])
    (hdepth : ind.length ≤ depth + leaf_max_size) (bbox : BoundingBox R dim) :
    (divideTree data leaf_max_size depth left ind bbox).Good data leaf_max_size left ind := by
  induction depth generalizing left ind bbox with
  | zero => exact good_leaf hne (by omega) bbox
  | succ depth ih =>
    rw [divideTree]
    split
    · rename_i hsize
      exact good_leaf hne hsize bbox
    · rename_i hsize
      obtain ⟨hperm, hpos, hlt, hbelow, habove⟩ :=
        @middleSplit_spec _ _ _ _ _ data ind (by omega) bbox
      dsimp only
      set s := middleSplit_ data ind bbox
      have hlen := hperm.length_eq
      have hlen1 : (s.ind.take s.index).length = s.index := by rw [List.length_take]; omega
      have hlen2 : (s.ind.drop s.index).length = ind.length - s.index := by rw [List.length_drop]; omega
      have hne1 : s.ind.take s.index ≠ [] := List.ne_nil_of_length_pos (by omega)
      have hne2 : s.ind.drop s.index ≠ [] := List.ne_nil_of_length_pos (by omega)
      have hl := @ih left _ hne1 (by omega)
        (Function.update bbox s.cutfeat { bbox s.cutfeat with high := s.cutval })
      have hr := @ih (left + s.index) _ hne2 (by omega)
        (Function.update bbox s.cutfeat { bbox s.cutfeat with low := s.cutval })
      generalize divideTree data leaf_max_size depth left (s.ind.take s.index)
        (Function.update bbox s.cutfeat { bbox s.cutfeat with high := s.cutval }) = l at hl ⊢
      generalize divideTree data leaf_max_size depth (left + s.index) (s.ind.drop s.index)
        (Function.update bbox s.cutfeat { bbox s.cutfeat with low := s.cutval }) = r at hr ⊢
      have hllen := hl.perm.length_eq
      have hrlen := hr.perm.length_eq
      have hjoin : (s.ind.take s.index ++ s.ind.drop s.index).Perm ind := by
        rwa [List.take_append_drop]
      refine ⟨(hl.perm.append hr.perm).trans hjoin, ?_, ?_, ?_⟩
      · refine ⟨left + s.index, ?_, ?_⟩
        · have := hl.tiles
          rwa [hlen1] at this
        · have := hr.tiles
          rwa [hlen2, show left + s.index + (ind.length - s.index) = left + ind.length by omega] at this
      · exact fun k => ((hl.boxes k).append (hr.boxes k)).perm hjoin.symm
      · intro pre post hpre
        have hlp : l.node.points (pre ++ (l.ind ++ r.ind) ++ post) = l.ind := by
          have := @Node.Tiles.points_append _ _ _ _ left pre l.ind (r.ind ++ post)
            (by rw [hllen]; exact hl.tiles) hpre
          rwa [← List.append_assoc, List.append_assoc pre] at this
        have hrp : r.node.points (pre ++ (l.ind ++ r.ind) ++ post) = r.ind := by
          have := @Node.Tiles.points_append _ _ _ _ (left + s.index) (pre ++ l.ind) r.ind post
            (by rw [hrlen]; exact hr.tiles) (by rw [List.length_append]; omega)
          rwa [List.append_assoc pre] at this
        -- the plane of the cut lies between the two boxes
        have hlow : (l.bbox s.cutfeat).high ≤ s.cutval := by
          obtain ⟨i, hi, heq⟩ := (hl.boxes s.cutfeat).high_mem
          rw [← heq]
          exact hbelow i hi
        have hhigh : s.cutval ≤ (r.bbox s.cutfeat).low := by
          obtain ⟨i, hi, heq⟩ := (hr.boxes s.cutfeat).low_mem
          rw [← heq]
          exact habove i hi
        refine ⟨hlow.trans hhigh, ?_, ?_, ?_, ?_⟩
        · intro i hi
          rw [hlp] at hi
          exact ((hl.boxes s.cutfeat).inside i (hl.perm.mem_iff.1 hi)).2
        · intro i hi
          rw [hrp] at hi
          exact ((hr.boxes s.cutfeat).inside i (hr.perm.mem_iff.1 hi)).1
        · have := hl.separated pre (r.ind ++ post) hpre
          rwa [← List.append_assoc, List.append_assoc pre] at this
        · have := hr.separated (pre ++ l.ind) post (by rw [List.length_append]; omega)
          rwa [List.append_assoc pre] at this

/-- An index over all points: `vind` lists each of them once, and the root is a good tree over it. -/
structure Index.Good (data : DatasetAdaptor R dim) (leaf_max_size : Nat) (index : Index R dim)
    (root : Node R dim) : Prop where
  root_node : index.root_node = some root
  perm : index.vind.Perm (List.range data.kdtree_get_point_count)
  tiles : root.Tiles leaf_max_size 0 data.kdtree_get_point_count
  points : root.points index.vind = index.vind
  separated : root.Separated data index.vind
  boxes : Boxes data index.vind index.root_bbox

/-- Leaves must have room for a point: a range of one point has no cut. -/
theorem buildIndex_good (hleaf : 1 ≤ leaf_max_size) (hpos : 0 < data.kdtree_get_point_count) :
    ∃ root, (buildIndex data leaf_max_size).Good data leaf_max_size root := by
  have hne : List.range data.kdtree_get_point_count ≠ [] :=
    List.ne_nil_of_length_pos (by rw [List.length_range]; exact hpos)
  have hgood := @divideTree_good _ _ _ _ _ data leaf_max_size hleaf data.kdtree_get_point_count 0 _ hne
    (by rw [List.length_range]; omega)
    (boxOf data (List.range data.kdtree_get_point_count) fun _ => ⟨0, 0⟩)
  unfold buildIndex
  rw [if_neg (by omega)]
  dsimp only
  generalize divideTree data leaf_max_size data.kdtree_get_point_count 0
    (List.range data.kdtree_get_point_count)
    (boxOf data (List.range data.kdtree_get_point_count) fun _ => ⟨0, 0⟩) = d at hgood ⊢
  obtain ⟨hperm, htiles, hboxes, hsep⟩ := hgood
  rw [List.length_range, Nat.zero_add] at htiles
  have hlen := hperm.length_eq
  rw [List.length_range] at hlen
  refine ⟨d.node, rfl, hperm, htiles, ?_, ?_, fun k => (hboxes k).perm hperm⟩
  · have := htiles.points_eq d.ind
    rwa [List.drop_zero, Nat.sub_zero, ← hlen, List.take_length] at this
  · have := hsep [] [] rfl
    rwa [List.nil_append, List.append_nil] at this

/-- **Every point is in one leaf.** The leaves together hold each point once and none is too large; at
every node the coordinates of the two sides meet at most at the plane between them; and the root's box
is the smallest around all points. -/
theorem point_in_one_leaf (data : DatasetAdaptor R dim) (hleaf : 1 ≤ leaf_max_size)
    (hpos : 0 < data.kdtree_get_point_count) :
    let index := buildIndex data leaf_max_size
    ∃ root, index.root_node = some root ∧
      (root.leaves.flatMap fun r => (index.vind.drop r.1).take (r.2 - r.1)).Perm
        (List.range data.kdtree_get_point_count) ∧
      (∀ r ∈ root.leaves, r.1 < r.2 ∧ r.2 - r.1 ≤ leaf_max_size) ∧
      root.Separated data index.vind ∧
      Boxes data (List.range data.kdtree_get_point_count) index.root_bbox := by
  intro index
  obtain ⟨root, hroot, hperm, htiles, hpoints, hsep, hboxes⟩ := @buildIndex_good _ _ _ _ _ data _ hleaf hpos
  refine ⟨root, hroot, ?_, htiles.leaf_size, hsep, fun k => (hboxes k).perm hperm.symm⟩
  rw [← Node.points_eq_leaves, hpoints]
  exact hperm

/-- Points on a line, each in a leaf of its own. -/
def onLine (count : Nat) : DatasetAdaptor ℚ 1 :=
  { kdtree_get_point_count := count, kdtree_get_pt := fun i _ => i }

theorem point_in_one_leaf_of_three : let index := buildIndex (onLine 3) 1
    ∃ root, index.root_node = some root ∧
      (root.leaves.flatMap fun r => (index.vind.drop r.1).take (r.2 - r.1)).Perm (List.range 3) ∧
      (∀ r ∈ root.leaves, r.1 < r.2 ∧ r.2 - r.1 ≤ 1) ∧
      root.Separated (onLine 3) index.vind ∧ Boxes (onLine 3) (List.range 3) index.root_bbox :=
  point_in_one_leaf (onLine 3) (by decide) (by decide)

end

end Nanoflann

end GladiusMasternode
