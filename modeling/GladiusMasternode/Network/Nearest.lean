import GladiusMasternode.Model.DirectHandler
/-
# The nearest edge nodes

`getNearestNodes` hands out all `n` slots of the result array, filled or not. The slots beyond the
number of nodes still hold their zero, so they all read as the node at position 0: the answer is the
nearest nodes exactly if there are `n` of them.
-/

namespace GladiusMasternode

variable {R : Type} [Field R] [LinearOrder R] {lib : Libs R} {st : NetworkState R} {geo : Geo R}

/-- A search on the tree of these nodes: the nearest, then 0 in every slot that is left. -/
theorem Geo.getNearestNodes_spec (hfind : FindsNearest lib) {nodes : List (EdgeNode R)}
    (htree : geo.treeData_ = some (Geo.buildTreeData nodes)) {n : Nat} (hn : 1 ≤ n) (l : Location R) :
    ∃ idx, Nearest.IsNearest (distTo l (nodes.map EdgeNode.getLocation)) nodes.length n idx ∧
      geo.getNearestNodes lib l n = .ok (idx ++ List.replicate (n - idx.length) 0) := by
  obtain ⟨idx, hnear, heq⟩ := hfind (nodes.map EdgeNode.getLocation) l (List.replicate n 0)
    (by rw [List.length_replicate]; omega)
  rw [List.length_map, List.length_replicate] at hnear
  rw [List.drop_replicate] at heq
  refine ⟨idx, hnear, ?_⟩
  rw [getNearestNodes, htree]
  exact congrArg Except.ok heq

namespace NetworkState

/-- The nodes at these positions of a list. -/
def Picks (nodes : List (EdgeNode R)) (idx : List Nat) (result : List (EdgeNode R)) : Prop :=
  idx.map (nodes[·]?) = result.map some

omit [Field R] [LinearOrder R] in
theorem Picks.length_eq {nodes : List (EdgeNode R)} {idx : List Nat} {result : List (EdgeNode R)}
    (h : Picks nodes idx result) : idx.length = result.length := by
  have := congrArg List.length h
  simpa using this

omit [Field R] [LinearOrder R] in
/-- Reading positions that are in range does not throw. -/
theorem mapM_nodeAt {idx : List Nat} (h : ∀ i ∈ idx, i < st.edgeNodes_.length) :
    ∃ result, idx.mapM st.nodeAt = .ok result ∧ Picks st.edgeNodes_ idx result := by
  induction idx with
  | nil => exact ⟨[], rfl, rfl⟩
  | cons i idx ih =>
    obtain ⟨result, hres, hpick⟩ := ih fun j hj => h j (List.mem_cons_of_mem i hj)
    have hi : i < st.edgeNodes_.length := h i List.mem_cons_self
    have hat : st.nodeAt i = .ok st.edgeNodes_[i] := by
      rw [nodeAt, List.getElem?_eq_getElem hi]
    refine ⟨st.edgeNodes_[i] :: result, ?_, ?_⟩
    · rw [List.mapM_cons, hat, hres]
      rfl
    · rw [Picks, List.map_cons, List.map_cons, List.getElem?_eq_getElem hi,
        show idx.map (st.edgeNodes_[·]?) = result.map some from hpick]

/-- What a lookup on the tree of the current nodes returns: the nearest, then node 0 for every slot
that is left. -/
theorem getNearest_spec (hfind : FindsNearest lib) (hgeo : st.geo_ = some geo)
    (htree : geo.treeData_ = some (Geo.buildTreeData st.edgeNodes_)) (hne : st.edgeNodes_ ≠ [])
    {n : Nat} (hn : 1 ≤ n) (l : Location R) :
    ∃ idx result,
      Nearest.IsNearest (distTo l (st.edgeNodes_.map EdgeNode.getLocation)) st.edgeNodes_.length n idx ∧
      st.getNearestEdgeNodes lib l n = .ok result ∧
      Picks st.edgeNodes_ (idx ++ List.replicate (n - idx.length) 0) result := by
  obtain ⟨idx, hnear, hind⟩ := Geo.getNearestNodes_spec hfind htree hn l
  have hlen : 0 < st.edgeNodes_.length := List.length_pos_of_ne_nil hne
  have hrange : ∀ i ∈ idx ++ List.replicate (n - idx.length) 0, i < st.edgeNodes_.length := by
    intro i hi
    rcases List.mem_append.1 hi with hi | hi
    · exact hnear.range i hi
    · rw [(List.mem_replicate.1 hi).2]
      exact hlen
  obtain ⟨result, hres, hpick⟩ := mapM_nodeAt hrange
  refine ⟨idx, result, hnear, ?_, hpick⟩
  rw [getNearestEdgeNodes, hgeo]
  show (geo.getNearestNodes lib l n).bind _ = _
  rw [hind]
  exact hres

/-- On the tree of an empty list every slot still reads 0, which is out of range. -/
theorem getNearest_empty (hfind : FindsNearest lib) (hgeo : st.geo_ = some geo)
    (htree : geo.treeData_ = some (Geo.buildTreeData [])) (hnil : st.edgeNodes_ = []) {n : Nat}
    (hn : 1 ≤ n) (l : Location R) : st.getNearestEdgeNodes lib l n = .error .outOfRange := by
  obtain ⟨idx, hnear, hind⟩ := Geo.getNearestNodes_spec hfind htree hn l
  have hidx : idx = [] := List.length_eq_zero_iff.1 (by rw [hnear.length]; simp)
  rw [hidx, List.nil_append, List.length_nil, Nat.sub_zero] at hind
  have hat : st.nodeAt 0 = .error .outOfRange := by rw [nodeAt, hnil]; rfl
  obtain ⟨k, rfl⟩ := Nat.exists_eq_add_of_le' hn
  rw [getNearestEdgeNodes, hgeo]
  show (geo.getNearestNodes lib l (k + 1)).bind _ = _
  rw [hind, List.replicate_succ]
  show List.mapM st.nodeAt (0 :: List.replicate k 0) = _
  rw [List.mapM_cons, hat]
  rfl

/-- **Nearest nodes.** With the tree built from the current, non-empty list of nodes, a lookup
returns the `min n m` nearest nodes, distinct and nearest first, exactly if there are `n` nodes. -/
theorem getNearest_iff (hfind : FindsNearest lib) (hgeo : st.geo_ = some geo)
    (htree : geo.treeData_ = some (Geo.buildTreeData st.edgeNodes_)) (hne : st.edgeNodes_ ≠ [])
    {n : Nat} (hn : 1 ≤ n) (l : Location R) :
    (∃ result idx, st.getNearestEdgeNodes lib l n = .ok result ∧ Picks st.edgeNodes_ idx result ∧
      Nearest.IsNearest (distTo l (st.edgeNodes_.map EdgeNode.getLocation)) st.edgeNodes_.length n
        idx) ↔
    n ≤ st.edgeNodes_.length := by
  obtain ⟨idx, result, hnear, hget, hpick⟩ := getNearest_spec hfind hgeo htree hne hn l
  have hlen := hpick.length_eq
  rw [List.length_append, List.length_replicate] at hlen
  have hidx := hnear.length
  constructor
  · rintro ⟨result', idx', hget', hpick', hnear'⟩
    obtain rfl : result = result' := Except.ok.inj (hget.symm.trans hget')
    have hlen' := hpick'.length_eq
    rw [hnear'.length] at hlen'
    omega
  · intro hle
    have hz : n - idx.length = 0 := by omega
    rw [hz, List.replicate_zero, List.append_nil] at hpick
    exact ⟨result, idx, hget, hpick, hnear⟩

def someNode : EdgeNode ℚ :=
  { ip_ := "127.0.0.1", port_ := 8080, eth_address_ := "0xab", heartbeat_ := 100
    location_ := ⟨0, 0, 6371, 0, 0⟩ }

/-- A state whose tree is built from its nodes. -/
def indexed (nodes : List (EdgeNode ℚ)) : NetworkState ℚ :=
  { config_ := {}, geo_ip_enabled := true, edgeNodes_ := nodes
    geo_ := some { db_ := Scenario.db, treeData_ := some (Geo.buildTreeData nodes) }
    geo_present := fun _ => rfl }

/-- Three places: opposite to the client, at the client, and a quarter of the globe away. -/
def threeNodes : List (EdgeNode ℚ) :=
  [{ someNode with eth_address_ := "0xf", location_ := ⟨0, 180, -6371, 0, 0⟩ }, someNode,
    { someNode with eth_address_ := "0xc", location_ := ⟨0, 90, 0, 6371, 0⟩ }]

theorem getNearest_iff_two_of_three :
    (indexed threeNodes).getNearestEdgeNodes Scenario.lib ⟨0, 0, 6371, 0, 0⟩ 2 =
      .ok [threeNodes[1], threeNodes[2]] ∧
    ((∃ result idx,
      (indexed threeNodes).getNearestEdgeNodes Scenario.lib ⟨0, 0, 6371, 0, 0⟩ 2 = .ok result ∧
      Picks threeNodes idx result ∧ Nearest.IsNearest (distTo ⟨0, 0, 6371, 0, 0⟩
        (threeNodes.map EdgeNode.getLocation)) 3 2 idx) ↔ 2 ≤ 3) :=
  ⟨by decide +kernel, @getNearest_iff ℚ _ _ Scenario.lib (indexed threeNodes) _
    Scenario.findsNearest_lib rfl rfl (List.cons_ne_nil _ _) 2 (by decide) _⟩

/-- Asked for 5 of 1 node, as the direct handler asks, the lookup returns the node 5 times. -/
theorem one_node_five_times :
    (indexed [someNode]).getNearestEdgeNodes Scenario.lib ⟨0, 0, 0, 0, 0⟩ 5 =
      .ok [someNode, someNode, someNode, someNode, someNode] ∧
    ¬ ∃ result idx,
      (indexed [someNode]).getNearestEdgeNodes Scenario.lib ⟨0, 0, 0, 0, 0⟩ 5 = .ok result ∧
      Picks [someNode] idx result ∧ Nearest.IsNearest (distTo ⟨0, 0, 0, 0, 0⟩
        ([someNode].map EdgeNode.getLocation)) 1 5 idx := by
  have hget : (indexed [someNode]).getNearestEdgeNodes Scenario.lib ⟨0, 0, 0, 0, 0⟩ 5 =
      .ok [someNode, someNode, someNode, someNode, someNode] := rfl
  refine ⟨hget, ?_⟩
  rintro ⟨result, idx, hget', hpick, hnear⟩
  obtain rfl := Except.ok.inj (hget.symm.trans hget')
  have hlen := hpick.length_eq
  rw [hnear.length] at hlen
  cases hlen

end NetworkState

end GladiusMasternode
