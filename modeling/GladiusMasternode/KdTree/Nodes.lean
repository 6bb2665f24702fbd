import GladiusMasternode.KdTree.Search
import GladiusMasternode.Network.GreatCircle
import GladiusMasternode.Network.Hostnames
import GladiusMasternode.Network.LastPoll
/-
# The tree in the masternode

What the tree adds up to: it answers like a scan of all points, and with it in place of a library the
direct handler lists the nodes that are nearest to the client on the globe.
-/

namespace GladiusMasternode

namespace Nanoflann

section
variable {R : Type} [Field R] [LinearOrder R] [IsStrictOrderedRing R] {dim : Nat} [NeZero dim]

open KNNResultSet in
/-- **Pruning loses nothing.** The tree gives the distances that offering every point gives, also
where it picks another of two points that are equally far. -/
theorem distances_of_scan (data : DatasetAdaptor R dim) {leaf_max_size : Nat} (hleaf : 1 ≤ leaf_max_size)
    (vec : Fin dim → R) {slots : List Nat} (hpos : 0 < slots.length) {dists : List R}
    (hlen : dists.length = slots.length) :
    let tree := findNeighbors data (buildIndex data leaf_max_size) vec (init slots dists slots.length)
    let scan := addPoints (evalMetric data vec) (List.range data.kdtree_get_point_count)
      (init slots dists slots.length)
    tree.dists.take tree.count = scan.dists.take scan.count ∧ tree.count = scan.count ∧
      tree.count = min slots.length data.kdtree_get_point_count := by
  intro tree scan
  have htree : tree.Best (evalMetric data vec) slots (Finset.range data.kdtree_get_point_count) :=
    findNeighbors_best data hleaf vec hpos hlen
  have hscan := (best_init (evalMetric data vec) hpos hlen).offered (offered_addPoints _ _ _) hpos
    (@List.nodup_range data.kdtree_get_point_count) fun i _ => Finset.notMem_empty i
  rw [Finset.empty_union, List.toFinset_range] at hscan
  have hcount := htree.count_eq
  rw [Finset.card_range] at hcount
  exact ⟨htree.dists_eq hscan, htree.count_eq.trans hscan.count_eq.symm, hcount⟩

open KNNResultSet in
theorem distances_of_scan_of_three :
    let tree := findNeighbors (onLine 3) (buildIndex (onLine 3) 1) 1 (init [0, 0] [0, 0] 2)
    let scan := addPoints (evalMetric (onLine 3) 1) (List.range 3) (init [0, 0] [0, 0] 2)
    tree.dists.take tree.count = scan.dists.take scan.count ∧ tree.count = scan.count ∧
      tree.count = 2 :=
  @distances_of_scan ℚ _ _ _ 1 _ (onLine 3) 1 (by decide) 1 [0, 0] (by decide) [0, 0] rfl

end

end Nanoflann

/-- The search that `Geo.cpp` runs, in place of one from outside. -/
def Libs.kdTree {R : Type} [Field R] [LinearOrder R] (lib : Libs R) : Libs R :=
  { lib with findNeighbors := Nanoflann.kdSearch }

/-! ## Where the nodes of a poll are -/

section
variable {R : Type} [Field R] {lib : Libs R} {st₀ : NetworkState R}

namespace NetworkState

/-- With geo on, every node is where the database says its address is. -/
theorem location_of_keptBy (hon : st₀.geo_ip_enabled = true) {p : GatewayPoll}
    {nodes : List (EdgeNode R)} (h : st₀.keptBy lib p = some nodes) :
    ∀ node ∈ nodes, node.getLocation = (st₀.geo hon).lookupCoordinates lib node.getIP := by
  intro node hnode
  rw [keptBy_eq, Option.map_eq_some_iff] at h
  obtain ⟨kvs, -, rfl⟩ := h
  obtain ⟨kv, -, hkv⟩ := List.mem_filterMap.1 hnode
  obtain ⟨ip, port, heartbeat, -, -, rfl⟩ := parseNode_some_iff.1 (nodeOf_eq_some_iff_parseNode.1 hkv)
  rw [locate, dif_pos hon]
  rfl

end NetworkState

end

/-! ## Nearest on the globe -/

theorem converted_of_lookup {lib : Libs ℝ} {g : Geo ℝ} {nodes : List (EdgeNode ℝ)}
    (h : ∀ node ∈ nodes, node.getLocation = g.lookupCoordinates lib.exact node.getIP) :
    converted lib nodes = nodes := by
  unfold converted
  refine (List.map_congr_left fun node hnode => ?_).trans (List.map_id nodes)
  rw [h node hnode, show (g.lookupCoordinates lib.exact node.getIP).convertToCartesian lib.exact =
    g.lookupCoordinates lib.exact node.getIP from rfl, ← h node hnode]
  rfl

namespace DirectHandler

/-- A request on the list and the tree of one good poll. -/
theorem edgeNodes_of_polled (lib : Libs ℝ) {st₀ st : NetworkState ℝ} (hon : st₀.geo_ip_enabled = true)
    {p : GatewayPoll} {nodes : List (EdgeNode ℝ)} (hkept : st₀.keptBy lib.kdTree.exact p = some nodes)
    (hpolled : NetworkState.Polled st₀ (some nodes) st) (hne : nodes ≠ []) (clientIP : String) :
    ∃ idx result,
      Nearest.IsNearest (arcTo ((st₀.geo hon).lookupCoordinates lib.kdTree.exact clientIP) nodes)
        nodes.length 5 idx ∧
      NetworkState.Picks nodes (idx ++ List.replicate (5 - idx.length) 0) result ∧
      edgeNodes lib.kdTree.exact st clientIP = .ok result := by
  have hfind : FindsNearest lib.kdTree.exact := Nanoflann.findsNearest_kdSearch rfl
  have hflag : st.geo_ip_enabled = true := hpolled.flag.trans hon
  obtain ⟨g, hg, htree⟩ := hpolled.tree hflag
  have hnodes : st.edgeNodes_ = nodes := hpolled.nodes
  -- the database is still the one the state began with
  have hclient : g.lookupCoordinates lib.kdTree.exact clientIP =
      (st₀.geo hon).lookupCoordinates lib.kdTree.exact clientIP := by
    obtain ⟨g₀, hg₀⟩ := Option.isSome_iff_exists.1 (st₀.geo_present hon)
    have hdb := hpolled.db
    rw [hg, hg₀, Option.map_some, Option.map_some, Option.some.injEq] at hdb
    have hget : st₀.geo hon = g₀ := by simp [NetworkState.geo, hg₀]
    rw [hget]
    exact NetworkState.lookupCoordinates_congr hdb clientIP
  obtain ⟨idx, result, hnear, hget, hpick⟩ := NetworkState.getNearest_spec hfind hg
    (by rw [htree, hnodes]; rfl) (by rw [hnodes]; exact hne) (show 1 ≤ 5 by decide)
    (g.lookupCoordinates lib.kdTree.exact clientIP)
  rw [hnodes, hclient] at hnear
  rw [hnodes] at hpick
  refine ⟨idx, result, hnear.of_le_iff fun i hi j hj => ?_, hpick, ?_⟩
  · have harc := distTo_le_iff lib.kdTree ((st₀.geo hon).lookupCoordinates lib.kdTree.exact clientIP) hi hj
    rwa [converted_of_lookup (NetworkState.location_of_keptBy hon hkept)] at harc
  · rw [edgeNodes, hflag, if_pos rfl, NetworkState.getNearestEdgeNodesOfIP, hg]
    exact hget

/-- **The nodes listed are the nearest on the globe.** With geo on and exact numbers, after any polls
the last good one of which has kept a node: of the nodes of that poll the five nearest to the place
the database gives for the client, nearest first, and the node at position 0 for each that is
missing. -/
theorem nearest_after_polls (lib : Libs ℝ) {config : Config} (hP2P : config.enableP2P = true)
    (cache : ContentCache) (db : GeoLite) {before after : List GatewayPoll} {p : GatewayPoll}
    {kvs : List (String × Dynamic)} (hgood : goodEntries lib.kdTree.exact p = some kvs)
    (hafter : ∀ q ∈ after, goodEntries lib.kdTree.exact q = none)
    (hne : NetworkState.nodesOf lib.kdTree.exact (.new config true (some db)) p.time kvs ≠ [])
    (clientIP : String) :
    let nodes := NetworkState.nodesOf lib.kdTree.exact (.new config true (some db)) p.time kvs
    let m := (before ++ p :: after).foldl (Masternode.poll lib.kdTree.exact)
      (Masternode.new config cache true (some db))
    let client := Geo.lookupCoordinates lib.kdTree.exact { db_ := db } clientIP
    ∃ idx result o,
      Nearest.IsNearest (arcTo client nodes) nodes.length 5 idx ∧
      NetworkState.Picks nodes (idx ++ List.replicate (5 - idx.length) 0) result ∧
      jsonRes lib.kdTree.exact m clientIP = .ok o ∧
      o.field "edgeNodes" = some (.array (result.map fun node =>
        .string (node.getFQDN config.pool_domain config.cdn_subdomain))) := by
  intro nodes m client
  have hnew : (Masternode.new config cache true (some db) : Masternode ℝ).state_ =
      some (NetworkState.new config true (some db)) := by
    rw [Masternode.new, hP2P]
    rfl
  obtain ⟨hconfig, hpolls⟩ := @polls_state ℝ _ lib.kdTree.exact _ _ hnew (before ++ p :: after)
  have hpolled := @NetworkState.polled_polls ℝ _ lib.kdTree.exact _ _ none (before ++ p :: after)
    (NetworkState.polled_new config true (some db))
  have hlast := @NetworkState.lastKept_of_good ℝ _ lib.kdTree.exact
    (NetworkState.new config true (some db)) before after p kvs hgood hafter
  rw [NetworkState.lastKept] at hlast
  rw [hlast] at hpolled
  have hkept : (NetworkState.new config true (some db)).keptBy lib.kdTree.exact p = some nodes := by
    rw [NetworkState.keptBy_eq, hgood]
    rfl
  have hon : (NetworkState.new config true (some db) : NetworkState ℝ).geo_ip_enabled = true := rfl
  obtain ⟨idx, result, hnear, hpick, hnodes⟩ := edgeNodes_of_polled lib hon hkept hpolled hne clientIP
  obtain ⟨o, hres, hfield⟩ := jsonRes_of_edgeNodes (by rw [hconfig]; exact hP2P) hpolls hnodes
  refine ⟨idx, result, o, hnear, hpick, hres, ?_⟩
  rw [hfield, hconfig, fqdns_eq]
  rfl

/-! ### Three nodes on the equator -/

section

open Scenario

/-- The longitudes of the client and of the nodes. -/
def longitudes : List (String × String) :=
  [("10.0.0.1", "0"), ("10.0.0.2", "170"), ("10.0.0.3", "10"), ("10.0.0.4", "100")]

def equator : GeoLite where
  lookup_raw ip := (longitudes.lookup ip).map fun longitude path =>
    if path = ["location", "latitude"] then some "0"
    else if path = ["location", "longitude"] then some longitude else none

def equatorNodes : List NodeData :=
  [⟨"0xA", "10.0.0.2", "8080"⟩, ⟨"0xB", "10.0.0.3", "8080"⟩, ⟨"0xC", "10.0.0.4", "8080"⟩]

noncomputable def equatorLib : Libs ℝ :=
  mapsLib
    { parseJson := fun _ => none, toJson := fun _ => ""
      stod := fun str => (Dynamic.stringToInt64 str).toOption.map Int.cast
      pi := 0, sin := fun _ => 0, cos := fun _ => 0, findNeighbors := Nanoflann.kdSearch }
    [equatorNodes]

/-- On the equator the arc is the difference in longitude. -/
theorem centralAngle_equator {p q : Location ℝ} (hp : p.latitude = 0 ∧ p.longitude = 0)
    (hq : q.latitude = 0) (hnonneg : 0 ≤ q.longitude) (hle : q.longitude ≤ 180) :
    p.centralAngle q = rads q.longitude := by
  have hpi := Real.pi_pos
  rw [Location.centralAngle, Sphere.centralAngle_eq_arccos, hp.1, hp.2, hq]
  have hrads : rads 0 = 0 := by simp [rads]
  rw [hrads, Real.sin_zero, Real.cos_zero, mul_zero, one_mul, one_mul, zero_add, zero_sub, Real.cos_neg]
  refine Real.arccos_cos ?_ ?_
  · unfold rads
    positivity
  · unfold rads
    rw [div_le_iff₀ (by norm_num)]
    push_cast
    nlinarith

theorem lookup_equator {ip str : String} {longitude : Int}
    (hraw : equator.lookup_raw ip = some fun path =>
      if path = ["location", "latitude"] then some "0"
      else if path = ["location", "longitude"] then some str else none)
    (hne : str.isEmpty = false) (hstod : Dynamic.stringToInt64 str = .ok longitude) :
    (Geo.lookupCoordinates equatorLib.kdTree.exact { db_ := equator } ip).latitude = 0 ∧
    (Geo.lookupCoordinates equatorLib.kdTree.exact { db_ := equator } ip).longitude = longitude := by
  have hread : ∀ str (n : Int), Dynamic.stringToInt64 str = .ok n →
      equatorLib.kdTree.exact.stod str = some (n : ℝ) := by
    intro str n hstr
    show ((Dynamic.stringToInt64 str).toOption.map Int.cast : Option ℝ) = _
    rw [hstr]
    rfl
  have hzero := hread "0" 0 (by decide +kernel)
  have hlong := hread str longitude hstod
  unfold Geo.lookupCoordinates
  simp [hraw, hne, hzero, hlong, Location.convertToCartesian, show "0".isEmpty = false by decide]

/-- The node a poll makes of such an entry. -/
noncomputable def located (n : NodeData) : EdgeNode ℝ :=
  (EdgeNode.new n.ip 8080 (NetworkState.lowerCase n.address) 100).setLocation
    (Geo.lookupCoordinates equatorLib.kdTree.exact { db_ := equator } n.ip)

theorem nodesOf_equator : NetworkState.nodesOf equatorLib.kdTree.exact (.new p2p true (some equator))
    150 (equatorNodes.map NodeData.entry) = equatorNodes.map located := by
  have hnode : ∀ n ∈ equatorNodes, NetworkState.nodeOf equatorLib.kdTree.exact
      (.new p2p true (some equator)) false 150 n.entry = some (located n) := by
    intro n hn
    have hport : Dynamic.stringToInt64 n.port = .ok 8080 := by
      revert n
      decide +kernel
    refine NetworkState.nodeOf_eq_some_iff_parseNode.2 ?_
    exact NetworkState.parseNode_some_iff.2
      ⟨n.ip, 8080, 100, ⟨rfl, hport, rfl, rfl⟩, .inr (by decide), rfl⟩
  rw [NetworkState.nodesOf, List.filterMap_map]
  refine (List.filterMap_congr hnode).trans ?_
  exact congrFun List.filterMap_eq_map' equatorNodes

theorem rads_lt {a b : ℝ} : rads a < rads b ↔ a < b := by
  have hpi := Real.pi_pos
  unfold rads
  rw [div_lt_div_iff_of_pos_right (by norm_num), mul_lt_mul_iff_of_pos_right hpi]

/-- The arcs to the nodes are their longitudes. -/
theorem arcTo_equator {client : Location ℝ} (hclient : client.latitude = 0 ∧ client.longitude = 0) :
    arcTo client (equatorNodes.map located) 0 = rads 170 ∧
    arcTo client (equatorNodes.map located) 1 = rads 10 ∧
    arcTo client (equatorNodes.map located) 2 = rads 100 := by
  have harc : ∀ {l : Location ℝ} {longitude : Int}, l.latitude = 0 ∧ l.longitude = longitude →
      0 ≤ longitude → longitude ≤ 180 → client.centralAngle l = rads longitude := by
    intro l longitude hl hnonneg hle
    rw [← hl.2]
    refine centralAngle_equator hclient hl.1 ?_ ?_
    · rw [hl.2]
      exact_mod_cast hnonneg
    · rw [hl.2]
      exact_mod_cast hle
  have h0 := harc (@lookup_equator "10.0.0.2" "170" 170 rfl (by decide) (by decide +kernel))
    (by decide) (by decide)
  have h1 := harc (@lookup_equator "10.0.0.3" "10" 10 rfl (by decide) (by decide +kernel))
    (by decide) (by decide)
  have h2 := harc (@lookup_equator "10.0.0.4" "100" 100 rfl (by decide) (by decide +kernel))
    (by decide) (by decide)
  exact ⟨by exact_mod_cast h0, by exact_mod_cast h1, by exact_mod_cast h2⟩

/-- 10 degrees, 100 degrees, 170 degrees. -/
theorem isNearest_equator {client : Location ℝ} {idx : List Nat}
    (hclient : client.latitude = 0 ∧ client.longitude = 0)
    (hnear : Nearest.IsNearest (arcTo client (equatorNodes.map located)) 3 5 idx) :
    idx = [1, 2, 0] := by
  obtain ⟨h0, h1, h2⟩ := arcTo_equator hclient
  have h10 : rads 10 < rads 100 := rads_lt.2 (by norm_num)
  have h100 : rads 100 < rads 170 := rads_lt.2 (by norm_num)
  refine hnear.unique ⟨rfl, by decide, by decide, ?_, ?_⟩ ?_
  · simp only [List.pairwise_cons, List.mem_cons, List.not_mem_nil, or_false, forall_eq_or_imp,
      forall_eq, h0, h1, h2]
    exact ⟨⟨h10.le, (h10.trans h100).le⟩, h100.le, by simp⟩
  · intro j hj hout
    exact absurd (by revert j; decide) hout
  · intro i hi j hj heq
    interval_cases i <;> interval_cases j <;> simp only [h0, h1, h2] at heq <;>
      first | rfl | exact absurd heq (by linarith)

/-- The gateway is down, answers, and answers with an error; the client is told of the three nodes
in the order of their distance, and of the first on the list twice more. -/
theorem nearest_after_polls_equator :
    let m := [⟨none, 100⟩, answer (mapText equatorNodes), ⟨some ⟨500, ""⟩, 200⟩].foldl
      (Masternode.poll equatorLib.kdTree.exact) (Masternode.new p2p {} true (some equator))
    ∃ o, jsonRes equatorLib.kdTree.exact m "10.0.0.1" = .ok o ∧
      o.field "edgeNodes" = some (.array (["0xb", "0xc", "0xa", "0xa", "0xa"].map fun address =>
        .string ("https://" ++ address ++ ".cdn.pool.org:8080"))) := by
  intro m
  have hanswer : ∀ body, goodEntries equatorLib.kdTree.exact (answer body) = nodeDataMap equatorLib body :=
    fun _ => rfl
  have hgood : goodEntries equatorLib.kdTree.exact (answer (mapText equatorNodes)) =
      some (equatorNodes.map NodeData.entry) := by
    rw [hanswer, equatorLib]
    exact nodeDataMap_mapText (by rw [List.find?_cons_of_pos]; simp)
  have hbad : ∀ q ∈ [(⟨some ⟨500, ""⟩, 200⟩ : GatewayPoll)],
      goodEntries equatorLib.kdTree.exact q = none := by
    simp [goodEntries]
  have hnodes := nodesOf_equator
  obtain ⟨idx, result, o, hnear, hpick, hres, hfield⟩ := @nearest_after_polls equatorLib p2p rfl {}
    equator [⟨none, 100⟩] [⟨some ⟨500, ""⟩, 200⟩] _ _ hgood hbad
    (by rw [show (answer (mapText equatorNodes)).time = 150 from rfl, hnodes]; simp [equatorNodes])
    "10.0.0.1"
  rw [show (answer (mapText equatorNodes)).time = 150 from rfl, hnodes] at hnear hpick
  have hclient := @lookup_equator "10.0.0.1" "0" 0 rfl (by decide) (by decide +kernel)
  rw [Int.cast_zero] at hclient
  obtain rfl := isNearest_equator hclient hnear
  have hresult : result = [1, 2, 0, 0, 0].map fun i => located (equatorNodes.getD i ⟨"", "", ""⟩) :=
    List.map_injective_iff.2 (Option.some_injective _) (hpick.symm.trans rfl)
  have hnames : (result.map fun node => node.getFQDN p2p.pool_domain p2p.cdn_subdomain) =
      ["0xb", "0xc", "0xa", "0xa", "0xa"].map fun address =>
        "https://" ++ address ++ ".cdn.pool.org:8080" := by
    rw [hresult]
    decide +kernel
  refine ⟨o, hres, hfield.trans ?_⟩
  have hstrings := congrArg (List.map Dynamic.string) hnames
  rw [List.map_map, List.map_map] at hstrings
  exact congrArg (fun xs => some (Dynamic.array xs)) hstrings

end

end DirectHandler

end GladiusMasternode
