import GladiusMasternode.Network.Nearest
/-
# Direct requests between polls

With geo on, `DirectHandler::onRequest` always asks for 5 nodes, and gets at least one index back for
every list the tree may have been built from. So it needs a tree, and a node at position 0: a poll
must have gone well, and the last one that did must have kept a node (`lastKept`).
-/

namespace GladiusMasternode

variable {R : Type} [Field R] {lib : Libs R} {st st₀ : NetworkState R}

namespace NetworkState

/-! ## What a poll changes -/

/-- The list a poll installs; `none` if it leaves the state as it is. -/
def keptBy (lib : Libs R) (st : NetworkState R) (p : GatewayPoll) : Option (List (EdgeNode R)) :=
  match p.res with
  | none => none
  | some res =>
    if res.status = 200 then
      (newNodes lib st res.body st.config_.ignore_heartbeat p.time).toOption
    else none

theorem poll_eq (lib : Libs R) (st : NetworkState R) (p : GatewayPoll) :
    st.poll lib p.res p.time = match st.keptBy lib p with
      | none => st
      | some newList => (st.installTree newList).setEdgeNodes newList := by
  unfold poll keptBy
  cases p.res with
  | none => rfl
  | some res =>
    dsimp only
    split
    · unfold parseStateUpdate
      cases newNodes lib st res.body st.config_.ignore_heartbeat p.time <;> rfl
    · rfl

/-- The parts of the state that no poll changes. -/
structure SameSource (st st₀ : NetworkState R) : Prop where
  config : st.config_ = st₀.config_
  flag : st.geo_ip_enabled = st₀.geo_ip_enabled
  db : st.geo_.map Geo.db_ = st₀.geo_.map Geo.db_

theorem lookupCoordinates_congr {g g' : Geo R} (h : g.db_ = g'.db_) (ip : String) :
    g.lookupCoordinates lib ip = g'.lookupCoordinates lib ip := by
  unfold Geo.lookupCoordinates
  rw [h]

theorem locate_congr (h : SameSource st st₀) (ip : String) (node : EdgeNode R) :
    st.locate lib ip node = st₀.locate lib ip node := by
  unfold locate
  by_cases hon₀ : st₀.geo_ip_enabled = true
  · have hon := h.flag.trans hon₀
    obtain ⟨g, hg⟩ := Option.isSome_iff_exists.1 (st.geo_present hon)
    obtain ⟨g₀, hg₀⟩ := Option.isSome_iff_exists.1 (st₀.geo_present hon₀)
    have hdb := h.db
    rw [hg, hg₀, Option.map_some, Option.map_some, Option.some.injEq] at hdb
    rw [dif_pos hon, dif_pos hon₀]
    simp only [geo, hg, hg₀, Option.get_some]
    rw [lookupCoordinates_congr hdb]
  · rw [dif_neg hon₀, dif_neg (by rw [h.flag]; exact hon₀)]

theorem parseNode_congr (h : SameSource st st₀) (ignoreHeartbeat : Bool) (time : Int) (key : String)
    (value : Dynamic) : parseNode lib st ignoreHeartbeat time key value =
      parseNode lib st₀ ignoreHeartbeat time key value := by
  unfold parseNode
  simp only [locate_congr h]

theorem keptBy_congr (h : SameSource st st₀) (p : GatewayPoll) : st.keptBy lib p = st₀.keptBy lib p := by
  have hpush : pushNode lib st st.config_.ignore_heartbeat p.time =
      pushNode lib st₀ st₀.config_.ignore_heartbeat p.time := by
    funext newList pair
    unfold pushNode
    rw [parseNode_congr h, h.config]
  unfold keptBy newNodes
  rw [hpush]

/-- The list installed last by a sequence of polls. -/
def lastKept (lib : Libs R) (st₀ : NetworkState R) (ps : List GatewayPoll) :
    Option (List (EdgeNode R)) :=
  ps.foldl (fun last p => (st₀.keptBy lib p).or last) none

/-- Nodes and tree are those of the last list installed. -/
structure Polled (st₀ : NetworkState R) (last : Option (List (EdgeNode R))) (st : NetworkState R) :
    Prop extends SameSource st st₀ where
  nodes : st.edgeNodes_ = last.getD []
  tree : st.geo_ip_enabled = true →
    ∃ g, st.geo_ = some g ∧ g.treeData_ = last.map Geo.buildTreeData

theorem polled_poll {last : Option (List (EdgeNode R))} (h : Polled st₀ last st) (p : GatewayPoll) :
    Polled st₀ ((st₀.keptBy lib p).or last) (st.poll lib p.res p.time) := by
  rw [poll_eq, keptBy_congr h.toSameSource]
  cases st₀.keptBy lib p with
  | none => exact h
  | some newList =>
    show Polled st₀ (some newList) ((st.installTree newList).setEdgeNodes newList)
    by_cases hon : st.geo_ip_enabled = true
    · obtain ⟨g, hg, -⟩ := h.tree hon
      have hget : st.geo hon = g := by simp [geo, hg]
      have hinst : (st.installTree newList).setEdgeNodes newList =
          { st with
            edgeNodes_ := newList
            geo_ := some (g.setTreeData (Geo.buildTreeData newList))
            geo_present := fun _ => rfl } := by
        rw [installTree, dif_pos hon, hget]
        rfl
      have hdb := h.db
      rw [hg] at hdb
      rw [hinst]
      exact ⟨⟨h.config, h.flag, hdb⟩, rfl, fun _ => ⟨_, rfl, rfl⟩⟩
    · rw [installTree, dif_neg hon]
      exact ⟨⟨h.config, h.flag, h.db⟩, rfl, fun he => absurd he hon⟩

theorem polled_polls {last : Option (List (EdgeNode R))} (ps : List GatewayPoll)
    (h : Polled st₀ last st) :
    Polled st₀ (ps.foldl (fun last p => (st₀.keptBy lib p).or last) last)
      (ps.foldl (fun st p => st.poll lib p.res p.time) st) := by
  induction ps generalizing st last with
  | nil => exact h
  | cons p ps ih => exact ih (polled_poll h p)

omit [Field R] in
theorem polled_new (config : Config) (flag : Bool) (db : Option GeoLite) :
    Polled (new config flag db : NetworkState R) none (new config flag db) := by
  refine ⟨⟨rfl, rfl, rfl⟩, ?_, ?_⟩
  all_goals
    unfold new
    cases flag <;> cases db <;> simp

omit [Field R] in
theorem new_flag (config : Config) (flag : Bool) (db : Option GeoLite) :
    (new config flag db : NetworkState R).geo_ip_enabled = (flag && db.isSome) := by
  unfold new
  cases flag <;> cases db <;> rfl

end NetworkState

/-! ## Requests -/

namespace DirectHandler

variable [LinearOrder R]

omit [LinearOrder R] in
/-- `onRequest` ends exactly if its list of nodes can be read. -/
theorem onRequest_ok_iff {m : Masternode R} {state : NetworkState R}
    (hP2P : m.config_.enableP2P = true) (hstate : m.state_ = some state) (clientIP : String) :
    (∃ r, onRequest lib m clientIP = .ok r) ↔ ∃ nodes, edgeNodes lib state clientIP = .ok nodes := by
  simp only [onRequest, jsonRes, withEdgeNodes, hP2P, hstate]
  cases edgeNodes lib state clientIP with
  | error e => simp [Except.map]
  | ok nodes => simp [Except.map]

/-- With geo on, the five indices are read from the last list installed. -/
theorem edgeNodes_ok_iff (hfind : FindsNearest lib) {last : Option (List (EdgeNode R))}
    (h : NetworkState.Polled st₀ last st) (clientIP : String) :
    (∃ nodes, edgeNodes lib st clientIP = .ok nodes) ↔
      st₀.geo_ip_enabled = false ∨ ∃ nodes, last = some nodes ∧ nodes ≠ [] := by
  unfold edgeNodes
  cases hon : st.geo_ip_enabled with
  | false => simp [← h.flag, hon]
  | true =>
    obtain ⟨g, hg, htree⟩ := h.tree hon
    rw [← h.flag, hon]
    simp only [if_true, NetworkState.getNearestEdgeNodesOfIP, hg, Bool.true_eq_false, false_or]
    cases last with
    | none =>
      have hnull : g.getNearestNodes lib (g.lookupCoordinates lib clientIP) 5 =
          .error .nullTreeData := by
        rw [Geo.getNearestNodes, htree]
        rfl
      simp [NetworkState.getNearestEdgeNodes, hg, hnull, bind, Except.bind]
    | some nodes =>
      have hnodes : st.edgeNodes_ = nodes := h.nodes
      by_cases hne : nodes = []
      · subst hne
        have hget : st.getNearestEdgeNodes lib (g.lookupCoordinates lib clientIP) 5 =
            .error .outOfRange :=
          NetworkState.getNearest_empty hfind hg htree hnodes (by decide) _
        simp [hget]
      · obtain ⟨idx, result, -, hget, -⟩ := NetworkState.getNearest_spec hfind hg
          (by rw [htree, hnodes]; rfl) (by rw [hnodes]; exact hne) (show 1 ≤ 5 by decide)
          (g.lookupCoordinates lib clientIP)
        exact ⟨fun _ => ⟨nodes, rfl, hne⟩, fun _ => ⟨result, hget⟩⟩

omit [LinearOrder R] in
theorem polls_state {m : Masternode R} {state : NetworkState R} (h : m.state_ = some state)
    (ps : List GatewayPoll) :
    (ps.foldl (Masternode.poll lib) m).config_ = m.config_ ∧
    (ps.foldl (Masternode.poll lib) m).state_ =
      some (ps.foldl (fun st p => st.poll lib p.res p.time) state) := by
  induction ps generalizing m state with
  | nil => exact ⟨rfl, h⟩
  | cons p ps ih =>
    have hp : (m.poll lib p).state_ = some (state.poll lib p.res p.time) := by
      rw [Masternode.poll, h]
      rfl
    exact ih hp

/-- **Direct requests and polls.** After any polls, `onRequest` sends its response exactly if geo is
off (by the flag, or because the database did not load) or the last poll that installed a list kept
at least one node. -/
theorem onRequest_after_polls_iff (hfind : FindsNearest lib) {config : Config}
    (hP2P : config.enableP2P = true) (cache : ContentCache) (geo_ip_enabled : Bool)
    (db : Option GeoLite) (ps : List GatewayPoll) (clientIP : String) :
    (∃ r, onRequest lib (ps.foldl (Masternode.poll lib)
      (Masternode.new config cache geo_ip_enabled db)) clientIP = .ok r) ↔
    geo_ip_enabled = false ∨ db = none ∨
      ∃ nodes, NetworkState.lastKept lib (NetworkState.new config geo_ip_enabled db) ps = some nodes ∧
        nodes ≠ [] := by
  have hnew : (Masternode.new config cache geo_ip_enabled db : Masternode R).state_ =
      some (NetworkState.new config geo_ip_enabled db) := by
    rw [Masternode.new, hP2P]
    rfl
  obtain ⟨hconfig, hstate⟩ := @polls_state R _ lib _ _ hnew ps
  have hP2P' : (ps.foldl (Masternode.poll lib)
      (Masternode.new config cache geo_ip_enabled db)).config_.enableP2P = true := by
    rw [hconfig]
    exact hP2P
  rw [onRequest_ok_iff hP2P' hstate, edgeNodes_ok_iff hfind (NetworkState.polled_polls ps
    (NetworkState.polled_new config geo_ip_enabled db)), NetworkState.new_flag]
  cases geo_ip_enabled <;> cases db <;> simp [NetworkState.lastKept]

section

def p2p : Config := { enableP2P := true, pool_domain := "pool.org" }

def answer (body : String) : GatewayPoll := { res := some ⟨200, body⟩, time := 150 }

theorem onRequest_after_one_node : ∃ r, onRequest Scenario.lib
    ([answer Scenario.emptyBody, answer Scenario.oneNodeBody].foldl (Masternode.poll Scenario.lib)
      (Masternode.new p2p {} true (some Scenario.db))) "10.0.0.1" = .ok r := by
  refine (onRequest_after_polls_iff Scenario.findsNearest_lib rfl _ _ _ _ _).2 (.inr (.inr ?_))
  exact ⟨[NetworkState.someNode], by decide +kernel, List.cons_ne_nil _ _⟩

/-- Before the first poll there is no tree; after one with an empty map there is no node 0. -/
theorem onRequest_crashes :
    onRequest Scenario.lib (Masternode.new p2p {} true (some Scenario.db)) "10.0.0.1" =
      .error .nullTreeData ∧
    onRequest Scenario.lib ((Masternode.new p2p {} true (some Scenario.db)).poll Scenario.lib
      (answer Scenario.emptyBody)) "10.0.0.1" = .error .outOfRange := by
  constructor
  · rfl
  · decide +kernel

end

end DirectHandler

end GladiusMasternode
