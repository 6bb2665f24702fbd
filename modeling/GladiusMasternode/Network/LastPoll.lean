import GladiusMasternode.Network.DirectSafety
import GladiusMasternode.Network.Parsing
/-
# The state after polls

A poll is good if it is answered with 200 and a body that holds a map of nodes (`goodEntries`). Any
other poll throws, or gives up, before `parseStateUpdate` writes; nothing after that point throws.
-/

namespace GladiusMasternode

variable {R : Type} [Field R] {lib : Libs R} {st st₀ : NetworkState R}

/-- The entries a good poll reads. -/
def goodEntries (lib : Libs R) (p : GatewayPoll) : Option (List (String × Dynamic)) :=
  p.res.bind fun res => if res.status = 200 then nodeDataMap lib res.body else none

namespace NetworkState

/-- The nodes of a good poll. -/
def nodesOf (lib : Libs R) (st : NetworkState R) (time : Int) (kvs : List (String × Dynamic)) :
    List (EdgeNode R) :=
  kvs.filterMap (nodeOf lib st st.config_.ignore_heartbeat time)

/-- A list is installed by the good polls, and only by them. -/
theorem keptBy_eq (p : GatewayPoll) :
    st.keptBy lib p = (goodEntries lib p).map (nodesOf lib st p.time) := by
  unfold keptBy goodEntries
  cases p.res with
  | none => rfl
  | some res =>
    dsimp only [Option.bind_some]
    split
    · cases hbody : nodeDataMap lib res.body with
      | none =>
        cases hnodes : newNodes lib st res.body st.config_.ignore_heartbeat p.time with
        | error e => rfl
        | ok nodes =>
          obtain ⟨kvs, hsome, -⟩ := newNodes_ok_iff.1 hnodes
          rw [hbody] at hsome
          cases hsome
      | some kvs =>
        have hnodes : newNodes lib st res.body st.config_.ignore_heartbeat p.time =
            .ok (nodesOf lib st p.time kvs) :=
          newNodes_ok_iff.2 ⟨kvs, hbody, foldl_pushNode _ _ kvs []⟩
        rw [hnodes]
        rfl
    · rfl

theorem poll_of_bad {p : GatewayPoll} (h : goodEntries lib p = none) :
    st.poll lib p.res p.time = st := by
  rw [poll_eq, keptBy_eq, h]
  rfl

theorem polls_of_bad {ps : List GatewayPoll} (h : ∀ p ∈ ps, goodEntries lib p = none) :
    ps.foldl (fun st p => st.poll lib p.res p.time) st = st := by
  induction ps with
  | nil => rfl
  | cons p ps ih =>
    rw [List.foldl_cons, poll_of_bad (h p (List.mem_cons_self ..))]
    exact ih fun q hq => h q (List.mem_cons_of_mem p hq)

/-- The list installed last is that of the last good poll. -/
theorem lastKept_of_good (st₀ : NetworkState R) {before after : List GatewayPoll} {p : GatewayPoll}
    {kvs : List (String × Dynamic)} (hgood : goodEntries lib p = some kvs)
    (hafter : ∀ q ∈ after, goodEntries lib q = none) :
    lastKept lib st₀ (before ++ p :: after) = some (nodesOf lib st₀ p.time kvs) := by
  have hkept : st₀.keptBy lib p = some (nodesOf lib st₀ p.time kvs) := by
    rw [keptBy_eq, hgood]
    rfl
  rw [lastKept, List.foldl_append, List.foldl_cons, hkept, Option.some_or]
  induction after with
  | nil => rfl
  | cons q after ih =>
    rw [List.foldl_cons, keptBy_eq, hafter q List.mem_cons_self]
    exact ih fun q hq => hafter q (List.mem_cons_of_mem _ hq)

theorem lastKept_cases (st₀ : NetworkState R) (ps : List GatewayPoll) :
    (∀ p ∈ ps, goodEntries lib p = none) ∨
    ∃ before p after kvs, ps = before ++ p :: after ∧ goodEntries lib p = some kvs ∧
      (∀ q ∈ after, goodEntries lib q = none) ∧
      lastKept lib st₀ ps = some (nodesOf lib st₀ p.time kvs) := by
  induction ps using List.reverseRecOn with
  | nil => exact .inl fun p hp => absurd hp List.not_mem_nil
  | append_singleton ps p ih =>
    cases hgood : goodEntries lib p with
    | some kvs =>
      have hnone : ∀ q ∈ [], goodEntries lib q = none := fun q hq => absurd hq List.not_mem_nil
      exact .inr ⟨ps, p, [], kvs, rfl, hgood, hnone, lastKept_of_good st₀ hgood hnone⟩
    | none =>
      have hlater : ∀ qs : List GatewayPoll, (∀ q ∈ qs, goodEntries lib q = none) →
          ∀ q ∈ qs ++ [p], goodEntries lib q = none := by
        intro qs hqs q hq
        rcases List.mem_append.1 hq with hq | hq
        · exact hqs q hq
        · rw [List.mem_singleton.1 hq]
          exact hgood
      rcases ih with hbad | ⟨before, p', after, kvs, rfl, hgood', hafter, -⟩
      · exact .inl (hlater ps hbad)
      · have hps : before ++ p' :: after ++ [p] = before ++ p' :: (after ++ [p]) := by simp
        refine .inr ⟨before, p', after ++ [p], kvs, hps, hgood', hlater after hafter, ?_⟩
        rw [hps]
        exact lastKept_of_good st₀ hgood' (hlater after hafter)

/-- The nodes of the tree, in the order of the cloud. -/
def cloud (st : NetworkState R) : Option (List (EdgeNode R)) :=
  (st.geo_.bind Geo.treeData_).map TreeData.cloud

/-- **The state is that of the last good poll.** -/
theorem state_of_last_good_poll (lib : Libs R) (config : Config) (geo_ip_enabled : Bool)
    (db : Option GeoLite) (ps : List GatewayPoll) :
    let st₀ : NetworkState R := new config geo_ip_enabled db
    let st := ps.foldl (fun st p => st.poll lib p.res p.time) st₀
    -- list and cloud
    (((∀ p ∈ ps, goodEntries lib p = none) ∧ st = st₀) ∨
      ∃ before p after kvs, ps = before ++ p :: after ∧ goodEntries lib p = some kvs ∧
        (∀ q ∈ after, goodEntries lib q = none) ∧
        st.getEdgeNodes = nodesOf lib st₀ p.time kvs ∧
        (st.geo_ip_enabled = true → st.cloud = some (nodesOf lib st₀ p.time kvs))) ∧
    -- the same sequence of nodes
    (st.geo_ip_enabled = true → st.cloud.getD [] = st.getEdgeNodes) ∧
    -- a poll that fails
    ∀ p, goodEntries lib p = none → st.poll lib p.res p.time = st := by
  intro st₀ st
  have hpolled : Polled st₀ (lastKept lib st₀ ps) st := polled_polls ps (polled_new _ _ _)
  have hcloud : st.geo_ip_enabled = true → st.cloud = lastKept lib st₀ ps := by
    intro hon
    obtain ⟨g, hg, htree⟩ := hpolled.tree hon
    rw [cloud, hg, Option.bind_some, htree, Option.map_map]
    exact Option.map_id'
  refine ⟨?_, ?_, fun p hp => poll_of_bad hp⟩
  · rcases @lastKept_cases R _ lib st₀ ps with
      hbad | ⟨before, p, after, kvs, hps, hgood, hafter, hnodes⟩
    · exact .inl ⟨hbad, polls_of_bad hbad⟩
    · refine .inr ⟨before, p, after, kvs, hps, hgood, hafter, ?_, ?_⟩
      · rw [getEdgeNodes, hpolled.nodes, hnodes]
        rfl
      · intro hon
        rw [hcloud hon, hnodes]
  · intro hon
    rw [hcloud hon, getEdgeNodes, hpolled.nodes]

end NetworkState

end GladiusMasternode
