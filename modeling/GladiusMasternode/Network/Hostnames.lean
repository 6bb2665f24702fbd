import GladiusMasternode.Library.Numbered
import GladiusMasternode.Network.Numbers
/-
# The hostnames a masternode advertises

A hostname is made of a node's address, the two domains and its port. The address is the entry's key
in lower case, and nothing looks for two keys that become one.

| here | there |
| --- | --- |
| `fqdnText`     | what `getFQDN` writes before the port's colon |
| `Distinguished`| two entries that do not give the same hostname |
-/

namespace GladiusMasternode

variable {R : Type}

/-! ## One hostname -/

namespace EdgeNode

def fqdnText (eth_address pool_domain cdn_subdomain : String) : String :=
  "https://" ++ eth_address ++ "." ++ cdn_subdomain ++ "." ++ pool_domain

theorem getFQDN_eq (node : EdgeNode R) (pool_domain cdn_subdomain : String) :
    node.getFQDN pool_domain cdn_subdomain =
      Numbered.numbered (fqdnText node.eth_address_ pool_domain cdn_subdomain) ':'
        node.port_.toNat := rfl

/-- What stands around the address is the same in both. -/
theorem fqdnText_inj {eth_address eth_address' pool_domain cdn_subdomain : String} :
    fqdnText eth_address pool_domain cdn_subdomain =
      fqdnText eth_address' pool_domain cdn_subdomain ↔ eth_address = eth_address' := by
  unfold fqdnText
  simp only [← String.toList_inj, String.toList_append, List.append_assoc, List.append_cancel_left_eq,
    List.append_cancel_right_eq]

theorem getFQDN_inj {node node' : EdgeNode R} {pool_domain cdn_subdomain : String} :
    node.getFQDN pool_domain cdn_subdomain = node'.getFQDN pool_domain cdn_subdomain ↔
      node.eth_address_ = node'.eth_address_ ∧ node.port_ = node'.port_ := by
  rw [getFQDN_eq, getFQDN_eq, Numbered.numbered_inj (by decide), fqdnText_inj, UInt16.toNat_inj]

end EdgeNode

/-! ## One list -/

theorem NetworkState.nodup_getEdgeNodeHostnames (st : NetworkState R) :
    st.getEdgeNodeHostnames.Nodup ↔ st.getEdgeNodes.Pairwise fun node node' =>
      node.eth_address_ = node'.eth_address_ → node.port_ ≠ node'.port_ := by
  unfold getEdgeNodeHostnames getEdgeNodes List.Nodup
  rw [List.pairwise_map]
  simp only [ne_eq, EdgeNode.getFQDN_inj, not_and]

theorem Dynamic.foldl_push_back {α : Type} (f : α → Dynamic) (xs : List α) : ∀ sent : List Dynamic,
    xs.foldl (fun (o : Dynamic) x => o.push_back (f x)) (Dynamic.array sent) =
      Dynamic.array (sent ++ xs.map f) := by
  induction xs with
  | nil => intro sent; simp
  | cons x xs ih =>
    intro sent
    rw [List.foldl_cons, Dynamic.push_back, ih, List.map_cons, List.append_assoc, List.singleton_append]

theorem DirectHandler.fqdns_eq (config : Config) (nodes : List (EdgeNode R)) : fqdns config nodes =
    Dynamic.array (nodes.map fun edge =>
      Dynamic.string (edge.getFQDN config.pool_domain config.cdn_subdomain)) := by
  rw [fqdns, Dynamic.foldl_push_back, List.nil_append]

theorem NetworkState.fqdns_getEdgeNodes (st : NetworkState R) :
    DirectHandler.fqdns st.config_ st.getEdgeNodes =
    Dynamic.array (st.getEdgeNodeHostnames.map Dynamic.string) := by
  rw [DirectHandler.fqdns_eq, getEdgeNodeHostnames, List.map_map]
  rfl

variable [Field R] {lib : Libs R} {st : NetworkState R}

namespace NetworkState

/-! ## The hostnames of a body -/

theorem eth_address_of_nodeOf {ignoreHeartbeat : Bool} {time : Int} {kv : String × Dynamic}
    {node : EdgeNode R} (h : nodeOf lib st ignoreHeartbeat time kv = some node) :
    node.eth_address_ = lowerCase kv.1 := by
  obtain ⟨ip, port, heartbeat, -, -, rfl⟩ :=
    parseNode_some_iff.1 (nodeOf_eq_some_iff_parseNode.1 h)
  rw [locate_eth_address]
  rfl

/-- A body changes neither the domains nor the flag. -/
theorem source_parseStateUpdate (lib : Libs R) (st : NetworkState R) (body : String)
    (ignoreHeartbeat : Bool) (time : Int) :
    (parseStateUpdate lib st body ignoreHeartbeat time).1.config_ = st.config_ ∧
    (parseStateUpdate lib st body ignoreHeartbeat time).1.geo_ip_enabled = st.geo_ip_enabled := by
  unfold parseStateUpdate
  cases newNodes lib st body ignoreHeartbeat time with
  | error e => exact ⟨rfl, rfl⟩
  | ok newList =>
    dsimp only [setEdgeNodes, installTree]
    split <;> exact ⟨rfl, rfl⟩

def Distinguished (lib : Libs R) (st : NetworkState R) (ignoreHeartbeat : Bool) (time : Int)
    (kv kv' : String × Dynamic) : Prop :=
  ∀ node node', nodeOf lib st ignoreHeartbeat time kv = some node →
    nodeOf lib st ignoreHeartbeat time kv' = some node' →
    lowerCase kv.1 = lowerCase kv'.1 → node.port_ ≠ node'.port_

theorem nodup_hostnames_of_body {body : String} {kvs : List (String × Dynamic)}
    (hbody : nodeDataMap lib body = some kvs) (st : NetworkState R) (ignoreHeartbeat : Bool)
    (time : Int) : (parseStateUpdate lib st body ignoreHeartbeat time).1.getEdgeNodeHostnames.Nodup ↔
      kvs.Pairwise (Distinguished lib st ignoreHeartbeat time) := by
  rw [nodup_getEdgeNodeHostnames, edgeNodes_parseStateUpdate hbody, List.pairwise_filterMap]
  refine List.Pairwise.iff fun kv kv' => ?_
  constructor
  · intro h node node' hnode hnode' hkeys
    refine h node hnode node' hnode' ?_
    rw [eth_address_of_nodeOf hnode, eth_address_of_nodeOf hnode', hkeys]
  · intro h node hnode node' hnode' hsame
    rw [eth_address_of_nodeOf hnode, eth_address_of_nodeOf hnode'] at hsame
    exact h node node' hnode hnode' hsame

theorem parseStateUpdate_of_no_map {body : String} (hbody : nodeDataMap lib body = none)
    (st : NetworkState R) (ignoreHeartbeat : Bool) (time : Int) :
    (parseStateUpdate lib st body ignoreHeartbeat time).1 = st := by
  unfold parseStateUpdate
  cases hnodes : newNodes lib st body ignoreHeartbeat time with
  | error e => rfl
  | ok newList =>
    obtain ⟨kvs, hkvs, -⟩ := newNodes_ok_iff.1 hnodes
    rw [hbody] at hkvs
    cases hkvs

end NetworkState

/-! ## The hostnames of a response -/

namespace DirectHandler

theorem jsonRes_of_edgeNodes {m : Masternode R} {state : NetworkState R} {clientIP : String}
    {nodes : List (EdgeNode R)} (hp2p : m.config_.enableP2P = true) (hstate : m.state_ = some state)
    (hnodes : edgeNodes lib state clientIP = .ok nodes) :
    ∃ o, jsonRes lib m clientIP = .ok o ∧ o.field "edgeNodes" = some (fqdns m.config_ nodes) := by
  unfold jsonRes withEdgeNodes
  rw [hp2p, hstate]
  dsimp only
  rw [hnodes]
  exact ⟨_, rfl, rfl⟩

end DirectHandler

namespace NetworkState

/-- **A hostname occurs twice exactly if two retained keys are one in lower case and the ports are
equal.** -/
theorem hostnames_nodup_iff (lib : Libs R) (st : NetworkState R) (body : String)
    (ignoreHeartbeat : Bool) (time : Int) :
    let st' := (parseStateUpdate lib st body ignoreHeartbeat time).1
    -- one for each node, in order
    st'.getEdgeNodeHostnames = st'.getEdgeNodes.map (fun node =>
      node.getFQDN st.config_.pool_domain st.config_.cdn_subdomain) ∧
    -- and in every response, with geo off
    (∀ cache clientIP, st.config_.enableP2P = true → st.geo_ip_enabled = false →
      ∃ o, DirectHandler.jsonRes lib ⟨st.config_, cache, some st'⟩ clientIP = .ok o ∧
        o.field "edgeNodes" = some (.array (st'.getEdgeNodeHostnames.map .string))) ∧
    (∀ (node node' : EdgeNode R) (pool_domain cdn_subdomain : String),
      node.getFQDN pool_domain cdn_subdomain = node'.getFQDN pool_domain cdn_subdomain ↔
        node.eth_address_ = node'.eth_address_ ∧ node.port_ = node'.port_) ∧
    -- a body without a map of nodes leaves the list
    (nodeDataMap lib body = none → st'.getEdgeNodeHostnames = st.getEdgeNodeHostnames) ∧
    ∀ kvs, nodeDataMap lib body = some kvs →
      (∀ kv kv' node node', nodeOf lib st ignoreHeartbeat time kv = some node →
        nodeOf lib st ignoreHeartbeat time kv' = some node' →
        (node.eth_address_ = node'.eth_address_ ↔ lowerCase kv.1 = lowerCase kv'.1)) ∧
      (st'.getEdgeNodeHostnames.Nodup ↔
        kvs.Pairwise (Distinguished lib st ignoreHeartbeat time)) := by
  intro st'
  obtain ⟨hconfig, hflag⟩ := source_parseStateUpdate lib st body ignoreHeartbeat time
  refine ⟨?_, ?_, ?_, ?_, ?_⟩
  · rw [← hconfig]
    rfl
  · intro cache clientIP hp2p hgeo
    have hnodes : DirectHandler.edgeNodes lib st' clientIP = .ok st'.getEdgeNodes := by
      have hoff : st'.geo_ip_enabled = false := hflag.trans hgeo
      rw [DirectHandler.edgeNodes, hoff]
      rfl
    obtain ⟨o, hres, hfield⟩ := DirectHandler.jsonRes_of_edgeNodes
      (m := ⟨st.config_, cache, some st'⟩) hp2p rfl hnodes
    refine ⟨o, hres, ?_⟩
    rw [hfield, ← fqdns_getEdgeNodes, ← hconfig]
  · intro node node' pool_domain cdn_subdomain
    exact EdgeNode.getFQDN_inj
  · intro hbody
    have hsame : st' = st := parseStateUpdate_of_no_map hbody st ignoreHeartbeat time
    rw [hsame]
  · intro kvs hbody
    refine ⟨?_, nodup_hostnames_of_body hbody st ignoreHeartbeat time⟩
    intro kv kv' node node' hnode hnode'
    rw [eth_address_of_nodeOf hnode, eth_address_of_nodeOf hnode']

/-! ### Keys that are one in lower case -/

/-- An entry for each key, all with one port. -/
def keyedEntries (keys : List String) : List (String × Dynamic) :=
  keys.map fun key => (key, (peerEntry 8080 100).2)

/-- Every body parses as these entries. -/
def keyedLib (keys : List String) : Libs ℚ :=
  { Scenario.lib with
    parseJson := fun _ => some (.object
      [("response", .object [("node_data_map", .object (keyedEntries keys))])]) }

def pool : Config := { enableP2P := true, pool_domain := "pool.org", cdn_subdomain := "cdn" }

theorem hostnames_nodup_iff_two_keys :
    (parseStateUpdate (keyedLib ["0xAB", "0xCD"]) (new pool false none) "" false 150).1.getEdgeNodeHostnames =
      ["https://0xab.cdn.pool.org:8080", "https://0xcd.cdn.pool.org:8080"] ∧
    (∃ o, DirectHandler.jsonRes (keyedLib ["0xAB", "0xCD"]) ⟨pool, {},
        some (parseStateUpdate (keyedLib ["0xAB", "0xCD"]) (new pool false none) "" false 150).1⟩
        "1.2.3.4" = .ok o ∧
      o.field "edgeNodes" = some (.array
        [.string "https://0xab.cdn.pool.org:8080", .string "https://0xcd.cdn.pool.org:8080"])) ∧
    (keyedEntries ["0xAB", "0xCD"]).Pairwise
      (Distinguished (keyedLib ["0xAB", "0xCD"]) (new pool false none) false 150) ∧
    (parseStateUpdate Scenario.lib (new pool false none) "" false 150).1.getEdgeNodeHostnames = [] := by
  have hnames : (parseStateUpdate (keyedLib ["0xAB", "0xCD"]) (new pool false none) "" false
      150).1.getEdgeNodeHostnames =
      ["https://0xab.cdn.pool.org:8080", "https://0xcd.cdn.pool.org:8080"] := by
    decide +kernel
  obtain ⟨-, hsent, -, -, hbody⟩ :=
    hostnames_nodup_iff (keyedLib ["0xAB", "0xCD"]) (new pool false none) "" false 150
  refine ⟨hnames, ?_, (hbody _ rfl).2.1 ?_, ?_⟩
  · obtain ⟨o, hres, hfield⟩ := hsent {} "1.2.3.4" rfl rfl
    rw [hnames] at hfield
    exact ⟨o, hres, hfield⟩
  · rw [hnames]
    decide
  · exact (hostnames_nodup_iff Scenario.lib (new pool false none) "" false 150).2.2.2.1 (by
      simp [nodeDataMap, Scenario.lib, Scenario.oneNodeBody, Scenario.emptyBody])

/-- Two distinct keys, both retained, with one address and one hostname. -/
theorem one_hostname_twice :
    nodeDataMap (keyedLib ["0xAB", "0xab"]) "" = some (keyedEntries ["0xAB", "0xab"]) ∧
    ((keyedEntries ["0xAB", "0xab"]).map Prod.fst).Nodup ∧
    (parseStateUpdate (keyedLib ["0xAB", "0xab"]) (new pool false none) "" false 150).1.getEdgeNodeHostnames =
      ["https://0xab.cdn.pool.org:8080", "https://0xab.cdn.pool.org:8080"] ∧
    ¬ (parseStateUpdate (keyedLib ["0xAB", "0xab"]) (new pool false none) "" false
      150).1.getEdgeNodeHostnames.Nodup ∧
    (parseStateUpdate (keyedLib ["0xAB", "0xab"]) (new pool false none) "" false
      150).1.getEdgeNodes.map EdgeNode.getEthAddress = ["0xab", "0xab"] := by
  refine ⟨rfl, ?_, ?_, ?_, ?_⟩
  · decide
  · decide +kernel
  · decide +kernel
  · decide +kernel

end NetworkState

end GladiusMasternode
