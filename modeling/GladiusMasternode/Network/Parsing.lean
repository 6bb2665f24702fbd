import GladiusMasternode.Model.DirectHandler
/-
# The nodes of a body

`parseStateUpdate` can throw while it parses the body and finds the map of nodes. From there on each
entry is read on its own: it gives its node or nothing (`nodeOf`), so the list is the entries
filtered and mapped in order.

| here | there |
| --- | --- |
| `nodeDataMap` | `state["response"]["node_data_map"]` of a body, where the accesses succeed |
| `dataOf`      | `value[name]["data"]` (`readData`), where both keys are there |
| `nodeOf`      | one turn of the loop: the node of an entry that is neither skipped nor throws |
| `Reads`       | what the turn has read of an entry when it comes to its two tests |
-/

namespace GladiusMasternode

/-! ## Reading JSON -/

/-- A chain of accesses succeeds if each of them does. -/
theorem bind_ok_iff {ε α β : Type} {x : Except ε α} {f : α → Except ε β} {b : β} :
    x >>= f = .ok b ↔ ∃ a, x = .ok a ∧ f a = .ok b := by
  cases x with
  | error e => simp [bind, Except.bind]
  | ok a => simp [bind, Except.bind]

namespace Dynamic

/-- The value under a key that is there. -/
def field (v : Dynamic) (key : String) : Option Dynamic :=
  match v with
  | object kvs => kvs.lookup key
  | _ => none

def entries : Dynamic → Option (List (String × Dynamic))
  | object kvs => some kvs
  | _ => none

/-- An array, object or string with at least one element. -/
def hasElement : Dynamic → Bool
  | array xs => !xs.isEmpty
  | object kvs => !kvs.isEmpty
  | string s => !s.isEmpty
  | _ => false

/-- A missing key reads as null; any other value that is read was there. -/
theorem at_ok_iff {v w : Dynamic} {key : String} (hw : w ≠ null) :
    v.at key = .ok w ↔ v.field key = some w := by
  cases v with
  | object kvs =>
    simp only [«at», field, Except.ok.injEq]
    cases kvs.lookup key with
    | none => simp [hw.symm]
    | some u => simp
  | _ => simp [«at», field]

/-- Two keys deep, as long as null is not what is looked for. -/
theorem at_at_ok_iff {v w : Dynamic} {key key' : String} (hw : w ≠ null) :
    (v.at key >>= fun u => u.at key') = .ok w ↔
      (v.field key).bind (fun u => u.field key') = some w := by
  rw [bind_ok_iff, Option.bind_eq_some_iff]
  refine exists_congr fun u => ?_
  by_cases hu : u = null
  · subst hu
    simp [«at», field]
  · rw [at_ok_iff hu, at_ok_iff hw]

theorem items_ok_iff {v : Dynamic} {kvs : List (String × Dynamic)} :
    v.items = .ok kvs ↔ v.entries = some kvs := by
  cases v <;> simp [items, entries]

theorem getString_ok_iff {v : Dynamic} {s : String} : v.getString = .ok s ↔ v = string s := by
  cases v <;> simp [getString]

theorem empty_false_iff {v : Dynamic} : v.empty = .ok false ↔ v.hasElement = true := by
  cases v <;> simp [empty, hasElement]

theorem inInt64_iff {n : Int} : inInt64 n = true ↔ -2 ^ 63 ≤ n ∧ n < 2 ^ 63 := by
  unfold inInt64 int64Min int64Max
  grind

end Dynamic

variable {R : Type} [Field R] {lib : Libs R} {st : NetworkState R}

def nodeDataMap (lib : Libs R) (body : String) : Option (List (String × Dynamic)) :=
  (lib.parseJson body).bind fun state =>
    ((state.field "response").bind fun response => response.field "node_data_map").bind
      Dynamic.entries

def dataOf (value : Dynamic) (name : String) : Option Dynamic :=
  (value.field name).bind fun v => v.field "data"

/-- `value[name]["data"]` -/
def readData (value : Dynamic) (name : String) : Except DynamicError Dynamic := do
  (← value.at name).at "data"

namespace NetworkState

/-- The list of a body is that of its map of nodes. -/
theorem newNodes_ok_iff {body : String} {ignoreHeartbeat : Bool} {time : Int}
    {nodes : List (EdgeNode R)} : newNodes lib st body ignoreHeartbeat time = .ok nodes ↔
      ∃ kvs, nodeDataMap lib body = some kvs ∧
        kvs.foldl (pushNode lib st ignoreHeartbeat time) [] = nodes := by
  unfold newNodes nodeDataMap
  cases lib.parseJson body with
  | none => simp
  | some state =>
    dsimp only [Option.bind_some]
    constructor
    · simp only [bind_ok_iff]
      rintro ⟨response, hresponse, nodeMap, hmap, kvs, hkvs, hnodes⟩
      have hnull : nodeMap ≠ .null := by
        rintro rfl
        cases hkvs
      have hfield := (Dynamic.at_at_ok_iff hnull).1 (bind_ok_iff.2 ⟨response, hresponse, hmap⟩)
      rw [hfield]
      exact ⟨kvs, Dynamic.items_ok_iff.1 hkvs, Except.ok.inj hnodes⟩
    · rintro ⟨kvs, hmap, rfl⟩
      obtain ⟨nodeMap, hfield, hkvs⟩ := Option.bind_eq_some_iff.1 hmap
      have hnull : nodeMap ≠ .null := by
        rintro rfl
        cases hkvs
      obtain ⟨response, hresponse, hat⟩ := bind_ok_iff.1 ((Dynamic.at_at_ok_iff hnull).2 hfield)
      simp only [bind_ok_iff]
      exact ⟨response, hresponse, nodeMap, hat, kvs, Dynamic.items_ok_iff.2 hkvs, rfl⟩

/-! ## Entry by entry -/

/-- The node of an entry, if it gives one. -/
def nodeOf (lib : Libs R) (st : NetworkState R) (ignoreHeartbeat : Bool) (time : Int)
    (kv : String × Dynamic) : Option (EdgeNode R) :=
  match parseNode lib st ignoreHeartbeat time kv.1 kv.2 with
  | .ok node => node
  | .error _ => none

theorem foldl_pushNode (ignoreHeartbeat : Bool) (time : Int) (kvs : List (String × Dynamic)) :
    ∀ nodes, kvs.foldl (pushNode lib st ignoreHeartbeat time) nodes =
      nodes ++ kvs.filterMap (nodeOf lib st ignoreHeartbeat time) := by
  induction kvs with
  | nil => intro nodes; simp
  | cons kv kvs ih =>
    intro nodes
    rw [List.foldl_cons, ih, List.filterMap_cons]
    unfold pushNode nodeOf
    cases parseNode lib st ignoreHeartbeat time kv.1 kv.2 with
    | error e => rfl
    | ok node => cases node <;> simp

/-- The turn gets to its tests, having read the address, the two numbers and whether there is
content. -/
structure Reads (value : Dynamic) (ip : String) (port heartbeat : Int) (hasNoContent : Bool) :
    Prop where
  ip : (readData value "ip_address" >>= Dynamic.getString) = .ok ip
  port : (readData value "content_port" >>= Dynamic.asInt) = .ok port
  heartbeat : (readData value "heartbeat" >>= Dynamic.asInt) = .ok heartbeat
  content : (readData value "disk_content" >>= Dynamic.empty) = .ok hasNoContent

theorem parseNode_some_iff {ignoreHeartbeat : Bool} {time : Int} {key : String} {value : Dynamic}
    {node : EdgeNode R} :
    parseNode lib st ignoreHeartbeat time key value = .ok (some node) ↔
      ∃ ip port heartbeat, Reads value ip port heartbeat false ∧
        (ignoreHeartbeat = true ∨ subInt64 time heartbeat ≤ 120) ∧
        node = st.locate lib ip
          (EdgeNode.new ip (UInt16.ofInt port) (lowerCase key) (UInt32.ofInt heartbeat)) := by
  unfold parseNode
  constructor
  · simp only [bind_ok_iff]
    rintro ⟨vip, hvip, dip, hdip, ip, hip, vport, hvport, dport, hdport, port, hport,
      vbeat, hvbeat, dbeat, hdbeat, heartbeat, hbeat, vdisk, hvdisk, ddisk, hddisk,
      hasNoContent, hdisk, hnode⟩
    have hreads : Reads value ip port heartbeat hasNoContent :=
      ⟨bind_ok_iff.2 ⟨dip, bind_ok_iff.2 ⟨vip, hvip, hdip⟩, hip⟩,
        bind_ok_iff.2 ⟨dport, bind_ok_iff.2 ⟨vport, hvport, hdport⟩, hport⟩,
        bind_ok_iff.2 ⟨dbeat, bind_ok_iff.2 ⟨vbeat, hvbeat, hdbeat⟩, hbeat⟩,
        bind_ok_iff.2 ⟨ddisk, bind_ok_iff.2 ⟨vdisk, hvdisk, hddisk⟩, hdisk⟩⟩
    split at hnode
    · cases hnode
    · rename_i hfresh
      split at hnode
      · cases hnode
      · rename_i hcontent
        rw [Bool.not_eq_true] at hcontent
        subst hcontent
        refine ⟨ip, port, heartbeat, hreads, ?_, (Option.some.inj (Except.ok.inj hnode)).symm⟩
        cases ignoreHeartbeat with
        | true => exact .inl rfl
        | false => exact .inr (by simpa using hfresh)
  · rintro ⟨ip, port, heartbeat, ⟨hip, hport, hbeat, hdisk⟩, hfresh, rfl⟩
    have hstale : (!ignoreHeartbeat && decide (subInt64 time heartbeat > 2 * 60)) = false := by
      rcases hfresh with rfl | hle
      · rfl
      · simp [hle]
    simp only [readData, bind_ok_iff] at hip hport hbeat hdisk
    obtain ⟨dip, ⟨vip, hvip, hdip⟩, hip⟩ := hip
    obtain ⟨dport, ⟨vport, hvport, hdport⟩, hport⟩ := hport
    obtain ⟨dbeat, ⟨vbeat, hvbeat, hdbeat⟩, hbeat⟩ := hbeat
    obtain ⟨ddisk, ⟨vdisk, hvdisk, hddisk⟩, hdisk⟩ := hdisk
    simp only [bind_ok_iff]
    refine ⟨vip, hvip, dip, hdip, ip, hip, vport, hvport, dport, hdport, port, hport,
      vbeat, hvbeat, dbeat, hdbeat, heartbeat, hbeat, vdisk, hvdisk, ddisk, hddisk, false, hdisk, ?_⟩
    rw [hstale]
    rfl

/-- Reading past a missing key only gives what null gives. -/
theorem readData_bind_iff {α : Type} {value : Dynamic} {name : String}
    {f : Dynamic → Except DynamicError α} {a : α} (hnull : f .null ≠ .ok a) :
    (readData value name >>= f) = .ok a ↔ ∃ v, dataOf value name = some v ∧ f v = .ok a := by
  rw [bind_ok_iff]
  refine exists_congr fun v => and_congr_left fun hv => ?_
  apply Dynamic.at_at_ok_iff
  rintro rfl
  exact hnull hv

/-- An entry that gives a node, by what it holds. -/
structure Retained (ignoreHeartbeat : Bool) (time : Int) (value : Dynamic) (ip : String)
    (port heartbeat : Int) : Prop where
  ipAddress : dataOf value "ip_address" = some (.string ip)
  contentPort : ∃ v, dataOf value "content_port" = some v ∧ v.asInt = .ok port
  lastHeartbeat : ∃ v, dataOf value "heartbeat" = some v ∧ v.asInt = .ok heartbeat
  diskContent : ∃ v, dataOf value "disk_content" = some v ∧ v.hasElement = true
  fresh : ignoreHeartbeat = true ∨ time - heartbeat ≤ 120

/-- The turn reads an entry with content if and only if the data is there, of the right types. -/
theorem reads_iff {value : Dynamic} {ip : String} {port heartbeat : Int} :
    Reads value ip port heartbeat false ↔
      dataOf value "ip_address" = some (.string ip) ∧
      (∃ v, dataOf value "content_port" = some v ∧ v.asInt = .ok port) ∧
      (∃ v, dataOf value "heartbeat" = some v ∧ v.asInt = .ok heartbeat) ∧
      ∃ v, dataOf value "disk_content" = some v ∧ v.hasElement = true := by
  have hip : (readData value "ip_address" >>= Dynamic.getString) = .ok ip ↔
      dataOf value "ip_address" = some (.string ip) := by
    rw [readData_bind_iff (by simp [Dynamic.getString])]
    simp only [Dynamic.getString_ok_iff, exists_eq_right]
  have hport := @readData_bind_iff _ value "content_port" Dynamic.asInt port (by simp [Dynamic.asInt])
  have hbeat := @readData_bind_iff _ value "heartbeat" Dynamic.asInt heartbeat
    (by simp [Dynamic.asInt])
  have hdisk := @readData_bind_iff _ value "disk_content" Dynamic.empty false
    (by simp [Dynamic.empty])
  simp only [Dynamic.empty_false_iff] at hdisk
  constructor
  · intro h
    exact ⟨hip.1 h.ip, hport.1 h.port, hbeat.1 h.heartbeat, hdisk.1 h.content⟩
  · rintro ⟨h1, h2, h3, h4⟩
    exact ⟨hip.2 h1, hport.2 h2, hbeat.2 h3, hdisk.2 h4⟩

/-- Within 64 bits the difference is the true one. -/
theorem subInt64_eq {a b : Int} (h : Dynamic.inInt64 (a - b) = true) : subInt64 a b = a - b := by
  obtain ⟨hlow, hhigh⟩ := Dynamic.inInt64_iff.1 h
  exact Int.bmod_eq_of_le hlow hhigh

/-- The heartbeat of an entry, where it reads, is near enough to the time for 64 bits. -/
def InRange (time : Int) (value : Dynamic) : Prop :=
  ∀ v heartbeat, dataOf value "heartbeat" = some v → v.asInt = .ok heartbeat →
    Dynamic.inInt64 (time - heartbeat) = true

theorem nodeOf_eq_some_iff_parseNode {ignoreHeartbeat : Bool} {time : Int} {key : String}
    {value : Dynamic} {node : EdgeNode R} :
    nodeOf lib st ignoreHeartbeat time (key, value) = some node ↔
      parseNode lib st ignoreHeartbeat time key value = .ok (some node) := by
  unfold nodeOf
  cases parseNode lib st ignoreHeartbeat time key value with
  | error e => simp
  | ok found => simp

theorem nodeOf_eq_some_iff {ignoreHeartbeat : Bool} {time : Int} {key : String} {value : Dynamic}
    {node : EdgeNode R} (hrange : InRange time value) :
    nodeOf lib st ignoreHeartbeat time (key, value) = some node ↔
      ∃ ip port heartbeat, Retained ignoreHeartbeat time value ip port heartbeat ∧
        node = st.locate lib ip
          (EdgeNode.new ip (UInt16.ofInt port) (lowerCase key) (UInt32.ofInt heartbeat)) := by
  rw [nodeOf_eq_some_iff_parseNode, parseNode_some_iff]
  refine exists_congr fun ip => exists_congr fun port => exists_congr fun heartbeat => ?_
  constructor
  · rintro ⟨hreads, hfresh, hnode⟩
    obtain ⟨hip, hport, ⟨v, hv, hbeat⟩, hdisk⟩ := reads_iff.1 hreads
    rw [subInt64_eq (hrange v heartbeat hv hbeat)] at hfresh
    exact ⟨⟨hip, hport, ⟨v, hv, hbeat⟩, hdisk, hfresh⟩, hnode⟩
  · rintro ⟨⟨hip, hport, ⟨v, hv, hbeat⟩, hdisk, hfresh⟩, hnode⟩
    rw [← subInt64_eq (hrange v heartbeat hv hbeat)] at hfresh
    exact ⟨reads_iff.2 ⟨hip, hport, ⟨v, hv, hbeat⟩, hdisk⟩, hfresh, hnode⟩

/-! ## The list of a body -/

/-- A body with a map of nodes is parsed to the end and its list installed. -/
theorem parseStateUpdate_eq {body : String} {kvs : List (String × Dynamic)}
    (hbody : nodeDataMap lib body = some kvs) (st : NetworkState R) (ignoreHeartbeat : Bool)
    (time : Int) : parseStateUpdate lib st body ignoreHeartbeat time =
      ((st.installTree (kvs.filterMap (nodeOf lib st ignoreHeartbeat time))).setEdgeNodes
        (kvs.filterMap (nodeOf lib st ignoreHeartbeat time)), .ok ()) := by
  have hnodes : newNodes lib st body ignoreHeartbeat time =
      .ok (kvs.filterMap (nodeOf lib st ignoreHeartbeat time)) :=
    newNodes_ok_iff.2 ⟨kvs, hbody, foldl_pushNode ignoreHeartbeat time kvs []⟩
  rw [parseStateUpdate, hnodes]

theorem edgeNodes_parseStateUpdate {body : String} {kvs : List (String × Dynamic)}
    (hbody : nodeDataMap lib body = some kvs) (st : NetworkState R) (ignoreHeartbeat : Bool)
    (time : Int) : (parseStateUpdate lib st body ignoreHeartbeat time).1.getEdgeNodes =
      kvs.filterMap (nodeOf lib st ignoreHeartbeat time) := by
  rw [parseStateUpdate_eq hbody]
  rfl

/-- **Node parsing is an entry-by-entry filter-map.** -/
theorem entry_by_entry (lib : Libs R) (st : NetworkState R) (ignoreHeartbeat : Bool) (time : Int)
    {body : String} {kvs : List (String × Dynamic)} (hbody : nodeDataMap lib body = some kvs)
    (hrange : ∀ kv ∈ kvs, InRange time kv.2) :
    let nodes (body : String) :=
      (parseStateUpdate lib st body ignoreHeartbeat time).1.getEdgeNodes
    -- the list is the nodes of the entries, and these are one node or none
    nodes body = kvs.filterMap (nodeOf lib st ignoreHeartbeat time) ∧
    (∀ kv ∈ kvs, ∀ node, nodeOf lib st ignoreHeartbeat time kv = some node ↔
      ∃ ip port heartbeat, Retained ignoreHeartbeat time kv.2 ip port heartbeat ∧
        node = st.locate lib ip
          (EdgeNode.new ip (UInt16.ofInt port) (lowerCase kv.1) (UInt32.ofInt heartbeat))) ∧
    -- two maps taken together
    (∀ body₁ body₂ kvs₁ kvs₂, nodeDataMap lib body₁ = some kvs₁ → nodeDataMap lib body₂ = some kvs₂ →
      kvs.Perm (kvs₁ ++ kvs₂) → (nodes body).Perm (nodes body₁ ++ nodes body₂)) ∧
    -- entries that give no node, added, removed or moved
    ∀ body' kvs' (keeps : String × Dynamic → Bool), nodeDataMap lib body' = some kvs' →
      (∀ kv ∈ kvs', InRange time kv.2) →
      (∀ kv ip port heartbeat, Retained ignoreHeartbeat time kv.2 ip port heartbeat →
        keeps kv = true) →
      kvs'.filter keeps = kvs.filter keeps → nodes body' = nodes body := by
  intro nodes
  have hnodes : ∀ body kvs, nodeDataMap lib body = some kvs →
      nodes body = kvs.filterMap (nodeOf lib st ignoreHeartbeat time) := by
    intro body kvs hbody
    exact edgeNodes_parseStateUpdate hbody st ignoreHeartbeat time
  refine ⟨hnodes body kvs hbody, ?_, ?_, ?_⟩
  · intro kv hkv node
    exact nodeOf_eq_some_iff (hrange kv hkv)
  · intro body₁ body₂ kvs₁ kvs₂ hbody₁ hbody₂ hperm
    rw [hnodes body kvs hbody, hnodes body₁ kvs₁ hbody₁, hnodes body₂ kvs₂ hbody₂,
      ← List.filterMap_append]
    exact hperm.filterMap _
  · intro body' kvs' keeps hbody' hrange' hkeeps hfilter
    have hkept : ∀ kvs : List (String × Dynamic), (∀ kv ∈ kvs, InRange time kv.2) →
        (kvs.filter keeps).filterMap (nodeOf lib st ignoreHeartbeat time) =
          kvs.filterMap (nodeOf lib st ignoreHeartbeat time) := by
      intro kvs hrange
      rw [List.filterMap_filter]
      refine List.filterMap_congr fun kv hkv => ?_
      cases hnode : nodeOf lib st ignoreHeartbeat time kv with
      | none => simp
      | some node =>
        obtain ⟨ip, port, heartbeat, hretained, -⟩ := (nodeOf_eq_some_iff (hrange kv hkv)).1 hnode
        rw [if_pos (hkeeps kv ip port heartbeat hretained)]
    rw [hnodes body kvs hbody, hnodes body' kvs' hbody', ← hkept kvs hrange, ← hkept kvs' hrange',
      hfilter]

end NetworkState

/-! ## Concrete maps of nodes -/

namespace Scenario

structure NodeData where
  address : String
  ip : String
  port : String
deriving DecidableEq

namespace NodeData

def text (n : NodeData) : String :=
  "\"" ++ n.address ++ "\": \x7b\"content_port\": \x7b\"data\": \"" ++ n.port ++
    "\"\x7d, \"ip_address\": \x7b\"data\": \"" ++ n.ip ++
    "\"\x7d, \"heartbeat\": \x7b\"data\": 100\x7d, \"disk_content\": \x7b\"data\": [\"a\"]\x7d\x7d"

def entry (n : NodeData) : String × Dynamic :=
  (n.address, .object
    [("content_port", .object [("data", .string n.port)]),
      ("ip_address", .object [("data", .string n.ip)]),
      ("heartbeat", .object [("data", .int64 100)]),
      ("disk_content", .object [("data", .array [.string "a"])])])

end NodeData

/-- The gateway's body for these nodes. -/
def mapText (nodes : List NodeData) : String :=
  "\x7b\"response\": \x7b\"node_data_map\": \x7b" ++ ", ".intercalate (nodes.map NodeData.text) ++
    "\x7d\x7d\x7d"

def mapJson (nodes : List NodeData) : Dynamic :=
  .object [("response", .object [("node_data_map", .object (nodes.map NodeData.entry))])]

/-- A library that knows the text of these maps. -/
def mapsLib {R : Type} (lib : Libs R) (maps : List (List NodeData)) : Libs R :=
  { lib with parseJson := fun body => (maps.find? fun nodes => mapText nodes = body).map mapJson }

theorem nodeDataMap_mapText {R : Type} {lib : Libs R} {maps : List (List NodeData)}
    {nodes : List NodeData}
    (hfind : (maps.find? fun nodes' => mapText nodes' = mapText nodes) = some nodes) :
    nodeDataMap (mapsLib lib maps) (mapText nodes) = some (nodes.map NodeData.entry) := by
  rw [nodeDataMap, mapsLib]
  dsimp only
  rw [hfind]
  rfl

/-- Two nodes, and one whose port is no number. -/
def goodNode : NodeData := ⟨"0xAB", "127.0.0.1", "8080"⟩
def otherNode : NodeData := ⟨"0xEF", "127.0.0.2", "8081"⟩
def portlessNode : NodeData := ⟨"0xCD", "127.0.0.3", "http"⟩

def maps : List (List NodeData) :=
  [[portlessNode, goodNode, otherNode], [goodNode, otherNode], [goodNode], [otherNode, portlessNode]]

end Scenario

namespace NetworkState

/-- The port of the entry is a number. -/
def hasPort (kv : String × Dynamic) : Bool :=
  (dataOf kv.2 "content_port").any fun v => v.asInt.isOk

open Scenario in
theorem entry_by_entry_maps :
    let nodes (m : List NodeData) :=
      (parseStateUpdate (mapsLib Scenario.lib maps) (new {} false none) (mapText m)
        false 150).1.getEdgeNodes
    -- the malformed entry harms only itself
    nodes [portlessNode, goodNode, otherNode] =
      [EdgeNode.new "127.0.0.1" 8080 "0xab" 100, EdgeNode.new "127.0.0.2" 8081 "0xef" 100] ∧
    -- the map in two parts
    (nodes [portlessNode, goodNode, otherNode]).Perm
      (nodes [goodNode] ++ nodes [otherNode, portlessNode]) ∧
    -- without the malformed entry
    nodes [goodNode, otherNode] = nodes [portlessNode, goodNode, otherNode] := by
  intro nodes
  have hmap : ∀ m ∈ maps, nodeDataMap (mapsLib Scenario.lib maps) (mapText m) =
      some (m.map NodeData.entry) := fun m hm => nodeDataMap_mapText (by
    revert m
    decide +kernel)
  have hrange : ∀ m : List NodeData, ∀ kv ∈ m.map NodeData.entry, InRange 150 kv.2 := by
    intro m kv hkv
    obtain ⟨n, -, rfl⟩ := List.mem_map.1 hkv
    rintro v heartbeat hv hheartbeat
    obtain rfl : v = .int64 100 := (Option.some.inj hv).symm
    obtain rfl : heartbeat = 100 := (Except.ok.inj hheartbeat).symm
    decide
  obtain ⟨hnodes, -, hmerge, hharmless⟩ := entry_by_entry (mapsLib Scenario.lib maps)
    (new {} false none) false 150 (hmap [portlessNode, goodNode, otherNode] (by decide)) (hrange _)
  refine ⟨hnodes.trans (by decide +kernel), ?_, ?_⟩
  · exact hmerge _ _ _ _ (hmap [goodNode] (by decide)) (hmap [otherNode, portlessNode] (by decide))
      (by
        rw [← List.map_append]
        exact List.Perm.map _ (by decide))
  · refine hharmless _ _ hasPort (hmap [goodNode, otherNode] (by decide)) (hrange _)
      (fun kv ip port heartbeat hretained => ?_) rfl
    obtain ⟨-, ⟨v, hv, hport⟩, -⟩ := hretained
    simp [hasPort, hv, hport, Except.isOk, Except.toBool]

end NetworkState

end GladiusMasternode
