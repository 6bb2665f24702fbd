import GladiusMasternode.Network.Parsing
/-
# Numbers of the network state

JSON gives 64-bit integers. On the way into an `EdgeNode` the port becomes a `uint16_t` and the
heartbeat a `uint32_t`, and the age of an entry is a 64-bit difference. None of the three is checked.

| here | there |
| --- | --- |
| `Exact`  | what using the two numbers of an entry exactly would mean |
| `Fits`   | the bounds under which the conversions lose nothing |
-/

namespace GladiusMasternode

variable {R : Type} [Field R] {lib : Libs R} {st : NetworkState R}

namespace NetworkState

/-! ## Conversions -/

theorem toNat_ofInt16_iff {n : Int} :
    ((UInt16.ofInt n).toNat : Int) = n ↔ 0 ≤ n ∧ n < 2 ^ 16 := by
  have hval : ((UInt16.ofInt n).toNat : Int) = n % 2 ^ 16 := by
    unfold UInt16.ofInt
    rw [UInt16.toNat_ofNat']
    omega
  rw [hval]
  omega

theorem toNat_ofInt32_iff {n : Int} :
    ((UInt32.ofInt n).toNat : Int) = n ↔ 0 ≤ n ∧ n < 2 ^ 32 := by
  have hval : ((UInt32.ofInt n).toNat : Int) = n % 2 ^ 32 := by
    unfold UInt32.ofInt
    rw [UInt32.toNat_ofNat']
    omega
  rw [hval]
  omega

theorem subInt64_eq_iff {a b : Int} : subInt64 a b = a - b ↔ Dynamic.inInt64 (a - b) = true := by
  constructor
  · intro h
    rw [← h]
    exact Dynamic.inInt64_iff.2 ⟨Int.le_bmod (by decide), Int.bmod_lt (by decide)⟩
  · exact subInt64_eq

/-! ## An entry that reads -/

@[simp] theorem locate_port (ip : String) (node : EdgeNode R) :
    (st.locate lib ip node).port_ = node.port_ := by
  unfold locate
  split <;> rfl

@[simp] theorem locate_heartbeat (ip : String) (node : EdgeNode R) :
    (st.locate lib ip node).heartbeat_ = node.heartbeat_ := by
  unfold locate
  split <;> rfl

theorem getFQDN_locate (ip : String) (node : EdgeNode R) (pool_domain cdn_subdomain : String) :
    (st.locate lib ip node).getFQDN pool_domain cdn_subdomain =
      node.getFQDN pool_domain cdn_subdomain := by
  unfold locate
  split <;> rfl

@[simp] theorem locate_eth_address (ip : String) (node : EdgeNode R) :
    (st.locate lib ip node).eth_address_ = node.eth_address_ := by
  unfold locate
  split <;> rfl

theorem Reads.unique {value : Dynamic} {ip ip' : String} {port port' heartbeat heartbeat' : Int}
    {hasNoContent hasNoContent' : Bool} (h : Reads value ip port heartbeat hasNoContent)
    (h' : Reads value ip' port' heartbeat' hasNoContent') :
    ip' = ip ∧ port' = port ∧ heartbeat' = heartbeat ∧ hasNoContent' = hasNoContent :=
  ⟨Except.ok.inj (h'.ip.symm.trans h.ip), Except.ok.inj (h'.port.symm.trans h.port),
    Except.ok.inj (h'.heartbeat.symm.trans h.heartbeat),
    Except.ok.inj (h'.content.symm.trans h.content)⟩

/-- The two tests of the turn decide what becomes of an entry that reads. -/
theorem nodeOf_of_reads {ignoreHeartbeat : Bool} {time : Int} {key : String} {value : Dynamic}
    {ip : String} {port heartbeat : Int} {hasNoContent : Bool}
    (h : Reads value ip port heartbeat hasNoContent) (node : EdgeNode R) :
    nodeOf lib st ignoreHeartbeat time (key, value) = some node ↔
      (ignoreHeartbeat = true ∨ subInt64 time heartbeat ≤ 120) ∧ hasNoContent = false ∧
        node = st.locate lib ip
          (EdgeNode.new ip (UInt16.ofInt port) (lowerCase key) (UInt32.ofInt heartbeat)) := by
  rw [nodeOf_eq_some_iff_parseNode, parseNode_some_iff]
  constructor
  · rintro ⟨ip', port', heartbeat', hreads, hfresh, hnode⟩
    obtain ⟨rfl, rfl, rfl, rfl⟩ := h.unique hreads
    exact ⟨hfresh, rfl, hnode⟩
  · rintro ⟨hfresh, rfl, hnode⟩
    exact ⟨ip, port, heartbeat, h, hfresh, hnode⟩

/-! ## Exact use -/

/-- The numbers of an entry are used exactly. -/
structure Exact (lib : Libs R) (st : NetworkState R) (ignoreHeartbeat : Bool) (time : Int)
    (kv : String × Dynamic) (port heartbeat : Int) (hasNoContent : Bool) : Prop where
  /-- where the staleness test is evaluated, its difference is the true one -/
  age : ignoreHeartbeat = false → subInt64 time heartbeat = time - heartbeat
  /-- an entry with content is kept exactly if it is fresh by the true difference and its port is
  one -/
  kept : hasNoContent = false → ((nodeOf lib st ignoreHeartbeat time kv).isSome = true ↔
    (ignoreHeartbeat = true ∨ time - heartbeat ≤ 120) ∧ 0 ≤ port ∧ port < 2 ^ 16)
  getPort : ∀ node, nodeOf lib st ignoreHeartbeat time kv = some node →
    (node.getPort.toNat : Int) = port
  getFQDN : ∀ node pool_domain cdn_subdomain, nodeOf lib st ignoreHeartbeat time kv = some node →
    node.getFQDN pool_domain cdn_subdomain = "https://" ++ lowerCase kv.1 ++ "." ++ cdn_subdomain ++
      "." ++ pool_domain ++ ":" ++ toString port
  getHeartbeat : ∀ node, nodeOf lib st ignoreHeartbeat time kv = some node →
    (node.getHeartbeat.toNat : Int) = heartbeat

/-- The widths hold the numbers of an entry that reads. -/
structure Fits (ignoreHeartbeat : Bool) (time port heartbeat : Int) (hasNoContent : Bool) : Prop where
  age : ignoreHeartbeat = true ∨ Dynamic.inInt64 (time - heartbeat) = true
  kept : hasNoContent = false → ignoreHeartbeat = true ∨ time - heartbeat ≤ 120 →
    (0 ≤ port ∧ port < 2 ^ 16) ∧ 0 ≤ heartbeat ∧ heartbeat < 2 ^ 32

section
variable {ignoreHeartbeat : Bool} {time : Int} {kv : String × Dynamic} {ip : String}
  {port heartbeat : Int} {hasNoContent : Bool} (h : Reads kv.2 ip port heartbeat hasNoContent)
include h

theorem fits_of_exact (hexact : Exact lib st ignoreHeartbeat time kv port heartbeat hasNoContent) :
    Fits ignoreHeartbeat time port heartbeat hasNoContent := by
  have hage : ignoreHeartbeat = true ∨ Dynamic.inInt64 (time - heartbeat) = true := by
    cases ignoreHeartbeat with
    | true => exact .inl rfl
    | false => exact .inr (subInt64_eq_iff.1 (hexact.age rfl))
  refine ⟨hage, fun hcontent hfresh => ?_⟩
  have hkept := (@nodeOf_of_reads R _ lib st ignoreHeartbeat time kv.1 kv.2 _ _ _ _ h _).2
    ⟨?_, hcontent, rfl⟩
  · have hport := ((hexact.kept hcontent).1 (by rw [hkept]; rfl)).2
    have hbeat := hexact.getHeartbeat _ hkept
    rw [EdgeNode.getHeartbeat, locate_heartbeat] at hbeat
    exact ⟨hport, toNat_ofInt32_iff.1 hbeat⟩
  · rcases hage with hignore | hrange
    · exact .inl hignore
    · rwa [subInt64_eq hrange]

/-- What fits is kept if it is fresh by the true difference, and its narrowed numbers are the ones
it came with. -/
theorem nodeOf_of_fits (hfits : Fits ignoreHeartbeat time port heartbeat hasNoContent)
    (node : EdgeNode R) : nodeOf lib st ignoreHeartbeat time kv = some node ↔
      ((ignoreHeartbeat = true ∨ time - heartbeat ≤ 120) ∧ hasNoContent = false) ∧
        (UInt16.ofInt port).toNat = port ∧ (UInt32.ofInt heartbeat).toNat = heartbeat ∧
        node = st.locate lib ip
          (EdgeNode.new ip (UInt16.ofInt port) (lowerCase kv.1) (UInt32.ofInt heartbeat)) := by
  have hfresh : (ignoreHeartbeat = true ∨ subInt64 time heartbeat ≤ 120) ↔
      (ignoreHeartbeat = true ∨ time - heartbeat ≤ 120) := by
    rcases hfits.age with hignore | hrange
    · simp [hignore]
    · rw [subInt64_eq hrange]
  have hnode := @nodeOf_of_reads R _ lib st ignoreHeartbeat time kv.1 kv.2 _ _ _ _ h node
  rw [hfresh, ← and_assoc] at hnode
  refine hnode.trans (and_congr_right fun ⟨hfresh, hcontent⟩ => ?_)
  obtain ⟨hport, hbeat⟩ := hfits.kept hcontent hfresh
  rw [and_iff_right (toNat_ofInt16_iff.2 hport), and_iff_right (toNat_ofInt32_iff.2 hbeat)]

theorem exact_of_fits (hfits : Fits ignoreHeartbeat time port heartbeat hasNoContent) :
    Exact lib st ignoreHeartbeat time kv port heartbeat hasNoContent := by
  have hnode := @nodeOf_of_fits R _ lib st _ _ _ _ _ _ _ h hfits
  refine ⟨?_, ?_, ?_, ?_, ?_⟩
  · rintro rfl
    exact subInt64_eq (hfits.age.resolve_left Bool.false_ne_true)
  · intro hcontent
    rw [Option.isSome_iff_exists]
    constructor
    · rintro ⟨node, hsome⟩
      obtain ⟨⟨hfresh, -⟩, -⟩ := (hnode node).1 hsome
      exact ⟨hfresh, (hfits.kept hcontent hfresh).1⟩
    · rintro ⟨hfresh, hport⟩
      have hbeat := (hfits.kept hcontent hfresh).2
      exact ⟨_, (hnode _).2 ⟨⟨hfresh, hcontent⟩, toNat_ofInt16_iff.2 hport,
        toNat_ofInt32_iff.2 hbeat, rfl⟩⟩
  · intro node hsome
    obtain ⟨-, hport, -, rfl⟩ := (hnode node).1 hsome
    rw [EdgeNode.getPort, locate_port]
    exact hport
  · intro node pool_domain cdn_subdomain hsome
    obtain ⟨-, hport, -, rfl⟩ := (hnode node).1 hsome
    have htext : toString port = toString (UInt16.ofInt port).toNat := by
      calc toString port = toString ((UInt16.ofInt port).toNat : Int) := by rw [hport]
        _ = toString (UInt16.ofInt port).toNat := rfl
    rw [getFQDN_locate, htext]
    rfl
  · intro node hsome
    obtain ⟨-, -, hbeat, rfl⟩ := (hnode node).1 hsome
    rw [EdgeNode.getHeartbeat, locate_heartbeat]
    exact hbeat

theorem exact_iff_fits : Exact lib st ignoreHeartbeat time kv port heartbeat hasNoContent ↔
    Fits ignoreHeartbeat time port heartbeat hasNoContent :=
  ⟨fits_of_exact h, exact_of_fits h⟩

end

/-! ## Bodies -/

/-- Every entry of a body that reads has its numbers used exactly in the list that is installed. -/
def NumbersExact (lib : Libs R) (st : NetworkState R) (ignoreHeartbeat : Bool) (time : Int)
    (body : String) : Prop :=
  ∀ kvs, nodeDataMap lib body = some kvs →
    (parseStateUpdate lib st body ignoreHeartbeat time).1.getEdgeNodes =
      kvs.filterMap (nodeOf lib st ignoreHeartbeat time) ∧
    ∀ kv ∈ kvs, ∀ ip port heartbeat hasNoContent, Reads kv.2 ip port heartbeat hasNoContent →
      Exact lib st ignoreHeartbeat time kv port heartbeat hasNoContent

/-- **Numbers are used exactly if and only if they fit.** -/
theorem numbersExact_iff (lib : Libs R) (st : NetworkState R) (ignoreHeartbeat : Bool) (time : Int)
    (body : String) : NumbersExact lib st ignoreHeartbeat time body ↔
      ∀ kvs, nodeDataMap lib body = some kvs →
        ∀ kv ∈ kvs, ∀ ip port heartbeat hasNoContent, Reads kv.2 ip port heartbeat hasNoContent →
          Fits ignoreHeartbeat time port heartbeat hasNoContent := by
  unfold NumbersExact
  refine forall_congr' fun kvs => forall_congr' fun hbody => ?_
  rw [and_iff_right (edgeNodes_parseStateUpdate hbody st ignoreHeartbeat time)]
  refine forall_congr' fun kv => forall_congr' fun _ => forall_congr' fun ip =>
    forall_congr' fun port => forall_congr' fun heartbeat => forall_congr' fun hasNoContent =>
    forall_congr' fun hreads => ?_
  exact exact_iff_fits hreads

section

/-- An entry that a peer chose the numbers of. -/
def peerEntry (port heartbeat : Int) : String × Dynamic :=
  ("0xAB", .object
    [("content_port", .object [("data", .int64 port)]),
      ("ip_address", .object [("data", .string "127.0.0.1")]),
      ("heartbeat", .object [("data", .int64 heartbeat)]),
      ("disk_content", .object [("data", .array [.string "a"])])])

/-- Every body parses as that entry. -/
def peerLib (port heartbeat : Int) : Libs ℚ :=
  { Scenario.lib with
    parseJson := fun _ => some (.object
      [("response", .object [("node_data_map", .object [peerEntry port heartbeat])])]) }

/-- Port 65616 is advertised as 80, and the oldest heartbeat there is counts as fresh. -/
theorem wrong_port_and_stale_node :
    (∃ node, nodeOf (peerLib 65616 100) (new {} false none) false 150 (peerEntry 65616 100) = some node ∧
      node.getFQDN "pool.org" "cdn" = "https://0xab.cdn.pool.org:80") ∧
    (nodeOf (peerLib 8080 (-2 ^ 63)) (new {} false none) false 150 (peerEntry 8080 (-2 ^ 63))).isSome =
      true ∧
    ¬ NumbersExact (peerLib 65616 100) (new {} false none) false 150 "" ∧
    ¬ NumbersExact (peerLib 8080 (-2 ^ 63)) (new {} false none) false 150 "" := by
  have hreads : ∀ port heartbeat, Reads (peerEntry port heartbeat).2 "127.0.0.1" port heartbeat false :=
    fun port heartbeat => ⟨rfl, rfl, rfl, rfl⟩
  have hfits : ∀ port heartbeat,
      NumbersExact (peerLib port heartbeat) (new {} false none) false 150 "" →
        Fits false 150 port heartbeat false := by
    intro port heartbeat h
    have hexact := (h _ rfl).2 _ (List.mem_singleton_self _) _ _ _ _ (hreads port heartbeat)
    exact (exact_iff_fits (hreads port heartbeat)).1 hexact
  refine ⟨?_, ?_, ?_, ?_⟩
  · exact ⟨EdgeNode.new "127.0.0.1" 80 "0xab" 100, by decide +kernel, by decide +kernel⟩
  · decide +kernel
  · intro h
    exact absurd ((hfits _ _ h).kept rfl (.inr (by decide))).1.2 (by decide)
  · intro h
    rcases (hfits _ _ h).age with hignore | hrange
    · cases hignore
    · exact absurd hrange (by decide)

end

end NetworkState

end GladiusMasternode
