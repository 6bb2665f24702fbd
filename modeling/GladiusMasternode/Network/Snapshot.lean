import GladiusMasternode.Model.Interleaving
import GladiusMasternode.Network.Nearest
/-
# Lookups between the two writes of a poll

A lookup is right if the nodes it has fetched are those its indices denote in the list its tree was
built from. `Versions` decides this: a schedule of the critical sections gives right lookups for all
lists and locations exactly if every fetch reads the list of the poll whose tree was searched
(`snapshot_iff_in_step`). With a poll's two writes together and a lookup on its own, that is the case
and the lookup is `getNearestEdgeNodes` (`lookup_alone`).
-/

namespace GladiusMasternode

namespace Interleaving

variable {R : Type} {lib : Libs R} {n : Nat}
  {lists : Nat → List (EdgeNode R)} {locs : Nat → Location R} {s s' : Interleaving R} {t : Turn}

/-! ## One step -/

/-- What a step does, and when. -/
inductive Stepped (lib : Libs R) (n : Nat) (lists : Nat → List (EdgeNode R))
    (locs : Nat → Location R) (s : Interleaving R) : Turn → Interleaving R → Prop
  | setTreeData (h : s.polls = s.assigned) : Stepped lib n lists locs s .setTreeData
      { s with state := s.state.installTree (lists s.polls), polls := s.polls + 1 }
  | assign (h : s.assigned < s.polls) : Stepped lib n lists locs s .assign
      { s with state := s.state.setEdgeNodes (lists s.assigned), assigned := s.assigned + 1 }
  | search (i : Nat) (geo : Geo R) (td : TreeData R) (indices : List Nat)
      (hnew : s.lookups i = none) (hgeo : s.state.geo_ = some geo)
      (hind : geo.getNearestNodes lib (locs i) n = .ok indices) (htd : geo.treeData_ = some td) :
      Stepped lib n lists locs s (.search i) (s.setLookup i ⟨indices, td.cloud, s.polls, []⟩)
  | fetch (i : Nat) (lk : Lookup R) (k : Nat) (node : EdgeNode R) (hlk : s.lookups i = some lk)
      (hk : lk.indices[lk.nodes.length]? = some k) (hnode : s.state.edgeNodes_[k]? = some node) :
      Stepped lib n lists locs s (.fetch i) (s.setLookup i { lk with nodes := lk.nodes ++ [node] })
  | crash (i : Nat) (lk : Lookup R) (k : Nat) (hlk : s.lookups i = some lk)
      (hk : lk.indices[lk.nodes.length]? = some k) (hnone : s.state.edgeNodes_[k]? = none) :
      Stepped lib n lists locs s (.fetch i) { s with outOfRange := true }

theorem stepped_of_step (h : step lib n lists locs s t = some s') :
    s.outOfRange = false ∧ Stepped lib n lists locs s t s' := by
  unfold step at h
  split at h
  · cases h
  rename_i hr
  refine ⟨by simpa using hr, ?_⟩
  cases t with
  | setTreeData =>
    dsimp only at h
    split at h
    · rename_i hp; cases h; exact .setTreeData hp
    · cases h
  | assign =>
    dsimp only at h
    split at h
    · rename_i hp; cases h; exact .assign hp
    · cases h
  | search i =>
    dsimp only at h
    split at h
    · rename_i geo hnew hgeo
      split at h
      · rename_i indices td hind htd
        cases h
        exact .search i geo td indices hnew hgeo hind htd
      · cases h
    · cases h
  | fetch i =>
    dsimp only at h
    split at h
    · cases h
    · rename_i lk hlk
      split at h
      · cases h
      · rename_i k hk
        unfold NetworkState.nodeAt at h
        cases hnode : s.state.edgeNodes_[k]? with
        | none => rw [hnode] at h; cases h; exact .crash i lk k hlk hk hnode
        | some node => rw [hnode] at h; cases h; exact .fetch i lk k node hlk hk hnode

theorem step_of_stepped (hr : s.outOfRange = false) (h : Stepped lib n lists locs s t s') :
    step lib n lists locs s t = some s' := by
  unfold step
  rw [hr]
  cases h with
  | setTreeData hp => simp [hp, hr]
  | assign hp => simp [hp, hr]
  | search i geo td indices hnew hgeo hind htd => simp [hnew, hgeo, hind, htd]
  | fetch i lk k node hlk hk hnode => simp [hlk, hk, NetworkState.nodeAt, hnode]
  | crash i lk k hlk hk hnone => simp [hlk, hk, NetworkState.nodeAt, hnone]

/-! ## The invariant -/

/-- The tree is that of the last poll begun, the list that of the last poll finished. -/
structure Consistent (n : Nat) (lists : Nat → List (EdgeNode R)) (s : Interleaving R) : Prop where
  on : s.state.geo_ip_enabled = true
  tree : ∃ g, s.state.geo_ = some g ∧
    g.treeData_ = some (Geo.buildTreeData (lists (s.polls - 1)))
  nodes : s.state.edgeNodes_ = lists (s.assigned - 1)
  counters : 1 ≤ s.assigned ∧ (s.polls = s.assigned ∨ s.polls = s.assigned + 1)
  lookups : ∀ i lk, s.lookups i = some lk → 1 ≤ lk.version ∧
    lk.searched = lists (lk.version - 1) ∧ lk.indices.length = n ∧
    ∀ k ∈ lk.indices, k < (lists (lk.version - 1)).length

theorem consistent_start (config : Config) (db : GeoLite) :
    Consistent n lists (start config db (lists 0)) :=
  ⟨rfl, ⟨_, rfl, rfl⟩, rfl, ⟨Nat.le_refl 1, .inl rfl⟩, fun i lk h => by cases h⟩

@[simp] theorem lookups_setLookup_self (s : Interleaving R) (i : Nat) (lk : Lookup R) :
    (s.setLookup i lk).lookups i = some lk := by simp [setLookup]

theorem lookups_setLookup_ne {i j : Nat} (h : j ≠ i) (lk : Lookup R) :
    (s.setLookup i lk).lookups j = s.lookups j := by simp [setLookup, h]

theorem lookups_setLookup {i j : Nat} {lk lk' : Lookup R}
    (h : (s.setLookup i lk).lookups j = some lk') :
    j = i ∧ lk' = lk ∨ s.lookups j = some lk' := by
  simp only [setLookup] at h
  by_cases hj : j = i
  · rw [if_pos hj] at h
    exact .inl ⟨hj, (Option.some.inj h).symm⟩
  · rw [if_neg hj] at h
    exact .inr h

/-! ## Right lookups -/

/-- No fetch has thrown, and every lookup has fetched what its indices denote in the list its tree
was built from. -/
def Snapshot (s : Interleaving R) : Prop :=
  s.outOfRange = false ∧ ∀ i lk, s.lookups i = some lk →
    NetworkState.Picks lk.searched (lk.indices.take lk.nodes.length) lk.nodes

theorem picks_snoc {lk : Lookup R} {k : Nat} {node : EdgeNode R}
    (hk : lk.indices[lk.nodes.length]? = some k) :
    NetworkState.Picks lk.searched (lk.indices.take (lk.nodes ++ [node]).length) (lk.nodes ++ [node]) ↔
      NetworkState.Picks lk.searched (lk.indices.take lk.nodes.length) lk.nodes ∧
        lk.searched[k]? = some node := by
  have htake : lk.indices.take (lk.nodes ++ [node]).length =
      lk.indices.take lk.nodes.length ++ [k] := by
    rw [List.length_append, List.length_singleton, List.take_add_one, hk]
    rfl
  have hlen : ((lk.indices.take lk.nodes.length).map (lk.searched[·]?)).length =
      (lk.nodes.map some).length := by
    obtain ⟨hlt, -⟩ := List.getElem?_eq_some_iff.1 hk
    rw [List.length_map, List.length_map, List.length_take]
    omega
  unfold NetworkState.Picks
  rw [htake, List.map_append, List.map_append]
  constructor
  · intro h
    obtain ⟨hfront, hlast⟩ := List.append_inj h hlen
    exact ⟨hfront, by simpa using hlast⟩
  · rintro ⟨hfront, hlast⟩
    rw [hfront, List.map_singleton, List.map_singleton, hlast]

/-- After a fetch: right if the fetched node is the one the index denotes in the list searched. -/
theorem snapshot_fetch_iff (hs : Snapshot s) {i : Nat} {lk : Lookup R} (hlk : s.lookups i = some lk)
    {k : Nat} (hk : lk.indices[lk.nodes.length]? = some k) {node : EdgeNode R} :
    Snapshot (s.setLookup i { lk with nodes := lk.nodes ++ [node] }) ↔
      lk.searched[k]? = some node := by
  constructor
  · rintro ⟨-, hl⟩
    exact ((picks_snoc hk).1 (hl i _ (lookups_setLookup_self s i _))).2
  · intro hnode
    refine ⟨hs.1, fun j lk' hj => ?_⟩
    rcases lookups_setLookup hj with ⟨-, rfl⟩ | hj
    · exact (picks_snoc hk).2 ⟨hs.2 i lk hlk, hnode⟩
    · exact hs.2 j lk' hj

/-- What has been fetched wrongly stays so. -/
theorem snapshot_of_step (h : Stepped lib n lists locs s t s') (hs : Snapshot s') : Snapshot s := by
  obtain ⟨hr, hl⟩ := hs
  cases h with
  | setTreeData hp => exact ⟨hr, hl⟩
  | assign hp => exact ⟨hr, hl⟩
  | search i geo td indices hnew hgeo hind htd =>
    refine ⟨hr, fun j lk hj => hl j lk ?_⟩
    have hne : j ≠ i := fun he => by rw [he, hnew] at hj; cases hj
    rw [lookups_setLookup_ne hne]
    exact hj
  | fetch i lk k node hlk hk hnode =>
    refine ⟨hr, fun j lk' hj => ?_⟩
    by_cases hne : j = i
    · subst hne
      obtain rfl : lk = lk' := Option.some.inj (hlk.symm.trans hj)
      exact ((picks_snoc hk).1 (hl j _ (lookups_setLookup_self s j _))).1
    · exact hl j lk' (by rw [lookups_setLookup_ne hne]; exact hj)
  | crash i lk k hlk hk hnone => cases hr

theorem snapshot_start (config : Config) (db : GeoLite) (nodes : List (EdgeNode R)) :
    Snapshot (start config db nodes) := ⟨rfl, fun i lk h => by cases h⟩

/-! ## The counters -/

/-- The counters of a state. -/
def versions (s : Interleaving R) : Versions :=
  { polls := s.polls, assigned := s.assigned
    lookups := fun i => (s.lookups i).map fun lk => (lk.version, lk.nodes.length) }

theorem versions_setLookup (s : Interleaving R) (i : Nat) (lk : Lookup R) :
    (s.setLookup i lk).versions = s.versions.setLookup i (lk.version, lk.nodes.length) := by
  have hl : (s.setLookup i lk).versions.lookups =
      (s.versions.setLookup i (lk.version, lk.nodes.length)).lookups := by
    funext j
    by_cases hj : j = i <;> simp [versions, setLookup, Versions.setLookup, hj]
  simp only [versions, Versions.setLookup] at hl ⊢
  rw [hl]
  rfl

/-- Short of a throw, a step is a step of the counters. -/
theorem versions_step (hc : Consistent n lists s) (h : Stepped lib n lists locs s t s')
    (hr : s'.outOfRange = false) : s.versions.step n t = some s'.versions := by
  cases h with
  | setTreeData hp => simp [Versions.step, versions, hp]
  | assign hp => simp [Versions.step, versions, hp]
  | search i geo td indices hnew hgeo hind htd =>
    have hnone : s.versions.lookups i = none := by simp [versions, hnew]
    rw [versions_setLookup]
    simp only [Versions.step, hnone, Option.isNone_none, if_true]
    rfl
  | fetch i lk k node hlk hk hnode =>
    obtain ⟨-, -, hlen, -⟩ := hc.lookups i lk hlk
    obtain ⟨hlt, -⟩ := List.getElem?_eq_some_iff.1 hk
    have hsome : s.versions.lookups i = some (lk.version, lk.nodes.length) := by
      simp [versions, hlk]
    rw [versions_setLookup]
    simp only [Versions.step, hsome, List.length_append, List.length_singleton]
    rw [if_pos (by omega)]
  | crash i lk k hlk hk hnone => cases hr

/-- A fetch in step reads from the list its lookup has searched. -/
theorem nodes_of_inStep (hc : Consistent n lists s) {i : Nat} {lk : Lookup R}
    (hlk : s.lookups i = some lk) (hok : s.versions.InStep (.fetch i)) :
    s.state.edgeNodes_ = lk.searched := by
  have hv : s.assigned = lk.version :=
    hok i lk.version lk.nodes.length rfl (by simp [versions, hlk])
  rw [hc.nodes, (hc.lookups i lk hlk).2.1, hv]

theorem snapshot_step (hc : Consistent n lists s) (hs : Snapshot s)
    (hok : s.versions.InStep t) (h : Stepped lib n lists locs s t s') : Snapshot s' := by
  cases h with
  | setTreeData hp => exact hs
  | assign hp => exact hs
  | search i geo td indices hnew hgeo hind htd =>
    refine ⟨hs.1, fun j lk hj => ?_⟩
    rcases lookups_setLookup hj with ⟨-, rfl⟩ | hj
    · rfl
    · exact hs.2 j lk hj
  | fetch i lk k node hlk hk hnode =>
    rw [snapshot_fetch_iff hs hlk hk, ← nodes_of_inStep hc hlk hok]
    exact hnode
  | crash i lk k hlk hk hnone =>
    obtain ⟨-, hsearched, -, hrange⟩ := hc.lookups i lk hlk
    rw [nodes_of_inStep hc hlk hok, hsearched, List.getElem?_eq_none_iff] at hnone
    have := hrange k (List.mem_of_getElem? hk)
    omega

section
variable [Field R]

/-! ## Every poll with nodes of its own -/

/-- A list of `n` nodes that carry the number of their poll. -/
def tagged (n k : Nat) : List (EdgeNode R) :=
  List.replicate n (EdgeNode.new (String.ofList (List.replicate k '1')) 0 "" 0)

theorem tagged_getElem? {k i : Nat} (hi : i < n) : (tagged n k : List (EdgeNode R))[i]? =
    some (EdgeNode.new (String.ofList (List.replicate k '1')) 0 "" 0) := by
  rw [tagged, List.getElem?_replicate, if_pos hi]

theorem tagged_inj {j k i : Nat} (hi : i < n)
    (h : (tagged n j : List (EdgeNode R))[i]? = (tagged n k)[i]?) : j = k := by
  rw [tagged_getElem? hi, tagged_getElem? hi, Option.some.injEq] at h
  have hip := congrArg EdgeNode.ip_ h
  have hlen := congrArg (fun s => s.toList.length) hip
  simpa [EdgeNode.new] using hlen

/-- Then a fetch out of step is seen. -/
theorem tagged_step_iff (hc : Consistent n (tagged n) s) (hs : Snapshot s)
    (h : Stepped lib n (tagged n) locs s t s') : Snapshot s' ↔ s.versions.InStep t := by
  refine ⟨fun hs' => ?_, fun hok => snapshot_step hc hs hok h⟩
  cases h with
  | fetch i lk k node hlk hk hnode =>
    obtain ⟨hpos, hsearched, hlen, hrange⟩ := hc.lookups i lk hlk
    have hkn : k < n := by
      have := hrange k (List.mem_of_getElem? hk)
      simpa [tagged] using this
    have hseen := (snapshot_fetch_iff hs hlk hk).1 hs'
    rw [hsearched] at hseen
    rw [hc.nodes] at hnode
    have heq := tagged_inj hkn (hnode.trans hseen.symm)
    obtain ⟨hpos', -⟩ := hc.counters
    rintro j version fetched hj hl
    obtain rfl : i = j := by simpa using hj
    simp only [versions, hlk, Option.map_some, Option.some.injEq, Prod.mk.injEq] at hl
    show s.assigned = version
    omega
  | crash i lk k hlk hk hnone => cases hs'.1
  | _ => rintro j version fetched hj; cases hj

variable [LinearOrder R]

/-- The indices of a search are `n` and in range of the list searched. -/
theorem indices_of_search (hfind : FindsNearest lib) (hn : 1 ≤ n) {g : Geo R} {l : Location R}
    {nodes : List (EdgeNode R)} {indices : List Nat}
    (htree : g.treeData_ = some (Geo.buildTreeData nodes)) (hlong : n ≤ nodes.length)
    (hind : g.getNearestNodes lib l n = .ok indices) :
    indices.length = n ∧ ∀ k ∈ indices, k < nodes.length := by
  obtain ⟨idx, hnear, hidx⟩ := Geo.getNearestNodes_spec hfind htree hn l
  have hlen : idx.length = n := by rw [hnear.length]; omega
  rw [hind, hlen, Nat.sub_self, List.replicate_zero, List.append_nil] at hidx
  rw [Except.ok.inj hidx]
  exact ⟨hlen, hnear.range⟩

theorem consistent_step (hfind : FindsNearest lib) (hn : 1 ≤ n)
    (hlong : ∀ k, n ≤ (lists k).length) (hc : Consistent n lists s)
    (h : Stepped lib n lists locs s t s') : Consistent n lists s' := by
  obtain ⟨hpos, hcount⟩ := hc.counters
  cases h with
  | setTreeData hp =>
    have hinst : s.state.installTree (lists s.polls) = { s.state with
        geo_ := some ((s.state.geo hc.on).setTreeData (Geo.buildTreeData (lists s.polls)))
        geo_present := fun _ => rfl } := by rw [NetworkState.installTree, dif_pos hc.on]
    rw [hinst]
    exact ⟨hc.on, ⟨_, rfl, rfl⟩, hc.nodes, ⟨hpos, .inr (by dsimp only; omega)⟩, hc.lookups⟩
  | assign hp =>
    refine ⟨hc.on, hc.tree, ?_, ⟨by dsimp only; omega, .inl (by dsimp only; omega)⟩, hc.lookups⟩
    show lists s.assigned = lists (s.assigned + 1 - 1)
    rw [Nat.add_sub_cancel]
  | search i geo td indices hnew hgeo hind htd =>
    obtain ⟨g, hg, htree⟩ := hc.tree
    obtain rfl : geo = g := Option.some.inj (hgeo.symm.trans hg)
    obtain rfl := Option.some.inj (htd.symm.trans htree)
    refine ⟨hc.on, hc.tree, hc.nodes, hc.counters, fun j lk hj => ?_⟩
    rcases lookups_setLookup hj with ⟨-, rfl⟩ | hj
    · refine ⟨by dsimp only; omega, rfl, ?_⟩
      exact indices_of_search hfind hn htd (hlong _) hind
    · exact hc.lookups j lk hj
  | fetch i lk k node hlk hk hnode =>
    refine ⟨hc.on, hc.tree, hc.nodes, hc.counters, fun j lk' hj => ?_⟩
    rcases lookups_setLookup hj with ⟨-, rfl⟩ | hj
    · exact hc.lookups i lk hlk
    · exact hc.lookups j lk' hj
  | crash i lk k hlk hk hnone => exact { hc with }

/-- And every step of the counters can be taken. -/
theorem tagged_cosim (hfind : FindsNearest lib) (hn : 1 ≤ n)
    (hc : Consistent n (tagged n) s) (hr : s.outOfRange = false) {v : Versions}
    (h : s.versions.step n t = some v) :
    ∃ s', step lib n (tagged n) locs s t = some s' ∧
      (Consistent n (tagged n) s' ∧ s'.outOfRange = false) ∧ s'.versions = v := by
  have hlong : ∀ k, n ≤ (tagged n k : List (EdgeNode R)).length := fun k => by simp [tagged]
  have key : ∃ s', Stepped lib n (tagged n) locs s t s' ∧ s'.outOfRange = false := by
    cases t with
    | setTreeData =>
      simp only [Versions.step] at h
      split at h
      · rename_i hp; exact ⟨_, .setTreeData hp, hr⟩
      · cases h
    | assign =>
      simp only [Versions.step] at h
      split at h
      · rename_i hp; exact ⟨_, .assign hp, hr⟩
      · cases h
    | search i =>
      simp only [Versions.step] at h
      split at h
      · rename_i hnone
        have hnew : s.lookups i = none := by simpa [versions] using hnone
        obtain ⟨g, hg, htree⟩ := hc.tree
        have hind : ∃ indices, g.getNearestNodes lib (locs i) n = .ok indices := by
          rw [Geo.getNearestNodes, htree]
          exact ⟨_, rfl⟩
        obtain ⟨indices, hind⟩ := hind
        exact ⟨_, .search i g _ indices hnew hg hind htree, hr⟩
      · cases h
    | fetch i =>
      cases hlk : s.lookups i with
      | none => simp [Versions.step, versions, hlk] at h
      | some lk =>
        simp only [Versions.step, versions, hlk, Option.map_some] at h
        split at h
        · rename_i hlt
          obtain ⟨-, -, hlen, hrange⟩ := hc.lookups i lk hlk
          obtain ⟨k, hk⟩ : ∃ k, lk.indices[lk.nodes.length]? = some k :=
            ⟨_, List.getElem?_eq_getElem (by omega)⟩
          have hkn : k < n := by
            have := hrange k (List.mem_of_getElem? hk)
            simpa [tagged] using this
          have hnode : s.state.edgeNodes_[k]? = (tagged n (s.assigned - 1))[k]? := by rw [hc.nodes]
          rw [tagged_getElem? hkn] at hnode
          exact ⟨_, .fetch i lk k _ hlk hk hnode, hr⟩
        · cases h
  obtain ⟨s', hstep, hr'⟩ := key
  refine ⟨s', step_of_stepped hr hstep, ⟨consistent_step hfind hn hlong hc hstep, hr'⟩, ?_⟩
  exact Option.some.inj ((versions_step hc hstep hr').symm.trans h)

/-! ## Whole schedules -/

/-- In step throughout, every lookup is right, whatever the lists. -/
theorem snapshot_of_inStep (hfind : FindsNearest lib) (hn : 1 ≤ n)
    (hlong : ∀ k, n ≤ (lists k).length) {config : Config} {db : GeoLite} {ts : List Turn}
    (hok : Run.Meets (Versions.step n) Versions.InStep {} ts)
    (hrun : Run.run (step lib n lists locs) (start config db (lists 0)) ts = some s) :
    Snapshot s := by
  let P : Interleaving R → Prop := fun s => Consistent n lists s ∧ Snapshot s
  have hP : ∀ s t s', P s → s.versions.InStep t → step lib n lists locs s t = some s' →
      P s' ∧ s.versions.step n t = some s'.versions := by
    rintro s t s' ⟨hc, hs⟩ hok h
    obtain ⟨-, hstep⟩ := stepped_of_step h
    have hs' := snapshot_step hc hs hok hstep
    exact ⟨⟨consistent_step hfind hn hlong hc hstep, hs'⟩, versions_step hc hstep hs'.1⟩
  have hinit : P (start config db (lists 0)) := ⟨consistent_start config db, snapshot_start _ _ _⟩
  have hmeets := Run.meets_of_sim hP ts hinit hok
  exact (Run.run_inv_of (fun s t s' hp hok h => (hP s t s' hp hok h).1) ts hinit hmeets hrun).2

/-- **Snapshot consistency.** A schedule of polls and lookups gives, for all lists of at least `n`
nodes and all locations, lookups that fetch without a throw exactly what their indices denote in the
list their tree was built from, exactly if every fetch is made while `edgeNodes_` is the list of the
poll whose tree the lookup has searched. -/
theorem snapshot_iff_in_step (hfind : FindsNearest lib) (hn : 1 ≤ n) (config : Config) (db : GeoLite)
    {ts : List Turn} {v : Versions} (hadm : Run.run (Versions.step n) {} ts = some v) :
    (∀ (lists : Nat → List (EdgeNode R)) (locs : Nat → Location R), (∀ k, n ≤ (lists k).length) →
      ∀ s, Run.run (step lib n lists locs) (start config db (lists 0)) ts = some s →
        s.outOfRange = false ∧ ∀ i lk, s.lookups i = some lk →
          NetworkState.Picks lk.searched (lk.indices.take lk.nodes.length) lk.nodes) ↔
    Run.Meets (Versions.step n) Versions.InStep {} ts := by
  refine ⟨fun hall => ?_, fun hok lists locs hlong s hrun =>
    snapshot_of_inStep hfind hn hlong hok hrun⟩
  -- lists that carry the number of their poll tell a fetch out of step from one in step
  let locs : Nat → Location R := fun _ => ⟨0, 0, 0, 0, 0⟩
  have hlong : ∀ k, n ≤ (tagged n k : List (EdgeNode R)).length := fun k => by simp [tagged]
  let P : Interleaving R → Prop := fun s => Consistent n (tagged n) s
  have hsim : ∀ s t v, P s ∧ s.outOfRange = false → s.versions.step n t = some v →
      ∃ s', step lib n (tagged n) locs s t = some s' ∧ (P s' ∧ s'.outOfRange = false) ∧
        s'.versions = v := fun s t v hp h => tagged_cosim hfind hn hp.1 hp.2 h
  have hinit : P (start config db (tagged n 0)) := consistent_start config db
  obtain ⟨s, hs⟩ := Run.run_of_cosim hsim ts ⟨hinit, rfl⟩ hadm
  have hsnap : Snapshot s := hall (tagged n) locs hlong s hs
  refine Run.meets_of_cosim hsim ts ⟨hinit, rfl⟩ ?_
  have hinv : ∀ s t s', P s → step lib n (tagged n) locs s t = some s' → P s' := fun s t s' hp h =>
    consistent_step hfind hn hlong hp (stepped_of_step h).2
  have hiff : ∀ s t s', P s → Snapshot s → step lib n (tagged n) locs s t = some s' →
      (Snapshot s' ↔ s.versions.InStep t) := fun s t s' hp hg h =>
    tagged_step_iff hp hg (stepped_of_step h).2
  have hstays : ∀ s t s', P s → step lib n (tagged n) locs s t = some s' → Snapshot s' →
      Snapshot s := fun s t s' _ h hg => snapshot_of_step (stepped_of_step h).2 hg
  exact (Run.good_at_end_iff hinv hiff hstays ts hinit (snapshot_start _ _ _) hs).1 hsnap

end

/-! ## Undisturbed -/

section
variable [Field R]

/-- The two writes of a poll with nothing in between are `parseStateUpdate`. -/
theorem poll_alone (hr : s.outOfRange = false) (hp : s.polls = s.assigned) {body : String}
    {ignoreHeartbeat : Bool} {time : Int}
    (hnew : s.state.newNodes lib body ignoreHeartbeat time = .ok (lists s.polls)) :
    ∃ t, Run.run (step lib n lists locs) s [.setTreeData, .assign] = some t ∧
      t.state = (s.state.parseStateUpdate lib body ignoreHeartbeat time).1 := by
  refine ⟨_, Run.run_cons_some.2 ⟨_, step_of_stepped hr (.setTreeData hp), Run.run_cons_some.2
    ⟨_, step_of_stepped hr (.assign (by dsimp only; omega)), rfl⟩⟩, ?_⟩
  rw [NetworkState.parseStateUpdate, hnew, ← hp]

end

/-- The fetches of one lookup with nothing in between. -/
theorem fetches_alone {i m : Nat} : ∀ {s t : Interleaving R} {lk : Lookup R},
    s.lookups i = some lk → Run.run (step lib n lists locs) s (List.replicate m (.fetch i)) = some t →
    t.outOfRange = false → ∃ more, t.lookups i = some { lk with nodes := lk.nodes ++ more } ∧
      ((lk.indices.drop lk.nodes.length).take m).mapM s.state.nodeAt = .ok more := by
  induction m with
  | zero =>
    intro s t lk hlk hrun _
    cases hrun
    exact ⟨[], by rw [List.append_nil]; exact hlk, rfl⟩
  | succ m ih =>
    intro s t lk hlk hrun hr
    rw [List.replicate_succ] at hrun
    obtain ⟨s', hstep, hrun⟩ := Run.run_cons_some.1 hrun
    obtain ⟨-, hstep⟩ := stepped_of_step hstep
    cases hstep with
    | fetch _ lk' k node hlk' hk hnode =>
      obtain rfl : lk = lk' := Option.some.inj (hlk.symm.trans hlk')
      obtain ⟨more, ht, hmap⟩ := ih (lookups_setLookup_self s i _) hrun hr
      refine ⟨node :: more, by rw [ht, List.append_assoc]; rfl, ?_⟩
      obtain ⟨hlt, hget⟩ := List.getElem?_eq_some_iff.1 hk
      rw [List.drop_eq_getElem_cons hlt, List.take_succ_cons, List.mapM_cons, hget,
        show s.state.nodeAt k = .ok node by rw [NetworkState.nodeAt, hnode]]
      rw [List.length_append, List.length_singleton] at hmap
      rw [show (s.setLookup i { lk with nodes := lk.nodes ++ [node] }).state = s.state from rfl] at hmap
      show (List.mapM s.state.nodeAt _).bind _ = _
      rw [hmap]
      rfl
    | crash _ lk' k hlk' hk hnone =>
      cases m with
      | zero => cases hrun; cases hr
      | succ m =>
        rw [List.replicate_succ] at hrun
        obtain ⟨_, hstep, -⟩ := Run.run_cons_some.1 hrun
        cases (stepped_of_step hstep).1

section
variable [Field R] [LinearOrder R]

/-- A lookup with nothing in between is `getNearestEdgeNodes`. -/
theorem lookup_alone (hfind : FindsNearest lib) (hn : 1 ≤ n) (hlong : ∀ k, n ≤ (lists k).length)
    (hc : Consistent n lists s) {i : Nat}
    (hrun : Run.run (step lib n lists locs) s (.search i :: List.replicate n (.fetch i)) = some s')
    (hr : s'.outOfRange = false) : ∃ lk, s'.lookups i = some lk ∧
      s.state.getNearestEdgeNodes lib (locs i) n = .ok lk.nodes := by
  obtain ⟨s₁, hstep, hrun⟩ := Run.run_cons_some.1 hrun
  obtain ⟨-, hstep⟩ := stepped_of_step hstep
  cases hstep with
  | search _ geo td indices hnew hgeo hind htd =>
    obtain ⟨g, hg, htree⟩ := hc.tree
    obtain rfl : geo = g := Option.some.inj (hgeo.symm.trans hg)
    obtain ⟨hlen, -⟩ := indices_of_search hfind hn htree (hlong _) hind
    obtain ⟨more, hlk, hmap⟩ := fetches_alone (lookups_setLookup_self s i _) hrun hr
    refine ⟨_, hlk, ?_⟩
    rw [List.length_nil, List.drop_zero, List.take_of_length_le (Nat.le_of_eq hlen)] at hmap
    rw [NetworkState.getNearestEdgeNodes, hgeo]
    show (geo.getNearestNodes lib (locs i) n).bind _ = _
    rw [hind]
    exact hmap

end

/-! ## Two schedules -/

theorem snapshot_iff_of_poll_after :
    (∀ (lists : Nat → List (EdgeNode ℚ)) (locs : Nat → Location ℚ), (∀ k, 1 ≤ (lists k).length) →
      ∀ s, Run.run (step Scenario.lib 1 lists locs) (start {} Scenario.db (lists 0))
          [.search 0, .fetch 0, .setTreeData, .assign] = some s →
        s.outOfRange = false ∧ ∀ i lk, s.lookups i = some lk →
          NetworkState.Picks lk.searched (lk.indices.take lk.nodes.length) lk.nodes) ↔
    Run.Meets (Versions.step 1) Versions.InStep {} [.search 0, .fetch 0, .setTreeData, .assign] := by
  obtain ⟨v, hv⟩ := Option.isSome_iff_exists.1 (show (Run.run (Versions.step 1) {}
    [.search 0, .fetch 0, .setTreeData, .assign]).isSome = true by decide)
  exact snapshot_iff_in_step Scenario.findsNearest_lib (Nat.le_refl 1) {} Scenario.db hv

/-- The first poll has found one node, the second another one in its place. -/
def replaced (k : Nat) : List (EdgeNode ℚ) :=
  [{ NetworkState.someNode with eth_address_ := if k = 0 then "0xab" else "0xcd" }]

/-- The first poll has found two nodes, the second only the farther one. -/
def shrunk (k : Nat) : List (EdgeNode ℚ) :=
  if k = 0 then [NetworkState.someNode, NetworkState.someNode.setLocation ⟨0, 0, 0, 0, 0⟩]
  else [NetworkState.someNode]

/-- A lookup between the two writes of the second poll searches the new tree and gets the old node;
one that fetches after them has an index that is out of range. -/
theorem lookup_across_poll :
    ((Run.run (step Scenario.lib 1 replaced fun _ => ⟨0, 0, 0, 0, 0⟩)
        (start {} Scenario.db (replaced 0)) [.setTreeData, .search 0, .fetch 0]).map
      (fun s => (s.lookups 0).map fun lk => (lk.searched, lk.indices, lk.nodes)) =
        some (some (replaced 1, [0], replaced 0)) ∧ replaced 1 ≠ replaced 0) ∧
    (Run.run (step Scenario.lib 1 shrunk fun _ => ⟨0, 0, 0, 0, 0⟩)
        (start {} Scenario.db (shrunk 0)) [.search 0, .setTreeData, .assign, .fetch 0]).map
      (fun s => s.outOfRange) = some true := by
  refine ⟨⟨rfl, by decide⟩, ?_⟩
  decide +kernel

end Interleaving

end GladiusMasternode
