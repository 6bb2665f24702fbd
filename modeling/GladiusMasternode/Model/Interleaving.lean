import GladiusMasternode.Model.NetworkState
import GladiusMasternode.Library.Run
/-
# Polls and lookups in small steps

The poller and the request handlers run on different threads. `treeData_` and `edgeNodes_` have a
lock each, and nobody holds both: `parseStateUpdate` writes one after the other, and
`getNearestEdgeNodes` searches the tree and then reads the list once for every index. The steps
between which others may run are those critical sections.

| here | there |
| --- | --- |
| `setTreeData`, `assign` | the two writes of `parseStateUpdate` (`NetworkState.cpp:78`, `:82`) |
| `search`, `fetch`       | `geo_->getNearestNodes` and one `edgeNodes_.rlock()->at(i)` (`NetworkState.cpp:119-123`) |
| `lists k`               | the list the `k`-th poll has made, counted from 0 |
| `locs i`                | the location request `i` is about |
| `polls`, `assigned`     | how many `setTreeData` and how many assignments there have been |
| `searched`, `version`   | the list the tree of a lookup's search was built from, and `polls` at that time |

`Versions` keeps only the counters: it says which poll each structure and each lookup is at.
-/

namespace GladiusMasternode

inductive Turn where
  | setTreeData | assign
  | search (i : Nat) | fetch (i : Nat)
deriving DecidableEq, Repr

structure Lookup (R : Type) where
  indices : List Nat
  searched : List (EdgeNode R)
  version : Nat
  nodes : List (EdgeNode R) := []

structure Interleaving (R : Type) where
  state : NetworkState R
  polls : Nat := 1
  assigned : Nat := 1
  lookups : Nat → Option (Lookup R) := fun _ => none
  /-- an `at(i)` has thrown, which ends the process -/
  outOfRange : Bool := false

namespace Interleaving

variable {R : Type}

def setLookup (s : Interleaving R) (i : Nat) (lk : Lookup R) : Interleaving R :=
  { s with lookups := fun j => if j = i then some lk else s.lookups j }

/-- `n` is how many nodes each lookup asks for. -/
def step (lib : Libs R) (n : Nat) (lists : Nat → List (EdgeNode R)) (locs : Nat → Location R)
    (s : Interleaving R) (t : Turn) : Option (Interleaving R) :=
  if s.outOfRange then none
  else match t with
  | .setTreeData =>
    if s.polls = s.assigned then
      some { s with state := s.state.installTree (lists s.polls), polls := s.polls + 1 }
    else none
  | .assign =>
    if s.assigned < s.polls then
      some { s with state := s.state.setEdgeNodes (lists s.assigned), assigned := s.assigned + 1 }
    else none
  | .search i =>
    match s.lookups i, s.state.geo_ with
    | none, some geo =>
      match geo.getNearestNodes lib (locs i) n, geo.treeData_ with
      | .ok indices, some td => some (s.setLookup i ⟨indices, td.cloud, s.polls, []⟩)
      | _, _ => none
    | _, _ => none
  | .fetch i =>
    match s.lookups i with
    | none => none
    | some lk =>
      match lk.indices[lk.nodes.length]? with
      | none => none
      | some k =>
        match s.state.nodeAt k with
        | .ok node => some (s.setLookup i { lk with nodes := lk.nodes ++ [node] })
        | .error _ => some { s with outOfRange := true }

/-- The first poll is over. -/
def start (config : Config) (db : GeoLite) (nodes : List (EdgeNode R)) : Interleaving R :=
  { state := ((NetworkState.new config true (some db)).installTree nodes).setEdgeNodes nodes }

end Interleaving

/-- The counters of an interleaving: a lookup is its version and how many nodes it has fetched. -/
structure Versions where
  polls : Nat := 1
  assigned : Nat := 1
  lookups : Nat → Option (Nat × Nat) := fun _ => none

namespace Versions

def setLookup (v : Versions) (i : Nat) (lk : Nat × Nat) : Versions :=
  { v with lookups := fun j => if j = i then some lk else v.lookups j }

def step (n : Nat) (v : Versions) : Turn → Option Versions
  | .setTreeData => if v.polls = v.assigned then some { v with polls := v.polls + 1 } else none
  | .assign => if v.assigned < v.polls then some { v with assigned := v.assigned + 1 } else none
  | .search i => if (v.lookups i).isNone then some (v.setLookup i (v.polls, 0)) else none
  | .fetch i =>
    match v.lookups i with
    | none => none
    | some (version, fetched) =>
      if fetched < n then some (v.setLookup i (version, fetched + 1)) else none

/-- A fetch reads the list of the poll whose tree its lookup has searched. -/
def InStep (v : Versions) (t : Turn) : Prop :=
  ∀ i version fetched, t = .fetch i → v.lookups i = some (version, fetched) → v.assigned = version

end Versions

end GladiusMasternode
