import Mathlib.Data.List.Basic
/-
# `folly::IOBuf` chains

| here | there |
| --- | --- |
| `IOBuf`         | a circular chain of buffers, seen from the element the pointer names |
| `prependChain`  | `IOBuf::prependChain`: the other chain goes in just before `this`, which on a ring is after its last element |
| `cloneCoalesced`| `IOBuf::cloneCoalesced`: one new buffer with the bytes of the whole chain |
| `copyBuffer`    | `IOBuf::copyBuffer` |

`clone` shares the buffers, which nothing in the repository writes to, so it is the identity.
-/

namespace GladiusMasternode

abbrev Bytes := List UInt8

/-- A chain: the buffer the pointer names, then the others in ring order. -/
structure IOBuf where
  data : Bytes
  next : List Bytes := []
deriving DecidableEq, Repr

namespace IOBuf

def buffers (b : IOBuf) : List Bytes := b.data :: b.next

/-- The bytes of the whole chain, from the named element once round the ring. -/
def bytes (b : IOBuf) : Bytes := b.buffers.flatten

def clone (b : IOBuf) : IOBuf := b

def prependChain (b iobuf : IOBuf) : IOBuf := { b with next := b.next ++ iobuf.buffers }

def cloneCoalesced (b : IOBuf) : IOBuf := ⟨b.bytes, []⟩

def copyBuffer (s : Bytes) : IOBuf := ⟨s, []⟩

@[simp] theorem clone_eq (b : IOBuf) : b.clone = b := rfl

@[simp] theorem bytes_prependChain (b c : IOBuf) : (b.prependChain c).bytes = b.bytes ++ c.bytes := by
  simp [bytes, buffers, prependChain]

@[simp] theorem bytes_cloneCoalesced (b : IOBuf) : b.cloneCoalesced.bytes = b.bytes := by
  simp [bytes, buffers, cloneCoalesced]

@[simp] theorem next_cloneCoalesced (b : IOBuf) : b.cloneCoalesced.next = [] := rfl

/-- One more chunk: appended to the chain collected so far, or the start of it. -/
def addChunk : Option IOBuf → IOBuf → Option IOBuf
  | some body, chain => some (body.prependChain chain.clone)
  | none, chain => some chain.clone

/-- The chain collected from a sequence of chunks; `none` for no chunk. -/
def concat (cs : List IOBuf) : Option IOBuf := cs.foldl addChunk none

theorem concat_append (cs : List IOBuf) (c : IOBuf) :
    concat (cs ++ [c]) = addChunk (concat cs) c := by
  simp [concat, List.foldl_append]

theorem foldl_addChunk (cs : List IOBuf) (b : IOBuf) :
    cs.foldl addChunk (some b) = some (cs.foldl prependChain b) := by
  induction cs generalizing b with
  | nil => rfl
  | cons c cs ih => exact ih (b.prependChain c)

theorem concat_eq_none {cs : List IOBuf} : concat cs = none ↔ cs = [] := by
  cases cs with
  | nil => simp [concat]
  | cons c cs => simp [concat, addChunk, foldl_addChunk]

theorem bytes_foldl_prependChain (cs : List IOBuf) (b : IOBuf) :
    (cs.foldl prependChain b).bytes = b.bytes ++ (cs.map bytes).flatten := by
  induction cs generalizing b with
  | nil => simp
  | cons c cs ih => simp [ih]

/-- Whatever the chunking, the built chain holds the chunks' bytes in order. -/
theorem bytes_concat {cs : List IOBuf} {b : IOBuf} (h : concat cs = some b) :
    b.bytes = (cs.map bytes).flatten := by
  cases cs with
  | nil => cases h
  | cons c cs =>
    simp only [concat, List.foldl_cons, addChunk, clone_eq, foldl_addChunk, Option.some.injEq] at h
    rw [← h, bytes_foldl_prependChain]
    simp

end IOBuf

end GladiusMasternode
