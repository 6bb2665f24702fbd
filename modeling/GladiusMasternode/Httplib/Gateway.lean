import GladiusMasternode.Httplib.Head
import GladiusMasternode.Network.LastPoll
/-
# The gateway's answer, whole and cut off

What `Get` returns when the connection breaks while the answer comes in. The bytes then are a prefix of
what was sent; all that can pass for an answer is a chunked body that ends between the two bytes
behind a chunk (`process_request_cut_iff`). No such text is JSON, so a poll takes over the whole answer
or nothing of it (`poll_all_or_nothing`).
-/

namespace GladiusMasternode

namespace Httplib

/-- The two ways in which a body is sent: in chunks, or behind its length. -/
inductive Frames (headers : HTTPHeaders) : Bytes → Bytes → Prop where
  | chunked {cs : List Bytes} (hlength : get_header_value headers "Content-Length" = none)
      (hchunked : isChunked headers = true) (hcs : Sendable cs) :
      Frames headers (write_chunks cs) cs.flatten
  | length {body : Bytes}
      (hlength : get_header_value headers "Content-Length" = some (toString body.length))
      (hsmall : body.length < 2 ^ 31) (hempty : body ≠ [] ∨ isChunked headers = false) :
      Frames headers body body

variable {headers : HTTPHeaders} {wire body rest o : Bytes} {strm : Stream} {pieces : List Bytes}

theorem read_content_of_chunked (hlength : get_header_value headers "Content-Length" = none)
    (hchunked : isChunked headers = true) (strm : Stream) :
    read_content headers strm = read_content_chunked strm := by
  simp [read_content, hlength, hchunked]

theorem read_content_of_length {n : Nat}
    (hlength : get_header_value headers "Content-Length" = some (toString n)) (hsmall : n < 2 ^ 31)
    (hempty : n ≠ 0 ∨ isChunked headers = false) (strm : Stream) :
    read_content headers strm =
      if n ≤ strm.bytes.length then .body (strm.bytes.take n) else .dropped := by
  obtain ⟨left, hread, -⟩ := read_content_with_length_spec n strm
  have hplain : ¬((n : Int) = 0 && isChunked headers) = true := by
    rcases hempty with hn | hplain
    · simp [hn]
    · simp [hplain]
  have hpos : ¬((n : Int) < 0) := by omega
  simp only [read_content, hlength, stoi_toString hsmall, if_neg hplain, if_neg hpos,
    Int.toNat_natCast, hread]
  by_cases hall : n ≤ strm.bytes.length
  · simp [hall]
  · simp [hall]

theorem read_content_whole (h : Frames headers wire body) (hbytes : strm.bytes = wire ++ rest) :
    read_content headers strm = .body body := by
  cases h with
  | chunked hlength hchunked hcs =>
    rw [read_content_of_chunked hlength hchunked, read_content_chunked_whole hcs hbytes]
  | length hlength hsmall hempty =>
    have hempty' : wire.length ≠ 0 ∨ isChunked headers = false := by simpa using hempty
    rw [read_content_of_length hlength hsmall hempty', hbytes, if_pos (by simp), List.take_left]

theorem read_content_cut_iff (strm : Stream) (h : Frames headers wire body)
    (hcut : strm.bytes <+: wire) (hne : strm.bytes ≠ wire) : read_content headers strm = .body o ↔
      strm.failed = false ∧ get_header_value headers "Content-Length" = none ∧
        ∃ cs, Sendable cs ∧ wire = write_chunks cs ∧ LosesChunk cs strm.bytes o := by
  cases h with
  | @chunked cs hlength hchunked hcs =>
    rw [read_content_of_chunked hlength hchunked]
    constructor
    · intro hbody
      obtain ⟨hf, hloses⟩ := (read_content_chunked_cut_iff hcs hcut hne).1 hbody
      exact ⟨hf, hlength, cs, hcs, rfl, hloses⟩
    · rintro ⟨hf, -, cs', hcs', heq, hloses⟩
      rw [heq] at hcut hne
      exact (read_content_chunked_cut_iff hcs' hcut hne).2 ⟨hf, hloses⟩
  | length hlength hsmall hempty =>
    have hempty' : wire.length ≠ 0 ∨ isChunked headers = false := by simpa using hempty
    have hshort : ¬wire.length ≤ strm.bytes.length := fun hle => hne (hcut.eq_of_length_le hle)
    rw [read_content_of_length hlength hsmall hempty', if_neg hshort]
    simp [hlength]

/-- Not compressed: a gzipped answer is dropped, since the library is built without zlib. -/
def Plain (headers : HTTPHeaders) : Prop :=
  (get_header_value headers "Content-Encoding").getD "" ≠ "gzip"

instance (headers : HTTPHeaders) : Decidable (Plain headers) := inferInstanceAs (Decidable (_ ≠ _))

theorem received_some_iff {status : Nat} {r : HttpResult} (hplain : Plain headers) :
    received status headers strm = some r ↔
      ∃ out, read_content headers strm = .body out ∧ r = ⟨status, text out⟩ := by
  unfold received
  cases read_content headers strm with
  | body out =>
    dsimp only
    rw [if_neg hplain]
    simp [eq_comm]
  | dropped => simp
  | threw => simp

theorem LosesChunk.shorter {cs : List Bytes} {p : Bytes} (hcs : Sendable cs)
    (h : LosesChunk cs p o) : o <+: cs.flatten ∧ o ≠ cs.flatten := by
  obtain ⟨before, c, after, rfl, rfl, -⟩ := h
  have hc : c ≠ [] := (hcs c (by simp)).1
  simp [hc]

theorem read_content_shorter (strm : Stream) (h : Frames headers wire body)
    (hcut : strm.bytes <+: wire) (hne : strm.bytes ≠ wire) (hbody : read_content headers strm = .body o) :
    o <+: body ∧ o ≠ body := by
  cases h with
  | chunked hlength hchunked hcs =>
    rw [read_content_of_chunked hlength hchunked] at hbody
    exact ((read_content_chunked_cut_iff hcs hcut hne).1 hbody).2.shorter hcs
  | length hlength hsmall hempty =>
    obtain ⟨-, hnone, -⟩ := (read_content_cut_iff strm (.length hlength hsmall hempty) hcut hne).1 hbody
    simp [hnone] at hlength

/-! ## Answers -/

/-- An answer as it is sent. -/
structure Answer where
  status : Nat
  headers : List (Bytes × Bytes)
  wire : Bytes
  body : Bytes
  status_lt : status < 2 ^ 31
  writable : ∀ x ∈ headers, Writable x
  frames : Frames (texts headers) wire body
  plain : Plain (texts headers)

namespace Answer

variable {a : Answer}

def bytes (a : Answer) : Bytes := write_head a.status a.headers ++ a.wire

/-- It is cut off in the head or in the body. -/
theorem process_request_cases (a : Answer) (strm : Stream) (hcut : strm.bytes <+: a.bytes)
    (hne : strm.bytes ≠ a.bytes) :
    process_request strm = none ∧ ¬write_head a.status a.headers <+: strm.bytes ∨
      ∃ left, process_request strm = received a.status (texts a.headers) left ∧
        strm.bytes = write_head a.status a.headers ++ left.bytes ∧ left.failed = strm.failed ∧
          left.bytes <+: a.wire ∧ left.bytes ≠ a.wire := by
  by_cases hhead : write_head a.status a.headers <+: strm.bytes
  · obtain ⟨p, hp⟩ := hhead
    obtain ⟨left, hreq, rfl, hfailed⟩ := process_request_head a.status_lt a.writable hp.symm
    rw [bytes, ← hp, List.prefix_append_right_inj] at hcut
    refine Or.inr ⟨left, hreq, hp.symm, hfailed, hcut, ?_⟩
    intro heq
    exact hne (by rw [bytes, ← hp, heq])
  · have hbegin : strm.bytes <+: write_head a.status a.headers :=
      (List.prefix_or_prefix_of_prefix hcut (List.prefix_append _ _)).resolve_right hhead
    have hne' : strm.bytes ≠ write_head a.status a.headers := by
      intro heq
      exact hhead (heq ▸ List.prefix_refl _)
    exact Or.inl ⟨process_request_cut_head a.status_lt a.writable hbegin hne', hhead⟩

theorem process_request_of_whole (a : Answer) {strm : Stream} (h : strm.bytes = a.bytes ++ rest) :
    process_request strm = some ⟨a.status, text a.body⟩ := by
  rw [bytes, List.append_assoc] at h
  obtain ⟨left, hhead, hleft, -⟩ := process_request_head a.status_lt a.writable h
  rw [hhead]
  exact (received_some_iff a.plain).2 ⟨a.body, read_content_whole a.frames hleft, rfl⟩

/-- **An answer arrives.** Whatever is sent, in chunks or behind its length, `Get` returns its status and
its body as they were sent, in whatever pieces they come and whatever comes behind them. -/
theorem process_request_whole (a : Answer) (failed : Bool) (h : pieces.flatten = a.bytes ++ rest) :
    process_request ⟨pieces, failed⟩ = some ⟨a.status, text a.body⟩ :=
  a.process_request_of_whole h

/-- **An answer is cut off.** `Get` drops it, except where a chunked body ends behind the carriage
return of a chunk and the connection is closed without an error: it then returns the chunks in front
of that one. -/
theorem process_request_cut_iff (a : Answer) (failed : Bool) (hcut : pieces.flatten <+: a.bytes)
    (hne : pieces.flatten ≠ a.bytes) (r : HttpResult) :
    process_request ⟨pieces, failed⟩ = some r ↔
      failed = false ∧ get_header_value (texts a.headers) "Content-Length" = none ∧
        ∃ cs p o, Sendable cs ∧ a.wire = write_chunks cs ∧
          pieces.flatten = write_head a.status a.headers ++ p ∧ LosesChunk cs p o ∧
            r = ⟨a.status, text o⟩ := by
  rcases a.process_request_cases ⟨pieces, failed⟩ hcut hne with
    ⟨hnone, hhead⟩ | ⟨left, hreq, hp, hfailed, hcut', hne'⟩
  · rw [hnone]
    constructor
    · rintro ⟨⟩
    · rintro ⟨-, -, cs, p, o, -, -, hp, -⟩
      exact absurd ⟨p, hp.symm⟩ hhead
  · rw [hreq, received_some_iff a.plain]
    constructor
    · rintro ⟨o, hbody, rfl⟩
      obtain ⟨hf, hlength, cs, hcs, hwire, hloses⟩ :=
        (read_content_cut_iff left a.frames hcut' hne').1 hbody
      exact ⟨hfailed.symm.trans hf, hlength, cs, left.bytes, o, hcs, hwire, hp, hloses, rfl⟩
    · rintro ⟨hf, hlength, cs, p, o, hcs, hwire, hp', hloses, rfl⟩
      obtain rfl : left.bytes = p := List.append_cancel_left (hp.symm.trans hp')
      exact ⟨o, (read_content_cut_iff left a.frames hcut' hne').2
        ⟨hfailed.trans hf, hlength, cs, hcs, hwire, hloses⟩, rfl⟩

end Answer

/-! ## An answer in two chunks -/

def twoChunks : List Bytes := [(ascii Scenario.emptyBody).take 13, (ascii Scenario.emptyBody).drop 13]

theorem sendable_twoChunks : Sendable twoChunks := by
  unfold Sendable
  decide +kernel

/-- An answer with no node in it. -/
def noNodes : Answer where
  status := 200
  headers := [(ascii "Server", ascii "a b"), (ascii "Transfer-Encoding", ascii "chunked")]
  wire := write_chunks twoChunks
  body := twoChunks.flatten
  status_lt := by decide
  writable := by
    intro x hx
    rcases List.mem_cons.1 hx with rfl | hx
    · constructor <;> decide +kernel
    · rw [List.mem_singleton.1 hx]
      constructor <;> decide +kernel
  frames := .chunked (by decide +kernel) (by decide +kernel) sendable_twoChunks
  plain := by decide +kernel

/-- The newline behind the second chunk and all after it are missing. -/
def noNodesCut : Bytes :=
  write_head noNodes.status noNodes.headers ++ (write_chunks twoChunks).take 45

theorem process_request_whole_no_nodes :
    process_request ⟨[noNodes.bytes, [72]], false⟩ = some ⟨200, text twoChunks.flatten⟩ :=
  @Answer.process_request_whole [72] [noNodes.bytes, [72]] noNodes false (by simp)

theorem process_request_cut_iff_no_nodes :
    process_request ⟨[noNodesCut], false⟩ = some ⟨200, text ((ascii Scenario.emptyBody).take 13)⟩ := by
  refine (noNodes.process_request_cut_iff false (by decide +kernel) (by decide +kernel) _).2
    ⟨rfl, by decide +kernel, twoChunks, (write_chunks twoChunks).take 45, _, sendable_twoChunks, rfl,
      by decide +kernel, ⟨[(ascii Scenario.emptyBody).take 13], _, [], rfl, rfl, by decide +kernel⟩, ?_⟩
  simp [noNodes]

end Httplib

namespace NetworkState

open Httplib

variable {R : Type} [Field R] {pieces : List Bytes}

/-- **All or nothing.** A poll takes over the whole of the gateway's answer, or leaves the state as it
is: also where `Get` returns the beginning of an answer that is cut off, since that is not JSON. -/
theorem poll_all_or_nothing (lib : Libs R) (st : NetworkState R) (a : Answer) (failed : Bool)
    (time : Int) (hcut : pieces.flatten <+: a.bytes)
    (hjson : ∀ p, p <+: a.body → p ≠ a.body → lib.parseJson (text p) = none) :
    st.poll lib (process_request ⟨pieces, failed⟩) time =
      if pieces.flatten = a.bytes then st.poll lib (some ⟨a.status, text a.body⟩) time else st := by
  by_cases hwhole : pieces.flatten = a.bytes
  · have hbytes : pieces.flatten = a.bytes ++ [] := by rw [hwhole, List.append_nil]
    rw [if_pos hwhole, @Answer.process_request_of_whole [] a ⟨pieces, failed⟩ hbytes]
  · rw [if_neg hwhole]
    rcases a.process_request_cases ⟨pieces, failed⟩ hcut hwhole with
      ⟨hnone, -⟩ | ⟨left, hreq, -, -, hcut', hne'⟩
    · rw [hnone]
      rfl
    · rw [hreq]
      cases hres : received a.status (texts a.headers) left with
      | none => rfl
      | some r =>
        obtain ⟨o, hbody, rfl⟩ := (received_some_iff a.plain).1 hres
        obtain ⟨hbegin, hne⟩ := read_content_shorter left a.frames hcut' hne' hbody
        have hbad : goodEntries lib ⟨some ⟨a.status, text o⟩, time⟩ = none := by
          simp [goodEntries, nodeDataMap, hjson o hbegin hne]
        exact poll_of_bad hbad

/-- A state with one node. -/
def oneNodeState : NetworkState ℚ :=
  (new {} false none).setEdgeNodes [EdgeNode.new "127.0.0.1" 8080 "0xab" 100]

def emptyLib : Libs ℚ :=
  { Scenario.lib with
    parseJson := fun body => if body = Scenario.emptyBody then some Scenario.emptyJson else none }

theorem parseJson_cut {p : Bytes} (hp : p <+: noNodes.body) (hne : p ≠ noNodes.body) :
    emptyLib.parseJson (text p) = none := by
  have hlt : (text p).length < 35 := by
    have hle : p.length < noNodes.body.length := by
      by_contra hge
      exact hne (hp.eq_of_length_le (Nat.le_of_not_lt hge))
    rw [show (text p).length = p.length by simp [text]]
    exact hle.trans_le (by decide +kernel)
  have hempty : text p ≠ Scenario.emptyBody := by
    intro heq
    rw [heq] at hlt
    revert hlt
    decide +kernel
  simp [emptyLib, hempty]

theorem poll_all_or_nothing_no_nodes :
    oneNodeState.poll emptyLib (process_request ⟨[noNodesCut], false⟩) 160 = oneNodeState ∧
      (oneNodeState.poll emptyLib (process_request ⟨[noNodes.bytes], false⟩) 160).edgeNodes_ = [] := by
  constructor
  · rw [poll_all_or_nothing emptyLib oneNodeState noNodes false 160 (by decide +kernel)
      fun p => parseJson_cut]
    exact if_neg (by decide +kernel)
  · rw [poll_all_or_nothing emptyLib oneNodeState noNodes false 160 (by decide +kernel)
      fun p => parseJson_cut, if_pos (by decide +kernel)]
    decide +kernel

end NetworkState

end GladiusMasternode
