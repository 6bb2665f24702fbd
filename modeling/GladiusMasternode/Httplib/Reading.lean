import GladiusMasternode.Model.HttpClient
/-
# Reading off a socket

The readers of a response, by what the socket has to deliver: `getline` gives what comes up to
the next newline, `read_content_with_length` the bytes asked for if there are as many. What `recv`
gives at a time is nowhere in these, so an answer does not depend on how the network has cut it
(`process_request_of_bytes`).
-/

namespace GladiusMasternode

namespace Httplib

variable {strm : Stream} {size : Nat}

/-! ## `recv` -/

theorem read_end (h : strm.bytes = []) (n : Nat) :
    ∃ rest, strm.read n = (if strm.failed then none else some [], rest) ∧
      rest.bytes = [] ∧ rest.failed = strm.failed := by
  have happ := Pieces.recv_append n strm.pieces
  rw [show strm.pieces.flatten = [] from h, List.append_eq_nil_iff] at happ
  obtain ⟨hgot, hleft⟩ := happ
  exact ⟨{ strm with pieces := (Pieces.recv n strm.pieces).2 },
    by simp [Stream.read, hgot], hleft, rfl⟩

theorem read_some (h : strm.bytes ≠ []) {n : Nat} (hn : 0 < n) :
    ∃ b bs rest, strm.read n = (some (b :: bs), rest) ∧ (b :: bs).length ≤ n ∧
      strm.bytes = b :: bs ++ rest.bytes ∧ rest.failed = strm.failed := by
  have hne : (Pieces.recv n strm.pieces).1 ≠ [] := mt (Pieces.recv_eq_nil_iff hn).1 h
  obtain ⟨b, bs, hgot⟩ := List.exists_cons_of_ne_nil hne
  refine ⟨b, bs, { strm with pieces := (Pieces.recv n strm.pieces).2 }, ?_, ?_, ?_, rfl⟩
  · simp [Stream.read, hgot]
  · rw [← hgot]
    exact Pieces.length_recv_le n strm.pieces
  · rw [← hgot]
    exact (Pieces.recv_append n strm.pieces).symm

theorem read_byte {b : UInt8} {bs : Bytes} (h : strm.bytes = b :: bs) :
    ∃ rest, strm.read 1 = (some [b], rest) ∧ rest.bytes = bs ∧ rest.failed = strm.failed := by
  obtain ⟨c, cs, rest, hread, hlen, hbytes, hfailed⟩ :=
    @read_some strm (by rw [h]; simp) 1 Nat.one_pos
  obtain rfl : cs = [] := by simpa using hlen
  rw [h, List.singleton_append, List.cons.injEq] at hbytes
  exact ⟨rest, by rw [hread, hbytes.1], hbytes.2.symm, hfailed⟩

/-! ## `getline` -/

theorem ptr_append (c : UInt8) (b : LineBuffer size) : (b.append c).ptr = b.ptr ++ [c] := by
  unfold LineBuffer.append
  split
  · rename_i hroom
    have hempty : b.glowable_buffer_ = [] := by
      by_contra hne
      have hfull := b.grown hne
      omega
    simp [LineBuffer.ptr, hempty]
  · simp [LineBuffer.ptr]

theorem getlineLoop_line {l rest : Bytes} (hl : 10 ∉ l) :
    ∀ {strm : Stream} {turns i : Nat} {buffer : LineBuffer size}, strm.bytes = l ++ 10 :: rest →
      l.length < turns → ∃ left, getlineLoop turns i buffer strm = (some (buffer.ptr ++ l ++ [10]), left) ∧
        left.bytes = rest ∧ left.failed = strm.failed := by
  induction l with
  | nil =>
    intro strm turns i buffer h hturns
    obtain ⟨turns, rfl⟩ := Nat.exists_eq_add_of_lt hturns
    obtain ⟨left, hread, hbytes, hfailed⟩ := read_byte h
    refine ⟨left, ?_, hbytes, hfailed⟩
    simp [getlineLoop, hread, ptr_append]
  | cons b l ih =>
    intro strm turns i buffer h hturns
    rw [List.mem_cons, not_or] at hl
    obtain ⟨turns, rfl⟩ := Nat.exists_eq_add_of_lt hturns
    obtain ⟨strm', hread, hbytes, hfailed⟩ := read_byte h
    obtain ⟨left, hloop, hleft, hfailed'⟩ := @ih hl.2 strm' (l.length + 1 + turns) (i + 1)
      (buffer.append b) hbytes (by omega)
    refine ⟨left, ?_, hleft, hfailed'.trans hfailed⟩
    have hb : b ≠ 10 := Ne.symm hl.1
    rw [show (b :: l).length + turns + 1 = l.length + 1 + turns + 1 by simp]
    simp [getlineLoop, hread, hb, hloop, ptr_append]

theorem getlineLoop_end {bs : Bytes} (hbs : 10 ∉ bs) :
    ∀ {strm : Stream} {turns i : Nat} {buffer : LineBuffer size}, strm.bytes = bs →
      bs.length < turns → ∃ left, getlineLoop turns i buffer strm =
        (if strm.failed = true ∨ i = 0 ∧ bs = [] then none else some (buffer.ptr ++ bs), left) ∧
        left.bytes = [] ∧ left.failed = strm.failed := by
  induction bs with
  | nil =>
    intro strm turns i buffer h hturns
    obtain ⟨turns, rfl⟩ := Nat.exists_eq_add_of_lt hturns
    obtain ⟨left, hread, hbytes, hfailed⟩ := read_end h 1
    refine ⟨left, ?_, hbytes, hfailed⟩
    cases hf : strm.failed <;> simp [getlineLoop, hread, hf]
  | cons b bs ih =>
    intro strm turns i buffer h hturns
    rw [List.mem_cons, not_or] at hbs
    obtain ⟨turns, rfl⟩ := Nat.exists_eq_add_of_lt hturns
    obtain ⟨strm', hread, hbytes, hfailed⟩ := read_byte h
    obtain ⟨left, hloop, hleft, hfailed'⟩ := @ih hbs.2 strm' (bs.length + 1 + turns) (i + 1)
      (buffer.append b) hbytes (by omega)
    refine ⟨left, ?_, hleft, hfailed'.trans hfailed⟩
    have hb : b ≠ 10 := Ne.symm hbs.1
    rw [show (b :: bs).length + turns + 1 = bs.length + 1 + turns + 1 by simp]
    simp [getlineLoop, hread, hb, hloop, hfailed, ptr_append]

/-- A line ends with the next newline. -/
theorem getline_line {l rest : Bytes} (h : strm.bytes = l ++ 10 :: rest) (hl : 10 ∉ l) :
    ∃ left, getline size strm = (some (l ++ [10]), left) ∧ left.bytes = rest ∧
      left.failed = strm.failed := by
  have hlen : l.length < strm.bytes.length + 1 := by
    rw [h, List.length_append]
    omega
  obtain ⟨left, hloop, hleft⟩ := @getlineLoop_line size l rest hl strm _ 0 {} h hlen
  exact ⟨left, by simpa [getline, LineBuffer.ptr] using hloop, hleft⟩

/-- Without one it is all there is; there is none at the end, and before a failure. -/
theorem getline_end (h : 10 ∉ strm.bytes) :
    ∃ left, getline size strm =
        (if strm.failed = true ∨ strm.bytes = [] then none else some strm.bytes, left) ∧
      left.bytes = [] ∧ left.failed = strm.failed := by
  obtain ⟨left, hloop, hleft⟩ := @getlineLoop_end size strm.bytes h strm (strm.bytes.length + 1) 0 {}
    rfl (Nat.lt_succ_self _)
  exact ⟨left, by simpa [getline, LineBuffer.ptr] using hloop, hleft⟩

/-! ## Bodies of a known length, and up to the end -/

theorem fill_spec : ∀ {turns missing : Nat} {out : Bytes} {strm : Stream}, missing ≤ turns →
    ∃ left, fill turns missing out strm =
        (if missing ≤ strm.bytes.length then some (out ++ strm.bytes.take missing) else none, left) ∧
      (missing ≤ strm.bytes.length → left.bytes = strm.bytes.drop missing) ∧
      left.failed = strm.failed := by
  intro turns
  induction turns with
  | zero =>
    intro missing out strm hle
    obtain rfl := Nat.le_zero.1 hle
    exact ⟨strm, by simp [fill], by simp, rfl⟩
  | succ turns ih =>
    intro missing out strm hle
    cases missing with
    | zero => exact ⟨strm, by simp [fill], by simp, rfl⟩
    | succ missing =>
      by_cases hend : strm.bytes = []
      · obtain ⟨left, hread, -, hfailed⟩ := read_end hend (missing + 1)
        refine ⟨left, ?_, by simp [hend], hfailed⟩
        cases hf : strm.failed <;> simp [fill, hread, hf, hend]
      · obtain ⟨b, bs, strm', hread, hlen, hbytes, hfailed⟩ := read_some hend (Nat.succ_pos missing)
        obtain ⟨left, hfill, hleft, hfailed'⟩ := @ih (missing + 1 - (b :: bs).length)
          (out ++ b :: bs) strm' (by simp at hlen ⊢; omega)
        have htotal : strm.bytes.length = (b :: bs).length + strm'.bytes.length := by
          rw [hbytes, List.length_append]
        refine ⟨left, ?_, fun hall => ?_, hfailed'.trans hfailed⟩
        · rw [fill, hread]
          dsimp only
          rw [hfill]
          by_cases hall : missing + 1 ≤ strm.bytes.length
          · rw [if_pos hall, if_pos (by omega), hbytes, List.take_append, List.take_of_length_le hlen]
            simp
          · rw [if_neg hall, if_neg (by omega)]
        · rw [hleft (by omega), hbytes, List.drop_append, List.drop_of_length_le hlen]
          simp

theorem read_content_with_length_spec (len : Nat) (strm : Stream) :
    ∃ left, read_content_with_length len strm =
        (if len ≤ strm.bytes.length then some (strm.bytes.take len) else none, left) ∧
      (len ≤ strm.bytes.length → left.bytes = strm.bytes.drop len) ∧ left.failed = strm.failed := by
  obtain ⟨left, hfill, hleft⟩ := @fill_spec len len [] strm (Nat.le_refl len)
  exact ⟨left, by simpa [read_content_with_length] using hfill, hleft⟩

theorem untilEnd_spec {bs : Bytes} : ∀ {strm : Stream} {turns : Nat} {out : Bytes},
    strm.bytes = bs → bs.length < turns →
      untilEnd turns out strm = if strm.failed then .dropped else .body (out ++ bs) := by
  induction bs with
  | nil =>
    intro strm turns out h hturns
    obtain ⟨turns, rfl⟩ := Nat.exists_eq_add_of_lt hturns
    obtain ⟨left, hread, -, -⟩ := read_end h 1
    cases hf : strm.failed <;> simp [untilEnd, hread, hf]
  | cons b bs ih =>
    intro strm turns out h hturns
    obtain ⟨turns, rfl⟩ := Nat.exists_eq_add_of_lt hturns
    obtain ⟨strm', hread, hbytes, hfailed⟩ := read_byte h
    have hrest := @ih strm' (bs.length + 1 + turns) (out ++ [b]) hbytes (by omega)
    rw [show (b :: bs).length + turns + 1 = bs.length + 1 + turns + 1 by simp, untilEnd, hread]
    dsimp only
    rw [hrest, hfailed, List.append_assoc, List.singleton_append]

theorem read_content_without_length_spec (strm : Stream) :
    read_content_without_length strm = if strm.failed then .dropped else .body strm.bytes :=
  untilEnd_spec rfl (Nat.lt_succ_self _)

/-! ## However the stream is cut -/

section
variable {s t : Stream}

/-- The sockets deliver the same bytes, and end the same way. -/
def Same (s t : Stream) : Prop := s.bytes = t.bytes ∧ s.failed = t.failed

theorem same_getline (size : Nat) (h : Same s t) : ∃ line u v,
    getline size s = (line, u) ∧ getline size t = (line, v) ∧ Same u v := by
  obtain ⟨hbytes, hfailed⟩ := h
  by_cases hline : 10 ∈ s.bytes
  · obtain ⟨l, rest, hs, hl⟩ := List.eq_append_cons_of_mem hline
    obtain ⟨u, hu, hub, huf⟩ := @getline_line s size l rest hs hl
    obtain ⟨v, hv, hvb, hvf⟩ := @getline_line t size l rest (hbytes.symm.trans hs) hl
    exact ⟨_, u, v, hu, hv, hub.trans hvb.symm, by rw [huf, hvf, hfailed]⟩
  · obtain ⟨u, hu, hub, huf⟩ := @getline_end s size hline
    obtain ⟨v, hv, hvb, hvf⟩ := @getline_end t size (by rwa [← hbytes])
    rw [← hbytes, ← hfailed] at hv
    exact ⟨_, u, v, hu, hv, hub.trans hvb.symm, by rw [huf, hvf, hfailed]⟩

theorem same_read_content_with_length (len : Nat) (h : Same s t) : ∃ got u v,
    read_content_with_length len s = (got, u) ∧ read_content_with_length len t = (got, v) ∧
      (got ≠ none → Same u v) := by
  obtain ⟨hbytes, hfailed⟩ := h
  obtain ⟨u, hu, hub, huf⟩ := read_content_with_length_spec len s
  obtain ⟨v, hv, hvb, hvf⟩ := read_content_with_length_spec len t
  rw [← hbytes] at hv hvb
  refine ⟨_, u, v, hu, hv, fun hsome => ⟨?_, by rw [huf, hvf, hfailed]⟩⟩
  have hall : len ≤ s.bytes.length := by
    by_contra hshort
    exact hsome (if_neg hshort)
  rw [hub hall, hvb hall]

theorem chunks_of_same : ∀ {turns : Nat} {chunk_len : Int} {out : Bytes} {s t : Stream}, Same s t →
    chunks turns chunk_len out s = chunks turns chunk_len out t := by
  intro turns
  induction turns with
  | zero => intros; rfl
  | succ turns ih =>
    intro chunk_len out s t h
    rw [chunks, chunks]
    by_cases hpos : chunk_len > 0
    · obtain ⟨got, u, v, hu, hv, hsame⟩ := same_read_content_with_length chunk_len.toNat h
      simp only [if_pos hpos, hu, hv]
      cases got with
      | none => rfl
      | some chunk =>
        obtain ⟨line, u', v', hu', hv', hsame'⟩ := same_getline bufsiz (hsame (by simp))
        simp only [hu', hv']
        cases line with
        | none => rfl
        | some line =>
          obtain ⟨next, u'', v'', hu'', hv'', hsame''⟩ := same_getline bufsiz hsame'
          simp only [hu'', hv'']
          cases isCRLF line with
          | false => rfl
          | true =>
            cases next with
            | none => rfl
            | some next =>
              simp only [if_true]
              cases stoi 16 next with
              | none => rfl
              | some chunk_len => exact ih hsame''
    · obtain ⟨line, u, v, hu, hv, -⟩ := same_getline bufsiz h
      simp only [if_neg hpos, hu, hv]
      cases line <;> rfl

theorem read_content_chunked_of_same (h : Same s t) :
    read_content_chunked s = read_content_chunked t := by
  obtain ⟨line, u, v, hu, hv, hsame⟩ := same_getline bufsiz h
  unfold read_content_chunked
  rw [hu, hv, h.1]
  cases line with
  | none => rfl
  | some line =>
    dsimp only
    cases stoi 16 line with
    | none => rfl
    | some chunk_len => exact chunks_of_same hsame

theorem read_content_of_same (headers : HTTPHeaders) (h : Same s t) :
    read_content headers s = read_content headers t := by
  unfold read_content
  rw [read_content_chunked_of_same h]
  cases get_header_value headers "Content-Length" with
  | none =>
    dsimp only
    rw [read_content_without_length_spec, read_content_without_length_spec, h.1, h.2]
  | some value =>
    dsimp only
    cases stoi 10 value.toUTF8.data.toList with
    | none => rfl
    | some len =>
      obtain ⟨got, u, v, hu, hv, -⟩ := same_read_content_with_length len.toNat h
      simp only [hu, hv]
      cases got <;> rfl

theorem received_of_same (status : Nat) (headers : HTTPHeaders) (h : Same s t) :
    received status headers s = received status headers t := by
  unfold received
  rw [read_content_of_same headers h]

theorem headersLoop_of_same : ∀ {turns : Nat} {headers : HTTPHeaders} {s t : Stream}, Same s t →
    ∃ got u v, headersLoop turns headers s = (got, u) ∧ headersLoop turns headers t = (got, v) ∧
      Same u v := by
  intro turns
  induction turns with
  | zero => exact fun h => ⟨none, _, _, rfl, rfl, h⟩
  | succ turns ih =>
    intro headers s t h
    obtain ⟨line, u, v, hu, hv, hsame⟩ := same_getline 2048 h
    simp only [headersLoop, hu, hv]
    cases line with
    | none => exact ⟨none, u, v, rfl, rfl, hsame⟩
    | some line =>
      dsimp only
      cases isCRLF line with
      | true => exact ⟨some headers, u, v, rfl, rfl, hsame⟩
      | false =>
        cases headerPattern (cstr line) with
        | none => exact ih hsame
        | some x => exact ih hsame

theorem read_response_line_of_same (h : Same s t) : ∃ got u v,
    read_response_line s = (got, u) ∧ read_response_line t = (got, v) ∧ Same u v := by
  obtain ⟨line, u, v, hu, hv, hsame⟩ := same_getline 2048 h
  unfold read_response_line
  rw [hu, hv]
  cases line with
  | none => exact ⟨none, u, v, rfl, rfl, hsame⟩
  | some line =>
    dsimp only
    cases statusPattern (cstr line) with
    | none => exact ⟨_, u, v, rfl, rfl, hsame⟩
    | some digits => exact ⟨_, u, v, rfl, rfl, hsame⟩

/-- **However the stream is cut.** What `Get` returns does not depend on the pieces in which the
network delivers the answer, however its body is framed and whether it is whole, cut off or malformed. -/
theorem process_request_of_bytes (failed : Bool) {pieces pieces' : List Bytes}
    (h : pieces.flatten = pieces'.flatten) :
    process_request ⟨pieces, failed⟩ = process_request ⟨pieces', failed⟩ := by
  have hsame : Same ⟨pieces, failed⟩ ⟨pieces', failed⟩ := ⟨h, rfl⟩
  obtain ⟨status, u, v, hu, hv, hline⟩ := read_response_line_of_same hsame
  unfold process_request
  rw [hu, hv]
  cases status with
  | none => rfl
  | some status =>
    obtain ⟨headers, u', v', hu', hv', hbody⟩ :=
      @headersLoop_of_same (u.bytes.length + 1) [] u v hline
    have hv'' : read_headers v = (headers, v') := by rw [read_headers, ← hline.1, hv']
    dsimp only
    rw [read_headers, hu', hv'']
    cases headers with
    | none => rfl
    | some headers => exact received_of_same _ headers hbody

/-- An answer of one header and a chunked "abc", in two pieces and in one. -/
theorem process_request_of_bytes_abc :
    let head := write_response_line 200 ++ write_headers [(ascii "Transfer-Encoding", ascii "chunked")]
    process_request ⟨[head ++ [51, 13], [10, 97, 98, 99, 13, 10, 48, 13, 10, 13, 10]], false⟩ =
      process_request ⟨[head ++ [51, 13, 10, 97, 98, 99, 13, 10, 48, 13, 10, 13, 10]], false⟩ :=
  process_request_of_bytes false (by simp)

end

end Httplib

end GladiusMasternode
