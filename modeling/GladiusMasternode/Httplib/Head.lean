import GladiusMasternode.Httplib.Chunked
/-
# Status lines and headers

What the library's own writer makes of a status and headers is read back. A response that ends before
the blank line has no headers for the client: the last `getline` has nothing to give.
-/

namespace GladiusMasternode

namespace Httplib

variable {strm : Stream} {turns status : Nat} {rest line : Bytes} {headers : HTTPHeaders}

/-! ## One header -/

/-- A header that can be written on one line: `%s` stops at a NUL, and the patterns trim the value. -/
structure Writable (x : Bytes × Bytes) : Prop where
  key_ne : x.1 ≠ []
  key : ∀ b ∈ x.1, isAny b = true ∧ b ≠ 58 ∧ b ≠ 0
  val_ne : x.2 ≠ []
  val : ∀ b ∈ x.2, isAny b = true ∧ b ≠ 0
  first : ∀ b ∈ x.2.head?, isspace b = false
  last : ∀ b ∈ x.2.getLast?, isspace b = false

theorem ne_of_isAny {b : UInt8} (h : isAny b = true) : b ≠ 10 ∧ b ≠ 13 := by simpa [isAny] using h

theorem crlf_eq_none (h : line ≠ [13, 10]) : Pattern.literal [13, 10] Pattern.done line = none := by
  rcases line with _ | ⟨a, _ | ⟨b, _ | ⟨c, line⟩⟩⟩
  · rfl
  · simp [Pattern.literal, Pattern.one]
  · simp only [ne_eq, List.cons.injEq, and_true, not_and] at h
    by_cases ha : a = 13
    · simp [Pattern.literal, Pattern.one, ha, h ha]
    · simp [Pattern.literal, Pattern.one, ha]
  · simp [Pattern.literal, Pattern.one, Pattern.done]

/-- `(.+?)\s*\r\n` -/
def valuePattern : Bytes → Option (Bytes × Bytes × Unit) :=
  Pattern.some1 isAny Pattern.few (Pattern.many isspace (Pattern.literal [13, 10] Pattern.done))

/-- `:\s*(.+?)\s*\r\n` -/
def behindKey : Bytes → Option (Bytes × Bytes × Bytes × Unit) :=
  Pattern.one (· == 58) (Pattern.many isspace valuePattern)

theorem crlf_eq_some : Pattern.literal [13, 10] Pattern.done ([13, 10] : Bytes) = some () := by decide

theorem valuePattern_eq {val : Bytes} (hne : val ≠ []) (hval : ∀ b ∈ val, isAny b = true)
    (hlast : ∀ b ∈ val.getLast?, isspace b = false) :
    valuePattern (val ++ [13, 10]) = some (val, [], ()) := by
  apply Pattern.some1_few_eq_some hne hval (by decide)
  rintro less rest rfl hrest
  rw [Pattern.many_eq_none_iff]
  intro pre post heq hpre
  apply crlf_eq_none
  rintro rfl
  -- what is left of the value would be blank, but it ends as the value does
  obtain rfl : rest = pre := List.append_cancel_right heq
  obtain ⟨b, hb⟩ := Option.isSome_iff_exists.1 (List.getLast?_isSome.2 hrest)
  have hspace := hpre b (List.mem_of_getLast? hb)
  rw [hlast b (by simp [List.getLast?_append, hb])] at hspace
  cases hspace

theorem behindKey_eq {x : Bytes × Bytes} (hx : Writable x) :
    behindKey ([58, 32] ++ x.2 ++ [13, 10]) = some ([32], x.2, [], ()) := by
  have hvalue := valuePattern_eq hx.val_ne (fun b hb => (hx.val b hb).1) hx.last
  have hspaces : Pattern.many isspace valuePattern ([32] ++ (x.2 ++ [13, 10])) =
      some ([32], x.2, [], ()) := by
    apply Pattern.many_eq_some (List.forall_mem_singleton.2 rfl) hvalue
    intro more rest heq hmore hall
    obtain ⟨b, more, rfl⟩ := List.exists_cons_of_ne_nil hmore
    obtain ⟨c, val, hval⟩ := List.exists_cons_of_ne_nil hx.val_ne
    rw [hval] at heq
    obtain ⟨rfl, -⟩ := List.cons.inj heq
    have hspace := hall c List.mem_cons_self
    rw [hx.first c (by simp [hval])] at hspace
    cases hspace
  simpa [behindKey, Pattern.one] using hspaces

theorem headerPattern_eq {x : Bytes × Bytes} (hx : Writable x) :
    headerPattern (x.1 ++ ([58, 32] ++ x.2 ++ [13, 10])) = some x := by
  have hkey : Pattern.some1 isAny Pattern.few behindKey (x.1 ++ ([58, 32] ++ x.2 ++ [13, 10])) =
      some (x.1, [32], x.2, [], ()) := by
    apply Pattern.some1_few_eq_some hx.key_ne (fun b hb => (hx.key b hb).1) (behindKey_eq hx)
    intro less rest heq hrest
    obtain ⟨b, rest, rfl⟩ := List.exists_cons_of_ne_nil hrest
    have hb : b ≠ 58 := (hx.key b (by simp [heq])).2.1
    simp [behindKey, Pattern.one, hb]
  rw [headerPattern, show Pattern.some1 isAny Pattern.few (Pattern.one (· == 58) (Pattern.many isspace
    (Pattern.some1 isAny Pattern.few (Pattern.many isspace (Pattern.literal [13, 10]
      Pattern.done))))) = Pattern.some1 isAny Pattern.few behindKey from rfl, hkey]
  rfl

/-! ## All headers -/

def headerLine (x : Bytes × Bytes) : Bytes := x.1 ++ [58, 32] ++ x.2 ++ [13]

theorem write_headers_cons (x : Bytes × Bytes) (hs : List (Bytes × Bytes)) :
    write_headers (x :: hs) = headerLine x ++ 10 :: write_headers hs := by
  simp [write_headers, headerLine]

theorem Writable.not_mem {x : Bytes × Bytes} (hx : Writable x) :
    10 ∉ headerLine x ∧ 0 ∉ headerLine x := by
  have hkey : 10 ∉ x.1 ∧ 0 ∉ x.1 :=
    ⟨fun hmem => (ne_of_isAny (hx.key 10 hmem).1).1 rfl, fun hmem => (hx.key 0 hmem).2.2 rfl⟩
  have hval : 10 ∉ x.2 ∧ 0 ∉ x.2 :=
    ⟨fun hmem => (ne_of_isAny (hx.val 10 hmem).1).1 rfl, fun hmem => (hx.val 0 hmem).2 rfl⟩
  simp [headerLine, hkey, hval]

/-- The names and values as the client has them. -/
def texts (hs : List (Bytes × Bytes)) : HTTPHeaders := hs.map fun x => (text x.1, text x.2)

theorem headersLoop_line {x : Bytes × Bytes} (hx : Writable x)
    (h : strm.bytes = headerLine x ++ 10 :: rest) :
    ∃ left, headersLoop (turns + 1) headers strm = headersLoop turns (headers ++ texts [x]) left ∧
      left.bytes = rest ∧ left.failed = strm.failed := by
  obtain ⟨left, hget, hleft⟩ := @getline_line strm 2048 _ _ h hx.not_mem.1
  have hline : headerLine x ++ [10] = x.1 ++ ([58, 32] ++ x.2 ++ [13, 10]) := by simp [headerLine]
  have hcstr : cstr (headerLine x ++ [10]) = headerLine x ++ [10] := by
    apply cstr_of_not_mem
    simp [hx.not_mem.2]
  have hcrlf : isCRLF (headerLine x ++ [10]) = false := by
    obtain ⟨b, key, hkey⟩ := List.exists_cons_of_ne_nil hx.key_ne
    have hb : b ≠ 13 := (ne_of_isAny (hx.key b (by simp [hkey])).1).2
    rw [isCRLF, hcstr, hline, hkey]
    simp [hb]
  refine ⟨left, ?_, hleft⟩
  simp only [headersLoop, hget, hcrlf, hcstr]
  rw [hline, headerPattern_eq hx]
  rfl

theorem headersLoop_end (h : strm.bytes = [13] ++ 10 :: rest) :
    ∃ left, headersLoop (turns + 1) headers strm = (some headers, left) ∧ left.bytes = rest ∧
      left.failed = strm.failed := by
  obtain ⟨left, hget, hleft⟩ := @getline_line strm 2048 [13] rest h (by decide)
  exact ⟨left, by simp [headersLoop, hget, show isCRLF [13, 10] = true from by decide], hleft⟩

theorem headersLoop_nil (h : strm.bytes = []) : (headersLoop turns headers strm).1 = none := by
  cases turns with
  | zero => rfl
  | succ turns =>
    obtain ⟨left, hget, -⟩ := @getline_end strm 2048 (by simp [h])
    simp [headersLoop, hget, h]

theorem headersLoop_cut (h : 10 ∉ strm.bytes) : (headersLoop turns headers strm).1 = none := by
  cases turns with
  | zero => rfl
  | succ turns =>
    obtain ⟨left, hget, hleft, -⟩ := @getline_end strm 2048 h
    by_cases hend : strm.failed = true ∨ strm.bytes = []
    · simp [headersLoop, hget, hend]
    · rw [if_neg hend] at hget
      have hcrlf : isCRLF strm.bytes = false := by
        have hne : cstr strm.bytes ≠ [13, 10] := by
          intro heq
          exact h (List.takeWhile_subset _ (by rw [show strm.bytes.takeWhile _ = _ from heq]; simp))
        simpa [isCRLF] using hne
      simp only [headersLoop, hget, hcrlf]
      cases headerPattern (cstr strm.bytes) with
      | none => exact headersLoop_nil hleft
      | some x => exact headersLoop_nil hleft

theorem headersLoop_whole {hs : List (Bytes × Bytes)} (hhs : ∀ x ∈ hs, Writable x) :
    ∀ {turns : Nat} {headers : HTTPHeaders} {strm : Stream}, strm.bytes.length < turns →
      strm.bytes = write_headers hs ++ rest → ∃ left,
        headersLoop turns headers strm = (some (headers ++ texts hs), left) ∧ left.bytes = rest ∧
          left.failed = strm.failed := by
  induction hs with
  | nil =>
    intro turns headers strm hturns h
    obtain ⟨turns, rfl⟩ := Nat.exists_eq_add_of_lt hturns
    obtain ⟨left, hloop, hleft⟩ := @headersLoop_end strm (strm.bytes.length + turns) rest headers h
    exact ⟨left, by simpa [texts] using hloop, hleft⟩
  | cons x hs ih =>
    intro turns headers strm hturns h
    obtain ⟨hx, hhs⟩ := List.forall_mem_cons.1 hhs
    obtain ⟨turns, rfl⟩ := Nat.exists_eq_add_of_lt hturns
    rw [write_headers_cons, List.append_assoc, List.cons_append] at h
    obtain ⟨strm', hline, hbytes, hfailed⟩ :=
      @headersLoop_line strm (strm.bytes.length + turns) _ headers x hx h
    have hlt : strm'.bytes.length < strm.bytes.length + turns := by
      rw [hbytes, h]
      simp only [List.length_append, List.length_cons]
      omega
    obtain ⟨left, hloop, hleft, hfailed'⟩ := @ih hhs _ (headers ++ texts [x]) strm' hlt hbytes
    exact ⟨left, by rw [hline, hloop]; simp [texts], hleft, hfailed'.trans hfailed⟩

theorem headersLoop_short {hs : List (Bytes × Bytes)} (hhs : ∀ x ∈ hs, Writable x) :
    ∀ {turns : Nat} {headers : HTTPHeaders} {strm : Stream}, strm.bytes <+: write_headers hs →
      strm.bytes ≠ write_headers hs → (headersLoop turns headers strm).1 = none := by
  induction hs with
  | nil =>
    intro turns headers strm hcut hne
    rcases Pieces.cut_iff.1 (show strm.bytes <+: [13] ++ 10 :: [] from hcut) with hline | ⟨q, hq, hnil⟩
    · exact headersLoop_cut fun hmem => by simpa using hline.subset hmem
    · rw [List.prefix_nil.1 hnil] at hq
      exact absurd hq hne
  | cons x hs ih =>
    intro turns headers strm hcut hne
    obtain ⟨hx, hhs⟩ := List.forall_mem_cons.1 hhs
    rw [write_headers_cons] at hcut hne
    rcases Pieces.cut_iff.1 hcut with hline | ⟨q, hq, hrest⟩
    · exact headersLoop_cut fun hmem => hx.not_mem.1 (hline.subset hmem)
    · cases turns with
      | zero => rfl
      | succ turns =>
        obtain ⟨left, hloop, hleft, -⟩ := @headersLoop_line strm turns q headers x hx hq
        have hne' : q ≠ write_headers hs := by
          rintro rfl
          exact hne hq
        rw [hloop]
        exact ih hhs (hleft ▸ hrest) (hleft ▸ hne')

/-! ## The status line -/

def statusLine (status : Nat) : Bytes :=
  ascii "HTTP/1.1 " ++ ((toString status).toUTF8.data.toList ++
    (32 :: (ascii (status_message status) ++ [13])))

theorem write_response_line_eq (status : Nat) :
    write_response_line status = statusLine status ++ [10] := by
  simp [write_response_line, statusLine]

theorem message_spec (status : Nat) : ascii (status_message status) ≠ [] ∧
    ∀ b ∈ ascii (status_message status), isAny b = true ∧ b ≠ 0 := by
  unfold status_message
  split <;> decide +kernel

theorem statusLine_not_mem (status : Nat) : 10 ∉ statusLine status ∧ 0 ∉ statusLine status := by
  obtain ⟨-, hds⟩ := digits_toString status
  obtain ⟨-, hmessage⟩ := message_spec status
  have hten : 10 ∉ ascii (status_message status) := fun hmem => (ne_of_isAny (hmessage 10 hmem).1).1 rfl
  have hzero : 0 ∉ ascii (status_message status) := fun hmem => (hmessage 0 hmem).2 rfl
  have hversion : 10 ∉ ascii "HTTP/1.1 " ∧ 0 ∉ ascii "HTTP/1.1 " := by decide
  simp only [statusLine, List.mem_append, List.mem_cons, List.not_mem_nil, or_false, not_or]
  exact ⟨⟨hversion.1, hds.not_mem (by decide) (by decide), by decide, hten, by decide⟩,
    hversion.2, hds.not_mem (by decide) (by decide), by decide, hzero, by decide⟩

/-- ` .+\r\n` -/
def behindStatus : Bytes → Option (Bytes × Unit) :=
  Pattern.one (· == 32) (Pattern.some1 isAny Pattern.many (Pattern.literal [13, 10] Pattern.done))

theorem behindStatus_eq (status : Nat) :
    behindStatus (32 :: (ascii (status_message status) ++ [13, 10])) =
      some (ascii (status_message status), ()) := by
  obtain ⟨hne, hmessage⟩ := message_spec status
  have hmatch : Pattern.some1 isAny Pattern.many (Pattern.literal [13, 10] Pattern.done)
      (ascii (status_message status) ++ [13, 10]) = some (ascii (status_message status), ()) := by
    apply Pattern.some1_many_eq_some hne (fun b hb => (hmessage b hb).1) crlf_eq_some
    intro more rest heq hmore hall
    obtain ⟨b, more, rfl⟩ := List.exists_cons_of_ne_nil hmore
    obtain ⟨rfl, -⟩ := List.cons.inj heq
    exact absurd rfl (ne_of_isAny (hall 13 List.mem_cons_self)).2
  simpa [behindStatus, Pattern.one] using hmatch

theorem statusPattern_eq (status : Nat) :
    statusPattern (statusLine status ++ [10]) = some (toString status).toUTF8.data.toList := by
  obtain ⟨hne, hds⟩ := digits_toString status
  have hmatch : Pattern.some1 (isDigit 10) Pattern.few behindStatus
      ((toString status).toUTF8.data.toList ++ (32 :: (ascii (status_message status) ++ [13, 10]))) =
        some ((toString status).toUTF8.data.toList, ascii (status_message status), ()) := by
    apply Pattern.some1_few_eq_some hne _ (behindStatus_eq status)
    · intro less rest heq hrest
      obtain ⟨b, rest, rfl⟩ := List.exists_cons_of_ne_nil hrest
      obtain ⟨d, hd, hb⟩ := hds b (by rw [heq]; simp)
      have hspace : b ≠ 32 := by
        rintro rfl
        have hno := (charset_spec (show d < 16 by omega)).2.1
        rw [← hb] at hno
        cases hno
      simp [behindStatus, Pattern.one, hspace]
    · intro b hb
      obtain ⟨d, hd, rfl⟩ := hds b hb
      simp [isDigit, charset_spec (show d < 16 by omega), hd]
  have hline : statusLine status ++ [10] = [72, 84, 84, 80, 47, 49, 46] ++ (49 :: 32 ::
      ((toString status).toUTF8.data.toList ++ (32 :: (ascii (status_message status) ++ [13, 10])))) := by
    have hversion : ascii "HTTP/1.1 " = [72, 84, 84, 80, 47, 49, 46, 49, 32] := by decide
    simp [statusLine, hversion]
  rw [hline, statusPattern, Pattern.literal_append]
  change (Pattern.some1 (isDigit 10) Pattern.few behindStatus _).map Prod.fst = _
  rw [hmatch]
  rfl

theorem read_response_line_whole (hstatus : status < 2 ^ 31)
    (h : strm.bytes = write_response_line status ++ rest) :
    ∃ left, read_response_line strm = (some (status : Int), left) ∧ left.bytes = rest ∧
      left.failed = strm.failed := by
  rw [write_response_line_eq, List.append_assoc, List.singleton_append] at h
  obtain ⟨left, hget, hleft⟩ := @getline_line strm 2048 _ rest h (statusLine_not_mem status).1
  have hcstr : cstr (statusLine status ++ [10]) = statusLine status ++ [10] := by
    apply cstr_of_not_mem
    simp [(statusLine_not_mem status).2]
  refine ⟨left, ?_, hleft⟩
  simp only [read_response_line, hget, hcstr, statusPattern_eq, stoi_toString hstatus]

theorem read_response_line_cut (h : 10 ∉ strm.bytes) : (read_response_line strm).2.bytes = [] := by
  obtain ⟨left, hget, hleft, -⟩ := @getline_end strm 2048 h
  unfold read_response_line
  rw [hget]
  by_cases hend : strm.failed = true ∨ strm.bytes = []
  · simpa [if_pos hend] using hleft
  · simp only [if_neg hend]
    cases statusPattern (cstr strm.bytes) <;> exact hleft

/-! ## The head -/

/-- What comes in front of the body. -/
def write_head (status : Nat) (hs : List (Bytes × Bytes)) : Bytes :=
  write_response_line status ++ write_headers hs

theorem process_request_head {hs : List (Bytes × Bytes)} (hstatus : status < 2 ^ 31)
    (hhs : ∀ x ∈ hs, Writable x) (h : strm.bytes = write_head status hs ++ rest) :
    ∃ left, process_request strm = received status (texts hs) left ∧ left.bytes = rest ∧
      left.failed = strm.failed := by
  rw [write_head, List.append_assoc] at h
  obtain ⟨strm', hline, hbytes, hfailed⟩ := read_response_line_whole hstatus h
  obtain ⟨left, hheaders, hleft, hfailed'⟩ :=
    @headersLoop_whole rest hs hhs _ [] strm' (Nat.lt_succ_self _) hbytes
  refine ⟨left, ?_, hleft, hfailed'.trans hfailed⟩
  simp only [process_request, hline, read_headers, hheaders, Int.toNat_natCast, List.nil_append]

theorem process_request_of_headers {r : Option Int} {strm' : Stream}
    (hline : read_response_line strm = (r, strm')) (h : (read_headers strm').1 = none) :
    process_request strm = none := by
  unfold process_request
  rw [hline]
  cases r with
  | none => rfl
  | some status =>
    dsimp only
    rcases hread : read_headers strm' with ⟨headers, left⟩
    rw [hread] at h
    dsimp only at h
    rw [h]

/-- Cut off in the head, there is no answer. -/
theorem process_request_cut_head {hs : List (Bytes × Bytes)} (hstatus : status < 2 ^ 31)
    (hhs : ∀ x ∈ hs, Writable x) (hcut : strm.bytes <+: write_head status hs)
    (hne : strm.bytes ≠ write_head status hs) : process_request strm = none := by
  rw [write_head, write_response_line_eq, List.append_assoc, List.singleton_append] at hcut hne
  rcases Pieces.cut_iff.1 hcut with hline | ⟨q, hq, hrest⟩
  · have hend : (read_response_line strm).2.bytes = [] :=
      read_response_line_cut fun hmem => (statusLine_not_mem status).1 (hline.subset hmem)
    exact process_request_of_headers rfl (headersLoop_nil hend)
  · have hbytes : strm.bytes = write_response_line status ++ q := by
      rw [hq, write_response_line_eq, List.append_assoc, List.singleton_append]
    obtain ⟨strm', hline, hleft, -⟩ := read_response_line_whole hstatus hbytes
    have hne' : q ≠ write_headers hs := by
      rintro rfl
      exact hne hq
    exact process_request_of_headers hline (headersLoop_short hhs (hleft ▸ hrest) (hleft ▸ hne'))

end Httplib

end GladiusMasternode
