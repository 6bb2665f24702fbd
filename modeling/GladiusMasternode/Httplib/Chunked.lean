import GladiusMasternode.Httplib.Reading
/-
# Chunked bodies, whole and cut off

What the library's own writer makes of chunks, `read_content_chunked` reads back. A body that is cut
off is dropped, but for one place: after the carriage return behind a chunk `getline` still gives a
line, and the `break` that follows skips the chunk and the check that the last one has come.
-/

namespace GladiusMasternode

namespace Httplib

variable {strm : Stream} {turns : Nat} {out : Bytes}

/-! ## Sizes -/

theorem charset_spec {d : Nat} (hd : d < 16) :
    digit (charset d) = some d ∧ isspace (charset d) = false ∧
      charset d ∉ ([0, 10, 43, 45, 88, 120] : Bytes) := by
  have hall : ∀ d < 16, digit (charset d) = some d ∧ isspace (charset d) = false ∧
      charset d ∉ ([0, 10, 43, 45, 88, 120] : Bytes) := by decide
  exact hall d hd

def Digits (base : Nat) (ds : Bytes) : Prop := ∀ b ∈ ds, ∃ d < base, b = charset d

theorem Digits.not_mem {base : Nat} {ds : Bytes} (h : Digits base ds) (hbase : base ≤ 16) {b : UInt8}
    (hb : b ∈ ([0, 10, 43, 45, 88, 120] : Bytes)) : b ∉ ds := by
  intro hmem
  obtain ⟨d, hd, rfl⟩ := h b hmem
  exact (charset_spec (hd.trans_le hbase)).2.2 hb

theorem valueOf_append (base : Nat) (ds : Bytes) (d : UInt8) :
    valueOf base (ds ++ [d]) = base * valueOf base ds + (digit d).getD 0 := by
  simp [valueOf, List.foldl_append]

theorem hexDigits_spec : ∀ {turns n : Nat} {ret : Bytes}, n < 16 ^ (turns + 1) →
    ∃ ds, hexDigits (turns + 1) n ret = ds ++ ret ∧ ds ≠ [] ∧ Digits 16 ds ∧ valueOf 16 ds = n := by
  intro turns
  induction turns with
  | zero =>
    intro n ret hn
    have hlow : n / 16 = 0 := by omega
    have hmod : n % 16 = n := by omega
    refine ⟨[charset n], ?_, by simp, ?_, ?_⟩
    · simp [hexDigits, hlow, hmod]
    · intro b hb
      exact ⟨n, by omega, List.mem_singleton.1 hb⟩
    · simp [valueOf, charset_spec (show n < 16 by omega)]
  | succ turns ih =>
    intro n ret hn
    have hmod : n % 16 < 16 := Nat.mod_lt n (by omega)
    rw [hexDigits]
    by_cases hpos : n / 16 > 0
    · have hdiv : n / 16 < 16 ^ (turns + 1) := by
        rw [Nat.div_lt_iff_lt_mul (by omega), ← Nat.pow_succ]
        exact hn
      obtain ⟨ds, hds, hne, hhex, hvalue⟩ := @ih (n / 16) (charset (n % 16) :: ret) hdiv
      refine ⟨ds ++ [charset (n % 16)], ?_, by simp, ?_, ?_⟩
      · simp only [hpos, if_true, hds, List.append_assoc, List.singleton_append]
      · intro b hb
        rcases List.mem_append.1 hb with hb | hb
        · exact hhex b hb
        · exact ⟨n % 16, hmod, List.mem_singleton.1 hb⟩
      · rw [valueOf_append, hvalue, (charset_spec hmod).1, Option.getD_some]
        omega
    · have hsmall : n % 16 = n := by omega
      rw [hsmall] at hmod ⊢
      refine ⟨[charset n], by simp [hpos], by simp, ?_, ?_⟩
      · intro b hb
        exact ⟨n, hmod, List.mem_singleton.1 hb⟩
      · simp [valueOf, charset_spec hmod]

theorem from_i_to_hex_spec {n : Nat} (hn : n < 2 ^ 64) :
    from_i_to_hex n ≠ [] ∧ Digits 16 (from_i_to_hex n) ∧ valueOf 16 (from_i_to_hex n) = n := by
  obtain ⟨ds, hds, hspec⟩ := @hexDigits_spec 15 n [] (by omega)
  rw [List.append_nil] at hds
  rw [from_i_to_hex, hds]
  exact hspec

theorem cstr_of_not_mem {s : Bytes} (h : 0 ∉ s) : cstr s = s := by
  apply List.takeWhile_eq_self_iff.2
  intro b hb
  have hzero : b ≠ 0 := ne_of_mem_of_not_mem hb h
  simpa using hzero

theorem skipPrefix_of_not_mem {s : Bytes} (base : Nat) (hx : 120 ∉ s) (hX : 88 ∉ s) :
    skipPrefix base s = s := by
  unfold skipPrefix
  split
  · rename_i x d s'
    have hne : x ≠ 120 ∧ x ≠ 88 := by
      constructor
      · rintro rfl
        simp at hx
      · rintro rfl
        simp at hX
    simp [hne]
  · rfl

/-- Without a minus sign, what is read is what the digits say. -/
theorem stoi_unsigned (base : Nat) {s : Bytes} (h : 45 ∉ s) :
    ∃ s', (43 ∉ s → s' = (cstr s).dropWhile isspace) ∧
      stoi base s = (let ds := (skipPrefix base s').takeWhile (isDigit base)
        if ds = [] then none
        else if (valueOf base ds : Int) < 2 ^ 31 then some (valueOf base ds : Int) else none) := by
  have hsub : (cstr s).dropWhile isspace ⊆ s :=
    fun b hb => List.takeWhile_subset _ (List.dropWhile_subset _ hb)
  unfold stoi
  generalize (cstr s).dropWhile isspace = t at hsub ⊢
  cases t with
  | nil => exact ⟨[], fun _ => rfl, by simp [skipPrefix]⟩
  | cons b t =>
    have hminus : b ≠ 45 := by
      rintro rfl
      exact h (hsub List.mem_cons_self)
    by_cases hplus : b = 43
    · subst hplus
      exact ⟨t, fun hno => absurd (hsub List.mem_cons_self) hno, by simp⟩
    · exact ⟨b :: t, fun _ => rfl, by simp [hminus, hplus]⟩

theorem stoi_nonneg {base : Nat} {s : Bytes} (h : 45 ∉ s) {n : Int} (hn : stoi base s = some n) :
    0 ≤ n := by
  obtain ⟨s', -, hstoi⟩ := stoi_unsigned base h
  rw [hstoi] at hn
  dsimp only at hn
  split at hn
  · cases hn
  · split at hn
    · cases hn
      omega
    · cases hn

/-- A number, with as much of the line's end as has come, is read as its value. -/
theorem stoi_digits {base : Nat} {ds rest : Bytes} (hne : ds ≠ []) (hds : Digits base ds)
    (hbase : base ≤ 16) (hrest : rest <+: [13, 10]) (hsmall : valueOf base ds < 2 ^ 31) :
    stoi base (ds ++ rest) = some (valueOf base ds : Int) := by
  have hend : ∀ b ∈ rest, b ∉ ([0, 43, 45, 88, 120] : Bytes) := by
    intro b hb
    have hcrlf := hrest.subset hb
    revert hcrlf
    simp only [List.mem_cons, List.not_mem_nil, or_false]
    rintro (rfl | rfl) <;> decide
  have hnot : ∀ b ∈ ([0, 43, 45, 88, 120] : Bytes), b ∉ ds ++ rest := by
    intro b hb hmem
    rcases List.mem_append.1 hmem with hmem | hmem
    · have hb' : b ∈ ([0, 10, 43, 45, 88, 120] : Bytes) := by grind
      exact hds.not_mem hbase hb' hmem
    · exact hend b hmem hb
  have hcstr : cstr (ds ++ rest) = ds ++ rest := cstr_of_not_mem (hnot 0 (by decide))
  have hspace : (ds ++ rest).dropWhile isspace = ds ++ rest := by
    obtain ⟨b, ds', rfl⟩ := List.exists_cons_of_ne_nil hne
    obtain ⟨d, hd, hb⟩ := hds b (by simp)
    rw [List.cons_append, List.dropWhile_cons_of_neg]
    simp [hb, charset_spec (hd.trans_le hbase)]
  have htake : (ds ++ rest).takeWhile (isDigit base) = ds := by
    have hall : ∀ b ∈ ds, isDigit base b = true := by
      intro b hb
      obtain ⟨d, hd, rfl⟩ := hds b hb
      simp [isDigit, charset_spec (hd.trans_le hbase), hd]
    rw [List.takeWhile_append_of_pos hall]
    cases rest with
    | nil => simp
    | cons b rest =>
      obtain rfl : b = 13 := (List.cons_prefix_cons.1 hrest).1
      simp [isDigit, show digit 13 = none from by decide]
  have hskip := skipPrefix_of_not_mem base (hnot 120 (by decide)) (hnot 88 (by decide))
  obtain ⟨s', hs', hstoi⟩ := stoi_unsigned base (hnot 45 (by decide))
  obtain rfl := hs' (hnot 43 (by decide))
  rw [hstoi, hcstr, hspace, hskip, htake]
  dsimp only
  rw [if_neg hne, if_pos (by omega)]

theorem utf8_digit {c : Char} (hc : c.isDigit = true) :
    String.utf8EncodeChar c = [charset (c.toNat - 48)] := by
  obtain ⟨hlow, hhigh⟩ := Char.isDigit_iff_toNat.1 hc
  have hlow : 48 ≤ c.toNat := hlow
  have hhigh : c.toNat ≤ 57 := hhigh
  have hsize : c.utf8Size = 1 := by
    apply Char.utf8Size_eq_one_iff.2
    rw [UInt32.le_iff_toNat_le]
    exact hhigh.trans (by decide)
  rw [String.utf8EncodeChar_eq_singleton hsize, charset, if_pos (by omega),
    Nat.add_sub_cancel' hlow]
  rfl

theorem bytes_toString (n : Nat) : (toString n).toUTF8.data.toList =
    (Nat.toDigits 10 n).map fun c => charset (c.toNat - 48) := by
  have hmap : (Nat.toDigits 10 n).flatMap String.utf8EncodeChar =
      (Nat.toDigits 10 n).flatMap fun c => [charset (c.toNat - 48)] := by
    apply List.flatMap_congr
    intro c hc
    exact utf8_digit (Nat.isDigit_of_mem_toDigits (by decide) (by decide) hc)
  rw [Nat.toString_eq_ofList_toDigits, String.toUTF8_eq_toByteArray, String.toByteArray_ofList,
    List.utf8Encode, List.toList_data_toByteArray, hmap, ← List.map_eq_flatMap]

theorem digits_toString (n : Nat) :
    (toString n).toUTF8.data.toList ≠ [] ∧ Digits 10 (toString n).toUTF8.data.toList := by
  rw [bytes_toString]
  refine ⟨by simp [Nat.toDigits_ne_nil], ?_⟩
  intro b hb
  obtain ⟨c, hc, rfl⟩ := List.mem_map.1 hb
  have hdigit := Nat.isDigit_of_mem_toDigits (by decide) (by decide) hc
  have hhigh : c.toNat ≤ 57 := (Char.isDigit_iff_toNat.1 hdigit).2
  exact ⟨c.toNat - 48, by omega, rfl⟩

theorem stoi_toString {n : Nat} (hn : n < 2 ^ 31) :
    stoi 10 (toString n).toUTF8.data.toList = some (n : Int) := by
  have hvalue : valueOf 10 (toString n).toUTF8.data.toList = n := by
    conv_rhs => rw [← @Nat.ofDigitChars_ten_toDigits n]
    rw [bytes_toString, valueOf, List.foldl_map, Nat.ofDigitChars_eq_foldl]
    apply List.foldl_ext
    intro v c hc
    have hdigit := Nat.isDigit_of_mem_toDigits (by decide) (by decide) hc
    have hhigh : c.toNat ≤ 57 := (Char.isDigit_iff_toNat.1 hdigit).2
    rw [(charset_spec (show c.toNat - 48 < 16 by omega)).1]
    rfl
  obtain ⟨hne, hds⟩ := digits_toString n
  have hread := stoi_digits hne hds (by decide) List.nil_prefix (by omega)
  rwa [List.append_nil, hvalue] at hread

/-! ## One chunk -/

/-- `read_content_chunked` from the line with a size on. -/
def sized (turns : Nat) (out : Bytes) (strm : Stream) : Got :=
  match getline bufsiz strm with
  | (none, _) => .dropped
  | (some line, strm) =>
    match stoi 16 line with
    | none => .threw
    | some chunk_len => chunks turns chunk_len out strm

theorem read_content_chunked_eq (strm : Stream) :
    read_content_chunked strm = sized (strm.bytes.length + 1) [] strm := rfl

def sizeLine (n : Nat) : Bytes := from_i_to_hex n ++ [13]

theorem sizeLine_not_mem {n : Nat} (hn : n < 2 ^ 31) : 10 ∉ sizeLine n ∧ 45 ∉ sizeLine n := by
  obtain ⟨-, hhex, -⟩ := @from_i_to_hex_spec n (by omega)
  simp [sizeLine, hhex.not_mem (by decide)]

theorem sized_line {n : Nat} {rest : Bytes} (hn : n < 2 ^ 31)
    (h : strm.bytes = sizeLine n ++ 10 :: rest) :
    ∃ left, sized turns out strm = chunks turns n out left ∧ left.bytes = rest ∧
      left.failed = strm.failed := by
  obtain ⟨hne, hhex, hvalue⟩ := @from_i_to_hex_spec n (by omega)
  obtain ⟨left, hget, hleft⟩ := @getline_line strm bufsiz _ _ h (sizeLine_not_mem hn).1
  have hstoi : stoi 16 (sizeLine n ++ [10]) = some (n : Int) := by
    have hread := @stoi_digits 16 _ [13, 10] hne hhex (by decide) (List.prefix_refl _) (by omega)
    rw [hvalue] at hread
    simpa [sizeLine] using hread
  exact ⟨left, by simp [sized, hget, hstoi], hleft⟩

/-- Nothing comes after a line that is cut off, so a size in front of it has no chunk behind it. -/
theorem sized_cut {n : Nat} (hn : n < 2 ^ 31) (h : strm.bytes <+: sizeLine n) (o : Bytes) :
    sized turns out strm ≠ .body o := by
  obtain ⟨hline, hminus⟩ := sizeLine_not_mem hn
  obtain ⟨left, hget, hleft, -⟩ := @getline_end strm bufsiz (fun hmem => hline (h.subset hmem))
  unfold sized
  rw [hget]
  by_cases hend : strm.failed = true ∨ strm.bytes = []
  · simp [if_pos hend]
  · simp only [if_neg hend]
    cases hstoi : stoi 16 strm.bytes with
    | none => simp
    | some len =>
      have hlen : 0 ≤ len := stoi_nonneg (fun hmem => hminus (h.subset hmem)) hstoi
      cases turns with
      | zero => simp [chunks]
      | succ turns =>
        simp only [chunks]
        by_cases hpos : len > 0
        · obtain ⟨rest, hread, -⟩ := read_content_with_length_spec len.toNat left
          rw [if_pos hpos, hread, hleft, if_neg (by simp; omega)]
          simp
        · obtain ⟨rest, hnext, -⟩ := @getline_end left bufsiz (by simp [hleft])
          rw [if_neg hpos, if_pos (by omega), hnext, if_pos (Or.inr hleft)]
          simp

theorem isCRLF_crlf : isCRLF [13, 10] = true := by decide

theorem chunk_whole {chunk rest : Bytes} (hne : chunk ≠ [])
    (h : strm.bytes = chunk ++ [13] ++ 10 :: rest) :
    ∃ left, chunks (turns + 1) chunk.length out strm = sized turns (out ++ chunk) left ∧
      left.bytes = rest ∧ left.failed = strm.failed := by
  have hpos : (chunk.length : Int) > 0 := by
    have hlen := List.length_pos_iff.2 hne
    omega
  obtain ⟨next, hread, hnext, hfailed⟩ := read_content_with_length_spec chunk.length strm
  have hall : chunk.length ≤ strm.bytes.length := by
    rw [h]
    simp
  have htake : strm.bytes.take chunk.length = chunk := by
    rw [h, List.append_assoc]
    exact List.take_left
  have hdrop : next.bytes = [13] ++ 10 :: rest := by
    rw [hnext hall, h, List.append_assoc]
    exact List.drop_left
  obtain ⟨left, hget, hleft, hfailed'⟩ := @getline_line next bufsiz [13] rest hdrop (by simp)
  refine ⟨left, ?_, hleft, hfailed'.trans hfailed⟩
  rw [if_pos hall, htake] at hread
  simp only [chunks, if_pos hpos, Int.toNat_natCast, hread, hget]
  rfl

/-- Where only the newline behind the chunk is missing, the chunk is left out and the rest returned. -/
theorem chunk_cut {chunk : Bytes} (hne : chunk ≠ []) (h : strm.bytes <+: chunk ++ [13]) :
    chunks (turns + 1) chunk.length out strm =
      if strm.bytes = chunk ++ [13] ∧ strm.failed = false then .body out else .dropped := by
  have hpos : (chunk.length : Int) > 0 := by
    have hlen := List.length_pos_iff.2 hne
    omega
  obtain ⟨next, hread, hnext, hfailed⟩ := read_content_with_length_spec chunk.length strm
  simp only [chunks, if_pos hpos, Int.toNat_natCast, hread]
  rcases List.prefix_concat_iff.1 h with hwhole | hcut
  · have hall : chunk.length ≤ strm.bytes.length := by simp [hwhole]
    have hdrop : next.bytes = [13] := by simp [hnext hall, hwhole]
    obtain ⟨left, hget, -⟩ := @getline_end next bufsiz (by simp [hdrop])
    rw [hdrop, hfailed] at hget
    rw [if_pos hall]
    cases hf : strm.failed <;> simp [hget, hf, hwhole, show isCRLF [13] = false from by decide]
  · have hshort : strm.bytes ≠ chunk ++ [13] := by
      intro heq
      have hlen := hcut.length_le
      rw [heq, List.length_append, List.length_singleton] at hlen
      omega
    have hno : ¬(strm.bytes = chunk ++ [13] ∧ strm.failed = false) := fun hwhole => hshort hwhole.1
    rw [if_neg hno]
    by_cases hall : chunk.length ≤ strm.bytes.length
    · have heq : strm.bytes = chunk := hcut.eq_of_length_le hall
      have hdrop : next.bytes = [] := by simp [hnext hall, heq]
      obtain ⟨left, hget, -⟩ := @getline_end next bufsiz (by simp [hdrop])
      rw [if_pos hall]
      simp [hget, hdrop]
    · rw [if_neg hall]

theorem last_whole {rest : Bytes} (h : strm.bytes = [13] ++ 10 :: rest) :
    chunks (turns + 1) 0 out strm = .body out := by
  obtain ⟨left, hget, -⟩ := @getline_line strm bufsiz [13] rest h (by simp)
  simp [chunks, hget, isCRLF_crlf]

theorem last_cut (h : strm.bytes <+: [13]) : chunks (turns + 1) 0 out strm = .dropped := by
  obtain ⟨left, hget, -⟩ := @getline_end strm bufsiz (fun hmem => by simpa using h.subset hmem)
  have hend : strm.bytes = [] ∨ strm.bytes = [13] := by simpa [List.prefix_cons_iff] using h
  rcases hend with hend | hend
  · simp [chunks, hget, hend]
  · cases hf : strm.failed <;>
      simp [chunks, hget, hend, hf, show isCRLF [13] = false from by decide]

/-! ## Whole bodies -/

/-- Chunks as the writer is given them: none is empty, and `stoi` has their sizes. -/
def Sendable (cs : List Bytes) : Prop := ∀ c ∈ cs, c ≠ [] ∧ c.length < 2 ^ 31

theorem write_chunks_nil : write_chunks [] = sizeLine 0 ++ 10 :: ([13] ++ 10 :: []) := by decide

theorem write_chunks_cons (c : Bytes) (cs : List Bytes) : write_chunks (c :: cs) =
    sizeLine c.length ++ 10 :: (c ++ [13] ++ 10 :: write_chunks cs) := by
  simp [write_chunks, write_chunk, sizeLine]

theorem sized_whole {cs : List Bytes} (hcs : Sendable cs) :
    ∀ {turns : Nat} {out rest : Bytes} {strm : Stream}, strm.bytes.length < turns →
      strm.bytes = write_chunks cs ++ rest → sized turns out strm = .body (out ++ cs.flatten) := by
  induction cs with
  | nil =>
    intro turns out rest strm hturns h
    obtain ⟨turns, rfl⟩ := Nat.exists_eq_add_of_lt hturns
    rw [write_chunks_nil, List.append_assoc] at h
    obtain ⟨left, hsized, hleft, -⟩ := @sized_line strm _ out 0 _ (by omega) h
    rw [hsized, Nat.cast_zero, last_whole hleft]
    simp
  | cons c cs ih =>
    intro turns out rest strm hturns h
    obtain ⟨hc, hcs⟩ := List.forall_mem_cons.1 hcs
    obtain ⟨turns, rfl⟩ := Nat.exists_eq_add_of_lt hturns
    rw [write_chunks_cons, List.append_assoc, List.cons_append, List.append_assoc,
      List.cons_append] at h
    obtain ⟨strm', hsized, hbytes, -⟩ :=
      @sized_line strm (strm.bytes.length + turns + 1) out _ _ hc.2 h
    obtain ⟨left, hchunk, hleft, -⟩ :=
      @chunk_whole strm' (strm.bytes.length + turns) out _ _ hc.1 hbytes
    have hlt : left.bytes.length < strm.bytes.length + turns := by
      rw [h, hleft]
      simp
      omega
    rw [hsized, hchunk, ih hcs hlt hleft, List.flatten_cons, List.append_assoc]

/-! ## Bodies cut off -/

/-- The stream ends behind the carriage return of a chunk: `o` is what is in front of that chunk. -/
def LosesChunk (cs : List Bytes) (p o : Bytes) : Prop :=
  ∃ before c after, cs = before ++ c :: after ∧ o = before.flatten ∧
    p = before.flatMap write_chunk ++ (from_i_to_hex c.length ++ [13, 10] ++ c ++ [13])

theorem not_losesChunk_nil {p o : Bytes} : ¬LosesChunk [] p o := by
  rintro ⟨before, c, after, h, -⟩
  simp at h

theorem losesChunk_cons_iff {c p o : Bytes} {cs : List Bytes} : LosesChunk (c :: cs) p o ↔
    p = sizeLine c.length ++ 10 :: (c ++ [13]) ∧ o = [] ∨
      ∃ p' o', p = sizeLine c.length ++ 10 :: (c ++ [13] ++ 10 :: p') ∧ o = c ++ o' ∧
        LosesChunk cs p' o' := by
  constructor
  · rintro ⟨before, d, after, h, rfl, rfl⟩
    cases before with
    | nil =>
      obtain ⟨rfl, rfl⟩ := List.cons.inj h
      exact Or.inl ⟨by simp [sizeLine], rfl⟩
    | cons b before =>
      obtain ⟨rfl, hcs⟩ := List.cons.inj h
      exact Or.inr ⟨_, _, by simp [sizeLine, write_chunk], rfl, before, d, after, hcs, rfl, rfl⟩
  · rintro (⟨rfl, rfl⟩ | ⟨p', o', rfl, rfl, before, d, after, rfl, rfl, rfl⟩)
    · exact ⟨[], c, cs, rfl, rfl, by simp [sizeLine]⟩
    · exact ⟨c :: before, d, after, rfl, rfl, by simp [sizeLine, write_chunk]⟩

theorem losesChunk_cut_iff {c q o : Bytes} {cs : List Bytes} (hq : q <+: c ++ [13]) :
    LosesChunk (c :: cs) (sizeLine c.length ++ 10 :: q) o ↔ q = c ++ [13] ∧ o = [] := by
  have hlen := hq.length_le
  have hno : ∀ p', q ≠ c ++ [13] ++ 10 :: p' := by
    rintro p' rfl
    simp at hlen
  rw [losesChunk_cons_iff]
  simp only [List.append_cancel_left_eq, List.cons.injEq, true_and, hno, false_and, exists_false,
    or_false]

theorem losesChunk_whole_iff {c p o : Bytes} {cs : List Bytes} :
    LosesChunk (c :: cs) (sizeLine c.length ++ 10 :: (c ++ [13] ++ 10 :: p)) o ↔
      ∃ o', o = c ++ o' ∧ LosesChunk cs p o' := by
  rw [losesChunk_cons_iff]
  simp

theorem sized_cut_last (hcut : strm.bytes <+: write_chunks []) (hne : strm.bytes ≠ write_chunks [])
    (o : Bytes) : sized (turns + 1) out strm ≠ .body o := by
  rw [write_chunks_nil] at hcut hne
  rcases Pieces.cut_iff.1 hcut with hline | ⟨q, hq, hlast⟩
  · exact sized_cut (by omega) hline o
  · obtain ⟨left, hsized, hleft, -⟩ := @sized_line strm (turns + 1) out 0 q (by omega) hq
    have hend : left.bytes <+: [13] := by
      rcases Pieces.cut_iff.1 hlast with hq' | ⟨q', rfl, hq'⟩
      · rwa [hleft]
      · rw [List.prefix_nil.1 hq'] at hq
        exact absurd hq hne
    rw [hsized, Nat.cast_zero, last_cut hend]
    simp

theorem sized_cut_iff {cs : List Bytes} (hcs : Sendable cs) :
    ∀ {turns : Nat} {out o : Bytes} {strm : Stream}, strm.bytes.length < turns →
      strm.bytes <+: write_chunks cs → strm.bytes ≠ write_chunks cs →
      (sized turns out strm = .body o ↔
        strm.failed = false ∧ ∃ o', o = out ++ o' ∧ LosesChunk cs strm.bytes o') := by
  induction cs with
  | nil =>
    intro turns out o strm hturns hcut hne
    obtain ⟨turns, rfl⟩ := Nat.exists_eq_add_of_lt hturns
    simp only [not_losesChunk_nil, and_false, exists_false, iff_false]
    exact sized_cut_last hcut hne o
  | cons c cs ih =>
    intro turns out o strm hturns hcut hne
    obtain ⟨hc, hcs⟩ := List.forall_mem_cons.1 hcs
    obtain ⟨turns, rfl⟩ := Nat.exists_eq_add_of_lt hturns
    rw [write_chunks_cons] at hcut hne
    rcases Pieces.cut_iff.1 hcut with hline | ⟨q, hq, hrest⟩
    · -- the size itself is cut off
      have hno : ∀ o', ¬LosesChunk (c :: cs) strm.bytes o' := by
        intro o' hloses
        have hmem : 10 ∈ strm.bytes := by
          rcases losesChunk_cons_iff.1 hloses with ⟨hp, -⟩ | ⟨p', o'', hp, -⟩ <;> simp [hp]
        exact (sizeLine_not_mem hc.2).1 (hline.subset hmem)
      simp [sized_cut hc.2 hline o, hno]
    · obtain ⟨strm', hsized, hbytes, hfailed⟩ :=
        @sized_line strm (strm.bytes.length + turns + 1) out c.length q hc.2 hq
      rw [hsized]
      rcases Pieces.cut_iff.1 hrest with hchunk | ⟨p, rfl, hp⟩
      · -- in the chunk, or right behind it
        rw [chunk_cut hc.1 (hbytes ▸ hchunk), hbytes, hfailed, hq]
        simp only [losesChunk_cut_iff hchunk]
        by_cases hlost : q = c ++ [13] ∧ strm.failed = false
        · rw [if_pos hlost]
          simp [hlost, eq_comm]
        · rw [if_neg hlost]
          simp
          grind
      · obtain ⟨left, hwhole, hleft, hfailed'⟩ :=
          @chunk_whole strm' (strm.bytes.length + turns) out c p hc.1 hbytes
        have hlt : left.bytes.length < strm.bytes.length + turns := by
          rw [hq, hleft]
          simp
          omega
        have hne' : p ≠ write_chunks cs := by
          rintro rfl
          exact hne hq
        rw [hwhole, ih hcs hlt (hleft ▸ hp) (hleft ▸ hne'), hleft, hfailed', hfailed, hq]
        simp only [losesChunk_whole_iff]
        constructor
        · rintro ⟨hf, o', rfl, hloses⟩
          exact ⟨hf, c ++ o', by simp, o', rfl, hloses⟩
        · rintro ⟨hf, o', rfl, o'', rfl, hloses⟩
          exact ⟨hf, o'', by simp, hloses⟩

theorem read_content_chunked_whole {cs : List Bytes} {rest : Bytes} (hcs : Sendable cs)
    (h : strm.bytes = write_chunks cs ++ rest) : read_content_chunked strm = .body cs.flatten :=
  sized_whole hcs (Nat.lt_succ_self _) h

theorem read_content_chunked_cut_iff {cs : List Bytes} {o : Bytes} (hcs : Sendable cs)
    (hcut : strm.bytes <+: write_chunks cs) (hne : strm.bytes ≠ write_chunks cs) :
    read_content_chunked strm = .body o ↔ strm.failed = false ∧ LosesChunk cs strm.bytes o := by
  rw [read_content_chunked_eq, sized_cut_iff hcs (Nat.lt_succ_self _) hcut hne]
  simp

end Httplib

end GladiusMasternode
