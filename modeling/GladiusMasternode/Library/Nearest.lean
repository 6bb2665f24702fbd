import Mathlib.Data.List.DropRight
import Mathlib.Data.Finset.Card
import Mathlib.Data.Finset.Range
import Mathlib.Data.Finset.Sort
import Mathlib.Order.Basic
import Mathlib.Order.WithBot
/-!
# The k nearest of m candidates

Candidates are numbered `0, …, m-1` and ranked by a key `d`, their distance. `IsNearest` says that a
list of candidates is an answer; `scan` computes one by inserting candidate after candidate into a
sorted list of at most `k`.
-/

namespace Nearest

variable {D : Type*} [LinearOrder D] {d : Nat → D} {m k : Nat} {idx : List Nat}

/-- As many as there are up to `k`, distinct, nearest first, and none left out is strictly nearer. -/
structure IsNearest (d : Nat → D) (m k : Nat) (idx : List Nat) : Prop where
  length : idx.length = min k m
  nodup : idx.Nodup
  range : ∀ i ∈ idx, i < m
  sorted : idx.Pairwise fun i j => d i ≤ d j
  optimal : ∀ j < m, j ∉ idx → ∀ i ∈ idx, d i ≤ d j

theorem isNearest_zero (d : Nat → D) (k : Nat) : IsNearest d 0 k [] :=
  ⟨by simp, by simp, by simp, by simp, by simp⟩

/-- Only the order of the keys counts. -/
theorem IsNearest.of_le_iff {E : Type*} [LinearOrder E] {e : Nat → E} (h : IsNearest d m k idx)
    (hle : ∀ i < m, ∀ j < m, d i ≤ d j ↔ e i ≤ e j) : IsNearest e m k idx where
  length := h.length
  nodup := h.nodup
  range := h.range
  sorted := h.sorted.imp_of_mem fun {i j} hi hj hij => (hle i (h.range i hi) j (h.range j hj)).1 hij
  optimal := by
    intro j hj hout i hi
    exact (hle i (h.range i hi) j hj).1 (h.optimal j hj hout i hi)

/-! ## Bounded insertion -/

/-- Insert behind everything that is at most as far, looking from the far end. -/
def insertBy (d : Nat → D) (i : Nat) (l : List Nat) : List Nat :=
  l.rdropWhile (fun j => d i < d j) ++ i :: l.rtakeWhile (fun j => d i < d j)

theorem insertBy_perm (i : Nat) (l : List Nat) : (insertBy d i l).Perm (i :: l) := by
  have h := @List.perm_middle _ i (l.rdropWhile fun j => d i < d j) (l.rtakeWhile fun j => d i < d j)
  rw [List.rdropWhile_append_rtakeWhile] at h
  exact h

theorem length_insertBy (i : Nat) (l : List Nat) : (insertBy d i l).length = l.length + 1 := by
  rw [(insertBy_perm i l).length_eq, List.length_cons]

theorem mem_insertBy {i j : Nat} {l : List Nat} : j ∈ insertBy d i l ↔ j = i ∨ j ∈ l := by
  rw [(insertBy_perm i l).mem_iff, List.mem_cons]

/-- What stays in front is at most as far as the new entry. -/
theorem le_of_mem_rdropWhile {i j : Nat} {l : List Nat} (hl : l.Pairwise fun a b => d a ≤ d b)
    (hj : j ∈ l.rdropWhile fun j => d i < d j) : d j ≤ d i := by
  have hne := List.ne_nil_of_mem hj
  have hlast : d ((l.rdropWhile fun j => d i < d j).getLast hne) ≤ d i := by
    simpa using List.rdropWhile_last_not (fun j => d i < d j) l hne
  have hsorted : (l.rdropWhile fun j => d i < d j).Pairwise fun a b => d a ≤ d b :=
    hl.sublist (List.rdropWhile_prefix _ l).sublist
  rw [← List.dropLast_append_getLast hne, List.pairwise_append] at hsorted
  rw [← List.dropLast_append_getLast hne, List.mem_append, List.mem_singleton] at hj
  rcases hj with hj | rfl
  · exact (hsorted.2.2 j hj _ (List.mem_singleton_self _)).trans hlast
  · exact hlast

theorem insertBy_sorted {i : Nat} {l : List Nat} (hl : l.Pairwise fun a b => d a ≤ d b) :
    (insertBy d i l).Pairwise fun a b => d a ≤ d b := by
  have hsplit := hl
  rw [← @List.rdropWhile_append_rtakeWhile _ (fun j => decide (d i < d j)) l,
    List.pairwise_append] at hsplit
  obtain ⟨hfront, hback, hcross⟩ := hsplit
  refine List.pairwise_append.2 ⟨hfront, List.pairwise_cons.2 ⟨fun b hb => ?_, hback⟩, ?_⟩
  · exact le_of_lt (by simpa using List.mem_rtakeWhile_imp hb)
  · intro a ha b hb
    rcases List.mem_cons.1 hb with rfl | hb
    · exact le_of_mem_rdropWhile hl ha
    · exact hcross a ha b hb

/-- Keep the `k` nearest. -/
def addBounded (d : Nat → D) (k : Nat) (l : List Nat) (i : Nat) : List Nat := (insertBy d i l).take k

theorem length_addBounded (k : Nat) (l : List Nat) (i : Nat) :
    (addBounded d k l i).length = min k (l.length + 1) := by
  rw [addBounded, List.length_take, length_insertBy]

theorem le_of_take_drop {l : List Nat} (hl : l.Pairwise fun a b => d a ≤ d b) {a b : Nat}
    (ha : a ∈ l.take k) (hb : b ∈ l.drop k) : d a ≤ d b := by
  rw [← List.take_append_drop k l, List.pairwise_append] at hl
  exact hl.2.2 a ha b hb

/-! ## The best of any set of candidates

Candidates may come in any order, and a set of candidates that are no better than a full list may be
left out unseen.
-/

/-- `IsNearest`, of the candidates in `S`. -/
structure IsBest (d : Nat → D) (S : Finset Nat) (k : Nat) (idx : List Nat) : Prop where
  length : idx.length = min k S.card
  nodup : idx.Nodup
  subset : ∀ i ∈ idx, i ∈ S
  sorted : idx.Pairwise fun i j => d i ≤ d j
  optimal : ∀ j ∈ S, j ∉ idx → ∀ i ∈ idx, d i ≤ d j

variable {S T : Finset Nat}

theorem isBest_range_iff : IsBest d (Finset.range m) k idx ↔ IsNearest d m k idx := by
  constructor
  · rintro ⟨hlen, hnodup, hsub, hsorted, hopt⟩
    rw [Finset.card_range] at hlen
    exact ⟨hlen, hnodup, fun i hi => Finset.mem_range.1 (hsub i hi), hsorted,
      fun j hj => hopt j (Finset.mem_range.2 hj)⟩
  · rintro ⟨hlen, hnodup, hrange, hsorted, hopt⟩
    refine ⟨?_, hnodup, fun i hi => Finset.mem_range.2 (hrange i hi), hsorted,
      fun j hj => hopt j (Finset.mem_range.1 hj)⟩
    rw [Finset.card_range, hlen]

theorem isBest_empty (d : Nat → D) (k : Nat) : IsBest d ∅ k [] :=
  ⟨by simp, by simp, by simp, by simp, by simp⟩

/-- With room for all, no candidate is left out. -/
theorem IsBest.mem_of_card_le (h : IsBest d S k idx) (hk : S.card ≤ k) {j : Nat} (hj : j ∈ S) :
    j ∈ idx := by
  have hsub : idx.toFinset ⊆ S := fun i hi => h.subset i (List.mem_toFinset.1 hi)
  have hcard : S.card ≤ idx.toFinset.card := by
    rw [List.toFinset_card_of_nodup h.nodup, h.length]
    omega
  have heq := Finset.eq_of_subset_of_card_le hsub hcard
  exact List.mem_toFinset.1 (heq ▸ hj)

/-- One more candidate. -/
theorem IsBest.add (h : IsBest d S k idx) {i : Nat} (hi : i ∉ S) :
    IsBest d (insert i S) k (addBounded d k idx i) := by
  have hnew : i ∉ idx := fun hm => hi (h.subset i hm)
  have hsorted := @insertBy_sorted _ _ d i idx h.sorted
  have hperm := @insertBy_perm _ _ d i idx
  have hnodup : (insertBy d i idx).Nodup := hperm.nodup_iff.2 (List.nodup_cons.2 ⟨hnew, h.nodup⟩)
  have hlen : (insertBy d i idx).length = min k S.card + 1 := by
    rw [hperm.length_eq, List.length_cons, h.length]
  refine ⟨?_, hnodup.sublist (List.take_sublist k _), fun a ha => ?_,
    hsorted.sublist (List.take_sublist k _), fun j hj hjn a ha => ?_⟩
  · rw [addBounded, List.length_take, hlen, Finset.card_insert_of_notMem hi]
    omega
  · rcases mem_insertBy.1 (List.mem_of_mem_take ha) with rfl | ha
    · exact Finset.mem_insert_self a S
    · exact Finset.mem_insert_of_mem (h.subset a ha)
  · by_cases hjf : j ∈ insertBy d i idx
    · -- `j` was pushed out of the list
      have hdrop : j ∈ (insertBy d i idx).drop k := by
        rw [← List.take_append_drop k (insertBy d i idx), List.mem_append] at hjf
        exact hjf.resolve_left hjn
      exact le_of_take_drop hsorted ha hdrop
    · -- `j` was left out before
      have hji : j ≠ i := fun he => hjf (mem_insertBy.2 (.inl he))
      have hjo : j ∉ idx := fun he => hjf (mem_insertBy.2 (.inr he))
      have hjS : j ∈ S := (Finset.mem_insert.1 hj).resolve_left hji
      rcases mem_insertBy.1 (List.mem_of_mem_take ha) with rfl | hao
      · -- the new candidate went in, so an old one, no farther than `j`, went out
        have hk : k < S.card := by
          by_contra hle
          exact hjo (h.mem_of_card_le (by omega) hjS)
        obtain ⟨x, hx⟩ : ∃ x, x ∈ (insertBy d a idx).drop k :=
          List.exists_mem_of_length_pos (by rw [List.length_drop, hlen]; omega)
        have hxa : x ≠ a := by
          rintro rfl
          rw [← List.take_append_drop k (insertBy d x idx), List.nodup_append] at hnodup
          exact hnodup.2.2 x ha x hx rfl
        have hxo : x ∈ idx := (mem_insertBy.1 (List.mem_of_mem_drop hx)).resolve_left hxa
        exact (le_of_take_drop hsorted ha hx).trans (h.optimal j hjS hjo x hxo)
      · exact h.optimal j hjS hjo a hao

/-- The key that a candidate has to beat: the last of a full list. -/
def worst (d : Nat → D) (k : Nat) (idx : List Nat) : WithTop D :=
  match idx[k - 1]? with
  | some i => d i
  | none => ⊤

omit [LinearOrder D] in
theorem worst_eq_top (hk : 1 ≤ k) (h : idx.length < k) : worst d k idx = ⊤ := by
  rw [worst, List.getElem?_eq_none (by omega)]

/-- Nothing on the list is farther than that. -/
theorem IsBest.le_worst (h : IsBest d S k idx) {i : Nat} (hi : i ∈ idx) :
    (d i : WithTop D) ≤ worst d k idx := by
  unfold worst
  split
  · rename_i j hj
    obtain ⟨hlt, hget⟩ := List.getElem?_eq_some_iff.1 hj
    obtain ⟨a, ha, rfl⟩ := List.mem_iff_getElem.1 hi
    have hlen := h.length
    rcases Nat.lt_or_ge a (k - 1) with hlt' | hge
    · rw [← hget]
      exact WithTop.coe_le_coe.2 (List.pairwise_iff_getElem.1 h.sorted a (k - 1) ha hlt hlt')
    · obtain rfl : a = k - 1 := by omega
      rw [← hget]
  · exact le_top

/-- Candidates that do not beat it need not be looked at. -/
theorem IsBest.skip (h : IsBest d S k idx) (hk : 1 ≤ k)
    (hT : ∀ j ∈ T, worst d k idx ≤ d j) : IsBest d (S ∪ T) k idx := by
  rcases Finset.eq_empty_or_nonempty T with rfl | ⟨t, ht⟩
  · rwa [Finset.union_empty]
  have hfull : k ≤ idx.length := by
    by_contra hlt
    have htop := hT t ht
    rw [worst_eq_top hk (by omega), top_le_iff] at htop
    exact WithTop.coe_ne_top htop
  have hlen := h.length
  have hcard : S.card ≤ (S ∪ T).card := Finset.card_le_card Finset.subset_union_left
  refine ⟨by omega, h.nodup, fun i hi => Finset.mem_union_left T (h.subset i hi), h.sorted, ?_⟩
  intro j hj hjn i hi
  rcases Finset.mem_union.1 hj with hj | hj
  · exact h.optimal j hj hjn i hi
  · exact WithTop.coe_le_coe.1 ((h.le_worst hi).trans (hT j hj))

/-- Another candidate does not push the mark up. -/
theorem IsBest.worst_addBounded_le (h : IsBest d S k idx) (hk : 1 ≤ k) {i : Nat} (hi : i ∉ S) :
    worst d k (addBounded d k idx i) ≤ worst d k idx := by
  have hlen := @length_addBounded _ _ d k idx i
  have hins : (insertBy d i idx).length = idx.length + 1 := length_insertBy i idx
  rcases Nat.lt_or_ge idx.length k with hlt | hge
  · rw [worst_eq_top hk hlt]
    exact le_top
  · -- the last entry is no farther than what was pushed out
    obtain ⟨x, hx⟩ : ∃ x, x ∈ (insertBy d i idx).drop k :=
      List.exists_mem_of_length_pos (by rw [List.length_drop]; have := h.length; omega)
    obtain ⟨w, hw⟩ : ∃ w, (addBounded d k idx i)[k - 1]? = some w :=
      ⟨_, List.getElem?_eq_getElem (by omega)⟩
    have hmem : w ∈ addBounded d k idx i := List.mem_of_getElem? hw
    rw [worst, hw]
    rcases mem_insertBy.1 (List.mem_of_mem_drop hx) with rfl | hx'
    · have hnodup : (insertBy d x idx).Nodup :=
        (insertBy_perm x idx).nodup_iff.2 (List.nodup_cons.2 ⟨fun hm => hi (h.subset x hm), h.nodup⟩)
      rw [← List.take_append_drop k (insertBy d x idx), List.nodup_append] at hnodup
      have hne : w ≠ x := hnodup.2.2 w hmem x hx
      exact h.le_worst ((mem_insertBy.1 (List.mem_of_mem_take hmem)).resolve_left hne)
    · exact (WithTop.coe_le_coe.2 (le_of_take_drop (insertBy_sorted h.sorted) hmem hx)).trans
        (h.le_worst hx')

/-- An answer is the beginning of all candidates in order. -/
theorem IsBest.exists_sorted (h : IsBest d S k idx) : ∃ all : List Nat, all.Nodup ∧
    (∀ i, i ∈ all ↔ i ∈ S) ∧ (all.Pairwise fun i j => d i ≤ d j) ∧ idx = all.take k := by
  let rest := ((S \ idx.toFinset).sort (· ≤ ·)).mergeSort fun i j => d i ≤ d j
  have hmem : ∀ i, i ∈ rest ↔ i ∈ S ∧ i ∉ idx := fun i => by simp [rest]
  have hsorted : rest.Pairwise fun i j => d i ≤ d j := by
    have := @List.pairwise_mergeSort _ (fun i j => d i ≤ d j)
      (fun a b c hab hbc => by simpa using le_trans (by simpa using hab) (by simpa using hbc))
      (fun a b => by simpa using le_total (d a) (d b)) ((S \ idx.toFinset).sort (· ≤ ·))
    simpa using this
  have hnodup : rest.Nodup := by simp [rest]
  refine ⟨idx ++ rest, ?_, fun i => ?_, ?_, ?_⟩
  · exact List.nodup_append.2 ⟨h.nodup, hnodup, fun i hi j hj he => ((hmem j).1 hj).2 (he ▸ hi)⟩
  · rw [List.mem_append, hmem]
    by_cases hi : i ∈ idx
    · exact iff_of_true (.inl hi) (h.subset i hi)
    · simp [hi]
  · exact List.pairwise_append.2 ⟨h.sorted, hsorted, fun i hi j hj =>
      h.optimal j ((hmem j).1 hj).1 ((hmem j).1 hj).2 i hi⟩
  · have hlen := h.length
    rcases Nat.lt_or_ge idx.length k with hlt | hge
    · have hnone : rest = [] := List.eq_nil_iff_forall_not_mem.2 fun i hi =>
        ((hmem i).1 hi).2 (h.mem_of_card_le (by omega) ((hmem i).1 hi).1)
      rw [hnone, List.append_nil, List.take_of_length_le (by omega)]
    · rw [List.take_append_of_le_length hge, List.take_of_length_le (by omega)]

/-- Answers differ at most in which of two candidates that are equally near they take. -/
theorem IsBest.map_eq {idx' : List Nat} (h : IsBest d S k idx) (h' : IsBest d S k idx') :
    idx.map d = idx'.map d := by
  obtain ⟨all, hnodup, hmem, hsorted, rfl⟩ := h.exists_sorted
  obtain ⟨all', hnodup', hmem', hsorted', rfl⟩ := h'.exists_sorted
  have hperm : all.Perm all' :=
    (List.perm_ext_iff_of_nodup hnodup hnodup').2 fun i => (hmem i).trans (hmem' i).symm
  have hall : all.map d = all'.map d :=
    (hperm.map d).eq_of_pairwise (fun _ _ _ _ => le_antisymm) (List.pairwise_map.2 hsorted)
      (List.pairwise_map.2 hsorted')
  rw [List.map_take, List.map_take, hall]

theorem isNearest_succ (h : IsNearest d m k idx) :
    IsNearest d (m + 1) k (addBounded d k idx m) := by
  have hbest := (isBest_range_iff.2 h).add Finset.notMem_range_self
  rw [← Finset.range_add_one] at hbest
  exact isBest_range_iff.1 hbest

/-- Where no two candidates are equally near there is one answer. -/
theorem IsNearest.unique {idx' : List Nat} (h : IsNearest d m k idx) (h' : IsNearest d m k idx')
    (hinj : ∀ i < m, ∀ j < m, d i = d j → i = j) : idx = idx' := by
  have hmap := (isBest_range_iff.2 h).map_eq (isBest_range_iff.2 h')
  refine List.ext_getElem (h.length.trans h'.length.symm) fun n hn hn' => ?_
  refine hinj _ (h.range _ (List.getElem_mem hn)) _ (h'.range _ (List.getElem_mem hn')) ?_
  have hget := congrArg (·[n]?) hmap
  simpa [hn, hn'] using hget

/-! ## All candidates in turn -/

/-- Insert all candidates one after the other. -/
def scan (d : Nat → D) (m k : Nat) : List Nat := (List.range m).foldl (addBounded d k) []

theorem scan_succ (d : Nat → D) (m k : Nat) : scan d (m + 1) k = addBounded d k (scan d m k) m := by
  simp [scan, List.range_succ]

/-- **The scan finds the nearest.** -/
theorem isNearest_scan (d : Nat → D) (m k : Nat) : IsNearest d m k (scan d m k) := by
  induction m with
  | zero => exact isNearest_zero d k
  | succ m ih =>
    rw [scan_succ]
    exact isNearest_succ ih

end Nearest
