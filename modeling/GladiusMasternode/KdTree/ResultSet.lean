import GladiusMasternode.Model.KdTree
/-
# `KNNResultSet` keeps the nearest

The two arrays are sorted by insertion from the back. While `addPoint` looks for the place, there is
always one slot that may be overwritten: behind the entries not looked at yet, in front of those that
have moved up. A full set loses its last entry.
-/

namespace GladiusMasternode

namespace Nanoflann

/-! ## An array with a free slot -/

section
variable {α : Type} {k : Nat}

/-- The first `k` entries of these, with `x` in the slot. -/
def slotted (k : Nat) (front : List α) (x : α) (back : List α) : List α := (front ++ x :: back).take k

theorem set_slotted (front back : List α) (x y : α) :
    (if front.length < k then (slotted k front x back).set front.length y else slotted k front x back) =
      slotted k front y back := by
  unfold slotted
  split
  · rw [← List.take_set, List.set_append_right _ _ (le_refl _), Nat.sub_self, List.set_cons_zero]
  · rw [List.take_append_of_le_length (by omega), List.take_append_of_le_length (by omega)]

theorem slotted_concat (front back : List α) (a x : α) :
    slotted k (front ++ [a]) x back = slotted k front a (x :: back) := by
  rw [slotted, slotted, List.append_assoc, List.singleton_append]

/-- What fills an array exactly leaves a slot behind it. -/
theorem exists_slotted [Inhabited α] {front back : List α} (h : (front ++ back).length = k) :
    ∃ x, front ++ back = slotted k front x back.tail := by
  unfold slotted
  cases back with
  | nil =>
    refine ⟨default, ?_⟩
    rw [List.append_nil] at h ⊢
    rw [List.take_append_of_le_length (by omega), List.take_of_length_le (by omega)]
  | cons x back => exact ⟨x, by rw [List.tail_cons, List.take_of_length_le (by omega)]⟩

end

/-! ## The set -/

section
variable {R : Type} {d : Nat → R} {slots idx : List Nat} {s : KNNResultSet R} {i : Nat}

/-- The keys of some candidates, as they stand in `dists`. -/
def keys (d : Nat → R) (idx : List Nat) : List (WithTop R) := idx.map fun i => (d i : WithTop R)

theorem length_keys : (keys d idx).length = idx.length := List.length_map _

theorem keys_append (front back : List Nat) : keys d (front ++ back) = keys d front ++ keys d back :=
  List.map_append

theorem keys_cons (i : Nat) (idx : List Nat) : keys d (i :: idx) = (d i : WithTop R) :: keys d idx := rfl

theorem keys_singleton (i : Nat) : keys d [i] = [(d i : WithTop R)] := rfl

theorem worst_eq_getD (k : Nat) (idx : List Nat) : Nearest.worst d k idx = (keys d idx).getD (k - 1) ⊤ := by
  rw [Nearest.worst, keys, List.getD_eq_getElem?_getD, List.getElem?_map]
  cases idx[k - 1]? <;> rfl

namespace KNNResultSet

/-- The set holds these candidates, in an array that was `slots`. -/
structure Holds (d : Nat → R) (slots idx : List Nat) (s : KNNResultSet R) : Prop where
  capacity : s.capacity = slots.length
  count : s.count = idx.length
  le : idx.length ≤ slots.length
  indices : s.indices = idx ++ slots.drop idx.length
  dists : ∃ rest, s.dists = keys d idx ++ rest
  length : s.dists.length = slots.length
  worst : s.worstDist = Nearest.worst d slots.length idx

theorem holds_init (d : Nat → R) {dists : List R} (hpos : 0 < slots.length)
    (hlen : dists.length = slots.length) : (init slots dists slots.length).Holds d slots [] := by
  unfold init
  dsimp only
  rw [if_neg (by omega)]
  refine ⟨rfl, rfl, Nat.zero_le _, rfl, ⟨_, rfl⟩, by simp [hlen], ?_⟩
  rw [Nearest.worst_eq_top hpos (by exact hpos), worstDist, List.getD_eq_getElem?_getD,
    List.getElem?_set_self (by simp; omega)]
  rfl

/-- A guarded write to the slot, in both arrays. -/
theorem write_slotted {n : Nat} {frontD backD : List (WithTop R)} {x : WithTop R}
    {frontI backI : List Nat} {y : Nat} (hdists : s.dists = slotted s.capacity frontD x backD)
    (hindices : s.indices = slotted s.capacity frontI y backI) (hd : frontD.length = n)
    (hi : frontI.length = n) (dist : WithTop R) (index : Nat) :
    (if n < s.capacity then { s with dists := s.dists.set n dist, indices := s.indices.set n index }
      else s) =
    { s with
      dists := slotted s.capacity frontD dist backD
      indices := slotted s.capacity frontI index backI } := by
  have hd' := @set_slotted _ s.capacity frontD backD x dist
  have hi' := @set_slotted _ s.capacity frontI backI y index
  rw [← hdists, hd] at hd'
  rw [← hindices, hi] at hi'
  by_cases hlt : n < s.capacity
  · rw [if_pos hlt] at hd' hi' ⊢
    rw [hd', hi']
  · rw [if_neg hlt] at hd' hi' ⊢
    rw [← hd', ← hi']

variable [LinearOrder R]

/-- The loop moves up what is farther than the new point and stops behind the rest. -/
theorem shift_spec (front moved : List Nat) {x : WithTop R} {y : Nat} {restD : List (WithTop R)}
    {restI : List Nat} (hdists : s.dists = slotted s.capacity (keys d front) x (keys d moved ++ restD))
    (hindices : s.indices = slotted s.capacity front y (moved ++ restI))
    (hle : front.length ≤ s.capacity) :
    ∃ s' x' y', shift (d i) front.length s = ((front.rdropWhile fun j => d i < d j).length, s') ∧
      s'.dists = slotted s'.capacity (keys d (front.rdropWhile fun j => d i < d j)) x'
        (keys d ((front.rtakeWhile fun j => d i < d j) ++ moved) ++ restD) ∧
      s'.indices = slotted s'.capacity (front.rdropWhile fun j => d i < d j) y'
        ((front.rtakeWhile fun j => d i < d j) ++ moved ++ restI) ∧
      s'.capacity = s.capacity ∧ s'.count = s.count := by
  induction front using List.reverseRecOn generalizing moved s x y with
  | nil => exact ⟨s, x, y, rfl, hdists, hindices, rfl, rfl⟩
  | append_singleton front a ih =>
    rw [List.length_append, List.length_singleton] at hle ⊢
    have hd : s.dists.getD front.length ⊤ = d a := by
      rw [hdists, slotted, List.getD_eq_getElem?_getD, List.getElem?_take_of_lt (by omega)]
      simp [keys]
    have hi : s.indices.getD front.length 0 = a := by
      rw [hindices, slotted, List.getD_eq_getElem?_getD, List.getElem?_take_of_lt (by omega)]
      simp
    rw [shift, hd, hi]
    by_cases hfar : d i < d a
    · rw [if_pos (WithTop.coe_lt_coe.2 hfar), List.rdropWhile_concat_pos _ _ _ (by simpa using hfar),
        List.rtakeWhile_concat_pos _ _ _ (by simpa using hfar), ← List.append_cons]
      -- the entry moves up into the slot, and leaves one where it was
      rw [keys_append, keys_singleton] at hdists
      rw [write_slotted hdists hindices (n := front.length + 1) (by simp [length_keys]) (by simp)]
      exact ih (a :: moved) (slotted_concat _ _ _ _) (slotted_concat _ _ _ _)
        (by show front.length ≤ s.capacity; omega)
    · rw [if_neg fun h => hfar (WithTop.coe_lt_coe.1 h),
        List.rdropWhile_concat_neg _ _ _ (by simpa using hfar),
        List.rtakeWhile_concat_neg _ _ _ (by simpa using hfar)]
      refine ⟨s, x, y, ?_, hdists, hindices, rfl, rfl⟩
      rw [List.length_append, List.length_singleton]

theorem addPoint_eq (h : s.Holds d slots idx) (i : Nat) : ∃ rest, s.dists = keys d idx ++ rest ∧
    s.addPoint (d i) i = (true,
      { indices := (Nearest.insertBy d i idx ++ slots.drop (idx.length + 1)).take slots.length
        dists := (keys d (Nearest.insertBy d i idx) ++ rest.tail).take slots.length
        capacity := slots.length
        count := if idx.length < slots.length then idx.length + 1 else idx.length }) := by
  obtain ⟨hcap, hcount, hle, hind, ⟨rest, hdists⟩, hlen, -⟩ := h
  have hslots : (idx ++ slots.drop idx.length).length = slots.length := by
    rw [List.length_append, List.length_drop]
    omega
  obtain ⟨x, hx⟩ := exists_slotted (by rw [← hdists, hlen] : (keys d idx ++ rest).length = slots.length)
  obtain ⟨y, hy⟩ := exists_slotted hslots
  obtain ⟨s', x', y', hshift, hdists', hindices', hcap', hcount'⟩ :=
    @shift_spec R d s i _ idx [] x y rest.tail (slots.drop idx.length).tail
      (by rw [hdists, hx, hcap]; rfl) (by rw [hind, hy, hcap]; rfl) (by omega)
  refine ⟨rest, hdists, ?_⟩
  unfold addPoint
  rw [hcount, hshift]
  dsimp only
  rw [write_slotted hdists' hindices' length_keys rfl]
  dsimp only
  rw [hcap', hcap, hcount', hcount, List.append_nil, slotted, slotted, List.tail_drop, Nearest.insertBy,
    keys_append, keys_cons]
  split <;> simp

/-- One insertion. -/
theorem addPoint_holds (hpos : 0 < slots.length) (h : s.Holds d slots idx) (i : Nat) :
    ∃ s', s.addPoint (d i) i = (true, s') ∧
      s'.Holds d slots (Nearest.addBounded d slots.length idx i) := by
  obtain ⟨rest, hdists, heq⟩ := addPoint_eq h i
  have hle := h.le
  have hins : (Nearest.insertBy d i idx).length = idx.length + 1 := Nearest.length_insertBy i idx
  have hadd : (Nearest.addBounded d slots.length idx i).length = min slots.length (idx.length + 1) :=
    Nearest.length_addBounded _ _ _
  have hrest : idx.length + rest.length = slots.length := by
    rw [← h.length, hdists, List.length_append, length_keys]
  refine ⟨_, heq, rfl, ?_, by rw [hadd]; omega, ?_, ?_, ?_, ?_⟩
  · rw [hadd]
    dsimp only
    split <;> omega
  · rw [hadd, Nearest.addBounded]
    dsimp only
    rw [List.take_append, hins]
    congr 1
    rcases Nat.lt_or_ge idx.length slots.length with hlt | hge
    · rw [min_eq_right (by omega), List.take_of_length_le (List.length_drop.le)]
    · rw [List.drop_eq_nil_of_le (by omega), List.drop_eq_nil_of_le (by omega), List.take_nil]
  · refine ⟨rest.tail.take (slots.length - (idx.length + 1)), ?_⟩
    dsimp only
    rw [List.take_append, length_keys, hins, Nearest.addBounded, keys, keys, List.map_take]
  · dsimp only
    rw [List.length_take, List.length_append, length_keys, hins, List.length_tail]
    omega
  · rw [worst_eq_getD, worstDist, List.getD_eq_getElem?_getD, List.getD_eq_getElem?_getD]
    dsimp only
    rw [List.getElem?_take_of_lt (by omega)]
    rcases Nat.lt_or_ge (idx.length + 1) slots.length with hlt | hge
    · -- the last slot of `dists` still holds what `init` has put there
      have hold : s.worstDist = ⊤ := by rw [h.worst, Nearest.worst_eq_top hpos (by omega)]
      rw [worstDist, h.capacity, hdists, List.getD_eq_getElem?_getD,
        List.getElem?_append_right (by rw [length_keys]; omega), length_keys] at hold
      rw [List.getElem?_append_right (by rw [length_keys]; omega), length_keys, hins, List.getElem?_tail,
        show slots.length - 1 - (idx.length + 1) + 1 = slots.length - 1 - idx.length by omega, hold,
        List.getElem?_eq_none (by rw [length_keys]; omega)]
      rfl
    · rw [List.getElem?_append_left (by rw [length_keys]; omega), Nearest.addBounded, keys, keys,
        List.map_take, List.getElem?_take_of_lt (by omega)]

/-- The set holds the nearest of the points in `S`. -/
def Best (d : Nat → R) (slots : List Nat) (S : Finset Nat) (s : KNNResultSet R) : Prop :=
  ∃ idx, s.Holds d slots idx ∧ Nearest.IsBest d S slots.length idx

variable {S T : Finset Nat}

theorem best_init (d : Nat → R) {dists : List R} (hpos : 0 < slots.length)
    (hlen : dists.length = slots.length) : (init slots dists slots.length).Best d slots ∅ :=
  ⟨[], holds_init d hpos hlen, Nearest.isBest_empty d _⟩

theorem Best.addPoint (h : s.Best d slots S) (hpos : 0 < slots.length) (hi : i ∉ S) :
    ∃ s', s.addPoint (d i) i = (true, s') ∧ s'.Best d slots (insert i S) ∧
      s'.worstDist ≤ s.worstDist := by
  obtain ⟨idx, hholds, hbest⟩ := h
  obtain ⟨s', hadd, hholds'⟩ := addPoint_holds hpos hholds i
  refine ⟨s', hadd, ⟨_, hholds', hbest.add hi⟩, ?_⟩
  rw [hholds.worst, hholds'.worst]
  exact hbest.worst_addBounded_le hpos hi

/-- Points that are not nearer than the worst in the set change nothing. -/
theorem Best.skip (h : s.Best d slots S) (hpos : 0 < slots.length) (hT : ∀ j ∈ T, s.worstDist ≤ d j) :
    s.Best d slots (S ∪ T) := by
  obtain ⟨idx, hholds, hbest⟩ := h
  refine ⟨idx, hholds, hbest.skip hpos fun j hj => ?_⟩
  rw [← hholds.worst]
  exact hT j hj

theorem Best.skip_one (h : s.Best d slots S) (hpos : 0 < slots.length) {i : Nat}
    (hfar : s.worstDist ≤ d i) : s.Best d slots (insert i S) := by
  rw [Finset.insert_eq, Finset.union_comm]
  refine h.skip hpos fun j hj => ?_
  rw [Finset.mem_singleton.1 hj]
  exact hfar

theorem new_of_cons {i : Nat} {rest : List Nat} (hi : i ∉ rest) (hnew : ∀ j ∈ i :: rest, j ∉ S) :
    ∀ j ∈ rest, j ∉ insert i S := by
  intro j hj hjS
  rcases Finset.mem_insert.1 hjS with rfl | hjS
  · exact hi hj
  · exact hnew j (List.mem_cons_of_mem i hj) hjS

theorem Best.count_eq (h : s.Best d slots S) : s.count = min slots.length S.card := by
  obtain ⟨idx, hholds, hbest⟩ := h
  rw [hholds.count, hbest.length]

omit [LinearOrder R] in
theorem Holds.dists_eq (h : s.Holds d slots idx) : s.dists.take s.count = keys d idx := by
  obtain ⟨rest, hdists⟩ := h.dists
  rw [hdists, h.count, List.take_append_of_le_length (length_keys.ge), List.take_of_length_le length_keys.le]

/-- The points may differ where some are equally far, the distances do not. -/
theorem Best.dists_eq {s' : KNNResultSet R} (h : s.Best d slots S) (h' : s'.Best d slots S) :
    s.dists.take s.count = s'.dists.take s'.count := by
  obtain ⟨idx, hholds, hbest⟩ := h
  obtain ⟨idx', hholds', hbest'⟩ := h'
  rw [hholds.dists_eq, hholds'.dists_eq]
  have hmap := congrArg (List.map WithTop.some) (hbest.map_eq hbest')
  rwa [List.map_map, List.map_map] at hmap

/-- These points are offered one after the other: each is added, or left out where it is not nearer
than the worst in the set. -/
inductive Offered (d : Nat → R) : List Nat → KNNResultSet R → KNNResultSet R → Prop
  | nil (s : KNNResultSet R) : Offered d [] s s
  | add {i : Nat} {rest : List Nat} {s t : KNNResultSet R}
      (h : Offered d rest (s.addPoint (d i) i).2 t) : Offered d (i :: rest) s t
  | skip {i : Nat} {rest : List Nat} {s t : KNNResultSet R} (hfar : s.worstDist ≤ d i)
      (h : Offered d rest s t) : Offered d (i :: rest) s t

theorem Best.offered {t : KNNResultSet R} {pts : List Nat} (h : s.Best d slots S)
    (hoff : Offered d pts s t) (hpos : 0 < slots.length) (hnodup : pts.Nodup)
    (hnew : ∀ i ∈ pts, i ∉ S) : t.Best d slots (S ∪ pts.toFinset) := by
  induction hoff generalizing S with
  | nil s => simpa using h
  | @add i rest s t hrest ih =>
    obtain ⟨hi, hnodup⟩ := List.nodup_cons.1 hnodup
    obtain ⟨s', hadd, hs', -⟩ := h.addPoint hpos (hnew i List.mem_cons_self)
    rw [hadd] at ih
    rw [List.toFinset_cons, Finset.union_insert, ← Finset.insert_union]
    exact ih hs' hnodup (new_of_cons hi hnew)
  | @skip i rest s t hfar hrest ih =>
    obtain ⟨hi, hnodup⟩ := List.nodup_cons.1 hnodup
    rw [List.toFinset_cons, Finset.union_insert, ← Finset.insert_union]
    exact ih (h.skip_one hpos hfar) hnodup (new_of_cons hi hnew)

/-- `addPoint` for one point after the other, with none left out. -/
def addPoints (d : Nat → R) : List Nat → KNNResultSet R → KNNResultSet R
  | [], s => s
  | i :: rest, s => addPoints d rest (s.addPoint (d i) i).2

theorem offered_addPoints (d : Nat → R) (pts : List Nat) (s : KNNResultSet R) :
    Offered d pts s (addPoints d pts s) := by
  induction pts generalizing s with
  | nil => exact .nil s
  | cons i rest ih => exact .add (ih _)

/-- **The set keeps the nearest of all points offered**, in any order and also with more slots than
points; the array's other slots are left as they were. -/
theorem keeps_nearest (d : Nat → R) {dists : List R} (hpos : 0 < slots.length)
    (hlen : dists.length = slots.length) {pts : List Nat} (hnodup : pts.Nodup) {s : KNNResultSet R}
    (hoff : Offered d pts (init slots dists slots.length) s) : ∃ idx,
      Nearest.IsBest d pts.toFinset slots.length idx ∧
      s.indices = idx ++ slots.drop idx.length ∧
      s.dists.take idx.length = keys d idx ∧
      s.count = min slots.length pts.length := by
  obtain ⟨idx, hholds, hbest⟩ :=
    (best_init d hpos hlen).offered hoff hpos hnodup fun i _ => Finset.notMem_empty i
  rw [Finset.empty_union] at hbest
  refine ⟨idx, hbest, hholds.indices, ?_, ?_⟩
  · rw [← hholds.dists_eq, hholds.count]
  · rw [hholds.count, hbest.length, List.toFinset_card_of_nodup hnodup]

/-- The third of four points moves the second out; the fourth is left out. -/
theorem keeps_nearest_two_of_four : ∃ s, Offered (fun i => (i : ℤ)) [0, 2, 1, 3] (init [7, 7] [0, 0] 2) s ∧
    s.indices = [0, 1] ∧ ∃ idx,
      Nearest.IsBest (fun i => (i : ℤ)) [0, 2, 1, 3].toFinset 2 idx ∧
      s.indices = idx ++ [7, 7].drop idx.length ∧
      s.dists.take idx.length = keys (fun i => (i : ℤ)) idx ∧
      s.count = 2 := by
  have hoff : Offered (fun i => (i : ℤ)) [0, 2, 1, 3] (init [7, 7] [0, 0] 2)
      (addPoints (fun i => (i : ℤ)) [0, 2, 1] (init [7, 7] [0, 0] 2)) :=
    .add (.add (.add (.skip (by decide) (.nil _))))
  exact ⟨_, hoff, by decide, @keeps_nearest ℤ [7, 7] _ (fun i => (i : ℤ)) [0, 0] (by decide) rfl
    [0, 2, 1, 3] (by decide) _ hoff⟩

end KNNResultSet

end

end Nanoflann

end GladiusMasternode
