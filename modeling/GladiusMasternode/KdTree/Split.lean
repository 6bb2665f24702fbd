import GladiusMasternode.Model.KdTree
import Mathlib.Data.List.GetD
/-
# Splitting a range of points

One `for (;;)` of `planeSplit` moves what satisfies a test to the front: two positions run towards
each other, and whenever both are stuck the two entries change places. `right` is unsigned and stops
at 0 without a look at entry 0; the loop then leaves, and `left` is right all the same.
-/

namespace GladiusMasternode

namespace Nanoflann

/-! ## The two inner loops -/

section
variable {p : Nat → Bool} {ind : List Nat}

/-- Up to `right`, or to the first entry that fails the test. -/
theorem advance_spec (left room : Nat) :
    left ≤ advance p ind left room ∧ advance p ind left room ≤ left + room ∧
    (∀ j, left ≤ j → j < advance p ind left room → p (ind.getD j 0) = true) ∧
    (advance p ind left room < left + room → p (ind.getD (advance p ind left room) 0) = false) := by
  induction room generalizing left with
  | zero =>
    exact ⟨le_refl _, le_refl _, fun j hle hlt => absurd hlt (by simp [advance]; omega),
      by simp [advance]⟩
  | succ room ih =>
    rw [advance]
    split
    · rename_i hp
      obtain ⟨hge, hle, hall, hstop⟩ := ih (left + 1)
      refine ⟨by omega, by omega, fun j hj hlt => ?_, fun hlt => hstop (by omega)⟩
      rcases Nat.eq_or_lt_of_le hj with rfl | hj
      · exact hp
      · exact hall j hj hlt
    · rename_i hp
      exact ⟨le_refl _, by omega, fun j hle hlt => absurd hlt (by omega), fun _ => by simpa using hp⟩

/-- Down to 0, to below `left`, or to the first entry that meets the test. -/
theorem retreat_spec (left right : Nat) :
    retreat p ind left right ≤ right ∧
    (∀ j, left ≤ j → retreat p ind left right < j → j ≤ right → p (ind.getD j 0) = false) ∧
    (left ≤ retreat p ind left right → 0 < retreat p ind left right →
      p (ind.getD (retreat p ind left right) 0) = true) := by
  induction right with
  | zero => exact ⟨le_refl _, fun j _ hlt hle => absurd hlt (by simp [retreat]; omega), by simp [retreat]⟩
  | succ right ih =>
    rw [retreat]
    split
    · rename_i hp
      obtain ⟨hle, hall, hstop⟩ := ih
      refine ⟨by omega, fun j hj hlt hjr => ?_, hstop⟩
      rcases Nat.eq_or_lt_of_le hjr with rfl | hjr
      · simp only [Bool.and_eq_true, decide_eq_true_eq, Bool.not_eq_true'] at hp
        exact hp.2
      · exact hall j hj hlt (by omega)
    · rename_i hp
      refine ⟨le_refl _, fun j _ hlt hle => absurd hlt (by omega), fun hle _ => ?_⟩
      simpa [hle] using hp

/-! ## The exchange -/

theorem swap_perm {i j : Nat} (hi : i < ind.length) (hj : j < ind.length) : (swap ind i j).Perm ind := by
  rw [swap, List.getD_eq_getElem _ _ hi, List.getD_eq_getElem _ _ hj]
  exact List.set_set_perm hi hj

theorem getD_swap_left {i j : Nat} (hij : i ≠ j) (hi : i < ind.length) :
    (swap ind i j).getD i 0 = ind.getD j 0 := by
  simp [swap, List.getD_eq_getElem?_getD, hij.symm, hi]

theorem getD_swap_right {i j : Nat} (hj : j < ind.length) : (swap ind i j).getD j 0 = ind.getD i 0 := by
  simp [swap, List.getD_eq_getElem?_getD, hj]

theorem getD_swap_ne {i j k : Nat} (hi : k ≠ i) (hj : k ≠ j) : (swap ind i j).getD k 0 = ind.getD k 0 := by
  simp [swap, List.getD_eq_getElem?_getD, hi.symm, hj.symm]

/-! ## The loop -/

/-- The entries before `left` meet the test and the ones behind `right` fail it. -/
structure Sorting (p : Nat → Bool) (ind : List Nat) (left right : Nat) : Prop where
  inside : right < ind.length
  meet : left ≤ right + 1
  front : ∀ j < left, p (ind.getD j 0) = true
  back : ∀ j, right < j → j < ind.length → p (ind.getD j 0) = false

/-- A range that is split at `lim`, from one that agreed with it before `left`. -/
structure SplitAt (p : Nat → Bool) (ind : List Nat) (left : Nat) (out : List Nat × Nat) : Prop where
  perm : out.1.Perm ind
  kept : ∀ j < left, out.1.getD j 0 = ind.getD j 0
  ge : left ≤ out.2
  le : out.2 ≤ ind.length
  front : ∀ j < out.2, p (out.1.getD j 0) = true
  back : ∀ j, out.2 ≤ j → j < ind.length → p (out.1.getD j 0) = false

/-- After an exchange both ends have moved on. -/
theorem Sorting.exchange {left right left' right' : Nat} (h : Sorting p ind left right)
    (hl : left' = advance p ind left (right + 1 - left)) (hr : right' = retreat p ind left' right)
    (hle : left' ≤ right') (hpos : 0 < right') :
    left' < right' ∧ left' < ind.length ∧ right' < ind.length ∧
    Sorting p (swap ind left' right') (left' + 1) (right' - 1) := by
  obtain ⟨hge, hup, hall, hstop⟩ := @advance_spec p ind left (right + 1 - left)
  obtain ⟨hdown, hnone, hfound⟩ := @retreat_spec p ind left' right
  rw [← hl] at hge hup hall hstop
  rw [← hr] at hdown hnone hfound
  have hmeet := h.meet
  have hin := h.inside
  have hno : p (ind.getD left' 0) = false := hstop (by omega)
  have hyes : p (ind.getD right' 0) = true := hfound hle hpos
  have hne : left' ≠ right' := by
    rintro rfl
    rw [hno] at hyes
    cases hyes
  have hlt : left' < right' := by omega
  have hlen : (swap ind left' right').length = ind.length := by simp [swap]
  refine ⟨hlt, by omega, by omega, by omega, by omega, fun j hj => ?_, fun j hj hjn => ?_⟩
  · rcases Nat.lt_succ_iff_lt_or_eq.1 hj with hj | rfl
    · rw [getD_swap_ne (by omega) (by omega)]
      rcases Nat.lt_or_ge j left with hj' | hj'
      · exact h.front j hj'
      · exact hall j hj' hj
    · rwa [getD_swap_left hne (by omega)]
  · rw [hlen] at hjn
    rcases Nat.lt_or_ge right' j with hj' | hj'
    · rw [getD_swap_ne (by omega) (by omega)]
      rcases Nat.lt_or_ge right j with hjr | hjr
      · exact h.back j hjr hjn
      · exact hnone j (by omega) hj' hjr
    · obtain rfl : j = right' := by omega
      rwa [getD_swap_right (by omega)]

/-- Where the loop leaves, `left` separates the entries, also if `right` has stopped at 0. -/
theorem Sorting.leave {left right left' right' : Nat} (h : Sorting p ind left right)
    (hl : left' = advance p ind left (right + 1 - left)) (hr : right' = retreat p ind left' right)
    (hout : right' < left' ∨ right' = 0) : SplitAt p ind left (ind, left') := by
  obtain ⟨hge, hup, hall, hstop⟩ := @advance_spec p ind left (right + 1 - left)
  obtain ⟨hdown, hnone, -⟩ := @retreat_spec p ind left' right
  rw [← hl] at hge hup hall hstop
  rw [← hr] at hdown hnone
  have hmeet := h.meet
  have hin := h.inside
  refine ⟨.refl _, fun _ _ => rfl, hge, by show left' ≤ _; omega, fun j hj => ?_, fun j hj hjn => ?_⟩
  · rcases Nat.lt_or_ge j left with hj' | hj'
    · exact h.front j hj'
    · exact hall j hj' hj
  · change left' ≤ j at hj
    rcases Nat.lt_or_ge right j with hjr | hjr
    · exact h.back j hjr hjn
    · rcases Nat.lt_or_ge right' j with hj' | hj'
      · exact hnone j hj hj' hjr
      · -- both ends are at 0, which `advance` has looked at
        obtain rfl : j = left' := by omega
        exact hstop (by omega)

theorem splitLoop_spec {turns left right : Nat} (h : Sorting p ind left right)
    (hturns : right + 1 - left ≤ turns) :
    SplitAt p ind left (splitLoop p turns ind left right) := by
  induction turns generalizing ind left right with
  | zero =>
    have hmeet := h.meet
    have hin := h.inside
    obtain rfl : left = right + 1 := by omega
    exact ⟨.refl _, fun _ _ => rfl, le_refl _, by show right + 1 ≤ _; omega, h.front,
      fun j hj => h.back j (by exact hj)⟩
  | succ turns ih =>
    rw [splitLoop]
    split
    · rename_i hout
      exact h.leave rfl rfl (by simpa using hout)
    · rename_i hgo
      simp only [gt_iff_lt, Bool.or_eq_true, decide_eq_true_eq, beq_iff_eq, not_or, not_lt] at hgo
      obtain ⟨hlt, hl, hr, hnext⟩ := h.exchange rfl rfl hgo.1 (by omega)
      have hge := (@advance_spec p ind left (right + 1 - left)).1
      have hdown := (@retreat_spec p ind (advance p ind left (right + 1 - left)) right).1
      obtain ⟨hperm, hkept, hge', hle, hfront, hback⟩ := ih hnext (by omega)
      have hswap := swap_perm hl hr
      refine ⟨hperm.trans hswap, fun j hj => ?_, by omega, by rw [← hswap.length_eq]; exact hle,
        hfront, fun j hj hjn => hback j hj (by rwa [hswap.length_eq])⟩
      rw [hkept j (by omega), getD_swap_ne (by omega) (by omega)]

/-! ## By sublists -/

theorem forall_mem_take_iff {l : List Nat} {n : Nat} (hn : n ≤ l.length) {P : Nat → Prop} :
    (∀ i ∈ l.take n, P i) ↔ ∀ j < n, P (l.getD j 0) := by
  constructor
  · intro h j hj
    have hlt : j < l.length := by omega
    rw [List.getD_eq_getElem _ _ hlt]
    exact h _ (List.mem_take_iff_getElem.2 ⟨j, by omega, rfl⟩)
  · intro h i hi
    obtain ⟨j, hj, rfl⟩ := List.mem_take_iff_getElem.1 hi
    have := h j (by omega)
    rwa [List.getD_eq_getElem _ _ (by omega)] at this

theorem forall_mem_drop_iff {l : List Nat} {n : Nat} {P : Nat → Prop} :
    (∀ i ∈ l.drop n, P i) ↔ ∀ j, n ≤ j → j < l.length → P (l.getD j 0) := by
  constructor
  · intro h j hj hlt
    rw [List.getD_eq_getElem _ _ hlt]
    exact h _ (List.mem_drop_iff_getElem.2 ⟨j - n, by omega, by congr 1; omega⟩)
  · intro h i hi
    obtain ⟨j, hj, rfl⟩ := List.mem_drop_iff_getElem.1 hi
    have := h (n + j) (by omega) (by omega)
    rwa [List.getD_eq_getElem _ _ (by omega)] at this

end

/-! ## `planeSplit` -/

section
variable {R : Type} [LinearOrder R] {dim : Nat} {data : DatasetAdaptor R dim} {ind : List Nat}

/-- What the comment on `planeSplit` promises. -/
structure Planes.Sides (data : DatasetAdaptor R dim) (cutfeat : Fin dim) (cutval : R) (s : Planes) :
    Prop where
  le : s.lim1 ≤ s.lim2
  le_length : s.lim2 ≤ s.ind.length
  below : ∀ i ∈ s.ind.take s.lim1, data.kdtree_get_pt i cutfeat < cutval
  on : ∀ i ∈ (s.ind.take s.lim2).drop s.lim1, data.kdtree_get_pt i cutfeat = cutval
  above : ∀ i ∈ s.ind.drop s.lim2, cutval < data.kdtree_get_pt i cutfeat

/-- **Three-way split.** The second loop starts where the first one ended, and leaves alone what that
one has moved to the front. -/
theorem planeSplit_spec (data : DatasetAdaptor R dim) (hne : ind ≠ []) (cutfeat : Fin dim) (cutval : R) :
    (planeSplit data ind cutfeat cutval).ind.Perm ind ∧
    (planeSplit data ind cutfeat cutval).Sides data cutfeat cutval := by
  have hpos := List.length_pos_of_ne_nil hne
  have hstart : Sorting (fun i => data.kdtree_get_pt i cutfeat < cutval) ind 0 (ind.length - 1) :=
    ⟨by omega, by omega, fun j hj => absurd hj (by omega), fun j hj hjn => absurd hjn (by omega)⟩
  have hfirst := @splitLoop_spec _ _ ind.length _ _ hstart (by omega)
  set first := splitLoop (fun i => data.kdtree_get_pt i cutfeat < cutval) ind.length ind 0 (ind.length - 1)
  have hlen := hfirst.perm.length_eq
  have hlim := hfirst.le
  have hnext : Sorting (fun i => data.kdtree_get_pt i cutfeat ≤ cutval) first.1 first.2 (ind.length - 1) := by
    refine ⟨by omega, by omega, fun j hj => ?_, fun j hj hjn => absurd hjn (by omega)⟩
    have := hfirst.front j hj
    simp only [decide_eq_true_eq] at this ⊢
    exact le_of_lt this
  have hsecond := @splitLoop_spec _ _ ind.length _ _ hnext (by omega)
  have hsplit : planeSplit data ind cutfeat cutval =
    ⟨(splitLoop (fun i => data.kdtree_get_pt i cutfeat ≤ cutval) ind.length first.1 first.2
      (ind.length - 1)).1, first.2, (splitLoop (fun i => data.kdtree_get_pt i cutfeat ≤ cutval)
      ind.length first.1 first.2 (ind.length - 1)).2⟩ := rfl
  rw [hsplit]
  set second := splitLoop (fun i => data.kdtree_get_pt i cutfeat ≤ cutval) ind.length first.1 first.2
    (ind.length - 1)
  have hlen2 := hsecond.perm.length_eq
  have hge := hsecond.ge
  have hle := hsecond.le
  refine ⟨hsecond.perm.trans hfirst.perm, hge, by show second.2 ≤ second.1.length; omega, ?_, ?_, ?_⟩
  · refine (forall_mem_take_iff (by show first.2 ≤ second.1.length; omega)).2 fun j hj => ?_
    rw [hsecond.kept j hj]
    simpa using hfirst.front j hj
  · intro i hi
    have hdrop : i ∈ second.1.drop first.2 := by
      rw [List.drop_take] at hi
      exact List.mem_of_mem_take hi
    -- what the first loop had left behind, in another order
    have hperm : (second.1.drop first.2).Perm (first.1.drop first.2) := by
      refine hsecond.perm.drop_of_getElem? fun j hj => ?_
      have hkept := hsecond.kept j hj
      rw [List.getD_eq_getElem _ _ (by omega), List.getD_eq_getElem _ _ (by omega)] at hkept
      rw [List.getElem?_eq_getElem (by omega), List.getElem?_eq_getElem (by omega), hkept]
    have hnot : ∀ i ∈ first.1.drop first.2, ¬ data.kdtree_get_pt i cutfeat < cutval := by
      refine forall_mem_drop_iff.2 fun j hj hjn => ?_
      simpa using hfirst.back j hj (by omega)
    have hupto : ∀ i ∈ second.1.take second.2, data.kdtree_get_pt i cutfeat ≤ cutval := by
      refine (forall_mem_take_iff (by omega)).2 fun j hj => ?_
      simpa using hsecond.front j hj
    exact le_antisymm (hupto i (List.mem_of_mem_drop hi)) (not_lt.1 (hnot i (hperm.mem_iff.1 hdrop)))
  · refine forall_mem_drop_iff.2 fun j hj hjn => ?_
    simpa using hsecond.back j hj (by change j < second.1.length at hjn; omega)

namespace Planes.Sides

variable {cutfeat : Fin dim} {cutval : R} {s : Planes}

theorem upto (h : s.Sides data cutfeat cutval) {i : Nat} (hi : i ∈ s.ind.take s.lim2) :
    data.kdtree_get_pt i cutfeat ≤ cutval := by
  rw [← List.take_append_drop s.lim1 (s.ind.take s.lim2), List.take_take, min_eq_left h.le,
    List.mem_append] at hi
  rcases hi with hi | hi
  · exact le_of_lt (h.below i hi)
  · exact le_of_eq (h.on i hi)

theorem onward (h : s.Sides data cutfeat cutval) {i : Nat} (hi : i ∈ s.ind.drop s.lim1) :
    cutval ≤ data.kdtree_get_pt i cutfeat := by
  have hle := h.le
  have hlen := h.le_length
  rw [← List.take_append_drop s.lim2 s.ind,
    List.drop_append_of_le_length (by rw [List.length_take]; omega), List.mem_append] at hi
  rcases hi with hi | hi
  · exact ge_of_eq (h.on i hi)
  · exact le_of_lt (h.above i hi)

end Planes.Sides

/-- What is put in front is what there is to be put in front. -/
theorem countP_eq_of_split {p : Nat → Bool} {out : List Nat} {lim : Nat} (hperm : out.Perm ind)
    (hlim : lim ≤ out.length) (hfront : ∀ i ∈ out.take lim, p i = true)
    (hback : ∀ i ∈ out.drop lim, p i = false) : ind.countP p = lim := by
  rw [← hperm.countP_eq, ← List.take_append_drop lim out, List.countP_append,
    List.countP_eq_length.2 hfront, List.length_take, min_eq_left hlim]
  have hnone : (out.drop lim).countP p = 0 := List.countP_eq_zero.2 fun i hi => by simp [hback i hi]
  rw [hnone, Nat.add_zero]

/-- **The limits are the numbers of points** below the plane and up to it, whatever the order in which
they come. -/
theorem planeSplit_counts (data : DatasetAdaptor R dim) (hne : ind ≠ []) (cutfeat : Fin dim) (cutval : R) :
    let s := planeSplit data ind cutfeat cutval
    s.ind.Perm ind ∧ s.Sides data cutfeat cutval ∧
    s.lim1 = ind.countP (fun i => data.kdtree_get_pt i cutfeat < cutval) ∧
    s.lim2 = ind.countP (fun i => data.kdtree_get_pt i cutfeat ≤ cutval) := by
  intro s
  obtain ⟨hperm, hsides⟩ := planeSplit_spec data hne cutfeat cutval
  have hle := hsides.le
  have hlen := hsides.le_length
  refine ⟨hperm, hsides, Eq.symm ?_, Eq.symm ?_⟩
  · refine countP_eq_of_split hperm (le_trans hle hlen) (fun i hi => ?_) fun i hi => ?_
    · simpa using hsides.below i hi
    · simpa using hsides.onward hi
  · refine countP_eq_of_split hperm hlen (fun i hi => ?_) fun i hi => ?_
    · simpa using hsides.upto hi
    · simpa using hsides.above i hi

theorem planeSplit_counts_of_three :
    let data : DatasetAdaptor Nat 1 := { kdtree_get_point_count := 3, kdtree_get_pt := fun i _ => i }
    let s := planeSplit data [2, 1, 0] 0 1
    s.ind.Perm [2, 1, 0] ∧ s.Sides data 0 1 ∧ s.lim1 = [2, 1, 0].countP (fun i => i < 1) ∧
    s.lim2 = [2, 1, 0].countP (fun i => i ≤ 1) :=
  planeSplit_counts _ (List.cons_ne_nil _ _) 0 1

/-! ## The extent of a range -/

/-- The smallest and the largest coordinate of the points of a range. -/
structure Spans (data : DatasetAdaptor R dim) (ind : List Nat) (k : Fin dim) (low high : R) : Prop where
  inside : ∀ i ∈ ind, low ≤ data.kdtree_get_pt i k ∧ data.kdtree_get_pt i k ≤ high
  low_mem : ∃ i ∈ ind, data.kdtree_get_pt i k = low
  high_mem : ∃ i ∈ ind, data.kdtree_get_pt i k = high

theorem Spans.le {k : Fin dim} {low high : R} (h : Spans data ind k low high) : low ≤ high := by
  obtain ⟨i, hi, rfl⟩ := h.low_mem
  exact (h.inside i hi).2

theorem Spans.perm {ind' : List Nat} {k : Fin dim} {low high : R} (h : Spans data ind k low high)
    (hperm : ind'.Perm ind) : Spans data ind' k low high := by
  obtain ⟨hin, ⟨i, hi, hlow⟩, ⟨j, hj, hhigh⟩⟩ := h
  exact ⟨fun i hi => hin i (hperm.mem_iff.1 hi), ⟨i, hperm.mem_iff.2 hi, hlow⟩,
    ⟨j, hperm.mem_iff.2 hj, hhigh⟩⟩

theorem spans_singleton (data : DatasetAdaptor R dim) (i : Nat) (k : Fin dim) :
    Spans data [i] k (data.kdtree_get_pt i k) (data.kdtree_get_pt i k) := by
  refine ⟨fun j hj => ?_, ⟨i, by simp, rfl⟩, ⟨i, by simp, rfl⟩⟩
  rw [List.mem_singleton.1 hj]
  exact ⟨le_refl _, le_refl _⟩

theorem Spans.append {ind' : List Nat} {k : Fin dim} {low high low' high' : R}
    (h : Spans data ind k low high) (h' : Spans data ind' k low' high') :
    Spans data (ind ++ ind') k (min low low') (max high high') := by
  refine ⟨fun i hi => ?_, ?_, ?_⟩
  · rcases List.mem_append.1 hi with hi | hi
    · exact ⟨(min_le_left _ _).trans (h.inside i hi).1, (h.inside i hi).2.trans (le_max_left _ _)⟩
    · exact ⟨(min_le_right _ _).trans (h'.inside i hi).1, (h'.inside i hi).2.trans (le_max_right _ _)⟩
  · obtain ⟨i, hi, hlow⟩ := h.low_mem
    obtain ⟨j, hj, hlow'⟩ := h'.low_mem
    rcases min_choice low low' with hmin | hmin
    · exact ⟨i, List.mem_append_left _ hi, hlow.trans hmin.symm⟩
    · exact ⟨j, List.mem_append_right _ hj, hlow'.trans hmin.symm⟩
  · obtain ⟨i, hi, hhigh⟩ := h.high_mem
    obtain ⟨j, hj, hhigh'⟩ := h'.high_mem
    rcases max_choice high high' with hmax | hmax
    · exact ⟨i, List.mem_append_left _ hi, hhigh.trans hmax.symm⟩
    · exact ⟨j, List.mem_append_right _ hj, hhigh'.trans hmax.symm⟩

/-- One step of the loops that look for the extent. -/
theorem Spans.extend {k : Fin dim} {low high : R} (h : Spans data ind k low high) (i : Nat) :
    Spans data (ind ++ [i]) k
      (if data.kdtree_get_pt i k < low then data.kdtree_get_pt i k else low)
      (if data.kdtree_get_pt i k > high then data.kdtree_get_pt i k else high) := by
  have happ := h.append (spans_singleton data i k)
  convert happ using 1
  · rw [min_comm, min_def_lt]
  · rw [max_def_lt]

theorem spans_foldl {k : Fin dim} (rest : List Nat) (minmax : R × R)
    (h : Spans data ind k minmax.1 minmax.2) :
    Spans data (ind ++ rest) k
      (rest.foldl (fun (minmax : R × R) i =>
        let val := data.kdtree_get_pt i k
        (if val < minmax.1 then val else minmax.1, if val > minmax.2 then val else minmax.2)) minmax).1
      (rest.foldl (fun (minmax : R × R) i =>
        let val := data.kdtree_get_pt i k
        (if val < minmax.1 then val else minmax.1, if val > minmax.2 then val else minmax.2)) minmax).2 := by
  induction rest generalizing ind minmax with
  | nil => simpa using h
  | cons i rest ih =>
    rw [List.append_cons, List.foldl_cons]
    exact ih (_, _) (h.extend i)

theorem computeMinMax_spans (hne : ind ≠ []) (k : Fin dim) :
    Spans data ind k (computeMinMax data ind k).1 (computeMinMax data ind k).2 := by
  obtain ⟨first, rest, rfl⟩ := List.exists_cons_of_ne_nil hne
  exact spans_foldl rest (_, _) (spans_singleton data first k)

end

/-! ## `middleSplit_` -/

section
variable {R : Type} [Field R] [LinearOrder R] {dim : Nat} [NeZero dim] {data : DatasetAdaptor R dim}
  {ind : List Nat}

/-- **The cut makes progress.** Whatever box is passed, both sides of the cut get a point and the plane
lies between them. -/
theorem middleSplit_spec (h : 2 ≤ ind.length) (bbox : BoundingBox R dim) :
    (middleSplit_ data ind bbox).ind.Perm ind ∧
    0 < (middleSplit_ data ind bbox).index ∧ (middleSplit_ data ind bbox).index < ind.length ∧
    (∀ i ∈ (middleSplit_ data ind bbox).ind.take (middleSplit_ data ind bbox).index,
      data.kdtree_get_pt i (middleSplit_ data ind bbox).cutfeat ≤ (middleSplit_ data ind bbox).cutval) ∧
    ∀ i ∈ (middleSplit_ data ind bbox).ind.drop (middleSplit_ data ind bbox).index,
      (middleSplit_ data ind bbox).cutval ≤ data.kdtree_get_pt i (middleSplit_ data ind bbox).cutfeat := by
  have hne : ind ≠ [] := List.ne_nil_of_length_pos (by omega)
  unfold middleSplit_
  dsimp only
  set feat := cutfeat data ind bbox
  have hspan := @computeMinMax_spans _ _ _ data ind hne feat
  set low := (computeMinMax data ind feat).1
  set high := (computeMinMax data ind feat).2
  set cutval := if ((bbox feat).low + (bbox feat).high) / ((2 : Nat) : R) < low then low
    else if ((bbox feat).low + (bbox feat).high) / ((2 : Nat) : R) > high then high
    else ((bbox feat).low + (bbox feat).high) / ((2 : Nat) : R) with hcut
  -- the cut is inside the extent
  have hbetween : low ≤ cutval ∧ cutval ≤ high := by
    rw [hcut]
    have := hspan.le
    split_ifs with h1 h2
    · exact ⟨le_refl _, this⟩
    · exact ⟨this, le_refl _⟩
    · exact ⟨not_lt.1 h1, not_lt.1 h2⟩
  obtain ⟨hperm, hsides⟩ := planeSplit_spec data hne feat cutval
  set planes := planeSplit data ind feat cutval
  have hlen := hperm.length_eq
  -- so neither all points are above it nor all below
  have hlim2 : 0 < planes.lim2 := by
    by_contra hzero
    obtain ⟨i, hi, hlow⟩ := hspan.low_mem
    have := hsides.above i (by rw [show planes.lim2 = 0 by omega]; exact hperm.mem_iff.2 hi)
    rw [hlow] at this
    exact absurd this (not_lt.2 hbetween.1)
  have hlim1 : planes.lim1 < ind.length := by
    by_contra hall
    obtain ⟨i, hi, hhigh⟩ := hspan.high_mem
    have := hsides.below i (by rw [List.take_of_length_le (by omega)]; exact hperm.mem_iff.2 hi)
    rw [hhigh] at this
    exact absurd this (not_lt.2 hbetween.2)
  have hle := hsides.le
  have hlen2 := hsides.le_length
  refine ⟨hperm, ?_⟩
  split_ifs with h1 h2
  · exact ⟨by omega, hlim1, fun i hi => le_of_lt (hsides.below i hi), fun i hi => hsides.onward hi⟩
  · exact ⟨hlim2, by omega, fun i hi => hsides.upto hi, fun i hi => le_of_lt (hsides.above i hi)⟩
  · refine ⟨by omega, by omega, fun i hi => hsides.upto ?_, fun i hi => hsides.onward ?_⟩
    · exact List.take_subset_take_left _ (by omega) hi
    · exact List.drop_subset_drop_left _ (by omega) hi

end

end Nanoflann

end GladiusMasternode
