import Mathlib.Data.List.Basic
/-!
# Regular expressions that are matched with backtracking

An expression is written as a row of matchers, each of which is given what comes `next`. Where several
ways lead to a match, the matcher in front decides: a greedy one prefers to take more symbols, a lazy
one fewer. The result has the symbols that the repeated parts have taken. `done` at the end of the row
makes it a match of the whole list.
-/

namespace Pattern

variable {α β : Type*} {p : α → Bool} {next : List α → Option β} {s pre post : List α} {r : β}

def done : List α → Option Unit
  | [] => some ()
  | _ :: _ => none

/-- One symbol of a kind. -/
def one (p : α → Bool) (next : List α → Option β) : List α → Option β
  | [] => none
  | a :: s => if p a then next s else none

/-- These symbols. -/
def literal [BEq α] (as : List α) (next : List α → Option β) : List α → Option β :=
  as.foldr (fun a next => one (fun b => b == a) next) next

/-- As many as possible, or none (`*`). -/
def many (p : α → Bool) (next : List α → Option β) : List α → Option (List α × β)
  | [] => (next []).map fun r => ([], r)
  | a :: s =>
    (if p a then (many p next s).map fun (t, r) => (a :: t, r) else none).or
      ((next (a :: s)).map fun r => ([], r))

/-- As few as possible, or none (`*?`). -/
def few (p : α → Bool) (next : List α → Option β) : List α → Option (List α × β)
  | [] => (next []).map fun r => ([], r)
  | a :: s =>
    ((next (a :: s)).map fun r => ([], r)).or
      (if p a then (few p next s).map fun (t, r) => (a :: t, r) else none)

/-- One of a kind and then `more` of it (`+` and `+?`). -/
def some1 (p : α → Bool)
    (more : (α → Bool) → (List α → Option β) → List α → Option (List α × β))
    (next : List α → Option β) : List α → Option (List α × β)
  | [] => none
  | a :: s => if p a then (more p next s).map fun (t, r) => (a :: t, r) else none

theorem literal_append [BEq α] [LawfulBEq α] (as s : List α) : literal as next (as ++ s) = next s := by
  induction as with
  | nil => rfl
  | cons a as ih => simpa [literal, one] using ih

theorem many_eq_none_iff : many p next s = none ↔
    ∀ pre post, s = pre ++ post → (∀ a ∈ pre, p a = true) → next post = none := by
  induction s with
  | nil => simp [many]
  | cons a s ih =>
    simp only [many, Option.or_eq_none_iff, Option.map_eq_none_iff, List.cons_eq_append_iff]
    constructor
    · rintro ⟨hmore, hnone⟩ pre post (⟨rfl, rfl⟩ | ⟨pre, rfl, rfl⟩) hpre
      · exact hnone
      · rw [List.forall_mem_cons] at hpre
        rw [if_pos hpre.1, Option.map_eq_none_iff] at hmore
        exact ih.1 hmore pre post rfl hpre.2
    · intro h
      refine ⟨?_, h [] (a :: s) (Or.inl ⟨rfl, rfl⟩) (by simp)⟩
      by_cases ha : p a = true
      · rw [if_pos ha, Option.map_eq_none_iff]
        apply ih.2
        rintro pre post rfl hpre
        exact h (a :: pre) post (Or.inr ⟨pre, rfl, rfl⟩) (List.forall_mem_cons.2 ⟨ha, hpre⟩)
      · rw [if_neg ha]

/-- Taking more fails. -/
theorem many_eq_some (hpre : ∀ a ∈ pre, p a = true) (hnext : next post = some r)
    (hmore : ∀ more rest, post = more ++ rest → more ≠ [] → (∀ a ∈ more, p a = true) →
      next rest = none) : many p next (pre ++ post) = some (pre, r) := by
  induction pre with
  | nil =>
    cases post with
    | nil => simp [many, hnext]
    | cons a s =>
      have hnone : (if p a = true then (many p next s).map fun (t, r) => (a :: t, r) else none) =
          none := by
        by_cases ha : p a = true
        · rw [if_pos ha, Option.map_eq_none_iff, many_eq_none_iff]
          rintro more rest rfl hall
          exact hmore (a :: more) rest rfl (by simp) (List.forall_mem_cons.2 ⟨ha, hall⟩)
        · rw [if_neg ha]
      simp [many, hnone, hnext]
  | cons a pre ih =>
    rw [List.forall_mem_cons] at hpre
    simp [many, hpre.1, ih hpre.2]

/-- Taking fewer fails. -/
theorem few_eq_some (hpre : ∀ a ∈ pre, p a = true) (hnext : next post = some r)
    (hless : ∀ less rest, pre = less ++ rest → rest ≠ [] → next (rest ++ post) = none) :
    few p next (pre ++ post) = some (pre, r) := by
  induction pre with
  | nil => cases post <;> simp [few, hnext]
  | cons a pre ih =>
    rw [List.forall_mem_cons] at hpre
    have hnone : next (a :: (pre ++ post)) = none := hless [] (a :: pre) rfl (by simp)
    have hfew := ih hpre.2 fun less rest heq => hless (a :: less) rest (by rw [heq]; rfl)
    simp [few, hnone, hpre.1, hfew]

theorem some1_many_eq_some (hne : pre ≠ []) (hpre : ∀ a ∈ pre, p a = true)
    (hnext : next post = some r)
    (hmore : ∀ more rest, post = more ++ rest → more ≠ [] → (∀ a ∈ more, p a = true) →
      next rest = none) : some1 p many next (pre ++ post) = some (pre, r) := by
  obtain ⟨a, pre, rfl⟩ := List.exists_cons_of_ne_nil hne
  rw [List.forall_mem_cons] at hpre
  simp [some1, hpre.1, many_eq_some hpre.2 hnext hmore]

theorem some1_few_eq_some (hne : pre ≠ []) (hpre : ∀ a ∈ pre, p a = true)
    (hnext : next post = some r)
    (hless : ∀ less rest, pre = less ++ rest → rest ≠ [] → next (rest ++ post) = none) :
    some1 p few next (pre ++ post) = some (pre, r) := by
  obtain ⟨a, pre, rfl⟩ := List.exists_cons_of_ne_nil hne
  rw [List.forall_mem_cons] at hpre
  have hfew := few_eq_some hpre.2 hnext fun less rest heq => hless (a :: less) rest (by rw [heq]; rfl)
  simp [some1, hpre.1, hfew]

end Pattern
