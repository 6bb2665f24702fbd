import Mathlib.Data.List.Basic
/-!
# Streams that come in pieces

A socket gives out a stream of symbols piece by piece, and each call receives at most what is left of
one piece. `recv` is such a call; what is received and what is left always make up the stream
(`recv_append`), so a reader that has read a given number of symbols, or up to a given one, has read
the same however the stream was cut. A stream that ends too early has a prefix of what it should have
(`cut_iff`).
-/

namespace Pieces

variable {α : Type*}

/-- Receive at most `n` symbols; nothing only where nothing is left. -/
def recv (n : Nat) : List (List α) → List α × List (List α)
  | [] => ([], [])
  | [] :: ps => recv n ps
  | (a :: as) :: ps => ((a :: as).take n, (a :: as).drop n :: ps)

theorem recv_append (n : Nat) (ps : List (List α)) :
    (recv n ps).1 ++ (recv n ps).2.flatten = ps.flatten := by
  induction ps with
  | nil => rfl
  | cons p ps ih =>
    cases p with
    | nil => simpa [recv] using ih
    | cons a as => simp only [recv, List.flatten_cons, ← List.append_assoc, List.take_append_drop]

theorem length_recv_le (n : Nat) (ps : List (List α)) : (recv n ps).1.length ≤ n := by
  induction ps with
  | nil => exact Nat.zero_le n
  | cons p ps ih =>
    cases p with
    | nil => exact ih
    | cons a as => simp only [recv, List.length_take]; omega

theorem recv_eq_nil_iff {n : Nat} (hn : 0 < n) {ps : List (List α)} :
    (recv n ps).1 = [] ↔ ps.flatten = [] := by
  induction ps with
  | nil => simp [recv]
  | cons p ps ih =>
    cases p with
    | nil => simpa [recv] using ih
    | cons a as =>
      obtain ⟨k, rfl⟩ := Nat.exists_eq_add_of_le' hn
      simp [recv]

/-- A stream that is cut short ends before a given symbol of it or has the symbol. -/
theorem cut_iff {p l xs : List α} {c : α} :
    p <+: l ++ c :: xs ↔ p <+: l ∨ ∃ q, p = l ++ c :: q ∧ q <+: xs := by
  constructor
  · intro h
    rcases List.prefix_or_prefix_of_prefix h (List.prefix_append l (c :: xs)) with hp | ⟨q, rfl⟩
    · exact Or.inl hp
    · rw [List.prefix_append_right_inj] at h
      cases q with
      | nil => exact Or.inl (by simp)
      | cons b q =>
        obtain ⟨rfl, hq⟩ := List.cons_prefix_cons.1 h
        exact Or.inr ⟨q, rfl, hq⟩
  · rintro (h | ⟨q, rfl, hq⟩)
    · exact List.prefix_append_of_prefix h
    · simpa using hq

end Pieces
