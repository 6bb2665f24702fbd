import Mathlib.Data.List.Basic
/-
# Names that end in a number

A name is its text, a separator that is no digit, and a number in decimal notation. Whatever the
text is, it may hold the separator too, the last separator is the one before the number.
-/

namespace Numbered

variable {α : Type} {sep : α}

/-- The last separator of a list divides it in one way only. -/
theorem append_sep_inj {xs xs' ys ys' : List α} (hys : sep ∉ ys) (hys' : sep ∉ ys') :
    xs ++ sep :: ys = xs' ++ sep :: ys' ↔ xs = xs' ∧ ys = ys' := by
  constructor
  · intro h
    rcases List.append_eq_append_iff.1 h with ⟨zs, hxs', hrest⟩ | ⟨zs, hxs, hrest⟩
    · cases zs with
      | nil => exact ⟨by simpa using hxs'.symm, (List.cons.inj hrest).2⟩
      | cons z zs =>
        have hmem : sep ∈ ys := by
          rw [(List.cons.inj hrest).2]
          simp
        exact absurd hmem hys
    · cases zs with
      | nil => exact ⟨by simpa using hxs, (List.cons.inj hrest).2.symm⟩
      | cons z zs =>
        have hmem : sep ∈ ys' := by
          rw [(List.cons.inj hrest).2]
          simp
        exact absurd hmem hys'
  · rintro ⟨rfl, rfl⟩
    rfl

theorem toDigits_inj {m n : Nat} : Nat.toDigits 10 m = Nat.toDigits 10 n ↔ m = n := by
  constructor
  · intro h
    have hvalue := congrArg (fun ds => Nat.ofDigitChars 10 ds 0) h
    simpa only [Nat.ofDigitChars_ten_toDigits] using hvalue
  · rintro rfl
    rfl

def numbered (text : String) (sep : Char) (n : Nat) : String :=
  text ++ String.singleton sep ++ toString n

theorem toList_numbered (text : String) (sep : Char) (n : Nat) :
    (numbered text sep n).toList = text.toList ++ sep :: Nat.toDigits 10 n := by
  simp [numbered]

theorem numbered_inj {text text' : String} {sep : Char} {n n' : Nat} (hsep : sep.isDigit = false) :
    numbered text sep n = numbered text' sep n' ↔ text = text' ∧ n = n' := by
  have hdigits : ∀ n, sep ∉ Nat.toDigits 10 n := by
    intro n hmem
    have hdigit := Nat.isDigit_of_mem_toDigits (by decide) (by decide) hmem
    rw [hsep] at hdigit
    cases hdigit
  rw [← String.toList_inj, toList_numbered, toList_numbered,
    append_sep_inj (hdigits n) (hdigits n'), toDigits_inj, String.toList_inj]

end Numbered
