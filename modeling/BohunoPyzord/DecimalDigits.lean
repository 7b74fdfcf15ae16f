/-
Decimal numbers read from the left.  What has been read of one at any time is
the decimal number of something smaller, and not of zero, so a reader that
works with the value so far sees no other values than these.
-/
import Mathlib.Data.List.Infix
import Mathlib.Tactic.Common

namespace DecimalDigits

/-- The first digits of a number are those of a smaller one, which is not zero
unless the number is. -/
theorem exists_of_prefix {n : Nat} {read : List Char} (hne : read ≠ [])
    (h : read <+: Nat.toDigits 10 n) :
    ∃ m ≤ n, read = Nat.toDigits 10 m ∧ (0 < n → 0 < m) := by
  induction n using Nat.strong_induction_on with
  | _ n ih =>
    by_cases hsmall : n < 10
    · refine ⟨n, le_rfl, ?_, id⟩
      rw [Nat.toDigits_of_lt_base hsmall] at h ⊢
      rcases List.prefix_cons_iff.mp h with hnone | ⟨rest, hall, hrest⟩
      · exact absurd hnone hne
      · rw [hall, List.prefix_nil.mp hrest]
    · have hten := Nat.le_of_not_lt hsmall
      rw [Nat.toDigits_of_base_le (by decide) hten] at h
      rcases List.prefix_concat_iff.mp h with hall | hfront
      · refine ⟨n, le_rfl, ?_, id⟩
        rw [hall, ← Nat.toDigits_of_base_le (by decide) hten]
      · obtain ⟨m, hm, hread, hpos⟩ := ih (n / 10) (by omega) hfront
        exact ⟨m, by omega, hread, fun _ => hpos (by omega)⟩

/-- Their value. -/
theorem value_of_prefix {n : Nat} {read : List Char} (hne : read ≠ [])
    (h : read <+: Nat.toDigits 10 n) :
    Nat.ofDigitChars 10 read 0 ≤ n ∧
      (0 < n → 0 < Nat.ofDigitChars 10 read 0) := by
  obtain ⟨m, hm, rfl, hpos⟩ := exists_of_prefix hne h
  rw [Nat.ofDigitChars_ten_toDigits]
  exact ⟨hm, hpos⟩

end DecimalDigits
