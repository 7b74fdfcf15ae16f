/-
Keys that are compared digit by digit, a shorter one first.  Keys of one length
with the highest digit in front are ordered like the numbers they write, and
what follows them counts only where they are the same.
-/
import Mathlib.Algebra.Order.Ring.Nat
import Mathlib.Data.List.Lex
import Mathlib.Tactic.Common

universe u

namespace LexKeys

/-- The number that digits to the base `b` write, the highest first. -/
def value (b : Nat) : List Nat → Nat
  | [] => 0
  | d :: digits => d * b ^ digits.length + value b digits

theorem value_lt {b : Nat} {digits : List Nat} (h : ∀ d ∈ digits, d < b) :
    value b digits < b ^ digits.length := by
  induction digits with
  | nil => exact Nat.one_pos
  | cons d digits ih =>
      obtain ⟨hd, hdigits⟩ := List.forall_mem_cons.mp h
      have hrest := ih hdigits
      have hmul : (d + 1) * b ^ digits.length ≤ b * b ^ digits.length :=
        Nat.mul_le_mul_right _ hd
      rw [value, List.length_cons, Nat.pow_succ']
      rw [Nat.add_mul, Nat.one_mul] at hmul
      omega

/-- A greater digit outweighs all digits behind it. -/
theorem value_cons_lt {b d d' : Nat} {digits digits' : List Nat}
    (hdigits : ∀ d ∈ digits, d < b) (hlength : digits.length = digits'.length)
    (hlt : d < d') : value b (d :: digits) < value b (d' :: digits') := by
  have hrest := value_lt hdigits
  have hmul : (d + 1) * b ^ digits.length ≤ d' * b ^ digits.length :=
    Nat.mul_le_mul_right _ hlt
  rw [value, value, ← hlength]
  rw [Nat.add_mul, Nat.one_mul] at hmul
  omega

theorem lt_iff_value_lt {b : Nat} {digits digits' : List Nat}
    (hdigits : ∀ d ∈ digits, d < b) (hdigits' : ∀ d ∈ digits', d < b)
    (hlength : digits.length = digits'.length) :
    digits < digits' ↔ value b digits < value b digits' := by
  induction digits generalizing digits' with
  | nil =>
      rw [List.eq_nil_of_length_eq_zero hlength.symm]
      simp
  | cons d digits ih =>
      cases digits' with
      | nil => cases hlength
      | cons d' digits' =>
          have hrest := List.forall_mem_cons.mp hdigits
          have hrest' := List.forall_mem_cons.mp hdigits'
          have hlength' : digits.length = digits'.length :=
            Nat.succ_injective hlength
          rw [List.cons_lt_cons_iff, ih hrest.2 hrest'.2 hlength']
          rcases lt_trichotomy d d' with hlt | rfl | hgt
          · exact iff_of_true (Or.inl hlt)
              (value_cons_lt hrest.2 hlength' hlt)
          · rw [value, value, hlength']
            constructor
            · rintro (hlt | ⟨-, hlt⟩)
              · exact absurd hlt (lt_irrefl d)
              · exact Nat.add_lt_add_left hlt _
            · exact fun h => Or.inr ⟨rfl, Nat.lt_of_add_lt_add_left h⟩
          · have hvalue := value_cons_lt hrest'.2 hlength'.symm hgt
            refine iff_of_false ?_ hvalue.asymm
            rintro (hlt | ⟨rfl, -⟩)
            · exact lt_asymm hgt hlt
            · exact lt_irrefl d hgt

/-- Behind fronts of one length, what follows counts where these agree. -/
theorem append_lt_append_iff {A : Type u} [LinearOrder A]
    {front front' : List A} (hlength : front.length = front'.length)
    (rest rest' : List A) :
    front ++ rest < front' ++ rest' ↔
      front < front' ∨ front = front' ∧ rest < rest' := by
  induction front generalizing front' with
  | nil =>
      rw [List.eq_nil_of_length_eq_zero hlength.symm]
      simp
  | cons a front ih =>
      cases front' with
      | nil => cases hlength
      | cons a' front' =>
          rw [List.cons_append, List.cons_append, List.cons_lt_cons_iff,
            List.cons_lt_cons_iff, ih (Nat.succ_injective hlength),
            List.cons.injEq]
          tauto

end LexKeys
