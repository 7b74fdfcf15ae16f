/-
A ring of cells that holds what happened at each of the last `n` ticks of a
clock.  One cell is current; on every tick the next one becomes it and is
emptied, and what happens is added to it.
-/
import Mathlib.Algebra.BigOperators.Fin
import Mathlib.Algebra.BigOperators.Group.Finset.Basic

universe u

namespace RingWindow

/-- The cell of `k` ticks before the current one. -/
def back (n current k : Nat) : Nat :=
  if k ≤ current then current - k else current + n - k

/-- The cell after the current one. -/
def next (n current : Nat) : Nat :=
  if current + 1 = n then 0 else current + 1

theorem back_lt {n current k : Nat} (hc : current < n) (hk : k < n) :
    back n current k < n := by
  unfold back
  split_ifs <;> omega

/-- Going back as far as a cell is behind the current one leads to it. -/
theorem back_back {n current k : Nat} (hc : current < n) (hk : k < n) :
    back n current (back n current k) = k := by
  unfold back
  split_ifs <;> omega

theorem next_lt {n current : Nat} (hc : current < n) :
    next n current < n := by
  unfold next
  split_ifs <;> omega

theorem back_zero (n current : Nat) : back n current 0 = current := by
  simp [back]

theorem back_next {n current k : Nat} (hk : k + 1 < n) :
    back n (next n current) (k + 1) = back n current k := by
  unfold back next
  split_ifs <;> omega

theorem back_ne {n current k : Nat} (hk : k + 1 < n) :
    back n current (k + 1) ≠ current := by
  unfold back
  split_ifs <;> omega

variable {M : Type u} [AddCommMonoid M]

/-- The sum of what happened at the ticks with `p`. -/
def amount (events : List (Nat × M)) (p : Nat → Prop) [DecidablePred p] : M :=
  ((events.filter fun e => p e.1).map Prod.snd).sum

section Amount

variable {events : List (Nat × M)} {p q : Nat → Prop} [DecidablePred p]
  [DecidablePred q]

@[simp] theorem amount_nil : amount ([] : List (Nat × M)) p = 0 := rfl

theorem amount_cons (e : Nat × M) (events : List (Nat × M)) :
    amount (e :: events) p = (if p e.1 then e.2 else 0) + amount events p := by
  unfold amount
  by_cases he : p e.1
  · simp [he]
  · simp [he]

theorem amount_append_singleton (events : List (Nat × M)) (t : Nat) (m : M) :
    amount (events ++ [(t, m)]) p =
      amount events p + if p t then m else 0 := by
  unfold amount
  by_cases ht : p t
  · simp [ht]
  · simp [ht]

theorem amount_congr (h : ∀ e ∈ events, (p e.1 ↔ q e.1)) :
    amount events p = amount events q := by
  unfold amount
  have hfilter : (events.filter fun e => p e.1) =
      events.filter fun e => q e.1 :=
    List.filter_congr fun e he => by simp [h e he]
  rw [hfilter]

theorem amount_eq_zero (h : ∀ e ∈ events, ¬ p e.1) : amount events p = 0 := by
  unfold amount
  rw [List.filter_eq_nil_iff.mpr fun e he => by simpa using h e he]
  rfl

end Amount

/-- Cell by cell, the ring holds what happened up to tick `now`. -/
structure Holds (n : Nat) (cell : Nat → M) (current now : Nat)
    (events : List (Nat × M)) : Prop where
  current_lt : current < n
  past : ∀ e ∈ events, e.1 ≤ now
  cell_eq : ∀ k < n, cell (back n current k) =
    amount events fun t => t + k = now

namespace Holds

variable {n current now : Nat} {cell : Nat → M} {events : List (Nat × M)}

/-- Before anything has happened every cell is empty. -/
theorem empty (hn : 0 < n) (now : Nat) :
    Holds n (fun _ => (0 : M)) 0 now [] where
  current_lt := hn
  past _ he := absurd he List.not_mem_nil
  cell_eq _ _ := rfl

/-- A tick: the cell of the oldest tick becomes that of the new one. -/
theorem tick (h : Holds n cell current now events) :
    Holds n (Function.update cell (next n current) 0) (next n current)
      (now + 1) events where
  current_lt := next_lt h.current_lt
  past e he := (h.past e he).trans (Nat.le_succ now)
  cell_eq k hk := by
    cases k with
    | zero =>
        rw [back_zero, Function.update_self]
        symm
        apply amount_eq_zero
        intro e he
        have hpast := h.past e he
        omega
    | succ k =>
        rw [Function.update_of_ne (back_ne hk),
          back_next hk, h.cell_eq k (by omega)]
        apply amount_congr
        intro e _
        omega

/-- Something happens now. -/
theorem add (h : Holds n cell current now events) (m : M) :
    Holds n (Function.update cell current (cell current + m)) current now
      (events ++ [(now, m)]) where
  current_lt := h.current_lt
  past e he := by
    rcases List.mem_append.mp he with hold | hnew
    · exact h.past e hold
    · exact (List.mem_singleton.mp hnew) ▸ Nat.le_refl now
  cell_eq k hk := by
    rw [amount_append_singleton]
    cases k with
    | zero =>
        have hcell := h.cell_eq 0 hk
        rw [back_zero] at hcell
        rw [back_zero, Function.update_self, hcell, if_pos (Nat.add_zero now)]
    | succ k =>
        rw [Function.update_of_ne (back_ne hk), h.cell_eq _ hk,
          if_neg (by omega), add_zero]

/-- What the cells hold together is what happened in the last `n` ticks. -/
theorem sum (h : Holds n cell current now events) :
    (∑ i ∈ Finset.range n, cell i) =
      amount events fun t => t ≤ now ∧ now < t + n := by
  have hbehind : (∑ i ∈ Finset.range n, cell i) =
      ∑ k ∈ Finset.range n, cell (back n current k) := by
    refine Finset.sum_nbij' (back n current) (back n current) ?_ ?_ ?_ ?_ ?_
    · intro i hi
      exact Finset.mem_range.mpr
        (back_lt h.current_lt (Finset.mem_range.mp hi))
    · intro i hi
      exact Finset.mem_range.mpr
        (back_lt h.current_lt (Finset.mem_range.mp hi))
    · intro i hi
      exact back_back h.current_lt (Finset.mem_range.mp hi)
    · intro i hi
      exact back_back h.current_lt (Finset.mem_range.mp hi)
    · intro i hi
      rw [back_back h.current_lt (Finset.mem_range.mp hi)]
  rw [hbehind, Finset.sum_congr rfl fun k hk =>
    h.cell_eq k (Finset.mem_range.mp hk)]
  clear hbehind h
  induction events with
  | nil => simp
  | cons e events ih =>
      simp only [amount_cons, Finset.sum_add_distrib, ih]
      congr 1
      by_cases hwithin : e.1 ≤ now ∧ now < e.1 + n
      · rw [if_pos hwithin, Finset.sum_eq_single (now - e.1)]
        · rw [if_pos (by omega)]
        · intro k _ hk
          rw [if_neg (by omega)]
        · intro hnot
          exact absurd (Finset.mem_range.mpr (by omega)) hnot
      · rw [if_neg hwithin]
        apply Finset.sum_eq_zero
        intro k hk
        have hlt := Finset.mem_range.mp hk
        rw [if_neg (by omega)]

end Holds

end RingWindow
