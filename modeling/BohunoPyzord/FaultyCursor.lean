/-
A cursor over some entries that any call may fail on.  A failing call leaves
the position of the cursor and the buffer it fills as they are.
-/
import Mathlib.Data.List.Basic
import Mathlib.Tactic.Common

universe u v

namespace FaultyCursor

variable {A : Type u} {E : Type v}

/-- What a call returns. -/
inductive Return (E : Type v) where
  | success
  | notFound
  | error (e : E)
deriving DecidableEq, Repr

/-- One call: what it returns, the entries that are still ahead, and the
buffer. -/
def get (fault : Option E) (ahead : List A) (buffer : A) :
    Return E × List A × A :=
  match fault with
  | some e => (.error e, ahead, buffer)
  | none =>
      match ahead with
      | [] => (.notFound, [], buffer)
      | a :: ahead => (.success, ahead, a)

/-- The faults of the calls after the first. -/
def later (faults : Nat → Option E) : Nat → Option E :=
  fun call => faults (call + 1)

/-- What call after call delivers before the first one that fails. -/
def delivered (faults : Nat → Option E) : List A → List A
  | [] => []
  | a :: ahead =>
      match faults 0 with
      | some _ => []
      | none => a :: delivered (later faults) ahead

variable {faults : Nat → Option E} {ahead : List A} {a : A}

theorem delivered_of_fault {e : E} (h : faults 0 = some e) :
    delivered faults ahead = [] := by
  cases ahead with
  | nil => rfl
  | cons a ahead => rw [delivered, h]

theorem delivered_cons_of_none (h : faults 0 = none) :
    delivered faults (a :: ahead) = a :: delivered (later faults) ahead := by
  rw [delivered, h]

/-- They are the first entries, as many as calls succeed. -/
theorem delivered_eq_take {n : Nat} (hbefore : ∀ call < n, faults call = none)
    (hn : n = ahead.length ∨ ∃ e, faults n = some e) :
    delivered faults ahead = ahead.take n := by
  induction n generalizing faults ahead with
  | zero =>
      rcases hn with hlength | ⟨e, he⟩
      · rw [List.length_eq_zero_iff.mp hlength.symm]
        rfl
      · rw [delivered_of_fault he, List.take_zero]
  | succ n ih =>
      cases ahead with
      | nil => rfl
      | cons a ahead =>
          rw [delivered_cons_of_none (hbefore 0 n.succ_pos),
            List.take_succ_cons, ih]
          · exact fun call hcall => hbefore (call + 1) (by omega)
          · exact hn.imp Nat.succ.inj id

end FaultyCursor
