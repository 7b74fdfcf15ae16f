/-
A log of events folded into a keyed store.  Each event looks only at the value
stored under its own key and rewrites only that, so what a key ends up with is
the fold of its own events.
-/
import Mathlib.Data.List.AList
import Mathlib.Tactic.Common

universe u v w

namespace KeyedFold

variable {K : Type u} {V : Type v} {E : Type w} [DecidableEq K]
  (key : E → K) (apply : Option V → E → Option V)

/-- Apply one event; `none` means that it writes nothing. -/
def step (store : AList fun _ : K => V) (e : E) : AList fun _ : K => V :=
  match apply (store.lookup (key e)) e with
  | some v => store.insert (key e) v
  | none => store

/-- The same on the value of a single key. -/
def stepValue (value : Option V) (e : E) : Option V :=
  (apply value e).or value

theorem lookup_step (store : AList fun _ : K => V) (e : E) (k : K) :
    (step key apply store e).lookup k =
      if key e = k then stepValue apply (store.lookup k) e
      else store.lookup k := by
  unfold step stepValue
  by_cases hk : key e = k
  · subst hk
    cases happly : apply (store.lookup (key e)) e <;> simp
  · have hne : k ≠ key e := fun h => hk h.symm
    cases happly : apply (store.lookup (key e)) e <;>
      simp [hk, AList.lookup_insert_ne hne]

/-- What is stored under a key depends only on the events of that key. -/
theorem lookup_foldl (store : AList fun _ : K => V) (events : List E)
    (k : K) :
    (events.foldl (step key apply) store).lookup k =
      (events.filter fun e => key e = k).foldl (stepValue apply)
        (store.lookup k) := by
  induction events generalizing store with
  | nil => rfl
  | cons e events ih =>
      rw [List.foldl_cons, ih, lookup_step]
      by_cases hk : key e = k <;> simp [hk]

end KeyedFold
