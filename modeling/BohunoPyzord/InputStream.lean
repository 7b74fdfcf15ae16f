/-
An input stream that is read in pieces of a given size.  Its end shows in the
first read that finds less than it asked for; where the source fails instead,
the stream goes bad without coming to its end.
-/
import Mathlib.Data.List.Basic
import Mathlib.Tactic.Common

universe u

/-- A stream over the units still to come.  `corrupt` says that its source
fails behind them; `eof` and `failed` are the flags that reads leave. -/
structure InputStream (B : Type u) where
  rest : List B
  corrupt : Bool
  eof : Bool
  failed : Bool
deriving DecidableEq, Repr

namespace InputStream

variable {B : Type u}

/-- A fresh stream over some units. -/
def opened (units : List B) : InputStream B :=
  { rest := units, corrupt := false, eof := false, failed := false }

@[simp] theorem eof_opened (units : List B) : (opened units).eof = false := rfl

/-- Read `n` units: what was stored of them, and the stream after it. -/
def read (s : InputStream B) (n : Nat) : List B × InputStream B :=
  if s.eof || s.failed then ([], { s with failed := true })
  else if n ≤ s.rest.length then
    (s.rest.take n, { s with rest := s.rest.drop n })
  else
    (s.rest, { s with rest := [], eof := !s.corrupt, failed := true })

/-- A read of what is in front. -/
theorem read_opened_append {n : Nat} {front rest : List B}
    (h : front.length = n) :
    (opened (front ++ rest)).read n = (front, opened rest) := by
  rw [read, if_neg (by simp [opened]),
    if_pos (by simp only [opened, List.length_append]; omega)]
  simp only [opened, List.take_left' h, List.drop_left' h]

/-- A read of more than there is. -/
theorem read_opened_short {n : Nat} {units : List B} (h : units.length < n) :
    (opened units).read n = (units, ⟨[], false, true, true⟩) := by
  rw [read, if_neg (by simp [opened]),
    if_neg (by simp only [opened]; omega)]
  rfl

end InputStream
