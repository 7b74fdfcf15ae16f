/-
Closed windows over a linear order, each starting where the one before it
ends.  Such a chain leaves no gap: whatever lies between its start and its end
lies in one of its windows.  Windows may also be collected against a set of
marks, from each of which on all times up to the latest end are wanted.
-/
import Mathlib.Data.Set.Insert
import Mathlib.Order.Basic
import Mathlib.Data.List.Basic
import Mathlib.Tactic.Common

universe u

namespace TimeWindows

variable {T : Type u} [LinearOrder T]

/-- The windows follow one another from `start` on. -/
def Chained (start : T) : List (T × T) → Prop
  | [] => True
  | w :: ws => w.1 = start ∧ w.1 ≤ w.2 ∧ Chained w.2 ws

/-- Where a chain that begins at `start` ends. -/
def endOf (start : T) : List (T × T) → T
  | [] => start
  | w :: ws => endOf w.2 ws

omit [LinearOrder T] in
theorem endOf_append_singleton (start : T) (ws : List (T × T)) (w : T × T) :
    endOf start (ws ++ [w]) = w.2 := by
  induction ws generalizing start with
  | nil => rfl
  | cons v ws ih => exact ih v.2

omit [LinearOrder T] in
/-- A chain that is not empty ends with one of its windows. -/
theorem endOf_mem (start : T) {ws : List (T × T)} (h : ws ≠ []) :
    ∃ w ∈ ws, endOf start ws = w.2 := by
  induction ws generalizing start with
  | nil => exact absurd rfl h
  | cons v ws ih =>
      by_cases hws : ws = []
      · subst hws
        exact ⟨v, List.mem_cons_self, rfl⟩
      · obtain ⟨w, hw, hend⟩ := ih v.2 hws
        exact ⟨w, List.mem_cons_of_mem v hw, hend⟩

/-- A chain is extended by a window that starts at its end. -/
theorem Chained.append_singleton {start : T} {ws : List (T × T)} {w : T × T}
    (h : Chained start ws) (hstart : w.1 = endOf start ws)
    (hle : w.1 ≤ w.2) : Chained start (ws ++ [w]) := by
  induction ws generalizing start with
  | nil => exact ⟨hstart, hle, trivial⟩
  | cons v ws ih => exact ⟨h.1, h.2.1, ih h.2.2 hstart⟩

/-- No window of a chain ends after the chain. -/
theorem Chained.le_endOf {start : T} {ws : List (T × T)}
    (h : Chained start ws) :
    start ≤ endOf start ws ∧ ∀ w ∈ ws, w.2 ≤ endOf start ws := by
  induction ws generalizing start with
  | nil => exact ⟨le_rfl, fun w hw => by cases hw⟩
  | cons v ws ih =>
      obtain ⟨hstart, hle, hrest⟩ := h
      obtain ⟨hfrom, hends⟩ := ih hrest
      refine ⟨hstart ▸ hle.trans hfrom, fun w hw => ?_⟩
      rcases List.mem_cons.mp hw with rfl | hmem
      · exact hfrom
      · exact hends w hmem

/-- The windows after the first `n` are chained from the end of these. -/
theorem Chained.drop {start : T} {ws : List (T × T)} (h : Chained start ws)
    (n : Nat) : Chained (endOf start (ws.take n)) (ws.drop n) := by
  induction n generalizing start ws with
  | zero => exact h
  | succ n ih =>
      cases ws with
      | nil => trivial
      | cons v ws => exact ih h.2.2

/-- A time from the start of a chain up to the end of one of its windows lies
in one of them. -/
theorem Chained.covers {start t : T} {ws : List (T × T)}
    (h : Chained start ws) (hstart : start ≤ t)
    (hend : ∃ w ∈ ws, t ≤ w.2) : ∃ w ∈ ws, w.1 ≤ t ∧ t ≤ w.2 := by
  induction ws generalizing start with
  | nil =>
      obtain ⟨w, hw, -⟩ := hend
      cases hw
  | cons v ws ih =>
      obtain ⟨hv, -, hrest⟩ := h
      by_cases ht : t ≤ v.2
      · exact ⟨v, List.mem_cons_self, hv ▸ hstart, ht⟩
      · have hlater : ∃ w ∈ ws, t ≤ w.2 := by
          obtain ⟨w, hw, htw⟩ := hend
          rcases List.mem_cons.mp hw with rfl | hmem
          · exact absurd htw ht
          · exact ⟨w, hmem, htw⟩
        obtain ⟨w, hw, hin⟩ := ih hrest (le_of_not_ge ht) hlater
        exact ⟨w, List.mem_cons_of_mem v hw, hin⟩

section Marks

variable {marks marks' : Set T} {windows windows' : Set (T × T)} {reach : T}

/-- From each mark on, every time up to `reach` lies in a window. -/
def Covers (marks : Set T) (windows : Set (T × T)) (reach : T) : Prop :=
  ∀ m ∈ marks, ∀ t, m ≤ t → t ≤ reach → ∃ w ∈ windows, w.1 ≤ t ∧ t ≤ w.2

/-- A window that ends before every mark is of no use. -/
theorem Covers.dropEnded (h : Covers marks windows reach)
    (hmarks : marks' ⊆ marks)
    (hkept : ∀ w ∈ windows, ∀ m ∈ marks', m ≤ w.2 → w ∈ windows') :
    Covers marks' windows' reach := by
  intro m hm t hmt ht
  obtain ⟨w, hw, hin⟩ := h m (hmarks hm) t hmt ht
  exact ⟨w, hkept w hw m hm (hmt.trans hin.2), hin⟩

/-- A mark that is set at or after the latest end. -/
theorem Covers.insertMark (h : Covers marks windows reach) {m : T}
    (hreach : reach ≤ m)
    (hlast : reach = m → ∃ w ∈ windows, w.1 ≤ w.2 ∧ w.2 = reach) :
    Covers (insert m marks) windows reach := by
  intro m' hm' t hmt ht
  rcases Set.mem_insert_iff.mp hm' with rfl | hold
  · have hsame : reach = m' := le_antisymm hreach (hmt.trans ht)
    obtain ⟨w, hw, hle, hend⟩ := hlast hsame
    have htime : t = w.2 := le_antisymm (hend ▸ ht) (hend ▸ hsame ▸ hmt)
    exact ⟨w, hw, htime ▸ hle, htime.le⟩
  · exact h m' hold t hmt ht

/-- A window extends what is covered from the marks that are not after its
start, if it starts within what is covered. -/
theorem Covers.extend (h : Covers marks windows reach) {w : T × T}
    (hw : w ∈ windows') (hkept : windows ⊆ windows')
    (hstart : ∀ m ∈ marks, w.1 ≤ m ∨ w.1 ≤ reach) :
    Covers marks windows' w.2 := by
  intro m hm t hmt ht
  by_cases hin : w.1 ≤ t
  · exact ⟨w, hw, hin, ht⟩
  · rcases hstart m hm with hmark | hreach
    · exact absurd (hmark.trans hmt) hin
    · obtain ⟨v, hv, hcovers⟩ := h m hm t hmt
        ((le_of_not_ge hin).trans hreach)
      exact ⟨v, hkept hv, hcovers⟩

/-- A window that starts after a mark and is the only one leaves the mark
itself uncovered. -/
theorem not_covers_of_gap {m : T} (hm : m ∈ marks) (hreach : m ≤ reach)
    (hgap : ∀ w ∈ windows, m < w.1) : ¬ Covers marks windows reach := by
  intro h
  obtain ⟨w, hw, hstart, -⟩ := h m hm m le_rfl hreach
  exact absurd hstart (not_le.mpr (hgap w hw))

end Marks

end TimeWindows
