/-
Machines that read symbols until they decide.  Their input may come in parts:
what they decide, and how much they have read by then, is that of the whole
input.
-/
import Mathlib.Data.List.Infix
import Mathlib.Tactic.Common

universe u v w

/-- What a symbol makes of a state, and the decision if there is one. -/
structure Recognizer (S : Type u) (A : Type v) (R : Type w) where
  step : S → A → Option R × S

namespace Recognizer

variable {S : Type u} {A : Type v} {R : Type w} (M : Recognizer S A R)

/-- Read up to a decision: that, the state, and what was not read. -/
def run (s : S) : List A → Option R × S × List A
  | [] => (none, s, [])
  | a :: input =>
      match M.step s a with
      | (some r, s) => (some r, s, input)
      | (none, s) => run s input

/-- Read part by part; `parts` after a decision are not read. -/
def runParts (s : S) : List (List A) → Option R × S × List A
  | [] => (none, s, [])
  | part :: parts =>
      match M.run s part with
      | (some r, s, rest) => (some r, s, rest ++ parts.flatten)
      | (none, s, _) => runParts s parts

/-- All of the input is read, and nothing is decided. -/
def Reads (s : S) (input : List A) (s' : S) : Prop :=
  M.run s input = (none, s', [])

variable {M} {s s' s'' : S} {a : A} {r : R} {input first second : List A}

theorem run_cons_of_none (h : M.step s a = (none, s')) (input : List A) :
    M.run s (a :: input) = M.run s' input := by
  rw [run, h]

theorem run_cons_of_some (h : M.step s a = (some r, s')) (input : List A) :
    M.run s (a :: input) = (some r, s', input) := by
  rw [run, h]

theorem reads_nil (s : S) : M.Reads s [] s := rfl

theorem reads_cons (h : M.step s a = (none, s')) (hrest : M.Reads s' input s'') :
    M.Reads s (a :: input) s'' := (run_cons_of_none h input).trans hrest

/-- The symbols of some input are read, or there is a first one that decides. -/
theorem run_cases (M : Recognizer S A R) (s : S) (input : List A) :
    (∃ s', M.Reads s input s') ∨
      ∃ read a rest mid r s', input = read ++ a :: rest ∧
        M.Reads s read mid ∧ M.step mid a = (some r, s') ∧
        M.run s input = (some r, s', rest) := by
  induction input generalizing s with
  | nil => exact Or.inl ⟨s, rfl⟩
  | cons a input ih =>
      rcases hstep : M.step s a with ⟨decision, next⟩
      cases decision with
      | some r =>
          exact Or.inr ⟨[], a, input, s, r, next, rfl, rfl, hstep,
            run_cons_of_some hstep input⟩
      | none =>
          rcases ih next with ⟨s', hreads⟩ |
            ⟨read, b, rest, mid, r, s', rfl, hreads, hdecides, hrun⟩
          · exact Or.inl ⟨s', reads_cons hstep hreads⟩
          · exact Or.inr ⟨a :: read, b, rest, mid, r, s', rfl,
              reads_cons hstep hreads, hdecides,
              (run_cons_of_none hstep _).trans hrun⟩

/-- Where nothing is decided, all is read. -/
theorem reads_of_run {rest : List A} (h : M.run s input = (none, s', rest)) :
    M.Reads s input s' := by
  rcases M.run_cases s input with ⟨mid, hreads⟩ |
    ⟨read, a, more, mid, r, last, -, -, -, hrun⟩
  · have hsame := hreads.symm.trans h
    rw [Prod.mk.injEq, Prod.mk.injEq] at hsame
    rw [Reads, h, ← hsame.2.2]
  · rw [hrun] at h
    cases h

theorem Reads.run_append (h : M.Reads s first s') (second : List A) :
    M.run s (first ++ second) = M.run s' second := by
  induction first generalizing s with
  | nil =>
      cases h
      rfl
  | cons a first ih =>
      rcases hstep : M.step s a with ⟨decision, next⟩
      cases decision with
      | some r =>
          rw [Reads, run_cons_of_some hstep] at h
          cases h
      | none =>
          rw [Reads, run_cons_of_none hstep] at h
          rw [List.cons_append, run_cons_of_none hstep, ih h]

theorem Reads.append (h : M.Reads s first s') (h' : M.Reads s' second s'') :
    M.Reads s (first ++ second) s'' := (h.run_append second).trans h'

/-- What stands before symbols that are read is read. -/
theorem Reads.of_append (h : M.Reads s (first ++ second) s'') :
    ∃ s', M.Reads s first s' := by
  rcases M.run_cases s first with hreads |
    ⟨read, a, rest, mid, r, s', rfl, hreads, hdecides, -⟩
  · exact hreads
  · have hrun := hreads.run_append (a :: (rest ++ second))
    rw [run_cons_of_some hdecides, ← List.cons_append, ← List.append_assoc,
      h] at hrun
    cases hrun

/-- Where no symbol before the last decides, no beginning decides. -/
theorem Reads.run_of_prefix (h : M.Reads s input s') (hbefore : first <+: input) :
    (M.run s first).1 = none ∧ (M.run s first).2.2 = [] := by
  obtain ⟨second, rfl⟩ := hbefore
  obtain ⟨mid, hmid⟩ := h.of_append
  rw [hmid]
  exact ⟨rfl, rfl⟩

/-- A property of the state and of what was read that each symbol preserves. -/
theorem Reads.invariant {I : S → List A → Prop}
    (hstep : ∀ {s s' read a}, I s read → M.step s a = (none, s') →
      I s' (read ++ [a]))
    {read : List A} (hs : I s read) (h : M.Reads s input s') :
    I s' (read ++ input) := by
  induction input generalizing s read with
  | nil =>
      cases h
      rwa [List.append_nil]
  | cons a input ih =>
      rcases hnext : M.step s a with ⟨decision, next⟩
      cases decision with
      | some r =>
          rw [Reads, run_cons_of_some hnext] at h
          cases h
      | none =>
          rw [Reads, run_cons_of_none hnext] at h
          have hrest := ih (hstep hs hnext) h
          rwa [List.append_assoc] at hrest

/-- Symbols of which the state is a function, as long as they are good. -/
theorem reads_of_step (state : List A → S) (good : List A → Prop)
    (hgood : ∀ {first second}, good (first ++ second) → good first)
    (hstep : ∀ {read a}, good (read ++ [a]) →
      M.step (state read) a = (none, state (read ++ [a])))
    (read : List A) {input : List A} (h : good (read ++ input)) :
    M.Reads (state read) input (state (read ++ input)) := by
  induction input generalizing read with
  | nil =>
      rw [List.append_nil]
      exact reads_nil (state read)
  | cons a input ih =>
      have hsplit : read ++ a :: input = read ++ [a] ++ input := by
        rw [List.append_assoc, List.singleton_append]
      rw [hsplit] at h ⊢
      exact reads_cons (hstep (hgood h)) (ih (read ++ [a]) h)

/-- In parts the machine reads what it reads of the whole. -/
theorem runParts_eq (s : S) (parts : List (List A)) :
    M.runParts s parts = M.run s parts.flatten := by
  induction parts generalizing s with
  | nil => rfl
  | cons part parts ih =>
      rw [runParts, List.flatten_cons]
      rcases M.run_cases s part with ⟨s', hreads⟩ |
        ⟨read, a, rest, mid, r, s', rfl, hreads, hdecides, hrun⟩
      · rw [hreads.run_append, hreads]
        exact ih s'
      · rw [hrun, List.append_assoc, List.cons_append, hreads.run_append,
          run_cons_of_some hdecides]

end Recognizer
