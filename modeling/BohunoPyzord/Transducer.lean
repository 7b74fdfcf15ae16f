/-
Transducers that turn each symbol of a stream into some symbols of another,
and two of them in a row with a buffer in between.  In whatever chunks the
buffer is filled and drained, what comes out is what the one makes of what the
other makes of the whole stream.
-/
import BohunoPyzord.StepSystem

universe u v w x y

structure Transducer (S : Type u) (A : Type v) (B : Type w) where
  step : S → A → S × List B

namespace Transducer

variable {S : Type u} {A : Type v} {B : Type w} (T : Transducer S A B)

/-- The state after some symbols, and what has come out. -/
def run (s : S) : List A → S × List B
  | [] => (s, [])
  | a :: input =>
      let (s, first) := T.step s a
      let (s, rest) := run s input
      (s, first ++ rest)

@[simp] theorem run_nil (s : S) : T.run s [] = (s, []) := rfl

theorem run_cons (s : S) (a : A) (input : List A) :
    T.run s (a :: input) =
      ((T.run (T.step s a).1 input).1,
        (T.step s a).2 ++ (T.run (T.step s a).1 input).2) := rfl

theorem run_append (s : S) (first second : List A) :
    T.run s (first ++ second) =
      ((T.run (T.run s first).1 second).1,
        (T.run s first).2 ++ (T.run (T.run s first).1 second).2) := by
  induction first generalizing s with
  | nil => rfl
  | cons a first ih =>
      rw [List.cons_append, run_cons, run_cons, ih]
      simp only [List.append_assoc]

/-- Transducers whose steps agree along a map of the states put out the
same. -/
theorem run_of_step {S' : Type x} {T' : Transducer S' A B} {f : S → S'}
    (h : ∀ s a, T'.step (f s) a = (f (T.step s a).1, (T.step s a).2))
    (s : S) (input : List A) :
    T'.run (f s) input = (f (T.run s input).1, (T.run s input).2) := by
  induction input generalizing s with
  | nil => rfl
  | cons a input ih =>
      rw [run_cons, run_cons, h, ih]

/-- Where each symbol makes one, a beginning of the input makes as long a
beginning of what the whole makes. -/
theorem run_take (h : ∀ s a, (T.step s a).2.length = 1) (s : S)
    (input : List A) (n : Nat) :
    (T.run s (input.take n)).2 = (T.run s input).2.take n := by
  induction input generalizing s n with
  | nil => simp
  | cons a input ih =>
      cases n with
      | zero => simp
      | succ n =>
          obtain ⟨b, hb⟩ := List.length_eq_one_iff.mp (h s a)
          rw [List.take_succ_cons, run_cons, run_cons, ih, hb]
          rfl

end Transducer

/-- Two transducers in a row: `rest` has not been read, `buffer` has come out
of the first and not gone into the second. -/
structure Pipeline (S : Type u) (U : Type v) (A : Type w) (B : Type x)
    (C : Type y) where
  rest : List A
  first : S
  buffer : List B
  second : U
  output : List C

/-- Fill the buffer from the next symbols, or drain some symbols of it. -/
inductive Chunk where
  | fill (k : Nat)
  | drain (m : Nat)
deriving DecidableEq, Repr

namespace Pipeline

variable {S : Type u} {U : Type v} {A : Type w} {B : Type x} {C : Type y}
  (T : Transducer S A B) (V : Transducer U B C)

def step (p : Pipeline S U A B C) : Chunk → Pipeline S U A B C
  | .fill k =>
      let (first, filled) := T.run p.first (p.rest.take k)
      { p with rest := p.rest.drop k, first, buffer := p.buffer ++ filled }
  | .drain m =>
      let (second, output) := V.run p.second (p.buffer.take m)
      { p with
        buffer := p.buffer.drop m, second, output := p.output ++ output }

/-- What comes out if all that is left goes through at once. -/
def total (p : Pipeline S U A B C) : List C :=
  p.output ++ (V.run p.second (p.buffer ++ (T.run p.first p.rest).2)).2

def Finished (p : Pipeline S U A B C) : Prop :=
  p.rest = [] ∧ p.buffer = []

/-- No chunk changes what comes out in the end. -/
theorem total_step (p : Pipeline S U A B C) (chunk : Chunk) :
    (p.step T V chunk).total T V = p.total T V := by
  cases chunk with
  | fill k =>
      have hsplit := T.run_append p.first (p.rest.take k) (p.rest.drop k)
      rw [List.take_append_drop] at hsplit
      rw [total, total, hsplit, ← List.append_assoc]
      rfl
  | drain m =>
      have hsplit := V.run_append p.second (p.buffer.take m)
        (p.buffer.drop m ++ (T.run p.first p.rest).2)
      rw [← List.append_assoc, List.take_append_drop] at hsplit
      rw [total, total, hsplit, ← List.append_assoc]
      rfl

theorem output_of_finished {p : Pipeline S U A B C} (h : p.Finished) :
    p.output = p.total T V := by
  rw [total, h.1, h.2]
  simp

/-- Two chunks that are large enough get to the end. -/
theorem finished_of_large (p : Pipeline S U A B C) {k m : Nat}
    (hk : p.rest.length ≤ k)
    (hm : (p.step T V (.fill k)).buffer.length ≤ m) :
    ((p.step T V (.fill k)).step T V (.drain m)).Finished :=
  ⟨List.drop_eq_nil_of_le hk, List.drop_eq_nil_of_le hm⟩

end Pipeline
