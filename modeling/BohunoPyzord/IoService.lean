/-
The operations that a program has started on an asynchronous I/O service and
whose handlers have not been run.  Cancelling them overtakes only those that
have not completed: a handler that is already waiting to be run will not hear
of it.
-/
import Mathlib.Algebra.BigOperators.Group.List.Basic
import Mathlib.Algebra.Order.BigOperators.Group.List
import Mathlib.Algebra.Order.Ring.Nat
import Mathlib.Tactic.Common

universe u v

/-- How far an operation has come.  A cancelled one has completed with an
error, a completed one without. -/
inductive Progress where
  | outstanding
  | completed
  | cancelled
deriving DecidableEq, Repr

structure Operation (K : Type u) where
  kind : K
  progress : Progress
deriving DecidableEq, Repr

namespace Operation

variable {K : Type u}

def complete (op : Operation K) : Operation K :=
  { op with progress := .completed }

/-- Cancel the operation if it is of the kind and has not completed. -/
def cancel (p : K → Bool) (op : Operation K) : Operation K :=
  if p op.kind ∧ op.progress = .outstanding then
    { op with progress := .cancelled }
  else op

@[simp] theorem kind_complete (op : Operation K) :
    op.complete.kind = op.kind := rfl

@[simp] theorem kind_cancel (p : K → Bool) (op : Operation K) :
    (op.cancel p).kind = op.kind := by
  unfold cancel
  split <;> rfl

theorem cancel_eq_self {p : K → Bool} {op : Operation K}
    (h : p op.kind = false) : op.cancel p = op := by
  simp [cancel, h]

/-- What is cancelled is not outstanding any more, nor does it become so. -/
theorem progress_cancel {p : K → Bool} {op : Operation K}
    (h : p op.kind = true ∨ op.progress ≠ .outstanding) :
    (op.cancel p).progress ≠ .outstanding := by
  unfold cancel
  split_ifs with hcancel
  · exact Progress.noConfusion
  · intro hout
    rcases h with hkind | hdone
    · exact hcancel ⟨hkind, hout⟩
    · exact hdone hout

end Operation

/-- The operations, in the order in which they were started. -/
structure IoService (K : Type u) where
  operations : List (Operation K)
deriving DecidableEq, Repr

namespace IoService

variable {K : Type u}

def idle : IoService K := ⟨[]⟩

def start (io : IoService K) (kind : K) : IoService K :=
  ⟨io.operations ++ [⟨kind, .outstanding⟩]⟩

def cancel (io : IoService K) (p : K → Bool) : IoService K :=
  ⟨io.operations.map (Operation.cancel p)⟩

/-- The `i`-th operation completes without an error. -/
def complete (io : IoService K) (i : Nat) : Option (IoService K) :=
  match io.operations[i]? with
  | some op =>
      if op.progress = .outstanding then
        some ⟨io.operations.set i op.complete⟩
      else none
  | none => none

/-- The `i`-th operation is taken off for its handler to be run. -/
def take (io : IoService K) (i : Nat) : Option (Operation K × IoService K) :=
  io.operations[i]?.map fun op => (op, ⟨io.operations.eraseIdx i⟩)

/-- What the operations weigh together. -/
def weight (io : IoService K) (w : Operation K → Nat) : Nat :=
  (io.operations.map w).sum

/-- Whether the operation is of the kind and has not been cancelled. -/
def Stands (p : K → Bool) (op : Operation K) : Prop :=
  p op.kind = true ∧ op.progress ≠ .cancelled

instance (p : K → Bool) (op : Operation K) : Decidable (Stands p op) :=
  inferInstanceAs (Decidable (_ ∧ _))

/-- How many operations of a kind there are that have not been cancelled. -/
def standing (io : IoService K) (p : K → Bool) : Nat :=
  io.weight fun op => if Stands p op then 1 else 0

/-! What the calls and completions do to a weight. -/

@[simp] theorem weight_idle (w : Operation K → Nat) :
    (idle : IoService K).weight w = 0 := rfl

@[simp] theorem weight_start (io : IoService K) (kind : K)
    (w : Operation K → Nat) :
    (io.start kind).weight w = io.weight w + w ⟨kind, .outstanding⟩ := by
  simp [weight, start]

theorem weight_cancel (io : IoService K) (p : K → Bool)
    (w : Operation K → Nat) :
    (io.cancel p).weight w = io.weight fun op => w (op.cancel p) := by
  simp [weight, cancel, Function.comp_def]

theorem take_eq_some {io io' : IoService K} {i : Nat} {op : Operation K}
    (h : io.take i = some (op, io')) :
    io.operations[i]? = some op ∧ io' = ⟨io.operations.eraseIdx i⟩ := by
  obtain ⟨op', hop, heq⟩ := Option.map_eq_some_iff.mp h
  obtain ⟨rfl, rfl⟩ := Prod.mk.inj heq
  exact ⟨hop, rfl⟩

theorem weight_take {io io' : IoService K} {i : Nat} {op : Operation K}
    (h : io.take i = some (op, io')) (w : Operation K → Nat) :
    io.weight w = io'.weight w + w op := by
  obtain ⟨hop, rfl⟩ := take_eq_some h
  obtain ⟨hi, hget⟩ := List.getElem?_eq_some_iff.mp hop
  have hperm := ((List.getElem_cons_eraseIdx_perm hi).map w).sum_eq
  rw [List.map_cons, List.sum_cons, hget] at hperm
  rw [weight, weight, ← hperm, Nat.add_comm]

theorem complete_eq_some {io io' : IoService K} {i : Nat}
    (h : io.complete i = some io') :
    ∃ op, io.operations[i]? = some op ∧ op.progress = .outstanding ∧
      io' = ⟨io.operations.set i op.complete⟩ := by
  unfold complete at h
  split at h
  · rename_i op hop
    split at h
    · rename_i hout
      exact ⟨op, hop, hout, (Option.some.inj h).symm⟩
    · cases h
  · cases h

/-- The operations before and after the one that completes. -/
theorem complete_split {io io' : IoService K} {i : Nat}
    {op : Operation K} (hop : io.operations[i]? = some op)
    (h : io' = ⟨io.operations.set i op.complete⟩) :
    ∃ before after, io.operations = before ++ op :: after ∧
      io'.operations = before ++ op.complete :: after := by
  obtain ⟨hi, hget⟩ := List.getElem?_eq_some_iff.mp hop
  refine ⟨io.operations.take i, io.operations.drop (i + 1), ?_, ?_⟩
  · rw [← hget, List.cons_getElem_drop_succ, List.take_append_drop]
  · rw [h, List.set_eq_take_append_cons_drop, if_pos hi]

/-- What an operation that completes weighs before and after. -/
theorem weight_completed {io io' : IoService K} {i : Nat} {op : Operation K}
    (hop : io.operations[i]? = some op)
    (h : io' = ⟨io.operations.set i op.complete⟩) (w : Operation K → Nat) :
    io'.weight w + w op = io.weight w + w op.complete := by
  obtain ⟨before, after, hbefore, hafter⟩ := complete_split hop h
  rw [weight, weight, hbefore, hafter]
  simp only [List.map_append, List.map_cons, List.sum_append, List.sum_cons]
  omega

theorem weight_complete {io io' : IoService K} {i : Nat}
    (h : io.complete i = some io') {w : Operation K → Nat}
    (hw : ∀ kind, w ⟨kind, .completed⟩ = w ⟨kind, .outstanding⟩) :
    io'.weight w = io.weight w := by
  obtain ⟨op, hop, hout, hio⟩ := complete_eq_some h
  have hsum := weight_completed hop hio w
  have hsame : w op.complete = w op := by
    obtain ⟨kind, progress⟩ := op
    obtain rfl : progress = .outstanding := hout
    exact hw kind
  omega

/-! What the operations of some kind carry, in the order of their start. -/

section Project

variable {B : Type v}

def project (io : IoService K) (f : K → Option B) : List B :=
  io.operations.filterMap fun op => f op.kind

variable (f : K → Option B)

@[simp] theorem project_idle : (idle : IoService K).project f = [] := rfl

@[simp] theorem project_start (io : IoService K) (kind : K) :
    (io.start kind).project f = io.project f ++ (f kind).toList := by
  simp only [project, start, List.filterMap_append]
  cases hkind : f kind with
  | none => simp [hkind]
  | some b => simp [hkind]

@[simp] theorem project_cancel (io : IoService K) (p : K → Bool) :
    (io.cancel p).project f = io.project f := by
  simp only [project, cancel, List.filterMap_map, Function.comp_def,
    Operation.kind_cancel]

theorem project_complete {io io' : IoService K} {i : Nat}
    (h : io.complete i = some io') : io'.project f = io.project f := by
  obtain ⟨op, hop, -, hio⟩ := complete_eq_some h
  obtain ⟨before, after, hbefore, hafter⟩ := complete_split hop hio
  rw [project, project, hbefore, hafter]
  simp [List.filterMap_append, List.filterMap_cons]

theorem take_split {io io' : IoService K} {i : Nat} {op : Operation K}
    (h : io.take i = some (op, io')) :
    ∃ before after, io.operations = before ++ op :: after ∧
      io'.operations = before ++ after := by
  obtain ⟨hop, rfl⟩ := take_eq_some h
  obtain ⟨hi, hget⟩ := List.getElem?_eq_some_iff.mp hop
  refine ⟨io.operations.take i, io.operations.drop (i + 1), ?_,
    List.eraseIdx_eq_take_drop_succ _ _⟩
  rw [← hget, List.cons_getElem_drop_succ, List.take_append_drop]

theorem project_take_none {io io' : IoService K} {i : Nat} {op : Operation K}
    (h : io.take i = some (op, io')) (hop : f op.kind = none) :
    io'.project f = io.project f := by
  obtain ⟨before, after, hbefore, hafter⟩ := take_split h
  rw [project, project, hbefore, hafter]
  simp [List.filterMap_append, hop]

theorem project_take_some {io io' : IoService K} {i : Nat} {op : Operation K}
    {b : B} (h : io.take i = some (op, io')) (hop : f op.kind = some b) :
    ∃ j, (io.project f)[j]? = some b ∧
      io'.project f = (io.project f).eraseIdx j := by
  obtain ⟨before, after, hbefore, hafter⟩ := take_split h
  refine ⟨(before.filterMap fun op => f op.kind).length, ?_, ?_⟩
  · rw [project, hbefore, List.filterMap_append, List.filterMap_cons, hop]
    simp
  · rw [project, project, hbefore, hafter, List.filterMap_append,
      List.filterMap_append, List.filterMap_cons, hop,
      List.eraseIdx_append_of_length_le (Nat.le_refl _)]
    simp

end Project

/-! Operations that have not been cancelled. -/

section Standing

variable (p : K → Bool)

@[simp] theorem standing_idle : (idle : IoService K).standing p = 0 := rfl

theorem standing_start (io : IoService K) (kind : K) :
    (io.start kind).standing p =
      io.standing p + if p kind then 1 else 0 := by
  simp [standing, Stands]

theorem standing_take {io io' : IoService K} {i : Nat} {op : Operation K}
    (h : io.take i = some (op, io')) :
    io.standing p = io'.standing p + if Stands p op then 1 else 0 :=
  weight_take h _

/-- What is of either of two kinds. -/
theorem standing_or (io : IoService K) {q : K → Bool}
    (h : ∀ kind, q kind = true → p kind = false) :
    io.standing (fun kind => p kind || q kind) =
      io.standing p + io.standing q := by
  rw [standing, standing, standing, weight, weight, weight, ← List.sum_map_add]
  congr 2
  funext op
  cases hq : q op.kind with
  | true => simp [Stands, hq, h op.kind hq]
  | false =>
      have hstands : Stands (fun kind => p kind || q kind) op ↔
          Stands p op := by simp [Stands, hq]
      have hnone : ¬ Stands q op := by simp [Stands, hq]
      simp only [hstands, if_neg hnone, Nat.add_zero]

theorem standing_complete {io io' : IoService K} {i : Nat}
    (h : io.complete i = some io') : io'.standing p = io.standing p := by
  apply weight_complete h
  intro kind
  simp [Stands]

/-- Operations of other kinds are not cancelled. -/
theorem standing_cancel_of_disjoint (io : IoService K) {q : K → Bool}
    (h : ∀ kind, q kind = true → p kind = false) :
    (io.cancel q).standing p = io.standing p := by
  rw [standing, weight_cancel]
  congr 1
  funext op
  cases hq : q op.kind with
  | true => simp [Stands, h op.kind hq]
  | false => rw [Operation.cancel_eq_self hq]

theorem standing_cancel_le (io : IoService K) (q : K → Bool) :
    (io.cancel q).standing p ≤ io.standing p := by
  rw [standing, weight_cancel]
  apply List.sum_le_sum
  intro op _
  unfold Operation.cancel
  split
  · simp [Stands]
  · exact le_rfl

variable {p} in
theorem standing_pos {io : IoService K} {op : Operation K}
    (hop : op ∈ io.operations) (h : Stands p op) : 0 < io.standing p := by
  rw [Nat.pos_iff_ne_zero]
  intro hnone
  have hzero : (if Stands p op then 1 else 0) = 0 :=
    List.sum_eq_zero_iff.mp hnone _ (List.mem_map_of_mem hop)
  rw [if_pos h] at hzero
  cases hzero

/-- What stands is there. -/
theorem exists_of_standing_pos {io : IoService K} (h : 0 < io.standing p) :
    ∃ op ∈ io.operations, Stands p op := by
  by_contra hnone
  apply h.ne'
  apply List.sum_eq_zero
  intro n hn
  obtain ⟨op, hop, rfl⟩ := List.mem_map.mp hn
  rw [if_neg fun hstands => hnone ⟨op, hop, hstands⟩]

/-- Where nothing of a kind stands, there is nothing left to cancel. -/
theorem cancel_eq_self_of_standing {io : IoService K}
    (h : io.standing p = 0) : io.cancel p = io := by
  have hsame : ∀ op ∈ io.operations, op.cancel p = op := by
    intro op hop
    unfold Operation.cancel
    split_ifs with hcancel
    · have hstands : Stands p op := ⟨hcancel.1, by simp [hcancel.2]⟩
      exact absurd h (standing_pos hop hstands).ne'
    · rfl
  rw [cancel, List.map_congr_left hsame, List.map_id']

end Standing

/-! Kinds of which there is an operation. -/

/-- Some operation is of the kind, cancelled or not. -/
def Waits (io : IoService K) (kind : K) : Prop :=
  ∃ op ∈ io.operations, op.kind = kind

namespace Waits

variable {io io' : IoService K} {kind : K}

theorem of_start {other : K} (h : (io.start other).Waits kind) :
    io.Waits kind ∨ other = kind := by
  obtain ⟨op, hop, rfl⟩ := h
  rcases List.mem_append.mp hop with hold | hnew
  · exact Or.inl ⟨op, hold, rfl⟩
  · rw [List.mem_singleton.mp hnew]
    exact Or.inr rfl

theorem of_cancel {p : K → Bool} (h : (io.cancel p).Waits kind) :
    io.Waits kind := by
  obtain ⟨op', hop', rfl⟩ := h
  obtain ⟨op, hop, rfl⟩ := List.mem_map.mp hop'
  exact ⟨op, hop, (Operation.kind_cancel p op).symm⟩

theorem of_complete {i : Nat} (hio : io.complete i = some io')
    (h : io'.Waits kind) : io.Waits kind := by
  obtain ⟨op, hop, -, rfl⟩ := complete_eq_some hio
  obtain ⟨op', hop', rfl⟩ := h
  rcases List.mem_or_eq_of_mem_set hop' with hold | rfl
  · exact ⟨op', hold, rfl⟩
  · exact ⟨op, List.mem_of_getElem? hop, rfl⟩

theorem of_take {i : Nat} {op : Operation K}
    (htake : io.take i = some (op, io')) (h : io'.Waits kind) :
    io.Waits kind := by
  obtain ⟨-, rfl⟩ := take_eq_some htake
  obtain ⟨op', hop', hkind⟩ := h
  exact ⟨op', List.mem_of_mem_eraseIdx hop', hkind⟩

/-- What is taken was waited for. -/
theorem taken {i : Nat} {op : Operation K}
    (htake : io.take i = some (op, io')) : io.Waits op.kind :=
  ⟨op, List.mem_of_getElem? (take_eq_some htake).1, rfl⟩

end Waits

/-! Services in which nothing was cancelled. -/

/-- No operation was cancelled. -/
def Alive (io : IoService K) : Prop :=
  ∀ op ∈ io.operations, op.progress ≠ .cancelled

namespace Alive

variable {io io' : IoService K}

theorem start (h : io.Alive) (kind : K) : (io.start kind).Alive := by
  intro op hop
  rcases List.mem_append.mp hop with hold | hnew
  · exact h op hold
  · rw [List.mem_singleton.mp hnew]
    exact Progress.noConfusion

theorem complete (h : io.Alive) {i : Nat} (hio : io.complete i = some io') :
    io'.Alive := by
  obtain ⟨op, -, -, rfl⟩ := complete_eq_some hio
  intro op' hop'
  rcases List.mem_or_eq_of_mem_set hop' with hold | rfl
  · exact h op' hold
  · exact Progress.noConfusion

theorem take (h : io.Alive) {i : Nat} {op : Operation K}
    (htake : io.take i = some (op, io')) :
    op.progress ≠ .cancelled ∧ io'.Alive := by
  obtain ⟨hop, rfl⟩ := take_eq_some htake
  exact ⟨h op (List.mem_of_getElem? hop),
    fun op' hop' => h op' (List.mem_of_mem_eraseIdx hop')⟩

/-- What is waited for stands. -/
theorem standing_pos (h : io.Alive) {kind : K} (hwaits : io.Waits kind)
    {p : K → Bool} (hp : p kind = true) : 0 < io.standing p := by
  obtain ⟨op, hop, rfl⟩ := hwaits
  exact IoService.standing_pos hop ⟨hp, h op hop⟩

end Alive

end IoService
