/-
What the statistics report: `average()` is the number of reports in the last
seconds, as many as the ring has buckets, over their number.
-/
import BohunoPyzord.RingWindow
import BohunoPyzord.Statistics

namespace BohunoPyzord

namespace StatisticsRing

/-- The counts of the buckets. -/
def cell (ring : StatisticsRing) (i : Nat) : Nat :=
  (ring.buckets_.getD i ⟨0, 0⟩).count

/-- Reports as what happens once each. -/
def reportEvents (times : List Nat) : List (Nat × Nat) :=
  times.map fun t => (t, 1)

/-- The ring has `n` buckets, its current one is that of second `now`, and it
was reported to at `times`. -/
structure Counts (n : Nat) (ring : StatisticsRing) (now : Nat)
    (times : List Nat) : Prop where
  length_eq : ring.buckets_.length = n
  time_eq : ring.currentBucket.time = now
  holds : RingWindow.Holds n ring.cell ring.current_ now (reportEvents times)

theorem amount_reportEvents (times : List Nat) (p : Nat → Prop)
    [DecidablePred p] :
    RingWindow.amount (reportEvents times) p = times.countP p := by
  induction times with
  | nil => rfl
  | cons t times ih =>
      rw [reportEvents, List.map_cons, RingWindow.amount_cons,
        ← reportEvents, ih, List.countP_cons, Nat.add_comm]
      simp only [decide_eq_true_eq]

theorem cell_set (ring : StatisticsRing) {i : Nat}
    (hi : i < ring.buckets_.length) (bucket : Bucket) :
    cell { ring with buckets_ := ring.buckets_.set i bucket } =
      Function.update ring.cell i bucket.count := by
  funext j
  by_cases hj : j = i
  · subst hj
    rw [Function.update_self, cell, List.getD_eq_getElem?_getD,
      List.getElem?_set_self hi]
    rfl
  · rw [Function.update_of_ne hj, cell, cell, List.getD_eq_getElem?_getD,
      List.getElem?_set_ne (Ne.symm hj), List.getD_eq_getElem?_getD]

theorem sum_counts (ring : StatisticsRing) :
    (ring.buckets_.map Bucket.count).sum =
      ∑ i ∈ Finset.range ring.buckets_.length, ring.cell i := by
  have hofFn : ring.buckets_.map Bucket.count =
      List.ofFn fun i : Fin ring.buckets_.length => ring.cell i := by
    apply List.ext_getElem (by simp)
    intro i hi hi'
    simp [cell]
  rw [hofFn, List.sum_ofFn, Finset.sum_range]

theorem counts_create {n : Nat} (hn : 0 < n) (start : Nat) :
    Counts n (create n start) start [] where
  length_eq := by simp [create]
  time_eq := by
    rw [currentBucket, create, List.getD_eq_getElem?_getD,
      List.getElem?_set_self (by simpa using hn)]
    rfl
  holds := by
    have hcell : (create n start).cell = fun _ => 0 := by
      funext i
      rw [create, cell, List.getD_eq_getElem?_getD, List.getElem?_set]
      split_ifs
      · rfl
      · rfl
      · simp only [List.getElem?_replicate]
        split_ifs <;> rfl
    rw [hcell]
    exact RingWindow.Holds.empty hn start

namespace Counts

variable {n now : Nat} {ring : StatisticsRing} {times : List Nat}

/-- One turn of the loop is one tick. -/
theorem turn (h : Counts n ring now times) :
    Counts n (ring.turn (now + 1)) (now + 1) times := by
  have hnext := RingWindow.next_lt h.holds.current_lt
  rw [← h.length_eq] at hnext
  constructor
  · simp [StatisticsRing.turn, h.length_eq]
  · change ((ring.buckets_.set (RingWindow.next ring.buckets_.length
      ring.current_) ⟨now + 1, 0⟩).getD (RingWindow.next ring.buckets_.length
        ring.current_) ⟨0, 0⟩).time = now + 1
    rw [List.getD_eq_getElem?_getD, List.getElem?_set_self hnext]
    rfl
  · have htick := h.holds.tick
    rw [← h.length_eq, ← cell_set ring hnext ⟨now + 1, 0⟩] at htick
    rw [← h.length_eq]
    exact htick

theorem turns (h : Counts n ring now times) (j : Nat) :
    Counts n ((List.range' (now + 1) j).foldl StatisticsRing.turn ring)
      (now + j) times := by
  induction j generalizing ring now with
  | zero => exact h
  | succ j ih =>
      have hend : now + (j + 1) = now + 1 + j := by omega
      rw [List.range'_succ, List.foldl_cons, hend]
      exact ih h.turn

/-- `advance` catches up with the clock. -/
theorem advance (h : Counts n ring now times) {t : Nat} (ht : now ≤ t) :
    Counts n (ring.advance t) t times := by
  have hturns := h.turns (t - now)
  rw [Nat.add_sub_cancel' ht] at hturns
  rw [StatisticsRing.advance, h.time_eq]
  split_ifs with hsame
  · exact hturns
  · exact not_not.mp hsame ▸ h

/-- A report is counted in the bucket of its second. -/
theorem report (h : Counts n ring now times) {t : Nat} (ht : now ≤ t) :
    Counts n (ring.report t) t (times ++ [t]) := by
  have htotal : Counts n { ring with total_ := ring.total_ + 1 } now times :=
    ⟨h.length_eq, h.time_eq, h.holds⟩
  rw [StatisticsRing.report]
  generalize hat : StatisticsRing.advance
    { ring with total_ := ring.total_ + 1 } t = current
  have hcurrent : Counts n current t times := hat ▸ htotal.advance ht
  have hlt := hcurrent.holds.current_lt
  rw [← hcurrent.length_eq] at hlt
  have hbucket : current.currentBucket.count = current.cell current.current_ :=
    rfl
  constructor
  · simp [hcurrent.length_eq]
  · change ((current.buckets_.set _ _).getD _ _).time = _
    rw [List.getD_eq_getElem?_getD, List.getElem?_set_self hlt]
    exact hcurrent.time_eq
  · have hadd := hcurrent.holds.add 1
    rw [reportEvents, List.map_append, ← reportEvents]
    have hcell := cell_set current hlt { current.currentBucket with
      count := current.currentBucket.count + 1 }
    rw [hbucket] at hcell ⊢
    rw [hcell]
    exact hadd

/-- The average over the ring is that over its window. -/
theorem average_eq (h : Counts n ring now times) {t : Nat} (ht : now ≤ t) :
    (ring.average t).1 = times.countP (fun s => s ≤ t ∧ t < s + n) / n := by
  have hcurrent := h.advance ht
  rw [average, sum_counts, hcurrent.length_eq, hcurrent.holds.sum,
    amount_reportEvents]

end Counts

theorem total_advance (ring : StatisticsRing) (t : Nat) :
    (ring.advance t).total_ = ring.total_ := by
  have hturns : ∀ (ticks : List Nat) (ring : StatisticsRing),
      (ticks.foldl turn ring).total_ = ring.total_ := by
    intro ticks
    induction ticks with
    | nil => exact fun ring => rfl
    | cons t ticks ih => exact fun ring => ih (ring.turn t)
  rw [advance]
  split_ifs
  · exact hturns _ ring
  · rfl

end StatisticsRing

/-- A call of `report()` or `average()`, and the clock it reads. -/
inductive StatisticsCall where
  | report (now : Nat)
  | average (now : Nat)
deriving DecidableEq, Repr

namespace StatisticsCall

def now : StatisticsCall → Nat
  | .report now => now
  | .average now => now

def apply (ring : StatisticsRing) : StatisticsCall → StatisticsRing
  | .report now => ring.report now
  | .average now => (ring.average now).2

/-- When the call reports something. -/
def reported : StatisticsCall → Option Nat
  | .report now => some now
  | .average _ => none

/-- The clock does not go back, from the creation of the ring on. -/
def InOrder (start : Nat) (calls : List StatisticsCall) : Prop :=
  (start :: calls.map now).Pairwise (· ≤ ·)

instance (start : Nat) (calls : List StatisticsCall) :
    Decidable (InOrder start calls) :=
  inferInstanceAs (Decidable (List.Pairwise _ _))

theorem inOrder_cons {start : Nat} {call : StatisticsCall}
    {calls : List StatisticsCall} :
    InOrder start (call :: calls) ↔
      start ≤ call.now ∧ (∀ later ∈ calls, start ≤ later.now) ∧
        InOrder call.now calls := by
  simp only [InOrder, List.map_cons, List.pairwise_cons, List.mem_cons,
    forall_eq_or_imp, List.mem_map, forall_exists_index, and_imp,
    forall_apply_eq_imp_iff₂, and_assoc]

/-- One call, at or after the clock of the ring. -/
theorem counts_apply {n start : Nat} {ring : StatisticsRing}
    {times : List Nat} (h : ring.Counts n start times)
    (call : StatisticsCall) (hcall : start ≤ call.now) :
    (apply ring call).Counts n call.now (times ++ call.reported.toList) ∧
      (apply ring call).total_ =
        ring.total_ + call.reported.toList.length := by
  cases call with
  | report now =>
      exact ⟨h.report hcall, StatisticsRing.total_advance _ now⟩
  | average now =>
      have hcaught := h.advance hcall
      rw [← List.append_nil times] at hcaught
      exact ⟨hcaught, StatisticsRing.total_advance ring now⟩

/-- Any calls before one at `t` leave the ring with what they reported. -/
theorem counts_foldl {n start t : Nat} {ring : StatisticsRing}
    {times : List Nat} (h : ring.Counts n start times)
    (calls : List StatisticsCall)
    (hcalls : InOrder start (calls ++ [.average t])) :
    ∃ now, now ≤ t ∧
      (calls.foldl apply ring).Counts n now
        (times ++ calls.filterMap reported) ∧
      (calls.foldl apply ring).total_ =
        ring.total_ + (calls.filterMap reported).length := by
  induction calls generalizing start ring times with
  | nil =>
      refine ⟨start, (inOrder_cons.mp hcalls).1, ?_, rfl⟩
      rw [List.filterMap_nil, List.append_nil]
      exact h
  | cons call calls ih =>
      obtain ⟨hstart, -, hrest⟩ := inOrder_cons.mp hcalls
      obtain ⟨hcounts, htotal⟩ := counts_apply h call hstart
      obtain ⟨now, hnow, hfold, hsum⟩ := ih hcounts hrest
      have hreported : (call :: calls).filterMap reported =
          call.reported.toList ++ calls.filterMap reported := by
        cases hcall : call.reported <;> simp [hcall]
      refine ⟨now, hnow, ?_, ?_⟩
      · rw [List.foldl_cons, hreported, ← List.append_assoc]
        exact hfold
      · rw [List.foldl_cons, hsum, htotal, hreported, List.length_append,
          Nat.add_assoc]

end StatisticsCall

/-- On a clock that does not go back, `average()` at `t` is the number of
reports in the last `n` seconds over `n`, and `total()` that of all reports. -/
theorem average_total_eq (n start : Nat) (hn : 1 ≤ n)
    (calls : List StatisticsCall) (t : Nat)
    (hcalls : StatisticsCall.InOrder start (calls ++ [.average t])) :
    let ring := calls.foldl StatisticsCall.apply (.create n start)
    let times := calls.filterMap StatisticsCall.reported
    (ring.average t).1 = times.countP (fun s => s ≤ t ∧ t < s + n) / n ∧
      ring.total = times.length := by
  obtain ⟨now, hnow, hcounts, htotal⟩ := StatisticsCall.counts_foldl
    (StatisticsRing.counts_create hn start) calls hcalls
  rw [List.nil_append] at hcounts
  refine ⟨hcounts.average_eq hnow, ?_⟩
  rw [StatisticsRing.total, htotal]
  exact Nat.zero_add _

/-- Three buckets, two reports a gap of ten seconds after the first, and an
average two seconds later. -/
theorem average_afterGap :
    (([.report 100, .average 101, .report 110, .report 111].foldl
      StatisticsCall.apply (StatisticsRing.create 3 100)).average 112).1 = 0 ∧
    ([.report 100, .average 101, .report 110, .report 111].foldl
      StatisticsCall.apply (StatisticsRing.create 3 100)).total = 3 :=
  average_total_eq 3 100 (by decide)
    [.report 100, .average 101, .report 110, .report 111] 112 (by decide)

end BohunoPyzord
