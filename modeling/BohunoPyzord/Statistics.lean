/-
The ring of one-second buckets behind the request statistics.
-/
import Mathlib.Algebra.GroupWithZero.Nat
import Mathlib.Data.List.Basic

namespace BohunoPyzord

/-- `statistics_ring::bucket`. -/
structure Bucket where
  time : Nat
  count : Nat
deriving DecidableEq, Repr

/-- `statistics_ring`; `current_` is the position of the iterator. -/
structure StatisticsRing where
  buckets_ : List Bucket
  current_ : Nat
  total_ : Nat
deriving DecidableEq, Repr

namespace StatisticsRing

/-- The constructor, run at clock reading `now`. -/
def create (seconds now : Nat) : StatisticsRing :=
  { buckets_ := (List.replicate seconds ⟨0, 0⟩).set 0 ⟨now, 0⟩
    current_ := 0, total_ := 0 }

def currentBucket (ring : StatisticsRing) : Bucket :=
  ring.buckets_.getD ring.current_ ⟨0, 0⟩

/-- One turn of the loop of `advance`: the next bucket is emptied and becomes
that of second `t`. -/
def turn (ring : StatisticsRing) (t : Nat) : StatisticsRing :=
  let next := if ring.current_ + 1 = ring.buckets_.length then 0
    else ring.current_ + 1
  { ring with current_ := next, buckets_ := ring.buckets_.set next ⟨t, 0⟩ }

def advance (ring : StatisticsRing) (now : Nat) : StatisticsRing :=
  if ring.currentBucket.time ≠ now then
    (List.range' (ring.currentBucket.time + 1)
      (now - ring.currentBucket.time)).foldl turn ring
  else ring

def report (ring : StatisticsRing) (now : Nat) : StatisticsRing :=
  let ring := { ring with total_ := ring.total_ + 1 }.advance now
  let bucket := ring.currentBucket
  { ring with
    buckets_ := ring.buckets_.set ring.current_
      { bucket with count := bucket.count + 1 } }

/-- `average()`, which advances the ring. -/
def average (ring : StatisticsRing) (now : Nat) : Nat × StatisticsRing :=
  let ring := ring.advance now
  ((ring.buckets_.map Bucket.count).sum / ring.buckets_.length, ring)

def total (ring : StatisticsRing) : Nat := ring.total_

end StatisticsRing

end BohunoPyzord
