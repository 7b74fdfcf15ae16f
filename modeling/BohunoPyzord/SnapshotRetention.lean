/-
Which snapshots `expire_snapshots` leaves.  It removes by age, one file after
the other; what it is to keep is told by rank.
-/
import BohunoPyzord.UnreadableNames
import Mathlib.Data.List.TakeWhile

namespace BohunoPyzord

namespace Updated

section Removed

variable (expireTime : Nat)

/-- The files that the loop removes: a name that throws ends it, and what was
removed before stays removed. -/
def removedSnapshots :
    List (FileName × Dump) → List (FileName × Dump)
  | [] => []
  | file :: files =>
      match keepSnapshot expireTime file with
      | .ok true => removedSnapshots files
      | .ok false => file :: removedSnapshots files
      | .error _ => []

/-- The files that the loop comes to. -/
def scannedSnapshots (files : List (FileName × Dump)) :
    List (FileName × Dump) :=
  files.takeWhile fun file => (parseSnapshotFileName file.1).toBool

/-- A file whose name is read as a timestamp: it has ten digits, and their
number fits 32 bits. -/
def IsSnapshot (file : FileName × Dump) : Prop :=
  isTimestamp file.1 = true ∧ decimalValue file.1 < 2 ^ 32

instance (file : FileName × Dump) : Decidable (IsSnapshot file) :=
  inferInstanceAs (Decidable (_ ∧ _))

/-- The snapshots that are more recent than a file. -/
def moreRecent (files : List (FileName × Dump)) (file : FileName × Dump) :
    List (FileName × Dump) :=
  files.filter fun other =>
    IsSnapshot other ∧ decimalValue file.1 < decimalValue other.1

/-- One of the two most recent snapshots. -/
def IsRecent (files : List (FileName × Dump)) (file : FileName × Dump) :
    Prop :=
  IsSnapshot file ∧ (moreRecent files file).length < 2

variable {expireTime}

theorem isSnapshot_iff (file : FileName × Dump) :
    IsSnapshot file ↔
      parseSnapshotFileName file.1 = .ok (some (decimalValue file.1)) := by
  rw [parseSnapshotFileName_eq, IsSnapshot]
  split_ifs with hname hfits <;> simp_all

/-- The test of one file, if its name does not throw. -/
theorem keepSnapshot_eq (file : FileName × Dump) :
    keepSnapshot expireTime file =
      if (parseSnapshotFileName file.1).toBool then
        .ok (!decide (IsSnapshot file ∧ decimalValue file.1 < expireTime))
      else .error .badLexicalCast := by
  by_cases hsnapshot : IsSnapshot file
  · rw [keepSnapshot, (isSnapshot_iff file).mp hsnapshot, if_pos (by rfl)]
    change Except.ok (!decide (decimalValue file.1 < expireTime)) = _
    simp [hsnapshot]
  · rw [keepSnapshot, parseSnapshotFileName_eq]
    by_cases hname : isTimestamp file.1 = true
    · have hthrows : ¬ decimalValue file.1 < 2 ^ 32 := fun hfits =>
        hsnapshot ⟨hname, hfits⟩
      rw [if_pos hname, if_neg hthrows]
      rfl
    · rw [if_neg hname, if_pos (by rfl)]
      change Except.ok true = _
      simp [hsnapshot]

/-- The loop removes the snapshots made before `expireTime` among the files
that it comes to. -/
theorem removedSnapshots_eq (files : List (FileName × Dump)) :
    removedSnapshots expireTime files = (scannedSnapshots files).filter
      fun file => IsSnapshot file ∧ decimalValue file.1 < expireTime := by
  induction files with
  | nil => rfl
  | cons file files ih =>
      rw [removedSnapshots, scannedSnapshots, List.takeWhile_cons,
        ← scannedSnapshots, keepSnapshot_eq]
      by_cases hread : (parseSnapshotFileName file.1).toBool = true
      · rw [if_pos hread, if_pos hread, List.filter_cons, ← ih]
        by_cases hold : IsSnapshot file ∧ decimalValue file.1 < expireTime
        · simp [hold]
        · simp [hold]
      · rw [if_neg hread, if_neg hread]
        rfl

/-- Where the loop comes to its end, the rest is what was not removed. -/
theorem snapshots_expireSnapshots {dirs dirs' : Directories} {now : Nat}
    {removed : Bool} (h : expireSnapshots dirs now = .ok (dirs', removed)) :
    ∀ file, file ∈ dirs'.snapshots ↔ file ∈ dirs.snapshots ∧
      file ∉ removedSnapshots (snapshotExpireTime now).toNat
        dirs.snapshots := by
  have hfits := (expireSnapshots_isOk_iff dirs now).mp ⟨_, h⟩
  have hread : ∀ file ∈ dirs.snapshots,
      (parseSnapshotFileName file.1).toBool = true := by
    intro file hfile
    obtain ⟨r, hr⟩ :=
      (parseSnapshotFileName_isOk_iff file.1).mpr (hfits file hfile)
    rw [hr]
    rfl
  have hscanned : scannedSnapshots dirs.snapshots = dirs.snapshots := by
    rw [scannedSnapshots, List.takeWhile_eq_self_iff]
    exact hread
  obtain ⟨kept, hkept, hdirs⟩ := bind_eq_ok h
  obtain ⟨rfl, -⟩ := Prod.mk.inj (Except.ok.inj hdirs)
  intro file
  rw [mem_of_filterM hkept, removedSnapshots_eq, hscanned, List.mem_filter]
  refine and_congr_right fun hfile => ?_
  rw [keepSnapshot_eq, if_pos (hread file hfile)]
  simp [hfile, imp_iff_not_or]

end Removed

/-- Whatever the loop removes, two more recent snapshots are in the
directory. -/
def KeepsTwoRecent (dirs : Directories) (now : Nat) : Prop :=
  ∀ file ∈ removedSnapshots (snapshotExpireTime now).toNat dirs.snapshots,
    2 ≤ (moreRecent dirs.snapshots file).length

/-- The two most recent snapshots that the loop comes to were made at or after
`expire_time`. -/
def RecentAreYoung (dirs : Directories) (now : Nat) : Prop :=
  ∀ file ∈ scannedSnapshots dirs.snapshots,
    IsRecent dirs.snapshots file →
      (snapshotExpireTime now).toNat ≤ decimalValue file.1

/-- Two recent snapshots stay exactly if they are young enough. -/
theorem keepsTwoRecent_iff (dirs : Directories) (now : Nat) :
    KeepsTwoRecent dirs now ↔ RecentAreYoung dirs now := by
  constructor
  · intro h file hscanned hrecent
    by_contra hold
    have htwo := h file (by
      rw [removedSnapshots_eq, List.mem_filter]
      exact ⟨hscanned, decide_eq_true ⟨hrecent.1, Nat.not_le.mp hold⟩⟩)
    exact absurd hrecent.2 (Nat.not_lt.mpr htwo)
  · intro h file hfile
    rw [removedSnapshots_eq, List.mem_filter] at hfile
    obtain ⟨hscanned, hold⟩ := hfile
    obtain ⟨hsnapshot, hbefore⟩ := of_decide_eq_true hold
    by_contra htwo
    have hyoung := h file hscanned ⟨hsnapshot, Nat.not_le.mp htwo⟩
    exact absurd hbefore (Nat.not_lt.mpr hyoung)

/-- Two days after the last snapshots both of them are removed. -/
theorem not_keepsTwoRecent :
    ¬ ∀ (dirs : Directories) (now : Nat), KeepsTwoRecent dirs now := by
  intro h
  let dirs : Directories :=
    { snapshots := [("1200000000".toList, []), ("1200014400".toList, [])]
      current := none
      updates := [] }
  have htwo := h dirs 1200187200 ("1200000000".toList, []) (by
    decide +kernel)
  exact absurd htwo (by decide +kernel)

end Updated

end BohunoPyzord
