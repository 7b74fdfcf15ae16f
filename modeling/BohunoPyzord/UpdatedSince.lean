/-
`database::get_updated_since` over a cursor whose calls may fail.  Its loop
ends at `DB_NOTFOUND` alone, where the loops of `dump_modified_records` end at
whatever is not a success.
-/
import BohunoPyzord.FaultyCursor
import BohunoPyzord.TimeKeys

namespace BohunoPyzord

namespace Database

/-- The loop, in at most `fuel` turns; `r` is the one buffer of all calls. -/
def getUpdatedLoop (faults : Nat → Option Int) :
    Nat → List Record → Record → List Record → Option (List Record)
  | 0, _, _, _ => none
  | fuel + 1, ahead, r, records =>
      let records := records ++ [r]
      match FaultyCursor.get (faults 0) ahead r with
      | (.notFound, _, _) => some records
      | (_, ahead, r) => getUpdatedLoop (FaultyCursor.later faults) fuel ahead r records

/-- `get_updated_since`.  `faults` are the errors of the calls of the cursor,
and `r` is what the record on the stack has in it. -/
def getUpdatedSince {t : TimeT} (index : KeyIndex t) (stored : Database)
    (faults : Nat → Option Int) (fuel : Nat) (since : Uint32) (r : Record)
    (records : List Record) : Option (List Record) :=
  let ahead := (index.entriesFrom stored since).map Prod.snd
  match FaultyCursor.get (faults 0) ahead r with
  | (.success, ahead, r) =>
      getUpdatedLoop (FaultyCursor.later faults) fuel ahead r records
  | _ => some records

/-- The records of a time on, in the order of the index. -/
def updatedSince {t : TimeT} (index : KeyIndex t) (stored : Database)
    (since : Uint32) : List Record :=
  ((index.entries stored).filter fun p => since ≤ p.2.updated).map Prod.snd

/-- The call returns, and appends what the cursor delivers of these before its
first error. -/
def ReturnsDelivered {t : TimeT} (index : KeyIndex t) (stored : Database)
    (faults : Nat → Option Int) (since : Uint32) (r : Record)
    (records : List Record) : Prop :=
  ∃ fuel, stored.getUpdatedSince index faults fuel since r records =
    some (records ++
      FaultyCursor.delivered faults (stored.updatedSince index since))

/-- The first call fails, or none of those that are made until the cursor is
at the end. -/
def FailsAtOnceOrNever (stored : Database) (faults : Nat → Option Int)
    (since : Uint32) : Prop :=
  faults 0 ≠ none ∨ ∀ call,
    call ≤ (stored.pairs.filter fun p => since ≤ p.2.updated).length →
      faults call = none

/-! The turns of the loop. -/

section Loop

variable {faults : Nat → Option Int} {fuel : Nat} {ahead : List Record}
  {a r : Record} {records appended : List Record}

theorem getUpdatedLoop_notFound (h : faults 0 = none) :
    getUpdatedLoop faults (fuel + 1) [] r records = some (records ++ [r]) := by
  rw [getUpdatedLoop, h]
  rfl

theorem getUpdatedLoop_success (h : faults 0 = none) :
    getUpdatedLoop faults (fuel + 1) (a :: ahead) r records =
      getUpdatedLoop (FaultyCursor.later faults) fuel ahead a
        (records ++ [r]) := by
  rw [getUpdatedLoop, h]
  rfl

/-- A call that fails leaves the record of the call before it. -/
theorem getUpdatedLoop_error {e : Int} (h : faults 0 = some e) :
    getUpdatedLoop faults (fuel + 1) ahead r records =
      getUpdatedLoop (FaultyCursor.later faults) fuel ahead r
        (records ++ [r]) := by
  rw [getUpdatedLoop, h]
  rfl

theorem getUpdatedLoop_of_none
    (h : ∀ call ≤ ahead.length, faults call = none) :
    getUpdatedLoop faults (ahead.length + 1) ahead r records =
      some (records ++ r :: ahead) := by
  induction ahead generalizing faults r records with
  | nil => exact getUpdatedLoop_notFound (h 0 (Nat.zero_le _))
  | cons a ahead ih =>
      rw [List.length_cons, getUpdatedLoop_success (h 0 (Nat.zero_le _)), ih,
        List.append_assoc, List.singleton_append]
      exact fun call hcall => h (call + 1) (Nat.succ_le_succ hcall)

/-- What it returns goes on from what has been appended. -/
theorem prefix_of_getUpdatedLoop
    (h : getUpdatedLoop faults fuel ahead r records = some appended) :
    records ++ [r] <+: appended := by
  induction fuel generalizing faults ahead r records with
  | zero => cases h
  | succ fuel ih =>
      cases hfault : faults 0 with
      | some e =>
          rw [getUpdatedLoop_error hfault] at h
          exact (List.prefix_append _ _).trans (ih h)
      | none =>
          cases ahead with
          | nil =>
              rw [getUpdatedLoop_notFound hfault] at h
              rw [Option.some.inj h]
          | cons a ahead =>
              rw [getUpdatedLoop_success hfault] at h
              exact (List.prefix_append _ _).trans (ih h)

/-- A call that fails appends a record once more than it was delivered. -/
theorem eq_none_of_getUpdatedLoop
    (h : getUpdatedLoop faults fuel ahead r records =
      some (records ++ r :: FaultyCursor.delivered faults ahead)) :
    ∀ call ≤ ahead.length, faults call = none := by
  induction fuel generalizing faults ahead r records with
  | zero => cases h
  | succ fuel ih =>
      cases hfault : faults 0 with
      | some e =>
          rw [getUpdatedLoop_error hfault,
            FaultyCursor.delivered_of_fault hfault] at h
          have hlength := (prefix_of_getUpdatedLoop h).length_le
          simp only [List.length_append, List.length_singleton] at hlength
          omega
      | none =>
          cases ahead with
          | nil =>
              intro call hcall
              rw [Nat.le_zero.mp hcall, hfault]
          | cons a ahead =>
              rw [getUpdatedLoop_success hfault,
                FaultyCursor.delivered_cons_of_none hfault,
                List.append_cons records r (a :: _)] at h
              intro call hcall
              cases call with
              | zero => exact hfault
              | succ call => exact ih h call (Nat.le_of_succ_le_succ hcall)

theorem exists_getUpdatedLoop_iff :
    (∃ fuel, getUpdatedLoop faults fuel ahead r records =
      some (records ++ r :: FaultyCursor.delivered faults ahead)) ↔
        ∀ call ≤ ahead.length, faults call = none := by
  constructor
  · rintro ⟨fuel, hreturns⟩
    exact eq_none_of_getUpdatedLoop hreturns
  · intro hnone
    have hdelivered : FaultyCursor.delivered faults ahead = ahead := by
      rw [FaultyCursor.delivered_eq_take
        (fun call hlt => hnone call (Nat.le_of_lt hlt)) (.inl rfl),
        List.take_length]
    rw [hdelivered]
    exact ⟨_, getUpdatedLoop_of_none hnone⟩

/-- After an error that goes on there is no end. -/
theorem getUpdatedLoop_eq_none {n : Nat} (hn : n ≤ ahead.length)
    (hbefore : ∀ call < n, faults call = none)
    (hafter : ∀ call, n ≤ call → faults call ≠ none) :
    getUpdatedLoop faults fuel ahead r records = none := by
  induction fuel generalizing faults ahead r records n with
  | zero => rfl
  | succ fuel ih =>
      cases n with
      | zero =>
          obtain ⟨e, he⟩ := Option.ne_none_iff_exists'.mp
            (hafter 0 (Nat.le_refl 0))
          rw [getUpdatedLoop_error he]
          exact ih (Nat.zero_le _) (fun call hcall => by omega)
            (fun call _ => hafter (call + 1) (Nat.zero_le _))
      | succ n =>
          cases ahead with
          | nil => exact absurd hn (Nat.not_succ_le_zero n)
          | cons a ahead =>
              rw [getUpdatedLoop_success (hbefore 0 n.succ_pos)]
              exact ih (Nat.le_of_succ_le_succ hn)
                (fun call hcall => hbefore (call + 1) (by omega))
                (fun call hcall => hafter (call + 1) (by omega))

end Loop

section Calls

variable {t : TimeT} (index : KeyIndex t) (stored : Database)
  {faults : Nat → Option Int} {fuel : Nat} {since : Uint32} {r : Record}
  {records : List Record}

theorem entriesFrom_eq_updatedSince (since : Uint32) :
    (index.entriesFrom stored since).map Prod.snd =
      stored.updatedSince index since := by
  rw [index.entriesFrom_eq_filter, updatedSince]

theorem length_updatedSince (since : Uint32) :
    (stored.updatedSince index since).length =
      (stored.pairs.filter fun p => since ≤ p.2.updated).length := by
  rw [updatedSince, List.length_map]
  exact ((index.perm stored).filter _).length_eq

theorem getUpdatedSince_of_fault (h : faults 0 ≠ none) :
    stored.getUpdatedSince index faults fuel since r records =
      some records := by
  obtain ⟨e, he⟩ := Option.ne_none_iff_exists'.mp h
  rw [getUpdatedSince, he]
  rfl

theorem getUpdatedSince_of_nil (h : faults 0 = none)
    (hnil : stored.updatedSince index since = []) :
    stored.getUpdatedSince index faults fuel since r records =
      some records := by
  rw [getUpdatedSince, entriesFrom_eq_updatedSince, h, hnil]
  rfl

theorem getUpdatedSince_of_cons {a : Record} {ahead : List Record}
    (h : faults 0 = none)
    (hcons : stored.updatedSince index since = a :: ahead) :
    stored.getUpdatedSince index faults fuel since r records =
      getUpdatedLoop (FaultyCursor.later faults) fuel ahead a records := by
  rw [getUpdatedSince, entriesFrom_eq_updatedSince, h, hcons]
  rfl

/-- An error that goes on after the first record was delivered is never
returned from. -/
theorem getUpdatedSince_eq_none {n : Nat} (hpos : 0 < n)
    (hn : n ≤ (stored.pairs.filter fun p => since ≤ p.2.updated).length)
    (hbefore : ∀ call < n, faults call = none)
    (hafter : ∀ call, n ≤ call → faults call ≠ none) :
    stored.getUpdatedSince index faults fuel since r records = none := by
  rw [← stored.length_updatedSince index] at hn
  cases hahead : stored.updatedSince index since with
  | nil => rw [hahead, List.length_nil] at hn; omega
  | cons a ahead =>
      rw [hahead, List.length_cons] at hn
      rw [getUpdatedSince_of_cons index stored (hbefore 0 hpos) hahead]
      exact getUpdatedLoop_eq_none (n := n - 1) (by omega)
        (fun call hcall => hbefore (call + 1) (by omega))
        (fun call hcall => hafter (call + 1) (by omega))

end Calls

/-- `get_updated_since` returns what the cursor delivers before an error in
exactly two cases: the first call fails, or no call does up to the end. -/
theorem returnsDelivered_iff {t : TimeT} (index : KeyIndex t)
    (stored : Database) (faults : Nat → Option Int) (since : Uint32)
    (r : Record) (records : List Record) :
    stored.ReturnsDelivered index faults since r records ↔
      stored.FailsAtOnceOrNever faults since := by
  rw [FailsAtOnceOrNever, ← stored.length_updatedSince index]
  by_cases hfirst : faults 0 = none
  · rw [or_iff_right (not_not.mpr hfirst)]
    cases hahead : stored.updatedSince index since with
    | nil =>
        constructor
        · intro _ call hcall
          rw [Nat.le_zero.mp hcall, hfirst]
        · intro _
          refine ⟨0, ?_⟩
          rw [getUpdatedSince_of_nil index stored hfirst hahead, hahead]
          exact congrArg some (List.append_nil records).symm
    | cons a ahead =>
        simp only [ReturnsDelivered, hahead,
          getUpdatedSince_of_cons index stored hfirst hahead,
          FaultyCursor.delivered_cons_of_none hfirst,
          exists_getUpdatedLoop_iff]
        constructor
        · intro hlater call hle
          cases call with
          | zero => exact hfirst
          | succ call => exact hlater call (Nat.le_of_succ_le_succ hle)
        · exact fun hnone call hle => hnone (call + 1) (Nat.succ_le_succ hle)
  · refine iff_of_true ⟨0, ?_⟩ (.inl hfirst)
    obtain ⟨e, he⟩ := Option.ne_none_iff_exists'.mp hfirst
    rw [getUpdatedSince_of_fault index stored hfirst,
      FaultyCursor.delivered_of_fault he, List.append_nil]

/-- One record; the second call fails, and so does every later one. -/
theorem getUpdatedSince_not_always_returns :
    ¬ ∀ (t : TimeT) (index : KeyIndex t) stored faults since r records,
      ReturnsDelivered index stored faults since r records := by
  intro h
  let stored : Database :=
    AList.insert ⟨Vector.replicate 20 1⟩ Record.zero ∅
  let faults : Nat → Option Int := fun call =>
    if call = 0 then none else some 5
  obtain ⟨fuel, hreturns⟩ :=
    h .int64 (KeyIndex.stable .int64) stored faults 0 Record.zero []
  have hone : 1 ≤ (stored.pairs.filter
      fun p => (0 : Uint32) ≤ p.2.updated).length := by
    decide +kernel
  rw [getUpdatedSince_eq_none (KeyIndex.stable .int64) stored Nat.one_pos hone
    (fun call hcall => if_pos (Nat.lt_one_iff.mp hcall))
    (fun call hcall => by simp [Nat.ne_of_gt hcall])] at hreturns
  cases hreturns

end Database

end BohunoPyzord
