/-
What one call of `expire` does when all its calls succeed: the batch that it
deletes, and what it leaves in its in/out argument.  The variable that it
copies there is first the key of the search, in network order.
-/
import BohunoPyzord.Expire

namespace BohunoPyzord
namespace Master

/-- All calls succeed, and `get` up to the last entry. -/
def ExpireCalls.succeed (index : TimeIndex) (stored : Database) : ExpireCalls :=
  { txnBegin := true, cursor := true, gets := (index.entries stored).length
    del := fun _ => true, commit := true }

/-- What may be deleted between two times, in the order of the index. -/
def eligible (index : TimeIndex) (stored : Database)
    (updatedFrom updatedTo : Uint32) : Dump :=
  (index.entries stored).filter fun p => p.2.reportedOnce &&
    decide (stamp p < updatedTo.toNat) && decide (updatedFrom.toNat ≤ stamp p)

section Eligible

variable {index : TimeIndex} {stored : Database} {updatedFrom updatedTo : Uint32}

theorem mem_eligible {p : Hash × Record} :
    p ∈ eligible index stored updatedFrom updatedTo ↔
      stored.lookup p.1 = some p.2 ∧ p.2.reportedOnce = true ∧
        updatedFrom ≤ p.2.updated ∧ p.2.updated < updatedTo := by
  rw [eligible, List.mem_filter, (index.perm stored).mem_iff,
    Database.mem_pairs]
  simp only [Bool.and_eq_true, decide_eq_true_eq]
  constructor
  · rintro ⟨hlookup, ⟨honce, hto⟩, hfrom⟩
    exact ⟨hlookup, honce, hfrom, hto⟩
  · rintro ⟨hlookup, honce, hfrom, hto⟩
    exact ⟨hlookup, ⟨honce, hto⟩, hfrom⟩

theorem delivered_succeed (index : TimeIndex) (stored : Database)
    (updatedFrom : Uint32) :
    (index.entriesFrom stored updatedFrom.toNat).take
        (ExpireCalls.succeed index stored).gets =
      index.entriesFrom stored updatedFrom.toNat :=
  List.take_of_length_le (List.dropWhile_sublist _).length_le

theorem counted_succeed (index : TimeIndex) (stored : Database)
    (updatedFrom updatedTo : Uint32) :
    counted index (.succeed index stored) stored updatedFrom updatedTo =
      (eligible index stored updatedFrom updatedTo).take
        maxRecordsToExpire.toNat := by
  rw [counted, delivered_succeed, TimeIndex.entriesFrom,
    OrderedScan.select_startingAt (index.ordered stored), eligible]

theorem deletions_all (k : Nat) (records : Dump) :
    deletions (fun _ => true) k records = records.map Prod.fst := by
  induction records generalizing k with
  | nil => rfl
  | cons p records ih =>
      rw [deletions_cons, ih]
      rfl

end Eligible

/-- What one call deletes. -/
def batch (index : TimeIndex) (stored : Database)
    (updatedFrom updatedTo : Uint32) : Dump :=
  (eligible index stored updatedFrom updatedTo).take maxRecordsToExpire.toNat

/-- What `expire` returns and leaves, up to the value of its argument where
nothing is deleted. -/
theorem expire_succeed (index : TimeIndex) (stored : Database)
    (updatedFrom updatedTo : Uint32) :
    ∃ deleted v stored', expire index (.succeed index stored) stored
        updatedFrom updatedTo = some (deleted, v, stored') ∧
      deleted.toNat = (batch index stored updatedFrom updatedTo).length ∧
      (∀ last ∈ (batch index stored updatedFrom updatedTo).getLast?,
        v = last.2.updated) ∧
      ∀ hash, stored'.lookup hash =
        if hash ∈ (batch index stored updatedFrom updatedTo).map Prod.fst then
          none
        else stored.lookup hash := by
  have hsome := isSome_expire index (.succeed index stored) stored updatedFrom
    updatedTo
  obtain ⟨⟨deleted, v, stored'⟩, hexpire⟩ :=
    Option.isSome_iff_exists.mp (hsome.trans rfl)
  obtain ⟨hdeleted, hlast, hgone, hkept⟩ := expire_eq_some hexpire
  rw [counted_succeed, ← batch] at hdeleted hlast hgone hkept
  refine ⟨deleted, v, stored', hexpire, hdeleted, hlast, ?_⟩
  intro hash
  rw [← deletions_all 0]
  split
  · rename_i hmem
    exact hgone hash hmem rfl
  · rename_i hnot
    exact hkept hash fun h => hnot h.2

section Batch

variable {index : TimeIndex} {stored stored' : Database}
  {updatedFrom updatedTo : Uint32}

/-- What is left between the two times is not older than the last record of
the batch. -/
theorem not_lt_last
    (hstored : ∀ hash, stored'.lookup hash =
      if hash ∈ (batch index stored updatedFrom updatedTo).map Prod.fst then
        none
      else stored.lookup hash)
    {last p : Hash × Record}
    (hlast : last ∈ batch index stored updatedFrom updatedTo)
    (hlookup : stored'.lookup p.1 = some p.2)
    (honce : p.2.reportedOnce = true) (hfrom : updatedFrom ≤ p.2.updated) :
    last.2.updated ≤ p.2.updated := by
  rw [hstored] at hlookup
  split at hlookup
  · cases hlookup
  · rename_i hnot
    by_contra hlt
    rw [BitVec.not_le] at hlt
    have hordered : OrderedScan.Ordered stamp
        (eligible index stored updatedFrom updatedTo) :=
      List.Pairwise.sublist List.filter_sublist (index.ordered stored)
    have hto := (mem_eligible.mp (List.mem_of_mem_take hlast)).2.2.2
    have hmem : p ∈ eligible index stored updatedFrom updatedTo :=
      mem_eligible.mpr ⟨hlookup, honce, hfrom, BitVec.lt_trans hlt hto⟩
    exact hnot (List.mem_map_of_mem (hordered.mem_take hlast hmem hlt))

/-- `expire` deletes the first records, up to the greatest number, of those
that may be deleted, and a call that goes on from where it ended misses
none. -/
theorem expire_deletes_batch (index : TimeIndex) (stored : Database)
    (updatedFrom updatedTo : Uint32) :
    ∃ deleted v stored', expire index (.succeed index stored) stored
        updatedFrom updatedTo = some (deleted, v, stored') ∧
      deleted.toNat = ((eligible index stored updatedFrom updatedTo).take
        3600).length ∧
      (∀ hash, stored'.lookup hash =
        if hash ∈ ((eligible index stored updatedFrom updatedTo).take
            3600).map Prod.fst then none
        else stored.lookup hash) ∧
      ∀ last ∈ ((eligible index stored updatedFrom updatedTo).take
          3600).getLast?,
        v = last.2.updated ∧
          ∀ p ∈ eligible index stored' updatedFrom updatedTo,
            p ∈ eligible index stored' v updatedTo := by
  obtain ⟨deleted, v, stored', hexpire, hdeleted, hlast, hstored⟩ :=
    expire_succeed index stored updatedFrom updatedTo
  refine ⟨deleted, v, stored', hexpire, hdeleted, hstored, ?_⟩
  intro last hend
  have hv := hlast last hend
  refine ⟨hv, ?_⟩
  intro p hp
  obtain ⟨hlookup, honce, hfrom, hto⟩ := mem_eligible.mp hp
  have hle := not_lt_last hstored (List.mem_of_getLast? hend) hlookup honce hfrom
  exact mem_eligible.mpr ⟨hlookup, honce, hv ▸ hle, hto⟩

/-- Where nothing is deleted, the argument stays as it is if the search finds
nothing, and otherwise gets the key of the search. -/
theorem expire_nothing (hbatch : batch index stored updatedFrom updatedTo = []) :
    expire index (.succeed index stored) stored updatedFrom updatedTo =
      some (0, if index.entriesFrom stored updatedFrom.toNat = [] then updatedTo
        else htonl updatedFrom, stored) := by
  have hzero : (0 : Uint32).toNat < maxRecordsToExpire.toNat := by decide
  have hcounts := expireLoop_counts (ExpireCalls.succeed index stored).del
    updatedTo ⟨0, htonl updatedFrom, []⟩
    (index.entriesFrom stored updatedFrom.toNat) hzero
  have hselect : OrderedScan.select stamp (fun p => p.2.reportedOnce)
      updatedTo.toNat (maxRecordsToExpire.toNat - (0 : Uint32).toNat)
      (index.entriesFrom stored updatedFrom.toNat) = [] := by
    rw [← hbatch, batch, ← counted_succeed, counted, delivered_succeed]
    rfl
  rw [hselect] at hcounts
  rcases hscan : expireLoop (ExpireCalls.succeed index stored).del updatedTo
      ⟨0, htonl updatedFrom, []⟩
      (index.entriesFrom stored updatedFrom.toNat) with ⟨deleted, v, erased⟩
  rw [hscan] at hcounts
  obtain ⟨hdeleted, hupdated, herased⟩ := hcounts
  have hnumber : deleted = 0 := BitVec.eq_of_toNat_eq hdeleted
  rw [expire, if_neg (by simp [ExpireCalls.succeed])]
  dsimp only
  rw [delivered_succeed, hscan]
  by_cases hnone : index.entriesFrom stored updatedFrom.toNat = []
  · rw [if_pos hnone, if_pos hnone]
  · rw [if_neg hnone, if_neg hnone, hnumber, show v = htonl updatedFrom from
      hupdated, show erased = [] from herased]
    rfl

/-- The value that a call with all calls succeeding leaves in its argument
lies between the two times, and before it nothing is left to delete. -/
def LeavesBound (index : TimeIndex) (stored : Database)
    (updatedFrom updatedTo : Uint32) : Prop :=
  ∃ deleted v stored', expire index (.succeed index stored) stored
      updatedFrom updatedTo = some (deleted, v, stored') ∧
    updatedFrom ≤ v ∧ v ≤ updatedTo ∧
    ∀ hash r, stored'.lookup hash = some r → r.reportedOnce = true →
      updatedFrom ≤ r.updated → ¬ r.updated < v

theorem leavesBound_of_batch (h : batch index stored updatedFrom updatedTo ≠ []) :
    LeavesBound index stored updatedFrom updatedTo := by
  obtain ⟨deleted, v, stored', hexpire, -, hlast, hstored⟩ :=
    expire_succeed index stored updatedFrom updatedTo
  obtain ⟨last, hend⟩ := Option.ne_none_iff_exists'.mp
    (mt List.getLast?_eq_none_iff.mp h)
  have hmem := List.mem_of_getLast? hend
  obtain ⟨-, -, hfrom, hto⟩ := mem_eligible.mp (List.mem_of_mem_take hmem)
  have hv := hlast last hend
  refine ⟨deleted, v, stored', hexpire, hv ▸ hfrom,
    hv ▸ BitVec.le_of_lt hto, ?_⟩
  intro hash r hlookup honce hrfrom
  rw [BitVec.not_lt, hv]
  exact not_lt_last (p := (hash, r)) hstored hmem hlookup honce hrfrom

theorem batch_eq_nil :
    batch index stored updatedFrom updatedTo = [] ↔
      ∀ hash r, stored.lookup hash = some r → r.reportedOnce = true →
        updatedFrom ≤ r.updated → updatedTo ≤ r.updated := by
  have hroom : maxRecordsToExpire.toNat ≠ 0 := by decide
  rw [batch, List.take_eq_nil_iff, or_iff_right hroom,
    List.eq_nil_iff_forall_not_mem]
  constructor
  · intro hnone hash r hlookup honce hfrom
    rw [← BitVec.not_lt]
    intro hto
    exact hnone (hash, r) (mem_eligible.mpr ⟨hlookup, honce, hfrom, hto⟩)
  · intro hold p hp
    obtain ⟨hlookup, honce, hfrom, hto⟩ := mem_eligible.mp hp
    exact absurd hto (BitVec.not_lt.mpr (hold p.1 p.2 hlookup honce hfrom))

theorem entriesFrom_eq_nil :
    index.entriesFrom stored updatedFrom.toNat = [] ↔
      ∀ hash r, stored.lookup hash = some r → r.updated < updatedFrom := by
  rw [List.eq_nil_iff_forall_not_mem]
  constructor
  · intro hnone hash r hlookup
    rw [← BitVec.not_le]
    intro hfrom
    exact hnone (hash, r) (index.mem_entriesFrom.mpr ⟨hlookup, hfrom⟩)
  · intro hbelow p hp
    obtain ⟨hlookup, hfrom⟩ := index.mem_entriesFrom.mp hp
    exact absurd (hbelow p.1 p.2 hlookup) (BitVec.not_lt.mpr hfrom)

/-- It does so if something is deleted, if the search finds nothing, or if by
chance the key of the search lies between the two times. -/
theorem leavesBound_iff (h : updatedFrom ≤ updatedTo) :
    LeavesBound index stored updatedFrom updatedTo ↔
      (∃ hash r, stored.lookup hash = some r ∧ r.reportedOnce = true ∧
        updatedFrom ≤ r.updated ∧ r.updated < updatedTo) ∨
      (∀ hash r, stored.lookup hash = some r → r.updated < updatedFrom) ∨
      (updatedFrom ≤ htonl updatedFrom ∧ htonl updatedFrom ≤ updatedTo) := by
  by_cases hbatch : batch index stored updatedFrom updatedTo = []
  · have hold := batch_eq_nil.mp hbatch
    have hnone : ¬ ∃ hash r, stored.lookup hash = some r ∧
        r.reportedOnce = true ∧ updatedFrom ≤ r.updated ∧
          r.updated < updatedTo := by
      rintro ⟨hash, r, hlookup, honce, hfrom, hto⟩
      exact absurd hto (BitVec.not_lt.mpr (hold hash r hlookup honce hfrom))
    have hexpire := expire_nothing hbatch
    rw [or_iff_right hnone, ← @entriesFrom_eq_nil index]
    constructor
    · rintro ⟨deleted, v, stored', hv, hfrom, hto, -⟩
      rw [hexpire, Option.some.injEq, Prod.mk.injEq, Prod.mk.injEq] at hv
      obtain ⟨-, rfl, -⟩ := hv
      by_cases hfound : index.entriesFrom stored updatedFrom.toNat = []
      · exact Or.inl hfound
      · rw [if_neg hfound] at hfrom hto
        exact Or.inr ⟨hfrom, hto⟩
    · intro hcase
      refine ⟨_, _, _, hexpire, ?_⟩
      by_cases hfound : index.entriesFrom stored updatedFrom.toNat = []
      · rw [if_pos hfound]
        refine ⟨h, BitVec.le_refl _, ?_⟩
        intro hash r hlookup honce hfrom
        exact BitVec.not_lt.mpr (hold hash r hlookup honce hfrom)
      · rw [if_neg hfound]
        obtain ⟨hfrom, hto⟩ := hcase.resolve_left hfound
        refine ⟨hfrom, hto, ?_⟩
        intro hash r hlookup honce hrfrom
        exact BitVec.not_lt.mpr
          (BitVec.le_trans hto (hold hash r hlookup honce hrfrom))
  · have hsome : ∃ hash r, stored.lookup hash = some r ∧
        r.reportedOnce = true ∧ updatedFrom ≤ r.updated ∧
          r.updated < updatedTo := by
      obtain ⟨p, hp⟩ := List.exists_mem_of_ne_nil _ hbatch
      exact ⟨p.1, p.2, mem_eligible.mp (List.mem_of_mem_take hp)⟩
    exact iff_of_true (leavesBound_of_batch hbatch) (Or.inl hsome)

end Batch

/-- One record that is deleted and one that is too new. -/
def oneTooNew : Database :=
  (AList.insert ⟨Vector.replicate 20 1⟩ (Record.zero.report 2 2)
    (∅ : Database)).insert ⟨Vector.replicate 20 2⟩ (Record.zero.report 7 7)

theorem leavesBound_iff_oneTooNew :
    LeavesBound .stable oneTooNew 1 5 ∧ ¬ LeavesBound .stable oneTooNew 3 5 := by
  constructor
  · refine (leavesBound_iff (by decide)).mpr (Or.inl
      ⟨⟨Vector.replicate 20 1⟩, Record.zero.report 2 2, ?_⟩)
    decide +kernel
  · rw [leavesBound_iff (by decide)]
    rintro (⟨hash, r, hr, -, hbounds⟩ | hold | hbounds)
    · have hall : oneTooNew.entries.all (fun p =>
          ¬ ((3 : Uint32) ≤ p.2.updated ∧ p.2.updated < (5 : Uint32))) =
            true := by
        decide +kernel
      have hmem := AList.mem_lookup_iff.mp hr
      exact of_decide_eq_true (List.all_eq_true.mp hall _ hmem) hbounds
    · have hnew : oneTooNew.lookup ⟨Vector.replicate 20 2⟩ =
          some (Record.zero.report 7 7) := by
        decide +kernel
      exact absurd (hold _ _ hnew) (by decide)
    · exact absurd hbounds (by decide)

/-- The only record is too new, and the search finds it. -/
theorem not_leavesBound :
    ¬ ∀ (index : TimeIndex) (stored : Database)
      (updatedFrom updatedTo : Uint32), updatedFrom ≤ updatedTo →
        LeavesBound index stored updatedFrom updatedTo := by
  intro h
  obtain ⟨deleted, v, stored', hexpire, -, hto, -⟩ := h .stable
    (AList.insert ⟨Vector.replicate 20 1⟩ (Record.zero.report 7 7) ∅) 1 5
    (by decide)
  have hlarge : (expire .stable (.succeed .stable
      (AList.insert ⟨Vector.replicate 20 1⟩ (Record.zero.report 7 7) ∅))
      (AList.insert ⟨Vector.replicate 20 1⟩ (Record.zero.report 7 7) ∅) 1
        5).all (fun ended => (5 : Uint32) < ended.2.1) = true := by
    decide +kernel
  rw [hexpire, Option.all_some, decide_eq_true_eq] at hlarge
  exact absurd hto (BitVec.not_le.mpr hlarge)

end Master
end BohunoPyzord
