/-
Reports and whitelists of one hash in another order: counts and latest times do
not depend on it, first times do.
-/
import BohunoPyzord.MasterReference

namespace BohunoPyzord

theorem latestTime_perm {times times' : List Uint32}
    (h : times.Perm times') (start : Uint32) :
    latestTime start times = latestTime start times' := by
  apply BitVec.eq_of_toNat_eq
  rw [latestTime_toNat, latestTime_toNat]
  exact (h.map BitVec.toNat).foldl_eq start.toNat

theorem keepFirst_ne_zero (s : Uint32) {t : Uint32} (ht : t ≠ 0) :
    keepFirst s t ≠ 0 := by
  unfold keepFirst
  split_ifs with hzero
  · exact ht
  · exact hzero

theorem keepFirst_zero_right (s : Uint32) : keepFirst s 0 = s := by
  unfold keepFirst
  split_ifs with hzero
  · exact hzero.symm
  · rfl

/-- A report or a whitelist of a hash, with a time that is not zero. -/
structure Update.IsVote (hash : Hash) (u : Update) : Prop where
  ghash_eq : u.ghash = hash
  counted : u.type = some .report ∨ u.type = some .whitelist
  time_ne : u.time ≠ 0

namespace Processed

/-- The times at which a tally is updated, in the order of processing. -/
def tallyTimes (log : List Processed) (tally : Tally) : List Uint32 :=
  (ofTally log tally).map Processed.time

/-- The two fields that are set once, told from the stored record and the
order in which the updates are processed. -/
structure SetsOnce (stored : Record) (log : List Processed)
    (r : Record) : Prop where
  entered_eq : r.entered =
    keepFirst stored.entered (firstTime (log.map Processed.time))
  tallyEntered_eq : ∀ tally, r.tallyEntered tally =
    keepFirst (stored.tallyEntered tally)
      (firstTime ((tallyTimes log tally).filter
        (stored.tallyUpdated tally < ·)))

/-- The fields that are counts or maxima. -/
structure Gathers (stored : Record) (log : List Processed)
    (r : Record) : Prop where
  count_eq : ∀ tally, r.count tally =
    stored.count tally + BitVec.ofNat 32 (tallyTimes log tally).length
  updated_eq : r.updated =
    latestTime stored.updated (log.map Processed.time)
  tallyUpdated_eq : ∀ tally, r.tallyUpdated tally =
    latestTime (stored.tallyUpdated tally) (tallyTimes log tally)

/-- A vote is one `bump`. -/
theorem stepValue_vote {hash : Hash} {p : Processed}
    (hp : p.update.IsVote hash) (stored : Option Record) :
    ∃ tally : Tally, p.update.type = some tally.updateType ∧
      KeyedFold.stepValue Processed.rewritten stored p =
        some ((stored.getD Record.zero).bump tally p.time p.now) := by
  unfold KeyedFold.stepValue Processed.rewritten
  rcases hp.counted with htype | htype
  · exact ⟨.report, htype, by rw [htype]; rfl⟩
  · exact ⟨.whitelist, htype, by rw [htype]; rfl⟩

theorem tallyTimes_cons_self {p : Processed} {tally : Tally}
    (htype : p.update.type = some tally.updateType) (log : List Processed) :
    tallyTimes (p :: log) tally = p.time :: tallyTimes log tally := by
  simp [tallyTimes, ofTally, isType, htype]

theorem tallyTimes_cons_other {p : Processed} {tally other : Tally}
    (htype : p.update.type = some tally.updateType) (hne : other ≠ tally)
    (log : List Processed) :
    tallyTimes (p :: log) other = tallyTimes log other := by
  have hother : p.isType other.updateType = false := by
    cases tally <;> cases other <;>
      simp_all [isType, Tally.updateType]
  simp [tallyTimes, ofTally, hother]

section Step

variable {stored r : Record} {p : Processed} {tally : Tally}
  {log : List Processed} (htype : p.update.type = some tally.updateType)
  (htime : p.time ≠ 0)

include htype htime

theorem Gathers.cons
    (h : Gathers (stored.bump tally p.time p.now) log r) :
    Gathers stored (p :: log) r := by
  constructor
  · intro other
    rw [h.count_eq, Record.count_bump]
    by_cases hother : other = tally
    · subst hother
      rw [Function.update_self, tallyTimes_cons_self htype, List.length_cons,
        BitVec.ofNat_add, BitVec.add_assoc, BitVec.add_comm (BitVec.ofNat 32 _)]
      rfl
    · rw [Function.update_of_ne hother, tallyTimes_cons_other htype hother]
  · rw [h.updated_eq, Record.updated_bump _ _ _ htime]
    rfl
  · intro other
    rw [h.tallyUpdated_eq, Record.tallyUpdated_bump _ _ _ htime]
    by_cases hother : other = tally
    · subst hother
      rw [Function.update_self, tallyTimes_cons_self htype]
      rfl
    · rw [Function.update_of_ne hother, tallyTimes_cons_other htype hother]

/-- The first vote sets what was zero, unless its time is not later than the
last time of its tally: then neither field of the tally changes. -/
theorem SetsOnce.cons
    (h : SetsOnce (stored.bump tally p.time p.now) log r) :
    SetsOnce stored (p :: log) r := by
  constructor
  · rw [h.entered_eq, Record.entered_bump _ _ _ htime,
      keepFirst_of_ne (keepFirst_ne_zero _ htime)]
    rfl
  · intro other
    rw [h.tallyEntered_eq, Record.tallyEntered_bump _ _ _ htime,
      Record.tallyUpdated_bump _ _ _ htime]
    by_cases hother : other = tally
    · subst hother
      rw [Function.update_self, tallyTimes_cons_self htype]
      by_cases hlt : stored.tallyUpdated other < p.time
      · rw [if_pos hlt, Function.update_self,
          keepFirst_of_ne (keepFirst_ne_zero _ htime),
          List.filter_cons_of_pos (by simpa using hlt)]
        rfl
      · rw [if_neg hlt, later, if_neg hlt,
          List.filter_cons_of_neg (by simpa using hlt)]
    · rw [tallyTimes_cons_other htype hother, Function.update_of_ne hother]
      split_ifs
      · rw [Function.update_of_ne hother]
      · rfl

end Step

/-- What votes make of a stored record, in the order they are processed. -/
theorem foldl_votes {hash : Hash} {log : List Processed}
    (hlog : ∀ p ∈ log, p.update.IsVote hash) (stored : Option Record) :
    Gathers (stored.getD Record.zero) log
        ((log.foldl (KeyedFold.stepValue Processed.rewritten)
          stored).getD Record.zero) ∧
      SetsOnce (stored.getD Record.zero) log
        ((log.foldl (KeyedFold.stepValue Processed.rewritten)
          stored).getD Record.zero) := by
  induction log generalizing stored with
  | nil =>
      constructor
      · constructor <;> simp [tallyTimes, ofTally, latestTime]
      · exact ⟨(keepFirst_zero_right _).symm,
          fun tally => (keepFirst_zero_right _).symm⟩
  | cons p log ih =>
      have hp := hlog p List.mem_cons_self
      obtain ⟨tally, htype, hstep⟩ := stepValue_vote hp stored
      have hrest := ih (fun q hq => hlog q (List.mem_cons_of_mem p hq))
        (some ((stored.getD Record.zero).bump tally p.time p.now))
      rw [List.foldl_cons, hstep]
      exact ⟨hrest.1.cons htype hp.time_ne, hrest.2.cons htype hp.time_ne⟩

/-- What is gathered does not depend on the order, nor on the clock. -/
theorem Gathers.perm {stored r r' : Record} {log log' : List Processed}
    (h : Gathers stored log r) (h' : Gathers stored log' r')
    (hperm : (log.map Processed.update).Perm (log'.map Processed.update)) :
    r.count = r'.count ∧ r.updated = r'.updated ∧
      r.tallyUpdated = r'.tallyUpdated := by
  have htimes : (log.map Processed.time).Perm (log'.map Processed.time) := by
    have := hperm.map Update.time
    rwa [List.map_map, List.map_map] at this
  have htally : ∀ tally,
      (tallyTimes log tally).Perm (tallyTimes log' tally) := by
    intro tally
    have := (hperm.filter fun u : Update =>
      decide (u.type = some tally.updateType)).map Update.time
    rwa [List.filter_map, List.filter_map, List.map_map, List.map_map] at this
  refine ⟨funext fun tally => ?_, ?_, funext fun tally => ?_⟩
  · rw [h.count_eq, h'.count_eq, (htally tally).length_eq]
  · rw [h.updated_eq, h'.updated_eq, latestTime_perm htimes]
  · rw [h.tallyUpdated_eq, h'.tallyUpdated_eq, latestTime_perm (htally tally)]

/-- A field that is set once in the stored record stays as it is. -/
theorem SetsOnce.eq_of_ne {stored r r' : Record} {log log' : List Processed}
    (h : SetsOnce stored log r) (h' : SetsOnce stored log' r') :
    (stored.entered ≠ 0 → r.entered = r'.entered) ∧
      ∀ tally, stored.tallyEntered tally ≠ 0 →
        r.tallyEntered tally = r'.tallyEntered tally := by
  constructor
  · intro hne
    rw [h.entered_eq, h'.entered_eq, keepFirst_of_ne hne,
      keepFirst_of_ne hne]
  · intro tally hne
    rw [h.tallyEntered_eq, h'.tallyEntered_eq, keepFirst_of_ne hne,
      keepFirst_of_ne hne]

end Processed

/-- Votes of one hash in two orders, from the same stored record: both counts
and the three latest times come out the same, and so do the first times that
the stored record has; a first time that it does not have is that of the first
vote processed, for a tally the first of its votes that is later than its last
time. -/
theorem Database.processAll_votes_perm (db : Database) {h : Hash}
    (l l' : List Processed) (hvotes : ∀ p ∈ l, p.update.IsVote h)
    (hperm : (l.map Processed.update).Perm (l'.map Processed.update)) :
    ∃ d d', Database.processAll db l = some d ∧
      Database.processAll db l' = some d' ∧
      let stored := (db.lookup h).getD Record.zero
      let r := (d.lookup h).getD Record.zero
      let r' := (d'.lookup h).getD Record.zero
      (r.count = r'.count ∧ r.updated = r'.updated ∧
        r.tallyUpdated = r'.tallyUpdated) ∧
      ((stored.entered ≠ 0 → r.entered = r'.entered) ∧
        ∀ tally, stored.tallyEntered tally ≠ 0 →
          r.tallyEntered tally = r'.tallyEntered tally) ∧
      Processed.SetsOnce stored l r ∧ Processed.SetsOnce stored l' r' := by
  have hvotes' : ∀ p ∈ l', p.update.IsVote h := by
    intro p hp
    obtain ⟨q, hq, hsame⟩ := List.mem_map.mp
      (hperm.mem_iff.mpr (List.mem_map.mpr ⟨p, hp, rfl⟩))
    exact hsame ▸ hvotes q hq
  have after : ∀ {log : List Processed}, (∀ p ∈ log, p.update.IsVote h) →
      ∃ d, Database.processAll db log = some d ∧ d.lookup h =
        log.foldl (KeyedFold.stepValue Processed.rewritten)
          (db.lookup h) := by
    intro log hlog
    obtain ⟨d, hd, hlookup⟩ := Database.processAll_lookup db log
    have hown : log.filter (fun p => p.update.ghash = h) = log :=
      List.filter_eq_self.mpr fun p hp =>
        decide_eq_true (hlog p hp).ghash_eq
    exact ⟨d, hd, by rw [hlookup, hown]⟩
  obtain ⟨d, hd, hlookup⟩ := after hvotes
  obtain ⟨d', hd', hlookup'⟩ := after hvotes'
  obtain ⟨hgathers, honce⟩ := Processed.foldl_votes hvotes (db.lookup h)
  obtain ⟨hgathers', honce'⟩ := Processed.foldl_votes hvotes' (db.lookup h)
  refine ⟨d, d', hd, hd', ?_⟩
  rw [hlookup, hlookup']
  exact ⟨hgathers.perm hgathers' hperm, honce.eq_of_ne honce', honce, honce'⟩

/-- A hash for the concrete logs. -/
def someHash : Hash := ⟨Vector.replicate 20 7⟩

/-- A vote of that hash, processed at a clock reading of zero. -/
def voteAt (type : UpdateType) (time : Uint32) : Processed :=
  { update := Update.make someHash type time, now := 0 }

/-- Two reports, the later one first. -/
def laterFirst : List Processed := [voteAt .report 10, voteAt .report 5]

/-- The same two reports in the order of their times. -/
def laterLast : List Processed := [voteAt .report 5, voteAt .report 10]

theorem isVote_laterFirst : ∀ p ∈ laterFirst, p.update.IsVote someHash := by
  have hvote : ∀ time : Uint32, time ≠ 0 →
      (voteAt .report time).update.IsVote someHash := fun time htime =>
    { ghash_eq := rfl
      counted := .inl (Update.type_make someHash .report time)
      time_ne := (Update.time_make someHash .report time).symm ▸ htime }
  intro p hp
  rcases List.mem_pair.mp hp with rfl | rfl
  · exact hvote 10 (by decide)
  · exact hvote 5 (by decide)

theorem laterFirst_perm : (laterFirst.map Processed.update).Perm
    (laterLast.map Processed.update) :=
  List.Perm.swap _ _ []

theorem processAll_laterFirst_laterLast :
    ∃ d d', Database.processAll ∅ laterFirst = some d ∧
      Database.processAll ∅ laterLast = some d' ∧
      ((d.lookup someHash).getD Record.zero).count =
        ((d'.lookup someHash).getD Record.zero).count := by
  obtain ⟨d, d', hd, hd', ⟨hcount, -⟩, -⟩ :=
    Database.processAll_votes_perm ∅ laterFirst laterLast isVote_laterFirst
      laterFirst_perm
  exact ⟨d, d', hd, hd', hcount⟩

/-- The same two reports, the later first or last, leave different records. -/
theorem not_processAll_votes_comm :
    ¬ ∀ (db : Database) (h : Hash) (l l' : List Processed),
      (∀ p ∈ l, p.update.IsVote h) →
      (l.map Processed.update).Perm (l'.map Processed.update) →
      (Database.processAll db l).bind (·.lookup h) =
        (Database.processAll db l').bind (·.lookup h) := by
  intro hall
  have hsame := hall ∅ someHash laterFirst laterLast isVote_laterFirst
    laterFirst_perm
  exact absurd hsame (by decide +kernel)

end BohunoPyzord
