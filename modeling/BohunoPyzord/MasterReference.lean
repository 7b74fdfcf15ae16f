/-
What the master's database holds after any sequence of updates, said without
the record's fields: counts since the last erase, latest times since then and
first times ever.
-/
import BohunoPyzord.Master
import Mathlib.Data.List.Induction

namespace BohunoPyzord

/-- The first of a list of times, or zero. -/
def firstTime (times : List Uint32) : Uint32 := times.headD 0

/-- The latest of a time and a list of times. -/
def latestTime (start : Uint32) (times : List Uint32) : Uint32 :=
  times.foldl later start

/-- `latestTime` is the maximum. -/
theorem latestTime_toNat (start : Uint32) (times : List Uint32) :
    (latestTime start times).toNat =
      (times.map BitVec.toNat).foldl max start.toNat := by
  induction times generalizing start with
  | nil => rfl
  | cons t times ih =>
      rw [latestTime, List.foldl_cons, ← latestTime, ih, later_toNat]
      rfl

@[simp] theorem latestTime_append (start : Uint32) (times : List Uint32)
    (t : Uint32) :
    latestTime start (times ++ [t]) = later (latestTime start times) t := by
  simp [latestTime]

/-- Appending a time keeps the first one, if the times are not zero. -/
theorem firstTime_append {times : List Uint32} (h : ∀ t ∈ times, t ≠ 0)
    (t : Uint32) :
    firstTime (times ++ [t]) = keepFirst (firstTime times) t := by
  cases times with
  | nil => simp [firstTime, keepFirst]
  | cons s times =>
      exact (keepFirst_of_ne (h s List.mem_cons_self) t).symm

namespace Processed

def time (p : Processed) : Uint32 := p.update.time

def isType (type : UpdateType) (p : Processed) : Bool :=
  p.update.type = some type

/-- Reports and whitelists are counted. -/
def isCounted (p : Processed) : Bool :=
  p.isType .report || p.isType .whitelist

end Processed

/-- The update type that a tally counts. -/
def Tally.updateType : Tally → UpdateType
  | .report => .report
  | .whitelist => .whitelist

section Reference

variable (log : List Processed)

/-- The updates after the last erase. -/
def sinceErase : List Processed :=
  (log.reverse.takeWhile fun p => !p.isType .erase).reverse

/-- The last erase. -/
def lastErase : Option Processed := (log.filter (·.isType .erase)).getLast?

def ofTally (tally : Tally) : List Processed :=
  log.filter (·.isType tally.updateType)

def counted : List Processed := log.filter (·.isCounted)

/-- The record that a log of the updates of one hash adds up to. -/
def referenceRecord : Record where
  entered_ := htonl (firstTime ((counted log).map Processed.time))
  updated_ := htonl
    (latestTime ((lastErase log).elim 0 Processed.now)
      ((counted (sinceErase log)).map Processed.time))
  report_count_ := htonl
    (BitVec.ofNat 32 (ofTally (sinceErase log) .report).length)
  report_entered_ := htonl
    (firstTime ((ofTally log .report).map Processed.time))
  report_updated_ := htonl
    (latestTime 0 ((ofTally (sinceErase log) .report).map Processed.time))
  whitelist_count_ := htonl
    (BitVec.ofNat 32 (ofTally (sinceErase log) .whitelist).length)
  whitelist_entered_ := htonl
    (firstTime ((ofTally log .whitelist).map Processed.time))
  whitelist_updated_ := htonl
    (latestTime 0 ((ofTally (sinceErase log) .whitelist).map Processed.time))

/-- What is stored: nothing before the first update of a known type. -/
def reference : Option Record :=
  if log.any (fun p => p.update.type.isSome) then some (referenceRecord log)
  else none

end Reference

namespace referenceRecord

variable (log : List Processed)

@[simp] theorem entered : (referenceRecord log).entered =
    firstTime ((counted log).map Processed.time) := by
  simp [Record.entered, referenceRecord]

@[simp] theorem updated : (referenceRecord log).updated =
    latestTime ((lastErase log).elim 0 Processed.now)
      ((counted (sinceErase log)).map Processed.time) := by
  simp [Record.updated, referenceRecord]

@[simp] theorem count (tally : Tally) : (referenceRecord log).count tally =
    BitVec.ofNat 32 (ofTally (sinceErase log) tally).length := by
  cases tally <;> simp [Record.count, referenceRecord]

@[simp] theorem tallyEntered (tally : Tally) :
    (referenceRecord log).tallyEntered tally =
      firstTime ((ofTally log tally).map Processed.time) := by
  cases tally <;> simp [Record.tallyEntered, referenceRecord]

@[simp] theorem tallyUpdated (tally : Tally) :
    (referenceRecord log).tallyUpdated tally =
      latestTime 0 ((ofTally (sinceErase log) tally).map Processed.time) := by
  cases tally <;> simp [Record.tallyUpdated, referenceRecord]

end referenceRecord

/-! How the reference grows with one more update. -/

theorem sinceErase_append_erase (log : List Processed) {p : Processed}
    (h : p.isType .erase = true) : sinceErase (log ++ [p]) = [] := by
  simp [sinceErase, h]

theorem sinceErase_append (log : List Processed) {p : Processed}
    (h : p.isType .erase = false) :
    sinceErase (log ++ [p]) = sinceErase log ++ [p] := by
  simp [sinceErase, h]

theorem mem_of_mem_sinceErase {log : List Processed} {p : Processed}
    (h : p ∈ sinceErase log) : p ∈ log := by
  have hmem := (List.takeWhile_prefix _).subset (List.mem_reverse.mp h)
  exact List.mem_reverse.mp hmem

theorem ofTally_append (log : List Processed) (p : Processed)
    (tally : Tally) : ofTally (log ++ [p]) tally =
      ofTally log tally ++ if p.isType tally.updateType then [p] else [] := by
  simp [ofTally, List.filter_append, List.filter_cons]

theorem counted_append (log : List Processed) (p : Processed) :
    counted (log ++ [p]) =
      counted log ++ if p.isCounted then [p] else [] := by
  simp [counted, List.filter_append, List.filter_cons]

theorem lastErase_append (log : List Processed) (p : Processed) :
    lastErase (log ++ [p]) =
      if p.isType .erase then some p else lastErase log := by
  cases h : p.isType .erase <;>
    simp [lastErase, List.filter_append, h]

/-- One more report or whitelist is one `bump` of the reference record. -/
theorem referenceRecord_append_counted (log : List Processed)
    (p : Processed) (tally : Tally)
    (htype : p.update.type = some tally.updateType)
    (htimes : ∀ q ∈ log, q.time ≠ 0) (htime : p.time ≠ 0) :
    referenceRecord (log ++ [p]) =
      (referenceRecord log).bump tally p.time p.now := by
  have herase : p.isType .erase = false := by
    cases tally <;> simp [Processed.isType, htype, Tally.updateType]
  have hcounted : p.isCounted = true := by
    cases tally <;>
      simp [Processed.isCounted, Processed.isType, htype, Tally.updateType]
  have hof : ∀ other, p.isType other.updateType = decide (other = tally) := by
    intro other
    cases tally <;> cases other <;>
      simp [Processed.isType, htype, Tally.updateType]
  have hnonzero : ∀ l : List Processed, (∀ q ∈ l, q ∈ log) →
      ∀ t ∈ l.map Processed.time, t ≠ 0 := by
    intro l hl t ht
    obtain ⟨q, hq, rfl⟩ := List.mem_map.mp ht
    exact htimes q (hl q hq)
  apply Record.ext_accessors
  · rw [Record.entered_bump _ _ _ htime]
    simp only [referenceRecord.entered, counted_append, hcounted, ↓reduceIte,
      List.map_append, List.map_cons, List.map_nil]
    exact firstTime_append
      (hnonzero _ fun q hq => List.mem_of_mem_filter hq) _
  · rw [Record.updated_bump _ _ _ htime]
    simp [sinceErase_append log herase, lastErase_append, herase,
      counted_append, hcounted]
  · rw [Record.count_bump]
    funext other
    by_cases hother : other = tally
    · subst hother
      simp [sinceErase_append log herase, ofTally_append, hof,
        BitVec.ofNat_add]
    · simp [sinceErase_append log herase, ofTally_append, hof, hother]
  · rw [Record.tallyEntered_bump _ _ _ htime]
    have hall := hnonzero (ofTally log tally)
      fun q hq => List.mem_of_mem_filter hq
    funext other
    by_cases hother : other = tally
    · subst hother
      have hfirst := firstTime_append hall p.time
      split
      · simp [ofTally_append, hof, hfirst]
      · -- a later time is on record, so a first one is
        rename_i hnot
        rw [referenceRecord.tallyUpdated] at hnot
        have hsome : ofTally log other ≠ [] := by
          intro hnone
          have hsince : ofTally (sinceErase log) other = [] := by
            apply List.filter_eq_nil_iff.mpr
            intro q hq
            exact List.filter_eq_nil_iff.mp hnone q (mem_of_mem_sinceErase hq)
          apply hnot
          rw [hsince]
          exact (BitVec.pos_iff_ne_zero _).mpr htime
        have hkeep : firstTime ((ofTally log other).map Processed.time) ≠ 0 := by
          obtain ⟨q, rest, hcons⟩ := List.exists_cons_of_ne_nil hsome
          rw [hcons] at hall ⊢
          exact hall q.time List.mem_cons_self
        rw [keepFirst_of_ne hkeep] at hfirst
        simp [ofTally_append, hof, hfirst]
    · split <;> simp [ofTally_append, hof, hother]
  · rw [Record.tallyUpdated_bump _ _ _ htime]
    funext other
    by_cases hother : other = tally
    · subst hother
      simp [sinceErase_append log herase, ofTally_append, hof]
    · simp [sinceErase_append log herase, ofTally_append, hof, hother]

theorem referenceRecord_append_erase (log : List Processed) (p : Processed)
    (htype : p.update.type = some .erase) :
    referenceRecord (log ++ [p]) = (referenceRecord log).reset 0 p.now := by
  have herase : p.isType .erase = true := by simp [Processed.isType, htype]
  have hcounted : p.isCounted = false := by
    simp [Processed.isCounted, Processed.isType, htype]
  have hof : ∀ tally : Tally, p.isType tally.updateType = false := by
    intro tally
    cases tally <;> simp [Processed.isType, htype, Tally.updateType]
  apply Record.ext_accessors
  · simp [counted_append, hcounted]
  · simp [sinceErase_append_erase log herase, lastErase_append, herase,
      counted, latestTime]
  · funext tally
    simp [sinceErase_append_erase log herase, ofTally]
  · funext tally
    simp [ofTally_append, hof]
  · funext tally
    simp [sinceErase_append_erase log herase, ofTally, latestTime]

theorem referenceRecord_append_unknown (log : List Processed)
    (p : Processed) (htype : p.update.type = none) :
    referenceRecord (log ++ [p]) = referenceRecord log := by
  have hnot : ∀ type, p.isType type = false := by
    intro type
    simp [Processed.isType, htype]
  simp [referenceRecord, sinceErase_append log (hnot .erase),
    lastErase_append, counted_append, ofTally_append, Processed.isCounted,
    hnot]

/-- Before the first update of a known type the reference is the record of
zeros that an update starts from. -/
theorem reference_getD (log : List Processed) :
    (reference log).getD Record.zero = referenceRecord log := by
  unfold reference
  split
  · rfl
  · rename_i hnone
    have hunknown : ∀ q ∈ log, q.update.type = none := by
      simpa using hnone
    clear hnone
    induction log using List.reverseRecOn with
    | nil => decide
    | append_singleton log p ih =>
        rw [referenceRecord_append_unknown log p (hunknown p (by simp))]
        exact ih fun q hq => hunknown q (by simp [hq])

/-- One more update does to the reference what it does to the record. -/
theorem reference_append (log : List Processed) (p : Processed)
    (htimes : ∀ q ∈ log, q.time ≠ 0) (htime : p.time ≠ 0) :
    reference (log ++ [p]) =
      KeyedFold.stepValue Processed.rewritten (reference log) p := by
  unfold KeyedFold.stepValue Processed.rewritten
  rw [reference_getD]
  cases htype : p.update.type with
  | none =>
      rw [reference, referenceRecord_append_unknown log p htype]
      simp [reference, htype]
  | some type =>
      have hsome : reference (log ++ [p]) = some (referenceRecord (log ++ [p])) := by
        simp [reference, htype]
      rw [hsome]
      cases type with
      | report =>
          rw [referenceRecord_append_counted log p .report htype htimes htime]
          rfl
      | whitelist =>
          rw [referenceRecord_append_counted log p .whitelist htype htimes
            htime]
          rfl
      | erase =>
          rw [referenceRecord_append_erase log p htype]
          rfl

/-- The fold of the updates of one hash is the reference. -/
theorem foldl_rewritten (log : List Processed)
    (htimes : ∀ q ∈ log, q.time ≠ 0) :
    log.foldl (KeyedFold.stepValue Processed.rewritten) none =
      reference log := by
  induction log using List.reverseRecOn with
  | nil => rfl
  | append_singleton log p ih =>
      have hbefore : ∀ q ∈ log, q.time ≠ 0 := fun q hq =>
        htimes q (by simp [hq])
      rw [List.foldl_append, ih hbefore,
        reference_append log p hbefore (htimes p (by simp))]
      rfl

/-- A hash is found iff one of its two counts is not zero. -/
theorem reference_found (log : List Processed) :
    (∃ r, reference log = some r ∧
      (r.count .report ≠ 0 ∨ r.count .whitelist ≠ 0)) ↔
      ∃ tally, (referenceRecord log).count tally ≠ 0 := by
  have hgetD := reference_getD log
  constructor
  · rintro ⟨r, hr, hcount⟩
    rw [hr] at hgetD
    rcases hcount with hreports | hwhitelists
    · exact ⟨.report, hgetD ▸ hreports⟩
    · exact ⟨.whitelist, hgetD ▸ hwhitelists⟩
  · rintro ⟨tally, hcount⟩
    cases hr : reference log with
    | none =>
        rw [hr] at hgetD
        rw [← hgetD] at hcount
        exact absurd (by cases tally <;> rfl) hcount
    | some r =>
        rw [hr] at hgetD
        refine ⟨r, rfl, ?_⟩
        rw [← hgetD] at hcount
        cases tally with
        | report => exact Or.inl hcount
        | whitelist => exact Or.inr hcount

/-- Processed from an empty database, any sequence of updates with non-zero
times leaves under each hash the reference of the updates for that hash, and
`get` finds the hash iff one of the two counts of it is not zero. -/
theorem master_eq_reference (log : List Processed)
    (htimes : ∀ p ∈ log, p.time ≠ 0) :
    ∃ db, Database.processAll ∅ log = some db ∧
      ∀ h, db.lookup h = reference (log.filter fun p => p.update.ghash = h) ∧
        ((Database.get db h.hex).1 = true ↔
          ∃ tally, (referenceRecord
            (log.filter fun p => p.update.ghash = h)).count tally ≠ 0) := by
  obtain ⟨db, hdb, hlookup⟩ := Database.processAll_lookup ∅ log
  refine ⟨db, hdb, fun h => ?_⟩
  have hown : ∀ p ∈ log.filter fun p => p.update.ghash = h, p.time ≠ 0 :=
    fun p hp => htimes p (List.mem_of_mem_filter hp)
  have hstored : db.lookup h =
      reference (log.filter fun p => p.update.ghash = h) := by
    rw [hlookup h, AList.lookup_empty, foldl_rewritten _ hown]
  refine ⟨hstored, ?_⟩
  rw [Database.get_hex, hstored]
  exact reference_found _

/-- Two reports out of the order of their times, an erase between them and
the reports of another hash, and an update of an unknown type. -/
def reportsAroundErase : List Processed :=
  let first : Hash := ⟨Vector.replicate 20 1⟩
  let second : Hash := ⟨Vector.replicate 20 2⟩
  let unknown : Update := { Update.make second .erase 500 with type_ := 7 }
  [⟨Update.make first .report 1200, 1300⟩,
    ⟨Update.make second .whitelist 900, 1300⟩,
    ⟨Update.make first .erase 1100, 1300⟩,
    ⟨Update.make first .report 1000, 1310⟩, ⟨unknown, 1310⟩]

theorem master_eq_reference_reportsAroundErase :
    ∃ db, Database.processAll ∅ reportsAroundErase = some db ∧
      ∀ h, db.lookup h = reference
          (reportsAroundErase.filter fun p => p.update.ghash = h) ∧
        ((Database.get db h.hex).1 = true ↔
          ∃ tally, (referenceRecord (reportsAroundErase.filter fun p =>
            p.update.ghash = h)).count tally ≠ 0) :=
  master_eq_reference reportsAroundErase (by decide +kernel)

end BohunoPyzord
