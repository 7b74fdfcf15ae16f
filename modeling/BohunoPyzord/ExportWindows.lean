/-
Incremental exports against a master that is still being written.  Every
export covers the window from the last export to the second before it, so a
change made later is seen by a later export only if it is stamped no earlier
than the last window's end, and the file of that export only holds it if the
cursor is not first positioned on it.
-/
import BohunoPyzord.Publishing
import BohunoPyzord.TimeWindows

namespace BohunoPyzord

namespace TimeIndex

variable (index : TimeIndex) {stored : Database} {min max : Nat}
  {p : Hash × Record}

/-- What lies in the window is written, the first entry of it excepted. -/
theorem first_or_mem_written (hlookup : stored.lookup p.1 = some p.2)
    (hmin : min ≤ stamp p) (hmax : stamp p ≤ max) :
    (index.entriesFrom stored min).head? = some p ∨
      p ∈ index.written stored min max := by
  have hmem := index.mem_entriesFrom.mpr ⟨hlookup, hmin⟩
  have hordered := index.ordered_entriesFrom stored min
  rw [written]
  rcases hentries : index.entriesFrom stored min with - | ⟨first, rest⟩
  · rw [hentries] at hmem
    cases hmem
  · rw [hentries] at hmem hordered
    rcases List.mem_cons.mp hmem with rfl | hlater
    · exact Or.inl rfl
    · right
      have hrest : OrderedScan.Ordered stamp rest :=
        (List.pairwise_cons.mp hordered).2
      exact (OrderedScan.mem_upTo hrest).mpr ⟨hlater, hmax⟩

/-- Every entry is visited once, so the first one is not written. -/
theorem first_not_mem_written
    (hfirst : (index.entriesFrom stored min).head? = some p) :
    p ∉ index.written stored min max := by
  have hnodup : (index.entriesFrom stored min).Nodup :=
    (index.nodup_entriesFrom stored min).of_map
  rw [written]
  rcases hentries : index.entriesFrom stored min with - | ⟨first, rest⟩
  · rw [hentries] at hfirst
    cases hfirst
  · rw [hentries] at hfirst hnodup
    obtain rfl := Option.some.inj hfirst
    intro hwritten
    exact (List.nodup_cons.mp hnodup).1
      ((List.takeWhile_sublist _).subset hwritten)

end TimeIndex

/-- A master with its clock, and the snapshot its updates go on from. -/
structure ExportStart where
  snapshot : SnapshotFile
  clock : Nat
  db : Database
  named : snapshot.Named
  past : snapshot.timestamp < clock
  fits : clock < 2 ^ 32

inductive ExportEvent where
  | processUpdate (u : Update)
  | wait (seconds : Nat)
  | makeUpdate
deriving DecidableEq, Repr

/-- A change of a stored record: what it was changed to, and what had been
exported by then. -/
structure RecordChange where
  hash : Hash
  after : Record
  exported : List UpdateFile
deriving DecidableEq, Repr

/-- Master, directories and clock, with the updates exported and the changes
made so far. -/
structure ExportRun where
  clock : Nat
  db : Database
  dirs : Directories
  exports : List UpdateFile
  changes : List RecordChange

namespace ExportRun

/-- The change that processing `u` makes, if it makes one. -/
def changeBy (s : ExportRun) (u : Update) (db : Database) :
    List RecordChange :=
  if db.lookup u.ghash = s.db.lookup u.ghash then []
  else [{ hash := u.ghash, after := (db.lookup u.ghash).getD Record.zero,
          exported := s.exports }]

/-- Updates have a non-zero time that is not later than the clock. -/
def step (index : TimeIndex) (s : ExportRun) : ExportEvent → Option ExportRun
  | .processUpdate u =>
      if u.time = 0 ∨ s.clock < u.time.toNat then none
      else
        (Database.processUpdate .succeed s.db u (BitVec.ofNat 32 s.clock)).map
          fun db => { s with db, changes := s.changes ++ s.changeBy u db }
  | .wait seconds =>
      if s.clock + seconds < 2 ^ 32 then
        some { s with clock := s.clock + seconds }
      else none
  | .makeUpdate =>
      match Updated.updateStart s.dirs, Updated.makeUpdate
          (ClientDatabase.opened.dumpModifiedRecords2 index s.db) s.dirs
          s.clock false with
      | .ok start, .ok dirs =>
          if start = 0 then some s
          else some { s with
            dirs
            exports := s.exports ++ [{
              min := start, max := s.clock - 1
              records := index.written s.db start (s.clock - 1) }] }
      | _, _ => none

/-- What was exported after a change. -/
def since (s : ExportRun) (c : RecordChange) : List UpdateFile :=
  s.exports.drop c.exported.length

end ExportRun

def exportSystem (index : TimeIndex) (start : ExportStart) :
    StepSystem ExportRun ExportEvent where
  init :=
    { clock := start.clock, db := start.db
      dirs := { snapshots := [start.snapshot.file], current := none,
                updates := [] }
      exports := [], changes := [] }
  step := ExportRun.step index

def UpdateFile.window (f : UpdateFile) : Nat × Nat := (f.min, f.max)

namespace ExportStart

/-- The times up to which something has been published. -/
def ends (start : ExportStart) (exports : List UpdateFile) : List Nat :=
  start.snapshot.timestamp :: exports.map UpdateFile.max

/-- Where the next window starts. -/
def position (start : ExportStart) (exports : List UpdateFile) : Nat :=
  TimeWindows.endOf start.snapshot.timestamp (exports.map UpdateFile.window)

theorem position_mem_ends (start : ExportStart) (exports : List UpdateFile) :
    start.position exports ∈ start.ends exports := by
  by_cases hnone : exports = []
  · subst hnone
    exact List.mem_cons_self
  · obtain ⟨w, hw, hend⟩ := TimeWindows.endOf_mem start.snapshot.timestamp
      (mt List.map_eq_nil_iff.mp hnone)
    obtain ⟨f, hf, rfl⟩ := List.mem_map.mp hw
    rw [position, hend]
    exact List.mem_cons_of_mem _ (List.mem_map_of_mem hf)

theorem le_position {start : ExportStart} {exports : List UpdateFile}
    (h : TimeWindows.Chained start.snapshot.timestamp
      (exports.map UpdateFile.window)) :
    ∀ t ∈ start.ends exports, t ≤ start.position exports := by
  intro t ht
  rcases List.mem_cons.mp ht with rfl | hlater
  · exact h.le_endOf.1
  · obtain ⟨f, hf, rfl⟩ := List.mem_map.mp hlater
    exact h.le_endOf.2 f.window (List.mem_map_of_mem hf)

end ExportStart

namespace ExportRun

/-- Every change is stamped no earlier than everything exported before it, and
lies in a window exported after it as soon as one of these reaches its
stamp. -/
def InLaterWindow (start : ExportStart) (s : ExportRun) : Prop :=
  ∀ c ∈ s.changes,
    (∀ t ∈ start.ends c.exported, t ≤ c.after.updated.toNat) ∧
      ((∃ f ∈ s.since c, c.after.updated.toNat ≤ f.max) →
        ∃ f ∈ s.since c,
          f.min ≤ c.after.updated.toNat ∧ c.after.updated.toNat ≤ f.max)

instance (start : ExportStart) (s : ExportRun) :
    Decidable (s.InLaterWindow start) :=
  inferInstanceAs (Decidable (∀ c ∈ s.changes, _ ∧ _))

/-- A record that has not changed again is in the file of a later export, once
the windows have passed its stamp. -/
def InLaterFile (s : ExportRun) : Prop :=
  ∀ c ∈ s.changes, s.db.lookup c.hash = some c.after →
    (∃ f ∈ s.since c, c.after.updated.toNat < f.max) →
      ∃ f ∈ s.since c, (c.hash, c.after) ∈ f.records

/-- A report or whitelist is processed only while everything exported ends no
later than its time, or than what the record is stamped with already. -/
def InTime (start : ExportStart) (s : ExportRun) : ExportEvent → Prop
  | .processUpdate u =>
      u.type = some .report ∨ u.type = some .whitelist →
        ∀ t ∈ start.ends s.exports, t ≤ u.time.toNat ∨
          t ≤ ((s.db.lookup u.ghash).getD Record.zero).updated.toNat
  | _ => True

/-- An export does not position its cursor on a record that has changed since
it was last written and that its window passes. -/
def FirstWritten (index : TimeIndex) (start : ExportStart) (s : ExportRun) :
    ExportEvent → Prop
  | .makeUpdate =>
      ∀ p ∈ (index.entriesFrom s.db (start.position s.exports)).head?,
        stamp p < s.clock - 1 → ∀ c ∈ s.changes, c.hash = p.1 →
          c.after = p.2 → ∃ f ∈ s.since c, p ∈ f.records
  | _ => True

/-- The windows are chained from the snapshot on and in the past, the names
on disk say where they end, and no change is stamped before something that had
been exported by then. -/
structure Inv (start : ExportStart) (s : ExportRun) : Prop where
  chained : TimeWindows.Chained start.snapshot.timestamp
    (s.exports.map UpdateFile.window)
  past : start.position s.exports < s.clock
  fits : s.clock < 2 ^ 32
  dirs : ∃ updates : List UpdateFile,
    s.dirs.Hold [start.snapshot] updates ∧
    Updated.nextStart [start.snapshot] updates = start.position s.exports
  changes : ∀ c ∈ s.changes, c.exported <+: s.exports ∧
    ∀ t ∈ start.ends c.exported, t ≤ c.after.updated.toNat

variable {start : ExportStart} {index : TimeIndex}

/-- What was exported by the time of a change, and after it. -/
theorem exported_append_since {s : ExportRun} {c : RecordChange}
    (h : c.exported <+: s.exports) :
    c.exported ++ s.since c = s.exports := by
  obtain ⟨later, hlater⟩ := h
  rw [since, ← hlater, List.drop_left]

theorem Inv.inLaterWindow {s : ExportRun} (h : s.Inv start) :
    s.InLaterWindow start := by
  intro c hc
  obtain ⟨hexported, hstamps⟩ := h.changes c hc
  refine ⟨hstamps, ?_⟩
  rintro ⟨f, hf, hreached⟩
  have hchained := h.chained.drop c.exported.length
  rw [← exported_append_since hexported, List.map_append,
    ← List.length_map UpdateFile.window, List.take_left, List.drop_left]
    at hchained
  have hfrom : start.position c.exported ≤ c.after.updated.toNat :=
    hstamps _ (start.position_mem_ends c.exported)
  obtain ⟨w, hw, hin⟩ := hchained.covers hfrom
    ⟨f.window, List.mem_map_of_mem hf, hreached⟩
  obtain ⟨g, hg, rfl⟩ := List.mem_map.mp hw
  exact ⟨g, hg, hin⟩

theorem inv_init : (exportSystem index start).init.Inv start where
  chained := trivial
  past := start.past
  fits := start.fits
  dirs := ⟨[], ⟨rfl, rfl, fun f hf => List.mem_singleton.mp hf ▸ start.named,
    by simp⟩, by
      simp [Updated.nextStart, ExportStart.position, TimeWindows.endOf,
        exportSystem]⟩
  changes := fun c hc => by cases hc

/-- What a processed report or whitelist stamps the record with. -/
theorem updated_rewritten {u : Update} (now : Uint32)
    (stored : Option Record) (htime : u.time ≠ 0)
    (htype : u.type = some .report ∨ u.type = some .whitelist) :
    ∃ r, Processed.rewritten stored ⟨u, now⟩ = some r ∧
      r.updated.toNat =
        max (stored.getD Record.zero).updated.toNat u.time.toNat ∧
      r ≠ stored.getD Record.zero := by
  have hbump : ∀ tally, ((stored.getD Record.zero).bump tally u.time now)
      ≠ stored.getD Record.zero := by
    intro tally hsame
    have hcount := Record.count_bump (stored.getD Record.zero) tally u.time now
    rw [hsame] at hcount
    have hone := congrFun hcount tally
    rw [Function.update_self] at hone
    have hne : ∀ v : Uint32, v ≠ v + 1 := by
      intro v hv
      bv_omega
    exact hne _ hone
  rcases htype with hreport | hwhitelist
  · refine ⟨_, by simp only [Processed.rewritten, hreport]; rfl, ?_,
      hbump .report⟩
    rw [Record.updated_bump _ _ _ htime, later_toNat]
  · refine ⟨_, by simp only [Processed.rewritten, hwhitelist]; rfl, ?_,
      hbump .whitelist⟩
    rw [Record.updated_bump _ _ _ htime, later_toNat]

/-- Erases are stamped with the clock. -/
theorem updated_erased {u : Update} (now : Uint32)
    (stored : Option Record) (htype : u.type = some .erase) :
    ∃ r, Processed.rewritten stored ⟨u, now⟩ = some r ∧ r.updated = now :=
  ⟨_, by simp only [Processed.rewritten, htype]; rfl, by simp⟩

/-- A change that is processed in time is stamped no earlier than what
has been exported by then. -/
theorem stamp_of_inTime {s : ExportRun} (h : s.Inv start) {u : Update}
    (htime : u.time ≠ 0) (hguard : s.InTime start (.processUpdate u))
    {db : Database} (hdb : ∀ h, db.lookup h = if u.ghash = h then
      KeyedFold.stepValue Processed.rewritten (s.db.lookup h)
        ⟨u, BitVec.ofNat 32 s.clock⟩ else s.db.lookup h) :
    ∀ c ∈ s.changeBy u db, c.exported = s.exports ∧
      ∀ t ∈ start.ends s.exports, t ≤ c.after.updated.toNat := by
  intro c hc
  rw [changeBy] at hc
  split at hc
  · cases hc
  · rename_i hchanged
    obtain rfl := List.mem_singleton.mp hc
    refine ⟨rfl, fun t ht => ?_⟩
    have hstored := hdb u.ghash
    rw [if_pos rfl] at hstored
    cases htype : u.type with
    | none =>
        have hsame : Processed.rewritten (s.db.lookup u.ghash)
            ⟨u, BitVec.ofNat 32 s.clock⟩ = none := by
          simp only [Processed.rewritten, htype]
        rw [KeyedFold.stepValue, hsame] at hstored
        exact absurd hstored hchanged
    | some type =>
        by_cases herase : type = .erase
        · obtain ⟨r, hr, hupdated⟩ := updated_erased
            (BitVec.ofNat 32 s.clock) (s.db.lookup u.ghash)
            (htype.trans (congrArg some herase))
          rw [KeyedFold.stepValue, hr] at hstored
          have hclock : r.updated.toNat = s.clock := by
            rw [hupdated, BitVec.toNat_ofNat, Nat.mod_eq_of_lt h.fits]
          have hend := ExportStart.le_position h.chained t ht
          have hpast := h.past
          simp only [hstored, Option.some_or, Option.getD_some, hclock]
          omega
        · have hcounted : u.type = some .report ∨ u.type = some .whitelist := by
            rw [htype]
            cases type with
            | erase => exact absurd rfl herase
            | report => exact Or.inl rfl
            | whitelist => exact Or.inr rfl
          obtain ⟨r, hr, hupdated, -⟩ := updated_rewritten
            (BitVec.ofNat 32 s.clock) (s.db.lookup u.ghash) htime hcounted
          rw [KeyedFold.stepValue, hr] at hstored
          simp only [hstored, Option.some_or, Option.getD_some, hupdated]
          rcases hguard hcounted t ht with hle | hle
          · exact hle.trans (le_max_right _ _)
          · exact hle.trans (le_max_left _ _)

theorem inv_processUpdate {s s' : ExportRun} (h : s.Inv start) {u : Update}
    (hguard : s.InTime start (.processUpdate u))
    (hstep : step index s (.processUpdate u) = some s') : s'.Inv start := by
  rw [step] at hstep
  split at hstep
  · cases hstep
  · rename_i hallowed
    push Not at hallowed
    obtain ⟨db, hdb, hlookup⟩ := Database.processUpdate_lookup s.db u
      (BitVec.ofNat 32 s.clock)
    rw [hdb] at hstep
    obtain rfl := Option.some.inj hstep
    refine ⟨h.chained, h.past, h.fits, h.dirs, fun c hc => ?_⟩
    rcases List.mem_append.mp hc with hold | hnew
    · exact h.changes c hold
    · obtain ⟨hexported, hstamps⟩ :=
        stamp_of_inTime h hallowed.1 hguard hlookup c hnew
      rw [hexported]
      exact ⟨List.prefix_rfl, hstamps⟩

/-- The update that is exported next. -/
def nextExport (index : TimeIndex) (start : ExportStart) (s : ExportRun) :
    UpdateFile :=
  { min := start.position s.exports, max := s.clock - 1
    records := index.written s.db (start.position s.exports) (s.clock - 1) }

/-- An export publishes it, and the names on disk say where it ends. -/
theorem makeUpdate_eq_some {s s' : ExportRun} (h : s.Inv start)
    (hstep : step index s .makeUpdate = some s') :
    ∃ dirs updates, s' = { s with
        dirs, exports := s.exports ++ [s.nextExport index start] } ∧
      dirs.Hold [start.snapshot] updates ∧
      Updated.nextStart [start.snapshot] updates = s.clock - 1 := by
  obtain ⟨updates, hold, hnext⟩ := h.dirs
  have hpast := h.past
  have hfits := h.fits
  have hfrom : start.snapshot.timestamp ≤ start.position s.exports :=
    h.chained.le_endOf.1
  have hlower := start.named.lower
  let f := s.nextExport index start
  have hf : f.Named := by
    constructor
    · exact ⟨hlower.trans hfrom, hpast.trans hfits⟩
    · change TenDigits (s.clock - 1)
      exact ⟨by omega, by omega⟩
  have hopen : ClientDatabase.opened.index_ = .opened := rfl
  have hstart := Updated.updateStart_eq hold.snapshotsNamed hold.updatesNamed
    hold.inSnapshots hold.inUpdates
  have hmade := Updated.makeUpdate_eq hold.snapshotsNamed hold.updatesNamed
    hold.inSnapshots hold.inUpdates
    (ClientDatabase.opened.dumpModifiedRecords2 index s.db) s.clock hf
    hnext.symm rfl (if_pos hopen)
  have hpositive : start.position s.exports ≠ 0 := by omega
  rw [step, hstart, hmade, hnext] at hstep
  simp only [hpositive, ↓reduceIte] at hstep
  obtain rfl := Option.some.inj hstep
  refine ⟨_, _, rfl, ⟨hold.inSnapshots, rfl, hold.snapshotsNamed, ?_⟩, ?_⟩
  · intro g hg
    rcases List.mem_append.mp hg with hkept | hnew
    · exact hold.updatesNamed g (List.mem_of_mem_filter hkept)
    · rw [List.mem_singleton.mp hnew]
      exact hf
  · apply Updated.nextStart_append [start.snapshot]
    intro g hg
    have hle := Updated.le_nextStart [start.snapshot]
      (List.mem_of_mem_filter hg)
    rw [hnext] at hle
    exact hle.trans (Nat.le_sub_one_of_lt hpast)

theorem inv_makeUpdate {s s' : ExportRun} (h : s.Inv start)
    (hstep : step index s .makeUpdate = some s') : s'.Inv start := by
  obtain ⟨dirs, updates, rfl, hold, hnext⟩ := makeUpdate_eq_some h hstep
  have hpast := h.past
  have hend : start.position (s.exports ++ [s.nextExport index start]) =
      s.clock - 1 := by
    rw [ExportStart.position, List.map_append, List.map_singleton,
      TimeWindows.endOf_append_singleton]
    rfl
  refine ⟨?_, ?_, h.fits, ⟨updates, hold, hnext.trans hend.symm⟩, ?_⟩
  · rw [List.map_append, List.map_singleton]
    exact h.chained.append_singleton rfl (Nat.le_sub_one_of_lt hpast)
  · rw [hend]
    change s.clock - 1 < s.clock
    omega
  · intro c hc
    obtain ⟨hexported, hstamps⟩ := h.changes c hc
    exact ⟨hexported.trans (List.prefix_append _ _), hstamps⟩

/-- One step: as long as reports and whitelists are processed in time. -/
theorem inv_step :
    (exportSystem index start).Preserves (Inv start) (InTime start) := by
  intro s s' event h hguard hstep
  change step index s event = some s' at hstep
  cases event with
  | processUpdate u => exact inv_processUpdate h hguard hstep
  | wait seconds =>
      rw [step] at hstep
      split at hstep
      · rename_i hfits
        obtain rfl := Option.some.inj hstep
        exact ⟨h.chained, h.past.trans_le (Nat.le_add_right _ _), hfits,
          h.dirs, h.changes⟩
      · cases hstep
  | makeUpdate => exact inv_makeUpdate h hstep

/-- A report or whitelist that is late behind an export and behind its record
changes the record without moving it into a later window. -/
theorem not_inLaterWindow_of_late {s s' : ExportRun} {event : ExportEvent}
    (hstep : step index s event = some s')
    (hlate : ¬ s.InTime start event) : ¬ s'.InLaterWindow start := by
  cases event with
  | wait seconds => exact (hlate trivial).elim
  | makeUpdate => exact (hlate trivial).elim
  | processUpdate u =>
      simp only [InTime, not_forall, not_or, Nat.not_le] at hlate
      obtain ⟨hcounted, t, ht, htime, hrecord⟩ := hlate
      rw [step] at hstep
      split at hstep
      · cases hstep
      · rename_i hallowed
        push Not at hallowed
        obtain ⟨db, hdb, hlookup⟩ := Database.processUpdate_lookup s.db u
          (BitVec.ofNat 32 s.clock)
        rw [hdb] at hstep
        obtain rfl := Option.some.inj hstep
        obtain ⟨r, hr, hupdated, hne⟩ := updated_rewritten
          (BitVec.ofNat 32 s.clock) (s.db.lookup u.ghash) hallowed.1 hcounted
        have hstored := hlookup u.ghash
        rw [if_pos rfl, KeyedFold.stepValue, hr, Option.some_or] at hstored
        have hchanged : db.lookup u.ghash ≠ s.db.lookup u.ghash := by
          intro hsame
          rw [hstored] at hsame
          exact hne (by rw [← hsame]; rfl)
        intro hvisible
        have hstamp := (hvisible
          { hash := u.ghash, after := r, exported := s.exports } (by
            rw [List.mem_append, changeBy, if_neg hchanged, hstored]
            exact Or.inr List.mem_cons_self)).1 t ht
        rw [hupdated] at hstamp
        omega

/-! What the files hold. -/

theorem inLaterFile_processUpdate {s s' : ExportRun} (h : s.Inv start)
    (hfile : s.InLaterFile) {u : Update}
    (hguard : s.InTime start (.processUpdate u))
    (hstep : step index s (.processUpdate u) = some s') :
    s'.InLaterFile := by
  rw [step] at hstep
  split at hstep
  · cases hstep
  · rename_i hallowed
    push Not at hallowed
    obtain ⟨db, hdb, hlookup⟩ := Database.processUpdate_lookup s.db u
      (BitVec.ofNat 32 s.clock)
    rw [hdb] at hstep
    obtain rfl := Option.some.inj hstep
    have hstamps := stamp_of_inTime h hallowed.1 hguard hlookup
    intro c hc hcurrent hpassed
    rcases List.mem_append.mp hc with hold | hnew
    · by_cases hsame : db.lookup c.hash = s.db.lookup c.hash
      · exact hfile c hold (hsame ▸ hcurrent) hpassed
      · -- the record is as an earlier change left it, but stamped anew
        have hown : u.ghash = c.hash := by
          by_contra hother
          exact hsame ((hlookup c.hash).trans (if_neg hother))
        have hagain : ({ hash := u.ghash, after := c.after
                         exported := s.exports } : RecordChange) ∈
            s.changeBy u db := by
          rw [changeBy, hown, if_neg hsame, hcurrent]
          exact List.mem_cons_self
        obtain ⟨f, hf, hlt⟩ := hpassed
        have hle := (hstamps _ hagain).2 f.max (List.mem_cons_of_mem _
          (List.mem_map_of_mem (List.mem_of_mem_drop hf)))
        exact absurd hlt (Nat.not_lt.mpr hle)
    · obtain ⟨f, hf, -⟩ := hpassed
      rw [since, (hstamps c hnew).1, List.drop_length] at hf
      cases hf

/-- What was exported after a change, with one more export. -/
theorem since_append {s : ExportRun} {c : RecordChange}
    (h : c.exported <+: s.exports) (dirs : Directories) (f : UpdateFile) :
    since { s with dirs, exports := s.exports ++ [f] } c =
      s.since c ++ [f] :=
  List.drop_append_of_le_length h.length_le

/-- A change that no window has passed yet lies behind the next one's start. -/
theorem position_le_of_not_passed {s : ExportRun} (h : s.Inv start)
    {c : RecordChange} (hc : c ∈ s.changes)
    (hnot : ¬ ∃ f ∈ s.since c, c.after.updated.toNat < f.max) :
    start.position s.exports ≤ c.after.updated.toNat := by
  obtain ⟨hexported, hstamps⟩ := h.changes c hc
  have hends := start.position_mem_ends s.exports
  rw [ExportStart.ends, ← exported_append_since hexported, List.map_append]
    at hends
  rw [exported_append_since hexported] at hends
  rcases List.mem_cons.mp hends with hfirst | hlater
  · rw [hfirst]
    exact hstamps _ List.mem_cons_self
  · rcases List.mem_append.mp hlater with hbefore | hafter
    · exact hstamps _ (List.mem_cons_of_mem _ hbefore)
    · obtain ⟨f, hf, hend⟩ := List.mem_map.mp hafter
      rw [← hend]
      exact Nat.not_lt.mp fun hlt => hnot ⟨f, hf, hlt⟩

theorem inLaterFile_makeUpdate {s s' : ExportRun} (h : s.Inv start)
    (hfile : s.InLaterFile) (hguard : s.FirstWritten index start .makeUpdate)
    (hstep : step index s .makeUpdate = some s') : s'.InLaterFile := by
  obtain ⟨dirs, updates, rfl, -, -⟩ := makeUpdate_eq_some h hstep
  intro c hc hcurrent hpassed
  have hexported := (h.changes c hc).1
  rw [since_append hexported] at hpassed ⊢
  have hkeep : (∃ f ∈ s.since c, (c.hash, c.after) ∈ f.records) →
      ∃ f ∈ s.since c ++ [s.nextExport index start],
        (c.hash, c.after) ∈ f.records := by
    rintro ⟨f, hf, hmem⟩
    exact ⟨f, List.mem_append_left _ hf, hmem⟩
  by_cases hearlier : ∃ f ∈ s.since c, c.after.updated.toNat < f.max
  · exact hkeep (hfile c hc hcurrent hearlier)
  · obtain ⟨f, hf, hlt⟩ := hpassed
    rcases List.mem_append.mp hf with hold | hnew
    · exact absurd ⟨f, hold, hlt⟩ hearlier
    · rw [List.mem_singleton.mp hnew] at hlt
      have hposition := position_le_of_not_passed h hc hearlier
      rcases index.first_or_mem_written (p := (c.hash, c.after)) hcurrent
        hposition (Nat.le_of_lt hlt) with hfirst | hwritten
      · exact hkeep (hguard _ hfirst hlt c hc rfl rfl)
      · exact ⟨_, List.mem_append_right _ List.mem_cons_self, hwritten⟩

/-- One step: as long as no export is first positioned on a record that it
should write. -/
theorem inLaterFile_step : (exportSystem index start).Preserves
    (fun s => s.Inv start ∧ s.InLaterFile)
    (fun s event => s.InTime start event ∧ s.FirstWritten index start event) := by
  rintro s s' event ⟨h, hfile⟩ ⟨htime, hfirst⟩ hstep
  refine ⟨inv_step h htime hstep, ?_⟩
  change step index s event = some s' at hstep
  cases event with
  | processUpdate u => exact inLaterFile_processUpdate h hfile htime hstep
  | wait seconds =>
      rw [step] at hstep
      split at hstep
      · obtain rfl := Option.some.inj hstep
        exact hfile
      · cases hstep
  | makeUpdate => exact inLaterFile_makeUpdate h hfile hfirst hstep

/-- The record that the cursor is first positioned on is in no file, and the
windows have passed it. -/
theorem not_inLaterFile_of_first {s s' : ExportRun} (h : s.Inv start)
    {event : ExportEvent} (hstep : step index s event = some s')
    (hfirst : ¬ s.FirstWritten index start event) : ¬ s'.InLaterFile := by
  cases event with
  | processUpdate u => exact (hfirst trivial).elim
  | wait seconds => exact (hfirst trivial).elim
  | makeUpdate =>
      obtain ⟨dirs, updates, rfl, -, -⟩ := makeUpdate_eq_some h hstep
      simp only [FirstWritten, not_forall] at hfirst
      obtain ⟨⟨hash, r⟩, hhead, hlt, c, hc, rfl, rfl, hnone⟩ := hfirst
      have hentry := index.mem_entriesFrom.mp (List.mem_of_head? hhead)
      intro hfile
      have hheld := hfile c hc hentry.1
      rw [since_append (h.changes c hc).1] at hheld
      obtain ⟨f, hf, hmem⟩ :=
        hheld ⟨_, List.mem_append_right _ List.mem_cons_self, hlt⟩
      rcases List.mem_append.mp hf with hold | hnew
      · exact hnone ⟨f, hold, hmem⟩
      · rw [List.mem_singleton.mp hnew] at hmem
        exact index.first_not_mem_written hhead hmem

end ExportRun

/-- From any start, the runs in which every change of a record lies in a later
window are exactly those in which no report or whitelist is processed after
something was exported that ends after both its time and its record's stamp.
The runs in which it is in a later file too are those of them in which no
export is first positioned on a changed record that it should write. -/
theorem export_visible_iff (index : TimeIndex) (start : ExportStart)
    (events : List ExportEvent) :
    ((exportSystem index start).Always (ExportRun.InLaterWindow start) events ↔
      (exportSystem index start).Each (ExportRun.InTime start) events) ∧
    ((exportSystem index start).Always
        (fun s => s.InLaterWindow start ∧ s.InLaterFile) events ↔
      (exportSystem index start).Each (fun s event => s.InTime start event ∧
        s.FirstWritten index start event) events) := by
  constructor
  · exact (exportSystem index start).always_iff_each ExportRun.inv_init
      ExportRun.inv_step (fun _ h => h.inLaterWindow)
      (fun _ hstep hlate => ExportRun.not_inLaterWindow_of_late hstep hlate)
      events
  · refine (exportSystem index start).always_iff_each
      ⟨ExportRun.inv_init, fun c hc => by cases hc⟩
      ExportRun.inLaterFile_step (fun _ h => ⟨h.1.inLaterWindow, h.2⟩) ?_
      events
    intro s s' event h hstep hnot hvisible
    by_cases htime : s.InTime start event
    · exact ExportRun.not_inLaterFile_of_first h.1 hstep
        (fun hfirst => hnot ⟨htime, hfirst⟩) hvisible.2
    · exact ExportRun.not_inLaterWindow_of_late hstep htime hvisible.1

/-- An empty master ten minutes after its first snapshot. -/
def tenMinutesIn : ExportStart where
  snapshot := { timestamp := 1200000000, records := [] }
  clock := 1200000601
  db := ∅
  named := ⟨by decide, by decide⟩
  past := by decide
  fits := by decide

/-- A report that was ten seconds under way when a window was exported. -/
def lateReport : List ExportEvent :=
  [.makeUpdate, .processUpdate
    (Update.make ⟨Vector.replicate 20 1⟩ .report 1200000591)]

theorem export_not_always_visible :
    ¬ ∀ index start events, (exportSystem index start).Always
      (fun s => s.InLaterWindow start ∧ s.InLaterFile) events := by
  intro h
  obtain ⟨s, hrun, hbad⟩ : ∃ s, (exportSystem TimeIndex.stable
      tenMinutesIn).run lateReport = some s ∧
        ¬ s.InLaterWindow tenMinutesIn :=
    ⟨_, rfl, by decide +kernel⟩
  have hend := (exportSystem TimeIndex.stable tenMinutesIn).alwaysFrom_iff.mp
    (h TimeIndex.stable tenMinutesIn lateReport) lateReport s List.prefix_rfl
    hrun
  exact hbad hend.1

end BohunoPyzord
