/-
A history of the exporter next to a master whose records are stamped with the
second they change in.  Every file on disk stays true to the master: it holds
the records stamped within its window as they were when it was published, and
those that have not been stamped since are still the master's.
-/
import BohunoPyzord.Archive
import BohunoPyzord.StepSystem

namespace BohunoPyzord

theorem Database.mem_pairs {db : Database} {h : Hash} {r : Record} :
    (h, r) ∈ db.pairs ↔ db.lookup h = some r := by
  rw [Database.pairs, List.mem_map]
  constructor
  · rintro ⟨⟨h', r'⟩, hmem, heq⟩
    obtain ⟨rfl, rfl⟩ := Prod.mk.inj heq
    exact AList.mem_lookup_iff.mpr hmem
  · intro hlookup
    exact ⟨⟨h, r⟩, AList.mem_lookup_iff.mp hlookup, rfl⟩

/-- No hash is stored twice. -/
theorem Database.nodup_keys (db : Database) :
    (db.pairs.map Prod.fst).Nodup := by
  rw [Database.pairs, List.map_map]
  exact db.nodupKeys

namespace TimeIndex

variable (index : TimeIndex) {stored : Database} {min : Nat}

theorem ordered_entriesFrom (stored : Database) (min : Nat) :
    OrderedScan.Ordered stamp (index.entriesFrom stored min) :=
  (index.ordered stored).startingAt min

theorem mem_entriesFrom {p : Hash × Record} :
    p ∈ index.entriesFrom stored min ↔
      stored.lookup p.1 = some p.2 ∧ min ≤ stamp p := by
  rw [entriesFrom, OrderedScan.mem_startingAt (index.ordered stored),
    (index.perm stored).mem_iff]
  exact and_congr_left fun _ => Database.mem_pairs

/-- A cursor visits every hash once. -/
theorem nodup_entriesFrom (stored : Database) (min : Nat) :
    ((index.entriesFrom stored min).map Prod.fst).Nodup := by
  have hkeys : ((index.entries stored).map Prod.fst).Nodup :=
    ((index.perm stored).map Prod.fst).nodup_iff.mpr stored.nodup_keys
  exact hkeys.sublist ((List.dropWhile_sublist _).map Prod.fst)

end TimeIndex

/-- The records of a file with window `[min, max]` against the database: they
are stamped within the window, none is missing, and the copy of a record that
was not stamped after the window is the record. -/
structure Faithful (db : Database) (min max : Nat) (records : Dump) :
    Prop where
  stamps : ∀ p ∈ records,
    min ≤ p.2.updated.toNat ∧ p.2.updated.toNat ≤ max
  complete : ∀ h r, db.lookup h = some r → min ≤ r.updated.toNat →
    r.updated.toNat ≤ max → (h, r) ∈ records
  current : ∀ h r r', db.lookup h = some r → r.updated.toNat ≤ max →
    (h, r') ∈ records → r' = r

namespace Faithful

variable {db : Database} {min max : Nat} {records : Dump}

theorem window (db : Database) (min max : Nat) :
    Faithful db min max (db.window min max) where
  stamps p hp := by
    simpa using (List.mem_filter.mp hp).2
  complete h r hlookup hmin hmax :=
    List.mem_filter.mpr ⟨Database.mem_pairs.mpr hlookup, by simp [hmin, hmax]⟩
  current h r r' hlookup _ hmem := by
    have hlookup' := Database.mem_pairs.mp (List.mem_filter.mp hmem).1
    exact Option.some.inj (hlookup'.symm.trans hlookup)

/-- A record stamped after the window changes nothing within it. -/
theorem insert (h : Faithful db min max records) (hash : Hash)
    {r : Record} (hlater : max < r.updated.toNat) :
    Faithful (db.insert hash r) min max records := by
  have hback : ∀ other s, (db.insert hash r).lookup other = some s →
      s.updated.toNat ≤ max → db.lookup other = some s := by
    intro other s hlookup hle
    by_cases hother : other = hash
    · subst hother
      rw [AList.lookup_insert] at hlookup
      obtain rfl := Option.some.inj hlookup
      omega
    · rwa [AList.lookup_insert_ne hother] at hlookup
  exact {
    stamps := h.stamps
    complete := fun other s hlookup hmin hmax =>
      h.complete other s (hback other s hlookup hmax) hmin hmax
    current := fun other s s' hlookup hle =>
      h.current other s s' (hback other s hlookup hle) hle }

theorem erase (h : Faithful db min max records) (hash : Hash) :
    Faithful (db.erase hash) min max records := by
  have hback : ∀ other s, (db.erase hash).lookup other = some s →
      db.lookup other = some s := by
    intro other s hlookup
    by_cases hother : other = hash
    · subst hother
      rw [AList.lookup_erase] at hlookup
      cases hlookup
    · rwa [AList.lookup_erase_ne hother] at hlookup
  exact {
    stamps := h.stamps
    complete := fun other s hlookup =>
      h.complete other s (hback other s hlookup)
    current := fun other s s' hlookup =>
      h.current other s s' (hback other s hlookup) }

end Faithful

/-- A snapshot of the past. -/
structure SnapshotFile.Good (f : SnapshotFile) (clock : Nat)
    (db : Database) : Prop where
  past : f.timestamp < clock
  faithful : Faithful db 0 f.timestamp f.records

/-- An update of a window of the past. -/
structure UpdateFile.Good (f : UpdateFile) (clock : Nat) (db : Database) :
    Prop where
  window : f.min ≤ f.max
  past : f.max < clock
  faithful : Faithful db f.min f.max f.records

/-- The handles the exporter reads through while the database is up. -/
def ClientDatabase.opened : ClientDatabase :=
  { ClientDatabase.start.setup with connected_ := true }

/-- The files a tick at `now` may add. -/
def newSnapshot (stored : Database) (now : Nat) : SnapshotFile :=
  { timestamp := now - 1, records := stored.window 0 (now - 1) }

def newUpdate (stored : Database) (now start : Nat) : UpdateFile :=
  { min := start, max := now - 1, records := stored.window start (now - 1) }

namespace Updated

variable {dirs : Directories} {snapshots : List SnapshotFile}
  {updates : List UpdateFile}

/-- Where the next update starts is the end of a file on disk. -/
theorem nextStart_named (h : dirs.Hold snapshots updates) :
    nextStart snapshots updates = 0 ∨
      TenDigits (nextStart snapshots updates) := by
  have hlatest : ∀ times : List Nat, (∀ t ∈ times, TenDigits t) →
      latestOf times = 0 ∨ TenDigits (latestOf times) := by
    intro times
    induction times with
    | nil => exact fun _ => Or.inl rfl
    | cons t times ih =>
        intro htimes
        have ht := htimes t List.mem_cons_self
        rw [latestOf_cons]
        rcases ih fun s hs => htimes s (List.mem_cons_of_mem t hs) with
          hzero | hrest
        · rw [hzero, Nat.max_zero]
          exact Or.inr ht
        · rw [Nat.max_def]
          split
          · exact Or.inr hrest
          · exact Or.inr ht
  unfold nextStart
  split
  · apply hlatest _
    intro t ht
    obtain ⟨f, hf, rfl⟩ := List.mem_map.mp ht
    exact h.snapshotsNamed f hf
  · apply hlatest _
    intro t ht
    obtain ⟨f, hf, rfl⟩ := List.mem_map.mp ht
    exact (h.updatesNamed f hf).2

theorem nextStart_le {bound : Nat}
    (hsnapshots : ∀ f ∈ snapshots, f.timestamp ≤ bound)
    (hupdates : ∀ f ∈ updates, f.max ≤ bound) :
    nextStart snapshots updates ≤ bound := by
  unfold nextStart
  split
  · apply latestOf_le
    intro t ht
    obtain ⟨f, hf, rfl⟩ := List.mem_map.mp ht
    exact hsnapshots f hf
  · apply latestOf_le
    intro t ht
    obtain ⟨f, hf, rfl⟩ := List.mem_map.mp ht
    exact hupdates f hf

theorem nodup_publish {F : Type} {name : F → FileName} {files : List F}
    (h : (files.map name).Nodup) (f : F) :
    ((files.filter (fun g => name g ≠ name f) ++ [f]).map name).Nodup := by
  rw [List.map_append, List.nodup_append]
  refine ⟨h.sublist (List.filter_sublist.map name), by simp, ?_⟩
  intro a ha b hb hab
  obtain ⟨g, hg, rfl⟩ := List.mem_map.mp ha
  simp only [List.map_cons, List.map_nil, List.mem_singleton] at hb
  simp [hab, hb] at hg

/-- Each update on disk has a name of its own. -/
def DistinctNames (updates : List UpdateFile) : Prop :=
  (updates.map fun f => f.file.1).Nodup

/-- What a tick makes of the directories: files that were there, and those
that it may add. -/
structure Ticked (stored : Database) (now : Nat)
    (snapshots : List SnapshotFile) (updates : List UpdateFile)
    (dirs' : Directories) (snapshots' : List SnapshotFile)
    (updates' : List UpdateFile) : Prop where
  hold : dirs'.Hold snapshots' updates'
  fromSnapshots : ∀ f ∈ snapshots', f ∈ snapshots ∨
    f = newSnapshot stored now
  fromUpdates : ∀ f ∈ updates', f ∈ updates ∨
    ∃ start ≤ now - 1, f = newUpdate stored now start
  distinct : DistinctNames updates → DistinctNames updates'

/-- The update half of a tick. -/
theorem makeUpdate_ticked (h : dirs.Hold snapshots updates)
    (stored : Database) {now : Nat} (hnow : TenDigits (now - 1))
    (hsnapshots : ∀ f ∈ snapshots, f.timestamp ≤ now - 1)
    (hupdates : ∀ f ∈ updates, f.max ≤ now - 1) :
    ∃ dirs' snapshots' updates', makeUpdate
        (fun start finish => .ok (stored.window start finish)) dirs now
        false = .ok dirs' ∧
      Ticked stored now snapshots updates dirs' snapshots' updates' := by
  have hle := nextStart_le hsnapshots hupdates
  by_cases hzero : nextStart snapshots updates = 0
  · have hstart := updateStart_eq h.snapshotsNamed h.updatesNamed
      h.inSnapshots h.inUpdates
    refine ⟨dirs, snapshots, updates, ?_, h, fun f hf => Or.inl hf,
      fun f hf => Or.inl hf, id⟩
    rw [makeUpdate, hstart, hzero]
    rfl
  · have hnamed := (nextStart_named h).resolve_left hzero
    let f := newUpdate stored now (nextStart snapshots updates)
    have hf : f.Named := ⟨hnamed, hnow⟩
    refine ⟨_, snapshots, _, makeUpdate_eq h.snapshotsNamed h.updatesNamed
      h.inSnapshots h.inUpdates _ now hf rfl rfl rfl, ⟨h.inSnapshots, rfl,
        h.snapshotsNamed, ?_⟩, fun f hf => Or.inl hf, ?_, ?_⟩
    · intro g hg
      rcases List.mem_append.mp hg with hold | hnew
      · exact h.updatesNamed g (List.mem_of_mem_filter hold)
      · rw [List.mem_singleton.mp hnew]
        exact hf
    · intro g hg
      rcases List.mem_append.mp hg with hold | hnew
      · exact Or.inl (List.mem_of_mem_filter hold)
      · exact Or.inr ⟨_, hle, List.mem_singleton.mp hnew⟩
    · exact fun hdistinct => nodup_publish hdistinct f

/-- The part of a tick after the deletions. -/
theorem makeSnapshot_ticked (h : dirs.Hold snapshots updates)
    {d : ClientDatabase} (hopen : d.HandlesOpen) (stored : Database)
    {now : Nat} (hnow : TenDigits (now - 1))
    (hsnapshots : ∀ f ∈ snapshots, f.timestamp ≤ now - 1)
    (hupdates : ∀ f ∈ updates, f.max ≤ now - 1) :
    ∃ dirs' snapshots' updates',
      (makeSnapshot d stored dirs now none >>= fun made =>
        if made.2 then pure made.1
        else makeUpdate (fun start finish => .ok (stored.window start finish))
          made.1 now false) = .ok dirs' ∧
      Ticked stored now snapshots updates dirs' snapshots' updates' := by
  have hf : (newSnapshot stored now).Named := hnow
  rw [makeSnapshot_eq h hopen stored now (f := newSnapshot stored now) rfl
    rfl]
  split
  · refine ⟨_, _, updates, rfl, ⟨rfl, h.inUpdates, ?_, h.updatesNamed⟩, ?_,
      fun f hf => Or.inl hf, id⟩
    · intro g hg
      rcases List.mem_append.mp hg with hold | hnew
      · exact h.snapshotsNamed g (List.mem_of_mem_filter hold)
      · rw [List.mem_singleton.mp hnew]
        exact hf
    · intro g hg
      rcases List.mem_append.mp hg with hold | hnew
      · exact Or.inl (List.mem_of_mem_filter hold)
      · exact Or.inr (List.mem_singleton.mp hnew)
  · exact makeUpdate_ticked h stored hnow hsnapshots hupdates

/-- One tick of the exporter. -/
theorem snapshot_ticked (h : dirs.Hold snapshots updates)
    (stored : Database) {now : Nat} (hnow : TenDigits (now - 1))
    (hsnapshots : ∀ f ∈ snapshots, f.timestamp ≤ now - 1)
    (hupdates : ∀ f ∈ updates, f.max ≤ now - 1) :
    ∃ dirs' snapshots' updates', snapshot ClientDatabase.opened stored
        (fun start finish => .ok (stored.window start finish)) dirs now none
        false = .ok dirs' ∧
      Ticked stored now snapshots updates dirs' snapshots' updates' := by
  have hopen : ClientDatabase.opened.HandlesOpen := by decide
  obtain ⟨dirs₁, removed, kept, hexpired, hold₁, hkept⟩ :=
    expireSnapshots_spec h now
  have hkeptPast : ∀ f ∈ kept, f.timestamp ≤ now - 1 := fun f hf =>
    hsnapshots f (hkept.subset hf)
  have hup : ClientDatabase.opened.up = true := rfl
  simp only [snapshot, hup, Bool.not_true, Bool.false_eq_true, ↓reduceIte,
    hexpired]
  cases removed with
  | false =>
      obtain ⟨dirs', snapshots', updates', hmade, hticked⟩ :=
        makeSnapshot_ticked hold₁ hopen stored hnow hkeptPast hupdates
      refine ⟨dirs', snapshots', updates', hmade, hticked.hold, ?_,
        hticked.fromUpdates, hticked.distinct⟩
      exact fun f hf => (hticked.fromSnapshots f hf).imp_left
        fun hmem => hkept.subset hmem
  | true =>
      obtain ⟨dirs₂, keptUpdates, hremoved, hold₂, hkeptUpdates⟩ :=
        expireUpdates_spec hold₁
      obtain ⟨dirs', snapshots', updates', hmade, hticked⟩ :=
        makeSnapshot_ticked hold₂ hopen stored hnow hkeptPast
          fun f hf => hupdates f (hkeptUpdates.subset hf)
      refine ⟨dirs', snapshots', updates', ?_, hticked.hold, ?_, ?_, ?_⟩
      · change (expireUpdates dirs₁ >>= _) = _
        rw [hremoved]
        exact hmade
      · exact fun f hf => (hticked.fromSnapshots f hf).imp_left
          fun hmem => hkept.subset hmem
      · exact fun f hf => (hticked.fromUpdates f hf).imp_left
          fun hmem => hkeptUpdates.subset hmem
      · exact fun hdistinct => hticked.distinct
          (hdistinct.sublist (hkeptUpdates.map _))

end Updated

/-- A master and the files that were published from it so far. -/
structure UpdatedStart where
  clock : Nat
  db : Database
  snapshots : List SnapshotFile
  updates : List UpdateFile
  begun : 10 ^ 9 < clock
  fits : clock < 2 ^ 32
  snapshotsNamed : ∀ f ∈ snapshots, f.Named
  updatesNamed : ∀ f ∈ updates, f.Named
  snapshotsGood : ∀ f ∈ snapshots, f.Good clock db
  updatesGood : ∀ f ∈ updates, f.Good clock db
  distinct : Updated.DistinctNames updates

/-- `record` is a change of a stored record, `delete` an expiry. -/
inductive UpdatedEvent where
  | record (hash : Hash) (r : Record)
  | delete (hash : Hash)
  | wait (seconds : Nat)
  | tick
deriving DecidableEq, Repr

structure UpdatedRun where
  clock : Nat
  db : Database
  dirs : Directories

namespace UpdatedRun

/-- A record changes by being stamped with the current second; a tick
publishes exactly the records stamped within the window it names. -/
def step (s : UpdatedRun) : UpdatedEvent → Option UpdatedRun
  | .record hash r =>
      if r.updated.toNat = s.clock then
        some { s with db := s.db.insert hash r }
      else none
  | .delete hash => some { s with db := s.db.erase hash }
  | .wait seconds =>
      if s.clock + seconds < 2 ^ 32 then
        some { s with clock := s.clock + seconds }
      else none
  | .tick =>
      match Updated.snapshot ClientDatabase.opened s.db
          (fun start finish => .ok (s.db.window start finish)) s.dirs s.clock
          none false with
      | .ok dirs => some { s with dirs }
      | .error _ => none

end UpdatedRun

def updatedSystem (start : UpdatedStart) :
    StepSystem UpdatedRun UpdatedEvent where
  init :=
    { clock := start.clock, db := start.db
      dirs := { snapshots := start.snapshots.map SnapshotFile.file
                current := none
                updates := start.updates.map UpdateFile.file } }
  step := UpdatedRun.step

/-- The snapshots and updates on disk, read by their names. -/
def Directories.snapshotFiles (dirs : Directories) : List SnapshotFile :=
  dirs.snapshots.filterMap fun file =>
    match parseSnapshotFileName file.1 with
    | .ok (some timestamp) => some { timestamp, records := file.2 }
    | _ => none

def Directories.updateFiles (dirs : Directories) : List UpdateFile :=
  dirs.updates.filterMap fun file =>
    match parseUpdateFileName file.1 with
    | .ok (some (min, max)) => some { min, max, records := file.2 }
    | _ => none

theorem Directories.Hold.files_eq {dirs : Directories}
    {snapshots : List SnapshotFile} {updates : List UpdateFile}
    (h : dirs.Hold snapshots updates) :
    dirs.snapshotFiles = snapshots ∧ dirs.updateFiles = updates := by
  constructor
  · rw [snapshotFiles, h.inSnapshots, List.filterMap_map]
    refine (List.filterMap_congr fun f hf => ?_).trans List.filterMap_some
    simp only [Function.comp_apply, SnapshotFile.file,
      parseSnapshotFileName_timestampName (h.snapshotsNamed f hf)]
  · rw [updateFiles, h.inUpdates, List.filterMap_map]
    refine (List.filterMap_congr fun f hf => ?_).trans List.filterMap_some
    simp only [Function.comp_apply, UpdateFile.file,
      parseUpdateFileName_updateName (h.updatesNamed f hf).1
        (h.updatesNamed f hf).2]

namespace UpdatedRun

/-- Every file on disk is true to the master. -/
structure Inv (s : UpdatedRun) : Prop where
  begun : 10 ^ 9 < s.clock
  fits : s.clock < 2 ^ 32
  hold : s.dirs.Hold s.dirs.snapshotFiles s.dirs.updateFiles
  snapshots : ∀ f ∈ s.dirs.snapshotFiles, f.Good s.clock s.db
  updates : ∀ f ∈ s.dirs.updateFiles, f.Good s.clock s.db
  distinct : Updated.DistinctNames s.dirs.updateFiles

theorem inv_init (start : UpdatedStart) : (updatedSystem start).init.Inv := by
  have hold : (updatedSystem start).init.dirs.Hold start.snapshots
      start.updates :=
    ⟨rfl, rfl, start.snapshotsNamed, start.updatesNamed⟩
  obtain ⟨hs, hu⟩ := hold.files_eq
  exact {
    begun := start.begun
    fits := start.fits
    hold := by rwa [hs, hu]
    snapshots := hs ▸ start.snapshotsGood
    updates := hu ▸ start.updatesGood
    distinct := hu ▸ start.distinct }

/-- The steps that leave the directories alone. -/
theorem Inv.of_good {s s' : UpdatedRun} (h : s.Inv) (hdirs : s'.dirs = s.dirs)
    (hclock : s.clock ≤ s'.clock) (hfits : s'.clock < 2 ^ 32)
    (hgood : ∀ min max records, max < s.clock →
      Faithful s.db min max records → Faithful s'.db min max records) :
    s'.Inv where
  begun := h.begun.trans_le hclock
  fits := hfits
  hold := by rw [hdirs]; exact h.hold
  snapshots := by
    rw [hdirs]
    intro f hf
    have hf' := h.snapshots f hf
    exact ⟨hf'.past.trans_le hclock, hgood _ _ _ hf'.past hf'.faithful⟩
  updates := by
    rw [hdirs]
    intro f hf
    have hf' := h.updates f hf
    exact ⟨hf'.window, hf'.past.trans_le hclock,
      hgood _ _ _ hf'.past hf'.faithful⟩
  distinct := by rw [hdirs]; exact h.distinct

theorem inv_tick {s s' : UpdatedRun} (h : s.Inv)
    (hstep : s.step .tick = some s') : s'.Inv := by
  have hbegun := h.begun
  have hfits := h.fits
  have hnow : TenDigits (s.clock - 1) := ⟨by omega, by omega⟩
  obtain ⟨dirs', snapshots', updates', hticked, htick⟩ :=
    Updated.snapshot_ticked h.hold s.db hnow
      (fun f hf => Nat.le_sub_one_of_lt (h.snapshots f hf).past)
      (fun f hf => Nat.le_sub_one_of_lt (h.updates f hf).past)
  rw [step, hticked] at hstep
  obtain rfl := Option.some.inj hstep
  obtain ⟨hs, hu⟩ := htick.hold.files_eq
  have hpast : s.clock - 1 < s.clock := by omega
  exact {
    begun := h.begun
    fits := h.fits
    hold := by
      change dirs'.Hold dirs'.snapshotFiles dirs'.updateFiles
      rw [hs, hu]
      exact htick.hold
    snapshots := by
      change ∀ f ∈ dirs'.snapshotFiles, _
      rw [hs]
      intro f hf
      rcases htick.fromSnapshots f hf with hold | rfl
      · exact h.snapshots f hold
      · exact ⟨hpast, Faithful.window _ _ _⟩
    updates := by
      change ∀ f ∈ dirs'.updateFiles, _
      rw [hu]
      intro f hf
      rcases htick.fromUpdates f hf with hold | ⟨start, hle, rfl⟩
      · exact h.updates f hold
      · exact ⟨hle, hpast, Faithful.window _ _ _⟩
    distinct := by
      change Updated.DistinctNames dirs'.updateFiles
      rw [hu]
      exact htick.distinct h.distinct }

theorem inv_step (start : UpdatedStart) :
    (updatedSystem start).Preserves Inv fun _ _ => True := by
  intro s s' event h _ hstep
  change s.step event = some s' at hstep
  cases event with
  | record hash r =>
      rw [step] at hstep
      split at hstep
      · rename_i hstamp
        obtain rfl := Option.some.inj hstep
        exact h.of_good rfl le_rfl h.fits fun min max records hpast hf =>
          hf.insert hash (hstamp ▸ hpast)
      · cases hstep
  | delete hash =>
      obtain rfl := Option.some.inj hstep
      exact h.of_good rfl le_rfl h.fits fun min max records _ hf =>
        hf.erase hash
  | wait seconds =>
      rw [step] at hstep
      split at hstep
      · rename_i hfits
        obtain rfl := Option.some.inj hstep
        exact h.of_good rfl (Nat.le_add_right _ _) hfits
          fun min max records _ hf => hf
      · cases hstep
  | tick => exact inv_tick h hstep

/-- Over any history every file on disk is true to the master. -/
theorem run_inv {start : UpdatedStart} {events : List UpdatedEvent}
    {s : UpdatedRun} (hrun : (updatedSystem start).run events = some s) :
    s.Inv :=
  (updatedSystem start).run_invariant (inv_init start) (inv_step start) hrun

end UpdatedRun

end BohunoPyzord
