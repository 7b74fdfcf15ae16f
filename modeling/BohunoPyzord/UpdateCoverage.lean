/-
What the updates on disk cover over any sequence of ticks.  Expiring updates
and publishing snapshots keep every snapshot on disk covered up to the latest
window end, and so does an update that starts where the last one ended.  One
that starts at the newest snapshot, no update being left, covers that one only.
-/
import BohunoPyzord.ArchiveTimes
import BohunoPyzord.TimeWindows

namespace BohunoPyzord

/-- The times on disk at a time `now`: they are named by ten digits and lie in
the past, and the latest window that was ever published is still on disk or
ended before the last second. -/
structure Archived (marks : Set Nat) (windows : Set (Nat × Nat))
    (published now : Nat) : Prop where
  marksNamed : ∀ m ∈ marks, TenDigits m
  marksPast : ∀ m ∈ marks, m < now
  windowsNamed : ∀ w ∈ windows, TenDigits w.1 ∧ TenDigits w.2
  windowsPublished : ∀ w ∈ windows, w.1 ≤ w.2 ∧ w.2 ≤ published
  publishedPast : published = 0 ∨ published < now
  latest : published = 0 ∨ published + 1 < now ∨
    ∃ w ∈ windows, w.2 = published
  covers : TimeWindows.Covers marks windows published

namespace Archived

variable {marks marks' : Set Nat} {windows windows' : Set (Nat × Nat)}
  {published now : Nat}

theorem later (h : Archived marks windows published now) {now' : Nat}
    (hnow : now ≤ now') : Archived marks windows published now' where
  marksNamed := h.marksNamed
  marksPast m hm := (h.marksPast m hm).trans_le hnow
  windowsNamed := h.windowsNamed
  windowsPublished := h.windowsPublished
  publishedPast := h.publishedPast.imp_right fun hlt => hlt.trans_le hnow
  latest := h.latest.imp_right fun hlast =>
    hlast.imp_left fun hlt => hlt.trans_le hnow
  covers := h.covers

/-- Snapshots are removed, and updates that end before all that are left. -/
theorem expire (h : Archived marks windows published now)
    (hmarks : marks' ⊆ marks) (hwindows : windows' ⊆ windows)
    (hneeded : ∀ w ∈ windows, ∀ m ∈ marks', m ≤ w.2 → w ∈ windows')
    (hdropped : ∀ w ∈ windows, w ∈ windows' ∨ ∃ m ∈ marks', w.2 < m) :
    Archived marks' windows' published now where
  marksNamed m hm := h.marksNamed m (hmarks hm)
  marksPast m hm := h.marksPast m (hmarks hm)
  windowsNamed w hw := h.windowsNamed w (hwindows hw)
  windowsPublished w hw := h.windowsPublished w (hwindows hw)
  publishedPast := h.publishedPast
  latest := by
    rcases h.latest with hzero | hpast | ⟨w, hw, hend⟩
    · exact Or.inl hzero
    · exact Or.inr (Or.inl hpast)
    · rcases hdropped w hw with hkept | ⟨m, hm, hlt⟩
      · exact Or.inr (Or.inr ⟨w, hkept, hend⟩)
      · have hpast := h.marksPast m (hmarks hm)
        exact Or.inr (Or.inl (by omega))
  covers := h.covers.dropEnded hmarks hneeded

/-- A snapshot of the second before is published, or none. -/
theorem publishSnapshot (h : Archived marks windows published now)
    (hmarks : ∀ m ∈ marks', m ∈ marks ∨ (m = now - 1 ∧ TenDigits m)) :
    Archived marks' windows published now where
  marksNamed m hm := (hmarks m hm).elim (h.marksNamed m) And.right
  marksPast m hm := by
    rcases hmarks m hm with hold | ⟨rfl, hdigits⟩
    · exact h.marksPast m hold
    · have hlower := hdigits.lower
      omega
  windowsNamed := h.windowsNamed
  windowsPublished := h.windowsPublished
  publishedPast := h.publishedPast
  latest := h.latest
  covers := by
    have hreach : published ≤ now - 1 := by
      rcases h.publishedPast with hzero | hlt
      · omega
      · omega
    by_cases hdigits : TenDigits (now - 1)
    · have hlower := hdigits.lower
      have hall : TimeWindows.Covers (insert (now - 1) marks) windows
          published := by
        apply h.covers.insertMark hreach
        intro hsame
        rcases h.latest with hzero | hpast | ⟨w, hw, hend⟩
        · omega
        · omega
        · exact ⟨w, hw, (h.windowsPublished w hw).1, hend⟩
      exact fun m hm => hall m ((hmarks m hm).symm.imp_left And.left)
    · intro m hm
      rcases hmarks m hm with hold | ⟨rfl, hnamed⟩
      · exact h.covers m hold
      · exact absurd hnamed hdigits

/-- An update up to the second before is published, from where the last one
ended or from the only snapshot on disk. -/
theorem publishUpdate (h : Archived marks windows published now)
    {start : Nat} (hnow : now < 2 ^ 32) (hnamed : TenDigits start)
    (hpast : start ≤ now - 1) (hwindow : (start, now - 1) ∈ windows')
    (hkept : windows ⊆ windows')
    (hnew : windows' ⊆ insert (start, now - 1) windows)
    (hstart : ∀ m ∈ marks, start ≤ m ∨ start ≤ published) :
    Archived marks windows' (now - 1) now where
  marksNamed := h.marksNamed
  marksPast := h.marksPast
  windowsNamed w hw := by
    rcases hnew hw with rfl | hold
    · have hlower := hnamed.lower
      exact ⟨hnamed, by omega, by omega⟩
    · exact h.windowsNamed w hold
  windowsPublished w hw := by
    rcases hnew hw with rfl | hold
    · exact ⟨hpast, le_rfl⟩
    · obtain ⟨hle, hend⟩ := h.windowsPublished w hold
      rcases h.publishedPast with hzero | hlt
      · exact ⟨hle, by omega⟩
      · exact ⟨hle, by omega⟩
  publishedPast := by
    have hlower := hnamed.lower
    omega
  latest := Or.inr (Or.inr ⟨_, hwindow, rfl⟩)
  covers := h.covers.extend hwindow hkept hstart

end Archived

/-- A tick: when it runs, the database it reads from, and what fails. -/
structure ExporterTick where
  now : Nat
  d : ClientDatabase
  stored : Database
  fails : Option PublishStep
  throws : Bool

/-- The exporter between its ticks; `published` is the largest window end it
ever published. -/
structure ExporterRun where
  clock : Nat
  dirs : Directories
  published : Nat

namespace ExporterRun

/-- Ticks run at times that do not decrease and that `boost::uint32_t` holds. -/
def step (index : TimeIndex) (s : ExporterRun) (t : ExporterTick) :
    Option ExporterRun :=
  if s.clock ≤ t.now ∧ t.now < 2 ^ 32 then
    match Updated.snapshot t.d t.stored
        (t.d.dumpModifiedRecords2 index t.stored) s.dirs t.now t.fails
        t.throws with
    | .ok dirs => some
        { clock := t.now, dirs
          published := max s.published
            (latestOf (dirs.updateFiles.map UpdateFile.max)) }
    | .error _ => none
  else none

/-- From every snapshot on disk on, each second up to the largest window end
ever published lies in the window of an update on disk. -/
def Covered (s : ExporterRun) : Prop :=
  TimeWindows.Covers s.dirs.marks s.dirs.windows s.published

/-- `make_update` does not publish while no update and more than one snapshot
is on disk. -/
def StartsAtOnlySnapshot (s : ExporterRun) (t : ExporterTick) : Prop :=
  t.d.up = true → t.throws = false → ∀ dirs,
    Updated.beforeUpdate t.d t.stored s.dirs t.now t.fails =
      .ok (dirs, false) →
    dirs.windows = ∅ → dirs.marks.Subsingleton

end ExporterRun

/-- The exporter over empty directories. -/
def exporterSystem (index : TimeIndex) :
    StepSystem ExporterRun ExporterTick where
  init :=
    { clock := 0, dirs := { snapshots := [], current := none, updates := [] }
      published := 0 }
  step := ExporterRun.step index

namespace ExporterRun

variable {index : TimeIndex} {s s' : ExporterRun} {t : ExporterTick}

def Inv (s : ExporterRun) : Prop :=
  Archived s.dirs.marks s.dirs.windows s.published s.clock

theorem step_cases (h : s.step index t = some s') :
    s.clock ≤ t.now ∧ t.now < 2 ^ 32 ∧
      Updated.snapshot t.d t.stored
        (t.d.dumpModifiedRecords2 index t.stored) s.dirs t.now t.fails
        t.throws = .ok s'.dirs ∧
      s'.clock = t.now ∧ s'.published = max s.published
        (latestOf (s'.dirs.updateFiles.map UpdateFile.max)) := by
  unfold step at h
  split_ifs at h with hnow
  split at h
  · rename_i dirs hdirs
    obtain rfl := Option.some.inj h
    exact ⟨hnow.1, hnow.2, hdirs, rfl, rfl⟩
  · cases h

/-- The end of a window is what the largest end becomes, if no window on disk
ends later. -/
theorem published_eq {dirs : Directories} {published last : Nat}
    (hends : ∀ w ∈ dirs.windows, w.2 ≤ last) (hle : published ≤ last)
    (hlast : published = last ∨ ∃ w ∈ dirs.windows, w.2 = last) :
    max published (latestOf (dirs.updateFiles.map UpdateFile.max)) = last := by
  have hbound : latestOf (dirs.updateFiles.map UpdateFile.max) ≤ last := by
    apply latestOf_le
    intro t ht
    obtain ⟨f, hf, rfl⟩ := List.mem_map.mp ht
    exact hends (f.min, f.max)
      (Directories.mem_windows.mpr (List.mem_map_of_mem hf))
  rcases hlast with rfl | ⟨w, hw, rfl⟩
  · exact max_eq_left hbound
  · obtain ⟨f, hf, rfl⟩ := List.mem_map.mp (Directories.mem_windows.mp hw)
    have hmem : f.max ≤ latestOf (dirs.updateFiles.map UpdateFile.max) :=
      le_latestOf (List.mem_map_of_mem hf)
    exact le_antisymm (max_le hle hbound) (hmem.trans (le_max_right _ _))

/-- The part of a tick before `make_update` keeps what is covered. -/
theorem beforeUpdate_archived (h : s.Inv) (hnow : s.clock ≤ t.now)
    {dirs : Directories} {created : Bool}
    (hbefore : Updated.beforeUpdate t.d t.stored s.dirs t.now t.fails =
      .ok (dirs, created)) :
    Archived dirs.marks dirs.windows s.published t.now := by
  obtain ⟨⟨dirs₁, removed⟩, hsnapshots, hbefore⟩ := bind_eq_ok hbefore
  obtain ⟨hmarks, hwindows⟩ := Updated.expireSnapshots_marks hsnapshots
  have hfirst : Archived dirs₁.marks dirs₁.windows s.published t.now := by
    rw [hwindows]
    exact (h.later hnow).expire hmarks subset_rfl
      (fun w hw _ _ _ => hw) fun w hw => Or.inl hw
  cases removed with
  | false =>
      obtain ⟨hsame, hnew⟩ := Updated.makeSnapshot_marks hbefore
      exact hsame ▸ hfirst.publishSnapshot hnew
  | true =>
      obtain ⟨dirs₂, hupdates, hbefore⟩ := bind_eq_ok hbefore
      obtain ⟨hkept, hfewer, hneeded, hdropped⟩ :=
        Updated.expireUpdates_windows hupdates
      obtain ⟨hsame, hnew⟩ := Updated.makeSnapshot_marks hbefore
      have hsecond : Archived dirs₂.marks dirs₂.windows s.published
          t.now := by
        rw [hkept]
        exact hfirst.expire subset_rfl hfewer hneeded hdropped
      exact hsame ▸ hsecond.publishSnapshot hnew

/-- What is published is left alone by a tick that publishes no update. -/
theorem inv_of_archived {dirs : Directories}
    (h : Archived dirs.marks dirs.windows s.published t.now)
    (hdirs : s'.dirs = dirs) (hclock : s'.clock = t.now)
    (hpublished : s'.published = max s.published
      (latestOf (s'.dirs.updateFiles.map UpdateFile.max))) : s'.Inv := by
  rw [Inv, hclock, hpublished, hdirs, published_eq
    (fun w hw => (h.windowsPublished w hw).2) le_rfl (Or.inl rfl)]
  exact h

/-- Where an update starts, if more than one snapshot is on disk only next to
an update. -/
theorem start_spec {dirs : Directories}
    (h : Archived dirs.marks dirs.windows s.published t.now) {start : Nat}
    (hstart : Updated.updateStart dirs = .ok start) (hne : start ≠ 0)
    (honly : dirs.windows = ∅ → dirs.marks.Subsingleton) :
    TenDigits start ∧ start ≤ t.now - 1 ∧
      ∀ m ∈ dirs.marks, start ≤ m ∨ start ≤ s.published := by
  rcases Updated.updateStart_spec hstart with
    ⟨w, hw, rfl⟩ | ⟨hnone, -, hon⟩
  · obtain ⟨-, hend⟩ := h.windowsPublished w hw
    have hnamed := (h.windowsNamed w hw).2
    have hlower := hnamed.lower
    have hpast := h.publishedPast
    exact ⟨hnamed, by omega, fun m _ => Or.inr hend⟩
  · have hempty : dirs.windows = ∅ := by
      apply Set.eq_empty_of_forall_notMem
      intro w hw
      have hlower := (h.windowsNamed w hw).2.lower
      rw [hnone w hw] at hlower
      omega
    have hmem := hon hne
    have hpast := h.marksPast start hmem
    refine ⟨h.marksNamed start hmem, by omega, fun m hm => ?_⟩
    exact Or.inl (honly hempty hmem hm).le

/-- The update that is published is the latest. -/
theorem inv_of_publish {dirs : Directories}
    (h : Archived dirs.marks dirs.windows s.published t.now)
    (hfits : t.now < 2 ^ 32) {start : Nat} {dump : Dump}
    (hnamed : TenDigits start) (hpast : start ≤ t.now - 1)
    (hfrom : ∀ m ∈ dirs.marks, start ≤ m ∨ start ≤ s.published)
    (hdirs : s'.dirs = { dirs with
      updates := publish dirs.updates (updateName start (t.now - 1)) dump })
    (hclock : s'.clock = t.now)
    (hpublished : s'.published = max s.published
      (latestOf (s'.dirs.updateFiles.map UpdateFile.max))) : s'.Inv := by
  have hlower := hnamed.lower
  have hfinish : TenDigits (t.now - 1) := ⟨by omega, by omega⟩
  obtain ⟨hwindow, hkept, hnew⟩ :=
    Updated.windows_publish hnamed hfinish dirs dump
  rw [← hdirs] at hwindow hkept hnew
  have hmarks : s'.dirs.marks = dirs.marks := by rw [hdirs]; rfl
  have harchived := h.publishUpdate hfits hnamed hpast hwindow hkept hnew hfrom
  have hreach := h.publishedPast
  rw [Inv, hclock, hpublished, hmarks, published_eq
    (fun w hw => (harchived.windowsPublished w hw).2) (by omega)
    (Or.inr ⟨_, hwindow, rfl⟩)]
  exact harchived

/-- One step: within the guard a tick leaves everything covered. -/
theorem inv_step :
    (exporterSystem index).Preserves Inv StartsAtOnlySnapshot := by
  intro s s' t h hguard hstep
  obtain ⟨hclock, hfits, hsnapshot, hclock', hpublished⟩ := step_cases hstep
  rcases Updated.snapshot_cases hsnapshot with
    ⟨-, hsame⟩ | ⟨hup, dirs, created, hbefore, hrest⟩
  · exact inv_of_archived (h.later hclock) hsame hclock' hpublished
  · have harchived := beforeUpdate_archived h hclock hbefore
    rcases hrest with ⟨-, hdirs⟩ | ⟨hcreated, hupdate⟩
    · exact inv_of_archived harchived hdirs hclock' hpublished
    · obtain ⟨start, hstart, ⟨hsame, -⟩ | ⟨hthrows, hne, dump, hdirs⟩⟩ :=
        Updated.makeUpdate_windows hupdate
      · exact inv_of_archived harchived hsame hclock' hpublished
      · obtain ⟨hnamed, hpast, hfrom⟩ := start_spec harchived hstart hne
          (hguard hup hthrows dirs (hcreated ▸ hbefore))
        exact inv_of_publish harchived hfits hnamed hpast hfrom hdirs hclock'
          hpublished

/-- An update that starts at the newest of several snapshots leaves the others
uncovered. -/
theorem not_covered_of_publish (h : s.Inv)
    (hstep : s.step index t = some s')
    (hgap : ¬ s.StartsAtOnlySnapshot t) : ¬ s'.Covered := by
  obtain ⟨hclock, hfits, hsnapshot, -, hpublished⟩ := step_cases hstep
  unfold StartsAtOnlySnapshot at hgap
  push Not at hgap
  obtain ⟨hup, hthrows, dirs, hbefore, hempty, hseveral⟩ := hgap
  obtain ⟨m, hm, m', hm', hlt⟩ := hseveral.exists_lt
  have harchived := beforeUpdate_archived h hclock hbefore
  have hupdate : Updated.makeUpdate
      (t.d.dumpModifiedRecords2 index t.stored) dirs t.now t.throws =
        .ok s'.dirs := by
    rcases Updated.snapshot_cases hsnapshot with
      ⟨hdown, -⟩ | ⟨-, dirs₁, created, hbefore₁, hrest⟩
    · rw [hup] at hdown
      cases hdown
    · obtain ⟨rfl, rfl⟩ := Prod.mk.inj
        (Except.ok.inj (hbefore.symm.trans hbefore₁))
      rcases hrest with ⟨hcreated, -⟩ | ⟨-, hupdate⟩
      · cases hcreated
      · exact hupdate
  obtain ⟨start, hstart, hmade⟩ := Updated.makeUpdate_windows hupdate
  rcases Updated.updateStart_spec hstart with
    ⟨w, hw, -⟩ | ⟨-, hlatest, hon⟩
  · rw [hempty] at hw
    cases hw
  · have hlower := (harchived.marksNamed m' hm').lower
    have hle := hlatest m' hm'
    have hne : start ≠ 0 := by omega
    rcases hmade with ⟨-, hthrew | hzero⟩ | ⟨-, -, dump, hdirs⟩
    · rw [hthrows] at hthrew
      cases hthrew
    · exact absurd hzero hne
    · have hnamed := harchived.marksNamed start (hon hne)
      have hpast := harchived.marksPast start (hon hne)
      have hfinish : TenDigits (t.now - 1) := by
        have hstartLower := hnamed.lower
        exact ⟨by omega, by omega⟩
      obtain ⟨hwindow, -, hnew⟩ :=
        Updated.windows_publish hnamed hfinish dirs dump
      rw [← hdirs] at hwindow hnew
      obtain ⟨f, hf, hend⟩ := List.mem_map.mp
        (Directories.mem_windows.mp hwindow)
      have hmax : f.max = t.now - 1 := congrArg Prod.snd hend
      have hreach : m ≤ s'.published := by
        have hlast : f.max ≤
            latestOf (s'.dirs.updateFiles.map UpdateFile.max) :=
          le_latestOf (List.mem_map_of_mem hf)
        rw [hpublished]
        omega
      have hmark : m ∈ s'.dirs.marks := by
        rw [hdirs]
        exact hm
      apply TimeWindows.not_covers_of_gap hmark hreach
      intro w hw
      rcases hnew hw with rfl | hold
      · exact hlt.trans_le hle
      · rw [hempty] at hold
        cases hold

end ExporterRun

/-- The runs in which the updates on disk always reach from every snapshot on
disk to the largest window end ever published are exactly the runs in which no
update is published while there is none and several snapshots are on disk. -/
theorem exporter_covered_iff (index : TimeIndex)
    (ticks : List ExporterTick) :
    (exporterSystem index).Always ExporterRun.Covered ticks ↔
      (exporterSystem index).Each ExporterRun.StartsAtOnlySnapshot ticks := by
  have hinit : (exporterSystem index).init.Inv := {
    marksNamed := by rintro m ⟨file, hfile, -⟩; cases hfile
    marksPast := by rintro m ⟨file, hfile, -⟩; cases hfile
    windowsNamed := by rintro w ⟨file, hfile, -⟩; cases hfile
    windowsPublished := by rintro w ⟨file, hfile, -⟩; cases hfile
    publishedPast := Or.inl rfl
    latest := Or.inl rfl
    covers := by rintro m ⟨file, hfile, -⟩; cases hfile }
  exact (exporterSystem index).always_iff_each hinit ExporterRun.inv_step
    (fun _ h => h.covers) ExporterRun.not_covered_of_publish ticks

/-- Ticks hours apart, at which nothing fails: one update between the first two
snapshots, none between the second and the third, and then the first snapshot
expires and the update with it. -/
def hoursApart : List ExporterTick :=
  [1200000000, 1200000300, 1200014400, 1200028800, 1200036300].map fun now =>
    { now, d := ClientDatabase.opened, stored := ∅, fails := none
      throws := false }

theorem exporter_not_always_covered :
    ¬ ∀ index ticks,
      (exporterSystem index).Always ExporterRun.Covered ticks := by
  intro h
  let M := exporterSystem TimeIndex.stable
  have hends : (M.run hoursApart).any (fun s =>
      1200014399 ∈ s.dirs.snapshotFiles.map SnapshotFile.timestamp ∧
        1200014399 ≤ s.published ∧
        ∀ f ∈ s.dirs.updateFiles, 1200014399 < f.min) = true := by
    decide +kernel
  obtain ⟨s, hrun, hleft⟩ := (Option.any_eq_true _ _).mp hends
  obtain ⟨hmark, hreach, hlater⟩ := of_decide_eq_true hleft
  have hcovered := M.alwaysFrom_iff.mp (h TimeIndex.stable hoursApart)
    hoursApart s List.prefix_rfl hrun
  refine TimeWindows.not_covers_of_gap (Directories.mem_marks.mpr hmark)
    hreach (fun w hw => ?_) hcovered
  obtain ⟨f, hf, rfl⟩ := List.mem_map.mp (Directories.mem_windows.mp hw)
  exact hlater f hf

end BohunoPyzord
