/-
The two directories as what they stand for: snapshots with a timestamp and
updates with a window.  On files that the exporter named, its scans of names
compute what they are meant to.
-/
import BohunoPyzord.Updated

namespace BohunoPyzord

/-- A snapshot and an update by what their names say. -/
structure SnapshotFile where
  timestamp : Nat
  records : Dump
deriving DecidableEq, Repr

structure UpdateFile where
  min : Nat
  max : Nat
  records : Dump
deriving DecidableEq, Repr

def SnapshotFile.file (f : SnapshotFile) : FileName × Dump :=
  (timestampName f.timestamp, f.records)

def UpdateFile.file (f : UpdateFile) : FileName × Dump :=
  (updateName f.min f.max, f.records)

/-- The times in the name have ten digits. -/
def SnapshotFile.Named (f : SnapshotFile) : Prop := TenDigits f.timestamp

def UpdateFile.Named (f : UpdateFile) : Prop :=
  TenDigits f.min ∧ TenDigits f.max

/-- The latest of the given times, or zero. -/
def latestOf (times : List Nat) : Nat := times.foldl max 0

theorem foldl_max_eq (times : List Nat) (start : Nat) :
    times.foldl max start = max start (latestOf times) := by
  induction times generalizing start with
  | nil => simp [latestOf]
  | cons t times ih =>
      rw [latestOf, List.foldl_cons, List.foldl_cons, ih, ih (max 0 t)]
      omega

@[simp] theorem latestOf_nil : latestOf [] = 0 := rfl

@[simp] theorem latestOf_cons (t : Nat) (times : List Nat) :
    latestOf (t :: times) = max t (latestOf times) := by
  rw [latestOf, List.foldl_cons, foldl_max_eq]
  omega

theorem latestOf_append (first second : List Nat) :
    latestOf (first ++ second) = max (latestOf first) (latestOf second) := by
  rw [latestOf, List.foldl_append, foldl_max_eq]
  rfl

theorem latestOf_le {times : List Nat} {bound : Nat}
    (h : ∀ t ∈ times, t ≤ bound) : latestOf times ≤ bound := by
  induction times with
  | nil => exact Nat.zero_le _
  | cons t times ih =>
      rw [latestOf_cons]
      exact max_le (h t List.mem_cons_self)
        (ih fun s hs => h s (List.mem_cons_of_mem t hs))

theorem le_latestOf {times : List Nat} {t : Nat} (h : t ∈ times) :
    t ≤ latestOf times := by
  induction times with
  | nil => cases h
  | cons s times ih =>
      rw [latestOf_cons]
      rcases List.mem_cons.mp h with rfl | hmem
      · exact le_max_left _ _
      · exact (ih hmem).trans (le_max_right _ _)

theorem foldlM_eq_ok {α β : Type} {f : β → α → Except TickFailure β}
    {g : β → α → β} {l : List α} (h : ∀ b, ∀ a ∈ l, f b a = .ok (g b a))
    (b : β) : l.foldlM f b = .ok (l.foldl g b) := by
  induction l generalizing b with
  | nil => rfl
  | cons a l ih =>
      rw [List.foldlM_cons, h b a List.mem_cons_self]
      exact ih (fun b' a' ha' => h b' a' (List.mem_cons_of_mem a ha')) (g b a)

namespace Updated

theorem snd_foldl_moreRecent (files : List SnapshotFile)
    (best : FileName × Nat) :
    (files.foldl (fun best f => if f.timestamp > best.2
      then (timestampName f.timestamp, f.timestamp) else best) best).2 =
      max best.2 (latestOf (files.map SnapshotFile.timestamp)) := by
  induction files generalizing best with
  | nil => simp
  | cons f files ih =>
      rw [List.foldl_cons, ih, List.map_cons, latestOf_cons]
      split <;> omega

/-- The scan for the most recent snapshot finds the latest timestamp. -/
theorem findMostRecentSnapshot_eq {files : List SnapshotFile}
    (h : ∀ f ∈ files, f.Named) :
    ∃ best, findMostRecentSnapshot (files.map SnapshotFile.file) = .ok best ∧
      (best.map Prod.snd).getD 0 =
        latestOf (files.map SnapshotFile.timestamp) := by
  have hscan : (files.map SnapshotFile.file).foldlM moreRecentSnapshot
      ([], 0) = .ok (files.foldl (fun best f => if f.timestamp > best.2
        then (timestampName f.timestamp, f.timestamp) else best) ([], 0)) := by
    rw [List.foldlM_map]
    refine foldlM_eq_ok (fun best f hf => ?_) _
    have hparse := parseSnapshotFileName_timestampName (h f hf)
    simp only [moreRecentSnapshot, SnapshotFile.file, hparse]
    exact (apply_ite _ _ _ _).symm
  have hlast := snd_foldl_moreRecent files ([], 0)
  rw [findMostRecentSnapshot, hscan]
  refine ⟨_, rfl, ?_⟩
  split
  · simpa using hlast
  · rename_i hzero
    have hzero' := not_not.mp hzero
    rw [hzero'] at hlast
    simpa using hlast

theorem snd_foldl_moreRecentUpdate (files : List UpdateFile)
    (best : FileName × Nat × Nat) :
    (files.foldl (fun best f => if f.max > best.2.2
      then (updateName f.min f.max, f.min, f.max) else best) best).2.2 =
      max best.2.2 (latestOf (files.map UpdateFile.max)) := by
  induction files generalizing best with
  | nil => simp
  | cons f files ih =>
      rw [List.foldl_cons, ih, List.map_cons, latestOf_cons]
      split
      · dsimp only
        omega
      · omega

/-- The scan for the most recent update finds the latest window end. -/
theorem findMostRecentUpdate_eq {files : List UpdateFile}
    (h : ∀ f ∈ files, f.Named) :
    ∃ best, findMostRecentUpdate (files.map UpdateFile.file) = .ok best ∧
      (best.map fun b => b.2.2).getD 0 =
        latestOf (files.map UpdateFile.max) ∧
      (best = none ↔ files = []) := by
  have hscan : (files.map UpdateFile.file).foldlM moreRecentUpdate
      ([], 0, 0) = .ok (files.foldl (fun best f => if f.max > best.2.2
        then (updateName f.min f.max, f.min, f.max) else best)
          ([], 0, 0)) := by
    rw [List.foldlM_map]
    refine foldlM_eq_ok (fun best f hf => ?_) _
    have hparse := parseUpdateFileName_updateName (h f hf).1 (h f hf).2
    simp only [moreRecentUpdate, UpdateFile.file, hparse]
    exact (apply_ite _ _ _ _).symm
  have hlast := snd_foldl_moreRecentUpdate files ([], 0, 0)
  have hlatest : latestOf (files.map UpdateFile.max) = 0 ↔ files = [] := by
    constructor
    · intro hzero
      cases files with
      | nil => rfl
      | cons f files =>
          have hlower := (h f List.mem_cons_self).2.lower
          rw [List.map_cons, latestOf_cons] at hzero
          omega
    · rintro rfl
      rfl
  rw [findMostRecentUpdate, hscan]
  refine ⟨_, rfl, ?_⟩
  split
  · rename_i hne
    refine ⟨by simpa using hlast, ?_⟩
    have hsome : files ≠ [] := fun hnil => hne (by simp [hnil])
    simp [hsome]
  · rename_i hzero
    have hzero' := not_not.mp hzero
    rw [hzero'] at hlast
    refine ⟨by simpa using hlast, ?_⟩
    have hnone : files = [] := hlatest.mp (by simpa using hlast.symm)
    simp [hnone]

/-- Where the next update starts, given what is on disk. -/
def nextStart (snapshots : List SnapshotFile) (updates : List UpdateFile) :
    Nat :=
  if updates = [] then latestOf (snapshots.map SnapshotFile.timestamp)
  else latestOf (updates.map UpdateFile.max)

theorem updateStart_eq {snapshots : List SnapshotFile}
    {updates : List UpdateFile} (hsnapshots : ∀ f ∈ snapshots, f.Named)
    (hupdates : ∀ f ∈ updates, f.Named) {dirs : Directories}
    (hs : dirs.snapshots = snapshots.map SnapshotFile.file)
    (hu : dirs.updates = updates.map UpdateFile.file) :
    updateStart dirs = .ok (nextStart snapshots updates) := by
  obtain ⟨best, hbest, hend, hnone⟩ := findMostRecentUpdate_eq hupdates
  obtain ⟨recent, hrecent, htimestamp⟩ := findMostRecentSnapshot_eq hsnapshots
  rw [updateStart, hu, hbest, hs, hrecent, nextStart]
  cases best with
  | none =>
      rw [if_pos (hnone.mp rfl), ← htimestamp]
      cases recent <;> rfl
  | some best =>
      have hsome : updates ≠ [] := fun hnil =>
        Option.some_ne_none best (hnone.mpr hnil)
      rw [if_neg hsome, ← hend]
      rfl

/-- Publishing a file replaces the one of the same name. -/
theorem publish_map {F : Type} (file : F → FileName × Dump) (files : List F)
    (f : F) : publish (files.map file) (file f).1 (file f).2 =
      (files.filter (fun g => (file g).1 ≠ (file f).1) ++ [f]).map file := by
  rw [publish, List.map_append, List.filter_map]
  rfl

/-- The update that ends last is where the next one starts. -/
theorem nextStart_append (snapshots : List SnapshotFile)
    {updates : List UpdateFile} {f : UpdateFile}
    (h : ∀ g ∈ updates, g.max ≤ f.max) :
    nextStart snapshots (updates ++ [f]) = f.max := by
  have hle : latestOf (updates.map UpdateFile.max) ≤ f.max := by
    apply latestOf_le
    intro t ht
    obtain ⟨g, hg, rfl⟩ := List.mem_map.mp ht
    exact h g hg
  simp only [nextStart, List.append_eq_nil_iff, List.cons_ne_self, and_false,
    ↓reduceIte, List.map_append, List.map_cons, List.map_nil,
    latestOf_append, latestOf_cons, latestOf_nil]
  omega

theorem le_nextStart (snapshots : List SnapshotFile)
    {updates : List UpdateFile} {g : UpdateFile} (hg : g ∈ updates) :
    g.max ≤ nextStart snapshots updates := by
  rw [nextStart, if_neg (List.ne_nil_of_mem hg)]
  exact le_latestOf (List.mem_map_of_mem hg)

/-- `make_update` publishes the window from where the last file ends to the
second before the tick. -/
theorem makeUpdate_eq {snapshots : List SnapshotFile}
    {updates : List UpdateFile} (hsnapshots : ∀ f ∈ snapshots, f.Named)
    (hupdates : ∀ f ∈ updates, f.Named) {dirs : Directories}
    (hs : dirs.snapshots = snapshots.map SnapshotFile.file)
    (hu : dirs.updates = updates.map UpdateFile.file)
    (dump2 : Nat → Nat → Except TickFailure Dump) (currentTime : Nat)
    {f : UpdateFile} (hf : f.Named)
    (hmin : f.min = nextStart snapshots updates)
    (hmax : f.max = currentTime - 1)
    (hdump : dump2 f.min f.max = .ok f.records) :
    makeUpdate dump2 dirs currentTime false = .ok { dirs with
      updates := (updates.filter (fun g => g.file.1 ≠ f.file.1) ++
        [f]).map UpdateFile.file } := by
  have hpos : f.min ≠ 0 := by
    have hlower := hf.1.lower
    omega
  rw [makeUpdate, updateStart_eq hsnapshots hupdates hs hu, ← hmin]
  change (if f.min ≠ 0 then _ else _) = _
  rw [if_pos hpos, ← hmax, hdump, hu]
  change Except.ok { dirs with updates := publish _ f.file.1 f.file.2 } = _
  rw [publish_map]

end Updated

/-- Directories that hold exactly the given files. -/
structure Directories.Hold (dirs : Directories)
    (snapshots : List SnapshotFile) (updates : List UpdateFile) : Prop where
  inSnapshots : dirs.snapshots = snapshots.map SnapshotFile.file
  inUpdates : dirs.updates = updates.map UpdateFile.file
  snapshotsNamed : ∀ f ∈ snapshots, f.Named
  updatesNamed : ∀ f ∈ updates, f.Named

theorem filterM_map_eq_ok {α β : Type} (g : α → β)
    {f : β → Except TickFailure Bool} {p : α → Bool} {l : List α}
    (h : ∀ a ∈ l, f (g a) = .ok (p a)) :
    (l.map g).filterM f = .ok ((l.filter p).map g) := by
  have along : ∀ (l : List α) (acc : List β), (∀ a ∈ l, f (g a) = .ok (p a)) →
      (l.map g).filterAuxM f acc =
        .ok (((l.filter p).map g).reverse ++ acc) := by
    intro l
    induction l with
    | nil => exact fun acc _ => rfl
    | cons a l ih =>
        intro acc hl
        have hrest := ih (bif p a then g a :: acc else acc)
          fun b hb => hl b (List.mem_cons_of_mem a hb)
        rw [List.map_cons, List.filterAuxM, hl a List.mem_cons_self]
        refine hrest.trans (congrArg Except.ok ?_)
        cases hp : p a <;> simp [hp]
  rw [List.filterM, along l [] h]
  change Except.ok (List.reverse _) = _
  simp

namespace Updated

variable {dirs : Directories} {snapshots : List SnapshotFile}
  {updates : List UpdateFile}

/-- Expiring snapshots leaves some of them, and the updates. -/
theorem expireSnapshots_spec (h : dirs.Hold snapshots updates) (now : Nat) :
    ∃ dirs' removed kept, expireSnapshots dirs now = .ok (dirs', removed) ∧
      dirs'.Hold kept updates ∧ kept.Sublist snapshots := by
  let keep : SnapshotFile → Bool := fun f =>
    !decide (f.timestamp < (snapshotExpireTime now).toNat)
  have hkeep : ∀ f ∈ snapshots, keepSnapshot
      (snapshotExpireTime now).toNat f.file = .ok (keep f) := by
    intro f hf
    have hparse := parseSnapshotFileName_timestampName (h.snapshotsNamed f hf)
    simp only [keepSnapshot, SnapshotFile.file, hparse]
    rfl
  have hfilter := filterM_map_eq_ok SnapshotFile.file hkeep
  let kept := (snapshots.filter keep).map SnapshotFile.file
  refine ⟨{ dirs with snapshots := kept },
    decide (kept.length < dirs.snapshots.length), snapshots.filter keep,
    ?_, ?_, List.filter_sublist⟩
  · change ((dirs.snapshots.filterM _) >>= _) = _
    rw [h.inSnapshots, hfilter]
    rfl
  · exact ⟨rfl, h.inUpdates,
      fun f hf => h.snapshotsNamed f (List.mem_of_mem_filter hf),
      h.updatesNamed⟩

/-- The scan for the oldest snapshot meets no name it cannot read. -/
theorem findOldestSnapshot_ok (h : dirs.Hold snapshots updates) :
    ∃ oldest, findOldestSnapshot dirs.snapshots = .ok oldest := by
  have hscan : dirs.snapshots.foldlM olderSnapshot ([], 0xffffffff) =
      .ok (snapshots.foldl (fun best f => if f.timestamp < best.2
        then (timestampName f.timestamp, f.timestamp) else best)
          ([], 0xffffffff)) := by
    rw [h.inSnapshots, List.foldlM_map]
    refine foldlM_eq_ok (fun best f hf => ?_) _
    have hparse := parseSnapshotFileName_timestampName (h.snapshotsNamed f hf)
    simp only [olderSnapshot, SnapshotFile.file, hparse]
    exact (apply_ite _ _ _ _).symm
  rw [findOldestSnapshot, hscan]
  exact ⟨_, rfl⟩

/-- Expiring updates leaves some of them, and the snapshots. -/
theorem expireUpdates_spec (h : dirs.Hold snapshots updates) :
    ∃ dirs' kept, expireUpdates dirs = .ok dirs' ∧
      dirs'.Hold snapshots kept ∧ kept.Sublist updates := by
  obtain ⟨oldest, holdest⟩ := findOldestSnapshot_ok h
  rw [expireUpdates, holdest]
  cases oldest with
  | none => exact ⟨dirs, updates, rfl, h, List.Sublist.refl _⟩
  | some oldest =>
      let keep : UpdateFile → Bool := fun f => !decide (f.max < oldest.2)
      have hkeep : ∀ f ∈ updates, keepUpdate oldest.2 f.file = .ok (keep f) := by
        intro f hf
        have hparse := parseUpdateFileName_updateName
          (h.updatesNamed f hf).1 (h.updatesNamed f hf).2
        simp only [keepUpdate, UpdateFile.file, hparse]
        rfl
      refine ⟨{ dirs with updates := (updates.filter keep).map UpdateFile.file },
        updates.filter keep, ?_, ?_, List.filter_sublist⟩
      · change ((dirs.updates.filterM (keepUpdate oldest.2)) >>= _) = _
        rw [h.inUpdates, filterM_map_eq_ok UpdateFile.file hkeep]
        rfl
      · exact ⟨h.inSnapshots, rfl, h.snapshotsNamed,
          fun f hf => h.updatesNamed f (List.mem_of_mem_filter hf)⟩

/-- `make_snapshot` with nothing failing: nothing, if the last snapshot is
recent, and otherwise the records up to the second before the tick. -/
theorem makeSnapshot_eq (h : dirs.Hold snapshots updates)
    {d : ClientDatabase} (hopen : d.HandlesOpen) (stored : Database)
    (currentTime : Nat) {f : SnapshotFile}
    (htimestamp : f.timestamp = currentTime - 1)
    (hrecords : f.records = stored.window 0 f.timestamp) :
    makeSnapshot d stored dirs currentTime none =
      if currentTime - latestOf (snapshots.map SnapshotFile.timestamp) ≥
          snapshotInterval then
        .ok ({ dirs with
          snapshots := (snapshots.filter (fun g => g.file.1 ≠ f.file.1) ++
            [f]).map SnapshotFile.file
          current := some f.records }, true)
      else .ok (dirs, false) := by
  obtain ⟨best, hbest, hlatest⟩ := findMostRecentSnapshot_eq h.snapshotsNamed
  have hdump : d.dumpModifiedRecords stored 0 f.timestamp =
      .ok f.records := by
    rw [ClientDatabase.dumpModifiedRecords, if_pos hopen.2.1, hrecords]
  rw [makeSnapshot, h.inSnapshots, hbest, ← htimestamp, ← hlatest]
  change (if currentTime - (best.map Prod.snd).getD 0 ≥ snapshotInterval
    then _ else _) = _
  refine if_congr Iff.rfl ?_ rfl
  dsimp only
  rw [hdump, ← publish_map]
  change (if _ then _ else _) = _
  simp only [reduceCtorEq, and_false, ↓reduceIte]
  rfl

end Updated

end BohunoPyzord
