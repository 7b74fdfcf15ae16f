/-
`make_snapshot` one file-system call at a time.  A dump is written under a
temporary name and renamed to its own; the hard link `current` has no such step
and is removed before it is made again.
-/
import BohunoPyzord.Updated

namespace BohunoPyzord

/-- A file of records, and whether the dump that wrote it returned. -/
structure DumpFile where
  records : Dump
  whole : Bool
deriving DecidableEq, Repr

/-- `snapshots/`: the temporary files by the name they are for, the snapshots,
and what the hard link `current` names. -/
structure SnapshotFiles where
  tmp : List (FileName × DumpFile)
  snapshots : List (FileName × DumpFile)
  current : Option DumpFile
deriving DecidableEq, Repr

/-- How the calls of the `try` block end: a dump that throws has written some
number of records, each of the others returns or throws. -/
structure PublishCalls where
  dump : Option Nat
  rename : Bool
  exists_ : Bool
  remove : Bool
  createHardLink : Bool
deriving DecidableEq, Repr

namespace SnapshotFiles

/-- A file that is written, or renamed, under a name replaces the one that has
it. -/
def put (files : List (FileName × DumpFile)) (name : FileName)
    (file : DumpFile) : List (FileName × DumpFile) :=
  files.filter (fun other => other.1 ≠ name) ++ [(name, file)]

def drop (files : List (FileName × DumpFile)) (name : FileName) :
    List (FileName × DumpFile) :=
  files.filter fun other => other.1 ≠ name

/-- The directories that the rest of the exporter sees. -/
def directories (dir : SnapshotFiles) (updates : List (FileName × Dump)) :
    Directories :=
  { snapshots := dir.snapshots.map fun file => (file.1, file.2.records)
    current := dir.current.map DumpFile.records
    updates := updates }

/-- The `try` block: the files after it, and whether it reached its end. -/
def publish (dir : SnapshotFiles) (name : FileName) (dump : Dump)
    (calls : PublishCalls) : SnapshotFiles × Bool :=
  match calls.dump with
  | some n =>
      -- the temporary file stays
      ({ dir with tmp := put dir.tmp name ⟨dump.take n, false⟩ }, false)
  | none =>
      let file : DumpFile := ⟨dump, true⟩
      let dir := { dir with tmp := put dir.tmp name file }
      if !calls.rename then (dir, false)
      else
        let dir := { dir with
          tmp := drop dir.tmp name, snapshots := put dir.snapshots name file }
        if !calls.exists_ then (dir, false)
        else if dir.current.isSome && !calls.remove then (dir, false)
        else
          let dir := { dir with current := none }
          if !calls.createHardLink then (dir, false)
          else ({ dir with current := some file }, true)

/-- `make_snapshot`; an exception of the scan, or a call through a `NULL`
handle, comes before any file is touched. -/
def makeSnapshot (d : ClientDatabase) (stored : Database)
    (dir : SnapshotFiles) (currentTime : Nat) (calls : PublishCalls) :
    Except TickFailure (SnapshotFiles × Bool) := do
  let mostRecent ← Updated.findMostRecentSnapshot (dir.directories []).snapshots
  let mostRecentTimestamp := (mostRecent.map Prod.snd).getD 0
  if currentTime - mostRecentTimestamp ≥ Updated.snapshotInterval then
    let timestamp := currentTime - 1
    let dump ← d.dumpModifiedRecords stored 0 timestamp
    pure (dir.publish (timestampName timestamp) dump calls)
  else pure (dir, false)

/-- The call that ends the `try` block early; `remove` is called only if
`current` exists. -/
def firstFailure (dir : SnapshotFiles) (calls : PublishCalls) :
    Option PublishStep :=
  if calls.dump.isSome then some .dump
  else if !calls.rename then some .rename
  else if !calls.exists_ then some .exists
  else if dir.current.isSome && !calls.remove then some .remove
  else if !calls.createHardLink then some .createHardLink
  else none

theorem map_put (files : List (FileName × DumpFile)) (name : FileName)
    (file : DumpFile) :
    (put files name file).map (fun file => (file.1, file.2.records)) =
      BohunoPyzord.publish
        (files.map fun file => (file.1, file.2.records)) name
        file.records := by
  rw [put, BohunoPyzord.publish, List.map_append, List.filter_map]
  rfl

/-- The `try` block as the exporter's model has it: the state after the first
failure. -/
theorem publish_directories (dir : SnapshotFiles)
    (updates : List (FileName × Dump)) (name : FileName) (dump : Dump)
    (calls : PublishCalls) :
    ((dir.publish name dump calls).1.directories updates,
        (dir.publish name dump calls).2) =
      let fails := dir.firstFailure calls
      let dirs := dir.directories updates
      if fails = some .dump ∨ fails = some .rename then (dirs, false)
      else
        let dirs := { dirs with
          snapshots := BohunoPyzord.publish dirs.snapshots name dump }
        if fails = some .exists then (dirs, false)
        else if dirs.current.isSome ∧ fails = some .remove then (dirs, false)
        else
          let dirs := { dirs with current := none }
          if fails = some .createHardLink then (dirs, false)
          else ({ dirs with current := some dump }, true) := by
  obtain ⟨dumped, rename, exists_, remove, createHardLink⟩ := calls
  rw [publish, firstFailure]
  cases dumped with
  | some n => simp [directories]
  | none =>
      cases rename with
      | false => simp [directories]
      | true =>
          cases exists_ with
          | false => simp [directories, map_put]
          | true =>
              cases hcurrent : dir.current <;> cases remove <;>
                cases createHardLink <;> simp [directories, map_put, hcurrent]

/-- Without the temporary files the steps are the exporter's `make_snapshot`
with its first failure. -/
theorem makeSnapshot_directories (d : ClientDatabase) (stored : Database)
    (dir : SnapshotFiles) (updates : List (FileName × Dump))
    (currentTime : Nat) (calls : PublishCalls) :
    (makeSnapshot d stored dir currentTime calls).map
        (fun made => (made.1.directories updates, made.2)) =
      Updated.makeSnapshot d stored (dir.directories updates) currentTime
        (dir.firstFailure calls) := by
  rw [makeSnapshot, Updated.makeSnapshot]
  change _ = Updated.findMostRecentSnapshot (dir.directories []).snapshots >>= _
  cases Updated.findMostRecentSnapshot (dir.directories []).snapshots with
  | error failure => rfl
  | ok mostRecent =>
      change Except.map _ (if _ then _ else _) = if _ then _ else _
      by_cases hdue : currentTime - (mostRecent.map Prod.snd).getD 0 ≥
          Updated.snapshotInterval
      · rw [if_pos hdue, if_pos hdue]
        cases d.dumpModifiedRecords stored 0 (currentTime - 1) with
        | error failure => rfl
        | ok dump =>
            refine (congrArg Except.ok
              (dir.publish_directories updates _ dump calls)).trans ?_
            change _ = if _ then _ else _
            dsimp only
            split_ifs <;> rfl
      · rw [if_neg hdue, if_neg hdue]
        rfl

/-- The files under their own names are whole. -/
def SnapshotsWhole (dir : SnapshotFiles) : Prop :=
  ∀ file ∈ dir.snapshots, file.2.whole = true

/-- `current` names a complete snapshot. -/
def CurrentWhole (dir : SnapshotFiles) : Prop :=
  ∃ file ∈ dir.current, file.whole = true

instance (dir : SnapshotFiles) : Decidable dir.CurrentWhole :=
  inferInstanceAs (Decidable (∃ file ∈ dir.current, _))

/-- What new replicas see of a call of `make_snapshot`: `current` stays
complete, and names the new file if the call says that it created one. -/
structure CurrentKept (dir dir' : SnapshotFiles) (name : FileName)
    (created : Bool) : Prop where
  whole : dir.CurrentWhole → dir'.CurrentWhole
  published : created = true → ∃ file ∈ dir'.current,
    (name, file) ∈ dir'.snapshots ∧ file.whole = true

/-- The file is on disk under its name, `current` is gone and the link is not
made. -/
def LosesCurrent (dir : SnapshotFiles) (calls : PublishCalls) : Prop :=
  dir.CurrentWhole ∧ calls.dump = none ∧ calls.rename = true ∧
    calls.exists_ = true ∧ calls.remove = true ∧
    calls.createHardLink = false

/-- The `try` block keeps `current` unless it ends at the link. -/
theorem publish_currentKept (dir : SnapshotFiles) (name : FileName)
    (dump : Dump) (calls : PublishCalls) :
    dir.CurrentKept (dir.publish name dump calls).1 name
        (dir.publish name dump calls).2 ↔ ¬ dir.LosesCurrent calls := by
  obtain ⟨dumped, rename, exists_, remove, createHardLink⟩ := calls
  have hsame : ∀ dir' : SnapshotFiles, dir'.current = dir.current →
      dir.CurrentKept dir' name false := fun dir' hcurrent =>
    { whole := fun hwhole => by rwa [CurrentWhole, hcurrent]
      published := fun hcreated => by cases hcreated }
  rw [publish]
  cases dumped with
  | some n => exact iff_of_true (hsame _ rfl) nofun
  | none =>
      cases rename with
      | false => exact iff_of_true (hsame _ rfl) nofun
      | true =>
          cases exists_ with
          | false => exact iff_of_true (hsame _ rfl) nofun
          | true =>
              -- the new file is on disk, and `current` is as before
              by_cases hstuck : (dir.current.isSome && !remove) = true
              · simp only [hstuck, Bool.not_true, Bool.false_eq_true,
                  ↓reduceIte]
                refine iff_of_true (hsame _ rfl) fun hloses => ?_
                obtain ⟨-, -, -, -, hremove, -⟩ := hloses
                obtain rfl : remove = true := hremove
                rw [Bool.not_true, Bool.and_false] at hstuck
                exact Bool.false_ne_true hstuck
              · simp only [hstuck, Bool.not_true, Bool.false_eq_true,
                  ↓reduceIte]
                cases createHardLink with
                | true =>
                    refine iff_of_true ?_ nofun
                    exact
                      { whole := fun _ => ⟨_, rfl, rfl⟩
                        published := fun _ => ⟨_, rfl, by simp [put], rfl⟩ }
                | false =>
                    -- `current` is gone
                    simp only [Bool.not_false, ↓reduceIte]
                    constructor
                    · intro hkept hloses
                      obtain ⟨file, hfile, -⟩ := hkept.whole hloses.1
                      cases hfile
                    · intro hnot
                      refine ⟨fun hwhole => absurd ?_ hnot, nofun⟩
                      obtain ⟨file, hfile, -⟩ := id hwhole
                      have hremove : remove = true := by
                        by_contra hfails
                        apply hstuck
                        rw [Option.mem_def.mp hfile,
                          Bool.eq_false_iff.mpr hfails]
                        rfl
                      exact ⟨hwhole, rfl, rfl, rfl, hremove, rfl⟩

/-- A call of `make_snapshot` keeps `current`, or fails before it touches a
file. -/
def KeepsCurrent (dir : SnapshotFiles) (d : ClientDatabase)
    (stored : Database) (currentTime : Nat) (calls : PublishCalls) : Prop :=
  match makeSnapshot d stored dir currentTime calls with
  | .ok (dir', created) =>
      dir.CurrentKept dir' (timestampName (currentTime - 1)) created
  | .error _ => True

/-- A snapshot is made: every name can be read, the last one is old enough,
and the database is open. -/
def SnapshotDue (dir : SnapshotFiles) (d : ClientDatabase)
    (currentTime : Nat) : Prop :=
  d.db_ = .opened ∧ ∃ mostRecent,
    Updated.findMostRecentSnapshot (dir.directories []).snapshots =
        .ok mostRecent ∧
      currentTime - (mostRecent.map Prod.snd).getD 0 ≥ Updated.snapshotInterval

/-- A call runs the `try` block, or fails or returns with the files as they
were. -/
theorem makeSnapshot_cases (d : ClientDatabase) (stored : Database)
    (dir : SnapshotFiles) (currentTime : Nat) (calls : PublishCalls) :
    (dir.SnapshotDue d currentTime ∧ ∃ dump,
      makeSnapshot d stored dir currentTime calls =
        .ok (dir.publish (timestampName (currentTime - 1)) dump calls)) ∨
    (¬ dir.SnapshotDue d currentTime ∧
      ((∃ failure, makeSnapshot d stored dir currentTime calls =
          .error failure) ∨
        makeSnapshot d stored dir currentTime calls = .ok (dir, false))) := by
  rw [SnapshotDue]
  cases hscan : Updated.findMostRecentSnapshot
      (dir.directories []).snapshots with
  | error failure =>
      refine Or.inr ⟨nofun, Or.inl ⟨failure, ?_⟩⟩
      rw [makeSnapshot, hscan]
      rfl
  | ok mostRecent =>
      have hmade : makeSnapshot d stored dir currentTime calls =
          if currentTime - (mostRecent.map Prod.snd).getD 0 ≥
              Updated.snapshotInterval then
            (d.dumpModifiedRecords stored 0 (currentTime - 1)).map
              fun dump => dir.publish (timestampName (currentTime - 1)) dump
                calls
          else .ok (dir, false) := by
        rw [makeSnapshot, hscan]
        rfl
      rw [hmade]
      simp only [Except.ok.injEq, exists_eq_left']
      by_cases hdue : currentTime - (mostRecent.map Prod.snd).getD 0 ≥
          Updated.snapshotInterval
      · rw [if_pos hdue, ClientDatabase.dumpModifiedRecords]
        by_cases hopen : d.db_ = .opened
        · rw [if_pos hopen]
          exact Or.inl ⟨⟨hopen, hdue⟩, _, rfl⟩
        · rw [if_neg hopen]
          exact Or.inr ⟨fun h => hopen h.1, Or.inl ⟨_, rfl⟩⟩
      · rw [if_neg hdue]
        exact Or.inr ⟨fun h => hdue h.2, Or.inr rfl⟩

/-- New replicas find a complete `current` after every call of `make_snapshot`,
and the new one after a call that made it, except after a call that removed the
old link and failed to make the new one. -/
theorem keepsCurrent_iff (d : ClientDatabase) (stored : Database)
    (dir : SnapshotFiles) (currentTime : Nat) (calls : PublishCalls) :
    dir.KeepsCurrent d stored currentTime calls ↔
      ¬ (dir.SnapshotDue d currentTime ∧ dir.LosesCurrent calls) := by
  rw [KeepsCurrent]
  rcases makeSnapshot_cases d stored dir currentTime calls with
    ⟨hdue, dump, hmade⟩ | ⟨hdue, ⟨failure, hfailed⟩ | hsame⟩
  · rw [hmade, and_iff_right hdue]
    exact dir.publish_currentKept _ dump calls
  · rw [hfailed]
    exact iff_of_true trivial fun h => hdue h.1
  · rw [hsame]
    exact iff_of_true ⟨id, nofun⟩ fun h => hdue h.1

/-- Every snapshot on disk stays complete, whatever the calls do. -/
theorem snapshotsWhole_publish {dir : SnapshotFiles} (h : dir.SnapshotsWhole)
    (name : FileName) (dump : Dump) (calls : PublishCalls) :
    (dir.publish name dump calls).1.SnapshotsWhole := by
  have hput : ∀ file ∈ put dir.snapshots name ⟨dump, true⟩,
      file.2.whole = true := by
    intro file hfile
    rcases List.mem_append.mp hfile with hold | hnew
    · exact h file (List.mem_of_mem_filter hold)
    · rw [List.mem_singleton.mp hnew]
  rw [publish]
  split
  · exact h
  · dsimp only
    split_ifs
    · exact h
    all_goals exact hput

/-- A directory with one complete snapshot and `current` on it. -/
def oneSnapshot : SnapshotFiles :=
  { tmp := []
    snapshots := [("1200000000".toList, ⟨[], true⟩)]
    current := some ⟨[], true⟩ }

/-- The first snapshot after a day, when the link cannot be made, leaves
nothing under `current`. -/
theorem not_keepsCurrent :
    ¬ ∀ (d : ClientDatabase) (stored : Database) (dir : SnapshotFiles)
      (currentTime : Nat) (calls : PublishCalls),
      dir.KeepsCurrent d stored currentTime calls := by
  intro h
  let d : ClientDatabase :=
    { link := AsyncLink.idle, updates_ := [], connected_ := true
      env_ := .opened, db_ := .opened, index_ := .opened, signals := [] }
  have hkept := h d ∅ oneSnapshot 1200086400 ⟨none, true, true, true, false⟩
  have hmade : makeSnapshot d ∅ oneSnapshot 1200086400
      ⟨none, true, true, true, false⟩ =
        .ok (oneSnapshot.publish (timestampName 1200086399) []
          ⟨none, true, true, true, false⟩) := by
    decide +kernel
  rw [KeepsCurrent, hmade] at hkept
  have hwhole : oneSnapshot.CurrentWhole := ⟨_, rfl, rfl⟩
  obtain ⟨file, hfile, -⟩ := hkept.whole hwhole
  cases hfile

end SnapshotFiles

end BohunoPyzord
