/-
The exporter: on every tick it publishes a snapshot of the database, or the
records that changed since the last published file, and deletes old files.
Its only memory is the names in its two directories.
-/
import BohunoPyzord.ClientDatabase
import BohunoPyzord.FileNames
import BohunoPyzord.Master
import BohunoPyzord.OrderedScan
import Mathlib.Data.List.Sort

namespace BohunoPyzord

/-- The records of a published file, in file order. -/
abbrev Dump := List (Hash × Record)

/-- The entries of the primary database. -/
def Database.pairs (db : Database) : Dump :=
  db.entries.map fun e => (e.1, e.2)

/-- The time an entry is indexed under. -/
def stamp (p : Hash × Record) : Nat := p.2.updated.toNat

/-- The order in which a cursor on `index_` visits the entries.  Its keys
begin with `updated_` in network order; how they go on, and the order of
entries with one key, is left open. -/
structure TimeIndex where
  entries : Database → Dump
  perm : ∀ db, (entries db).Perm db.pairs
  ordered : ∀ db, OrderedScan.Ordered stamp (entries db)

namespace TimeIndex

/-- One that keeps the order of entries with the same time. -/
def stable : TimeIndex where
  entries db := db.pairs.insertionSort fun p q => stamp p ≤ stamp q
  perm _ := List.perm_insertionSort _ _
  ordered db := by
    have : Std.Total fun p q : Hash × Record => stamp p ≤ stamp q :=
      ⟨fun _ _ => Nat.le_total _ _⟩
    have : IsTrans (Hash × Record) fun p q => stamp p ≤ stamp q :=
      ⟨fun _ _ _ => Nat.le_trans⟩
    exact List.pairwise_insertionSort _ db.pairs

/-- From where `DB_SET_RANGE` positions the cursor for `min` on. -/
def entriesFrom (index : TimeIndex) (stored : Database) (min : Nat) : Dump :=
  OrderedScan.startingAt stamp min (index.entries stored)

/-- What the loop of `dump_modified_records2` writes: the entry the cursor is
first positioned on is not written. -/
def written (index : TimeIndex) (stored : Database) (min max : Nat) : Dump :=
  OrderedScan.upTo stamp max (index.entriesFrom stored min).tail

end TimeIndex

/-- The records whose `updated()` lies in a window. -/
def Database.window (db : Database) (min max : Nat) : Dump :=
  db.pairs.filter fun p => min ≤ p.2.updated.toNat ∧ p.2.updated.toNat ≤ max

namespace ClientDatabase

/-- `dump_modified_records`, given the contents behind the handles. -/
def dumpModifiedRecords (d : ClientDatabase) (stored : Database)
    (min max : Nat) : Except TickFailure Dump :=
  if d.db_ = .opened then .ok (stored.window min max)
  else .error .nullHandle

def dumpModifiedRecords2 (d : ClientDatabase) (index : TimeIndex)
    (stored : Database) (min max : Nat) : Except TickFailure Dump :=
  if d.index_ = .opened then .ok (index.written stored min max)
  else .error .nullHandle

end ClientDatabase

/-- The two directories: the regular files of the one, next to which `current`
is the hard link, and whatever has a name in the other, where no file is asked
whether it is regular. -/
structure Directories where
  snapshots : List (FileName × Dump)
  current : Option Dump
  updates : List (FileName × Dump)
deriving DecidableEq, Repr

/-- The calls of `make_snapshot` that may throw. -/
inductive PublishStep where
  | dump
  | rename
  | exists
  | remove
  | createHardLink
deriving DecidableEq, Repr

/-- `rename` into a directory: a file of that name is replaced. -/
def publish (files : List (FileName × Dump)) (name : FileName)
    (dump : Dump) : List (FileName × Dump) :=
  files.filter (fun file => file.1 ≠ name) ++ [(name, dump)]

namespace Updated

def snapshotInterval : Nat := 4 * 60 * 60

section Directories

variable (files : List (FileName × Dump))

/-- One entry of the scan for the most recent snapshot. -/
def moreRecentSnapshot (best : FileName × Nat) (file : FileName × Dump) :
    Except TickFailure (FileName × Nat) := do
  match ← parseSnapshotFileName file.1 with
  | some timestamp =>
      if timestamp > best.2 then pure (file.1, timestamp) else pure best
  | none => pure best

def findMostRecentSnapshot : Except TickFailure (Option (FileName × Nat)) := do
  let best ← files.foldlM moreRecentSnapshot ([], 0)
  pure (if best.2 ≠ 0 then some best else none)

def olderSnapshot (best : FileName × Nat) (file : FileName × Dump) :
    Except TickFailure (FileName × Nat) := do
  match ← parseSnapshotFileName file.1 with
  | some timestamp =>
      if timestamp < best.2 then pure (file.1, timestamp) else pure best
  | none => pure best

def findOldestSnapshot : Except TickFailure (Option (FileName × Nat)) := do
  let best ← files.foldlM olderSnapshot ([], 0xffffffff)
  pure (if best.2 ≠ 0xffffffff then some best else none)

/-- One entry of the scan for the most recent update: the name and the window
of the one that ends last. -/
def moreRecentUpdate (best : FileName × Nat × Nat) (file : FileName × Dump) :
    Except TickFailure (FileName × Nat × Nat) := do
  match ← parseUpdateFileName file.1 with
  | some (min, max) =>
      if max > best.2.2 then pure (file.1, min, max) else pure best
  | none => pure best

def findMostRecentUpdate :
    Except TickFailure (Option (FileName × Nat × Nat)) := do
  let best ← files.foldlM moreRecentUpdate ([], 0, 0)
  pure (if best.2.2 ≠ 0 then some best else none)

end Directories

/-- `make_snapshot`; `fails` names the call that throws, if one does. -/
def makeSnapshot (d : ClientDatabase) (stored : Database)
    (dirs : Directories) (currentTime : Nat) (fails : Option PublishStep) :
    Except TickFailure (Directories × Bool) := do
  let mostRecent ← findMostRecentSnapshot dirs.snapshots
  let mostRecentTimestamp := (mostRecent.map Prod.snd).getD 0
  if currentTime - mostRecentTimestamp ≥ snapshotInterval then
    let timestamp := currentTime - 1
    let dump ← d.dumpModifiedRecords stored 0 timestamp
    if fails = some .dump ∨ fails = some .rename then pure (dirs, false)
    else
      let dirs := { dirs with
        snapshots := publish dirs.snapshots (timestampName timestamp) dump }
      if fails = some .exists then pure (dirs, false)
      else if dirs.current.isSome ∧ fails = some .remove then
        pure (dirs, false)
      else
        let dirs := { dirs with current := none }
        if fails = some .createHardLink then pure (dirs, false)
        else pure ({ dirs with current := some dump }, true)
  else pure (dirs, false)

/-- Where the next update starts: at the end of the last one, or else at the
timestamp of the last snapshot; zero if there is neither. -/
def updateStart (dirs : Directories) : Except TickFailure Nat := do
  match ← findMostRecentUpdate dirs.updates with
  | some (_, _, max) => pure max
  | none =>
      match ← findMostRecentSnapshot dirs.snapshots with
      | some (_, timestamp) => pure timestamp
      | none => pure 0

/-- `make_update`, given how it dumps a window; `throws` says whether a call
of its `try` block throws. -/
def makeUpdate (dump2 : Nat → Nat → Except TickFailure Dump)
    (dirs : Directories) (currentTime : Nat) (throws : Bool) :
    Except TickFailure Directories := do
  let start ← updateStart dirs
  if start ≠ 0 then
    let finish := currentTime - 1
    let dump ← dump2 start finish
    if throws then pure dirs
    else pure { dirs with
      updates := publish dirs.updates (updateName start finish) dump }
  else pure dirs

/-- A snapshot that is not older than `expireTime`, or not a snapshot. -/
def keepSnapshot (expireTime : Nat) (file : FileName × Dump) :
    Except TickFailure Bool := do
  match ← parseSnapshotFileName file.1 with
  | some timestamp => pure (!decide (timestamp < expireTime))
  | none => pure true

/-- `expire_time`, ten hours before the clock in unsigned 32-bit arithmetic. -/
def snapshotExpireTime (now : Nat) : Uint32 :=
  BitVec.ofNat 32 now - 8 * 60 * 60 - 2 * 60 * 60

/-- `expire_snapshots`: the rest, and whether files were removed. -/
def expireSnapshots (dirs : Directories) (now : Nat) :
    Except TickFailure (Directories × Bool) := do
  let expireTime := (snapshotExpireTime now).toNat
  let kept ← dirs.snapshots.filterM (keepSnapshot expireTime)
  pure ({ dirs with snapshots := kept },
    decide (kept.length < dirs.snapshots.length))

/-- An update that does not end before `oldest`, or not an update. -/
def keepUpdate (oldest : Nat) (file : FileName × Dump) :
    Except TickFailure Bool := do
  match ← parseUpdateFileName file.1 with
  | some (_, max) => pure (!decide (max < oldest))
  | none => pure true

/-- `expire_updates`. -/
def expireUpdates (dirs : Directories) : Except TickFailure Directories := do
  match ← findOldestSnapshot dirs.snapshots with
  | some (_, oldest) =>
      let kept ← dirs.updates.filterM (keepUpdate oldest)
      pure { dirs with updates := kept }
  | none => pure dirs

/-- `snapshot()`, the tick, without an error: the directories after it. -/
def snapshot (d : ClientDatabase) (stored : Database)
    (dump2 : Nat → Nat → Except TickFailure Dump) (dirs : Directories)
    (currentTime : Nat) (fails : Option PublishStep) (throws : Bool) :
    Except TickFailure Directories := do
  if !d.up then pure dirs
  else
    let (dirs, removed) ← expireSnapshots dirs currentTime
    let dirs ← if removed then expireUpdates dirs else pure dirs
    let (dirs, created) ← makeSnapshot d stored dirs currentTime fails
    if created then pure dirs else makeUpdate dump2 dirs currentTime throws

/-- What is left of some files when the test of one of them throws: those that
were tested before it are gone or kept. -/
def leftBy (keep : FileName × Dump → Except TickFailure Bool) :
    List (FileName × Dump) → List (FileName × Dump)
  | [] => []
  | file :: files =>
      match keep file with
      | .ok true => file :: leftBy keep files
      | .ok false => leftBy keep files
      | .error _ => file :: files

/-- The directories that `snapshot()` leaves when an exception ends it. -/
def leftOnThrow (d : ClientDatabase) (stored : Database) (dirs : Directories)
    (currentTime : Nat) (fails : Option PublishStep) : Directories :=
  if !d.up then dirs
  else
    match expireSnapshots dirs currentTime with
    | .error _ => { dirs with
        snapshots := leftBy
          (keepSnapshot (snapshotExpireTime currentTime).toNat)
          dirs.snapshots }
    | .ok (dirs, removed) =>
        match if removed then expireUpdates dirs else pure dirs with
        | .error _ =>
            match findOldestSnapshot dirs.snapshots with
            | .ok (some (_, oldest)) =>
                { dirs with updates := leftBy (keepUpdate oldest) dirs.updates }
            | _ => dirs
        | .ok dirs =>
            match makeSnapshot d stored dirs currentTime fails with
            | .error _ => dirs
            | .ok (dirs, _) => dirs

end Updated

end BohunoPyzord
