/-
Files that one master exported over time, imported in some order.  An import
writes every copy it reads over what is stored, so what is left under a hash
is its copy in the file that was imported last.
-/
import BohunoPyzord.ReplicaCatchUp

namespace BohunoPyzord

/-- What can happen to a master whose contents are exported. -/
inductive MasterStep where
  | process (p : Processed)
  | expire (hash : Hash)
  | exportSnapshot (min max : Nat)
  | exportUpdate (min max : Nat)

/-- The files that are exported, in the order of their export. -/
def exportedFiles (index : TimeIndex) : Database → List MasterStep → List Dump
  | _, [] => []
  | db, .process p :: steps =>
      exportedFiles index
        ((db.processUpdate .succeed p.update p.now).getD db) steps
  | db, .expire hash :: steps => exportedFiles index (db.erase hash) steps
  | db, .exportSnapshot min max :: steps =>
      db.window min max :: exportedFiles index db steps
  | db, .exportUpdate min max :: steps =>
      index.written db min max :: exportedFiles index db steps

/-- Import files one after another. -/
def Database.importAll (db : Database) (files : List Dump) : Database :=
  files.foldl Database.importDump db

/-- The copy of a hash in the last of the files that hold one. -/
def latestCopy (files : List Dump) (h : Hash) : Option Record :=
  (files.filterMap fun records => lastCopy records h).getLast?

theorem latestCopy_cons (records : Dump) (files : List Dump) (h : Hash) :
    latestCopy (records :: files) h =
      (latestCopy files h).or (lastCopy records h) := by
  rw [latestCopy, List.filterMap_cons]
  cases lastCopy records h with
  | none => rw [Option.or_none, latestCopy]
  | some copy =>
      rw [List.getLast?_cons, latestCopy]
      cases (files.filterMap fun records => lastCopy records h).getLast? <;>
        rfl

/-- What a sequence of imports leaves under a hash. -/
theorem lookup_importAll (db : Database) (files : List Dump) (h : Hash) :
    (db.importAll files).lookup h =
      (latestCopy files h).or (db.lookup h) := by
  induction files generalizing db with
  | nil => rfl
  | cons records files ih =>
      rw [Database.importAll, List.foldl_cons, ← Database.importAll, ih,
        lookup_importDump, latestCopy_cons, Option.or_assoc]

/-- Whether any of the files holds a hash does not depend on their order. -/
theorem latestCopy_eq_none_of_perm {first second : List Dump}
    (h : first.Perm second) (hash : Hash) :
    latestCopy first hash = none ↔ latestCopy second hash = none := by
  have hcopies := h.filterMap fun records => lastCopy records hash
  rw [latestCopy, latestCopy, List.getLast?_eq_none_iff,
    List.getLast?_eq_none_iff, ← List.length_eq_zero_iff, hcopies.length_eq,
    List.length_eq_zero_iff]

/-- A replica serves its queue by importing the files in queue order. -/
theorem Replica.serveDownloads_importAll (serve : Url → Dump) {r : Replica}
    (hrunning : r.shutdown_ = false)
    (hrequests : r.requests = r.updates_to_download_.take 1) (h : Hash) :
    (serveDownloads serve r.updates_to_download_.length r).database_.lookup
        h = (r.database_.importAll
          (r.updates_to_download_.map serve)).lookup h := by
  rw [database_serveDownloads serve r hrunning hrequests, lookup_importDump,
    lookup_importAll]
  congr 1
  induction r.updates_to_download_ with
  | nil => rfl
  | cons url queue ih =>
      rw [List.flatMap_cons, lastCopy_append, ih, List.map_cons,
        latestCopy_cons]

/-- Imported in any order, the exported files leave under each hash its copy
in the file that was imported last, and what was there if none holds it.  Two
orders leave the same contents exactly when they agree on those copies. -/
theorem importAll_sameContents_iff (index : TimeIndex) (db : Database)
    (steps : List MasterStep) (replica : Database)
    {order order' : List Dump}
    (horder : order.Perm (exportedFiles index db steps))
    (horder' : order'.Perm (exportedFiles index db steps)) :
    (∀ h, (replica.importAll order).lookup h =
      (latestCopy order h).or (replica.lookup h)) ∧
    ((∀ h, (replica.importAll order).lookup h =
        (replica.importAll order').lookup h) ↔
      ∀ h, latestCopy order h = latestCopy order' h) := by
  refine ⟨lookup_importAll replica order, ?_⟩
  constructor
  · intro hsame h
    have hlookup := hsame h
    have hheld := latestCopy_eq_none_of_perm (horder.trans horder'.symm) h
    rw [lookup_importAll, lookup_importAll] at hlookup
    cases hcopy : latestCopy order h with
    | none => exact (hheld.mp hcopy).symm
    | some copy =>
        cases hcopy' : latestCopy order' h with
        | none => exact (hcopy ▸ hheld.mpr hcopy')
        | some copy' => rwa [hcopy, hcopy'] at hlookup
  · intro hsame h
    rw [lookup_importAll, lookup_importAll, hsame h]

/-- A hash that is reported again between two exports. -/
def reportedBetweenExports : List MasterStep :=
  [.process ⟨.make firstHash .report 1200000100, 1200000100⟩,
    .exportSnapshot 0 1200000299,
    .process ⟨.make firstHash .report 1200000400, 1200000400⟩,
    .exportSnapshot 0 1200000599]

theorem importAll_sameContents_reportedBetweenExports :
    let files := exportedFiles TimeIndex.stable ∅ reportedBetweenExports
    (∀ h, (Database.importAll ∅ files.reverse).lookup h =
      (latestCopy files.reverse h).or ((∅ : Database).lookup h)) ∧
    ((∀ h, (Database.importAll ∅ files.reverse).lookup h =
        (Database.importAll ∅ files).lookup h) ↔
      ∀ h, latestCopy files.reverse h = latestCopy files h) :=
  importAll_sameContents_iff TimeIndex.stable ∅ reportedBetweenExports ∅
    (List.reverse_perm _) (List.Perm.refl _)

/-- The file exported first, imported last, brings the old record back. -/
theorem importAll_not_always_sameContents :
    ¬ ∀ index db steps (order : List Dump),
      order.Perm (exportedFiles index db steps) →
      ∀ h, (Database.importAll ∅ order).lookup h =
        latestCopy (exportedFiles index db steps) h := by
  intro hsame
  have hlookup := hsame TimeIndex.stable ∅ reportedBetweenExports _
    (List.reverse_perm _) firstHash
  revert hlookup
  decide +kernel

end BohunoPyzord
