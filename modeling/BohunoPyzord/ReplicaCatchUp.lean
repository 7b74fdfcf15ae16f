/-
What a replica holds after it was set up from a snapshot and has imported
what it queued from a listing.  Its position is the newest record it holds,
and an update whose window began before that is taken for old.
-/
import BohunoPyzord.Publishing
import BohunoPyzord.Replica

namespace BohunoPyzord

/-- The last copy of a hash in a file. -/
def lastCopy (records : Dump) (h : Hash) : Option Record :=
  (records.filter fun p => p.1 = h).getLast?.map Prod.snd

theorem mem_of_lastCopy {records : Dump} {h : Hash} {r : Record}
    (hcopy : lastCopy records h = some r) : (h, r) ∈ records := by
  obtain ⟨p, hp, rfl⟩ := Option.map_eq_some_iff.mp hcopy
  have hmem := List.mem_filter.mp (List.mem_of_getLast? hp)
  have hkey : p.1 = h := by simpa using hmem.2
  exact hkey ▸ hmem.1

theorem lastCopy_eq_none {records : Dump} {h : Hash} :
    lastCopy records h = none ↔ ∀ r, (h, r) ∉ records := by
  rw [lastCopy, Option.map_eq_none_iff, List.getLast?_eq_none_iff,
    List.filter_eq_nil_iff]
  constructor
  · intro hnone r hmem
    exact hnone (h, r) hmem (by simp)
  · rintro hnone ⟨h', r⟩ hmem hkey
    have hkey' : h' = h := by simpa using hkey
    exact hnone r (hkey' ▸ hmem)

theorem lastCopy_append (first second : Dump) (h : Hash) :
    lastCopy (first ++ second) h =
      (lastCopy second h).or (lastCopy first h) := by
  rw [lastCopy, List.filter_append, List.getLast?_append, lastCopy, lastCopy]
  cases (second.filter fun p => p.1 = h).getLast? <;> simp

theorem Database.importDump_append (db : Database) (first second : Dump) :
    db.importDump (first ++ second) =
      (db.importDump first).importDump second := by
  rw [importDump, List.foldl_append]
  rfl

/-- An import leaves under each hash its last copy, or what was there. -/
theorem lookup_importDump (db : Database) (records : Dump) (h : Hash) :
    (db.importDump records).lookup h =
      (lastCopy records h).or (db.lookup h) := by
  induction records generalizing db with
  | nil => rfl
  | cons p records ih =>
      have hcopy : lastCopy (p :: records) h =
          (lastCopy records h).or (if p.1 = h then some p.2 else none) := by
        rw [← List.singleton_append, lastCopy_append]
        congr 1
        by_cases hp : p.1 = h <;> simp [lastCopy, hp]
      rw [Database.importDump, List.foldl_cons, ← Database.importDump, ih,
        hcopy, Option.or_assoc]
      congr 1
      by_cases hp : p.1 = h
      · subst hp
        simp
      · simp [hp, AList.lookup_insert_ne (Ne.symm hp)]

/-- The last record of the index has the highest `updated()`. -/
theorem le_lookupLast {db : Database} {h : Hash} {r : Record}
    (index : TimeIndex) (hlookup : db.lookup h = some r) :
    ∃ last, db.lookupLast index = some last ∧
      r.updated.toNat ≤ last.updated.toNat := by
  have hmem : (h, r) ∈ index.entries db :=
    (index.perm db).mem_iff.mpr (Database.mem_pairs.mpr hlookup)
  obtain ⟨last, hlast, hle⟩ := (index.ordered db).le_getLast hmem
  exact ⟨last.2, by rw [Database.lookupLast, hlast]; rfl, hle⟩

/-- The URL of an update on the server. -/
def UpdateFile.url (host : List Char) (f : UpdateFile) : Url :=
  "https://".toList ++ host ++ "/pyzor/updates/".toList ++ f.file.1

/-- What the search finds of an update in a listing. -/
def UpdateFile.href (host : List Char) (f : UpdateFile) : HrefMatch :=
  { url := f.url host, min := timestampName f.min
    max := timestampName f.max }

/-- The updates whose window begins at or after the replica's position. -/
def selected (position : Nat) (listing : List UpdateFile) :
    List UpdateFile :=
  listing.filter fun f => position ≤ f.min

theorem url_injective {host : List Char} {f g : UpdateFile}
    (h : f.url host = g.url host) : f.file.1 = g.file.1 :=
  List.append_cancel_left h

namespace Replica

theorem queueUpdate_eq {found : HrefMatch} {min : Nat}
    (hcast : lexicalCast found.min = .ok min) (highest : Nat)
    (queue : List Url) : queueUpdate highest queue found =
      .ok (if highest ≤ min ∧ found.url ∉ queue then queue ++ [found.url]
        else queue) := by
  rw [queueUpdate, hcast]
  by_cases hmin : highest ≤ min
  · by_cases hqueued : found.url ∈ queue
    · simp [hmin, hqueued, bind, Except.bind, pure, Except.pure]
    · simp [hmin, hqueued, bind, Except.bind, pure, Except.pure]
  · simp [hmin, bind, Except.bind, pure, Except.pure]

/-- Of a listing of updates with names of their own, the scan queues those
that are selected, in listing order. -/
theorem foldlM_queueUpdate (host : List Char) {listing : List UpdateFile}
    (hnamed : ∀ f ∈ listing, f.Named)
    (hdistinct : Updated.DistinctNames listing) (highest : Nat) :
    (listing.map (UpdateFile.href host)).foldlM (queueUpdate highest) [] =
      .ok ((selected highest listing).map (UpdateFile.url host)) := by
  have along : ∀ (rest before : List UpdateFile),
      (∀ f ∈ rest, f.Named) → Updated.DistinctNames (before ++ rest) →
      (rest.map (UpdateFile.href host)).foldlM (queueUpdate highest)
        ((selected highest before).map (UpdateFile.url host)) =
        .ok ((selected highest (before ++ rest)).map
          (UpdateFile.url host)) := by
    intro rest
    induction rest with
    | nil =>
        intro before _ _
        rw [List.append_nil]
        rfl
    | cons f rest ih =>
        intro before hrest hnodup
        have hcast : lexicalCast (f.href host).min = .ok f.min :=
          (hrest f List.mem_cons_self).1.lexicalCast
        have hfresh : f.url host ∉
            (selected highest before).map (UpdateFile.url host) := by
          intro hmem
          obtain ⟨g, hg, hurl⟩ := List.mem_map.mp hmem
          rw [Updated.DistinctNames, List.map_append,
            List.nodup_append] at hnodup
          exact hnodup.2.2 _
            (List.mem_map_of_mem (List.mem_of_mem_filter hg)) _
            (List.mem_map_of_mem List.mem_cons_self) (url_injective hurl)
        have hone : queueUpdate highest
            ((selected highest before).map (UpdateFile.url host))
            (f.href host) = .ok ((selected highest (before ++ [f])).map
              (UpdateFile.url host)) := by
          rw [queueUpdate_eq hcast]
          apply congrArg Except.ok
          by_cases hmin : highest ≤ f.min
          · rw [if_pos ⟨hmin, hfresh⟩]
            simp [selected, hmin, UpdateFile.href]
          · rw [if_neg fun h => hmin h.1]
            simp [selected, hmin]
        rw [List.map_cons, List.foldlM_cons, hone]
        have hnext := ih (before ++ [f])
          (fun g hg => hrest g (List.mem_cons_of_mem f hg))
          (by simpa using hnodup)
        rw [List.append_assoc] at hnext
        exact hnext
  simpa [selected] using along listing [] hnamed hdistinct

/-- A scan of the listing by a replica with an empty queue. -/
theorem handleUpdatesScanSuccess_eq (index : TimeIndex) {r : Replica}
    {host body : List Char} {listing : List UpdateFile}
    (hempty : r.updates_to_download_ = [])
    (hrunning : r.shutdown_ = false)
    (hbody : searchHrefs 0 body = listing.map (UpdateFile.href host))
    (hnamed : ∀ f ∈ listing, f.Named)
    (hdistinct : Updated.DistinctNames listing) :
    r.handleUpdatesScanSuccess index 200 body = .ok
      { r with
        updates_to_download_ :=
          (selected (r.highestTimestamp index) listing).map
            (UpdateFile.url host)
        requests := r.requests ++
          ((selected (r.highestTimestamp index) listing).map
            (UpdateFile.url host)).take 1
        scanArmed := true } := by
  have hqueue := foldlM_queueUpdate host hnamed hdistinct
    (r.highestTimestamp index)
  rw [handleUpdatesScanSuccess, hbody, hempty, hqueue]
  apply congrArg Except.ok
  cases (selected (r.highestTimestamp index) listing).map
    (UpdateFile.url host) with
  | nil =>
      simp [startUpdateDownload, scheduleUpdatesScan, hrunning]
  | cons url queue =>
      simp [startUpdateDownload, scheduleUpdatesScan, hrunning]

/-- The downloads follow one another down the queue, and each is imported. -/
theorem database_serveDownloads (serve : Url → Dump) (r : Replica)
    (hrunning : r.shutdown_ = false)
    (hrequests : r.requests = r.updates_to_download_.take 1) :
    (serveDownloads serve r.updates_to_download_.length r).database_ =
      r.database_.importDump (r.updates_to_download_.flatMap serve) := by
  generalize hqueue : r.updates_to_download_ = queue at *
  induction queue generalizing r with
  | nil => rfl
  | cons url queue ih =>
      rw [List.length_cons, serveDownloads, hrequests]
      have hnext := ih
        ({ r with requests := [] }.handleUpdateDownloadSuccess 200
          (serve url))
        (by cases queue <;>
          simp [handleUpdateDownloadSuccess, startUpdateDownload, hqueue,
            hrunning])
        (by cases queue <;>
          simp [handleUpdateDownloadSuccess, startUpdateDownload, hqueue,
            hrunning])
        (by cases queue <;>
          simp [handleUpdateDownloadSuccess, startUpdateDownload, hqueue,
            hrunning])
      apply hnext.trans
      rw [List.flatMap_cons, Database.importDump_append]
      congr 1
      cases queue <;>
        simp [handleUpdateDownloadSuccess, startUpdateDownload, hqueue,
          hrunning]

theorem le_highestTimestamp {r : Replica} {h : Hash} {record : Record}
    (index : TimeIndex) (hlookup : r.database_.lookup h = some record) :
    record.updated.toNat ≤ r.highestTimestamp index := by
  obtain ⟨last, hlast, hle⟩ := le_lookupLast index hlookup
  rw [highestTimestamp, hlast]
  exact hle

theorem lookup_ofSnapshot (records : Dump) (h : Hash) :
    (ofSnapshot records).database_.lookup h = lastCopy records h := by
  rw [ofSnapshot, lookup_importDump]
  exact Option.or_none

end Replica

/-- The last of the given files that holds a copy of the hash. -/
def lastHolding (h : Hash) (files : List UpdateFile) : Option UpdateFile :=
  (files.filter fun f => (lastCopy f.records h).isSome).getLast?

theorem lastHolding_append (first second : List UpdateFile) (h : Hash) :
    lastHolding h (first ++ second) =
      (lastHolding h second).or (lastHolding h first) := by
  rw [lastHolding, List.filter_append, List.getLast?_append]
  rfl

theorem lastCopy_of_lastHolding {h : Hash} {files : List UpdateFile}
    {f : UpdateFile} (hlast : lastHolding h files = some f) :
    f ∈ files ∧ ∃ r, lastCopy f.records h = some r := by
  have hmem := List.mem_filter.mp (List.mem_of_getLast? hlast)
  exact ⟨hmem.1, Option.isSome_iff_exists.mp hmem.2⟩

/-- What is imported last of a hash comes from the last file that holds it. -/
theorem lastCopy_flatMap (files : List UpdateFile) (h : Hash) :
    lastCopy (files.flatMap UpdateFile.records) h =
      (lastHolding h files).bind fun f => lastCopy f.records h := by
  induction files with
  | nil => rfl
  | cons f files ih =>
      rw [List.flatMap_cons, lastCopy_append, ih,
        ← List.singleton_append (l := files), lastHolding_append]
      rcases hlast : lastHolding h files with - | g
      · by_cases hcopy : (lastCopy f.records h).isSome
        · simp [lastHolding, hcopy]
        · simp [lastHolding, Option.not_isSome_iff_eq_none.mp hcopy]
      · obtain ⟨-, r, hr⟩ := lastCopy_of_lastHolding hlast
        simp [hr]

/-- The copy that the replica ends up with is the master's record, unless the
record changed after the snapshot and the last file taken that holds it covers
another time. -/
theorem caughtUp_record_iff {db : Database} {clock : Nat}
    {snap : SnapshotFile} (hsnap : snap.Good clock db)
    {listing : List UpdateFile} (hlisting : ∀ f ∈ listing, f.Good clock db)
    {position : Nat} {h : Hash} {r : Record}
    (hposition : ∀ r', lastCopy snap.records h = some r' →
      r'.updated.toNat ≤ position)
    (hlookup : db.lookup h = some r) :
    ((lastHolding h (selected position listing)).bind
        fun f => lastCopy f.records h).or (lastCopy snap.records h) = some r ↔
      (snap.timestamp < r.updated.toNat →
        ∃ f, lastHolding h (selected position listing) = some f ∧
          f.min ≤ r.updated.toNat ∧ r.updated.toNat ≤ f.max) := by
  have hgood : ∀ f, lastHolding h (selected position listing) = some f →
      f.Good clock db ∧ position ≤ f.min := by
    intro f hf
    have hmem := List.mem_filter.mp (lastCopy_of_lastHolding hf).1
    exact ⟨hlisting f hmem.1, by simpa using hmem.2⟩
  have hcopy : ∀ f, lastHolding h (selected position listing) = some f →
      r.updated.toNat ≤ f.max → lastCopy f.records h = some r := by
    intro f hf hle
    obtain ⟨-, r', hr'⟩ := lastCopy_of_lastHolding hf
    rw [hr', (hgood f hf).1.faithful.current h r r' hlookup hle
      (mem_of_lastCopy hr')]
  by_cases hchanged : snap.timestamp < r.updated.toNat
  · constructor
    · intro hheld _
      rcases hlast : lastHolding h (selected position listing) with - | f
      · rw [hlast, Option.bind_none, Option.none_or] at hheld
        have hstamp := (hsnap.faithful.stamps (h, r) (mem_of_lastCopy hheld)).2
        exact absurd hchanged (Nat.not_lt.mpr hstamp)
      · obtain ⟨-, r', hr'⟩ := lastCopy_of_lastHolding hlast
        rw [hlast, Option.bind_some, hr', Option.some_or] at hheld
        rw [hheld] at hr'
        exact ⟨f, rfl, (hgood f hlast).1.faithful.stamps (h, r)
          (mem_of_lastCopy hr')⟩
    · intro hwindow
      obtain ⟨f, hlast, -, hle⟩ := hwindow hchanged
      rw [hlast, Option.bind_some, hcopy f hlast hle, Option.some_or]
  · refine ⟨fun _ hlt => absurd hlt hchanged, fun _ => ?_⟩
    have hold := Nat.not_lt.mp hchanged
    have hmem := hsnap.faithful.complete h r hlookup (Nat.zero_le _) hold
    have hbase : lastCopy snap.records h = some r := by
      rcases hcopy' : lastCopy snap.records h with - | r'
      · exact absurd hmem (lastCopy_eq_none.mp hcopy' r)
      · rw [hsnap.faithful.current h r r' hlookup hold
          (mem_of_lastCopy hcopy')]
    rcases hlast : lastHolding h (selected position listing) with - | f
    · exact hbase
    · have hle : r.updated.toNat ≤ f.max :=
        (hposition r hbase).trans ((hgood f hlast).2.trans
          (hgood f hlast).1.window)
      rw [Option.bind_some, hcopy f hlast hle, Option.some_or]

/-- The replica holds every record of the master that was last changed by a
given time, and no file it passed over holds a record that it lacks. -/
structure Replica.CaughtUp (r : Replica) (master : Database) (time : Nat)
    (passedOver : List UpdateFile) : Prop where
  holds : ∀ h record, master.lookup h = some record →
    record.updated.toNat ≤ time → r.database_.lookup h = some record
  lacksNone : ∀ f ∈ passedOver, ∀ p ∈ f.records,
    master.lookup p.1 = some p.2 → r.database_.lookup p.1 = some p.2

/-- Over any history and with any snapshot on disk: a replica set up from the
snapshot that scans the listing and imports all it queued catches up exactly
when, for each record changed after the snapshot, the last file that holds it
among those beginning no earlier than the newest record of the snapshot is one
whose window contains the change. -/
theorem replica_caughtUp_iff (index : TimeIndex) {start : UpdatedStart}
    {events : List UpdatedEvent} {s : UpdatedRun}
    (hrun : (updatedSystem start).run events = some s)
    {snap : SnapshotFile} (hsnap : snap ∈ s.dirs.snapshotFiles)
    {listing : List UpdateFile} (hlisting : listing.Perm s.dirs.updateFiles)
    {host body : List Char}
    (hbody : searchHrefs 0 body = listing.map (UpdateFile.href host))
    {serve : Url → Dump}
    (hserve : ∀ f ∈ listing, serve (f.url host) = f.records) :
    ∃ scanned, (Replica.ofSnapshot snap.records).handleUpdatesScanSuccess
        index 200 body = .ok scanned ∧
      ((Replica.serveDownloads serve scanned.updates_to_download_.length
          scanned).CaughtUp s.db (latestOf (listing.map UpdateFile.max))
          (listing.filter fun f =>
            f.url host ∉ scanned.updates_to_download_) ↔
        ∀ h r, s.db.lookup h = some r → snap.timestamp < r.updated.toNat →
          r.updated.toNat ≤ latestOf (listing.map UpdateFile.max) →
          ∃ f, lastHolding h (selected ((Replica.ofSnapshot
              snap.records).highestTimestamp index) listing) = some f ∧
            f.min ≤ r.updated.toNat ∧ r.updated.toNat ≤ f.max) := by
  have hinv := UpdatedRun.run_inv hrun
  have hgood : ∀ f ∈ listing, f.Good s.clock s.db := fun f hf =>
    hinv.updates f (hlisting.subset hf)
  have hnamed : ∀ f ∈ listing, f.Named := fun f hf =>
    hinv.hold.updatesNamed f (hlisting.subset hf)
  have hdistinct : Updated.DistinctNames listing :=
    ((hlisting.map _).nodup_iff).mpr hinv.distinct
  let position := (Replica.ofSnapshot snap.records).highestTimestamp index
  refine ⟨_, Replica.handleUpdatesScanSuccess_eq index rfl rfl hbody hnamed
    hdistinct, ?_⟩
  generalize hscanned : ({
      Replica.ofSnapshot snap.records with
      updates_to_download_ :=
        (selected position listing).map (UpdateFile.url host)
      requests := (Replica.ofSnapshot snap.records).requests ++
        ((selected position listing).map (UpdateFile.url host)).take 1
      scanArmed := true } : Replica) = scanned
  have hfinal : ∀ h, (Replica.serveDownloads serve
      scanned.updates_to_download_.length scanned).database_.lookup h =
        ((lastHolding h (selected position listing)).bind
          fun f => lastCopy f.records h).or (lastCopy snap.records h) := by
    intro h
    have hfetched : scanned.updates_to_download_.flatMap serve =
        (selected position listing).flatMap UpdateFile.records := by
      rw [← hscanned, List.flatMap_map]
      exact List.flatMap_congr fun f hf =>
        hserve f (List.mem_of_mem_filter hf)
    rw [Replica.database_serveDownloads serve scanned
      (by rw [← hscanned]; rfl) (by rw [← hscanned]; rfl), hfetched,
      lookup_importDump, lastCopy_flatMap, ← Replica.lookup_ofSnapshot,
      ← hscanned]
  have hrecord : ∀ h r, s.db.lookup h = some r →
      ((Replica.serveDownloads serve scanned.updates_to_download_.length
          scanned).database_.lookup h = some r ↔
        (snap.timestamp < r.updated.toNat →
          ∃ f, lastHolding h (selected position listing) = some f ∧
            f.min ≤ r.updated.toNat ∧ r.updated.toNat ≤ f.max)) := by
    intro h r hr
    rw [hfinal]
    exact caughtUp_record_iff (hinv.snapshots snap hsnap) hgood
      (fun r' hr' => Replica.le_highestTimestamp index
        ((Replica.lookup_ofSnapshot _ _).trans hr')) hr
  constructor
  · intro hcaught h r hr hlater hle
    exact (hrecord h r hr).mp (hcaught.holds h r hr hle) hlater
  · intro hwindows
    have hholds : ∀ h r, s.db.lookup h = some r →
        r.updated.toNat ≤ latestOf (listing.map UpdateFile.max) → _ :=
      fun h r hr hle =>
        (hrecord h r hr).mpr fun hlater => hwindows h r hr hlater hle
    refine ⟨hholds, fun f hf p hp hr => hholds p.1 p.2 hr ?_⟩
    have hmem := List.mem_of_mem_filter hf
    exact ((hgood f hmem).faithful.stamps p hp).2.trans
      (le_latestOf (List.mem_map_of_mem hmem))

/-- An empty master just before its second snapshot is due. -/
def snapshotDue : UpdatedStart where
  clock := 1200014100
  db := ∅
  snapshots := [{ timestamp := 1200000000, records := [] }]
  updates := []
  begun := by decide
  fits := by decide
  snapshotsNamed f hf := by
    obtain rfl := List.mem_singleton.mp hf
    exact ⟨by decide, by decide⟩
  updatesNamed f hf := by cases hf
  snapshotsGood f hf := by
    obtain rfl := List.mem_singleton.mp hf
    exact ⟨by decide, Faithful.window ∅ 0 1200000000⟩
  updatesGood f hf := by cases hf
  distinct := List.nodup_nil

/-- A record that was last changed at the given time. -/
def recordAt (time : Uint32) : Record := Record.zero.setUpdated time

def firstHash : Hash := ⟨Vector.replicate 20 1⟩

def secondHash : Hash := ⟨Vector.replicate 20 2⟩

/-- One record changes between an update and the snapshot, another between the
snapshot and the next update. -/
def changesAroundSnapshot : List UpdatedEvent :=
  [.tick, .record firstHash (recordAt 1200014100), .wait 300, .tick,
    .record secondHash (recordAt 1200014400), .wait 300, .tick]

def secondSnapshot : SnapshotFile :=
  { timestamp := 1200014399
    records := [(firstHash, recordAt 1200014100)] }

def publishedUpdates : List UpdateFile :=
  [{ min := 1200000000, max := 1200014099, records := [] },
    { min := 1200014099, max := 1200014699
      records := [(secondHash, recordAt 1200014400),
        (firstHash, recordAt 1200014100)] }]

def updateServer : List Char := "update.bohuno.com".toList

/-- The listing as the update server sends it. -/
def publishedListing : List Char :=
  ("<D:href>https://update.bohuno.com/pyzor/updates/" ++
    "12000000001200014099</D:href>" ++
    "<D:href>https://update.bohuno.com/pyzor/updates/" ++
    "12000140991200014699</D:href>").toList

def publishedRecords (url : Url) : Dump :=
  ((publishedUpdates.find? fun f => f.url updateServer = url).map
    UpdateFile.records).getD []

theorem run_changesAroundSnapshot :
    ∃ s, (updatedSystem snapshotDue).run changesAroundSnapshot = some s ∧
      s.dirs.snapshotFiles = snapshotDue.snapshots ++ [secondSnapshot] ∧
      s.dirs.updateFiles = publishedUpdates ∧
      s.db.lookup secondHash = some (recordAt 1200014400) :=
  ⟨_, rfl, by decide +kernel, by decide +kernel, by decide +kernel⟩

theorem searchHrefs_publishedListing :
    searchHrefs 0 publishedListing =
      publishedUpdates.map (UpdateFile.href updateServer) := by
  decide +kernel

theorem publishedRecords_url :
    ∀ f ∈ publishedUpdates,
      publishedRecords (f.url updateServer) = f.records := by
  decide +kernel

theorem replica_caughtUp_changesAroundSnapshot :
    ∃ s scanned, (updatedSystem snapshotDue).run changesAroundSnapshot =
        some s ∧
      (Replica.ofSnapshot secondSnapshot.records).handleUpdatesScanSuccess
        TimeIndex.stable 200 publishedListing = .ok scanned ∧
      ((Replica.serveDownloads publishedRecords
          scanned.updates_to_download_.length scanned).CaughtUp s.db
          (latestOf (publishedUpdates.map UpdateFile.max))
          (publishedUpdates.filter fun f =>
            f.url updateServer ∉ scanned.updates_to_download_) ↔
        ∀ h r, s.db.lookup h = some r →
          secondSnapshot.timestamp < r.updated.toNat →
          r.updated.toNat ≤ latestOf (publishedUpdates.map UpdateFile.max) →
          ∃ f, lastHolding h (selected ((Replica.ofSnapshot
              secondSnapshot.records).highestTimestamp TimeIndex.stable)
                publishedUpdates) = some f ∧
            f.min ≤ r.updated.toNat ∧ r.updated.toNat ≤ f.max) := by
  obtain ⟨s, hrun, hsnapshots, hupdates, -⟩ := run_changesAroundSnapshot
  have hsnap : secondSnapshot ∈ s.dirs.snapshotFiles := by
    rw [hsnapshots]
    exact List.mem_append_right _ List.mem_cons_self
  have hlisting : publishedUpdates.Perm s.dirs.updateFiles := by
    rw [hupdates]
  obtain ⟨scanned, hscan, hiff⟩ :=
    replica_caughtUp_iff TimeIndex.stable hrun hsnap hlisting
      searchHrefs_publishedListing publishedRecords_url
  exact ⟨s, scanned, hrun, hscan, hiff⟩

/-- The second update begins before the newest record of the snapshot. -/
theorem replica_not_always_caughtUp :
    ¬ ∀ index start events s, (updatedSystem start).run events = some s →
      ∀ snap, s.dirs.snapshotFiles = start.snapshots ++ [snap] →
      ∀ listing, s.dirs.updateFiles = listing →
      ∀ host body, searchHrefs 0 body =
        listing.map (UpdateFile.href host) →
      ∀ serve : Url → Dump,
        (∀ f ∈ listing, serve (f.url host) = f.records) →
      ∃ scanned, (Replica.ofSnapshot snap.records).handleUpdatesScanSuccess
          index 200 body = .ok scanned ∧
        (Replica.serveDownloads serve scanned.updates_to_download_.length
          scanned).CaughtUp s.db (latestOf (listing.map UpdateFile.max))
          (listing.filter fun f =>
            f.url host ∉ scanned.updates_to_download_) := by
  intro h
  obtain ⟨s, hrun, hsnapshots, hupdates, hchanged⟩ := run_changesAroundSnapshot
  obtain ⟨scanned, hscan, hcaught⟩ := h TimeIndex.stable snapshotDue
    changesAroundSnapshot s hrun secondSnapshot hsnapshots publishedUpdates
    hupdates updateServer publishedListing searchHrefs_publishedListing
    publishedRecords publishedRecords_url
  have hlacks : ((Replica.ofSnapshot
      secondSnapshot.records).handleUpdatesScanSuccess TimeIndex.stable 200
        publishedListing).toOption.map (fun r => (Replica.serveDownloads
          publishedRecords r.updates_to_download_.length r).database_.lookup
            secondHash) = some none := by
    decide +kernel
  have hholds := hcaught.holds secondHash _ hchanged (by decide +kernel)
  rw [hscan, Except.toOption, Option.map_some, hholds] at hlacks
  cases hlacks

end BohunoPyzord
