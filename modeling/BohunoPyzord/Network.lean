/-
The system as a whole: slaves, the master, the exporter that publishes its
database, and the replicas that download what was published and answer
clients.  Whatever breaks or is late on the way, nobody is told of more
reports than were made.
-/
import BohunoPyzord.ArchiveTimes
import BohunoPyzord.Cluster
import BohunoPyzord.DigestKeys
import BohunoPyzord.ImportEnds
import BohunoPyzord.ScanLoop

namespace BohunoPyzord

namespace Directories

/-- The files on disk. -/
def dumps (dirs : Directories) : List Dump :=
  dirs.snapshots.map Prod.snd ++ dirs.current.toList ++
    dirs.updates.map Prod.snd

/-- Every file on disk is one with `P`. -/
structure Within (P : Dump → Prop) (dirs : Directories) : Prop where
  snapshots : ∀ file ∈ dirs.snapshots, P file.2
  current : ∀ dump ∈ dirs.current, P dump
  updates : ∀ file ∈ dirs.updates, P file.2

theorem Within.dumps {P : Dump → Prop} {dirs : Directories}
    (h : dirs.Within P) : ∀ dump ∈ dirs.dumps, P dump := by
  intro dump hdump
  rcases List.mem_append.mp hdump with hfirst | hupdate
  · rcases List.mem_append.mp hfirst with hsnapshot | hcurrent
    · obtain ⟨file, hfile, rfl⟩ := List.mem_map.mp hsnapshot
      exact h.snapshots file hfile
    · exact h.current dump (Option.mem_toList.mp hcurrent)
  · obtain ⟨file, hfile, rfl⟩ := List.mem_map.mp hupdate
    exact h.updates file hfile

theorem Within.imp {P Q : Dump → Prop} {dirs : Directories}
    (h : dirs.Within P) (hPQ : ∀ dump, P dump → Q dump) : dirs.Within Q :=
  ⟨fun file hfile => hPQ _ (h.snapshots file hfile),
    fun dump hdump => hPQ _ (h.current dump hdump),
    fun file hfile => hPQ _ (h.updates file hfile)⟩

end Directories

namespace Updated

variable {P : Dump → Prop} {dirs dirs' : Directories} {d : ClientDatabase}
  {stored : Database} {now : Nat}

theorem expireSnapshots_within {removed : Bool} (h : dirs.Within P)
    (hexpire : expireSnapshots dirs now = .ok (dirs', removed)) :
    dirs'.Within P := by
  obtain ⟨kept, hkept, hdirs⟩ := bind_eq_ok hexpire
  obtain ⟨rfl, -⟩ := Prod.mk.inj (Except.ok.inj hdirs)
  exact ⟨fun file hfile => h.snapshots file
    ((mem_of_filterM hkept).mp hfile).1, h.current, h.updates⟩

theorem expireUpdates_within (h : dirs.Within P)
    (hexpire : expireUpdates dirs = .ok dirs') : dirs'.Within P := by
  obtain ⟨oldest, -, hexpire⟩ := bind_eq_ok hexpire
  cases oldest with
  | none => exact Except.ok.inj hexpire ▸ h
  | some oldest =>
      obtain ⟨kept, hkept, hdirs⟩ := bind_eq_ok hexpire
      obtain rfl := Except.ok.inj hdirs
      exact ⟨h.snapshots, h.current, fun file hfile => h.updates file
        ((mem_of_filterM hkept).mp hfile).1⟩

theorem publish_within (name : FileName) {files : List (FileName × Dump)}
    {dump : Dump} (h : ∀ file ∈ files, P file.2) (hnew : P dump) :
    ∀ file ∈ publish files name dump, P file.2 := by
  intro file hfile
  rcases mem_publish.mp hfile with ⟨hold, -⟩ | rfl
  · exact h file hold
  · exact hnew

theorem makeSnapshot_within {fails : Option PublishStep} {created : Bool}
    (h : dirs.Within P)
    (hnew : ∀ min max dump, d.dumpModifiedRecords stored min max = .ok dump →
      P dump)
    (hmake : makeSnapshot d stored dirs now fails = .ok (dirs', created)) :
    dirs'.Within P := by
  obtain ⟨recent, -, hmake⟩ := bind_eq_ok hmake
  by_cases hdue : now - (recent.map Prod.snd).getD 0 ≥ snapshotInterval
  · rw [if_pos hdue] at hmake
    obtain ⟨dump, hdump, hmake⟩ := bind_eq_ok hmake
    have hpublished := publish_within (timestampName (now - 1))
      h.snapshots (hnew _ _ dump hdump)
    dsimp only at hmake
    split_ifs at hmake
    · obtain ⟨rfl, -⟩ := Prod.mk.inj (Except.ok.inj hmake)
      exact h
    · obtain ⟨rfl, -⟩ := Prod.mk.inj (Except.ok.inj hmake)
      exact ⟨hpublished, h.current, h.updates⟩
    · obtain ⟨rfl, -⟩ := Prod.mk.inj (Except.ok.inj hmake)
      exact ⟨hpublished, h.current, h.updates⟩
    · obtain ⟨rfl, -⟩ := Prod.mk.inj (Except.ok.inj hmake)
      exact ⟨hpublished, fun _ hnone => (Option.not_mem_none _ hnone).elim,
        h.updates⟩
    · obtain ⟨rfl, -⟩ := Prod.mk.inj (Except.ok.inj hmake)
      exact ⟨hpublished, fun current hcurrent =>
        Option.some.inj hcurrent ▸ hnew _ _ dump hdump, h.updates⟩
  · rw [if_neg hdue] at hmake
    obtain ⟨rfl, -⟩ := Prod.mk.inj (Except.ok.inj hmake)
    exact h

theorem makeUpdate_within {dump2 : Nat → Nat → Except TickFailure Dump}
    {throws : Bool} (h : dirs.Within P)
    (hnew : ∀ min max dump, dump2 min max = .ok dump → P dump)
    (hmake : makeUpdate dump2 dirs now throws = .ok dirs') :
    dirs'.Within P := by
  obtain ⟨start, -, hmake⟩ := bind_eq_ok hmake
  by_cases hzero : start ≠ 0
  · rw [if_pos hzero] at hmake
    obtain ⟨dump, hdump, hmake⟩ := bind_eq_ok hmake
    split_ifs at hmake
    · exact Except.ok.inj hmake ▸ h
    · obtain rfl := Except.ok.inj hmake
      exact ⟨h.snapshots, h.current,
        publish_within _ h.updates (hnew _ _ dump hdump)⟩
  · rw [if_neg hzero] at hmake
    exact Except.ok.inj hmake ▸ h

theorem leftBy_sublist (keep : FileName × Dump → Except TickFailure Bool)
    (files : List (FileName × Dump)) : (leftBy keep files).Sublist files := by
  induction files with
  | nil => exact List.Sublist.refl _
  | cons file files ih =>
      rw [leftBy]
      split
      · exact ih.cons_cons file
      · exact ih.cons file
      · exact List.Sublist.refl _

/-- A tick that throws leaves files that were there, and what it dumps. -/
theorem leftOnThrow_within {fails : Option PublishStep} (h : dirs.Within P)
    (hsnapshot : ∀ min max dump,
      d.dumpModifiedRecords stored min max = .ok dump → P dump) :
    (leftOnThrow d stored dirs now fails).Within P := by
  rw [leftOnThrow]
  split_ifs
  · exact h
  · split
    · exact ⟨fun file hfile => h.snapshots file
        ((leftBy_sublist _ _).subset hfile), h.current, h.updates⟩
    · rename_i dirs₁ removed hexpired
      have hkept := expireSnapshots_within h hexpired
      split
      · split
        · exact ⟨hkept.snapshots, hkept.current, fun file hfile =>
            hkept.updates file ((leftBy_sublist _ _).subset hfile)⟩
        · exact hkept
      · rename_i dirs₂ hremoved
        have hupdates : dirs₂.Within P := by
          cases removed with
          | false => exact Except.ok.inj hremoved ▸ hkept
          | true => exact expireUpdates_within hkept hremoved
        split
        · exact hupdates
        · rename_i hmade
          exact makeSnapshot_within hupdates hsnapshot hmade

/-- A tick leaves files that were there, and what it dumps. -/
theorem snapshot_within {dump2 : Nat → Nat → Except TickFailure Dump}
    {fails : Option PublishStep} {throws : Bool} (h : dirs.Within P)
    (hsnapshot : ∀ min max dump,
      d.dumpModifiedRecords stored min max = .ok dump → P dump)
    (hupdate : ∀ min max dump, dump2 min max = .ok dump → P dump)
    (htick : snapshot d stored dump2 dirs now fails throws = .ok dirs') :
    dirs'.Within P := by
  rcases snapshot_cases htick with ⟨-, rfl⟩ |
    ⟨-, dirs₁, created, hbefore, hafter⟩
  · exact h
  · obtain ⟨⟨dirs₂, removed⟩, hexpired, hbefore⟩ := bind_eq_ok hbefore
    have hkept := expireSnapshots_within h hexpired
    have hsnapshots : dirs₁.Within P := by
      cases removed with
      | false => exact makeSnapshot_within hkept hsnapshot hbefore
      | true =>
          obtain ⟨dirs₃, hremoved, hmade⟩ := bind_eq_ok hbefore
          exact makeSnapshot_within (expireUpdates_within hkept hremoved)
            hsnapshot hmade
    rcases hafter with ⟨-, rfl⟩ | ⟨-, hupdates⟩
    · exact hsnapshots
    · exact makeUpdate_within hsnapshots hupdate hupdates

end Updated

namespace PyzordDaemon

variable {s s' : PyzordDaemon} {index : TimeIndex} {P : Database → Prop}

theorem database_startUpdateDownload (h : s.startUpdateDownload = some s') :
    s'.database_ = s.database_ := by
  unfold startUpdateDownload at h
  split_ifs at h
  · exact Option.some.inj h ▸ rfl
  · split at h
    · exact Option.some.inj h ▸ rfl
    · obtain ⟨client, -, rfl⟩ := Option.map_eq_some_iff.mp h
      rfl

/-- A scan only queues what is to be downloaded. -/
theorem database_handleUpdatesScanSuccess {status : Nat} {data : Text}
    {lookupLast : Bool}
    (h : s.handleUpdatesScanSuccess index status data lookupLast = some s') :
    s'.database_ = s.database_ := by
  by_cases hok : 200 ≤ status ∧ status ≤ 299
  · cases hqueue : queueUpdates (s.highestTimestamp index) data
        s.updates_to_download_ with
    | none =>
        rw [handleUpdatesScanSuccess_of_throws hok (Or.inr hqueue)] at h
        cases h
    | some queue =>
        cases lookupLast with
        | false =>
            rw [handleUpdatesScanSuccess_of_throws hok (Or.inl rfl)] at h
            cases h
        | true =>
            rw [handleUpdatesScanSuccess_of_queue hok hqueue] at h
            obtain ⟨started, hstarted, rfl⟩ := Option.map_eq_some_iff.mp h
            split_ifs at hstarted
            · have hkept := database_startUpdateDownload hstarted
              exact hkept
            · exact Option.some.inj hstarted ▸ rfl
  · unfold handleUpdatesScanSuccess at h
    by_cases hrefused : status = 401
    · rw [if_pos hrefused] at h
      exact Option.some.inj h ▸ rfl
    · rw [if_neg hrefused, if_neg hok] at h
      exact Option.some.inj h ▸ rfl

theorem database_handleUpdateDownloadSuccess {status : Nat} {imported : Dump}
    (h : s.handleUpdateDownloadSuccess status imported = some s') :
    s'.database_ = s.database_ ∨
      s'.database_ = s.database_.importDump imported := by
  unfold handleUpdateDownloadSuccess at h
  split_ifs at h
  · exact Or.inl (Option.some.inj h ▸ rfl)
  · exact Or.inr (database_startUpdateDownload
      (s := { s with
        updates_to_download_ := s.updates_to_download_.tail
        database_ := s.database_.importDump imported }) h)
  · exact Or.inl (Option.some.inj h ▸ rfl)

/-- What an exception leaves is the database as it was. -/
theorem database_finish {result : Option PyzordDaemon}
    (h : P s.database_) (hresult : ∀ s', result = some s' → P s'.database_) :
    P (s.finish result).database_ := by
  cases result with
  | none => exact h
  | some s' => exact hresult s' rfl

theorem database_answer {i : Nat} {p : PyzordOperation → Bool}
    {handler : PyzordDaemon → Option PyzordDaemon}
    (hanswer : s.answer i p handler = some s') (h : P s.database_)
    (hhandler : ∀ io s', handler { s with io } = some s' → P s'.database_) :
    P s'.database_ := by
  obtain ⟨op, io, -, -, -, rfl⟩ := answer_eq_some hanswer
  exact database_finish h (hhandler io)

/-- A step of the daemon leaves the database alone or imports a download. -/
theorem database_step {event : PyzordEvent} (h : P s.database_)
    (himport : ∀ i status imported,
      event = .updateDownloadSuccess i status imported →
        P (s.database_.importDump imported))
    (hstep : s.step index event = some s') : P s'.database_ := by
  rw [PyzordDaemon.step] at hstep
  split_ifs at hstep
  have hsocket : ∀ {udp}, s.socketStep udp = some s' → P s'.database_ := by
    intro udp hudp
    obtain ⟨server, -, rfl⟩ := Option.map_eq_some_iff.mp hudp
    exact h
  cases event with
  | expire i =>
      rw [perform] at hstep
      split_ifs at hstep
      obtain ⟨io, -, rfl⟩ := Option.map_eq_some_iff.mp hstep
      exact h
  | handleTimer i computerId now =>
      obtain ⟨⟨op, io⟩, -, hstep⟩ := Option.bind_eq_some_iff.mp hstep
      obtain ⟨result, hresult, rfl⟩ := Option.map_eq_some_iff.mp hstep
      refine database_finish h fun after hafter => ?_
      obtain ⟨after', rfl, hcases⟩ := handleTimer_cases hresult
      obtain rfl := Option.some.inj hafter
      rcases hcases with ⟨-, -, rfl⟩ | ⟨state, url, -, rfl⟩ | ⟨-, rfl⟩ |
        ⟨-, rfl⟩
      · exact h
      · exact h
      · exact h
      · exact h
  | statisticsFailure i =>
      rw [perform] at hstep
      refine database_answer hstep h fun io after hafter => ?_
      exact Option.some.inj hafter ▸ h
  | statisticsSuccess i status =>
      rw [perform] at hstep
      refine database_answer hstep h fun io after hafter => ?_
      exact Option.some.inj hafter ▸ h
  | updatesScanFailure i =>
      rw [perform] at hstep
      refine database_answer hstep h fun io after hafter => ?_
      exact Option.some.inj hafter ▸ h
  | updatesScanSuccess i status data lookupLast =>
      rw [perform] at hstep
      refine database_answer hstep h fun io after hafter => ?_
      rw [database_handleUpdatesScanSuccess hafter]
      exact h
  | updateDownloadFailure i =>
      rw [perform] at hstep
      refine database_answer hstep h fun io after hafter => ?_
      rw [database_startUpdateDownload hafter]
      exact h
  | updateDownloadSuccess i status imported =>
      rw [perform] at hstep
      refine database_answer hstep h fun io after hafter => ?_
      rcases database_handleUpdateDownloadSuccess hafter with
        hsame | himported
      · rw [hsame]
        exact h
      · rw [himported]
        exact himport i status imported rfl
  | requestThrows i =>
      rw [perform] at hstep
      refine database_answer hstep h fun io after hafter => ?_
      cases hafter
  | handleStop i =>
      rw [perform] at hstep
      refine database_answer hstep h fun io after hafter => ?_
      exact Option.some.inj hafter ▸ h
  | signal =>
      rw [perform] at hstep
      split_ifs at hstep
      exact Option.some.inj hstep ▸ h
  | deliver i sender datagram => exact hsocket hstep
  | fail i => exact hsocket hstep
  | handleReceiveFrom i now lookup =>
      obtain ⟨⟨outcome, socket_⟩, -, rfl⟩ := Option.map_eq_some_iff.mp hstep
      refine database_finish h fun after hafter => ?_
      rcases handleReceiveFrom_cases
          { s with server := { s.server with socket_ } } now lookup
          outcome with ⟨-, hthrows⟩ | ⟨-, server, -, hanswers⟩
      · rw [hthrows] at hafter
        cases hafter
      · rw [hanswers] at hafter
        exact Option.some.inj hafter ▸ h
  | readSend j => exact hsocket hstep
  | handleSendTo j error => exact hsocket hstep

end PyzordDaemon

/-- The slaves and their master, `held` being what its database has held so
far; the directories of the exporter, `published` being what has stood in them
so far; and the replicas. -/
structure Network where
  cluster : Cluster
  held : List Database
  directories : Directories
  published : List Dump
  replicas : List PyzordDaemon

/-- Something happens to the slaves or the master; the exporter ticks, its own
copy of the database being behind by any amount, and is started again if an
exception ended it; a replica is set up with the first records of a file;
something happens to a replica. -/
inductive NetworkEvent where
  | cluster (event : ClusterEvent)
  | snapshot (d : ClientDatabase) (behind : Nat) (currentTime : Nat)
      (fails : Option PublishStep) (throws : Bool)
  | setup (file records : Nat) (state : PyzordState)
  | replica (k : Nat) (event : PyzordEvent)

namespace Network

/-- A download is of a file that has been published, at some time, and is
whole: the import of one that was cut short does not end.  Whatever calls on
the database fail, an import commits the first records of the file. -/
def serves (s : Network) : PyzordEvent → Bool
  | .updateDownloadSuccess _ _ imported => imported.isEmpty ||
      s.published.any fun dump => decide (imported <+: dump)
  | _ => true

def step (index : TimeIndex) (s : Network) : NetworkEvent → Option Network
  | .cluster event => (s.cluster.step index event).map fun cluster =>
      { s with cluster, held := s.held ++ [cluster.stored] }
  | .snapshot d behind currentTime fails throws =>
      s.held[behind]?.map fun stored =>
        let directories :=
          match Updated.snapshot d stored (d.dumpModifiedRecords2 index stored)
              s.directories currentTime fails throws with
          | .ok directories => directories
          | .error _ => Updated.leftOnThrow d stored s.directories currentTime
              fails
        { s with directories, published := s.published ++ directories.dumps }
  | .setup file records state => s.published[file]?.map fun dump =>
      { s with replicas := s.replicas ++ [(pyzordDaemonSystem index
          (Database.importDump ∅ (dump.take records)) state).init] }
  | .replica k event =>
      if s.serves event then
        s.replicas[k]?.bind fun daemon => (daemon.step index event).map
          fun daemon => { s with replicas := s.replicas.set k daemon }
      else none

end Network

def networkSystem (index : TimeIndex) (slaves : Nat) :
    StepSystem Network NetworkEvent where
  init := {
    cluster := (clusterSystem index slaves).init
    held := [∅]
    directories := { snapshots := [], current := none, updates := [] }
    published := [], replicas := [] }
  step := Network.step index

/-- What an import of a published file comes to is served. -/
theorem Network.serves_of_import {s : Network} {dump : Dump}
    (hdump : dump ∈ s.published) {stored : Database}
    {calls : Nat → ImportCalls} {fuel : Nat}
    {ended : Except ImportError Int × ImportState}
    (hended : stored.importStream calls fuel
      (InputStream.opened (dumpStream dump)) = some ended) (i : Nat) :
    ∃ imported, s.serves (.updateDownloadSuccess i 200 imported) = true ∧
      ended.2.stored = stored.importDump imported := by
  obtain ⟨imported, hbeginning, hstored⟩ := importStream_beginning hended
  exact ⟨imported, Bool.or_eq_true_iff.mpr (Or.inr (List.any_eq_true.mpr
    ⟨dump, hdump, decide_eq_true hbeginning⟩)), hstored⟩

/-- One of some databases held the record. -/
def HeldIn (held : List Database) (p : Hash × Record) : Prop :=
  ∃ db ∈ held, db.lookup p.1 = some p.2

theorem HeldIn.append {held : List Database} {p : Hash × Record}
    (h : HeldIn held p) (more : List Database) : HeldIn (held ++ more) p := by
  obtain ⟨db, hdb, hlookup⟩ := h
  exact ⟨db, List.mem_append_left _ hdb, hlookup⟩

/-- Every record of the database was held by one of some. -/
def Copies (held : List Database) (db : Database) : Prop :=
  ∀ h r, db.lookup h = some r → HeldIn held (h, r)

theorem Copies.importDump {held : List Database} {db : Database}
    {records : Dump} (h : Copies held db)
    (hrecords : ∀ p ∈ records, HeldIn held p) :
    Copies held (db.importDump records) := by
  intro hash r hlookup
  rw [lookup_importDump] at hlookup
  cases hcopy : lastCopy records hash with
  | none =>
      rw [hcopy] at hlookup
      exact h hash r hlookup
  | some copy =>
      rw [hcopy] at hlookup
      obtain rfl := Option.some.inj hlookup
      exact hrecords _ (mem_of_lastCopy hcopy)

theorem copies_empty (held : List Database) : Copies held ∅ := by
  intro h r hlookup
  cases hlookup

/-- What the exporter dumps are records of its database. -/
theorem heldIn_of_window {held : List Database} {stored : Database}
    (hstored : stored ∈ held) {d : ClientDatabase} {min max : Nat}
    {dump : Dump} (h : d.dumpModifiedRecords stored min max = .ok dump) :
    ∀ p ∈ dump, HeldIn held p := by
  rw [ClientDatabase.dumpModifiedRecords] at h
  split_ifs at h
  obtain rfl := Except.ok.inj h
  intro p hp
  exact ⟨stored, hstored, Database.mem_pairs.mp (List.mem_filter.mp hp).1⟩

theorem heldIn_of_written {held : List Database} {stored : Database}
    (hstored : stored ∈ held) {d : ClientDatabase} {index : TimeIndex}
    {min max : Nat} {dump : Dump}
    (h : d.dumpModifiedRecords2 index stored min max = .ok dump) :
    ∀ p ∈ dump, HeldIn held p := by
  rw [ClientDatabase.dumpModifiedRecords2] at h
  split_ifs at h
  obtain rfl := Except.ok.inj h
  intro p hp
  have hentry : p ∈ index.entriesFrom stored min :=
    List.mem_of_mem_tail ((List.takeWhile_sublist _).subset hp)
  exact ⟨stored, hstored, (index.mem_entriesFrom.mp hentry).1⟩

namespace Network

variable {index : TimeIndex} {s s' : Network}

/-- What a replica stores the master has stored; nobody stores a record that
counts more updates than were passed to the slaves by now, no file that was
published has one, and neither a server that reads what the master has stored
nor a replica answers a check, by whatever digest, with more. -/
structure CountsOnce (s : Network) : Prop where
  replicated : ∀ daemon ∈ s.replicas, Copies s.held daemon.database_
  count_le : ∀ db, db ∈ s.held ∨ (∃ daemon ∈ s.replicas,
      daemon.database_ = db) → ∀ h r tally, db.lookup h = some r →
    (r.count tally).toNat ≤ s.cluster.passed h tally.updateType
  published_le : ∀ dump ∈ s.published, ∀ p ∈ dump, ∀ tally,
    (p.2.count tally).toNat ≤ s.cluster.passed p.1 tally.updateType
  server : ∀ db ∈ s.held, ∀ (state : ServerState) now digest h res,
    decodeSignature digest = some h →
      TellsAtMost (s.cluster.passed h) (state.check db now digest res).2
  pyzord : ∀ daemon ∈ s.replicas, ∀ (state : PyzordState) now digest h res,
    decodeSignature digest = some h →
      TellsAtMost (s.cluster.passed h)
        (state.check daemon.database_ now digest res).2

structure Inv (s : Network) : Prop where
  cluster : s.cluster.Inv
  counted : ∀ p tally, HeldIn s.held p →
    (p.2.count tally).toNat ≤ s.cluster.passed p.1 tally.updateType
  directories : s.directories.Within fun dump => ∀ p ∈ dump, HeldIn s.held p
  published : ∀ dump ∈ s.published, ∀ p ∈ dump, HeldIn s.held p
  replicas : ∀ daemon ∈ s.replicas, Copies s.held daemon.database_

theorem inv_init (slaves : Nat) : (networkSystem index slaves).init.Inv where
  cluster :=
    (Cluster.inv_init slaves : (clusterSystem index slaves).init.Inv)
  counted := by
    rintro p tally ⟨db, hdb, hlookup⟩
    rw [List.mem_singleton.mp hdb] at hlookup
    cases hlookup
  directories := ⟨fun _ h => absurd h List.not_mem_nil,
    fun _ h => (Option.not_mem_none _ h).elim,
    fun _ h => absurd h List.not_mem_nil⟩
  published _ h := absurd h List.not_mem_nil
  replicas _ h := absurd h List.not_mem_nil

/-- What the master holds next counts no more than was passed, and nothing
that was passed is taken back. -/
theorem inv_cluster {event : ClusterEvent} (hs : s.Inv)
    (hstep : s.step index (.cluster event) = some s') : s'.Inv := by
  obtain ⟨cluster, hcluster, rfl⟩ := Option.map_eq_some_iff.mp hstep
  have hinv : cluster.Inv := Cluster.inv_step 0 hs.cluster trivial hcluster
  refine ⟨hinv, ?_, hs.directories.imp fun dump h p hp => (h p hp).append _,
    fun dump hdump p hp => (hs.published dump hdump p hp).append _,
    fun daemon hdaemon h r hlookup =>
      (hs.replicas daemon hdaemon h r hlookup).append _⟩
  rintro p tally ⟨db, hdb, hlookup⟩
  rcases List.mem_append.mp hdb with hold | hnew
  · exact (hs.counted p tally ⟨db, hold, hlookup⟩).trans
      (Cluster.passed_step hcluster p.1 _)
  · rw [List.mem_singleton.mp hnew] at hlookup
    exact hinv.count_le hlookup tally

theorem inv_snapshot {d : ClientDatabase} {behind currentTime : Nat}
    {fails : Option PublishStep} {throws : Bool} (hs : s.Inv)
    (hstep : s.step index (.snapshot d behind currentTime fails throws) =
      some s') : s'.Inv := by
  obtain ⟨stored, hbehind, rfl⟩ := Option.map_eq_some_iff.mp hstep
  have hstored := List.mem_of_getElem? hbehind
  generalize hdirs : (match Updated.snapshot d stored
      (d.dumpModifiedRecords2 index stored) s.directories currentTime fails
      throws with
    | .ok directories => directories
    | .error _ => Updated.leftOnThrow d stored s.directories currentTime
        fails) = directories
  have hdirectories : directories.Within
      fun dump => ∀ p ∈ dump, HeldIn s.held p := by
    rw [← hdirs]
    split
    · rename_i htick
      exact Updated.snapshot_within hs.directories
        (fun min max dump => heldIn_of_window hstored)
        (fun min max dump => heldIn_of_written hstored) htick
    · exact Updated.leftOnThrow_within hs.directories
        fun min max dump => heldIn_of_window hstored
  refine ⟨hs.cluster, hs.counted, hdirectories, ?_, hs.replicas⟩
  intro dump hdump
  rcases List.mem_append.mp hdump with hold | hnew
  · exact hs.published dump hold
  · exact hdirectories.dumps dump hnew

theorem inv_setup {file records : Nat} {state : PyzordState} (hs : s.Inv)
    (hstep : s.step index (.setup file records state) = some s') :
    s'.Inv := by
  obtain ⟨dump, hfile, rfl⟩ := Option.map_eq_some_iff.mp hstep
  refine ⟨hs.cluster, hs.counted, hs.directories, hs.published, ?_⟩
  intro daemon hdaemon
  rcases List.mem_append.mp hdaemon with hold | hnew
  · exact hs.replicas daemon hold
  · rw [List.mem_singleton.mp hnew]
    refine (copies_empty s.held).importDump fun p hp => ?_
    exact hs.published dump (List.mem_of_getElem? hfile) p
      (List.mem_of_mem_take hp)

/-- What a replica imports was published. -/
theorem inv_replica {k : Nat} {event : PyzordEvent} (hs : s.Inv)
    (hstep : s.step index (.replica k event) = some s') : s'.Inv := by
  rw [step] at hstep
  split_ifs at hstep with hserves
  obtain ⟨daemon, hk, hstep⟩ := Option.bind_eq_some_iff.mp hstep
  obtain ⟨daemon', hdaemon', rfl⟩ := Option.map_eq_some_iff.mp hstep
  have hdaemon := hs.replicas daemon (List.mem_of_getElem? hk)
  have hcopies : Copies s.held daemon'.database_ := by
    refine PyzordDaemon.database_step hdaemon ?_ hdaemon'
    rintro i status imported rfl
    refine hdaemon.importDump fun p hp => ?_
    rcases Bool.or_eq_true_iff.mp hserves with hempty | hpublished
    · rw [List.isEmpty_iff.mp hempty] at hp
      exact absurd hp List.not_mem_nil
    · obtain ⟨dump, hdump, hbeginning⟩ := List.any_eq_true.mp hpublished
      exact hs.published dump hdump p
        ((of_decide_eq_true hbeginning).subset hp)
  refine ⟨hs.cluster, hs.counted, hs.directories, hs.published, ?_⟩
  intro other hother
  rcases List.mem_or_eq_of_mem_set hother with hold | rfl
  · exact hs.replicas other hold
  · exact hcopies

theorem inv_step (slaves : Nat) :
    (networkSystem index slaves).Preserves Inv fun _ _ => True := by
  intro s s' event hs _ hstep
  change s.step index event = some s' at hstep
  cases event with
  | cluster event => exact inv_cluster hs hstep
  | snapshot d behind currentTime fails throws => exact inv_snapshot hs hstep
  | setup file records state => exact inv_setup hs hstep
  | replica k event => exact inv_replica hs hstep

/-- A check at a replica is answered with the counts of its record, or with
zeros. -/
theorem check_pyzord (state : PyzordState) (db : Database) (now : Readings)
    {digest : Text} {h : Hash} (res : Packet)
    (hdigest : decodeSignature digest = some h) :
    (∃ r, db.lookup h = some r ∧
      (state.check db now digest res).2 = res.setCounts
        (r.count .report).toNat (r.count .whitelist).toNat) ∨
    (state.check db now digest res).2 = res.setCounts 0 0 := by
  rw [PyzordState.check, ofHex_eq_decodeSignature, hdigest]
  simp only [Option.map_some, Option.getD_some, Database.lookupRecord]
  cases hlookup : db.lookup h with
  | none => exact Or.inr rfl
  | some r => exact Or.inl ⟨r, rfl, rfl⟩

theorem Inv.countsOnce (hs : s.Inv) : s.CountsOnce where
  replicated := hs.replicas
  count_le := by
    rintro db (hheld | ⟨daemon, hdaemon, rfl⟩) h r tally hlookup
    · exact hs.counted (h, r) tally ⟨db, hheld, hlookup⟩
    · exact hs.counted (h, r) tally (hs.replicas daemon hdaemon h r hlookup)
  published_le := fun dump hdump p hp tally =>
    hs.counted p tally (hs.published dump hdump p hp)
  server := by
    intro db hheld state now digest h res hdigest
    rcases Cluster.check_cases state db now res hdigest with
      ⟨r, hr, hreply⟩ | hreply
    · rw [hreply]
      have hheldIn : HeldIn s.held (h, r) := ⟨db, hheld, hr⟩
      exact ⟨_, _, hs.counted (h, r) .report hheldIn,
        hs.counted (h, r) .whitelist hheldIn, get_setCounts _ _ _⟩
    · rw [hreply]
      exact tellsAtMost_zero _ res
  pyzord := by
    intro daemon hdaemon state now digest h res hdigest
    rcases check_pyzord state daemon.database_ now res hdigest with
      ⟨r, hr, hreply⟩ | hreply
    · rw [hreply]
      have hheldIn := hs.replicas daemon hdaemon h r hr
      exact ⟨_, _, hs.counted (h, r) .report hheldIn,
        hs.counted (h, r) .whitelist hheldIn, get_setCounts _ _ _⟩
    · rw [hreply]
      exact tellsAtMost_zero _ res

/-- In every run of the whole system. -/
theorem always_tellsAtMost (index : TimeIndex) (slaves : Nat)
    (events : List NetworkEvent) :
    (networkSystem index slaves).Always CountsOnce events :=
  StepSystem.always_of_invariant _ (inv_init slaves) (inv_step slaves)
    (fun _ hs => hs.countsOnce) events

end Network

end BohunoPyzord
