/-
The daemon as a replica.  Its queue, the downloads it has in flight, its scans
and its database go the way of a replica, whatever else its service and its
socket are about.
-/
import BohunoPyzord.StoppedDaemon

namespace BohunoPyzord

/-- What is asked for by a download. -/
def PyzordOperation.downloadUrl : PyzordOperation → Option Url
  | .updateDownload url => some url
  | _ => none

/-- What a replica makes of a listing that it can read. -/
theorem Replica.handleUpdatesScanSuccess_of_queue {r : Replica}
    {index : TimeIndex} {status : Nat} {data : Text} {queue : List Url}
    (hok : 200 ≤ status ∧ status ≤ 299)
    (hqueue : (searchHrefs 0 data).foldlM
      (queueUpdate (r.highestTimestamp index)) r.updates_to_download_ =
        .ok queue) :
    r.handleUpdatesScanSuccess index status data =
      .ok (if r.updates_to_download_.isEmpty then
          { r with updates_to_download_ := queue }.startUpdateDownload
        else { r with updates_to_download_ := queue }).scheduleUpdatesScan := by
  have hrefused : status ≠ 401 := by omega
  unfold handleUpdatesScanSuccess
  rw [if_neg hrefused, if_pos hok, hqueue]
  rfl

/-- The handler of the end of a download. -/
def DownloadResult.handle (r : Replica) : DownloadResult → Replica
  | .failure => r.handleUpdateDownloadFailure
  | .success status imported _ => r.handleUpdateDownloadSuccess status imported

theorem ReplicaRun.finishScan_of_ok {r : ReplicaRun} {index : TimeIndex}
    {status : Nat} {data : Text} {replica : Replica}
    (h : r.replica.handleUpdatesScanSuccess index status data = .ok replica) :
    ∃ r', r.finishScan index status data = some r' ∧
      r'.scans = r.scans - 1 ∧ r'.replica = replica := by
  unfold finishScan
  rw [h]
  exact ⟨_, rfl, rfl, rfl⟩

theorem ReplicaRun.finishDownload_of_inFlight {r : ReplicaRun} {j : Nat}
    {url : Url} (h : r.replica.requests[j]? = some url)
    (result : DownloadResult) :
    ∃ r', r.finishDownload j result = some r' ∧ r'.scans = r.scans ∧
      r'.replica = result.handle { r.replica with
        requests := r.replica.requests.eraseIdx j } := by
  unfold finishDownload
  rw [h]
  cases result with
  | failure => exact ⟨_, rfl, rfl, rfl⟩
  | success status imported complete => exact ⟨_, rfl, rfl, rfl⟩

open StepSystem (reaches_self reaches_of_step)

namespace PyzordDaemon

/-- The downloads in flight. -/
def downloads (s : PyzordDaemon) : List Url :=
  s.io.project PyzordOperation.downloadUrl

/-- The scan timer is armed: a wait that has neither run out nor been
cancelled. -/
def scanWaits (op : Operation PyzordOperation) : Nat :=
  if op.kind = .updatesScanTimer ∧ op.progress = .outstanding then 1 else 0

/-- A scan is due from the time the timer has run out. -/
def scanDue (op : Operation PyzordOperation) : Nat :=
  if op.kind = .updatesScan ∨
      (op.kind = .updatesScanTimer ∧ op.progress = .completed) then 1
  else 0

/-- The replica in the daemon.  Whether a stop was posted has no effect on
what a replica does. -/
def asReplica (s : PyzordDaemon) (stopPosted : Bool) : Replica where
  database_ := s.database_
  updates_to_download_ := s.updates_to_download_
  requests := s.downloads
  scanArmed := decide (0 < s.io.weight scanWaits)
  shutdown_ := s.server.shutdown_
  stopPosted := stopPosted

/-- As long as it runs the daemon is where a replica is; the timer of its scan
is armed once at most. -/
def Tracks (s : PyzordDaemon) (r : ReplicaRun) : Prop :=
  s.running = true → s.io.weight scanWaits ≤ 1 ∧
    r.scans = s.io.weight scanDue ∧ ∃ posted, r.replica = s.asReplica posted

/-- Nothing of the replica changes. -/
structure Stays (s s' : PyzordDaemon) : Prop where
  replica : ∀ posted, s'.asReplica posted = s.asReplica posted
  waits : s'.io.weight scanWaits = s.io.weight scanWaits
  due : s'.io.weight scanDue = s.io.weight scanDue

/-- What a handler leaves of the scans: none is started. -/
structure StartsNoScan (s s' : PyzordDaemon) : Prop where
  waits : s.io.weight scanWaits ≤ 1 → s'.io.weight scanWaits ≤ 1
  due : s'.io.weight scanDue = s.io.weight scanDue

section Following

variable {index : TimeIndex} {db : Database} {s s' : PyzordDaemon}
  {r : ReplicaRun}

theorem Stays.trans {s'' : PyzordDaemon} (first : Stays s s')
    (second : Stays s' s'') : Stays s s'' where
  replica posted := (second.replica posted).trans (first.replica posted)
  waits := second.waits.trans first.waits
  due := second.due.trans first.due

theorem Tracks.of_stays (h : s.Tracks r) (hrunning : s.running = true)
    (hstays : Stays s s') : s'.Tracks r := by
  intro _
  obtain ⟨hwaits, hdue, posted, hreplica⟩ := h hrunning
  exact ⟨hstays.waits.le.trans hwaits, hdue.trans hstays.due.symm, posted,
    hreplica.trans (hstays.replica posted).symm⟩

theorem reaches_of_stays (h : s.Tracks r) (hrunning : s.running = true)
    (hstays : Stays s s') : (replicaSystem index db).Reaches s'.Tracks r :=
  reaches_self _ (h.of_stays hrunning hstays)

/-- A handler that throws ends the daemon, and nothing is said of it then. -/
theorem reaches_finish {result : Option PyzordDaemon}
    (h : ∀ s' ∈ result, (replicaSystem index db).Reaches s'.Tracks r) :
    (replicaSystem index db).Reaches (s.finish result).Tracks r := by
  cases result with
  | none => exact reaches_self _ fun hrunning => by cases hrunning
  | some s' => exact h s' rfl

/-! What is started and taken off. -/

theorem weight_scanDue_cancel (io : IoService PyzordOperation)
    (p : PyzordOperation → Bool) :
    (io.cancel p).weight scanDue = io.weight scanDue := by
  rw [IoService.weight_cancel]
  congr 1
  funext op
  unfold Operation.cancel
  split
  · rename_i hop
    simp [scanDue, hop.2]
  · rfl

theorem weight_scanWaits_cancel (io : IoService PyzordOperation) :
    (io.cancel (· = .updatesScanTimer)).weight scanWaits = 0 := by
  rw [IoService.weight_cancel, IoService.weight]
  apply List.sum_eq_zero
  intro n hn
  obtain ⟨op, -, rfl⟩ := List.mem_map.mp hn
  obtain ⟨kind, progress⟩ := op
  cases progress with
  | outstanding =>
      by_cases hkind : kind = .updatesScanTimer
      · simp [Operation.cancel, scanWaits, hkind]
      · simp [Operation.cancel, scanWaits, hkind]
  | completed => simp [Operation.cancel, scanWaits]
  | cancelled => simp [Operation.cancel, scanWaits]

/-- Cancelling waits for another timer. -/
theorem weight_scanWaits_cancel_other (io : IoService PyzordOperation)
    {timer : PyzordOperation} (h : timer ≠ .updatesScanTimer) :
    (io.cancel (· = timer)).weight scanWaits = io.weight scanWaits := by
  rw [IoService.weight_cancel]
  congr 1
  funext op
  by_cases hop : op.kind = timer
  · rw [scanWaits, scanWaits, Operation.kind_cancel, if_neg, if_neg]
    · exact fun hwaits => h (hop.symm.trans hwaits.1)
    · exact fun hwaits => h (hop.symm.trans hwaits.1)
  · congr 1
    exact Operation.cancel_eq_self (decide_eq_false hop)

theorem stays_start {operation : PyzordOperation}
    (htimer : operation ≠ .updatesScanTimer) (hscan : operation ≠ .updatesScan)
    (hurl : operation.downloadUrl = none) : Stays s (s.start operation) where
  replica posted := by
    simp [asReplica, downloads, start, hurl, scanWaits, htimer]
  waits := by simp [start, scanWaits, htimer]
  due := by simp [start, scanDue, htimer, hscan]

theorem stays_schedule (timer : PyzordOperation)
    (htimer : timer ≠ .updatesScanTimer) (hscan : timer ≠ .updatesScan)
    (hurl : timer.downloadUrl = none) : Stays s (s.schedule timer) := by
  have hcancelled : Stays s { s with io := s.io.cancel (· = timer) } := by
    refine ⟨fun posted => ?_, weight_scanWaits_cancel_other s.io htimer,
      weight_scanDue_cancel s.io _⟩
    simp [asReplica, downloads, weight_scanWaits_cancel_other s.io htimer]
  exact hcancelled.trans (stays_start htimer hscan hurl)

/-- An operation other than a download and an armed timer is taken off. -/
theorem asReplica_take {io : IoService PyzordOperation} {i : Nat}
    {op : Operation PyzordOperation} (h : s.io.take i = some (op, io))
    (hwaits : scanWaits op = 0) (hurl : op.kind.downloadUrl = none) :
    io.weight scanWaits = s.io.weight scanWaits ∧
      ∀ posted, { s with io }.asReplica posted = s.asReplica posted := by
  have hsame : io.weight scanWaits = s.io.weight scanWaits := by
    rw [IoService.weight_take h, hwaits, Nat.add_zero]
  refine ⟨hsame, fun posted => ?_⟩
  simp only [asReplica, downloads, hsame,
    IoService.project_take_none _ h hurl]

/-- An operation that the replica does not know of is taken off. -/
theorem stays_take {io : IoService PyzordOperation} {i : Nat}
    {op : Operation PyzordOperation} (h : s.io.take i = some (op, io))
    (hwaits : scanWaits op = 0) (hdue : scanDue op = 0)
    (hurl : op.kind.downloadUrl = none) : Stays s { s with io } := by
  obtain ⟨hsame, hreplica⟩ := asReplica_take h hwaits hurl
  refine ⟨hreplica, hsame, ?_⟩
  rw [IoService.weight_take h scanDue, hdue, Nat.add_zero]

/-! What the handlers do to the replica. -/

theorem stays_stop : Stays s s.stop where
  replica posted := by
    simp [asReplica, downloads, stop, PyzordOperation.downloadUrl, scanWaits]
  waits := by simp [stop, scanWaits]
  due := by simp [stop, scanDue]

/-- The answer of 401. -/
theorem stays_refused : Stays s { s with refused := true }.stop := by
  have hrefused : Stays s { s with refused := true } :=
    ⟨fun _ => rfl, rfl, rfl⟩
  exact hrefused.trans stays_stop

theorem startUpdateDownload_spec (h : s.startUpdateDownload = some s') :
    StartsNoScan s s' ∧ ∀ posted,
      (s.asReplica posted).startUpdateDownload = s'.asReplica posted := by
  unfold startUpdateDownload at h
  have hstart : ∀ posted, (s.asReplica posted).startUpdateDownload =
      if s.server.shutdown_ then s.asReplica posted
      else { s.asReplica posted with
        requests := s.downloads ++ s.updates_to_download_.take 1 } :=
    fun posted => Replica.startUpdateDownload_eq _
  simp only [hstart]
  cases hdown : s.server.shutdown_ with
  | true =>
      rw [hdown] at h
      obtain rfl := Option.some.inj h
      exact ⟨⟨id, rfl⟩, fun _ => rfl⟩
  | false =>
      rw [hdown] at h
      cases hqueue : s.updates_to_download_ with
      | nil =>
          rw [hqueue] at h
          obtain rfl := Option.some.inj h
          exact ⟨⟨id, rfl⟩, fun posted => by simp [asReplica]⟩
      | cons url urls =>
          rw [hqueue] at h
          obtain ⟨client, -, rfl⟩ := Option.map_eq_some_iff.mp h
          refine ⟨⟨?_, ?_⟩, fun posted => ?_⟩
          · simp [start, scanWaits]
          · simp [start, scanDue]
          · simp [asReplica, downloads, start, scanWaits, hqueue,
              PyzordOperation.downloadUrl]

theorem scheduleUpdatesScan_spec :
    StartsNoScan s s.scheduleUpdatesScan ∧ ∀ posted,
      (s.asReplica posted).scheduleUpdatesScan =
        s.scheduleUpdatesScan.asReplica posted := by
  have hwaits : s.scheduleUpdatesScan.io.weight scanWaits = 1 := by
    simp [scheduleUpdatesScan, schedule, start, weight_scanWaits_cancel,
      scanWaits]
  refine ⟨⟨fun _ => hwaits.le, ?_⟩, fun posted => ?_⟩
  · simp [scheduleUpdatesScan, schedule, start, weight_scanDue_cancel, scanDue]
  · simp only [Replica.scheduleUpdatesScan, asReplica, hwaits]
    simp [scheduleUpdatesScan, schedule, start, downloads,
      PyzordOperation.downloadUrl]

theorem StartsNoScan.trans {s'' : PyzordDaemon} (first : StartsNoScan s s')
    (second : StartsNoScan s' s'') : StartsNoScan s s'' where
  waits h := second.waits (first.waits h)
  due := second.due.trans first.due

theorem Stays.startsNoScan (h : Stays s s') : StartsNoScan s s' where
  waits hwaits := h.waits.le.trans hwaits
  due := h.due

/-- What the daemon makes of a listing is what the replica does. -/
theorem asReplica_handleUpdatesScanSuccess {status : Nat} {data : Text}
    {lookupLast : Bool}
    (h : s.handleUpdatesScanSuccess index status data lookupLast = some s')
    (posted : Bool) : StartsNoScan s s' ∧ ∃ posted',
      (s.asReplica posted).handleUpdatesScanSuccess index status data =
        .ok (s'.asReplica posted') := by
  by_cases hok : 200 ≤ status ∧ status ≤ 299
  · cases lookupLast with
    | false =>
        rw [handleUpdatesScanSuccess_of_throws hok (Or.inl rfl)] at h
        cases h
    | true =>
        cases hqueue : queueUpdates (s.highestTimestamp index) data
            s.updates_to_download_ with
        | none =>
            rw [handleUpdatesScanSuccess_of_throws hok (Or.inr hqueue)] at h
            cases h
        | some queue =>
            rw [handleUpdatesScanSuccess_of_queue hok hqueue] at h
            obtain ⟨mid, hmid, rfl⟩ := Option.map_eq_some_iff.mp h
            obtain ⟨hlast, hscheduled⟩ := scheduleUpdatesScan_spec (s := mid)
            have hreplica := Replica.handleUpdatesScanSuccess_of_queue
              (r := s.asReplica posted) hok (queueUpdates_eq_some.mp hqueue)
            split_ifs at hmid with hempty
            · obtain ⟨hfirst, hstarted⟩ := startUpdateDownload_spec hmid
              have hwhole : StartsNoScan s mid := ⟨hfirst.waits, hfirst.due⟩
              refine ⟨hwhole.trans hlast, posted, ?_⟩
              have hfront : (s.asReplica posted).updates_to_download_.isEmpty =
                true := hempty
              rw [hreplica, if_pos hfront, ← hscheduled, ← hstarted]
              rfl
            · obtain rfl := Option.some.inj hmid
              refine ⟨⟨hlast.waits, hlast.due⟩, posted, ?_⟩
              have hfront : ¬ (s.asReplica posted).updates_to_download_.isEmpty =
                true := hempty
              rw [hreplica, if_neg hfront, ← hscheduled]
              rfl
  · unfold handleUpdatesScanSuccess at h
    unfold Replica.handleUpdatesScanSuccess
    by_cases hrefused : status = 401
    · rw [if_pos hrefused] at h ⊢
      obtain rfl := Option.some.inj h
      have hstays := stays_refused (s := s)
      refine ⟨hstays.startsNoScan, true, ?_⟩
      rw [hstays.replica]
      rfl
    · rw [if_neg hrefused, if_neg hok] at h ⊢
      obtain rfl := Option.some.inj h
      exact ⟨⟨id, rfl⟩, posted, rfl⟩

/-- What the daemon makes of a download is what the replica does. -/
theorem asReplica_handleUpdateDownloadSuccess {status : Nat}
    {imported : Dump}
    (h : s.handleUpdateDownloadSuccess status imported = some s')
    (posted : Bool) : StartsNoScan s s' ∧ ∃ posted',
      (s.asReplica posted).handleUpdateDownloadSuccess status imported =
        s'.asReplica posted' := by
  unfold handleUpdateDownloadSuccess at h
  unfold Replica.handleUpdateDownloadSuccess
  by_cases hrefused : status = 401
  · rw [if_pos hrefused] at h ⊢
    obtain rfl := Option.some.inj h
    have hstays := stays_refused (s := s)
    refine ⟨hstays.startsNoScan, true, ?_⟩
    rw [hstays.replica]
    rfl
  · rw [if_neg hrefused] at h ⊢
    by_cases hok : status = 200
    · simp only [if_pos hok] at h ⊢
      obtain ⟨hstarts, hreplica⟩ := startUpdateDownload_spec h
      exact ⟨⟨hstarts.waits, hstarts.due⟩, posted, hreplica posted⟩
    · simp only [if_neg hok] at h ⊢
      obtain rfl := Option.some.inj h
      exact ⟨⟨id, rfl⟩, posted, rfl⟩

theorem asReplica_handleStop (posted : Bool) :
    StartsNoScan s s.handleStop ∧
      (s.asReplica posted).handleStop = s.handleStop.asReplica posted := by
  have hwaits : s.handleStop.io.weight scanWaits = 0 := by
    simp only [handleStop]
    rw [weight_scanWaits_cancel_other _ (by simp), weight_scanWaits_cancel]
  refine ⟨⟨fun _ => by omega, ?_⟩, ?_⟩
  · simp only [handleStop, weight_scanDue_cancel]
  · simp only [Replica.handleStop, asReplica, hwaits]
    simp [handleStop, downloads, Pyzord.handleStop]

/-! The steps. -/

/-- What is left of the daemon by a handler that starts no scan. -/
theorem StartsNoScan.tracks {r' : ReplicaRun} {posted : Bool}
    (h : StartsNoScan s s') (hwaits : s.io.weight scanWaits ≤ 1)
    (hscans : r'.scans = s.io.weight scanDue)
    (hreplica : r'.replica = s'.asReplica posted) : s'.Tracks r' :=
  fun _ => ⟨h.waits hwaits, hscans.trans h.due.symm, posted, hreplica⟩

theorem reaches_of_expire {i : Nat} {io : IoService PyzordOperation}
    (h : s.Tracks r) (hrunning : s.running = true)
    (hio : s.io.complete i = some io) :
    (replicaSystem index db).Reaches { s with io }.Tracks r := by
  obtain ⟨op, hop, hout, hset⟩ := IoService.complete_eq_some hio
  have hwaits := IoService.weight_completed hop hset scanWaits
  have hdue := IoService.weight_completed hop hset scanDue
  have hdownloads := IoService.project_complete PyzordOperation.downloadUrl hio
  obtain ⟨kind, progress⟩ := op
  obtain rfl : progress = .outstanding := hout
  by_cases hkind : kind = .updatesScanTimer
  · obtain ⟨honce, hscans, posted, hreplica⟩ := h hrunning
    simp only [scanWaits, scanDue, Operation.complete, hkind] at hwaits hdue
    simp only [reduceCtorEq, and_true, and_false, or_self, or_true,
      ↓reduceIte] at hwaits hdue
    have harmed : r.replica.scanArmed = true := by
      rw [hreplica]
      exact decide_eq_true (by omega)
    refine reaches_of_step _ .updatesScan (if_pos harmed) ?_
    have hnone : io.weight scanWaits = 0 := by omega
    have hone : r.scans + 1 = io.weight scanDue := by omega
    refine fun _ => ⟨hnone.le.trans (Nat.zero_le 1), hone, posted, ?_⟩
    simp [hreplica, asReplica, downloads, hnone, hdownloads]
  · apply reaches_of_stays h hrunning
    simp only [scanWaits, scanDue, Operation.complete, hkind, false_and,
      or_false, Nat.add_right_cancel_iff] at hwaits hdue
    refine ⟨fun posted => ?_, hwaits, hdue⟩
    simp only [asReplica, downloads, hwaits, hdownloads]

/-- The handler of a timer leaves the replica as it is: the scan that is
started had been due. -/
theorem handleTimer_stays {i : Nat} {computerId : Text} {now : Readings}
    {op : Operation PyzordOperation} {io : IoService PyzordOperation}
    (htake : s.io.take i = some (op, io)) {result : Option PyzordDaemon}
    (h : { s with io }.handleTimer computerId now op = some result) :
    ∃ s', result = some s' ∧ Stays s s' := by
  obtain ⟨s', rfl, hs'⟩ := handleTimer_cases h
  refine ⟨s', rfl, ?_⟩
  rcases hs' with ⟨hcancelled, hkind, rfl⟩ | ⟨state, url, rfl, rfl⟩ |
    ⟨rfl, rfl⟩ | ⟨rfl, rfl⟩
  · have htimer : op.kind ≠ .updatesScan ∧ op.kind.downloadUrl = none := by
      rcases hkind with hkind | hkind | hkind <;> simp [hkind,
        PyzordOperation.downloadUrl]
    exact stays_take htake (by simp [scanWaits, hcancelled])
      (by simp [scanDue, htimer.1, hcancelled]) htimer.2
  · have hrings : Stays { s with io }
        { s with io, server := { s.server with state } } :=
      ⟨fun _ => rfl, rfl, rfl⟩
    exact ((stays_take htake rfl rfl rfl).trans hrings).trans
      (stays_start (by simp) (by simp) rfl)
  · exact (stays_take htake rfl rfl rfl).trans
      (stays_schedule .checkpointTimer (by simp) (by simp) rfl)
  · obtain ⟨hwaits, hreplica⟩ := asReplica_take htake rfl rfl
    have hdue := IoService.weight_take htake scanDue
    refine ⟨fun posted => ?_, ?_, ?_⟩
    · rw [← hreplica posted]
      simp [asReplica, downloads, start, scanWaits,
        PyzordOperation.downloadUrl]
    · simp [start, scanWaits, hwaits]
    · rw [hdue]
      simp [start, scanDue]

/-- The answer to a scan. -/
theorem reaches_of_scan {i : Nat}
    (handler : PyzordDaemon → Option PyzordDaemon) (event : ReplicaEvent)
    (h : s.Tracks r) (hrunning : s.running = true)
    (hanswer : s.answer i (· = .updatesScan) handler = some s')
    (hhandler : ∀ io s' posted, handler { s with io } = some s' →
      0 < r.scans → r.replica = { s with io }.asReplica posted →
      StartsNoScan { s with io } s' ∧ ∃ r' posted',
        r.step index event = some r' ∧ r'.scans = r.scans - 1 ∧
          r'.replica = s'.asReplica posted') :
    (replicaSystem index db).Reaches s'.Tracks r := by
  obtain ⟨op, io, htake, hop, hout, rfl⟩ := answer_eq_some hanswer
  obtain ⟨kind, progress⟩ := op
  obtain rfl : kind = .updatesScan := of_decide_eq_true hop
  obtain ⟨hwaits, hreplica⟩ := asReplica_take htake rfl rfl
  have hdue : s.io.weight scanDue = io.weight scanDue + 1 :=
    IoService.weight_take htake scanDue
  obtain ⟨honce, hscans, posted, hsame⟩ := h hrunning
  apply reaches_finish
  intro s' hs'
  obtain ⟨hstarts, r', posted', hstep, hless, hreplica'⟩ :=
    hhandler io s' posted hs' (by omega) (hsame.trans (hreplica posted).symm)
  apply reaches_of_step _ event hstep
  exact hstarts.tracks (hwaits.le.trans honce) (by dsimp only; omega) hreplica'

/-- The answer to a download. -/
theorem reaches_of_download {i : Nat}
    (handler : PyzordDaemon → Option PyzordDaemon) (result : DownloadResult)
    (h : s.Tracks r) (hrunning : s.running = true)
    (hanswer : s.answer i isUpdateDownload handler = some s')
    (hhandler : ∀ io s' posted, handler { s with io } = some s' →
      StartsNoScan { s with io } s' ∧ ∃ posted',
        result.handle ({ s with io }.asReplica posted) =
          s'.asReplica posted') :
    (replicaSystem index db).Reaches s'.Tracks r := by
  obtain ⟨op, io, htake, hop, hout, rfl⟩ := answer_eq_some hanswer
  obtain ⟨kind, progress⟩ := op
  cases kind with
  | updateDownload url =>
      obtain ⟨honce, hscans, posted, hsame⟩ := h hrunning
      have hwaits : s.io.weight scanWaits = io.weight scanWaits :=
        IoService.weight_take htake scanWaits
      have hdue : s.io.weight scanDue = io.weight scanDue :=
        IoService.weight_take htake scanDue
      obtain ⟨j, hurl, herased⟩ := IoService.project_take_some
        PyzordOperation.downloadUrl htake rfl
      have hinFlight : r.replica.requests[j]? = some url := by
        rw [hsame]
        exact hurl
      have hrest : { r.replica with
          requests := r.replica.requests.eraseIdx j } =
          { s with io }.asReplica posted := by
        rw [hsame]
        simp only [asReplica, downloads, herased, hwaits]
      apply reaches_finish
      intro s' hs'
      obtain ⟨hstarts, posted', hreplica⟩ := hhandler io s' posted hs'
      obtain ⟨r', hstep, hsameScans, hafter⟩ :=
        ReplicaRun.finishDownload_of_inFlight hinFlight result
      apply reaches_of_step _ (.finishDownload j result) hstep
      apply hstarts.tracks (hwaits.ge.trans honce)
      · exact (hsameScans.trans hscans).trans hdue
      · rw [hafter, hrest, hreplica]
  | _ => cases hop

/-- Only the service and `shutdown_` have to do with the replica. -/
theorem stays_server {server : Pyzord}
    (h : server.shutdown_ = s.server.shutdown_) :
    Stays s { s with server } where
  replica posted := by simp only [asReplica, downloads, h]
  waits := rfl
  due := rfl

theorem stays_socketStep {event : UdpEvent PyzordControl}
    (hcontrol : ∀ c, event ≠ .control c)
    (hreceive : ∀ i stored now, event ≠ .handleReceiveFrom i stored now)
    (h : s.socketStep event = some s') : Stays s s' := by
  obtain ⟨server, hserver, rfl⟩ := Option.map_eq_some_iff.mp h
  obtain ⟨socket_, rfl⟩ :=
    UdpServer.exists_socket_of_step hcontrol hreceive hserver
  exact stays_server rfl

/-- A request may shut the daemon down. -/
theorem reaches_of_handleReceiveFrom {i : Nat} {now : Readings} {lookup : Bool}
    (h : s.Tracks r) (hrunning : s.running = true)
    (hreceive : (s.server.socket_.takeReceive i).map
      (fun (outcome, socket_) =>
        s.finish ({ s with server := { s.server with socket_ }
          }.handleReceiveFrom now lookup outcome)) = some s') :
    (replicaSystem index db).Reaches s'.Tracks r := by
  obtain ⟨⟨outcome, socket_⟩, -, rfl⟩ := Option.map_eq_some_iff.mp hreceive
  apply reaches_finish
  intro s' hs'
  unfold handleReceiveFrom at hs'
  split_ifs at hs'
  · cases hs'
  obtain rfl := Option.some.inj hs'
  have hstill : s.server.shutdown_ = true → (Pyzord.handleReceiveFrom
      s.database_ now { s.server with socket_ } outcome).1.shutdown_ = true :=
    fun hdown => (UdpServer.handleReceiveFrom_of_shutdown
      { s.server with socket_ } hdown _ outcome).1
  generalize (Pyzord.handleReceiveFrom s.database_ now
    { s.server with socket_ } outcome).1 = server at hstill ⊢
  by_cases hdown : server.shutdown_ = s.server.shutdown_
  · apply reaches_of_stays h hrunning
    have hstays := stays_server hdown
    exact ⟨hstays.replica, hstays.waits, hstays.due⟩
  · have hshut : server.shutdown_ = true := by
      by_contra hup
      exact hdown ((Bool.eq_false_iff.mpr hup).trans
        (Bool.eq_false_iff.mpr fun hset => hup (hstill hset)).symm)
    obtain ⟨honce, hscans, posted, hsame⟩ := h hrunning
    refine reaches_of_step _ .shutdownRequest rfl ?_
    refine fun _ => ⟨honce, hscans, posted, ?_⟩
    simp [hsame, asReplica, downloads, hshut]

theorem reaches_of_handleStop {i : Nat} (h : s.Tracks r)
    (hrunning : s.running = true)
    (hanswer : (s.answer i (· = .handleStop) fun s => some s.handleStop) =
      some s') : (replicaSystem index db).Reaches s'.Tracks r := by
  obtain ⟨op, io, htake, hop, -, rfl⟩ := answer_eq_some hanswer
  obtain ⟨kind, progress⟩ := op
  obtain rfl : kind = .handleStop := of_decide_eq_true hop
  have hstays : Stays s { s with io } := stays_take htake rfl rfl rfl
  obtain ⟨honce, hscans, posted, hsame⟩ :=
    h.of_stays hrunning hstays hrunning
  obtain ⟨hstarts, hreplica⟩ :=
    asReplica_handleStop (s := { s with io }) posted
  rw [← hsame] at hreplica
  exact reaches_of_step _ .handleStop rfl
    (hstarts.tracks honce hscans hreplica)

/-- The answer to the statistics. -/
theorem reaches_of_statistics {i : Nat}
    (handler : PyzordDaemon → PyzordDaemon)
    (hhandler : ∀ s, Stays s (handler s)) (h : s.Tracks r)
    (hrunning : s.running = true)
    (hanswer : (s.answer i isStatistics fun s => some (handler s)) = some s') :
    (replicaSystem index db).Reaches s'.Tracks r := by
  obtain ⟨op, io, htake, hop, -, rfl⟩ := answer_eq_some hanswer
  obtain ⟨kind, progress⟩ := op
  cases kind with
  | statistics url =>
      exact reaches_of_stays h hrunning
        ((stays_take htake rfl rfl rfl).trans (hhandler _))
  | _ => cases hop

/-- Whatever the daemon does while it runs, a replica can follow. -/
theorem reaches_of_perform {event : PyzordEvent} (h : s.Tracks r)
    (hrunning : s.running = true) (hstep : s.perform index event = some s') :
    (replicaSystem index db).Reaches s'.Tracks r := by
  cases event with
  | expire i =>
      rw [perform] at hstep
      split_ifs at hstep
      obtain ⟨io, hio, rfl⟩ := Option.map_eq_some_iff.mp hstep
      exact reaches_of_expire h hrunning hio
  | handleTimer i computerId now =>
      obtain ⟨⟨op, io⟩, htake, hstep⟩ := Option.bind_eq_some_iff.mp hstep
      obtain ⟨result, hresult, rfl⟩ := Option.map_eq_some_iff.mp hstep
      obtain ⟨s', rfl, hstays⟩ := handleTimer_stays htake hresult
      exact reaches_of_stays h hrunning hstays
  | statisticsFailure i =>
      apply reaches_of_statistics handleStatisticsFailure _ h hrunning hstep
      exact fun s => stays_schedule .statisticsTimer (by simp) (by simp) rfl
  | statisticsSuccess i status =>
      apply reaches_of_statistics (handleStatisticsSuccess · status) _ h
        hrunning hstep
      intro s
      have hrefused : Stays s
          { s with refused := s.refused || status = 401 } :=
        ⟨fun _ => rfl, rfl, rfl⟩
      exact hrefused.trans
        (stays_schedule .statisticsTimer (by simp) (by simp) rfl)
  | updatesScanFailure i =>
      apply reaches_of_scan (fun s => some s.handleUpdatesScanFailure)
        .scanFailure h hrunning hstep
      intro io s' posted hs' hpos hreplica
      obtain rfl := Option.some.inj hs'
      obtain ⟨hstarts, hscheduled⟩ :=
        scheduleUpdatesScan_spec (s := { s with io })
      refine ⟨hstarts, _, posted, if_pos hpos, rfl, ?_⟩
      rw [hreplica]
      exact hscheduled posted
  | updatesScanSuccess i status data lookupLast =>
      apply reaches_of_scan (fun s => s.handleUpdatesScanSuccess index status
        data lookupLast) (.scanSuccess status data) h hrunning hstep
      intro io s' posted hs' hpos hreplica
      obtain ⟨hstarts, posted', hscan⟩ :=
        asReplica_handleUpdatesScanSuccess hs' posted
      rw [← hreplica] at hscan
      obtain ⟨r', hfinish, hless, hafter⟩ := ReplicaRun.finishScan_of_ok hscan
      exact ⟨hstarts, r', posted', (if_pos hpos).trans hfinish, hless, hafter⟩
  | updateDownloadFailure i =>
      apply reaches_of_download handleUpdateDownloadFailure .failure
        h hrunning hstep
      intro io s' posted hs'
      obtain ⟨hstarts, hreplica⟩ := startUpdateDownload_spec hs'
      exact ⟨hstarts, posted, hreplica posted⟩
  | updateDownloadSuccess i status imported =>
      apply reaches_of_download (handleUpdateDownloadSuccess · status imported)
        (.success status imported true) h hrunning hstep
      intro io s' posted hs'
      exact asReplica_handleUpdateDownloadSuccess hs' posted
  | requestThrows i =>
      rw [perform] at hstep
      obtain ⟨op, io, -, -, -, rfl⟩ := answer_eq_some hstep
      apply reaches_finish
      rintro s' ⟨⟩
  | handleStop i =>
      exact reaches_of_handleStop h hrunning hstep
  | signal =>
      rw [perform] at hstep
      split_ifs at hstep
      obtain rfl := Option.some.inj hstep
      have hsignalled : Stays s { s with signalled := true } :=
        ⟨fun _ => rfl, rfl, rfl⟩
      exact reaches_of_stays h hrunning (hsignalled.trans stays_stop)
  | deliver i sender datagram =>
      exact reaches_of_stays h hrunning
        (stays_socketStep (by simp) (by simp) hstep)
  | fail i =>
      exact reaches_of_stays h hrunning
        (stays_socketStep (by simp) (by simp) hstep)
  | handleReceiveFrom i now lookup =>
      exact reaches_of_handleReceiveFrom h hrunning hstep
  | readSend j =>
      exact reaches_of_stays h hrunning
        (stays_socketStep (by simp) (by simp) hstep)
  | handleSendTo j error =>
      exact reaches_of_stays h hrunning
        (stays_socketStep (by simp) (by simp) hstep)

/-- The replica follows the daemon, whatever its statistics. -/
theorem followedBy_replica {state : PyzordState} :
    (pyzordDaemonSystem index db state).FollowedBy (replicaSystem index db)
      Tracks := by
  intro s s' r event h hstep
  change (if s.running then s.perform index event else none) = some s' at hstep
  split_ifs at hstep with hrunning
  exact reaches_of_perform h hrunning hstep

end Following

end PyzordDaemon

/-- Every run of a daemon is one of a replica, as far as its database, its
queue, its downloads and its scans go. -/
theorem daemon_refines_replica {index : TimeIndex} {db : Database}
    {state : PyzordState} {events : List PyzordEvent} {s : PyzordDaemon}
    (hrun : (pyzordDaemonSystem index db state).run events = some s) :
    ∃ events' r, (replicaSystem index db).run events' = some r ∧
      s.Tracks r := by
  apply PyzordDaemon.followedBy_replica.run _ hrun
  exact fun _ => ⟨Nat.le_of_eq rfl, rfl, false, rfl⟩

/-- At most the download of the front of its queue is in flight in a daemon
that runs. -/
theorem daemon_downloads_front {index : TimeIndex} {db : Database}
    {state : PyzordState} {events : List PyzordEvent} {s : PyzordDaemon}
    (hrun : (pyzordDaemonSystem index db state).run events = some s)
    (hrunning : s.running = true) :
    s.downloads = [] ∨ s.downloads = s.updates_to_download_.take 1 := by
  obtain ⟨events', r, hreplica, htracks⟩ := daemon_refines_replica hrun
  have honly : r.replica.OnlyFront :=
    (replicaSystem index db).run_invariant (Or.inl rfl)
      ReplicaRun.onlyFront_step hreplica
  obtain ⟨-, -, posted, hsame⟩ := htracks hrunning
  rw [hsame] at honly
  exact honly

end BohunoPyzord
