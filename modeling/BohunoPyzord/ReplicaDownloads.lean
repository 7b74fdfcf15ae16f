/-
The downloads of a replica over all its runs.  Three handlers start a download
and two take one off the queue.  At most one is in flight and it is that of
the front; the queue is left without one by the answer that ends a download
and does not start the next.
-/
import BohunoPyzord.Replica
import BohunoPyzord.StepSystem

namespace BohunoPyzord

/-- The lower time in the name of an update. -/
def HrefMatch.minTime (f : HrefMatch) : Nat := Nat.ofDigitChars 10 f.min 0

/-- How a download ends.  `imported` are the records that its import commits,
and `complete` says that the import did not throw. -/
inductive DownloadResult where
  | failure
  | success (status : Nat) (imported : Dump) (complete : Bool)

/-- What can happen to a replica.  `updatesScan` is the timer running out, and
`finishDownload` names the download by its place among those in flight. -/
inductive ReplicaEvent where
  | updatesScan
  | scanFailure
  | scanSuccess (status : Nat) (data : List Char)
  | finishDownload (i : Nat) (result : DownloadResult)
  | handleStop
  | shutdownRequest

/-- A replica and the number of its scans in flight.  `eligible` are the
updates that a scan found new enough, `imported` those whose import has
completed. -/
structure ReplicaRun where
  replica : Replica
  scans : Nat
  eligible : List HrefMatch
  imported : List Url

namespace ReplicaRun

def finishScan (s : ReplicaRun) (index : TimeIndex) (status : Nat)
    (data : List Char) : Option ReplicaRun :=
  match s.replica.handleUpdatesScanSuccess index status data with
  | .ok replica =>
      let highest := s.replica.highestTimestamp index
      some { s with
        replica, scans := s.scans - 1
        eligible := if 200 ≤ status ∧ status ≤ 299 then
            s.eligible ++ (searchHrefs 0 data).filter fun f =>
              highest ≤ f.minTime
          else s.eligible }
  | .error _ => none

def finishDownload (s : ReplicaRun) (i : Nat) (result : DownloadResult) :
    Option ReplicaRun :=
  s.replica.requests[i]?.map fun url =>
    let replica := { s.replica with
      requests := s.replica.requests.eraseIdx i }
    match result with
    | .failure => { s with replica := replica.handleUpdateDownloadFailure }
    | .success status imported complete =>
        { s with
          replica := replica.handleUpdateDownloadSuccess status imported
          imported := if status = 200 ∧ complete then s.imported ++ [url]
            else s.imported }

/-- An exception that leaves a handler ends the program. -/
def step (index : TimeIndex) (s : ReplicaRun) :
    ReplicaEvent → Option ReplicaRun
  | .updatesScan =>
      if s.replica.scanArmed then
        some { s with
          replica := { s.replica with scanArmed := false }
          scans := s.scans + 1 }
      else none
  | .scanFailure =>
      if 0 < s.scans then
        some { s with
          replica := s.replica.handleUpdatesScanFailure
          scans := s.scans - 1 }
      else none
  | .scanSuccess status data =>
      if 0 < s.scans then s.finishScan index status data else none
  | .finishDownload i result => s.finishDownload i result
  | .handleStop => some { s with replica := s.replica.handleStop }
  | .shutdownRequest =>
      some { s with replica := { s.replica with shutdown_ := true } }

end ReplicaRun

/-- A replica as it is constructed over a database. -/
def replicaSystem (index : TimeIndex) (db : Database) :
    StepSystem ReplicaRun ReplicaEvent where
  init :=
    { replica := { database_ := db, updates_to_download_ := []
                   requests := [], scanArmed := true, shutdown_ := false
                   stopPosted := false }
      scans := 0, eligible := [], imported := [] }
  step := ReplicaRun.step index

namespace Replica

section Handlers

variable {r r' : Replica}

theorem queueUpdate_spec {highest : Nat} {queue queue' : List Url}
    {found : HrefMatch} (h : queueUpdate highest queue found = .ok queue') :
    queue <+: queue' ∧ (queue.Nodup → queue'.Nodup) ∧
      (highest ≤ found.minTime → found.url ∈ queue') := by
  unfold queueUpdate lexicalCast at h
  by_cases hfits : Nat.ofDigitChars 10 found.min 0 < 2 ^ 32
  · rw [if_pos hfits] at h
    change (if found.minTime ≥ highest then _ else _) = _ at h
    split_ifs at h with hmin hmem
    · obtain rfl := Except.ok.inj h
      exact ⟨List.prefix_rfl, id, fun _ => hmem⟩
    · obtain rfl := Except.ok.inj h
      refine ⟨List.prefix_append _ _, fun hnodup => ?_, fun _ => by simp⟩
      exact List.nodup_append.mpr ⟨hnodup, List.nodup_singleton _,
        fun url hurl _ hfound heq => hmem (by simp_all)⟩
    · obtain rfl := Except.ok.inj h
      exact ⟨List.prefix_rfl, id, fun hge => absurd hge hmin⟩
  · rw [if_neg hfits] at h
    cases h

/-- A scan appends to the queue what is not in it yet, and every match that is
new enough is in it afterwards. -/
theorem queueUpdates_spec {highest : Nat} {found : List HrefMatch}
    {queue queue' : List Url}
    (h : found.foldlM (queueUpdate highest) queue = .ok queue') :
    queue <+: queue' ∧ (queue.Nodup → queue'.Nodup) ∧
      ∀ f ∈ found, highest ≤ f.minTime → f.url ∈ queue' := by
  induction found generalizing queue with
  | nil =>
      obtain rfl := Except.ok.inj h
      exact ⟨List.prefix_rfl, id, fun f hf => by cases hf⟩
  | cons first found ih =>
      rw [List.foldlM_cons] at h
      obtain ⟨mid, hfirst, h⟩ := bind_eq_ok h
      obtain ⟨hbefore, hfresh, hqueued⟩ := queueUpdate_spec hfirst
      obtain ⟨hafter, hfreshRest, hrest⟩ := ih h
      refine ⟨hbefore.trans hafter, fun hnodup => hfreshRest
        (hfresh hnodup), fun f hf hmin => ?_⟩
      rcases List.mem_cons.mp hf with rfl | hlater
      · exact hafter.subset (hqueued hmin)
      · exact hrest f hlater hmin

/-- What a scan may make of the replica. -/
theorem handleUpdatesScanSuccess_cases {index : TimeIndex} {status : Nat}
    {data : List Char}
    (h : r.handleUpdatesScanSuccess index status data = .ok r') :
    (status = 401 ∧ r' = r.stop) ∨
    ((200 ≤ status ∧ status ≤ 299) ∧ ∃ queue,
      r.updates_to_download_ <+: queue ∧
      (r.updates_to_download_.Nodup → queue.Nodup) ∧
      (∀ f ∈ searchHrefs 0 data, r.highestTimestamp index ≤ f.minTime →
        f.url ∈ queue) ∧
      r' = (if r.updates_to_download_ = [] then
          { r with updates_to_download_ := queue }.startUpdateDownload
        else { r with updates_to_download_ := queue }).scheduleUpdatesScan) ∨
    (¬ (200 ≤ status ∧ status ≤ 299) ∧ r' = r) := by
  unfold handleUpdatesScanSuccess at h
  split_ifs at h with hrefused hok
  · exact Or.inl ⟨hrefused, (Except.ok.inj h).symm⟩
  · refine Or.inr (Or.inl ⟨hok, ?_⟩)
    obtain ⟨queue, hqueue, h⟩ := bind_eq_ok h
    obtain ⟨hextends, hfresh, hqueued⟩ := queueUpdates_spec hqueue
    refine ⟨queue, hextends, hfresh, hqueued, ?_⟩
    obtain rfl := Except.ok.inj h
    simp only [List.isEmpty_iff]
  · exact Or.inr (Or.inr ⟨hok, (Except.ok.inj h).symm⟩)

end Handlers

/-- A stop is on its way, or has been handled. -/
def Stopping (r : Replica) : Prop :=
  r.shutdown_ = true ∨ r.stopPosted = true

instance (r : Replica) : Decidable r.Stopping :=
  inferInstanceAs (Decidable (_ ∨ _))

/-- The download of the front of the queue is in flight and no other; none
is, if the queue is empty. -/
def FrontInFlight (r : Replica) : Prop :=
  r.requests = r.updates_to_download_.take 1

instance (r : Replica) : Decidable r.FrontInFlight :=
  inferInstanceAs (Decidable (_ = _))

/-- At most the download of the front is in flight. -/
def OnlyFront (r : Replica) : Prop :=
  r.requests = [] ∨ r.FrontInFlight

section Starting

variable {r : Replica}

/-- Appending to a queue that is not empty leaves its front. -/
theorem take_one_of_prefix {queue queue' : List Url} (hne : queue ≠ [])
    (h : queue <+: queue') : queue.take 1 = queue'.take 1 := by
  obtain ⟨added, rfl⟩ := h
  cases queue with
  | nil => exact absurd rfl hne
  | cons url rest => rfl

/-- Starting a download when none is in flight. -/
theorem startUpdateDownload_onlyFront (h : r.requests = []) :
    r.startUpdateDownload.OnlyFront := by
  rw [startUpdateDownload_eq]
  split_ifs with hshutdown
  · exact Or.inl h
  · exact Or.inr (by simp [FrontInFlight, h])

theorem startUpdateDownload_front (h : r.requests = [])
    (hrunning : ¬ r.Stopping) : r.startUpdateDownload.FrontInFlight := by
  have hshutdown : r.shutdown_ = false := by
    simpa using fun hshut => hrunning (Or.inl hshut)
  simp [FrontInFlight, startUpdateDownload_eq, hshutdown, h]

@[simp] theorem startUpdateDownload_stopping :
    r.startUpdateDownload.Stopping ↔ r.Stopping := by
  rw [startUpdateDownload_eq]
  split_ifs <;> rfl

@[simp] theorem startUpdateDownload_queue :
    r.startUpdateDownload.updates_to_download_ = r.updates_to_download_ := by
  rw [startUpdateDownload_eq]
  split_ifs <;> rfl

@[simp] theorem startUpdateDownload_database :
    r.startUpdateDownload.database_ = r.database_ := by
  rw [startUpdateDownload_eq]
  split_ifs <;> rfl

/-- Whatever is in flight, taking it out leaves nothing. -/
theorem OnlyFront.finished (h : r.OnlyFront) {i : Nat} {url : Url}
    (hurl : r.requests[i]? = some url) :
    r.requests.eraseIdx i = [] ∧ ∃ rest, r.updates_to_download_ = url :: rest := by
  rcases h with hnone | hfront
  · simp [hnone] at hurl
  · rw [FrontInFlight] at hfront
    rw [hfront] at hurl ⊢
    cases hqueue : r.updates_to_download_ with
    | nil => simp [hqueue] at hurl
    | cons front rest =>
        rw [hqueue] at hurl
        cases i with
        | zero => simpa using hurl
        | succ i => simp at hurl

end Starting

end Replica

namespace ReplicaRun

variable {index : TimeIndex} {db : Database} {s s' : ReplicaRun}

/-- What the end of a download may make of the replica: it is that of the
front, and nothing else is in flight. -/
theorem finishDownload_cases (h : s.replica.OnlyFront) {i : Nat}
    {result : DownloadResult} (hstep : s.finishDownload i result = some s') :
    ∃ url rest, s.replica.updates_to_download_ = url :: rest ∧
      ((result = .failure ∧ s' = { s with
          replica := { s.replica with requests := [] }.startUpdateDownload }) ∨
      (∃ imported complete, result = .success 401 imported complete ∧
        s' = { s with replica := { s.replica with requests := [] }.stop }) ∨
      (∃ imported complete, result = .success 200 imported complete ∧
        s' = { s with
          replica := { s.replica with
            requests := [], updates_to_download_ := rest
            database_ := s.replica.database_.importDump
              imported }.startUpdateDownload
          imported := if complete then s.imported ++ [url]
            else s.imported }) ∨
      (∃ status imported complete,
        result = .success status imported complete ∧ status ≠ 401 ∧
        status ≠ 200 ∧ s' = { s with
          replica := { s.replica with
            requests := [], updates_to_download_ := rest } })) := by
  obtain ⟨url, hurl, rfl⟩ := Option.map_eq_some_iff.mp hstep
  obtain ⟨hidle, rest, hqueue⟩ := h.finished hurl
  refine ⟨url, rest, hqueue, ?_⟩
  cases result with
  | failure =>
      apply Or.inl
      simp [hidle, Replica.handleUpdateDownloadFailure]
  | success status imported complete =>
      apply Or.inr
      by_cases hrefused : status = 401
      · subst hrefused
        exact Or.inl ⟨imported, complete, rfl, by
          simp [hidle, Replica.handleUpdateDownloadSuccess]⟩
      · apply Or.inr
        by_cases hok : status = 200
        · subst hok
          exact Or.inl ⟨imported, complete, rfl, by
            simp [hidle, hqueue, Replica.handleUpdateDownloadSuccess]⟩
        · exact Or.inr ⟨status, imported, complete, rfl, hrefused, hok, by
            simp [hidle, hqueue, hrefused, hok,
              Replica.handleUpdateDownloadSuccess]⟩

/-- What the end of a scan may make of the replica. -/
theorem finishScan_cases {status : Nat} {data : List Char}
    (hstep : s.finishScan index status data = some s') :
    (status = 401 ∧
      s' = { s with replica := s.replica.stop, scans := s.scans - 1 }) ∨
    (∃ queue, s.replica.updates_to_download_ <+: queue ∧
      (s.replica.updates_to_download_.Nodup → queue.Nodup) ∧
      (∀ f ∈ searchHrefs 0 data, s.replica.highestTimestamp index ≤ f.minTime →
        f.url ∈ queue) ∧
      s' = { s with
        replica := (if s.replica.updates_to_download_ = [] then
            { s.replica with updates_to_download_ := queue }.startUpdateDownload
          else { s.replica with
            updates_to_download_ := queue }).scheduleUpdatesScan
        scans := s.scans - 1
        eligible := s.eligible ++ (searchHrefs 0 data).filter fun f =>
          s.replica.highestTimestamp index ≤ f.minTime }) ∨
    (s' = { s with scans := s.scans - 1 }) := by
  unfold finishScan at hstep
  cases hscan : s.replica.handleUpdatesScanSuccess index status data with
  | error e =>
      rw [hscan] at hstep
      cases hstep
  | ok replica =>
      rw [hscan] at hstep
      obtain rfl := Option.some.inj hstep
      rcases Replica.handleUpdatesScanSuccess_cases hscan with
        ⟨rfl, rfl⟩ | ⟨hok, queue, hextends, hfresh, hqueued, rfl⟩ | ⟨hnot, rfl⟩
      · exact Or.inl ⟨rfl, by simp⟩
      · exact Or.inr (Or.inl ⟨queue, hextends, hfresh, hqueued, by simp [hok]⟩)
      · exact Or.inr (Or.inr (by rw [if_neg hnot]))

/-- In every state at most the download of the front is in flight. -/
theorem onlyFront_step :
    (replicaSystem index db).Preserves (fun s => s.replica.OnlyFront)
      fun _ _ => True := by
  intro s s' event h _ hstep
  change s.step index event = some s' at hstep
  cases event with
  | updatesScan =>
      obtain ⟨-, rfl⟩ := Option.ite_some_none_eq_some.mp hstep
      exact h
  | scanFailure =>
      obtain ⟨-, rfl⟩ := Option.ite_some_none_eq_some.mp hstep
      exact h
  | scanSuccess status data =>
      rw [step] at hstep
      split_ifs at hstep
      rcases finishScan_cases hstep with
        ⟨-, rfl⟩ | ⟨queue, hextends, -, -, rfl⟩ | rfl
      · exact h
      · dsimp only
        split_ifs with hempty
        · apply Replica.startUpdateDownload_onlyFront
          rcases h with hnone | hfront
          · exact hnone
          · simpa [Replica.FrontInFlight, hempty] using hfront
        · rcases h with hnone | hfront
          · exact Or.inl hnone
          · exact Or.inr (hfront.trans (Replica.take_one_of_prefix hempty hextends))
      · exact h
  | finishDownload i result =>
      obtain ⟨url, rest, -, ⟨-, rfl⟩ | ⟨_, _, -, rfl⟩ | ⟨_, _, -, rfl⟩ |
        ⟨_, _, _, -, -, -, rfl⟩⟩ := finishDownload_cases h hstep
      · exact Replica.startUpdateDownload_onlyFront rfl
      · exact Or.inl rfl
      · exact Replica.startUpdateDownload_onlyFront rfl
      · exact Or.inl rfl
  | handleStop =>
      obtain rfl := Option.some.inj hstep
      exact h
  | shutdownRequest =>
      obtain rfl := Option.some.inj hstep
      exact h

/-- While the replica is not stopping, the download of the front is in flight
and no other, and none if the queue is empty. -/
def Downloading (s : ReplicaRun) : Prop :=
  ¬ s.replica.Stopping → s.replica.FrontInFlight

instance (s : ReplicaRun) : Decidable s.Downloading :=
  inferInstanceAs (Decidable (_ → _))

/-- No download is answered with another status than 200 and 401 while other
updates wait behind it. -/
def SkipsOnlyLast (s : ReplicaRun) : ReplicaEvent → Prop
  | .finishDownload _ (.success status _ _) =>
      status = 200 ∨ status = 401 ∨ s.replica.Stopping ∨
        s.replica.updates_to_download_.length ≤ 1
  | _ => True

/-- One step: only such an answer leaves a queue without a download. -/
theorem downloading_step :
    (replicaSystem index db).Preserves
      (fun s => s.replica.OnlyFront ∧ s.Downloading) SkipsOnlyLast := by
  rintro s s' event ⟨honly, hdown⟩ hguard hstep
  apply And.intro (onlyFront_step honly trivial hstep)
  change s.step index event = some s' at hstep
  cases event with
  | updatesScan =>
      obtain ⟨-, rfl⟩ := Option.ite_some_none_eq_some.mp hstep
      exact hdown
  | scanFailure =>
      obtain ⟨-, rfl⟩ := Option.ite_some_none_eq_some.mp hstep
      exact hdown
  | scanSuccess status data =>
      rw [step] at hstep
      split_ifs at hstep
      rcases finishScan_cases hstep with
        ⟨-, rfl⟩ | ⟨queue, hextends, -, -, rfl⟩ | rfl
      · exact fun hrunning => absurd (Or.inr rfl) hrunning
      · intro hrunning
        dsimp only at hrunning ⊢
        split_ifs at hrunning ⊢ with hempty
        · have hrunning' := mt Replica.startUpdateDownload_stopping.mpr hrunning
          apply Replica.startUpdateDownload_front _ hrunning'
          have hfront := hdown hrunning'
          rwa [Replica.FrontInFlight, hempty] at hfront
        · exact (hdown hrunning).trans
            (Replica.take_one_of_prefix hempty hextends)
      · exact hdown
  | finishDownload i result =>
      intro hrunning
      obtain ⟨url, rest, hqueue, ⟨-, rfl⟩ | ⟨_, _, -, rfl⟩ | ⟨_, _, -, rfl⟩ |
        ⟨status, _, _, rfl, hrefused, hok, rfl⟩⟩ :=
        finishDownload_cases honly hstep
      · exact Replica.startUpdateDownload_front rfl
          (mt Replica.startUpdateDownload_stopping.mpr hrunning)
      · exact absurd (Or.inr rfl) hrunning
      · exact Replica.startUpdateDownload_front rfl
          (mt Replica.startUpdateDownload_stopping.mpr hrunning)
      · rcases hguard with hstatus | hstatus | hstopping | hlast
        · exact absurd hstatus hok
        · exact absurd hstatus hrefused
        · exact absurd hstopping hrunning
        · have hrest : rest = [] := by
            simpa [hqueue] using hlast
          simp [Replica.FrontInFlight, hrest]
  | handleStop =>
      obtain rfl := Option.some.inj hstep
      exact fun hrunning => absurd (Or.inl rfl) hrunning
  | shutdownRequest =>
      obtain rfl := Option.some.inj hstep
      exact fun hrunning => absurd (Or.inl rfl) hrunning

/-- The next update is left waiting. -/
theorem not_downloading_of_skip {event : ReplicaEvent}
    (honly : s.replica.OnlyFront) (hstep : s.step index event = some s')
    (hskip : ¬ s.SkipsOnlyLast event) : ¬ s'.Downloading := by
  cases event with
  | finishDownload i result =>
      cases result with
      | failure => exact absurd trivial hskip
      | success status imported complete =>
          simp only [SkipsOnlyLast, not_or, not_le] at hskip
          change s.finishDownload i
            (.success status imported complete) = some s' at hstep
          obtain ⟨hok, hrefused, hrunning, hmore⟩ := hskip
          obtain ⟨url, rest, hqueue, ⟨hresult, -⟩ | ⟨_, _, hresult, -⟩ |
            ⟨_, _, hresult, -⟩ | ⟨_, _, _, -, -, -, rfl⟩⟩ :=
            finishDownload_cases honly hstep
          · cases hresult
          · exact absurd (DownloadResult.success.inj hresult).1 hrefused
          · exact absurd (DownloadResult.success.inj hresult).1 hok
          · intro hdown
            have hnone : rest = [] := by
              simpa [Replica.FrontInFlight] using (hdown hrunning).symm
            simp [hqueue, hnone] at hmore
  | updatesScan => exact absurd trivial hskip
  | scanFailure => exact absurd trivial hskip
  | scanSuccess status data => exact absurd trivial hskip
  | handleStop => exact absurd trivial hskip
  | shutdownRequest => exact absurd trivial hskip

end ReplicaRun

/-- The runs in which the front of the queue is always being downloaded are
exactly the runs in which no download with others behind it is answered with
a status that is neither 200 nor 401. -/
theorem replica_downloading_iff (index : TimeIndex) (db : Database)
    (events : List ReplicaEvent) :
    (replicaSystem index db).Always ReplicaRun.Downloading events ↔
      (replicaSystem index db).Each ReplicaRun.SkipsOnlyLast events :=
  (replicaSystem index db).always_iff_each ⟨Or.inl rfl, fun _ => rfl⟩
    ReplicaRun.downloading_step (fun _ h => h.2)
    (fun h hstep hskip => ReplicaRun.not_downloading_of_skip h.1 hstep hskip)
    events

/-- A listing of two updates, of which the server no longer has the first. -/
def firstIsGone : List ReplicaEvent :=
  [.updatesScan,
    .scanSuccess 207 ("<D:href>https://update.bohuno.com/pyzor/updates/" ++
      "12000000001200000300</D:href>" ++
      "<D:href>https://update.bohuno.com/pyzor/updates/" ++
      "12000003001200000600</D:href>").toList,
    .finishDownload 0 (.success 404 [] false)]

theorem replica_not_always_downloading :
    ¬ ∀ index db events,
      (replicaSystem index db).Always ReplicaRun.Downloading events := by
  intro h
  let M := replicaSystem TimeIndex.stable ∅
  have hends : (M.run firstIsGone).any (fun s => ¬ s.Downloading) = true := by
    decide +kernel
  obtain ⟨s, hrun, hstalled⟩ := (Option.any_eq_true _ _).mp hends
  have halways := h TimeIndex.stable ∅ firstIsGone
  exact of_decide_eq_true hstalled
    (M.alwaysFrom_iff.mp halways firstIsGone s List.prefix_rfl hrun)

end BohunoPyzord
