/-
What becomes of an update that a replica once found new enough.  It waits in
the queue until it is imported; if it leaves the queue otherwise, then only its
time can bring it back, and a newer record imported after it takes that away.
-/
import BohunoPyzord.ReplicaCatchUp
import BohunoPyzord.ReplicaDownloads

namespace BohunoPyzord

/-- No record was updated after the given time. -/
def Database.NoneNewer (db : Database) (time : Nat) : Prop :=
  ∀ h r, db.lookup h = some r → r.updated.toNat ≤ time

/-- A scan takes an update whose time no record of the replica exceeds. -/
theorem Replica.highestTimestamp_le {r : Replica} (index : TimeIndex)
    {time : Nat} :
    r.highestTimestamp index ≤ time ↔ r.database_.NoneNewer time := by
  constructor
  · intro hle h record hlookup
    exact (le_highestTimestamp index hlookup).trans hle
  · intro hnone
    unfold highestTimestamp Database.lookupLast
    cases hlast : (index.entries r.database_).getLast? with
    | none => exact Nat.zero_le _
    | some p =>
        have hmem := (index.perm _).subset (List.mem_of_getLast? hlast)
        exact hnone p.1 p.2 (Database.mem_pairs.mp hmem)

theorem Database.noneNewer_importDump {db : Database} {records : Dump}
    {time : Nat} (hdb : db.NoneNewer time)
    (hrecords : ∀ h r, lastCopy records h = some r → r.updated.toNat ≤ time) :
    (db.importDump records).NoneNewer time := by
  intro h r hlookup
  rw [lookup_importDump] at hlookup
  cases hcopy : lastCopy records h with
  | none =>
      rw [hcopy, Option.none_or] at hlookup
      exact hdb h r hlookup
  | some copy =>
      rw [hcopy, Option.some_or] at hlookup
      exact Option.some.inj hlookup ▸ hrecords h copy hcopy

namespace ReplicaRun

variable {index : TimeIndex} {db : Database} {s s' : ReplicaRun}

/-- A scan found it new enough, and its import has not completed. -/
def Unimported (s : ReplicaRun) (f : HrefMatch) : Prop :=
  f ∈ s.eligible ∧ f.url ∉ s.imported

/-- Every such update is in the queue, or the next scan that lists it finds it
new enough again. -/
def Retained (index : TimeIndex) (s : ReplicaRun) : Prop :=
  ∀ f, s.Unimported f → f.url ∈ s.replica.updates_to_download_ ∨
    s.replica.highestTimestamp index ≤ f.minTime

/-- The records that an answer with this status commits. -/
def committed (status : Nat) (imported : Dump) : Dump :=
  if status = 200 then imported else []

/-- A download is answered without being imported only while nothing that the
replica then holds is newer than the time in its name, and no copy that is
imported is newer than the time of an update that was left out that way and
has not been queued again. -/
def LeavesNoneBehind (s : ReplicaRun) : ReplicaEvent → Prop
  | .finishDownload _ (.success status imported complete) =>
      status = 401 ∨
      ((status = 200 → complete = false) →
        ∀ f, s.Unimported f →
          s.replica.updates_to_download_.head? = some f.url →
          (s.replica.database_.importDump
            (committed status imported)).NoneNewer f.minTime) ∧
      ∀ f, s.Unimported f → f.url ∉ s.replica.updates_to_download_ →
        ∀ h r, lastCopy (committed status imported) h = some r →
          r.updated.toNat ≤ f.minTime
  | _ => True

/-- The queue names each update once, and all are retained. -/
structure RetainedInv (index : TimeIndex) (s : ReplicaRun) : Prop where
  onlyFront : s.replica.OnlyFront
  nodup : s.replica.updates_to_download_.Nodup
  retained : s.Retained index

/-- An answer that is not a refusal takes the front off the queue. -/
theorem finishDownload_popped (h : s.replica.OnlyFront) {i status : Nat}
    {imported : Dump} {complete : Bool} (hstatus : status ≠ 401)
    (hstep : s.finishDownload i (.success status imported complete) =
      some s') :
    ∃ url rest, s.replica.updates_to_download_ = url :: rest ∧
      s'.replica.updates_to_download_ = rest ∧
      s'.replica.database_ = s.replica.database_.importDump
        (committed status imported) ∧
      s'.eligible = s.eligible ∧
      s'.imported = if status = 200 ∧ complete then s.imported ++ [url]
        else s.imported := by
  obtain ⟨url, rest, hqueue, ⟨hresult, -⟩ | ⟨_, _, hresult, -⟩ |
    ⟨_, _, hresult, rfl⟩ | ⟨_, _, _, hresult, -, hnot, rfl⟩⟩ :=
    finishDownload_cases h hstep
  · cases hresult
  · exact absurd (DownloadResult.success.inj hresult).1 hstatus
  · obtain ⟨rfl, rfl, rfl⟩ := DownloadResult.success.inj hresult
    exact ⟨url, rest, hqueue, by simp [committed]⟩
  · obtain ⟨rfl, rfl, rfl⟩ := DownloadResult.success.inj hresult
    exact ⟨url, rest, hqueue, by
      simp [committed, hnot, Database.importDump]⟩

/-- What a scan leaves: the queue is extended by all it found new enough. -/
theorem finishScan_listed {status : Nat} {data : List Char}
    (hstep : s.finishScan index status data = some s') :
    s'.imported = s.imported ∧
      s'.replica.database_ = s.replica.database_ ∧
      s.replica.updates_to_download_ <+: s'.replica.updates_to_download_ ∧
      (s.replica.updates_to_download_.Nodup →
        s'.replica.updates_to_download_.Nodup) ∧
      ∃ listed, s'.eligible = s.eligible ++ listed ∧
        ∀ f ∈ listed, f.url ∈ s'.replica.updates_to_download_ := by
  rcases finishScan_cases hstep with
    ⟨-, rfl⟩ | ⟨queue, hextends, hfresh, hqueued, rfl⟩ | rfl
  · exact ⟨rfl, rfl, List.prefix_rfl, id, [], by simp⟩
  · have hlisted : ∀ f ∈ (searchHrefs 0 data).filter (fun f =>
        s.replica.highestTimestamp index ≤ f.minTime), f.url ∈ queue := by
      intro f hf
      obtain ⟨hfound, hmin⟩ := List.mem_filter.mp hf
      exact hqueued f hfound (of_decide_eq_true hmin)
    dsimp only [Replica.scheduleUpdatesScan]
    split_ifs
    · simp only [Replica.startUpdateDownload_queue,
        Replica.startUpdateDownload_database]
      exact ⟨trivial, trivial, hextends, hfresh, _, rfl, hlisted⟩
    · exact ⟨rfl, rfl, hextends, hfresh, _, rfl, hlisted⟩
  · exact ⟨rfl, rfl, List.prefix_rfl, id, [], by simp⟩

/-- A scan retains what it lists and what was retained. -/
theorem retained_listed (h : s.RetainedInv index) {status : Nat}
    {data : List Char} (hstep : s.finishScan index status data = some s') :
    s'.Retained index := by
  obtain ⟨himported, hdatabase, hextends, -, listed, heligible, hlisted⟩ :=
    finishScan_listed hstep
  rintro f ⟨hseen, hnot⟩
  rw [heligible] at hseen
  rw [himported] at hnot
  rw [Replica.highestTimestamp_le, hdatabase,
    ← Replica.highestTimestamp_le index]
  rcases List.mem_append.mp hseen with hold | hnew
  · exact (h.retained f ⟨hold, hnot⟩).imp_left fun hmem =>
      hextends.subset hmem
  · exact Or.inl (hlisted f hnew)

/-- An answer within the guard retains what is not imported. -/
theorem retained_popped (h : s.RetainedInv index) {i status : Nat}
    {imported : Dump} {complete : Bool}
    (hguard : s.LeavesNoneBehind
      (.finishDownload i (.success status imported complete)))
    (hstatus : status ≠ 401)
    (hstep : s.finishDownload i (.success status imported complete) =
      some s') : s'.Retained index := by
  obtain ⟨url, rest, hqueue, hrest, hdatabase, heligible, himported⟩ :=
    finishDownload_popped h.onlyFront hstatus hstep
  obtain ⟨hfront, hothers⟩ := hguard.resolve_left hstatus
  rintro f ⟨hseen, hnot⟩
  rw [heligible] at hseen
  rw [himported] at hnot
  have hwaiting : s.Unimported f := by
    refine ⟨hseen, fun hmem => hnot ?_⟩
    split
    · exact List.mem_append_left _ hmem
    · exact hmem
  rw [hrest, Replica.highestTimestamp_le, hdatabase]
  by_cases hqueued : f.url ∈ s.replica.updates_to_download_
  · rw [hqueue] at hqueued
    rcases List.mem_cons.mp hqueued with hurl | hlater
    · apply Or.inr
      apply hfront _ f hwaiting (by rw [hqueue, hurl]; rfl)
      intro hok
      by_contra hcomplete
      rw [if_pos ⟨hok, by simpa using hcomplete⟩, hurl] at hnot
      exact hnot (List.mem_append_right _ List.mem_cons_self)
    · exact Or.inl hlater
  · apply Or.inr
    apply Database.noneNewer_importDump _ (hothers f hwaiting hqueued)
    apply (Replica.highestTimestamp_le index).mp
    exact (h.retained f hwaiting).resolve_left hqueued

/-- One step: an answer that leaves none behind, and every other event,
retains what is not imported. -/
theorem retainedInv_step :
    (replicaSystem index db).Preserves (RetainedInv index)
      LeavesNoneBehind := by
  intro s s' event h hguard hstep
  have honly := onlyFront_step h.onlyFront trivial hstep
  change s.step index event = some s' at hstep
  cases event with
  | updatesScan =>
      obtain ⟨-, rfl⟩ := Option.ite_some_none_eq_some.mp hstep
      exact ⟨honly, h.nodup, h.retained⟩
  | scanFailure =>
      obtain ⟨-, rfl⟩ := Option.ite_some_none_eq_some.mp hstep
      exact ⟨honly, h.nodup, h.retained⟩
  | scanSuccess status data =>
      rw [step] at hstep
      split_ifs at hstep
      obtain ⟨-, -, -, hfresh, -⟩ := finishScan_listed hstep
      exact ⟨honly, hfresh h.nodup, retained_listed h hstep⟩
  | finishDownload i result =>
      change s.finishDownload i result = some s' at hstep
      cases result with
      | failure =>
          obtain ⟨_, _, -, ⟨-, rfl⟩ | ⟨_, _, hresult, -⟩ |
            ⟨_, _, hresult, -⟩ | ⟨_, _, _, hresult, -⟩⟩ :=
            finishDownload_cases h.onlyFront hstep
          · refine ⟨honly, by simpa using h.nodup, fun f hf => ?_⟩
            simpa [Replica.highestTimestamp] using h.retained f hf
          · cases hresult
          · cases hresult
          · cases hresult
      | success status imported complete =>
          by_cases hstatus : status = 401
          · subst hstatus
            obtain ⟨url, -, rfl⟩ := Option.map_eq_some_iff.mp hstep
            exact ⟨honly, h.nodup, h.retained⟩
          · obtain ⟨url, rest, hqueue, hrest, -⟩ :=
              finishDownload_popped h.onlyFront hstatus hstep
            refine ⟨honly, ?_, retained_popped h hguard hstatus hstep⟩
            rw [hrest]
            exact (List.nodup_cons.mp (hqueue ▸ h.nodup)).2
  | handleStop =>
      obtain rfl := Option.some.inj hstep
      exact ⟨honly, h.nodup, h.retained⟩
  | shutdownRequest =>
      obtain rfl := Option.some.inj hstep
      exact ⟨honly, h.nodup, h.retained⟩

/-- An answer outside the guard leaves an update behind. -/
theorem not_retained_of_answer {event : ReplicaEvent}
    (h : s.RetainedInv index) (hstep : s.step index event = some s')
    (hleaves : ¬ s.LeavesNoneBehind event) : ¬ s'.Retained index := by
  cases event with
  | finishDownload i result =>
      cases result with
      | failure => exact absurd trivial hleaves
      | success status imported complete =>
          simp only [LeavesNoneBehind, not_or] at hleaves
          obtain ⟨hstatus, hleaves⟩ := hleaves
          obtain ⟨url, rest, hqueue, hrest, hdatabase, heligible, himported⟩ :=
            finishDownload_popped h.onlyFront hstatus hstep
          obtain ⟨hfresh, -⟩ := List.nodup_cons.mp (hqueue ▸ h.nodup)
          intro hretained
          apply hleaves
          constructor
          · intro hnone f hf hhead
            have hurl : url = f.url := by
              rw [hqueue] at hhead
              exact Option.some.inj hhead
            have hsame : s'.imported = s.imported := by
              rw [himported, if_neg]
              rintro ⟨hok, hcomplete⟩
              rw [hnone hok] at hcomplete
              cases hcomplete
            have hstill : s'.Unimported f :=
              ⟨heligible ▸ hf.1, hsame ▸ hf.2⟩
            rw [← hdatabase, ← Replica.highestTimestamp_le index]
            apply (hretained f hstill).resolve_left
            rw [hrest, ← hurl]
            exact hfresh
          · intro f hf hqueued k r hcopy
            rw [hqueue, List.mem_cons, not_or] at hqueued
            have hstill : s'.Unimported f := by
              refine ⟨heligible ▸ hf.1, ?_⟩
              rw [himported]
              split
              · simp [hf.2, hqueued.1]
              · exact hf.2
            have hbound := (hretained f hstill).resolve_left (hrest ▸ hqueued.2)
            rw [Replica.highestTimestamp_le, hdatabase] at hbound
            apply hbound k r
            rw [lookup_importDump, hcopy, Option.some_or]
  | updatesScan => exact absurd trivial hleaves
  | scanFailure => exact absurd trivial hleaves
  | scanSuccess status data => exact absurd trivial hleaves
  | handleStop => exact absurd trivial hleaves
  | shutdownRequest => exact absurd trivial hleaves

end ReplicaRun

/-- The runs in which every update that was found new enough and is not
imported is queued or found new enough again are exactly the runs in which no
answer leaves one behind. -/
theorem replica_retained_iff (index : TimeIndex) (db : Database)
    (events : List ReplicaEvent) :
    (replicaSystem index db).Always (ReplicaRun.Retained index) events ↔
      (replicaSystem index db).Each ReplicaRun.LeavesNoneBehind events :=
  (replicaSystem index db).always_iff_each
    ⟨Or.inl rfl, List.nodup_nil, fun _ hf => absurd hf.1 List.not_mem_nil⟩
    ReplicaRun.retainedInv_step (fun _ h => h.retained)
    ReplicaRun.not_retained_of_answer events

/-- The first of the two updates of a listing. -/
def firstHref : HrefMatch :=
  { url := ("https://update.bohuno.com/pyzor/updates/" ++
      "12000000001200000300").toList
    min := "1200000000".toList
    max := "1200000300".toList }

/-- The import of the first update throws, that of the second completes. -/
def firstImportThrows : List ReplicaEvent :=
  [.updatesScan,
    .scanSuccess 207 ("<D:href>https://update.bohuno.com/pyzor/updates/" ++
      "12000000001200000300</D:href>" ++
      "<D:href>https://update.bohuno.com/pyzor/updates/" ++
      "12000003001200000600</D:href>").toList,
    .finishDownload 0 (.success 200 [] false),
    .finishDownload 0 (.success 200 [(firstHash, recordAt 1200000400)] true)]

theorem replica_not_always_retained :
    ¬ ∀ index db events,
      (replicaSystem index db).Always (ReplicaRun.Retained index) events := by
  intro h
  let M := replicaSystem TimeIndex.stable ∅
  have hends : (M.run firstImportThrows).any (fun s =>
      firstHref ∈ s.eligible ∧ firstHref.url ∉ s.imported ∧
        firstHref.url ∉ s.replica.updates_to_download_ ∧
        ¬ s.replica.highestTimestamp TimeIndex.stable ≤ firstHref.minTime) =
      true := by
    decide +kernel
  obtain ⟨s, hrun, hleft⟩ := (Option.any_eq_true _ _).mp hends
  obtain ⟨hseen, hnot, hqueue, htime⟩ := of_decide_eq_true hleft
  have halways := h TimeIndex.stable ∅ firstImportThrows
  have hretained := M.alwaysFrom_iff.mp halways firstImportThrows s
    List.prefix_rfl hrun
  rcases hretained firstHref ⟨hseen, hnot⟩ with hmem | hle
  · exact hqueue hmem
  · exact htime hle

end BohunoPyzord
