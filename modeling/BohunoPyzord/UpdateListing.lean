/-
What the updates scan makes of a listing: which of the URLs in it are queued,
and when it throws instead.
-/
import BohunoPyzord.Archive
import BohunoPyzord.ScanLoop

namespace BohunoPyzord

/-- The highest time of a stored record, or zero. -/
def Database.highestStored (db : Database) : Nat :=
  latestOf (db.pairs.map stamp)

/-- The URLs that a queue does not hold yet, in their order and each once. -/
def unseenUrls (queue urls : List Url) : List Url :=
  (urls.removeAll queue).eraseDups

@[simp] theorem unseenUrls_nil (queue : List Url) :
    unseenUrls queue [] = [] := by
  simp [unseenUrls]

theorem unseenUrls_cons_of_mem {queue urls : List Url} {url : Url}
    (h : url ∈ queue) : unseenUrls queue (url :: urls) =
      unseenUrls queue urls := by
  simp [unseenUrls, List.cons_removeAll, h]

/-- A URL that is queued is seen from then on. -/
theorem unseenUrls_cons_of_not_mem {queue urls : List Url} {url : Url}
    (h : url ∉ queue) : unseenUrls queue (url :: urls) =
      url :: unseenUrls (queue ++ [url]) urls := by
  have hkept : (url :: urls).removeAll queue =
      url :: urls.removeAll queue := by
    simp [List.cons_removeAll, h]
  rw [unseenUrls, hkept, List.eraseDups_cons, unseenUrls, List.removeAll,
    List.removeAll, List.filter_filter]
  congr 3
  funext other
  by_cases hsame : other = url
  · simp [hsame]
  · simp [hsame]

/-- The loop over the matches of a listing queues those that are new enough
and not seen yet. -/
theorem foldlM_queueUpdate_eq (highest : Nat) {found : List HrefMatch}
    (h : ∀ f ∈ found, f.minTime < 2 ^ 32) (queue : List Url) :
    found.foldlM (Replica.queueUpdate highest) queue =
      .ok (queue ++ unseenUrls queue
        ((found.filter fun f => highest ≤ f.minTime).map HrefMatch.url)) := by
  induction found generalizing queue with
  | nil =>
      simp only [List.filter_nil, List.map_nil, unseenUrls_nil,
        List.append_nil]
      rfl
  | cons f found ih =>
      have hrest := ih fun g hg => h g (List.mem_cons_of_mem f hg)
      rw [List.foldlM_cons,
        PyzordDaemon.queueUpdate_of_lt (h f List.mem_cons_self)]
      refine (hrest _).trans (congrArg Except.ok ?_)
      by_cases hmin : highest ≤ f.minTime
      · rw [List.filter_cons_of_pos (by simpa using hmin), List.map_cons]
        by_cases hmem : f.url ∈ queue
        · rw [if_neg fun hnew => hnew.2 hmem, unseenUrls_cons_of_mem hmem]
        · rw [if_pos ⟨hmin, hmem⟩, unseenUrls_cons_of_not_mem hmem,
            List.append_assoc]
          rfl
      · rw [if_neg fun hnew => hmin hnew.1,
          List.filter_cons_of_neg (by simpa using hmin)]

namespace PyzordDaemon

/-- `lookup_last` gives the highest time that is stored. -/
theorem highestTimestamp_eq (s : PyzordDaemon) (index : TimeIndex) :
    s.highestTimestamp index = s.database_.highestStored := by
  have hperm := index.perm s.database_
  rw [highestTimestamp, Database.lookupLast, Database.highestStored]
  rcases List.eq_nil_or_concat (index.entries s.database_) with
    hnil | ⟨front, last, hentries⟩
  · rw [hnil, List.perm_comm, List.perm_nil] at hperm
    rw [hnil, hperm]
    rfl
  · rw [List.concat_eq_append] at hentries
    rw [hentries, List.getLast?_concat]
    apply Nat.le_antisymm
    · apply le_latestOf
      apply List.mem_map_of_mem (f := stamp)
      rw [← hperm.mem_iff, hentries]
      exact List.mem_append_right _ List.mem_cons_self
    · apply latestOf_le
      intro t ht
      obtain ⟨p, hp, rfl⟩ := List.mem_map.mp ht
      obtain ⟨last', hlast', hle⟩ := (index.ordered s.database_).le_getLast
        (hperm.mem_iff.mpr hp)
      rw [hentries, List.getLast?_concat, Option.some.injEq] at hlast'
      exact hlast' ▸ hle

/-- The URLs of a listing whose lower bound is at or after everything that is
stored. -/
def listedUrls (s : PyzordDaemon) (data : Text) : List Url :=
  ((searchHrefs 0 data).filter fun f =>
    s.database_.highestStored ≤ f.minTime).map HrefMatch.url

/-- The answer to a scan is handled without an exception, and queues exactly
the listed URLs that are not queued yet. -/
def QueuesListing (s : PyzordDaemon) (index : TimeIndex) (status : Nat)
    (data : Text) (lookupLast : Bool) : Prop :=
  ∃ s', s.handleUpdatesScanSuccess index status data lookupLast = some s' ∧
    s'.updates_to_download_ = s.updates_to_download_ ++
      unseenUrls s.updates_to_download_ (s.listedUrls data)

/-- Starting a download leaves the queue as it is. -/
theorem updates_to_download_startUpdateDownload {s s' : PyzordDaemon}
    (h : s.startUpdateDownload = some s') :
    s'.updates_to_download_ = s.updates_to_download_ := by
  unfold startUpdateDownload request at h
  split at h
  · rw [← Option.some.inj h]
  · split at h
    · rw [← Option.some.inj h]
    · obtain ⟨client, -, rfl⟩ := Option.map_eq_some_iff.mp h
      rfl

/-- A listing is handled as it should be exactly if the database can be read,
every lower bound fits 32 bits, and a download that is started at once has a
URL that `http::url` accepts. -/
theorem queuesListing_iff (s : PyzordDaemon) (index : TimeIndex)
    (status : Nat) (data : Text) (lookupLast : Bool)
    (hok : 200 ≤ status ∧ status ≤ 299) :
    s.QueuesListing index status data lookupLast ↔
      s.Readable index data lookupLast := by
  constructor
  · rintro ⟨s', hs', -⟩
    have hspec : (s.Readable index data lookupLast ∧ _) ∨
        (¬ s.Readable index data lookupLast ∧ _) :=
      handleUpdatesScanSuccess_spec hok
    rcases hspec with
      ⟨hreadable, -⟩ | ⟨-, hnone⟩
    · exact hreadable
    · rw [hnone] at hs'
      cases hs'
  · intro hreadable
    have hspec : (s.Readable index data lookupLast ∧ _) ∨
        (¬ s.Readable index data lookupLast ∧ _) :=
      handleUpdatesScanSuccess_spec hok
    rcases hspec with
      ⟨-, s', hs', -⟩ | ⟨hnot, -⟩
    · refine ⟨s', hs', ?_⟩
      obtain ⟨rfl, htimes, -⟩ := hreadable
      have hqueue : queueUpdates (s.highestTimestamp index) data
          s.updates_to_download_ = some (s.updates_to_download_ ++
            unseenUrls s.updates_to_download_ (s.listedUrls data)) := by
        rw [queueUpdates_eq_some, highestTimestamp_eq]
        exact foldlM_queueUpdate_eq _ htimes s.updates_to_download_
      rw [handleUpdatesScanSuccess_of_queue hok hqueue] at hs'
      obtain ⟨mid, hmid, rfl⟩ := Option.map_eq_some_iff.mp hs'
      change mid.updates_to_download_ = _
      split at hmid
      · exact updates_to_download_startUpdateDownload hmid
      · rw [← Option.some.inj hmid]
    · exact absurd hreadable hnot

/-- A daemon that was started with an empty database. -/
def startedEmpty : PyzordDaemon :=
  let ring := StatisticsRing.create 300 0
  (pyzordDaemonSystem TimeIndex.stable ∅
    { request_statistics_ := ring, check_statistics_ := ring
      hit_statistics_ := ring }).init

/-- A listing of one update, by the digits of its name. -/
def listingOf (digits : String) : Text :=
  ("<D:href>https://update.bohuno.com/pyzor/updates/" ++ digits ++
    "</D:href>").toList

theorem queuesListing_startedEmpty :
    startedEmpty.QueuesListing TimeIndex.stable 207
      (listingOf "12000000001200000300") true := by
  rw [queuesListing_iff startedEmpty TimeIndex.stable 207 _ true (by decide)]
  exact ⟨rfl, by decide +kernel, fun _ _ => by decide +kernel⟩

/-- A lower bound of `9999999999` throws. -/
theorem not_queuesListing :
    ¬ ∀ (s : PyzordDaemon) (index : TimeIndex) (status : Nat) (data : Text),
      200 ≤ status ∧ status ≤ 299 →
      s.QueuesListing index status data true := by
  intro h
  obtain ⟨s', hs', -⟩ := h startedEmpty TimeIndex.stable 207
    (listingOf "99999999999999999999") (by decide)
  have hthrows : (startedEmpty.handleUpdatesScanSuccess TimeIndex.stable 207
      (listingOf "99999999999999999999") true).isSome = false := by
    decide +kernel
  rw [hs'] at hthrows
  cases hthrows

end PyzordDaemon

end BohunoPyzord
