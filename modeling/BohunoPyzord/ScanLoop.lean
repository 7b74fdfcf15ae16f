/-
The loop of the updates scan.  Its timer starts a request and the answer to
the request starts the timer, so that one operation of the two is pending at a
time, unless an answer starts nothing.
-/
import BohunoPyzord.PyzordDaemon

namespace BohunoPyzord

namespace HttpUrl

/-- The URLs that the daemon writes out itself are well-formed. -/
theorem client_update_bohuno_com (path : Text) :
    client ("https://update.bohuno.com".toList ++ '/' :: path) =
      some { scheme_ := "https".toList, host_ := "update.bohuno.com".toList
             port_ := some 443, path_ := '/' :: path } := by
  rfl

end HttpUrl

namespace PyzordDaemon

/-- The two operations of the loop. -/
def isScan (operation : PyzordOperation) : Bool :=
  operation = .updatesScanTimer || operation = .updatesScan

/-- Waits for the scan timer that have not been cancelled. -/
def scanTimers (s : PyzordDaemon) : Nat :=
  s.io.standing (· = .updatesScanTimer)

def scansInFlight (s : PyzordDaemon) : Nat :=
  s.io.standing (· = .updatesScan)

/-- Until the daemon is stopped or refused, either the timer is armed or one
request is in flight. -/
def OneScan (s : PyzordDaemon) : Prop :=
  s.stopped = false → s.refused = false →
    (s.scanTimers = 1 ∧ s.scansInFlight = 0) ∨
      (s.scanTimers = 0 ∧ s.scansInFlight = 1)

instance (s : PyzordDaemon) : Decidable s.OneScan :=
  inferInstanceAs (Decidable (_ → _))

/-- The first of the URLs can be requested, unless nothing is requested any
more. -/
def Startable (s : PyzordDaemon) (urls : List Url) : Prop :=
  s.server.shutdown_ = false → ∀ url ∈ urls.head?,
    (HttpUrl.client url).isSome = true

/-- The updates of a listing that are new enough. -/
def eligibleUrls (s : PyzordDaemon) (index : TimeIndex) (data : Text) :
    List Url :=
  ((searchHrefs 0 data).filter fun f =>
    s.highestTimestamp index ≤ f.minTime).map HrefMatch.url

/-- Nothing that a listing makes the scan do throws. -/
def Readable (s : PyzordDaemon) (index : TimeIndex) (data : Text)
    (lookupLast : Bool) : Prop :=
  lookupLast = true ∧ (∀ f ∈ searchHrefs 0 data, f.minTime < 2 ^ 32) ∧
    (s.updates_to_download_ = [] → s.Startable (s.eligibleUrls index data))

/-- What keeps the loop going: a scan is answered with a failure, or with a
status of success and a listing that can be read, and no handler and no client
of a request throws. -/
def KeepsScanning (index : TimeIndex) (s : PyzordDaemon)
    (event : PyzordEvent) : Prop :=
  match event with
  | .updatesScanSuccess _ status data lookupLast =>
      status = 401 ∨ (200 ≤ status ∧ status ≤ 299 ∧
        s.Readable index data lookupLast)
  | .updateDownloadFailure _ => s.Startable s.updates_to_download_
  | .updateDownloadSuccess _ status _ =>
      status = 200 → s.Startable s.updates_to_download_.tail
  | .requestThrows _ => False
  | .handleReceiveFrom i _ lookup =>
      ∀ received ∈ s.server.socket_.takeReceive i,
        s.checks received.1 = true → lookup = true
  | _ => True

/-! What a listing does to the queue. -/

theorem queueUpdate_of_lt {highest : Nat} {queue : List Url} {f : HrefMatch}
    (h : f.minTime < 2 ^ 32) :
    Replica.queueUpdate highest queue f =
      .ok (if highest ≤ f.minTime ∧ f.url ∉ queue then queue ++ [f.url]
        else queue) := by
  unfold Replica.queueUpdate lexicalCast
  rw [HrefMatch.minTime] at h
  rw [if_pos h]
  change (if f.minTime ≥ highest then _ else _) = _
  by_cases hmin : highest ≤ f.minTime
  · by_cases hmem : f.url ∈ queue
    · simp [hmin, hmem, pure, Except.pure]
    · simp [hmin, hmem, pure, Except.pure]
  · simp [hmin, pure, Except.pure]

theorem queueUpdate_of_le {highest : Nat} {queue : List Url} {f : HrefMatch}
    (h : 2 ^ 32 ≤ f.minTime) :
    Replica.queueUpdate highest queue f = .error .badLexicalCast := by
  unfold Replica.queueUpdate lexicalCast
  rw [HrefMatch.minTime] at h
  rw [if_neg (Nat.not_lt.mpr h)]
  rfl

/-- The loop gets through a list of matches exactly if it can read the time of
each; what is first in the queue then is what was first, or else the first
match that is new enough. -/
theorem foldlM_queueUpdate (highest : Nat) (found : List HrefMatch)
    (queue : List Url) :
    (∀ queue', found.foldlM (Replica.queueUpdate highest) queue = .ok queue' →
      queue'.head? = (queue ++ (found.filter fun f =>
        highest ≤ f.minTime).map HrefMatch.url).head?) ∧
    ((∃ queue', found.foldlM (Replica.queueUpdate highest) queue =
        .ok queue') ↔ ∀ f ∈ found, f.minTime < 2 ^ 32) := by
  induction found generalizing queue with
  | nil =>
      constructor
      · intro queue' h
        obtain rfl := Except.ok.inj h
        simp
      · exact ⟨fun _ f hf => (List.not_mem_nil hf).elim, fun _ => ⟨queue, rfl⟩⟩
  | cons f found ih =>
      rw [List.foldlM_cons]
      by_cases hfits : f.minTime < 2 ^ 32
      · rw [queueUpdate_of_lt hfits]
        obtain ⟨hhead, hall⟩ := ih (if highest ≤ f.minTime ∧ f.url ∉ queue then
          queue ++ [f.url] else queue)
        constructor
        · intro queue' h
          rw [hhead queue' h]
          by_cases hmin : highest ≤ f.minTime
          · by_cases hmem : f.url ∈ queue
            · cases queue with
              | nil => cases hmem
              | cons url queue => simp [hmem, hmin]
            · simp [hmem, hmin]
          · simp [hmin]
        · rw [List.forall_mem_cons]
          exact hall.trans ⟨fun h => ⟨hfits, h⟩, And.right⟩
      · rw [queueUpdate_of_le (Nat.not_lt.mp hfits)]
        constructor
        · intro queue' h
          cases h
        · constructor
          · rintro ⟨queue', h⟩
            cases h
          · intro h
            exact absurd (h f List.mem_cons_self) hfits

theorem queueUpdates_eq_some {highest : Nat} {data : Text}
    {queue queue' : List Url} :
    queueUpdates highest data queue = some queue' ↔
      (searchHrefs 0 data).foldlM (Replica.queueUpdate highest) queue =
        .ok queue' := by
  unfold queueUpdates
  cases (searchHrefs 0 data).foldlM (Replica.queueUpdate highest) queue with
  | ok result => simp [Except.toOption]
  | error failure => simp [Except.toOption]

/-- What the loop over a listing leaves at the front of the queue, if it can
read the times. -/
theorem queueUpdates_head {highest : Nat} {data : Text}
    {queue queue' : List Url}
    (h : queueUpdates highest data queue = some queue') :
    queue'.head? = (queue ++ ((searchHrefs 0 data).filter fun f =>
      highest ≤ f.minTime).map HrefMatch.url).head? :=
  (foldlM_queueUpdate highest (searchHrefs 0 data) queue).1 queue'
    (queueUpdates_eq_some.mp h)

theorem queueUpdates_isSome {highest : Nat} {data : Text}
    {queue : List Url} :
    (∃ queue', queueUpdates highest data queue = some queue') ↔
      ∀ f ∈ searchHrefs 0 data, f.minTime < 2 ^ 32 := by
  simp only [queueUpdates_eq_some]
  exact (foldlM_queueUpdate highest (searchHrefs 0 data) queue).2

/-! What the handlers do to the loop. -/

/-- As many operations of the loop pending as before, and no more reason to
let it go. -/
structure Alike (s s' : PyzordDaemon) : Prop where
  stopped : s'.stopped = s.stopped
  refused : s'.refused = s.refused
  scans : s'.io.standing isScan = s.io.standing isScan

namespace Alike

variable {s s' : PyzordDaemon}

theorem trans {s'' : PyzordDaemon} (first : Alike s s')
    (second : Alike s' s'') : Alike s s'' where
  stopped := second.stopped.trans first.stopped
  refused := second.refused.trans first.refused
  scans := second.scans.trans first.scans

theorem start (operation : PyzordOperation)
    (h : isScan operation = false) : Alike s (s.start operation) where
  stopped := rfl
  refused := rfl
  scans := by
    rw [PyzordDaemon.start, IoService.standing_start, h]
    rfl

theorem schedule (timer : PyzordOperation) (h : isScan timer = false) :
    Alike s (s.schedule timer) where
  stopped := rfl
  refused := rfl
  scans := by
    rw [PyzordDaemon.schedule, PyzordDaemon.start, IoService.standing_start, h,
      IoService.standing_cancel_of_disjoint isScan s.io]
    · rfl
    · intro kind hkind
      exact of_decide_eq_true hkind ▸ h

/-- An operation that is not of the loop is taken off. -/
theorem take {io : IoService PyzordOperation} {i : Nat}
    {op : Operation PyzordOperation} (h : s.io.take i = some (op, io))
    (hop : isScan op.kind = false) : Alike s { s with io } where
  stopped := rfl
  refused := rfl
  scans := by
    rw [IoService.standing_take isScan h]
    simp [IoService.Stands, hop]

end Alike

/-- A download is started without an exception exactly if the front of the
queue can be requested. -/
theorem startUpdateDownload_cases (s : PyzordDaemon) :
    (s.Startable s.updates_to_download_ ∧
      ∃ s', s.startUpdateDownload = some s' ∧ Alike s s') ∨
    (¬ s.Startable s.updates_to_download_ ∧
      s.startUpdateDownload = none) := by
  unfold startUpdateDownload Startable
  cases hdown : s.server.shutdown_ with
  | true => exact Or.inl ⟨by simp, s, rfl, ⟨rfl, rfl, rfl⟩⟩
  | false =>
      cases hqueue : s.updates_to_download_ with
      | nil => exact Or.inl ⟨by simp, s, rfl, ⟨rfl, rfl, rfl⟩⟩
      | cons url urls =>
          cases hclient : HttpUrl.client url with
          | none => exact Or.inr ⟨by simp [hclient], by
              simp [request, hclient]⟩
          | some client => exact Or.inl ⟨by simp [hclient], _, by
              simp only [request, hclient, Option.map_some]
              rfl, Alike.start _ rfl⟩

/-- What a step makes of the loop when `keeps` says whether it keeps it
going: it stops the daemon, it is refused, or neither. -/
def ScanEffect (s s' : PyzordDaemon) (keeps : Prop) : Prop :=
  (keeps ∧ s'.stopped = true ∧ s'.server.shutdown_ = true) ∨
    (keeps ∧ s'.stopped = s.stopped ∧ s'.refused = true) ∨
    (s'.stopped = s.stopped ∧ s'.refused = s.refused ∧
      (s.io.standing isScan = 1 →
        (keeps → s'.io.standing isScan = 1) ∧
        (¬ keeps → s'.io.standing isScan = 0)))

namespace ScanEffect

variable {s s' : PyzordDaemon} {keeps : Prop}

theorem of_alike (h : Alike s s') (hkeeps : keeps) :
    ScanEffect s s' keeps := by
  apply Or.inr
  apply Or.inr
  refine ⟨h.stopped, h.refused, fun hone => ⟨fun _ => ?_, fun hnot => ?_⟩⟩
  · rw [h.scans, hone]
  · exact absurd hkeeps hnot

/-- An exception in a handler. -/
theorem of_terminated {s₀ : PyzordDaemon} (h : Alike s s₀)
    (hkeeps : ¬ keeps) : ScanEffect s s₀.terminated keeps := by
  apply Or.inr
  apply Or.inr
  exact ⟨h.stopped, h.refused, fun _ => ⟨fun hyes => absurd hyes hkeeps,
    fun _ => rfl⟩⟩

end ScanEffect

section Steps

variable {index : TimeIndex} {s s' : PyzordDaemon}

theorem answer_eq_some {i : Nat} {p : PyzordOperation → Bool}
    {handler : PyzordDaemon → Option PyzordDaemon}
    (h : s.answer i p handler = some s') :
    ∃ op io, s.io.take i = some (op, io) ∧ p op.kind = true ∧
      op.progress = .outstanding ∧
      s' = s.finish (handler { s with io }) := by
  obtain ⟨⟨op, io⟩, htake, hhandle⟩ := Option.bind_eq_some_iff.mp h
  dsimp only at hhandle
  split at hhandle
  · rename_i hop
    exact ⟨op, io, htake, hop.1, hop.2, (Option.some.inj hhandle).symm⟩
  · cases hhandle

theorem client_statisticsUrl (computerId : Text) (now : Readings)
    (state : PyzordState) :
    (HttpUrl.client (statisticsUrl computerId now state).1).isSome = true := by
  have hsplit :
      "https://update.bohuno.com/statistics.php?source=bohuno-pyzord".toList =
        "https://update.bohuno.com".toList ++
          '/' :: "statistics.php?source=bohuno-pyzord".toList := by
    decide +kernel
  unfold statisticsUrl
  dsimp only
  simp only [hsplit, List.append_assoc, List.cons_append]
  rw [HttpUrl.client_update_bohuno_com]
  rfl

theorem statistics_of_expired (computerId : Text) (now : Readings) :
    ∃ state url, s.statistics computerId now false =
      some ({ s with server := { s.server with state } }.start
        (.statistics url)) := by
  obtain ⟨client, hclient⟩ := Option.isSome_iff_exists.mp
    (client_statisticsUrl computerId now s.server.state)
  rw [statistics, Bool.not_false, if_pos rfl]
  generalize statisticsUrl computerId now s.server.state = reported
    at hclient ⊢
  exact ⟨reported.2, reported.1, by
    simp only [request, hclient, Option.map_some]⟩

theorem updatesScan_of_expired :
    s.updatesScan false = some (s.start .updatesScan) := by
  have hsplit : "https://update.bohuno.com/pyzor/updates".toList =
      "https://update.bohuno.com".toList ++
        '/' :: "pyzor/updates".toList := by
    decide +kernel
  rw [updatesScan, Bool.not_false, if_pos rfl, request, hsplit,
    HttpUrl.client_update_bohuno_com]
  rfl

/-- What the handler of a timer does: nothing if the wait was cancelled, and
otherwise what the timer is for. -/
theorem handleTimer_cases {computerId : Text} {now : Readings}
    {op : Operation PyzordOperation} {result : Option PyzordDaemon}
    (h : s.handleTimer computerId now op = some result) :
    ∃ s', result = some s' ∧
      ((op.progress = .cancelled ∧ (op.kind = .statisticsTimer ∨
          op.kind = .checkpointTimer ∨ op.kind = .updatesScanTimer) ∧
          s' = s) ∨
        (∃ state url, op = ⟨.statisticsTimer, .completed⟩ ∧
          s' = { s with server := { s.server with state } }.start
            (.statistics url)) ∨
        (op = ⟨.checkpointTimer, .completed⟩ ∧
          s' = s.schedule .checkpointTimer) ∨
        (op = ⟨.updatesScanTimer, .completed⟩ ∧
          s' = s.start .updatesScan)) := by
  obtain ⟨kind, progress⟩ := op
  cases progress with
  | outstanding => cases h
  | completed =>
      cases kind with
      | statisticsTimer =>
          obtain ⟨state, url, hs'⟩ := statistics_of_expired (s := s)
            computerId now
          exact ⟨_, (Option.some.inj h).symm.trans hs',
            Or.inr (Or.inl ⟨state, url, rfl, rfl⟩)⟩
      | checkpointTimer =>
          exact ⟨_, (Option.some.inj h).symm,
            Or.inr (Or.inr (Or.inl ⟨rfl, rfl⟩))⟩
      | updatesScanTimer =>
          exact ⟨_, (Option.some.inj h).symm.trans updatesScan_of_expired,
            Or.inr (Or.inr (Or.inr ⟨rfl, rfl⟩))⟩
      | _ => cases h
  | cancelled =>
      cases kind
      case statisticsTimer | checkpointTimer | updatesScanTimer =>
        exact ⟨_, (Option.some.inj h).symm, Or.inl ⟨rfl, by simp, rfl⟩⟩
      all_goals cases h

/-- The handler of a timer leaves as many operations of the loop as there were
with the timer. -/
theorem handleTimer_spec {i : Nat} {computerId : Text} {now : Readings}
    {op : Operation PyzordOperation} {io : IoService PyzordOperation}
    (htake : s.io.take i = some (op, io)) {result : Option PyzordDaemon}
    (h : { s with io }.handleTimer computerId now op = some result) :
    ∃ s', result = some s' ∧ Alike s s' := by
  obtain ⟨s', rfl, hs'⟩ := handleTimer_cases h
  refine ⟨s', rfl, ?_⟩
  rcases hs' with ⟨hcancelled, -, rfl⟩ | ⟨state, url, rfl, rfl⟩ |
    ⟨rfl, rfl⟩ | ⟨rfl, rfl⟩
  · refine ⟨rfl, rfl, ?_⟩
    rw [IoService.standing_take isScan htake]
    simp [IoService.Stands, hcancelled]
  · have hrings : Alike { s with io }
        { s with io, server := { s.server with state } } := ⟨rfl, rfl, rfl⟩
    exact ((Alike.take htake rfl).trans hrings).trans
      (Alike.start (.statistics url) rfl)
  · exact (Alike.take htake rfl).trans (Alike.schedule _ rfl)
  · refine ⟨rfl, rfl, ?_⟩
    rw [IoService.standing_take isScan htake]
    exact IoService.standing_start isScan io .updatesScan

/-- The answer to a request that has nothing to do with the loop. -/
theorem answer_effect {i : Nat} {p : PyzordOperation → Bool}
    {handler : PyzordDaemon → Option PyzordDaemon} {keeps : Prop}
    (hp : ∀ kind, p kind = true → isScan kind = false)
    (hhandler : ∀ io, (keeps ∧ ∃ s', handler { s with io } = some s' ∧
        ScanEffect { s with io } s' keeps) ∨
      (¬ keeps ∧ handler { s with io } = none))
    (h : s.answer i p handler = some s') : ScanEffect s s' keeps := by
  obtain ⟨op, io, htake, hop, -, rfl⟩ := answer_eq_some h
  have halike : Alike s { s with io } := Alike.take htake (hp _ hop)
  rcases hhandler io with ⟨hkeeps, s', hs', heffect⟩ | ⟨hkeeps, hnone⟩
  · rw [hs']
    rcases heffect with hended | hrefused | ⟨hstopped, hrefused, hscans⟩
    · exact Or.inl hended
    · exact Or.inr (Or.inl hrefused)
    · rw [halike.scans] at hscans
      exact Or.inr (Or.inr ⟨hstopped, hrefused, hscans⟩)
  · rw [hnone]
    exact ScanEffect.of_terminated ⟨rfl, rfl, rfl⟩ hkeeps

/-- What a scan does with a listing whose times it has read. -/
theorem handleUpdatesScanSuccess_of_queue {status : Nat} {data : Text}
    {queue : List Url} (hok : 200 ≤ status ∧ status ≤ 299)
    (hqueue : queueUpdates (s.highestTimestamp index) data
      s.updates_to_download_ = some queue) :
    s.handleUpdatesScanSuccess index status data true =
      (if s.updates_to_download_.isEmpty then
        { s with updates_to_download_ := queue }.startUpdateDownload
      else some { s with updates_to_download_ := queue }).map
        scheduleUpdatesScan := by
  have hrefused : status ≠ 401 := by omega
  unfold handleUpdatesScanSuccess
  rw [if_neg hrefused, if_pos hok]
  simp only [Bool.not_true, Bool.false_eq_true, ↓reduceIte, hqueue,
    Option.bind_eq_bind, Option.bind_some]
  rw [Option.map_eq_bind]
  cases s.updates_to_download_.isEmpty with
  | true => rfl
  | false => rfl

theorem handleUpdatesScanSuccess_of_throws {status : Nat} {data : Text}
    {lookupLast : Bool} (hok : 200 ≤ status ∧ status ≤ 299)
    (h : lookupLast = false ∨ queueUpdates (s.highestTimestamp index) data
      s.updates_to_download_ = none) :
    s.handleUpdatesScanSuccess index status data lookupLast = none := by
  have hrefused : status ≠ 401 := by omega
  unfold handleUpdatesScanSuccess
  rw [if_neg hrefused, if_pos hok]
  rcases h with rfl | hnone
  · rfl
  · rw [hnone]
    cases lookupLast <;> rfl

theorem standing_scheduleUpdatesScan (h : s.io.standing isScan = 0) :
    s.scheduleUpdatesScan.io.standing isScan = 1 := by
  have hcancelled := IoService.standing_cancel_le isScan s.io
    (· = PyzordOperation.updatesScanTimer)
  rw [h] at hcancelled
  rw [scheduleUpdatesScan, schedule, start, IoService.standing_start,
    Nat.le_zero.mp hcancelled]
  rfl

/-- A listing that can be read re-arms the timer, another is an exception. -/
theorem handleUpdatesScanSuccess_spec {status : Nat} {data : Text}
    {lookupLast : Bool} (hok : 200 ≤ status ∧ status ≤ 299) :
    (s.Readable index data lookupLast ∧
      ∃ s', s.handleUpdatesScanSuccess index status data lookupLast =
          some s' ∧ s'.stopped = s.stopped ∧ s'.refused = s.refused ∧
        (s.io.standing isScan = 0 → s'.io.standing isScan = 1)) ∨
    (¬ s.Readable index data lookupLast ∧
      s.handleUpdatesScanSuccess index status data lookupLast = none) := by
  cases lookupLast with
  | false =>
      exact Or.inr ⟨fun h => Bool.noConfusion h.1,
        handleUpdatesScanSuccess_of_throws hok (Or.inl rfl)⟩
  | true =>
      by_cases htimes : ∀ f ∈ searchHrefs 0 data, f.minTime < 2 ^ 32
      · obtain ⟨queue, hqueue⟩ := queueUpdates_isSome.mpr htimes
        have hhead := queueUpdates_head hqueue
        rw [handleUpdatesScanSuccess_of_queue hok hqueue]
        cases hbefore : s.updates_to_download_ with
        | cons url urls =>
            have hreadable : s.Readable index data true :=
              ⟨rfl, htimes, fun hempty => by simp [hbefore] at hempty⟩
            exact Or.inl ⟨hreadable, _, rfl, rfl, rfl,
              fun hnone => standing_scheduleUpdatesScan hnone⟩
        | nil =>
            rw [hbefore, List.nil_append] at hhead
            have hstartable : { s with
                updates_to_download_ := queue }.Startable queue ↔
                s.Readable index data true := by
              unfold Startable Readable Startable
              rw [hhead]
              exact ⟨fun h => ⟨rfl, htimes, fun _ => h⟩,
                fun h => h.2.2 hbefore⟩
            rcases startUpdateDownload_cases
                { s with updates_to_download_ := queue } with
              ⟨hstart, mid, hmid, halike⟩ | ⟨hstart, hmid⟩
            · rw [List.isEmpty_nil, if_pos rfl, hmid]
              exact Or.inl ⟨hstartable.mp hstart, _, rfl, halike.stopped,
                halike.refused, fun hnone =>
                  standing_scheduleUpdatesScan (halike.scans.trans hnone)⟩
            · rw [List.isEmpty_nil, if_pos rfl, hmid]
              exact Or.inr ⟨fun h => hstart (hstartable.mpr h), rfl⟩
      · refine Or.inr ⟨fun h => htimes h.2.1,
          handleUpdatesScanSuccess_of_throws hok (Or.inr ?_)⟩
        apply Option.eq_none_iff_forall_ne_some.mpr
        intro queue hqueue
        exact htimes (queueUpdates_isSome.mp ⟨queue, hqueue⟩)

/-- The answer to a scan keeps the loop going if it was a failure, or a status
of success and a listing that can be read. -/
theorem updatesScanSuccess_effect {i : Nat} {status : Nat} {data : Text}
    {lookupLast : Bool}
    (h : (s.answer i (· = .updatesScan) fun s =>
      s.handleUpdatesScanSuccess index status data lookupLast) = some s') :
    ScanEffect s s' (KeepsScanning index s
      (.updatesScanSuccess i status data lookupLast)) := by
  obtain ⟨op, io, htake, hop, hprogress, rfl⟩ := answer_eq_some h
  have hstands : IoService.Stands isScan op :=
    ⟨by simp [isScan, of_decide_eq_true hop], by simp [hprogress]⟩
  have hnone : s.io.standing isScan = 1 → io.standing isScan = 0 := by
    intro hone
    have hone' := IoService.standing_take isScan htake
    rw [if_pos hstands] at hone'
    omega
  by_cases hrefused : status = 401
  · right; left
    unfold handleUpdatesScanSuccess
    rw [if_pos hrefused]
    exact ⟨Or.inl hrefused, rfl, rfl⟩
  · right; right
    by_cases hok : 200 ≤ status ∧ status ≤ 299
    · have hkeeps : KeepsScanning index s
          (.updatesScanSuccess i status data lookupLast) ↔
          s.Readable index data lookupLast :=
        ⟨fun h => (h.resolve_left hrefused).2.2,
          fun h => Or.inr ⟨hok.1, hok.2, h⟩⟩
      rw [hkeeps]
      rcases handleUpdatesScanSuccess_spec (s := { s with io }) hok with
        ⟨hreadable, s', hs', hstopped, hrefused', hscans⟩ | ⟨hthrows, hs'⟩
      · rw [hs']
        exact ⟨hstopped, hrefused', fun hone =>
          ⟨fun _ => hscans (hnone hone), fun hnot => absurd hreadable hnot⟩⟩
      · rw [hs']
        exact ⟨rfl, rfl, fun _ => ⟨fun hread => absurd hread hthrows,
          fun _ => rfl⟩⟩
    · have hother : ({ s with io }.handleUpdatesScanSuccess index status data
          lookupLast) = some { s with io } := by
        unfold handleUpdatesScanSuccess
        rw [if_neg hrefused, if_neg hok]
        rfl
      rw [hother]
      refine ⟨rfl, rfl, fun hone => ⟨fun hkeeps => ?_, fun _ => hnone hone⟩⟩
      have hread := hkeeps.resolve_left hrefused
      exact absurd ⟨hread.1, hread.2.1⟩ hok

theorem updatesScanFailure_effect {i : Nat}
    (h : (s.answer i (· = .updatesScan) fun s =>
      some s.handleUpdatesScanFailure) = some s') :
    ScanEffect s s' True := by
  obtain ⟨op, io, htake, hop, hprogress, rfl⟩ := answer_eq_some h
  have hstands : IoService.Stands isScan op :=
    ⟨by simp [isScan, of_decide_eq_true hop], by simp [hprogress]⟩
  right; right
  refine ⟨rfl, rfl, fun hone => ⟨fun _ => ?_, fun hnot => absurd trivial hnot⟩⟩
  rw [IoService.standing_take isScan htake, if_pos hstands] at hone
  exact standing_scheduleUpdatesScan (s := { s with io })
    (Nat.succ.inj hone)

/-- A download that is started anew leaves the loop alone. -/
theorem startUpdateDownload_effect {s₀ : PyzordDaemon} (h : Alike s₀ s) :
    (s.Startable s.updates_to_download_ ∧
      ∃ s', s.startUpdateDownload = some s' ∧
        ScanEffect s₀ s' (s.Startable s.updates_to_download_)) ∨
    (¬ s.Startable s.updates_to_download_ ∧
      s.startUpdateDownload = none) := by
  rcases startUpdateDownload_cases s with
    ⟨hstart, s', hs', halike⟩ | ⟨hstart, hs'⟩
  · exact Or.inl ⟨hstart, s', hs',
      ScanEffect.of_alike (h.trans halike) hstart⟩
  · exact Or.inr ⟨hstart, hs'⟩

theorem not_isScan_of_isUpdateDownload (kind : PyzordOperation)
    (h : isUpdateDownload kind = true) : isScan kind = false := by
  cases kind <;> first | rfl | cases h

theorem not_isScan_of_isStatistics (kind : PyzordOperation)
    (h : isStatistics kind = true) : isScan kind = false := by
  cases kind <;> first | rfl | cases h

theorem updateDownloadFailure_effect {i : Nat}
    (h : s.answer i isUpdateDownload handleUpdateDownloadFailure = some s') :
    ScanEffect s s' (s.Startable s.updates_to_download_) := by
  apply answer_effect not_isScan_of_isUpdateDownload ?_ h
  intro io
  exact startUpdateDownload_effect (s := { s with io }) ⟨rfl, rfl, rfl⟩

theorem updateDownloadSuccess_effect {i status : Nat} {imported : Dump}
    (h : (s.answer i isUpdateDownload fun s =>
      s.handleUpdateDownloadSuccess status imported) = some s') :
    ScanEffect s s' (status = 200 →
      s.Startable s.updates_to_download_.tail) := by
  apply answer_effect not_isScan_of_isUpdateDownload ?_ h
  intro io
  unfold handleUpdateDownloadSuccess
  by_cases hrefused : status = 401
  · rw [if_pos hrefused]
    have hkeeps : status = 200 →
        s.Startable s.updates_to_download_.tail := fun hok => by omega
    exact Or.inl ⟨hkeeps, _, rfl, Or.inr (Or.inl ⟨hkeeps, rfl, rfl⟩)⟩
  · rw [if_neg hrefused]
    by_cases hok : status = 200
    · simp only [hok, ↓reduceIte, forall_const]
      let next := { s with
        io, updates_to_download_ := s.updates_to_download_.tail
        database_ := s.database_.importDump imported }
      have hnext : Alike { s with io } next := ⟨rfl, rfl, rfl⟩
      exact startUpdateDownload_effect hnext
    · dsimp only
      rw [if_neg hok]
      exact Or.inl ⟨fun h => absurd h hok, _, rfl,
        ScanEffect.of_alike ⟨rfl, rfl, rfl⟩ fun h => absurd h hok⟩

theorem statisticsFailure_effect {i : Nat}
    (h : (s.answer i isStatistics fun s =>
      some s.handleStatisticsFailure) = some s') :
    ScanEffect s s' True := by
  apply answer_effect not_isScan_of_isStatistics ?_ h
  intro io
  exact Or.inl ⟨trivial, _, rfl,
    ScanEffect.of_alike (Alike.schedule _ rfl) trivial⟩

theorem statisticsSuccess_effect {i status : Nat}
    (h : (s.answer i isStatistics fun s =>
      some (s.handleStatisticsSuccess status)) = some s') :
    ScanEffect s s' True := by
  apply answer_effect not_isScan_of_isStatistics ?_ h
  intro io
  refine Or.inl ⟨trivial, _, rfl, ?_⟩
  unfold handleStatisticsSuccess
  by_cases hrefused : status = 401
  · refine Or.inr (Or.inl ⟨trivial, rfl, ?_⟩)
    simp [scheduleStatistics, schedule, start, hrefused]
  · rw [decide_eq_false hrefused, Bool.or_false]
    exact ScanEffect.of_alike (Alike.schedule _ rfl) trivial

/-- The client of a request throws: the loop is gone with the process. -/
theorem requestThrows_effect {i : Nat}
    (h : (s.answer i isRequest fun _ => none) = some s') :
    ScanEffect s s' False := by
  obtain ⟨op, io, -, -, -, rfl⟩ := answer_eq_some h
  exact Or.inr (Or.inr ⟨rfl, rfl, fun _ => ⟨False.elim, fun _ => rfl⟩⟩)

/-- What a receive does when it does not throw. -/
theorem handleReceiveFrom_cases (s : PyzordDaemon) (now : Readings)
    (lookup : Bool) (outcome : Option Nat) :
    (¬ (s.checks outcome = true → lookup = true) ∧
      s.handleReceiveFrom now lookup outcome = none) ∨
    ((s.checks outcome = true → lookup = true) ∧
      ∃ server, server = (s.server.handleReceiveFrom s.database_ now
          outcome).1 ∧
        s.handleReceiveFrom now lookup outcome = some { s with
          server
          started := if server.shutdown_ then s.started
            else s.started ++ [.receiveFrom] }) := by
  unfold handleReceiveFrom
  cases hchecks : s.checks outcome with
  | false => exact Or.inr ⟨fun h => Bool.noConfusion h, _, rfl, rfl⟩
  | true =>
      cases lookup with
      | false => exact Or.inl ⟨fun h => Bool.noConfusion (h rfl), rfl⟩
      | true => exact Or.inr ⟨fun _ => rfl, _, rfl, rfl⟩

theorem handleReceiveFrom_effect {i : Nat} {now : Readings} {lookup : Bool}
    (h : (s.server.socket_.takeReceive i).map (fun (outcome, socket_) =>
      s.finish ({ s with server := { s.server with socket_ }
        }.handleReceiveFrom now lookup outcome)) = some s') :
    ScanEffect s s' (∀ received ∈ s.server.socket_.takeReceive i,
      s.checks received.1 = true → lookup = true) := by
  obtain ⟨⟨outcome, socket_⟩, htake, rfl⟩ := Option.map_eq_some_iff.mp h
  have hbuffer : { s with server := { s.server with socket_ } }.checks
      outcome = s.checks outcome := by
    obtain ⟨r, -, -, rfl⟩ := DatagramSocket.takeReceive_eq_some htake
    rfl
  have hkeeps : (∀ received ∈ s.server.socket_.takeReceive i,
      s.checks received.1 = true → lookup = true) ↔
      (s.checks outcome = true → lookup = true) := by
    rw [htake]
    simp
  rw [hkeeps, ← hbuffer]
  dsimp only
  rcases handleReceiveFrom_cases
      { s with server := { s.server with socket_ } } now lookup outcome with
    ⟨hthrows, hs'⟩ | ⟨hreads, server, -, hs'⟩
  · rw [hs']
    exact ScanEffect.of_terminated ⟨rfl, rfl, rfl⟩ hthrows
  · rw [hs']
    exact ScanEffect.of_alike ⟨rfl, rfl, rfl⟩ hreads

theorem handleStop_effect {i : Nat}
    (h : (s.answer i (· = .handleStop) fun s => some s.handleStop) =
      some s') : ScanEffect s s' True := by
  obtain ⟨op, io, -, -, -, rfl⟩ := answer_eq_some h
  exact Or.inl ⟨trivial, rfl, rfl⟩

theorem socketStep_effect {event : UdpEvent PyzordControl}
    (h : s.socketStep event = some s') : ScanEffect s s' True := by
  obtain ⟨server, -, rfl⟩ := Option.map_eq_some_iff.mp h
  exact ScanEffect.of_alike ⟨rfl, rfl, rfl⟩ trivial

/-- What any step makes of the loop. -/
theorem step_effect {event : PyzordEvent}
    (hstep : s.step index event = some s') :
    ScanEffect s s' (KeepsScanning index s event) := by
  unfold step at hstep
  split at hstep
  · cases event with
    | expire i =>
        change (if _ then _ else none) = some s' at hstep
        split at hstep
        · obtain ⟨io, hio, rfl⟩ := Option.map_eq_some_iff.mp hstep
          exact ScanEffect.of_alike
            ⟨rfl, rfl, IoService.standing_complete isScan hio⟩ trivial
        · cases hstep
    | handleTimer i computerId now =>
        obtain ⟨⟨op, io⟩, htake, hhandle⟩ := Option.bind_eq_some_iff.mp hstep
        obtain ⟨result, hresult, rfl⟩ := Option.map_eq_some_iff.mp hhandle
        obtain ⟨s', rfl, halike⟩ := handleTimer_spec htake hresult
        exact ScanEffect.of_alike halike trivial
    | statisticsFailure i => exact statisticsFailure_effect hstep
    | statisticsSuccess i status => exact statisticsSuccess_effect hstep
    | updatesScanFailure i => exact updatesScanFailure_effect hstep
    | updatesScanSuccess i status data lookupLast =>
        exact updatesScanSuccess_effect hstep
    | updateDownloadFailure i => exact updateDownloadFailure_effect hstep
    | updateDownloadSuccess i status imported =>
        exact updateDownloadSuccess_effect hstep
    | requestThrows i => exact requestThrows_effect hstep
    | handleStop i => exact handleStop_effect hstep
    | signal =>
        change (if _ then _ else _) = some s' at hstep
        split at hstep
        · cases hstep
        · obtain rfl := Option.some.inj hstep
          exact ScanEffect.of_alike ⟨rfl, rfl,
            IoService.standing_start isScan s.io .handleStop⟩ trivial
    | deliver i sender datagram => exact socketStep_effect hstep
    | fail i => exact socketStep_effect hstep
    | handleReceiveFrom i now lookup => exact handleReceiveFrom_effect hstep
    | readSend j => exact socketStep_effect hstep
    | handleSendTo j error => exact socketStep_effect hstep
  · cases hstep

/-- Either of the two operations, but not both, is the same as one of them. -/
theorem oneScan_iff : s.OneScan ↔
    (s.stopped = false → s.refused = false →
      s.io.standing isScan = 1) := by
  have hsum : s.io.standing isScan = s.scanTimers + s.scansInFlight := by
    apply IoService.standing_or
    intro kind hkind
    rw [of_decide_eq_true hkind]
    rfl
  unfold OneScan
  rw [hsum]
  constructor
  · intro h hstopped hrefused
    have := h hstopped hrefused
    omega
  · intro h hstopped hrefused
    have := h hstopped hrefused
    omega

end Steps

end PyzordDaemon

/-- Until it is stopped or refused, the daemon has one operation of the scan
loop pending throughout a run exactly if every scan is answered with a failure
or with a status of success and a listing that can be read, and no handler and
no client of a request throws. -/
theorem oneScan_always_iff (index : TimeIndex) (db : Database)
    (state : PyzordState) (events : List PyzordEvent) :
    (pyzordDaemonSystem index db state).Always PyzordDaemon.OneScan events ↔
      (pyzordDaemonSystem index db state).Each (fun s event =>
        s.stopped = false → s.refused = false →
          s.KeepsScanning index event) events := by
  apply StepSystem.always_iff_each (I := PyzordDaemon.OneScan)
  · exact PyzordDaemon.oneScan_iff.mpr fun _ _ => rfl
  · intro s s' event hone hguard hstep
    rw [PyzordDaemon.oneScan_iff] at hone ⊢
    intro hstopped hrefused
    rcases PyzordDaemon.step_effect hstep with
      ⟨-, hended, -⟩ | ⟨-, -, hended⟩ | ⟨hstopped', hrefused', hscans⟩
    · exact absurd hended (by simp [hstopped])
    · exact absurd hended (by simp [hrefused])
    · rw [hstopped'] at hstopped
      rw [hrefused'] at hrefused
      exact (hscans (hone hstopped hrefused)).1 (hguard hstopped hrefused)
  · exact fun s hone => hone
  · intro s s' event hone hstep hguard hone'
    rw [PyzordDaemon.oneScan_iff] at hone hone'
    have hbroken : s.stopped = false ∧ s.refused = false ∧
        ¬ s.KeepsScanning index event := by
      refine ⟨?_, ?_, ?_⟩
      · by_contra hstopped
        exact hguard fun h => absurd h hstopped
      · by_contra hrefused
        exact hguard fun _ h => absurd h hrefused
      · exact fun hkeeps => hguard fun _ _ => hkeeps
    obtain ⟨hstopped, hrefused, hloses⟩ := hbroken
    rcases PyzordDaemon.step_effect hstep with
      ⟨hkeeps, -⟩ | ⟨hkeeps, -⟩ | ⟨hstopped', hrefused', hscans⟩
    · exact hloses hkeeps
    · exact hloses hkeeps
    · have hnone := (hscans (hone hstopped hrefused)).2 hloses
      have hone := hone' (hstopped'.trans hstopped) (hrefused'.trans hrefused)
      omega

/-- The first scan is answered by a server that is out of order. -/
def scanIsUnavailable : List PyzordEvent :=
  [.expire 2, .handleTimer 2 [] 0, .updatesScanSuccess 2 503 [] true]

theorem oneScan_not_always :
    ¬ ∀ index db state events,
      (pyzordDaemonSystem index db state).Always PyzordDaemon.OneScan
        events := by
  intro h
  let state : PyzordState :=
    { request_statistics_ := .create 300 0, check_statistics_ := .create 300 0
      hit_statistics_ := .create 300 0 }
  let M := pyzordDaemonSystem TimeIndex.stable ∅ state
  have hends : (M.run scanIsUnavailable).any (fun s => ¬ s.OneScan) =
      true := by
    decide +kernel
  obtain ⟨s, hrun, hlost⟩ := (Option.any_eq_true _ _).mp hends
  have halways := h TimeIndex.stable ∅ state scanIsUnavailable
  exact of_decide_eq_true hlost
    (M.alwaysFrom_iff.mp halways scanIsUnavailable s List.prefix_rfl hrun)

end BohunoPyzord
