/-
The expiry in the whole of the master.  Whatever its acceptors and sessions do
besides, `signatures.db` and `expire_status` go through a history of ticks and
updates.
-/
import BohunoPyzord.ExpireResume
import BohunoPyzord.MasterLoops

namespace BohunoPyzord

/-- The timer is all there is of the last loop. -/
theorem MasterOperation.inLoop_expire {operation : MasterOperation} :
    operation.inLoop .expire = true ↔ operation = .expireTimer := by
  cases operation <;> simp [inLoop, loop]

open StepSystem (reaches_self reaches_of_step)

namespace MasterDaemon

/-- As long as it runs the master is where a history of ticks is; a tick that is
pending is due there. -/
def Tracks (s : MasterDaemon) (e : Master.ExpireRun) : Prop :=
  s.running = true → e.stored = s.stored ∧ e.status = s.status ∧
    s.pendingOf .expire ≤ e.scheduled.toNat

/-- Nothing of the expiry changes. -/
structure Stays (s s' : MasterDaemon) : Prop where
  stored : s'.stored = s.stored
  status : s'.status = s.status
  pending : s'.pendingOf .expire = s.pendingOf .expire

section Following

variable {index : TimeIndex} {stored : Database} {status : Option (List Byte)}
  {s s' : MasterDaemon} {e : Master.ExpireRun}

theorem Stays.trans {s'' : MasterDaemon} (first : Stays s s')
    (second : Stays s' s'') : Stays s s'' where
  stored := second.stored.trans first.stored
  status := second.status.trans first.status
  pending := second.pending.trans first.pending

theorem Tracks.of_stays (h : s.Tracks e) (hrunning : s.running = true)
    (hstays : Stays s s') : s'.Tracks e := by
  intro _
  obtain ⟨hstored, hstatus, hpending⟩ := h hrunning
  exact ⟨hstored.trans hstays.stored.symm, hstatus.trans hstays.status.symm,
    hstays.pending.le.trans hpending⟩

theorem reaches_of_stays (h : s.Tracks e) (hrunning : s.running = true)
    (hstays : Stays s s') :
    (Master.expireSystem index stored status).Reaches s'.Tracks e :=
  reaches_self _ (h.of_stays hrunning hstays)

/-- Nothing is said of a master that an exception has ended. -/
theorem reaches_finish {result : Option MasterDaemon}
    (h : ∀ s' ∈ result,
      (Master.expireSystem index stored status).Reaches s'.Tracks e) :
    (Master.expireSystem index stored status).Reaches
      (s.finish result).Tracks e := by
  cases result with
  | none => exact reaches_self _ fun hrunning => by cases hrunning
  | some s' => exact h s' rfl

/-- An accept, whatever it comes to. -/
theorem stays_handleAccept {acceptor : Nat → MasterOperation}
    (hacceptor : ∀ n, acceptor n ≠ .expireTimer) (session : Nat)
    (error : Bool) : Stays s (handleAccept acceptor s session error) := by
  cases error with
  | true => exact ⟨rfl, rfl, rfl⟩
  | false =>
      refine ⟨rfl, rfl, ?_⟩
      have hother : (acceptor s.sessions).inLoop .expire = false :=
        Bool.eq_false_iff.mpr fun hloop =>
          hacceptor _ (MasterOperation.inLoop_expire.mp hloop)
      change ((s.startSession session).io.start
        (acceptor s.sessions)).standing _ = _
      rw [IoService.standing_start, hother]
      exact untouched_startSession session .expire

theorem stays_scheduleCheckpoint : Stays s s.scheduleCheckpoint where
  stored := rfl
  status := rfl
  pending := by
    rw [pendingOf, scheduleCheckpoint, schedule, IoService.standing_start,
      IoService.standing_cancel_of_disjoint]
    · rfl
    · intro kind hkind
      rw [of_decide_eq_true hkind]
      rfl

/-- An operation of another loop is taken off, or one that was cancelled. -/
theorem stays_take {i : Nat} {op : Operation MasterOperation}
    {io : IoService MasterOperation} (h : s.io.take i = some (op, io))
    (hop : op.kind ≠ .expireTimer ∨ op.progress = .cancelled) :
    Stays s { s with io } where
  stored := rfl
  status := rfl
  pending := by
    have hstands :
        ¬ IoService.Stands (MasterOperation.inLoop .expire) op := by
      rintro ⟨hkind, hprogress⟩
      rcases hop with hother | hcancelled
      · exact hother (MasterOperation.inLoop_expire.mp hkind)
      · exact hprogress hcancelled
    rw [pendingOf, pendingOf, IoService.standing_take _ h, if_neg hstands]
    rfl

/-- The tick that is pending is one of the history. -/
theorem reaches_of_tick {i : Nat} {op : Operation MasterOperation}
    {io : IoService MasterOperation} {calls : Master.ExpireTickCalls}
    {now : Uint32} (h : s.Tracks e) (hrunning : s.running = true)
    (htake : s.io.take i = some (op, io)) (hkind : op.kind = .expireTimer)
    (hprogress : op.progress ≠ .cancelled) :
    ∀ s' ∈ { s with io }.handleExpire index calls now false,
      (Master.expireSystem index stored status).Reaches s'.Tracks e := by
  obtain ⟨hstored, hstatus, hpending⟩ := h hrunning
  have hstands : IoService.Stands (MasterOperation.inLoop .expire) op :=
    ⟨by rw [hkind]; rfl, hprogress⟩
  have hone : s.pendingOf .expire = { s with io }.pendingOf .expire + 1 := by
    have hsum := IoService.standing_take (MasterOperation.inLoop .expire) htake
    rwa [if_pos hstands] at hsum
  have hle := Bool.toNat_le e.scheduled
  have hscheduled : e.scheduled = true := Bool.toNat_eq_one.mp (by omega)
  have hnone : { s with io }.pendingOf .expire = 0 := by omega
  intro s' hs'
  obtain ⟨tick, htick, rfl⟩ := Option.map_eq_some_iff.mp hs'
  apply reaches_of_step _ (.tick calls now) (if_pos hscheduled)
  intro _
  rw [Master.ExpireRun.tick, hstored, hstatus, htick]
  dsimp only
  split_ifs with hnext
  · refine ⟨rfl, rfl, ?_⟩
    rw [hnext]
    exact (pendingOf_schedule_of_none (s := { s with
      stored := tick.stored, status := tick.status, io }) hnone rfl).le
  · exact ⟨rfl, rfl, hnone.le.trans (Nat.zero_le _)⟩

/-- What a session reads is processed. -/
theorem reaches_of_handleRead {session : Nat}
    {read : Option (DbCalls × Processed)} (h : s.Tracks e)
    (hrunning : s.running = true) :
    ∀ s' ∈ s.handleRead session read,
      (Master.expireSystem index stored status).Reaches s'.Tracks e := by
  intro s' hs'
  cases read with
  | none =>
      obtain rfl := Option.some.inj hs'
      exact reaches_of_stays h hrunning
        ⟨rfl, rfl, untouched_closeSession session .expire⟩
  | some result =>
      obtain ⟨calls, p⟩ := result
      obtain ⟨processed, hprocessed, rfl⟩ := Option.map_eq_some_iff.mp hs'
      obtain ⟨hstored, hstatus, hpending⟩ := h hrunning
      apply reaches_of_step _ (.process calls p) rfl
      intro _
      refine ⟨?_, hstatus, ?_⟩
      · rw [Master.ExpireRun.process, hstored, hprocessed]
        rfl
      · exact (untouched_start (.read session) rfl .expire).le.trans hpending

/-- Whatever a handler of the master does, the history can follow. -/
theorem reaches_of_handle {event : MasterEvent} {i : Nat}
    {op : Operation MasterOperation} {io : IoService MasterOperation}
    {result : Option MasterDaemon} (h : s.Tracks e)
    (hrunning : s.running = true) (htake : s.io.take i = some (op, io))
    (hhandle : { s with io }.handle index op event = some result) :
    ∀ s' ∈ result,
      (Master.expireSystem index stored status).Reaches s'.Tracks e := by
  have hreached : ∀ {s'}, Stays s s' →
      ∀ s'' ∈ some s',
        (Master.expireSystem index stored status).Reaches s''.Tracks e := by
    intro s' hstays s'' hs''
    obtain rfl := Option.some.inj hs''
    exact reaches_of_stays h hrunning hstays
  cases event with
  | timeout j => cases hhandle
  | stop => cases hhandle
  | handleAccept j error =>
      obtain ⟨kind, progress⟩ := op
      cases progress with
      | outstanding =>
          cases kind with
          | localAccept session =>
              obtain rfl := Option.some.inj hhandle
              exact hreached ((stays_take htake (Or.inl (by simp))).trans
                (stays_handleAccept (by simp) session error))
          | globalAccept session =>
              obtain rfl := Option.some.inj hhandle
              exact hreached ((stays_take htake (Or.inl (by simp))).trans
                (stays_handleAccept (by simp) session error))
          | _ => cases hhandle
      | completed => cases kind <;> cases hhandle
      | cancelled => cases kind <;> cases hhandle
  | handleCheckpoint j =>
      change (if _ then _ else none) = some result at hhandle
      split_ifs at hhandle with hop
      obtain rfl := Option.some.inj hhandle
      have htaken : Stays s { s with io } :=
        stays_take htake (Or.inl (by simp [hop.1]))
      unfold handleCheckpoint
      split_ifs
      · exact hreached (htaken.trans stays_scheduleCheckpoint)
      · exact hreached htaken
  | handleExpire j calls now =>
      change (if _ then _ else none) = some result at hhandle
      split_ifs at hhandle with hop
      obtain rfl := Option.some.inj hhandle
      by_cases hcancelled : op.progress = .cancelled
      · rw [decide_eq_true hcancelled]
        exact hreached (stays_take htake (Or.inr hcancelled))
      · rw [decide_eq_false hcancelled]
        exact reaches_of_tick h hrunning htake hop.1 hcancelled
  | handleRead j read =>
      obtain ⟨kind, progress⟩ := op
      cases kind with
      | read session =>
          obtain rfl := Option.some.inj hhandle
          have htaken : Stays s { s with io } :=
            stays_take htake (Or.inl (by simp))
          exact reaches_of_handleRead (h.of_stays hrunning htaken) hrunning
      | _ => cases hhandle
  | writePing j =>
      obtain ⟨kind, progress⟩ := op
      cases kind with
      | pingTimer session =>
          change (if _ then _ else none) = some result at hhandle
          split_ifs at hhandle
          obtain rfl := Option.some.inj hhandle
          have htaken : Stays s { s with io } :=
            stays_take htake (Or.inl (by simp))
          refine hreached (htaken.trans
            ⟨?_, ?_, untouched_writePing session .expire⟩)
          · unfold writePing
            split <;> rfl
          · unfold writePing
            split <;> rfl
      | _ => cases hhandle
  | handleWritePing j error =>
      obtain ⟨kind, progress⟩ := op
      cases kind with
      | writePing session =>
          obtain rfl := Option.some.inj hhandle
          have htaken : Stays s { s with io } :=
            stays_take htake (Or.inl (by simp))
          refine hreached (htaken.trans
            ⟨?_, ?_, untouched_handleWritePing session _ .expire⟩)
          · unfold handleWritePing
            split <;> rfl
          · unfold handleWritePing
            split <;> rfl
      | _ => cases hhandle

/-- The history follows the master. -/
theorem followedBy_expire :
    (masterDaemonSystem index stored status).FollowedBy
      (Master.expireSystem index stored status) Tracks := by
  intro s s' e event h hstep
  change (if s.running then s.perform index event else none) = some s' at hstep
  split_ifs at hstep with hrunning
  rcases perform_cases hstep with ⟨i, io, rfl, hio, rfl⟩ | ⟨rfl, rfl⟩ |
    ⟨i, op, io, result, -, htake, hresult, rfl⟩
  · exact reaches_of_stays h hrunning
      ⟨rfl, rfl, IoService.standing_complete _ hio⟩
  · exact reaches_self _ fun hstopped => by cases hstopped
  · exact reaches_finish (reaches_of_handle h hrunning htake hresult)

end Following

end MasterDaemon

/-- What a run of the master makes of its database and of `expire_status` is
made of them by ticks and updates alone. -/
theorem master_refines_expire {index : TimeIndex} {stored : Database}
    {status : Option (List Byte)} {events : List MasterEvent}
    {s : MasterDaemon}
    (hrun : (masterDaemonSystem index stored status).run events = some s) :
    ∃ events' e, (Master.expireSystem index stored status).run events' =
      some e ∧ s.Tracks e := by
  obtain ⟨events', e, hrun', htracks⟩ := MasterDaemon.followedBy_expire.runFrom
    (t := { stored, status, scheduled := true, lastTick := none, left := [] })
    (fun _ => ⟨rfl, rfl, Nat.le_of_eq rfl⟩) hrun
  exact ⟨.start :: events', e, hrun', htracks⟩

end BohunoPyzord
