/-
The four loops of the master.  A handler takes the operation of its loop and
is to start the next one on each of its ways out; an accept that fails and a
tick that cannot open `expire_status` return before they do.
-/
import BohunoPyzord.MasterDaemon

namespace BohunoPyzord

def MasterOperation.inLoop (loop : MasterLoop)
    (operation : MasterOperation) : Bool :=
  operation.loop = some loop

namespace MasterDaemon

/-- The operations of a loop that have not been cancelled. -/
def pendingOf (s : MasterDaemon) (loop : MasterLoop) : Nat :=
  s.io.standing (MasterOperation.inLoop loop)

/-- While the master runs, each loop has one operation pending. -/
def LoopsPending (s : MasterDaemon) : Prop :=
  s.running = true → ∀ loop, s.pendingOf loop = 1

/-- What a tick passes over that it would delete. -/
def FindsRecord (index : TimeIndex) (calls : Master.ExpireTickCalls)
    (now : Uint32) (s : MasterDaemon) : Prop :=
  calls.expire.txnBegin = true ∧ calls.expire.cursor = true ∧
    ∃ start, Master.updatedFrom calls s.status = some start ∧
      ∃ p ∈ (index.entriesFrom s.stored start.toNat).take calls.expire.gets,
        p.2.reportedOnce = true ∧ p.2.updated < now - Master.maxRecordAge

/-- The file `expire_status` can be read if it is there, and written if there
is something to write. -/
def OpensStatus (index : TimeIndex) (calls : Master.ExpireTickCalls)
    (now : Uint32) (s : MasterDaemon) : Prop :=
  (s.status.isSome = true → calls.openRead = true) ∧
    (s.FindsRecord index calls now → calls.openWrite = true)

/-- No accept comes to an error, and every tick, unless it throws, opens the
file that it is to open. -/
def KeepsLoops (index : TimeIndex) (s : MasterDaemon) (event : MasterEvent) :
    Prop :=
  match event with
  | .handleAccept _ error => error = false
  | .handleExpire i calls now =>
      calls.existsReturns = true →
        (∀ op ∈ s.io.operations[i]?, op.progress = .completed →
          s.OpensStatus index calls now)
  | _ => True

end MasterDaemon

namespace Master

/-- A tick counts nothing exactly if there is nothing for it to delete. -/
theorem counted_eq_nil_iff {index : TimeIndex} {calls : ExpireCalls}
    {stored : Database} {start updatedTo : Uint32} :
    counted index calls stored start updatedTo = [] ↔
      ∀ p ∈ (index.entriesFrom stored start.toNat).take calls.gets,
        p.2.reportedOnce = true → updatedTo ≤ p.2.updated := by
  have hordered : OrderedScan.Ordered stamp
      ((index.entriesFrom stored start.toNat).take calls.gets) :=
    List.Pairwise.sublist (List.take_sublist _ _)
      (index.ordered_entriesFrom stored _)
  exact OrderedScan.select_eq_nil_iff hordered (by decide)

/-- Nothing but `exists` throws out of a tick. -/
theorem isSome_handleExpire (index : TimeIndex) (calls : ExpireTickCalls)
    (now : Uint32) (stored : Database) (status : Option (List Byte)) :
    (handleExpire index calls now stored status).isSome =
      calls.existsReturns := by
  rw [handleExpire]
  cases calls.existsReturns with
  | false => rfl
  | true =>
      rw [if_neg (by decide)]
      cases updatedFrom calls status with
      | none => rfl
      | some start =>
          simp only
          cases expire index calls.expire stored start (now - maxRecordAge) with
          | none => rfl
          | some result =>
              dsimp only
              split_ifs <;> rfl

end Master

namespace MasterDaemon

section Loops

variable {index : TimeIndex} {s s' : MasterDaemon} {loop : MasterLoop}

/-- What `expire` returns for the number of deleted records says whether there
was one to find. -/
theorem findsRecord_iff {calls : Master.ExpireTickCalls} {now : Uint32}
    {start deleted updatedTo : Uint32} {stored : Database}
    (hstart : Master.updatedFrom calls s.status = some start)
    (hexpire : Master.expire index calls.expire s.stored start
      (now - Master.maxRecordAge) = some (deleted, updatedTo, stored)) :
    s.FindsRecord index calls now ↔ deleted ≠ 0 := by
  have hsome := Master.isSome_expire index calls.expire s.stored start
    (now - Master.maxRecordAge)
  rw [hexpire, Option.isSome_some, eq_comm, Bool.and_eq_true] at hsome
  have hzero : deleted = 0 ↔ Master.counted index calls.expire s.stored start
      (now - Master.maxRecordAge) = [] := by
    rw [← List.length_eq_zero_iff, ← (Master.expire_eq_some hexpire).1]
    exact BitVec.toNat_inj.symm
  rw [Ne, hzero, Master.counted_eq_nil_iff]
  constructor
  · rintro ⟨-, -, start', hstart', p, hp, honce, hlt⟩ hnone
    obtain rfl := Option.some.inj (hstart.symm.trans hstart')
    exact BitVec.not_le.mpr hlt (hnone p hp honce)
  · intro hfound
    push Not at hfound
    obtain ⟨p, hp, honce, hlt⟩ := hfound
    exact ⟨hsome.1, hsome.2, start, hstart, p, hp, honce,
      BitVec.not_le.mp hlt⟩

/-- A tick that does not throw schedules the next one exactly if it opens the
file that it is to open. -/
theorem scheduled_iff {calls : Master.ExpireTickCalls} {now : Uint32}
    {tick : Master.ExpireTick} (h : Master.handleExpire index calls now
      s.stored s.status = some tick) :
    tick.scheduled.isSome = true ↔ s.OpensStatus index calls now := by
  have hexists := Master.isSome_handleExpire index calls now s.stored s.status
  rw [h, Option.isSome_some, eq_comm] at hexists
  rw [Master.handleExpire, if_neg (by simp [hexists])] at h
  cases hstart : Master.updatedFrom calls s.status with
  | none =>
      rw [hstart] at h
      obtain rfl := Option.some.inj h
      refine iff_of_false (by simp) fun hopens => ?_
      unfold Master.updatedFrom at hstart
      cases hstatus : s.status with
      | none => simp [hstatus] at hstart
      | some bytes =>
          have hopen := hopens.1 (by simp [hstatus])
          simp [hstatus, hopen] at hstart
  | some start =>
      have hread : s.status.isSome = true → calls.openRead = true := by
        intro hsome
        by_contra hclosed
        obtain ⟨bytes, hbytes⟩ := Option.isSome_iff_exists.mp hsome
        simp [Master.updatedFrom, hbytes, hclosed] at hstart
      rw [hstart] at h
      simp only at h
      cases hexpire : Master.expire index calls.expire s.stored start
          (now - Master.maxRecordAge) with
      | none =>
          rw [hexpire] at h
          obtain rfl := Option.some.inj h
          refine iff_of_true rfl ⟨hread, fun hfinds => ?_⟩
          have hsome := Master.isSome_expire index calls.expire s.stored start
            (now - Master.maxRecordAge)
          rw [hexpire, hfinds.1, hfinds.2.1] at hsome
          cases hsome
      | some result =>
          obtain ⟨deleted, updatedTo, stored⟩ := result
          have hfinds := findsRecord_iff hstart hexpire
          rw [hexpire] at h
          simp only at h
          unfold OpensStatus
          rw [hfinds]
          by_cases hzero : deleted ≠ 0
          · rw [if_pos hzero] at h
            by_cases hopen : calls.openWrite = true
            · rw [if_neg (by simp [hopen])] at h
              obtain rfl := Option.some.inj h
              refine iff_of_true ?_ ⟨hread, fun _ => hopen⟩
              dsimp only
              split <;> rfl
            · rw [if_pos (by simp [hopen])] at h
              obtain rfl := Option.some.inj h
              exact iff_of_false (by simp) fun hopens =>
                hopen (hopens.2 hzero)
          · rw [if_neg hzero] at h
            obtain rfl := Option.some.inj h
            exact iff_of_true rfl ⟨hread, fun hne => absurd hne hzero⟩

/-- The loops as they were. -/
def Untouched (s s' : MasterDaemon) : Prop :=
  ∀ loop, s'.pendingOf loop = s.pendingOf loop

theorem Untouched.trans {s'' : MasterDaemon} (first : Untouched s s')
    (second : Untouched s' s'') : Untouched s s'' :=
  fun loop => (second loop).trans (first loop)

/-- One loop has nothing pending, the others have. -/
def Lacks (s : MasterDaemon) (loop : MasterLoop) : Prop :=
  s.pendingOf loop = 0 ∧ ∀ other, other ≠ loop → s.pendingOf other = 1

theorem Lacks.of_untouched (h : s.Lacks loop) (hsame : Untouched s s') :
    s'.Lacks loop :=
  ⟨(hsame loop).trans h.1, fun other hother =>
    (hsame other).trans (h.2 other hother)⟩

theorem untouched_start (operation : MasterOperation)
    (h : operation.loop = none) :
    Untouched s { s with io := s.io.start operation } := by
  intro loop
  rw [pendingOf, IoService.standing_start, MasterOperation.inLoop, h]
  rfl

theorem standing_cancel_of_loop (io : IoService MasterOperation)
    {operation : MasterOperation} (h : operation.loop = none)
    (loop : MasterLoop) :
    (io.cancel (· = operation)).standing (MasterOperation.inLoop loop) =
      io.standing (MasterOperation.inLoop loop) := by
  apply IoService.standing_cancel_of_disjoint
  intro kind hkind
  rw [of_decide_eq_true hkind, MasterOperation.inLoop, h]
  rfl

theorem untouched_schedule (timer : MasterOperation)
    (h : timer.loop = none) : Untouched s (s.schedule timer) := by
  have hcancel : Untouched s { s with io := s.io.cancel (· = timer) } :=
    fun loop => standing_cancel_of_loop s.io h loop
  exact hcancel.trans (untouched_start timer h)

/-- Nothing that a loop waits for is taken off. -/
theorem untouched_take {i : Nat} {op : Operation MasterOperation}
    {io : IoService MasterOperation} (h : s.io.take i = some (op, io))
    (hop : op.kind.loop = none ∨ op.progress = .cancelled) :
    Untouched s { s with io } := by
  intro loop
  have hstands : ¬ IoService.Stands (MasterOperation.inLoop loop) op := by
    rintro ⟨hkind, hprogress⟩
    rcases hop with hnone | hcancelled
    · rw [MasterOperation.inLoop, hnone] at hkind
      cases hkind
    · exact hprogress hcancelled
  rw [pendingOf, pendingOf, IoService.standing_take _ h, if_neg hstands]
  rfl

theorem untouched_startSession (session : Nat) :
    Untouched s (s.startSession session) :=
  (untouched_start (.read session) rfl).trans
    (untouched_schedule (.pingTimer session) rfl)

theorem untouched_closeSession (session : Nat) :
    Untouched s (s.closeSession session) := by
  intro loop
  rw [pendingOf, closeSession, standing_cancel_of_loop _ rfl,
    standing_cancel_of_loop _ rfl, standing_cancel_of_loop _ rfl]
  rfl

/-- An operation that a loop waits for is taken off. -/
theorem lacks_of_take {i : Nat} {op : Operation MasterOperation}
    {io : IoService MasterOperation} (hall : ∀ loop, s.pendingOf loop = 1)
    (h : s.io.take i = some (op, io)) (hloop : op.kind.loop = some loop)
    (hprogress : op.progress ≠ .cancelled) : { s with io }.Lacks loop := by
  have htake : ∀ other, { s with io }.pendingOf other +
      (if other = loop then 1 else 0) = 1 := by
    intro other
    have hsum := IoService.standing_take (MasterOperation.inLoop other) h
    have hone := hall other
    rw [pendingOf, hsum] at hone
    by_cases hother : other = loop
    · rw [if_pos ⟨by simp [MasterOperation.inLoop, hloop, hother],
        hprogress⟩] at hone
      rwa [if_pos hother]
    · have hstands : ¬ IoService.Stands (MasterOperation.inLoop other) op := by
        rintro ⟨hkind, -⟩
        rw [MasterOperation.inLoop, hloop] at hkind
        exact hother (Option.some.inj (of_decide_eq_true hkind)).symm
      rw [if_neg hstands] at hone
      rwa [if_neg hother]
  constructor
  · have := htake loop
    rw [if_pos rfl] at this
    omega
  · intro other hother
    have := htake other
    rwa [if_neg hother] at this

/-- The operation that a loop lacks is started. -/
theorem pendingOf_start {operation : MasterOperation} (h : s.Lacks loop)
    (hloop : operation.loop = some loop) (other : MasterLoop) :
    { s with io := s.io.start operation }.pendingOf other = 1 := by
  rw [pendingOf, IoService.standing_start, MasterOperation.inLoop, hloop]
  change s.pendingOf other + _ = 1
  by_cases hother : loop = other
  · rw [← hother, h.1, if_pos (by simp)]
  · rw [h.2 other (Ne.symm hother), if_neg (by simp [hother])]

/-- A timer that nothing of the loop was pending for is scheduled. -/
theorem pendingOf_schedule_of_none {timer : MasterOperation} (h : s.pendingOf loop = 0)
    (hloop : timer.loop = some loop) :
    (s.schedule timer).pendingOf loop = 1 := by
  have hle := IoService.standing_cancel_le (MasterOperation.inLoop loop) s.io
    (· = timer)
  have hcancelled := Nat.le_zero.mp (hle.trans h.le)
  rw [pendingOf, schedule, IoService.standing_start, hcancelled,
    MasterOperation.inLoop, decide_eq_true hloop]
  rfl

theorem pendingOf_schedule (timer : MasterOperation) (h : s.Lacks loop)
    (hloop : timer.loop = some loop) (other : MasterLoop) :
    (s.schedule timer).pendingOf other = 1 := by
  by_cases hother : other = loop
  · rw [hother]
    exact pendingOf_schedule_of_none h.1 hloop
  · have hnot : MasterOperation.inLoop other timer = false := by
      simp [MasterOperation.inLoop, hloop, Ne.symm hother]
    rw [pendingOf, schedule, IoService.standing_start, hnot,
      IoService.standing_cancel_of_disjoint]
    · exact h.2 other hother
    · intro kind hkind
      exact of_decide_eq_true hkind ▸ hnot

theorem untouched_handleRead {session : Nat}
    {result : Option (DbCalls × Processed)}
    (h : s.handleRead session result = some s') : Untouched s s' := by
  cases result with
  | none =>
      obtain rfl := Option.some.inj h
      exact untouched_closeSession session
  | some read =>
      obtain ⟨stored, -, rfl⟩ := Option.map_eq_some_iff.mp h
      exact untouched_start (.read session) rfl

theorem untouched_writePing (session : Nat) :
    Untouched s (s.writePing session) := by
  unfold writePing
  split
  · exact fun _ => rfl
  · exact untouched_start (.writePing session) rfl

theorem untouched_handleWritePing (session : Nat) (error : Bool) :
    Untouched s (s.handleWritePing session error) := by
  unfold handleWritePing
  split
  · exact untouched_schedule (.pingTimer session) rfl
  · exact untouched_closeSession session

/-- What a step makes of the loops when `keeps` says whether it keeps them
going. -/
def LoopEffect (s' : MasterDaemon) (keeps : Prop) : Prop :=
  (keeps ∧ s'.LoopsPending) ∨
    (¬ keeps ∧ s'.running = true ∧ ∃ loop, s'.pendingOf loop = 0)

theorem loopEffect_of_untouched (hall : ∀ loop, s.pendingOf loop = 1)
    (h : Untouched s s') {keeps : Prop} (hkeeps : keeps) :
    LoopEffect s' keeps :=
  Or.inl ⟨hkeeps, fun _ loop => (h loop).trans (hall loop)⟩

/-- An accept starts the next one unless it came to an error. -/
theorem loopEffect_of_handleAccept {acceptor : Nat → MasterOperation}
    (h : s.Lacks loop) (hloop : ∀ n, (acceptor n).loop = some loop)
    (hrunning : s.running = true) (session : Nat) (error : Bool) :
    LoopEffect (handleAccept acceptor s session error) (error = false) := by
  cases error with
  | true => exact Or.inr ⟨Bool.noConfusion, hrunning, loop, h.1⟩
  | false =>
      refine Or.inl ⟨rfl, fun _ other => ?_⟩
      have hstarted := h.of_untouched (untouched_startSession session)
      exact pendingOf_start hstarted (hloop _) other

/-- The next tick is scheduled unless a file could not be opened. -/
theorem loopEffect_of_handleExpire {calls : Master.ExpireTickCalls}
    {now : Uint32} (h : s.Lacks .expire) (hrunning : s.running = true) :
    LoopEffect (s.finish (s.handleExpire index calls now false))
      (calls.existsReturns = true → s.OpensStatus index calls now) := by
  have hsome := Master.isSome_handleExpire index calls now s.stored s.status
  unfold handleExpire
  rw [Bool.not_false, if_pos rfl]
  cases htick : Master.handleExpire index calls now s.stored s.status with
  | none =>
      rw [htick] at hsome
      refine Or.inl ⟨fun hexists => ?_, fun hrun => by cases hrun⟩
      rw [← hsome] at hexists
      cases hexists
  | some tick =>
      rw [htick] at hsome
      have hscheduled := scheduled_iff htick
      by_cases hopens : s.OpensStatus index calls now
      · have hnext := hscheduled.mpr hopens
        refine Or.inl ⟨fun _ => hopens, fun _ other => ?_⟩
        simp only [finish, Option.map_some, Option.getD_some, hnext, ↓reduceIte]
        exact pendingOf_schedule (s := { s with
          stored := tick.stored, status := tick.status }) .expireTimer h rfl
          other
      · have hnone : tick.scheduled.isSome = false :=
          Bool.eq_false_iff.mpr fun hnext => hopens (hscheduled.mp hnext)
        refine Or.inr ⟨fun hkeeps => hopens (hkeeps hsome.symm), ?_⟩
        simp only [finish, Option.map_some, Option.getD_some, hnone,
          Bool.false_eq_true, ↓reduceIte]
        exact ⟨hrunning, .expire, h.1⟩

/-- What the handler of an operation makes of the loops. -/
theorem loopEffect_of_handle {event : MasterEvent} {i : Nat}
    {op : Operation MasterOperation} {io : IoService MasterOperation}
    {result : Option MasterDaemon} (hplace : place event = some i)
    (hall : ∀ loop, s.pendingOf loop = 1) (hrunning : s.running = true)
    (htake : s.io.take i = some (op, io))
    (h : { s with io }.handle index op event = some result) :
    LoopEffect ({ s with io }.finish result)
      (KeepsLoops index s event) := by
  cases event with
  | timeout j => cases hplace
  | stop => cases hplace
  | handleAccept j error =>
      obtain ⟨kind, progress⟩ := op
      cases progress with
      | outstanding =>
          cases kind with
          | localAccept session =>
              obtain rfl := Option.some.inj h
              have hlacks := lacks_of_take hall htake rfl (by simp)
              exact loopEffect_of_handleAccept hlacks (fun _ => rfl) hrunning
                session error
          | globalAccept session =>
              obtain rfl := Option.some.inj h
              have hlacks := lacks_of_take hall htake rfl (by simp)
              exact loopEffect_of_handleAccept hlacks (fun _ => rfl) hrunning
                session error
          | _ => cases h
      | completed => cases kind <;> cases h
      | cancelled => cases kind <;> cases h
  | handleCheckpoint j =>
      change (if _ then _ else none) = some result at h
      split at h
      · rename_i hop
        obtain rfl := Option.some.inj h
        by_cases hcancelled : op.progress = .cancelled
        · rw [handleCheckpoint, decide_eq_true hcancelled]
          exact loopEffect_of_untouched hall
            (untouched_take htake (Or.inr hcancelled)) trivial
        · have hlacks := lacks_of_take hall htake
            (by rw [hop.1]; rfl) hcancelled
          rw [handleCheckpoint, decide_eq_false hcancelled]
          exact Or.inl ⟨trivial, fun _ =>
            pendingOf_schedule .checkpointTimer hlacks rfl⟩
      · cases h
  | handleExpire j calls now =>
      obtain rfl := Option.some.inj hplace
      have hop := (IoService.take_eq_some htake).1
      change (if _ then _ else none) = some result at h
      split at h
      · rename_i hkind
        obtain rfl := Option.some.inj h
        by_cases hcancelled : op.progress = .cancelled
        · have hkeeps : KeepsLoops index s (.handleExpire j calls now) := by
            intro _ op' hop' hdone
            obtain rfl := Option.some.inj (hop.symm.trans hop')
            rw [hcancelled] at hdone
            cases hdone
          rw [handleExpire, decide_eq_true hcancelled]
          exact loopEffect_of_untouched hall
            (untouched_take htake (Or.inr hcancelled)) hkeeps
        · have hdone : op.progress = .completed := by
            cases hprogress : op.progress with
            | outstanding => exact absurd hprogress hkind.2
            | completed => rfl
            | cancelled => exact absurd hprogress hcancelled
          have hkeeps : KeepsLoops index s (.handleExpire j calls now) ↔
              (calls.existsReturns = true → s.OpensStatus index calls now) := by
            constructor
            · exact fun h hexists => h hexists op hop hdone
            · exact fun h hexists _ _ _ => h hexists
          have hlacks := lacks_of_take hall htake
            (by rw [hkind.1]; rfl) hcancelled
          rw [hkeeps, decide_eq_false hcancelled]
          exact loopEffect_of_handleExpire hlacks hrunning
      · cases h
  | handleRead j read =>
      obtain ⟨kind, progress⟩ := op
      cases kind with
      | read session =>
          have htaken := untouched_take htake (Or.inl rfl)
          rw [← Option.some.inj h]
          cases hread : { s with io }.handleRead session
              (if progress = Progress.cancelled then none else read) with
          | none => exact Or.inl ⟨trivial, fun hrun => by cases hrun⟩
          | some s' =>
              exact loopEffect_of_untouched hall
                (htaken.trans (untouched_handleRead hread)) trivial
      | _ => cases h
  | writePing j =>
      obtain ⟨kind, progress⟩ := op
      cases kind with
      | pingTimer session =>
          have htaken := untouched_take htake (Or.inl rfl)
          change (if _ then _ else none) = some result at h
          split at h
          · obtain rfl := Option.some.inj h
            exact loopEffect_of_untouched hall
              (htaken.trans (untouched_writePing session)) trivial
          · cases h
      | _ => cases h
  | handleWritePing j error =>
      obtain ⟨kind, progress⟩ := op
      cases kind with
      | writePing session =>
          have htaken := untouched_take htake (Or.inl rfl)
          obtain rfl := Option.some.inj h
          exact loopEffect_of_untouched hall
            (htaken.trans (untouched_handleWritePing session _)) trivial
      | _ => cases h

theorem step_loopEffect {event : MasterEvent} (hpending : s.LoopsPending)
    (hstep : s.step index event = some s') :
    LoopEffect s' (KeepsLoops index s event) := by
  unfold step at hstep
  split at hstep
  · rename_i hrunning
    have hall := hpending hrunning
    rcases perform_cases hstep with ⟨i, io, rfl, hio, rfl⟩ | ⟨rfl, rfl⟩ |
      ⟨i, op, io, result, hplace, htake, hresult, rfl⟩
    · exact loopEffect_of_untouched (s := s) hall
        (fun loop => IoService.standing_complete _ hio) trivial
    · exact Or.inl ⟨trivial, fun hrun => by cases hrun⟩
    · exact loopEffect_of_handle hplace hall hrunning htake hresult
  · cases hstep

end Loops

end MasterDaemon

/-- Each loop of a running master has one operation pending throughout a run
exactly if no accept comes to an error and every tick opens the file that it is
to open. -/
theorem loopsPending_always_iff (index : TimeIndex) (stored : Database)
    (status : Option (List Byte)) (events : List MasterEvent) :
    (masterDaemonSystem index stored status).Always
        MasterDaemon.LoopsPending events ↔
      (masterDaemonSystem index stored status).Each
        (MasterDaemon.KeepsLoops index) events := by
  apply StepSystem.always_iff_each (I := MasterDaemon.LoopsPending)
  · intro _ loop
    cases loop <;> rfl
  · intro s s' event hpending hkeeps hstep
    rcases MasterDaemon.step_loopEffect hpending hstep with
      ⟨-, hpending'⟩ | ⟨hloses, -⟩
    · exact hpending'
    · exact absurd hkeeps hloses
  · exact fun s hpending => hpending
  · intro s s' event hpending hstep hloses hpending'
    rcases MasterDaemon.step_loopEffect hpending hstep with
      ⟨hkeeps, -⟩ | ⟨-, hrunning, loop, hnone⟩
    · exact hloses hkeeps
    · have := hpending' hrunning loop
      omega

/-- The first accept comes to an error. -/
theorem loopsPending_not_always :
    ¬ ∀ index stored status events,
      (masterDaemonSystem index stored status).Always
        MasterDaemon.LoopsPending events := by
  intro h
  let M := masterDaemonSystem TimeIndex.stable ∅ none
  have hends : (M.run [.handleAccept 0 true]).any (fun s => s.running &&
      s.pendingOf .localAccept = 0) = true := by
    decide +kernel
  obtain ⟨s, hrun, hlost⟩ := (Option.any_eq_true _ _).mp hends
  rw [Bool.and_eq_true] at hlost
  have halways := h TimeIndex.stable ∅ none [.handleAccept 0 true]
  have hpending := M.alwaysFrom_iff.mp halways _ s List.prefix_rfl hrun
    hlost.1 .localAccept
  rw [of_decide_eq_true hlost.2] at hpending
  cases hpending

end BohunoPyzord
