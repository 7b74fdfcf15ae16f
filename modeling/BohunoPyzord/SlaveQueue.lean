/-
The slave's queue, its one write and its one connection attempt.  Unlike the
client database the slave clears `connected_` on every path that closes the
socket, so it runs its write queue inside the guard without conditions.
-/
import BohunoPyzord.Slave
import BohunoPyzord.WriteQueue

namespace BohunoPyzord

namespace Slave

/-! What each handler does to the connection and the timer. -/

theorem asyncWriteFront_link (d : Slave) :
    d.asyncWriteFront.link.attempts = d.link.attempts ∧
      d.asyncWriteFront.link.cancelled = d.link.cancelled ∧
      d.asyncWriteFront.link.socket = d.link.socket := by
  cases hq : d.update_queue_ <;> simp [asyncWriteFront, hq, AsyncLink.asyncWrite,
    AsyncLink.attempts]

theorem handleConnect_false_link (d : Slave) :
    (d.handleConnect false).link.attempts = d.link.attempts ∧
      (d.handleConnect false).link.cancelled = d.link.cancelled ∧
      (d.handleConnect false).link.socket = d.link.socket := by
  simp only [handleConnect, Bool.not_false, ↓reduceIte]
  split
  · exact asyncWriteFront_link _
  · exact ⟨rfl, rfl, rfl⟩

theorem writeUpdate_link (d : Slave) (u : Update) :
    (d.writeUpdate u).link.attempts = d.link.attempts ∧
      (d.writeUpdate u).link.cancelled = d.link.cancelled ∧
      (d.writeUpdate u).link.socket = d.link.socket := by
  simp only [writeUpdate]
  split
  · exact asyncWriteFront_link _
  · exact ⟨rfl, rfl, rfl⟩

theorem handleWriteUpdate_false_link (d : Slave) :
    (d.handleWriteUpdate false).link.attempts = d.link.attempts ∧
      (d.handleWriteUpdate false).link.cancelled = d.link.cancelled ∧
      (d.handleWriteUpdate false).link.socket = d.link.socket := by
  simp only [handleWriteUpdate, Bool.not_false, ↓reduceIte]
  split
  · exact asyncWriteFront_link _
  · exact ⟨rfl, rfl, rfl⟩

theorem handleConnect_true_link (d : Slave) :
    (d.handleConnect true).link = d.link.close.expiresFromNow.asyncWait := rfl

theorem handleWriteUpdate_true_link (d : Slave) :
    (d.handleWriteUpdate true).link =
      d.link.close.expiresFromNow.asyncWait := rfl

end Slave

namespace SlaveRun

/-- What holds of the slave between any two handlers: one of a connect, an
armed wait and a connection exists, `connected_` says when it is the last, the
front of the queue is being written exactly while connected, and nothing that
was passed in is lost, repeated or reordered. -/
structure Consistent (s : SlaveRun) : Prop where
  attempts : s.slave.link.attempts = 1
  cancelled : s.slave.link.cancelled = 0
  connected : s.slave.connected_ = true ↔ s.slave.link.socket = .established
  writing : s.slave.link.writing.length =
    if s.slave.connected_ = true ∧ s.slave.update_queue_ ≠ [] then 1 else 0
  passed : s.written ++ s.slave.update_queue_ = s.passed
  popped : ∀ p ∈ s.popped, p.2 = some p.1

/-- The write queue a slave runs. -/
def toQueue (s : SlaveRun) : WriteQueue Update :=
  { items := s.slave.update_queue_, connected := s.slave.connected_,
    writing := s.slave.link.writing, accepted := s.passed,
    popped := s.popped }

/-- An event as the write queue sees it.  A failed connect and a failed write
both take the connection down. -/
def queueEvents : SlaveEvent → List (WriteEvent Update)
  | .sessionHandleRead _ (some u) => [.accept u]
  | .handleConnect _ false => [.connect]
  | .handleWriteUpdate i false => [.written i]
  | .handleWriteUpdate i true => [.failed i]
  | _ => []

/-- One of a connect, a wait and a connection exists, and `connected_` is set
exactly when it is the connection. -/
structure LinkInv (s : SlaveRun) : Prop where
  attempts : s.slave.link.attempts = 1
  cancelled : s.slave.link.cancelled = 0
  connected : s.slave.connected_ = true ↔ s.slave.link.socket = .established

structure Inv (s : SlaveRun) : Prop extends LinkInv s where
  queue : s.toQueue.Inv

theorem Inv.consistent {s : SlaveRun} (h : s.Inv) : s.Consistent where
  attempts := h.attempts
  cancelled := h.cancelled
  connected := h.connected
  writing := by
    have hwriting : s.slave.link.writing =
      if s.slave.connected_ then s.slave.update_queue_.take 1 else [] :=
        h.queue.writing
    rw [hwriting]
    cases s.slave.connected_ <;> cases s.slave.update_queue_ <;> simp
  passed := h.queue.accepted
  popped := h.queue.popped

theorem inv_init : slaveSystem.init.Inv where
  attempts := rfl
  cancelled := rfl
  connected := by decide
  queue := WriteQueue.inv_init

/-- While a connect is outstanding there is no connection. -/
theorem LinkInv.not_connected {s : SlaveRun} (h : s.LinkInv)
    {link : AsyncLink Update} {i : Nat} {error : Bool}
    (hlink : s.slave.link.completeConnect i error = some link) :
    s.slave.connected_ = false := by
  obtain ⟨hi, -⟩ := AsyncLink.completeConnect_eq_some hlink
  have hattempts := h.attempts
  unfold AsyncLink.attempts at hattempts
  have hnot : ¬ s.slave.link.socket = .established := by
    intro hsocket
    rw [if_pos hsocket] at hattempts
    omega
  exact Bool.eq_false_iff.mpr fun hc => hnot (h.connected.mp hc)

/-- Over a connection nothing else is under way. -/
theorem LinkInv.of_connected {s : SlaveRun} (h : s.LinkInv)
    (hc : s.slave.connected_ = true) :
    s.slave.link.connects = [] ∧ s.slave.link.armed = 0 := by
  have hattempts := h.attempts
  unfold AsyncLink.attempts at hattempts
  rw [if_pos (h.connected.mp hc)] at hattempts
  exact ⟨List.eq_nil_of_length_eq_zero (by omega), by omega⟩

theorem toQueue_handleWriteUpdate {s : SlaveRun}
    {link : AsyncLink Update} {i : Nat} {error : Bool} {data : Update}
    (hlink : s.slave.link.completeWrite i error = some (data, link)) :
    s.toQueue.step (if error then .failed i else .written i) = some
      (toQueue { s with
        slave := { s.slave with link }.handleWriteUpdate error
        popped := if error then s.popped
          else s.popped ++ [(data, s.slave.update_queue_.head?)] }) := by
  obtain ⟨hdata, hrest⟩ := AsyncLink.writing_completeWrite hlink
  cases error with
  | false =>
      cases hc : s.slave.connected_ <;>
        simp [toQueue, WriteQueue.step, hdata, hrest, hc]
  | true => simp [toQueue, WriteQueue.step, hdata, hrest]

/-- Every event of the slave does to its queue what it stands for there, and
its connects come up over a connection that is down. -/
theorem simulates_writeQueue : slaveSystem.Simulates
    (WriteQueue.system Update) toQueue queueEvents Inv
    (fun _ _ => True) WriteQueue.ConnectsUnqueued := by
  intro s s' event h _ hstep
  change s.step event = some s' at hstep
  cases event with
  | handleAccept error =>
      simp only [step] at hstep
      split at hstep
      · obtain rfl := Option.some.inj hstep
        cases error <;> exact ⟨rfl, trivial⟩
      · cases hstep
  | sessionHandleRead k incoming =>
      simp only [step] at hstep
      split at hstep
      · obtain rfl := Option.some.inj hstep
        cases incoming with
        | none =>
            exact StepSystem.matched_by_none _
              (by simp [toQueue, Slave.sessionHandleRead])
        | some u =>
            refine StepSystem.matched_by_step _ ?_ trivial
            simp [toQueue, WriteQueue.system, WriteQueue.step,
              Slave.sessionHandleRead]
      · cases hstep
  | handleConnect i error =>
      obtain ⟨link, hlink, rfl⟩ := Option.map_eq_some_iff.mp hstep
      have hdown := h.toLinkInv.not_connected hlink
      have hwriting := AsyncLink.writing_completeConnect hlink
      cases error with
      | false =>
          refine StepSystem.matched_by_step _ ?_ ?_
          · simp [toQueue, WriteQueue.system, WriteQueue.step, hwriting]
          · simp [WriteQueue.ConnectsUnqueued, toQueue, hdown]
      | true =>
          exact StepSystem.matched_by_none _
            (by simp [toQueue, hwriting, hdown])
  | handleWriteUpdate i error =>
      obtain ⟨⟨data, link⟩, hlink, rfl⟩ := Option.map_eq_some_iff.mp hstep
      have hqueue := toQueue_handleWriteUpdate hlink
      cases error with
      | false => exact StepSystem.matched_by_step _ hqueue trivial
      | true => exact StepSystem.matched_by_step _ hqueue trivial
  | timer =>
      obtain ⟨link, hlink, rfl⟩ := Option.map_eq_some_iff.mp hstep
      have hwriting := AsyncLink.writing_expire hlink
      exact StepSystem.matched_by_none _ (by simp [toQueue, hwriting])
  | timerCancelled =>
      obtain ⟨link, hlink, rfl⟩ := Option.map_eq_some_iff.mp hstep
      have hwriting := AsyncLink.writing_runCancelled hlink
      exact StepSystem.matched_by_none _ (by simp [toQueue, hwriting])

/-- Closing the socket with nothing else under way leaves the one wait that
is armed next. -/
theorem LinkInv.of_retry {s : SlaveRun} {l : AsyncLink Update}
    (hlink : s.slave.link = l.close.expiresFromNow.asyncWait)
    (hdown : s.slave.connected_ = false) (hconnects : l.connects = [])
    (harmed : l.armed = 0) (hcancelled : l.cancelled = 0) : s.LinkInv where
  attempts := by rw [hlink, AsyncLink.attempts_retry, hconnects]; rfl
  cancelled := by rw [hlink, AsyncLink.cancelled_retry, hcancelled, harmed]
  connected := by
    rw [hlink, hdown]
    simp [AsyncLink.close, AsyncLink.expiresFromNow, AsyncLink.asyncWait]

/-- The handlers that leave the connection and the timer alone. -/
theorem LinkInv.frame {s s' : SlaveRun} (h : s.LinkInv)
    (hlink : s'.slave.link.attempts = s.slave.link.attempts ∧
      s'.slave.link.cancelled = s.slave.link.cancelled ∧
      s'.slave.link.socket = s.slave.link.socket)
    (hconnected : s'.slave.connected_ = s.slave.connected_) :
    s'.LinkInv := by
  obtain ⟨hattempts, hcancelled, hsocket⟩ := hlink
  refine ⟨hattempts.trans h.attempts, hcancelled.trans h.cancelled, ?_⟩
  rw [hconnected, hsocket]
  exact h.connected

theorem linkInv_handleConnect {s : SlaveRun} (h : s.LinkInv)
    {link : AsyncLink Update} {i : Nat} {error : Bool}
    (hlink : s.slave.link.completeConnect i error = some link) :
    LinkInv { s with
      slave := { s.slave with link }.handleConnect error } := by
  obtain ⟨hconnects, harmed, hcancelled, hone⟩ :=
    AsyncLink.attempts_completeConnect h.attempts.le hlink
  rw [h.cancelled] at hcancelled
  cases error with
  | false =>
      obtain ⟨hattempts, hkept, hsocket⟩ :=
        Slave.handleConnect_false_link { s.slave with link }
      refine ⟨hattempts.trans (hone rfl), hkept.trans hcancelled, ?_⟩
      rw [hsocket]
      obtain ⟨-, rfl⟩ := AsyncLink.completeConnect_eq_some hlink
      simp
  | true =>
      exact LinkInv.of_retry
        (Slave.handleConnect_true_link { s.slave with link })
        (by simp) hconnects harmed hcancelled

theorem linkInv_handleWriteUpdate {s s' : SlaveRun} (h : s.Inv)
    {link : AsyncLink Update} {i : Nat} {error : Bool} {data : Update}
    (hlink : s.slave.link.completeWrite i error = some (data, link))
    (hs' : s'.slave = { s.slave with link }.handleWriteUpdate error) :
    s'.LinkInv := by
  obtain ⟨hdata, -⟩ := AsyncLink.writing_completeWrite hlink
  obtain ⟨hconnected, -⟩ := h.queue.front hdata
  obtain ⟨hattempts, hcancelled, hconnects, harmed⟩ :=
    AsyncLink.attempts_completeWrite hlink
  cases error with
  | false =>
      obtain ⟨hkeep, hkept, hsocket⟩ :=
        Slave.handleWriteUpdate_false_link { s.slave with link }
      have hsame : link.socket = s.slave.link.socket := by
        obtain ⟨live, -, -, rfl⟩ := AsyncLink.completeWrite_eq_some hlink
        rfl
      refine h.toLinkInv.frame ?_ (by simp [hs'])
      rw [hs']
      exact ⟨hkeep.trans hattempts, hkept.trans hcancelled,
        hsocket.trans hsame⟩
  | true =>
      obtain ⟨hnone, hdisarmed⟩ := h.toLinkInv.of_connected hconnected
      refine LinkInv.of_retry ?_ (by simp [hs']) (hconnects.trans hnone)
        (harmed.trans hdisarmed) (hcancelled.trans h.cancelled)
      rw [hs']
      exact Slave.handleWriteUpdate_true_link { s.slave with link }

theorem linkInv_timer {s : SlaveRun} (h : s.LinkInv)
    {link : AsyncLink Update} (hlink : s.slave.link.expire = some link) :
    LinkInv { s with slave := { s.slave with link }.connect } := by
  obtain ⟨hattempts, hcancelled⟩ := AsyncLink.attempts_expire hlink
  obtain ⟨hpos, rfl⟩ := AsyncLink.expire_eq_some hlink
  refine ⟨?_, h.cancelled, ?_⟩
  · change (AsyncLink.asyncConnect _).attempts = 1
    rw [AsyncLink.attempts_asyncConnect, hattempts, h.attempts]
  · change s.slave.connected_ = true ↔
      (AsyncLink.asyncConnect _).socket = .established
    rw [h.connected]
    simp only [AsyncLink.asyncConnect]
    split <;> simp_all

/-- One step, whatever the outcome of the operations. -/
theorem inv_step : slaveSystem.Preserves Inv fun _ _ => True := by
  intro s s' event h hguard hstep
  obtain ⟨hqueue, heach⟩ := simulates_writeQueue h hguard hstep
  refine ⟨?_, (WriteQueue.system Update).runFrom_invariant_of_each
    WriteQueue.inv_step h.queue heach hqueue⟩
  change s.step event = some s' at hstep
  cases event with
  | handleAccept error =>
      simp only [step] at hstep
      split at hstep
      · obtain rfl := Option.some.inj hstep
        cases error <;> exact h.toLinkInv.frame ⟨rfl, rfl, rfl⟩ rfl
      · cases hstep
  | sessionHandleRead k incoming =>
      simp only [step] at hstep
      split at hstep
      · obtain rfl := Option.some.inj hstep
        cases incoming with
        | none => exact h.toLinkInv.frame ⟨rfl, rfl, rfl⟩ rfl
        | some u =>
            exact h.toLinkInv.frame (s.slave.writeUpdate_link u)
              (s.slave.writeUpdate_connected_ u)
      · cases hstep
  | handleConnect i error =>
      obtain ⟨link, hlink, rfl⟩ := Option.map_eq_some_iff.mp hstep
      exact linkInv_handleConnect h.toLinkInv hlink
  | handleWriteUpdate i error =>
      obtain ⟨⟨data, link⟩, hlink, rfl⟩ := Option.map_eq_some_iff.mp hstep
      exact linkInv_handleWriteUpdate h hlink rfl
  | timer =>
      obtain ⟨link, hlink, rfl⟩ := Option.map_eq_some_iff.mp hstep
      exact linkInv_timer h.toLinkInv hlink
  | timerCancelled =>
      obtain ⟨link, hlink, rfl⟩ := Option.map_eq_some_iff.mp hstep
      have hpos := (AsyncLink.runCancelled_eq_some hlink).1
      rw [h.cancelled] at hpos
      exact (Nat.lt_irrefl 0 hpos).elim

end SlaveRun

/-- In every state of every run one of an outstanding connect, an armed wait
and a connection exists, one write is outstanding exactly while connected over
a non-empty queue, and the successful writes followed by the queue are the
updates passed in. -/
theorem slave_consistent (events : List SlaveEvent) :
    slaveSystem.Always SlaveRun.Consistent events :=
  slaveSystem.always_of_invariant SlaveRun.inv_init SlaveRun.inv_step
    (fun _ h => h.consistent) events

/-- The slave is an ordered outbox, over every run. -/
theorem slave_refines_outbox {events : List SlaveEvent} {s : SlaveRun}
    (hrun : slaveSystem.run events = some s) :
    (Outbox.system Update).run
        ((events.flatMap SlaveRun.queueEvents).flatMap
          WriteQueue.outboxActions) =
        some ⟨s.passed, s.written⟩ ∧
      s.written <+: s.passed := by
  obtain ⟨hqueue, heach⟩ := SlaveRun.simulates_writeQueue.run
    SlaveRun.inv_step SlaveRun.inv_init rfl
    (slaveSystem.eachFrom_true _ events) hrun
  exact WriteQueue.refines_outbox heach hqueue

end BohunoPyzord
