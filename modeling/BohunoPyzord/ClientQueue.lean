/-
The order of the updates a client database writes.  The database runs a write
queue, and the queue is an ordered outbox exactly as long as no connect
succeeds while `connected_` still holds over a non-empty queue.
-/
import BohunoPyzord.ClientDatabase
import BohunoPyzord.WriteQueue

namespace BohunoPyzord

namespace ClientRun

/-- At most one write of the queue is outstanding, each successful write pops
the update it wrote, and the successful writes are a prefix of the updates
passed in. -/
def WritesInOrder (s : ClientRun) : Prop :=
  s.db.link.writing.length ≤ 1 ∧
    (∀ p ∈ s.popped, p.2 = some p.1) ∧ s.written <+: s.passed

instance (s : ClientRun) : Decidable s.WritesInOrder :=
  inferInstanceAs (Decidable (_ ∧ _ ∧ _))

/-- No connect succeeds while `connected_` is still set over a non-empty
queue. -/
def ConnectsUnqueued (s : ClientRun) : ClientEvent → Prop
  | .handleConnect _ false =>
      ¬ (s.db.connected_ = true ∧ s.db.updates_ ≠ [])
  | _ => True

/-- The write queue a client database runs. -/
def toQueue (s : ClientRun) : WriteQueue Update :=
  { items := s.db.updates_, connected := s.db.connected_,
    writing := s.db.link.writing, accepted := s.passed, popped := s.popped }

/-- An event as the write queue sees it. -/
def queueEvents : ClientEvent → List (WriteEvent Update)
  | .writeUpdate u => [.accept u]
  | .handleConnect _ false => [.connect]
  | .handleWriteUpdate i false => [.written i]
  | .handleWriteUpdate i true => [.failed i]
  | _ => []

theorem toQueue_inOrder (s : ClientRun) :
    s.toQueue.InOrder ↔ s.WritesInOrder := Iff.rfl

theorem toQueue_handleWriteUpdate {s : ClientRun}
    {link : AsyncLink Update} {i : Nat} {error : Bool} {data : Update}
    (hlink : s.db.link.completeWrite i error = some (data, link)) :
    s.toQueue.step (if error then .failed i else .written i) = some
      (toQueue { s with
        db := { s.db with link }.handleWriteUpdate error
        popped := if error then s.popped
          else s.popped ++ [(data, s.db.updates_.head?)] }) := by
  obtain ⟨hdata, hrest⟩ := AsyncLink.writing_completeWrite hlink
  cases error with
  | false =>
      cases hc : s.db.connected_ <;>
        simp [toQueue, WriteQueue.step, hdata, hrest, hc]
  | true => simp [toQueue, WriteQueue.step, hdata, hrest]

/-- Every event of the database does to its queue what it stands for there. -/
theorem simulates_writeQueue : clientSystem.Simulates
    (WriteQueue.system Update) toQueue queueEvents (fun _ => True)
    ConnectsUnqueued WriteQueue.ConnectsUnqueued := by
  intro s s' event _ hguard hstep
  change s.step event = some s' at hstep
  cases event with
  | writeUpdate u =>
      obtain rfl := Option.some.inj hstep
      refine StepSystem.matched_by_step _ ?_ trivial
      simp [toQueue, WriteQueue.system, WriteQueue.step]
  | handleConnect i error =>
      obtain ⟨link, hlink, rfl⟩ := Option.map_eq_some_iff.mp hstep
      have hwriting := AsyncLink.writing_completeConnect hlink
      cases error with
      | false =>
          refine StepSystem.matched_by_step _ ?_ hguard
          simp [toQueue, WriteQueue.system, WriteQueue.step, hwriting]
      | true => exact StepSystem.matched_by_none _ (by simp [toQueue, hwriting])
  | handleReadPing i error =>
      obtain ⟨link, hlink, rfl⟩ := Option.map_eq_some_iff.mp hstep
      have hwriting := AsyncLink.writing_completeRead hlink
      exact StepSystem.matched_by_none _ (by simp [toQueue, hwriting])
  | handleWriteUpdate i error =>
      obtain ⟨⟨data, link⟩, hlink, rfl⟩ := Option.map_eq_some_iff.mp hstep
      have hqueue := toQueue_handleWriteUpdate hlink
      cases error with
      | false => exact StepSystem.matched_by_step _ hqueue trivial
      | true => exact StepSystem.matched_by_step _ hqueue trivial
  | timer =>
      obtain ⟨link, hlink, rfl⟩ := Option.map_eq_some_iff.mp hstep
      have hwriting := AsyncLink.writing_expire hlink
      exact StepSystem.matched_by_none _ (by simp [toQueue, hwriting])
  | timerCancelled =>
      obtain ⟨link, hlink, rfl⟩ := Option.map_eq_some_iff.mp hstep
      have hwriting := AsyncLink.writing_runCancelled hlink
      exact StepSystem.matched_by_none _ (by simp [toQueue, hwriting])

/-- One step: outside a stale connect the queue keeps its invariant. -/
theorem queueInv_step :
    clientSystem.Preserves (fun s => True ∧ s.toQueue.Inv)
      ConnectsUnqueued :=
  simulates_writeQueue.preserves (fun _ _ _ => trivial) WriteQueue.inv_step

/-- A connect outside the guard starts a second write of the front. -/
theorem not_writesInOrder_of_stale_connect {s s' : ClientRun}
    {event : ClientEvent} (h : s.toQueue.Inv)
    (hstep : s.step event = some s')
    (hstale : ¬ s.ConnectsUnqueued event) : ¬ s'.WritesInOrder := by
  cases event with
  | handleConnect i error =>
      cases error with
      | true => exact (hstale trivial).elim
      | false =>
          obtain ⟨link, hlink, rfl⟩ := Option.map_eq_some_iff.mp hstep
          have hconnect : s.toQueue.step .connect = some (toQueue
              { s with db := { s.db with link }.handleConnect false }) := by
            simp [toQueue, WriteQueue.step,
              AsyncLink.writing_completeConnect hlink]
          exact WriteQueue.not_inOrder_of_stale_connect h hconnect hstale
  | writeUpdate u => exact (hstale trivial).elim
  | handleReadPing i error => exact (hstale trivial).elim
  | handleWriteUpdate i error => exact (hstale trivial).elim
  | timer => exact (hstale trivial).elim
  | timerCancelled => exact (hstale trivial).elim

end ClientRun

/-- The runs in which the queue is written in order are exactly the runs in
which no connect succeeds while `connected_` is still set over a non-empty
queue. -/
theorem client_writesInOrder_iff (events : List ClientEvent) :
    clientSystem.Always ClientRun.WritesInOrder events ↔
      clientSystem.Each ClientRun.ConnectsUnqueued events :=
  clientSystem.always_iff_each ⟨trivial, WriteQueue.inv_init⟩
    ClientRun.queueInv_step (fun s h => s.toQueue_inOrder.mp h.2.inOrder)
    (fun h hstep hstale =>
      ClientRun.not_writesInOrder_of_stale_connect h.2 hstep hstale) events

/-- In such a run the database is an ordered outbox: its history is that of
one with the same acceptances and deliveries. -/
theorem client_refines_outbox {events : List ClientEvent} {s : ClientRun}
    (heach : clientSystem.Each ClientRun.ConnectsUnqueued events)
    (hrun : clientSystem.run events = some s) :
    (Outbox.system Update).run
        ((events.flatMap ClientRun.queueEvents).flatMap
          WriteQueue.outboxActions) =
        some ⟨s.passed, s.written⟩ ∧
      s.written <+: s.passed := by
  obtain ⟨hqueue, heachQueue⟩ := ClientRun.simulates_writeQueue.run
    (fun _ _ _ => trivial) trivial rfl heach hrun
  exact WriteQueue.refines_outbox heachQueue hqueue

/-- The server closes an idle connection: `handleReadPing` leaves
`connected_` set, so a report submitted during the reconnect starts a write,
the connect starts a second one, and their completions pop two updates. -/
def staleConnect : List ClientEvent :=
  [.handleConnect 0 false, .handleReadPing 0 true, .timer,
    .writeUpdate (Update.make ⟨Vector.replicate 20 1⟩ .report 7),
    .handleConnect 0 false,
    .writeUpdate (Update.make ⟨Vector.replicate 20 2⟩ .report 8),
    .handleWriteUpdate 0 false, .handleWriteUpdate 0 false]

theorem client_not_always_writesInOrder :
    ¬ ∀ events, clientSystem.Always ClientRun.WritesInOrder events := by
  intro h
  obtain ⟨s, hrun, hbad⟩ : ∃ s, clientSystem.run staleConnect = some s ∧
      ¬ (∀ p ∈ s.popped, p.2 = some p.1) := ⟨_, rfl, by decide⟩
  have hend := clientSystem.alwaysFrom_iff.mp (h staleConnect)
    staleConnect s List.prefix_rfl hrun
  exact hbad hend.2.1

end BohunoPyzord
