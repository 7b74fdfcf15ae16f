/-
How a client database gets back to the server.  Every lost connection should
lead to one later connect; the ping reader and the writer both react to the
same loss, and the second of them cancels the wait the first one armed.
-/
import BohunoPyzord.ClientDatabase

namespace BohunoPyzord

namespace ClientDatabase

/-! What each handler does to the attempts under way. -/

theorem handleConnect_false_attempts (d : ClientDatabase) :
    (d.handleConnect false).link.attempts = d.link.attempts ∧
      (d.handleConnect false).link.cancelled = d.link.cancelled := by
  cases hq : d.updates_ <;> simp [handleConnect, asyncWriteFront, hq]

theorem handleReadPing_false_attempts (d : ClientDatabase) :
    (d.handleReadPing false).link.attempts = d.link.attempts ∧
      (d.handleReadPing false).link.cancelled = d.link.cancelled :=
  ⟨rfl, rfl⟩

theorem writeUpdate_attempts (d : ClientDatabase) (u : Update) :
    (d.writeUpdate u).link.attempts = d.link.attempts ∧
      (d.writeUpdate u).link.cancelled = d.link.cancelled := by
  cases hc : d.connected_ <;> cases hq : d.updates_ <;>
    simp [writeUpdate, asyncWriteFront, hc, hq]

theorem handleWriteUpdate_false_attempts (d : ClientDatabase) :
    (d.handleWriteUpdate false).link.attempts = d.link.attempts ∧
      (d.handleWriteUpdate false).link.cancelled = d.link.cancelled := by
  cases hc : d.connected_ <;> cases hq : d.updates_.tail <;>
    simp [handleWriteUpdate, asyncWriteFront, hc, hq]

end ClientDatabase

namespace ClientRun

/-- At most one of an outstanding connect, an armed wait and an established
connection exists. -/
def SingleAttempt (s : ClientRun) : Prop := s.db.link.attempts ≤ 1

/-- A failed ping read or a failed write is handled only while no reconnect
is under way: no connect is outstanding and the timer is not armed. -/
def LossReportedOnce (s : ClientRun) : ClientEvent → Prop
  | .handleReadPing _ true => s.db.link.connects = [] ∧ s.db.link.armed = 0
  | .handleWriteUpdate _ true => s.db.link.connects = [] ∧ s.db.link.armed = 0
  | _ => True

/-- A failed ping read or a failed write is handled only while no connect is
outstanding, and the handler of a cancelled wait is not run. -/
def KeepsOne (s : ClientRun) : ClientEvent → Prop
  | .handleReadPing _ true => s.db.link.connects = []
  | .handleWriteUpdate _ true => s.db.link.connects = []
  | .timerCancelled => False
  | _ => True

/-- How many attempts a step leaves where there was one. -/
def attemptsAfter (s : ClientRun) : ClientEvent → Nat
  | .handleReadPing _ true => s.db.link.connects.length + 1
  | .handleWriteUpdate _ true => s.db.link.connects.length + 1
  | .timerCancelled => 2
  | _ => 1

variable {s s' : ClientRun} {event : ClientEvent}

theorem attemptsAfter_of_keepsOne (h : s.KeepsOne event) :
    s.attemptsAfter event = 1 := by
  unfold KeepsOne at h
  unfold attemptsAfter
  split at h
  · exact congrArg (·.length + 1) h
  · exact congrArg (·.length + 1) h
  · exact h.elim
  · rfl

theorem one_lt_attemptsAfter (h : ¬ s.KeepsOne event) :
    1 < s.attemptsAfter event := by
  unfold KeepsOne at h
  unfold attemptsAfter
  split at h
  · exact Nat.succ_lt_succ (List.length_pos_of_ne_nil h)
  · exact Nat.succ_lt_succ (List.length_pos_of_ne_nil h)
  · exact Nat.lt_succ_self 1
  · exact (h trivial).elim

/-- Closing the socket and waiting to connect again leaves the connects that
were outstanding and the wait. -/
theorem attempts_of_retry {l : AsyncLink Update} (d : ClientDatabase)
    (hlink : d.link = l.close.expiresFromNow.asyncWait)
    (hconnects : l.connects = s.db.link.connects) :
    d.link.attempts = s.db.link.connects.length + 1 := by
  rw [hlink, AsyncLink.attempts_retry, hconnects]

/-- One step from a state with one attempt. -/
theorem attempts_step (h : s.db.link.attempts = 1)
    (hstep : s.step event = some s') :
    s'.db.link.attempts = s.attemptsAfter event := by
  cases event with
  | writeUpdate u =>
      obtain rfl := Option.some.inj hstep
      exact (s.db.writeUpdate_attempts u).1.trans h
  | handleConnect i error =>
      obtain ⟨link, hlink, rfl⟩ := Option.map_eq_some_iff.mp hstep
      obtain ⟨hconnects, -, -, hone⟩ :=
        AsyncLink.attempts_completeConnect h.le hlink
      cases error with
      | false =>
          exact (ClientDatabase.handleConnect_false_attempts
            { s.db with link }).1.trans (hone rfl)
      | true =>
          have hretry := AsyncLink.attempts_retry link
          rw [hconnects] at hretry
          exact hretry
  | handleReadPing i error =>
      obtain ⟨link, hlink, rfl⟩ := Option.map_eq_some_iff.mp hstep
      obtain ⟨hattempts, -, hconnects, -⟩ :=
        AsyncLink.attempts_completeRead hlink
      cases error with
      | false =>
          exact (ClientDatabase.handleReadPing_false_attempts
            { s.db with link }).1.trans (hattempts.trans h)
      | true => exact attempts_of_retry _ rfl hconnects
  | handleWriteUpdate i error =>
      obtain ⟨⟨data, link⟩, hlink, rfl⟩ := Option.map_eq_some_iff.mp hstep
      obtain ⟨hattempts, -, hconnects, -⟩ :=
        AsyncLink.attempts_completeWrite hlink
      cases error with
      | false =>
          exact (ClientDatabase.handleWriteUpdate_false_attempts
            { s.db with link }).1.trans (hattempts.trans h)
      | true => exact attempts_of_retry _ rfl hconnects
  | timer =>
      obtain ⟨link, hlink, rfl⟩ := Option.map_eq_some_iff.mp hstep
      change link.asyncConnect.attempts = 1
      rw [AsyncLink.attempts_asyncConnect,
        (AsyncLink.attempts_expire hlink).1, h]
  | timerCancelled =>
      obtain ⟨link, hlink, rfl⟩ := Option.map_eq_some_iff.mp hstep
      obtain ⟨-, rfl⟩ := AsyncLink.runCancelled_eq_some hlink
      change AsyncLink.attempts (AsyncLink.asyncConnect _) = 2
      rw [AsyncLink.attempts_asyncConnect]
      exact congrArg (· + 1) h

theorem attempts_kept :
    clientSystem.Preserves (fun s => s.db.link.attempts = 1) KeepsOne :=
  fun h hguard hstep =>
    (attempts_step h hstep).trans (attemptsAfter_of_keepsOne hguard)

theorem attempts_broken (h : s.db.link.attempts = 1)
    (hstep : s.step event = some s') (hguard : ¬ s.KeepsOne event) :
    ¬ s'.SingleAttempt := by
  have hmore := one_lt_attemptsAfter hguard
  rw [← attempts_step h hstep] at hmore
  exact Nat.not_le_of_lt hmore

/-- Exactly one attempt exists and no cancelled wait has a handler to run. -/
structure AttemptInv (s : ClientRun) : Prop where
  attempts : s.db.link.attempts = 1
  cancelled : s.db.link.cancelled = 0

theorem AttemptInv.singleAttempt (h : s.AttemptInv) : s.SingleAttempt :=
  h.attempts.le

theorem attemptInv_init : clientSystem.init.AttemptInv := ⟨rfl, rfl⟩

/-- With no cancelled wait, a loss that is reported once keeps one attempt. -/
theorem AttemptInv.keepsOne (h : s.AttemptInv)
    (hguard : s.LossReportedOnce event) (hstep : s.step event = some s') :
    s.KeepsOne event := by
  cases event with
  | handleReadPing i error =>
      cases error with
      | false => trivial
      | true => exact hguard.1
  | handleWriteUpdate i error =>
      cases error with
      | false => trivial
      | true => exact hguard.1
  | timerCancelled =>
      obtain ⟨link, hlink, -⟩ := Option.map_eq_some_iff.mp hstep
      have hpos := (AsyncLink.runCancelled_eq_some hlink).1
      rw [h.cancelled] at hpos
      exact (Nat.lt_irrefl 0 hpos).elim
  | writeUpdate u => trivial
  | handleConnect i error => trivial
  | timer => trivial

/-- Only what re-arms an armed timer leaves a cancelled wait. -/
theorem AttemptInv.cancelled_step (h : s.AttemptInv)
    (hguard : s.LossReportedOnce event) (hstep : s.step event = some s') :
    s'.db.link.cancelled = 0 := by
  have hretry : ∀ {l : AsyncLink Update}, l.cancelled = s.db.link.cancelled →
      l.armed = 0 → l.close.expiresFromNow.asyncWait.cancelled = 0 := by
    intro l hcancelled harmed
    rw [AsyncLink.cancelled_retry, hcancelled, h.cancelled, harmed]
  cases event with
  | writeUpdate u =>
      obtain rfl := Option.some.inj hstep
      exact (s.db.writeUpdate_attempts u).2.trans h.cancelled
  | handleConnect i error =>
      obtain ⟨link, hlink, rfl⟩ := Option.map_eq_some_iff.mp hstep
      obtain ⟨-, harmed, hcancelled, -⟩ :=
        AsyncLink.attempts_completeConnect h.attempts.le hlink
      cases error with
      | false =>
          exact (ClientDatabase.handleConnect_false_attempts
            { s.db with link }).2.trans (hcancelled.trans h.cancelled)
      | true => exact hretry hcancelled harmed
  | handleReadPing i error =>
      obtain ⟨link, hlink, rfl⟩ := Option.map_eq_some_iff.mp hstep
      obtain ⟨-, hcancelled, -, harmed⟩ :=
        AsyncLink.attempts_completeRead hlink
      cases error with
      | false =>
          exact (ClientDatabase.handleReadPing_false_attempts
            { s.db with link }).2.trans (hcancelled.trans h.cancelled)
      | true => exact hretry hcancelled (harmed.trans hguard.2)
  | handleWriteUpdate i error =>
      obtain ⟨⟨data, link⟩, hlink, rfl⟩ := Option.map_eq_some_iff.mp hstep
      obtain ⟨-, hcancelled, -, harmed⟩ :=
        AsyncLink.attempts_completeWrite hlink
      cases error with
      | false =>
          exact (ClientDatabase.handleWriteUpdate_false_attempts
            { s.db with link }).2.trans (hcancelled.trans h.cancelled)
      | true => exact hretry hcancelled (harmed.trans hguard.2)
  | timer =>
      obtain ⟨link, hlink, rfl⟩ := Option.map_eq_some_iff.mp hstep
      exact (AsyncLink.attempts_expire hlink).2.trans h.cancelled
  | timerCancelled => exact (h.keepsOne hguard hstep).elim

/-- One step: as long as each loss is reported once, exactly one attempt
exists. -/
theorem attemptInv_step :
    clientSystem.Preserves AttemptInv LossReportedOnce := by
  intro s s' event h hguard hstep
  refine ⟨?_, h.cancelled_step hguard hstep⟩
  rw [attempts_step h.attempts hstep]
  exact attemptsAfter_of_keepsOne (h.keepsOne hguard hstep)

/-- After a second report of a loss either two attempts exist at once, or a
cancelled wait is left behind the armed one. -/
theorem retry_of_second_report (hstep : s.step event = some s')
    (hsecond : ¬ s.LossReportedOnce event) :
    1 < s'.db.link.attempts ∨
      s'.db.link.armed = 1 ∧ 0 < s'.db.link.cancelled := by
  have hreport : ∃ l : AsyncLink Update,
      s'.db.link = l.close.expiresFromNow.asyncWait ∧
        l.connects = s.db.link.connects ∧ l.armed = s.db.link.armed ∧
        ¬ (s.db.link.connects = [] ∧ s.db.link.armed = 0) := by
    cases event with
    | handleReadPing i error =>
        cases error with
        | false => exact (hsecond trivial).elim
        | true =>
            obtain ⟨link, hlink, rfl⟩ := Option.map_eq_some_iff.mp hstep
            obtain ⟨-, -, hconnects, harmed⟩ :=
              AsyncLink.attempts_completeRead hlink
            exact ⟨link, rfl, hconnects, harmed, hsecond⟩
    | handleWriteUpdate i error =>
        cases error with
        | false => exact (hsecond trivial).elim
        | true =>
            obtain ⟨⟨data, link⟩, hlink, rfl⟩ :=
              Option.map_eq_some_iff.mp hstep
            obtain ⟨-, -, hconnects, harmed⟩ :=
              AsyncLink.attempts_completeWrite hlink
            exact ⟨link, rfl, hconnects, harmed, hsecond⟩
    | writeUpdate u => exact (hsecond trivial).elim
    | handleConnect i error => exact (hsecond trivial).elim
    | timer => exact (hsecond trivial).elim
    | timerCancelled => exact (hsecond trivial).elim
  obtain ⟨l, hlink, hconnects, harmed, hunder⟩ := hreport
  rw [hlink]
  by_cases hnone : s.db.link.connects = []
  · right
    have hpos : 0 < s.db.link.armed :=
      Nat.pos_of_ne_zero fun hzero => hunder ⟨hnone, hzero⟩
    refine ⟨rfl, ?_⟩
    rw [AsyncLink.cancelled_retry, harmed]
    omega
  · left
    have hpos := List.length_pos_of_ne_nil hnone
    rw [AsyncLink.attempts_retry, hconnects]
    omega

/-- The handler of a wait cancelled behind an armed one starts a connect next
to it. -/
theorem not_singleAttempt_of_cancelled (harmed : s.db.link.armed = 1)
    (hcancelled : 0 < s.db.link.cancelled) :
    ¬ clientSystem.AlwaysFrom SingleAttempt s [.timerCancelled] := by
  intro halways
  have hlink : s.db.link.runCancelled =
      some { s.db.link with cancelled := s.db.link.cancelled - 1 } := by
    simp [AsyncLink.runCancelled, Nat.pos_iff_ne_zero.mp hcancelled]
  have hstep : clientSystem.step s .timerCancelled = some
      { s with db := ClientDatabase.connect { s.db with
        link := { s.db.link with
          cancelled := s.db.link.cancelled - 1 } } } := by
    change (s.db.link.runCancelled.map _) = _
    rw [hlink]
    rfl
  have hbad : SingleAttempt _ := halways.2 _ hstep
  change AsyncLink.attempts (AsyncLink.asyncConnect _) ≤ 1 at hbad
  rw [AsyncLink.attempts_asyncConnect, AsyncLink.attempts] at hbad
  dsimp only at hbad
  omega

end ClientRun

/-- At most one attempt exists in every state of a run exactly when no failed
read or write is handled while a connect is outstanding and no cancelled
wait's handler is run.  It is so as long as each loss of the connection is
reported by one handler only; the first loss that is reported while a
reconnect is under way breaks it at once, or as soon as the cancelled wait's
handler has run. -/
theorem client_singleAttempt (events : List ClientEvent) :
    (clientSystem.Always ClientRun.SingleAttempt events ↔
      clientSystem.Each ClientRun.KeepsOne events) ∧
    (clientSystem.Each ClientRun.LossReportedOnce events →
      clientSystem.Always ClientRun.SingleAttempt events) ∧
    ∀ event, clientSystem.Each ClientRun.LossReportedOnce events →
      ¬ clientSystem.Each ClientRun.LossReportedOnce (events ++ [event]) →
      ¬ clientSystem.Always ClientRun.SingleAttempt
        (events ++ [event, .timerCancelled]) := by
  refine ⟨clientSystem.always_iff_each ClientRun.attemptInv_init.attempts
      ClientRun.attempts_kept (fun _ h => h.le) ClientRun.attempts_broken
      events,
    clientSystem.alwaysFrom_of_eachFrom ClientRun.attemptInv_step
      (fun _ h => h.singleAttempt) ClientRun.attemptInv_init, ?_⟩
  intro event heach hbroken halways
  rw [StepSystem.Each, StepSystem.eachFrom_append] at hbroken
  push Not at hbroken
  obtain ⟨s, hrun, hlast⟩ := hbroken heach
  have hafter := halways.after clientSystem hrun
  simp only [StepSystem.EachFrom, not_forall] at hlast
  obtain ⟨s', hstep, hnot⟩ := hlast
  have hsecond : ¬ s.LossReportedOnce event := fun hguard =>
    hnot ⟨hguard, trivial⟩
  have hnext := hafter.2 s' hstep
  rcases ClientRun.retry_of_second_report hstep hsecond with
    htwo | ⟨harmed, hcancelled⟩
  · exact Nat.not_le_of_lt htwo hnext.head
  · exact ClientRun.not_singleAttempt_of_cancelled harmed hcancelled hnext

/-- The server goes away while an update is being written: the ping reader
arms the timer, the writer cancels that wait and arms another one, and the
cancelled wait's handler connects at once. -/
def lossReportedTwice : List ClientEvent :=
  [.handleConnect 0 false,
    .writeUpdate (Update.make ⟨Vector.replicate 20 1⟩ .report 7),
    .handleReadPing 0 true, .handleWriteUpdate 0 true, .timerCancelled]

theorem client_not_always_singleAttempt :
    ¬ ∀ events, clientSystem.Always ClientRun.SingleAttempt events := by
  intro h
  obtain ⟨s, hrun, hbad⟩ : ∃ s, clientSystem.run lossReportedTwice = some s ∧
      ¬ s.db.link.attempts ≤ 1 := ⟨_, rfl, by decide⟩
  exact hbad (clientSystem.alwaysFrom_iff.mp (h lossReportedTwice)
    lossReportedTwice s List.prefix_rfl hrun)

end BohunoPyzord
