/-
The daemon after `handle_stop`.  What is pending then has its handler run one
way or another; the service comes to an end if none of these handlers starts
anything.
-/
import BohunoPyzord.ScanLoop

namespace BohunoPyzord

/-- The events in which a handler is run. -/
def PyzordEvent.isHandler : PyzordEvent → Bool
  | .expire _ => false
  | .signal => false
  | .deliver _ _ _ => false
  | .fail _ => false
  | .readSend _ => false
  | _ => true

namespace PyzordDaemon

/-- How many operations have a handler that has yet to run. -/
def pending (s : PyzordDaemon) : Nat :=
  s.io.operations.length + s.server.socket_.receives.length +
    s.server.socket_.sends.length

/-- The handlers that an operation may cause to run once nothing is started
any more: its own, and that of the stop that is posted for a 401. -/
def handlers (op : Operation PyzordOperation) : Nat :=
  match op.kind with
  | .updatesScan => 2
  | .updateDownload _ => 2
  | _ => 1

/-- The same for all that is pending, with the reply to what was received and
the signal that may still come. -/
def work (s : PyzordDaemon) : Nat :=
  s.io.weight handlers + 2 * s.server.socket_.receives.length +
    s.server.socket_.sends.length + (!s.signalled).toNat

/-- A step after `handle_stop` has run arms no timer, starts no request and
does not receive again. -/
def StartsNothing (index : TimeIndex) (s : PyzordDaemon)
    (event : PyzordEvent) : Prop :=
  s.stopped = true → ∀ s' ∈ s.step index event, s'.started = s.started

/-- The handlers that start something whether the daemon is stopped or not
have no occasion to: that of a timer that had run out before it was cancelled,
of an answer to the statistics, of a scan that failed, and of a listing that
can be read. -/
def NothingToStart (index : TimeIndex) (s : PyzordDaemon)
    (event : PyzordEvent) : Prop :=
  match event with
  | .handleTimer i _ _ =>
      ∀ op ∈ s.io.operations[i]?, op.progress ≠ .completed
  | .statisticsFailure _ => False
  | .statisticsSuccess _ _ => False
  | .updatesScanFailure _ => False
  | .updatesScanSuccess _ status data lookupLast =>
      ¬ (200 ≤ status ∧ status ≤ 299 ∧ s.Readable index data lookupLast)
  | _ => True

/-- `handle_stop` leaves `shutdown_` set for the handlers to consult. -/
def ShutDown (s : PyzordDaemon) : Prop :=
  s.stopped = true → s.server.shutdown_ = true

end PyzordDaemon

/-- Nothing is started once `handle_stop` has run, and no more handlers run
than there is work left, counting those that are still pending. -/
def StopsQuietly (index : TimeIndex) (db : Database) (state : PyzordState)
    (events : List PyzordEvent) : Prop :=
  (pyzordDaemonSystem index db state).Each
      (PyzordDaemon.StartsNothing index) events ∧
    ∀ before after s s', events = before ++ after →
      (pyzordDaemonSystem index db state).run before = some s →
      s.stopped = true →
      (pyzordDaemonSystem index db state).runFrom s after = some s' →
      after.countP PyzordEvent.isHandler + s'.pending ≤ s.work

/-- A receive that is handled while the daemon shuts down may be answered, but
is not followed by another. -/
theorem UdpServer.handleReceiveFrom_of_shutdown {S : Type}
    (server : UdpServer S) (h : server.shutdown_ = true)
    (reply : Text → Endpoint → S → Reply S) (outcome : Option Nat) :
    (server.handleReceiveFrom reply outcome).1.shutdown_ = true ∧
      (server.handleReceiveFrom reply outcome).1.socket_.receives =
        server.socket_.receives ∧
      (server.handleReceiveFrom reply outcome).1.socket_.sends.length ≤
        server.socket_.sends.length + 1 := by
  have hnext : ∀ server' : UdpServer S, server'.shutdown_ = true →
      server'.receiveNext = server' := by
    intro server' hdown
    rw [receiveNext, hdown]
    rfl
  cases outcome with
  | none =>
      unfold handleReceiveFrom
      rw [hnext server h]
      exact ⟨h, rfl, Nat.le_succ _⟩
  | some n =>
      unfold handleReceiveFrom
      by_cases hn : n > 0
      · have hdown : (server.answer reply n).1.shutdown_ = true := by
          simp [answer, h]
        simp only [hn, ↓reduceIte]
        rw [hnext _ hdown]
        exact ⟨hdown, rfl, by simp [answer, DatagramSocket.asyncSendTo]⟩
      · simp only [hn, ↓reduceIte]
        rw [hnext server h]
        exact ⟨h, rfl, Nat.le_succ _⟩

namespace PyzordDaemon

theorem handlers_pos (op : Operation PyzordOperation) : 0 < handlers op := by
  unfold handlers
  split <;> decide

/-- What is pending is part of the work. -/
theorem pending_le_work (s : PyzordDaemon) : s.pending ≤ s.work := by
  have hlength : s.io.operations.length ≤ s.io.weight handlers := by
    rw [IoService.weight]
    induction s.io.operations with
    | nil => exact Nat.zero_le _
    | cons op operations ih =>
        have := handlers_pos op
        rw [List.map_cons, List.sum_cons, List.length_cons]
        omega
  unfold pending work
  omega

theorem work_take {s : PyzordDaemon} {i : Nat}
    {op : Operation PyzordOperation} {io : IoService PyzordOperation}
    (h : s.io.take i = some (op, io)) :
    { s with io }.work + handlers op = s.work := by
  have hweight := IoService.weight_take h handlers
  unfold work
  dsimp only
  omega

theorem work_terminated (s : PyzordDaemon) :
    s.terminated.work = (!s.signalled).toNat := by
  simp [work, terminated]

/-- The daemon stays stopped, starts nothing, and `n` handlers less are left
to run. -/
structure Winds (s s' : PyzordDaemon) (n : Nat) : Prop where
  stopped : s'.stopped = true
  shutdown : s'.server.shutdown_ = true
  started : s'.started = s.started
  work : s'.work + n ≤ s.work

/-- The daemon stays stopped, but something is started. -/
structure Restarts (s s' : PyzordDaemon) : Prop where
  stopped : s'.stopped = true
  shutdown : s'.server.shutdown_ = true
  started : s'.started ≠ s.started

section Stopped

variable {index : TimeIndex} {s s' : PyzordDaemon}

theorem Restarts.start (operation : PyzordOperation)
    (hsame : s'.started = s.started) (hstopped : s'.stopped = true)
    (hdown : s'.server.shutdown_ = true) : Restarts s (s'.start operation) where
  stopped := hstopped
  shutdown := hdown
  started := by simp [PyzordDaemon.start, hsame]

theorem startUpdateDownload_of_shutdown (hdown : s.server.shutdown_ = true) :
    s.startUpdateDownload = some s := by
  rw [startUpdateDownload, hdown]
  rfl

/-- An operation is taken off and its handler does not do anything. -/
theorem winds_of_take {i : Nat} {op : Operation PyzordOperation}
    {io : IoService PyzordOperation} (h : s.io.take i = some (op, io))
    (hstopped : s.stopped = true) (hdown : s.server.shutdown_ = true) :
    Winds s { s with io } (handlers op) where
  stopped := hstopped
  shutdown := hdown
  started := rfl
  work := (work_take h).le

/-- A handler throws. -/
theorem winds_of_terminated {i : Nat} {op : Operation PyzordOperation}
    {io : IoService PyzordOperation} (h : s.io.take i = some (op, io))
    (hstopped : s.stopped = true) (hdown : s.server.shutdown_ = true) :
    Winds s s.terminated (handlers op) where
  stopped := hstopped
  shutdown := hdown
  started := rfl
  work := by
    have hwork := work_take h
    rw [work_terminated]
    unfold PyzordDaemon.work at hwork ⊢
    dsimp only at hwork
    omega

theorem winds_of_handleTimer {i : Nat} {computerId : Text} {now : Readings}
    {op : Operation PyzordOperation} {io : IoService PyzordOperation}
    {result : Option PyzordDaemon} (htake : s.io.take i = some (op, io))
    (hstopped : s.stopped = true) (hdown : s.server.shutdown_ = true)
    (h : { s with io }.handleTimer computerId now op = some result) :
    (op.progress ≠ .completed ∧ Winds s (s.finish result) 1) ∨
      (op.progress = .completed ∧ Restarts s (s.finish result)) := by
  have hgone := winds_of_take htake hstopped hdown
  have hpos := handlers_pos op
  obtain ⟨s', rfl, hs'⟩ := handleTimer_cases h
  rcases hs' with ⟨hcancelled, -, rfl⟩ | ⟨state, url, rfl, rfl⟩ |
    ⟨rfl, rfl⟩ | ⟨rfl, rfl⟩
  · have hwork := hgone.work
    have hless : Winds s { s with io } 1 :=
      { hgone with work := by omega }
    exact Or.inl ⟨by simp [hcancelled], hless⟩
  · exact Or.inr ⟨rfl, Restarts.start (.statistics url) rfl hstopped hdown⟩
  · exact Or.inr ⟨rfl, Restarts.start .checkpointTimer rfl hstopped hdown⟩
  · exact Or.inr ⟨rfl, Restarts.start .updatesScan rfl hstopped hdown⟩

/-- What a step after `handle_stop` comes to, where `quiet` says whether it
has nothing to start. -/
def StopEffect (s s' : PyzordDaemon) (quiet : Prop) (n : Nat) : Prop :=
  (quiet ∧ Winds s s' n) ∨ (¬ quiet ∧ Restarts s s')

/-- An answer whose handler posts no more than a stop. -/
theorem stopEffect_of_posts {i : Nat} {op : Operation PyzordOperation}
    {io : IoService PyzordOperation} {posts : Nat} {quiet : Prop}
    (htake : s.io.take i = some (op, io)) (hquiet : quiet)
    (hstopped : s'.stopped = true) (hdown : s'.server.shutdown_ = true)
    (hstarted : s'.started = s.started)
    (hwork : s'.work = { s with io }.work + posts)
    (hposts : posts < handlers op) : StopEffect s s' quiet 1 := by
  refine Or.inl ⟨hquiet, hstopped, hdown, hstarted, ?_⟩
  have := work_take htake
  omega

theorem work_stop (s : PyzordDaemon) : s.stop.work = s.work + 1 := by
  simp only [work, stop, IoService.weight_start, handlers]
  omega

/-- An answer that starts a timer in any case. -/
theorem stopEffect_of_restarts {i : Nat} {p : PyzordOperation → Bool}
    (handler : PyzordDaemon → PyzordDaemon)
    (hhandler : ∀ s : PyzordDaemon, s.stopped = true →
      s.server.shutdown_ = true → Restarts s (handler s))
    (hstopped : s.stopped = true) (hdown : s.server.shutdown_ = true)
    (h : (s.answer i p fun s => some (handler s)) = some s') :
    StopEffect s s' False 1 := by
  obtain ⟨op, io, -, -, -, rfl⟩ := answer_eq_some h
  have hrestarts := hhandler { s with io } hstopped hdown
  exact Or.inr ⟨not_false, hrestarts.stopped, hrestarts.shutdown,
    hrestarts.started⟩

theorem stopEffect_of_updateDownloadFailure {i : Nat}
    (hstopped : s.stopped = true) (hdown : s.server.shutdown_ = true)
    (h : s.answer i isUpdateDownload handleUpdateDownloadFailure = some s') :
    StopEffect s s' True 1 := by
  obtain ⟨op, io, htake, -, -, rfl⟩ := answer_eq_some h
  rw [handleUpdateDownloadFailure,
    startUpdateDownload_of_shutdown (s := { s with io }) hdown]
  exact stopEffect_of_posts htake trivial hstopped hdown rfl
    (Nat.add_zero _).symm (handlers_pos op)

theorem stopEffect_of_updateDownloadSuccess {i status : Nat}
    {imported : Dump} (hstopped : s.stopped = true)
    (hdown : s.server.shutdown_ = true)
    (h : (s.answer i isUpdateDownload fun s =>
      s.handleUpdateDownloadSuccess status imported) = some s') :
    StopEffect s s' True 1 := by
  obtain ⟨op, io, htake, hop, -, rfl⟩ := answer_eq_some h
  have htwo : handlers op = 2 := by
    unfold handlers
    cases hkind : op.kind <;> simp_all [isUpdateDownload]
  unfold handleUpdateDownloadSuccess
  by_cases hrefused : status = 401
  · rw [if_pos hrefused]
    exact stopEffect_of_posts htake trivial hstopped hdown rfl (work_stop _)
      (by omega)
  · rw [if_neg hrefused]
    dsimp only
    by_cases hok : status = 200
    · rw [if_pos hok, startUpdateDownload_of_shutdown]
      · exact stopEffect_of_posts htake trivial hstopped hdown rfl
          (Nat.add_zero _).symm (handlers_pos op)
      · exact hdown
    · rw [if_neg hok]
      exact stopEffect_of_posts htake trivial hstopped hdown rfl
        (Nat.add_zero _).symm (handlers_pos op)

/-- Nothing but a listing that can be read makes the answer to a scan arm the
timer. -/
theorem stopEffect_of_updatesScanSuccess {i status : Nat} {data : Text}
    {lookupLast : Bool} (hstopped : s.stopped = true)
    (hdown : s.server.shutdown_ = true)
    (h : (s.answer i (· = .updatesScan) fun s =>
      s.handleUpdatesScanSuccess index status data lookupLast) = some s') :
    StopEffect s s' (¬ (200 ≤ status ∧ status ≤ 299 ∧
      s.Readable index data lookupLast)) 1 := by
  obtain ⟨op, io, htake, hop, -, rfl⟩ := answer_eq_some h
  have htwo : handlers op = 2 := by
    rw [handlers, of_decide_eq_true hop]
  by_cases hok : 200 ≤ status ∧ status ≤ 299
  · by_cases hread : lookupLast = true ∧
        ∀ f ∈ searchHrefs 0 data, f.minTime < 2 ^ 32
    · obtain ⟨rfl, htimes⟩ := hread
      obtain ⟨queue, hqueue⟩ := queueUpdates_isSome.mpr htimes
      have hreadable : s.Readable index data true :=
        ⟨rfl, htimes, fun _ hup => absurd hdown (by simp [hup])⟩
      rw [handleUpdatesScanSuccess_of_queue (s := { s with io }) hok hqueue,
        startUpdateDownload_of_shutdown, ite_self]
      · exact Or.inr ⟨not_not.mpr ⟨hok.1, hok.2, hreadable⟩,
          Restarts.start .updatesScanTimer rfl hstopped hdown⟩
      · exact hdown
    · have hthrows : { s with io }.handleUpdatesScanSuccess index status data
          lookupLast = none := by
        apply handleUpdatesScanSuccess_of_throws hok
        by_cases hlookup : lookupLast = true
        · right
          apply Option.eq_none_iff_forall_ne_some.mpr
          intro queue hqueue
          exact hread ⟨hlookup, queueUpdates_isSome.mp ⟨queue, hqueue⟩⟩
        · exact Or.inl (Bool.eq_false_iff.mpr hlookup)
      rw [hthrows]
      have hends := winds_of_terminated htake hstopped hdown
      refine Or.inl ⟨fun h => hread ⟨h.2.2.1, h.2.2.2.1⟩,
        { hends with work := ?_ }⟩
      have := hends.work
      change s.terminated.work + 1 ≤ s.work
      omega
  · have hquiet : ¬ (200 ≤ status ∧ status ≤ 299 ∧
        s.Readable index data lookupLast) := fun h => hok ⟨h.1, h.2.1⟩
    unfold handleUpdatesScanSuccess
    by_cases hrefused : status = 401
    · rw [if_pos hrefused]
      exact stopEffect_of_posts htake hquiet hstopped hdown rfl (work_stop _)
        (by omega)
    · rw [if_neg hrefused, if_neg hok]
      exact stopEffect_of_posts htake hquiet hstopped hdown rfl
        (Nat.add_zero _).symm (handlers_pos op)

theorem stopEffect_of_handleStop {i : Nat}
    (h : (s.answer i (· = .handleStop) fun s => some s.handleStop) =
      some s') : StopEffect s s' True 1 := by
  obtain ⟨op, io, htake, -, -, rfl⟩ := answer_eq_some h
  have hcancel : ∀ (io : IoService PyzordOperation)
      (p : PyzordOperation → Bool),
      (io.cancel p).weight handlers = io.weight handlers := by
    intro io p
    rw [IoService.weight_cancel]
    congr 1
    funext op
    simp [handlers]
  have hwork : { s with io }.handleStop.work = { s with io }.work := by
    simp [work, handleStop, Pyzord.handleStop, DatagramSocket.close, hcancel]
  exact stopEffect_of_posts htake trivial rfl rfl rfl
    (hwork.trans (Nat.add_zero _).symm) (handlers_pos op)

theorem stopEffect_of_requestThrows {i : Nat}
    (hstopped : s.stopped = true) (hdown : s.server.shutdown_ = true)
    (h : (s.answer i isRequest fun _ => none) = some s') :
    StopEffect s s' True 1 := by
  obtain ⟨op, io, htake, -, -, rfl⟩ := answer_eq_some h
  have hends := winds_of_terminated htake hstopped hdown
  have hwork : s.terminated.work + 1 ≤ s.work :=
    (Nat.add_le_add_left (handlers_pos op) _).trans hends.work
  exact Or.inl ⟨trivial, { hends with work := hwork }⟩

/-- A step that the socket takes by itself. -/
theorem stopEffect_of_socketStep {event : UdpEvent PyzordControl} {n : Nat}
    (hsocket : ∀ server', UdpServer.step Pyzord.control
        Pyzord.handleReceiveFrom s.server event = some server' →
      server'.shutdown_ = s.server.shutdown_ ∧
        2 * server'.socket_.receives.length + server'.socket_.sends.length +
          n ≤ 2 * s.server.socket_.receives.length +
            s.server.socket_.sends.length)
    (hstopped : s.stopped = true) (hdown : s.server.shutdown_ = true)
    (h : s.socketStep event = some s') : StopEffect s s' True n := by
  obtain ⟨server, hserver, rfl⟩ := Option.map_eq_some_iff.mp h
  obtain ⟨hsame, hless⟩ := hsocket server hserver
  refine Or.inl ⟨trivial, hstopped, hsame.trans hdown, rfl, ?_⟩
  unfold work
  dsimp only
  omega

theorem stopEffect_of_handleReceiveFrom {i : Nat} {now : Readings} {lookup : Bool}
    (hstopped : s.stopped = true) (hdown : s.server.shutdown_ = true)
    (h : (s.server.socket_.takeReceive i).map (fun (outcome, socket_) =>
      s.finish ({ s with server := { s.server with socket_ }
        }.handleReceiveFrom now lookup outcome)) = some s') :
    StopEffect s s' True 1 := by
  obtain ⟨⟨outcome, socket_⟩, htake, rfl⟩ := Option.map_eq_some_iff.mp h
  obtain ⟨r, hr, -, hsocket⟩ := DatagramSocket.takeReceive_eq_some htake
  have hlength : socket_.receives.length + 1 =
      s.server.socket_.receives.length := by
    obtain ⟨hi, -⟩ := List.getElem?_eq_some_iff.mp hr
    rw [hsocket, List.length_eraseIdx_of_lt hi]
    omega
  dsimp only
  rcases handleReceiveFrom_cases
      { s with server := { s.server with socket_ } } now lookup outcome with
    ⟨-, hs'⟩ | ⟨-, server, hserver, hs'⟩
  · rw [hs']
    refine Or.inl ⟨trivial, hstopped, hdown, rfl, ?_⟩
    change s.terminated.work + 1 ≤ s.work
    rw [work_terminated]
    unfold work
    omega
  · obtain ⟨hshut, hreceives, hsends⟩ :=
      UdpServer.handleReceiveFrom_of_shutdown { s.server with socket_ } hdown
        (PyzordState.reply s.database_ now) outcome
    change server = (UdpServer.handleReceiveFrom _ { s.server with socket_ }
      outcome).1 at hserver
    rw [← hserver] at hshut hreceives hsends
    rw [hs', hshut]
    refine Or.inl ⟨trivial, hstopped, hshut, rfl, ?_⟩
    have hsent : socket_.sends = s.server.socket_.sends := by rw [hsocket]
    change s.io.weight handlers + 2 * server.socket_.receives.length +
      server.socket_.sends.length + (!s.signalled).toNat + 1 ≤ s.work
    rw [hreceives]
    dsimp only at hsends
    rw [hsent] at hsends
    unfold work
    dsimp only
    omega

theorem stopEffect_of_signal
    (hstopped : s.stopped = true) (hdown : s.server.shutdown_ = true)
    (h : (if s.signalled then none else
      some { s with signalled := true }.stop) = some s') :
    StopEffect s s' True 0 := by
  cases hsignalled : s.signalled with
  | true =>
      rw [hsignalled] at h
      cases h
  | false =>
      rw [hsignalled] at h
      obtain rfl := Option.some.inj h
      refine Or.inl ⟨trivial, hstopped, hdown, rfl, ?_⟩
      rw [work_stop]
      simp [work, hsignalled]

/-- What a step comes to once `handle_stop` has run. -/
theorem step_stopEffect {event : PyzordEvent} (hstopped : s.stopped = true)
    (hdown : s.server.shutdown_ = true)
    (hstep : s.step index event = some s') :
    StopEffect s s' (NothingToStart index s event)
      event.isHandler.toNat := by
  unfold step at hstep
  split at hstep
  · cases event with
    | expire i =>
        change (if _ then _ else none) = some s' at hstep
        split at hstep
        · obtain ⟨io, hio, rfl⟩ := Option.map_eq_some_iff.mp hstep
          refine Or.inl ⟨trivial, hstopped, hdown, rfl, ?_⟩
          have hweight := IoService.weight_complete hio (w := handlers)
            fun kind => rfl
          unfold work
          dsimp only [PyzordEvent.isHandler, Bool.toNat_false]
          omega
        · cases hstep
    | handleTimer i computerId now =>
        obtain ⟨⟨op, io⟩, htake, hhandle⟩ := Option.bind_eq_some_iff.mp hstep
        obtain ⟨result, hresult, rfl⟩ := Option.map_eq_some_iff.mp hhandle
        have hop : s.io.operations[i]? = some op :=
          (IoService.take_eq_some htake).1
        rcases winds_of_handleTimer htake hstopped hdown hresult with
          ⟨hquiet, hwinds⟩ | ⟨hdue, hrestarts⟩
        · refine Or.inl ⟨fun op' hop' => ?_, hwinds⟩
          exact Option.some.inj (hop.symm.trans hop') ▸ hquiet
        · exact Or.inr ⟨fun hquiet => hquiet op hop hdue, hrestarts⟩
    | statisticsFailure i =>
        exact stopEffect_of_restarts handleStatisticsFailure
          (fun _ hstopped hdown => Restarts.start _ rfl hstopped hdown)
          hstopped hdown hstep
    | statisticsSuccess i status =>
        exact stopEffect_of_restarts (fun s => s.handleStatisticsSuccess status)
          (fun _ hstopped hdown => Restarts.start _ rfl hstopped hdown)
          hstopped hdown hstep
    | updatesScanFailure i =>
        exact stopEffect_of_restarts (p := (· = .updatesScan))
          handleUpdatesScanFailure
          (fun _ hstopped hdown => Restarts.start _ rfl hstopped hdown)
          hstopped hdown hstep
    | updatesScanSuccess i status data lookupLast =>
        exact stopEffect_of_updatesScanSuccess hstopped hdown hstep
    | updateDownloadFailure i =>
        exact stopEffect_of_updateDownloadFailure hstopped hdown hstep
    | updateDownloadSuccess i status imported =>
        exact stopEffect_of_updateDownloadSuccess hstopped hdown hstep
    | requestThrows i => exact stopEffect_of_requestThrows hstopped hdown hstep
    | handleStop i => exact stopEffect_of_handleStop hstep
    | signal => exact stopEffect_of_signal hstopped hdown hstep
    | deliver i sender datagram =>
        refine stopEffect_of_socketStep (fun server' h => ?_) hstopped hdown
          hstep
        obtain ⟨socket_, hsocket, rfl⟩ := Option.map_eq_some_iff.mp h
        obtain ⟨r, -, rfl⟩ := DatagramSocket.deliver_eq_some hsocket
        exact ⟨rfl, by simp [PyzordEvent.isHandler]⟩
    | fail i =>
        refine stopEffect_of_socketStep (fun server' h => ?_) hstopped hdown
          hstep
        obtain ⟨socket_, hsocket, rfl⟩ := Option.map_eq_some_iff.mp h
        obtain ⟨r, -, rfl⟩ := DatagramSocket.fail_eq_some hsocket
        exact ⟨rfl, by simp [PyzordEvent.isHandler]⟩
    | handleReceiveFrom i now lookup =>
        exact stopEffect_of_handleReceiveFrom hstopped hdown hstep
    | readSend j =>
        refine stopEffect_of_socketStep (fun server' h => ?_) hstopped hdown
          hstep
        obtain ⟨socket_, hsocket, rfl⟩ := Option.map_eq_some_iff.mp h
        obtain ⟨send, -, -, -, rfl⟩ := DatagramSocket.readSend_eq_some hsocket
        exact ⟨rfl, by simp [PyzordEvent.isHandler]⟩
    | handleSendTo j error =>
        refine stopEffect_of_socketStep (fun server' h => ?_) hstopped hdown
          hstep
        obtain ⟨socket_, hsocket, rfl⟩ := Option.map_eq_some_iff.mp h
        obtain ⟨send, hsend, rfl⟩ := DatagramSocket.completeSend_eq_some hsocket
        obtain ⟨hj, -⟩ := List.getElem?_eq_some_iff.mp hsend
        refine ⟨rfl, ?_⟩
        simp only [PyzordEvent.isHandler, List.length_eraseIdx_of_lt hj,
          Bool.toNat_true]
        omega
  · cases hstep

theorem shutDown_preserved (index : TimeIndex) (db : Database)
    (state : PyzordState) :
    (pyzordDaemonSystem index db state).Preserves ShutDown
      fun _ _ => True := by
  intro s s' event hshut _ hstep hstopped'
  cases hstopped : s.stopped with
  | true =>
      rcases step_stopEffect hstopped (hshut hstopped) hstep with
        ⟨-, hwinds⟩ | ⟨-, hrestarts⟩
      · exact hwinds.shutdown
      · exact hrestarts.shutdown
  | false =>
      rcases step_effect hstep with
        ⟨-, -, hdown⟩ | ⟨-, hsame, -⟩ | ⟨hsame, -⟩
      · exact hdown
      · rw [hsame, hstopped] at hstopped'
        cases hstopped'
      · rw [hsame, hstopped] at hstopped'
        cases hstopped'

/-- A step after the stop starts nothing exactly if it has nothing to
start. -/
theorem startsNothing_iff {event : PyzordEvent} (hshut : s.ShutDown)
    (hstep : s.step index event = some s') :
    StartsNothing index s event ↔
      (s.stopped = true → NothingToStart index s event) := by
  refine forall_congr' fun hstopped => ?_
  rcases step_stopEffect hstopped (hshut hstopped) hstep with
    ⟨hquiet, hwinds⟩ | ⟨hbusy, hrestarts⟩
  · refine iff_of_true (fun s'' hs'' => ?_) hquiet
    exact Option.some.inj (hstep.symm.trans hs'') ▸ hwinds.started
  · exact iff_of_false (fun h => hrestarts.started (h s' hstep)) hbusy

/-- Each handler that runs after the stop takes its part of the work. -/
theorem countP_isHandler_le (db : Database) (state : PyzordState)
    {events : List PyzordEvent} (hstopped : s.stopped = true)
    (hdown : s.server.shutdown_ = true)
    (heach : (pyzordDaemonSystem index db state).EachFrom
      (fun s event => s.stopped = true → NothingToStart index s event)
      s events)
    (hrun : (pyzordDaemonSystem index db state).runFrom s events = some s') :
    events.countP PyzordEvent.isHandler + s'.pending ≤ s.work := by
  induction events generalizing s with
  | nil =>
      obtain rfl := Option.some.inj hrun
      simpa using pending_le_work s
  | cons event events ih =>
      rw [StepSystem.runFrom_cons] at hrun
      obtain ⟨mid, hmid, hrest⟩ := Option.bind_eq_some_iff.mp hrun
      obtain ⟨hquiet, heachRest⟩ := heach mid hmid
      rcases step_stopEffect hstopped hdown hmid with
        ⟨-, hwinds⟩ | ⟨hbusy, -⟩
      · have hafter := ih hwinds.stopped hwinds.shutdown heachRest hrest
        have hstep := hwinds.work
        rw [List.countP_cons]
        cases hevent : event.isHandler with
        | true =>
            rw [hevent] at hstep
            simp only [Bool.toNat_true, ↓reduceIte] at hstep ⊢
            omega
        | false =>
            simp only [Bool.false_eq_true, ↓reduceIte]
            omega
      · exact absurd (hquiet hstopped) hbusy

end Stopped

end PyzordDaemon

/-- The daemon stops quietly exactly in the runs in which, once `handle_stop`
has run, no timer is handled that had run out before, the statistics are not
answered, and the scans are neither failed nor answered with a listing that
can be read. -/
theorem stopsQuietly_iff (index : TimeIndex) (db : Database)
    (state : PyzordState) (events : List PyzordEvent) :
    StopsQuietly index db state events ↔
      (pyzordDaemonSystem index db state).Each (fun s event =>
        s.stopped = true → s.NothingToStart index event) events := by
  have hinit : (pyzordDaemonSystem index db state).init.ShutDown := by
    intro hstopped
    cases hstopped
  have heach : (pyzordDaemonSystem index db state).Each
      (PyzordDaemon.StartsNothing index) events ↔
      (pyzordDaemonSystem index db state).Each (fun s event =>
        s.stopped = true → s.NothingToStart index event) events :=
    StepSystem.each_congr _ hinit
      (PyzordDaemon.shutDown_preserved index db state)
      (fun hshut hstep => PyzordDaemon.startsNothing_iff hshut hstep) events
  unfold StopsQuietly
  rw [heach]
  refine and_iff_left_of_imp fun hquiet => ?_
  rintro before after s s' rfl hbefore hstopped hafter
  have hshut : s.ShutDown := StepSystem.run_invariant _ hinit
    (PyzordDaemon.shutDown_preserved index db state) hbefore
  have hrest := ((StepSystem.eachFrom_append _).mp hquiet).2 s hbefore
  exact PyzordDaemon.countP_isHandler_le db state hstopped (hshut hstopped)
    hrest hafter

/-- The signal comes while a report of the statistics is in flight. -/
def stoppedWhileReporting : List PyzordEvent :=
  [.expire 0, .handleTimer 0 [] 0, .signal, .handleStop 3]

theorem not_stopsQuietly :
    ¬ ∀ index db state events, StopsQuietly index db state events := by
  intro h
  let state : PyzordState :=
    { request_statistics_ := .create 300 0, check_statistics_ := .create 300 0
      hit_statistics_ := .create 300 0 }
  let M := pyzordDaemonSystem TimeIndex.stable ∅ state
  let answered : PyzordEvent := .statisticsSuccess 2 200
  have hends : (M.run stoppedWhileReporting).any (fun s => s.stopped &&
      (M.step s answered).any fun s' => s'.started ≠ s.started) = true := by
    decide +kernel
  obtain ⟨s, hrun, hstarts⟩ := (Option.any_eq_true _ _).mp hends
  rw [Bool.and_eq_true] at hstarts
  obtain ⟨s', hstep, hstarted⟩ := (Option.any_eq_true _ _).mp hstarts.2
  have hquiet := (h TimeIndex.stable ∅ state
    (stoppedWhileReporting ++ [answered])).1
  have hlast := ((M.eachFrom_append).mp hquiet).2 s hrun s' hstep
  exact of_decide_eq_true hstarted (hlast.1 hstarts.1 s' hstep)

end BohunoPyzord
