/-
The two UDP daemons over whole runs.  The totals of their statistics agree
with each other at any time, what they pass to the database is what was
reported, and nobody but an admin shuts them down.
-/
import BohunoPyzord.PyzordDaemon
import BohunoPyzord.StatisticsWindow

namespace BohunoPyzord

/-- A daemon with the clock that it has read last, how it was controlled, the
senders of the datagrams that came in, and the updates it has passed on. -/
structure WatchedServer (S C : Type) where
  server : UdpServer S
  clock : Nat
  controls : List C
  senders : List Endpoint
  updates : List Update

namespace Readings

variable {now : Readings} {clock : Nat}

/-- The readings up to a place, by induction on it. -/
theorem Follow.mono (h : now.Follow clock) {i j : Nat} (hij : i ≤ j)
    (hj : j ≤ 5) : now i ≤ now j := by
  induction j with
  | zero => rw [Nat.le_zero.mp hij]
  | succ j ih =>
      rcases Nat.le_or_eq_of_le_succ hij with hless | rfl
      · exact (ih hless (Nat.le_of_succ_le hj)).trans (h.2 j hj)
      · exact le_refl _

theorem Follow.clock_le (h : now.Follow clock) {i : Nat} (hi : i ≤ 5) :
    clock ≤ now i :=
  h.1.trans (h.mono (Nat.zero_le i) hi)

/-- The later readings follow the first. -/
theorem Follow.from_first (h : now.Follow clock) : now.Follow (now 0) :=
  ⟨le_refl _, h.2⟩

theorem Follow.clock_le_last (h : now.Follow clock) : clock ≤ now 5 :=
  h.clock_le (le_refl 5)

theorem Follow.le_last (h : now.Follow clock) {i : Nat} (hi : i ≤ 5) :
    now i ≤ now 5 :=
  h.mono hi (le_refl 5)

end Readings

namespace WatchedServer

variable {S C : Type}

/-- A step of the daemon; the clock does not go back. -/
def step (control : Nat → UdpServer S → C → Option (UdpServer S × Nat))
    (reply : Database → Readings → Text → Endpoint → S → Reply S)
    (s : WatchedServer S C) : UdpEvent C → Option (WatchedServer S C)
  | .control c => (control s.clock s.server c).map fun (server, clock) =>
      { s with server, clock, controls := s.controls ++ [c] }
  | .deliver i sender datagram =>
      (s.server.socket_.deliver i sender datagram).map fun socket_ =>
        { s with
          server := { s.server with socket_ }
          senders := s.senders ++ [sender] }
  | .fail i => (s.server.socket_.fail i).map fun socket_ =>
      { s with server := { s.server with socket_ } }
  | .handleReceiveFrom i stored now =>
      if now.Follow s.clock then
        (s.server.socket_.takeReceive i).map fun (outcome, socket_) =>
          let (server, updates) := UdpServer.handleReceiveFrom
            (reply stored now) { s.server with socket_ } outcome
          { s with server, clock := now 5, updates := s.updates ++ updates }
      else none
  | .readSend j => (s.server.socket_.readSend j).map fun socket_ =>
      { s with server := { s.server with socket_ } }
  | .handleSendTo j error =>
      (s.server.socket_.completeSend j error).map fun socket_ =>
        { s with server := { s.server with socket_ } }

end WatchedServer

/-- The runs of a daemon that is constructed at clock reading `start`. -/
def watchedSystem {S C : Type}
    (control : Nat → UdpServer S → C → Option (UdpServer S × Nat))
    (reply : Database → Readings → Text → Endpoint → S → Reply S)
    (server : UdpServer S) (start : Nat) :
    StepSystem (WatchedServer S C) (UdpEvent C) where
  init := { server, clock := start, controls := [], senders := []
            updates := [] }
  step := WatchedServer.step control reply

namespace UdpServer

variable {S : Type} {reply : Text → Endpoint → S → Reply S}
  {server : UdpServer S} {outcome : Option Nat}

theorem receiveNext_state : server.receiveNext.state = server.state := by
  unfold receiveNext
  split_ifs <;> rfl

theorem receiveNext_shutdown :
    server.receiveNext.shutdown_ = server.shutdown_ := by
  unfold receiveNext
  split_ifs <;> rfl

/-- The socket after the next receive was started, or not. -/
theorem receiveNext_socket (P : DatagramSocket Endpoint Char → Prop)
    (h : P server.socket_) (hnext : P server.socket_.asyncReceiveFrom) :
    P server.receiveNext.socket_ := by
  unfold receiveNext
  split_ifs
  · exact hnext
  · exact h

/-- What a receive comes to: nothing is answered, or the datagram whose sender
the socket has. -/
theorem handleReceiveFrom_cases (reply : Text → Endpoint → S → Reply S)
    (server : UdpServer S) (outcome : Option Nat) :
    let after := server.handleReceiveFrom reply outcome
    (after.1.state = server.state ∧ after.1.shutdown_ = server.shutdown_ ∧
      after.2 = []) ∨
    ∃ data, outcome.isSome = true ∧
      let r := reply data server.socket_.sender server.state
      after.1.state = r.state ∧
        after.1.shutdown_ = (server.shutdown_ || r.shutdown) ∧
        after.2 = r.updates := by
  intro after
  cases outcome with
  | none => exact Or.inl ⟨receiveNext_state, receiveNext_shutdown, rfl⟩
  | some bytesRecvd =>
      by_cases hbytes : bytesRecvd > 0
      · right
        refine ⟨server.socket_.buffer.take bytesRecvd, rfl, ?_⟩
        have hafter : after = ((server.answer reply bytesRecvd).1.receiveNext,
            (server.answer reply bytesRecvd).2) := by
          simp only [after, handleReceiveFrom, if_pos hbytes]
        rw [hafter, receiveNext_state, receiveNext_shutdown]
        exact ⟨rfl, rfl, rfl⟩
      · left
        have hafter : after = (server.receiveNext, []) := by
          simp only [after, handleReceiveFrom, if_neg hbytes]
        rw [hafter]
        exact ⟨receiveNext_state, receiveNext_shutdown, rfl⟩

/-- The socket after a receive, for what neither the buffer nor a send nor
another receive changes. -/
theorem handleReceiveFrom_socket
    (P : DatagramSocket Endpoint Char → Prop) (h : P server.socket_)
    (hsend : ∀ socket data length, P socket →
      P (DatagramSocket.asyncSendTo { socket with buffer := data } length))
    (hnext : ∀ socket, P socket → P socket.asyncReceiveFrom) :
    P (server.handleReceiveFrom reply outcome).1.socket_ := by
  cases outcome with
  | none => exact receiveNext_socket P h (hnext _ h)
  | some bytesRecvd =>
      by_cases hbytes : bytesRecvd > 0
      · have hanswer : P (server.answer reply bytesRecvd).1.socket_ :=
          hsend _ _ _ h
        simp only [handleReceiveFrom, if_pos hbytes]
        exact receiveNext_socket P hanswer (hnext _ hanswer)
      · simp only [handleReceiveFrom, if_neg hbytes]
        exact receiveNext_socket P h (hnext _ h)

end UdpServer

/-- What a daemon makes of a request: nothing of one that it cannot read, and
only an admin's shuts it down. -/
theorem answerRequest_cases {S : Type} (count : S → S) (authorized : Bool)
    (statistics : S → Packet → S × Packet)
    (operation : Packet → S → Packet → Option (S × Packet × List Update))
    (data : Text) (s : S) :
    let r := answerRequest count authorized statistics operation data s
    (r.shutdown = true → authorized = true) ∧
      ((r.state = s ∧ r.updates = []) ∨
        (r.state = count s ∧ r.updates = []) ∨
        (∃ res, r.state = (statistics (count s) res).1 ∧ r.updates = []) ∨
        ∃ req res res',
          operation req (count s) res = some (r.state, res', r.updates)) := by
  intro r
  simp only [r, answerRequest]
  split_ifs with hok hversion hadmin hauthorized hshutdown
  · exact ⟨False.elim, Or.inl ⟨rfl, rfl⟩⟩
  · exact ⟨False.elim, Or.inl ⟨rfl, rfl⟩⟩
  · exact ⟨False.elim, Or.inr (Or.inl ⟨rfl, rfl⟩)⟩
  · exact ⟨fun _ => by simpa using hauthorized, Or.inr (Or.inl ⟨rfl, rfl⟩)⟩
  · exact ⟨False.elim, Or.inr (Or.inr (Or.inl ⟨_, rfl, rfl⟩))⟩
  · split
    · rename_i s' res updates hoperation
      exact ⟨fun h => (Bool.false_ne_true h).elim,
        Or.inr (Or.inr (Or.inr ⟨_, _, _, hoperation⟩))⟩
    · exact ⟨fun h => (Bool.false_ne_true h).elim,
        Or.inr (Or.inl ⟨rfl, rfl⟩)⟩

namespace WatchedServer

variable {S C : Type}

/-- What there is to know of a daemon: `P` holds of its state at the clock and
of the updates it has passed on, `requests` counts the requests, `admin` says
whose requests may shut it down and `stops` which controls do. -/
structure Rules
    (control : Nat → UdpServer S → C → Option (UdpServer S × Nat))
    (reply : Database → Readings → Text → Endpoint → S → Reply S)
    (P : Nat → S → List Update → Prop) (requests : S → Nat)
    (admin : Endpoint → Prop) (stops : C → Prop) : Prop where
  later : ∀ {t now s updates}, P t s updates → t ≤ now → P now s updates
  reply : ∀ {t s updates} {now : Readings} stored data sender,
    P t s updates → now.Follow t →
    let r := reply stored now data sender s
    P (now 5) r.state (updates ++ r.updates) ∧
      requests r.state ≤ requests s + 1 ∧
      (r.shutdown = true → admin sender)
  control : ∀ {t now server server' updates c},
    P t server.state updates → control t server c = some (server', now) →
    P now server'.state updates ∧
      requests server'.state = requests server.state ∧
      (server'.shutdown_ = true → server.shutdown_ = true ∨ stops c) ∧
      server'.socket_.stored = server.socket_.stored ∧
      ∀ senders, server.socket_.Heard senders →
        server'.socket_.Heard senders

/-- What every run keeps. -/
structure Inv (P : Nat → S → List Update → Prop) (requests : S → Nat)
    (admin : Endpoint → Prop) (stops : C → Prop)
    (s : WatchedServer S C) : Prop where
  state : P s.clock s.server.state s.updates
  heard : s.server.socket_.Heard s.senders
  answered : requests s.server.state + s.server.socket_.stored ≤
    s.senders.length
  shutdown : s.server.shutdown_ = true →
    (∃ sender ∈ s.senders, admin sender) ∨ ∃ c ∈ s.controls, stops c

variable {control : Nat → UdpServer S → C → Option (UdpServer S × Nat)}
  {reply : Database → Readings → Text → Endpoint → S → Reply S}
  {P : Nat → S → List Update → Prop} {requests : S → Nat}
  {admin : Endpoint → Prop} {stops : C → Prop}

/-- A step of the socket alone. -/
theorem Inv.socket {s : WatchedServer S C}
    {socket_ : DatagramSocket Endpoint Char}
    (h : Inv P requests admin stops s) (hheard : socket_.Heard s.senders)
    (hstored : socket_.stored ≤ s.server.socket_.stored) :
    Inv P requests admin stops
      { s with server := { s.server with socket_ } } where
  state := h.state
  heard := hheard
  answered := (Nat.add_le_add_left hstored _).trans h.answered
  shutdown := h.shutdown

/-- A receive that is handled: at most one request of a sender that was
heard. -/
theorem Rules.receive (rules : Rules control reply P requests admin stops)
    {s : WatchedServer S C} (h : Inv P requests admin stops s) {i : Nat}
    {stored : Database} {now : Readings} (hnow : now.Follow s.clock)
    {outcome : Option Nat} {socket_ : DatagramSocket Endpoint Char}
    (htake : s.server.socket_.takeReceive i = some (outcome, socket_)) :
    let after := UdpServer.handleReceiveFrom (reply stored now)
      { s.server with socket_ } outcome
    Inv P requests admin stops
      { s with server := after.1, clock := now 5,
               updates := s.updates ++ after.2 } := by
  intro after
  obtain ⟨hheard, hsender⟩ := h.heard.takeReceive htake
  have hstored := DatagramSocket.stored_takeReceive htake
  have hsocket : after.1.socket_.stored = socket_.stored :=
    UdpServer.handleReceiveFrom_socket
      (fun socket => socket.stored = socket_.stored) rfl
      (fun _ _ _ heq => heq)
      fun _ heq => DatagramSocket.stored_asyncReceiveFrom.trans heq
  have hheard' : after.1.socket_.Heard s.senders :=
    UdpServer.handleReceiveFrom_socket
      (fun socket => socket.Heard s.senders) hheard (fun _ _ _ heard => heard)
      fun _ heard => heard.asyncReceiveFrom
  have hanswered := h.answered
  rcases UdpServer.handleReceiveFrom_cases (reply stored now)
    { s.server with socket_ } outcome with
    ⟨hstate, hdown, hupdates⟩ | ⟨data, hsome, hstate, hdown, hupdates⟩
  · refine ⟨?_, hheard', ?_, ?_⟩
    · change P (now 5) after.1.state (s.updates ++ after.2)
      rw [hstate, hupdates, List.append_nil]
      exact rules.later h.state hnow.clock_le_last
    · change requests after.1.state + after.1.socket_.stored ≤
        s.senders.length
      rw [hstate, hsocket]
      change requests s.server.state + _ ≤ _
      omega
    · intro hafter
      exact h.shutdown (hdown.symm.trans hafter)
  · obtain ⟨hP, hrequests, hadmin⟩ := rules.reply stored data socket_.sender
      h.state hnow
    refine ⟨?_, hheard', ?_, ?_⟩
    · change P (now 5) after.1.state (s.updates ++ after.2)
      rw [hstate, hupdates]
      exact hP
    · change requests after.1.state + after.1.socket_.stored ≤
        s.senders.length
      rw [hstate, hsocket]
      rw [if_pos hsome] at hstored
      change requests (reply stored now data socket_.sender
        s.server.state).state + _ ≤ _
      omega
    · intro hafter
      rcases Bool.or_eq_true_iff.mp (hdown.symm.trans hafter) with
        hbefore | hreply
      · exact h.shutdown hbefore
      · exact Or.inl ⟨socket_.sender, hsender hsome, hadmin hreply⟩

theorem Rules.inv_step (rules : Rules control reply P requests admin stops)
    {server : UdpServer S} {start : Nat} :
    (watchedSystem control reply server start).Preserves
      (Inv P requests admin stops) fun _ _ => True := by
  intro s s' event h _ hstep
  cases event with
  | control c =>
      obtain ⟨⟨server', now⟩, hcontrol, rfl⟩ := Option.map_eq_some_iff.mp hstep
      obtain ⟨hP, hrequests, hdown, hstored, hheard⟩ :=
        rules.control h.state hcontrol
      refine ⟨hP, hheard _ h.heard, ?_, fun hafter => ?_⟩
      · change requests server'.state + server'.socket_.stored ≤ _
        rw [hrequests, hstored]
        exact h.answered
      · rcases hdown hafter with hbefore | hstops
        · rcases h.shutdown hbefore with hsender | ⟨c', hc', hstops⟩
          · exact Or.inl hsender
          · exact Or.inr ⟨c', List.mem_append_left _ hc', hstops⟩
        · exact Or.inr ⟨c, List.mem_append_right _ List.mem_cons_self, hstops⟩
  | deliver i sender datagram =>
      obtain ⟨socket_, hdeliver, rfl⟩ := Option.map_eq_some_iff.mp hstep
      have hstored := DatagramSocket.stored_deliver hdeliver
      refine ⟨h.state, DatagramSocket.heard_deliver hdeliver, ?_, ?_⟩
      · have hanswered := h.answered
        change requests s.server.state + socket_.stored ≤ (s.senders ++ _).length
        rw [List.length_append, List.length_singleton]
        omega
      · intro hdown
        rcases h.shutdown hdown with ⟨admin', hmem, hadmin⟩ | hstops
        · exact Or.inl ⟨admin', List.mem_append_left _ hmem, hadmin⟩
        · exact Or.inr hstops
  | fail i =>
      obtain ⟨socket_, hfail, rfl⟩ := Option.map_eq_some_iff.mp hstep
      exact h.socket (h.heard.fail hfail) (DatagramSocket.stored_fail hfail)
  | handleReceiveFrom i stored now =>
      change (if now.Follow s.clock then _ else none) = _ at hstep
      split_ifs at hstep with hnow
      obtain ⟨⟨outcome, socket_⟩, htake, rfl⟩ :=
        Option.map_eq_some_iff.mp hstep
      exact rules.receive h hnow htake
  | readSend j =>
      obtain ⟨socket_, hread, rfl⟩ := Option.map_eq_some_iff.mp hstep
      refine h.socket (h.heard.readSend hread) (Nat.le_of_eq ?_)
      obtain ⟨-, -, -, -, rfl⟩ := DatagramSocket.readSend_eq_some hread
      rfl
  | handleSendTo j error =>
      obtain ⟨socket_, hsend, rfl⟩ := Option.map_eq_some_iff.mp hstep
      refine h.socket (h.heard.completeSend hsend) (Nat.le_of_eq ?_)
      obtain ⟨-, -, rfl⟩ := DatagramSocket.completeSend_eq_some hsend
      rfl

end WatchedServer

namespace StatisticsRing

/-- The ring, of five minutes as it is constructed, counts what was reported
to it and is not ahead of the clock. -/
def Tracks (ring : StatisticsRing) (clock : Nat) : Prop :=
  ∃ times, ring.total = times.length ∧
    ∃ now ≤ clock, ring.Counts 300 now times

theorem total_report (ring : StatisticsRing) (now : Nat) :
    (ring.report now).total = ring.total + 1 :=
  total_advance { ring with total_ := ring.total_ + 1 } now

theorem total_average (ring : StatisticsRing) (now : Nat) :
    (ring.average now).2.total = ring.total :=
  total_advance ring now

namespace Tracks

variable {ring : StatisticsRing} {clock time now : Nat}

theorem create (start : Nat) : Tracks (StatisticsRing.create 300 start) start :=
  ⟨[], rfl, start, le_refl start, counts_create (by decide) start⟩

theorem later (h : ring.Tracks clock) (hnow : clock ≤ now) :
    ring.Tracks now := by
  obtain ⟨times, htotal, at', hat, hcounts⟩ := h
  exact ⟨times, htotal, at', hat.trans hnow, hcounts⟩

theorem report (h : ring.Tracks clock) (htime : clock ≤ time)
    (hnow : time ≤ now) : (ring.report time).Tracks now := by
  obtain ⟨times, htotal, at', hat, hcounts⟩ := h
  refine ⟨times ++ [time], ?_, time, hnow,
    hcounts.report (hat.trans htime)⟩
  rw [total_report, htotal, List.length_append, List.length_singleton]

theorem average (h : ring.Tracks clock) (htime : clock ≤ time)
    (hnow : time ≤ now) : (ring.average time).2.Tracks now := by
  obtain ⟨times, htotal, at', hat, hcounts⟩ := h
  exact ⟨times, (total_average ring time).trans htotal, time, hnow,
    hcounts.advance (hat.trans htime)⟩

/-- A call among those of a handler. -/
theorem reportAt {now : Readings} (h : ring.Tracks clock)
    (hnow : now.Follow clock) (i : Nat) (hi : i ≤ 5 := by decide) :
    (ring.report (now i)).Tracks (now 5) :=
  h.report (hnow.clock_le hi) (hnow.le_last hi)

theorem averageAt {now : Readings} (h : ring.Tracks clock)
    (hnow : now.Follow clock) (i : Nat) (hi : i ≤ 5 := by decide) :
    (ring.average (now i)).2.Tracks (now 5) :=
  h.average (hnow.clock_le hi) (hnow.le_last hi)

/-- What was reported within five minutes was reported. -/
theorem average_mul_le (h : ring.Tracks clock) {t : Nat} (ht : clock ≤ t) :
    (ring.average t).1 * 300 ≤ ring.total := by
  obtain ⟨times, htotal, at', hat, hcounts⟩ := h
  rw [htotal, hcounts.average_eq (hat.trans ht)]
  exact (Nat.div_mul_le_self _ _).trans List.countP_le_length

end Tracks

end StatisticsRing

namespace ServerState

def rings (s : ServerState) : List StatisticsRing :=
  [s.request_statistics_, s.check_statistics_, s.hit_statistics_,
    s.report_statistics_, s.whitelist_statistics_]

/-- No more checks, reports and whitelistings were counted than requests, of
which `spare` are still to be counted as one of these; and no more hits than
checks. -/
structure Counts (s : ServerState) (clock spare : Nat) : Prop where
  request : s.request_statistics_.Tracks clock
  check : s.check_statistics_.Tracks clock
  hit : s.hit_statistics_.Tracks clock
  report : s.report_statistics_.Tracks clock
  whitelist : s.whitelist_statistics_.Tracks clock
  hit_le : s.hit_statistics_.total ≤ s.check_statistics_.total
  within : s.check_statistics_.total + s.report_statistics_.total +
    s.whitelist_statistics_.total + spare ≤ s.request_statistics_.total

/-- The statistics are those of the requests, and the updates were
reported. -/
structure Counted (admins : List Text) (clock : Nat) (s : ServerState)
    (updates : List Update) : Prop where
  admins : s.admin_addresses_ = admins
  reported : ∀ u ∈ updates, u.type = some .report
  counts : s.Counts clock 0
  updates_le : updates.length ≤ s.report_statistics_.total

/-- What the statistics say at `t` fits together: no average is above the
300th part of its total, and the totals are those of requests and of some of
these. -/
structure Consistent (s : ServerState) (t : Nat) : Prop where
  averages : ∀ ring ∈ s.rings, (ring.average t).1 * 300 ≤ ring.total
  total_hits : s.hit_statistics_.total ≤ s.check_statistics_.total
  total_requests : s.check_statistics_.total + s.report_statistics_.total +
    s.whitelist_statistics_.total ≤ s.request_statistics_.total

variable {s : ServerState} {clock : Nat} {now : Readings}

namespace Counts

theorem later {spare time : Nat} (h : s.Counts clock spare)
    (htime : clock ≤ time) : s.Counts time spare :=
  ⟨h.request.later htime, h.check.later htime, h.hit.later htime,
    h.report.later htime, h.whitelist.later htime, h.hit_le, h.within⟩

/-- A request that is of none of the kinds. -/
theorem unspent {spare : Nat} (h : s.Counts clock spare) :
    s.Counts clock 0 :=
  ⟨h.request, h.check, h.hit, h.report, h.whitelist, h.hit_le,
    (Nat.le_add_right _ spare).trans h.within⟩

/-- A request is counted before its operation is looked at. -/
theorem count (h : s.Counts clock 0) (hnow : now.Follow clock) :
    Counts { s with
      request_statistics_ := s.request_statistics_.report (now 0) }
      (now 0) 1 where
  request := h.request.report hnow.1 (le_refl _)
  check := h.check.later hnow.1
  hit := h.hit.later hnow.1
  report := h.report.later hnow.1
  whitelist := h.whitelist.later hnow.1
  hit_le := h.hit_le
  within := by
    rw [StatisticsRing.total_report]
    exact Nat.succ_le_succ h.within

theorem statistics (h : s.Counts clock 0) (hnow : now.Follow clock)
    (res : Packet) : (s.statistics now res).1.Counts (now 5) 0 := by
  refine ⟨h.request.averageAt hnow 1, h.check.averageAt hnow 2,
    h.hit.averageAt hnow 3, h.report.averageAt hnow 4,
    h.whitelist.averageAt hnow 5, ?_, ?_⟩
  · simp only [ServerState.statistics, StatisticsRing.total_average]
    exact h.hit_le
  · simp only [ServerState.statistics, StatisticsRing.total_average]
    exact h.within

/-- A check is counted, and is a hit or not. -/
theorem check_of_spare (h : s.Counts clock 1) (hnow : now.Follow clock)
    (stored : Database) (digest : Text) (res : Packet) :
    (s.check stored now digest res).1.Counts (now 5) 0 := by
  have hlater := h.later hnow.clock_le_last
  have hmiss : Counts { s with
      check_statistics_ := s.check_statistics_.report (now 1) } (now 5) 0 := by
    refine ⟨hlater.request, h.check.reportAt hnow 1, hlater.hit, hlater.report,
      hlater.whitelist, ?_, ?_⟩
    · rw [StatisticsRing.total_report]
      exact h.hit_le.trans (Nat.le_succ _)
    · have hwithin := h.within
      simp only [StatisticsRing.total_report]
      omega
  have hhit : Counts { s with
      check_statistics_ := s.check_statistics_.report (now 1)
      hit_statistics_ := s.hit_statistics_.report (now 3) } (now 5) 0 := by
    refine ⟨hmiss.request, hmiss.check, h.hit.reportAt hnow 3, hmiss.report,
      hmiss.whitelist, ?_, hmiss.within⟩
    rw [StatisticsRing.total_report, StatisticsRing.total_report]
    exact Nat.succ_le_succ h.hit_le
  simp only [ServerState.check]
  split_ifs
  · exact hmiss
  · exact hhit
  · exact hmiss

theorem report_of_spare (h : s.Counts clock 1) (hnow : now.Follow clock) :
    Counts { s with
      report_statistics_ := s.report_statistics_.report (now 1) }
      (now 5) 0 := by
  have hlater := h.later hnow.clock_le_last
  have hwithin := h.within
  refine ⟨hlater.request, hlater.check, hlater.hit,
    h.report.reportAt hnow 1, hlater.whitelist, hlater.hit_le, ?_⟩
  simp only [StatisticsRing.total_report]
  omega

theorem whitelist_of_spare (h : s.Counts clock 1) (hnow : now.Follow clock) :
    Counts { s with
      whitelist_statistics_ := s.whitelist_statistics_.report (now 1) }
      (now 5) 0 := by
  have hlater := h.later hnow.clock_le_last
  have hwithin := h.within
  refine ⟨hlater.request, hlater.check, hlater.hit, hlater.report,
    h.whitelist.reportAt hnow 1, hlater.hit_le, ?_⟩
  simp only [StatisticsRing.total_report]
  omega

theorem consistent {spare t : Nat} (h : s.Counts clock spare)
    (ht : clock ≤ t) : s.Consistent t where
  averages := by
    simp only [rings, List.forall_mem_cons]
    exact ⟨h.request.average_mul_le ht, h.check.average_mul_le ht,
      h.hit.average_mul_le ht, h.report.average_mul_le ht,
      h.whitelist.average_mul_le ht, fun _ hnone =>
        absurd hnone List.not_mem_nil⟩
  total_hits := h.hit_le
  total_requests := (Nat.le_add_right _ _).trans h.within

end Counts

namespace Counted

variable {admins : List Text} {updates : List Update}

theorem create (admins : List Text) (start : Nat) :
    Counted admins start
      { request_statistics_ := .create 300 start
        check_statistics_ := .create 300 start
        hit_statistics_ := .create 300 start
        report_statistics_ := .create 300 start
        whitelist_statistics_ := .create 300 start
        admin_addresses_ := admins } [] := by
  have hring := StatisticsRing.Tracks.create start
  exact ⟨rfl, fun u hu => absurd hu List.not_mem_nil,
    ⟨hring, hring, hring, hring, hring, le_refl _, le_refl _⟩, le_refl _⟩

theorem later {time : Nat} (h : Counted admins clock s updates)
    (htime : clock ≤ time) : Counted admins time s updates :=
  ⟨h.admins, h.reported, h.counts.later htime, h.updates_le⟩

theorem update_report (digest : Text) (now : Nat) :
    (update digest .report now).length ≤ 1 ∧
      ∀ u ∈ update digest .report now, u.type = some .report := by
  unfold update
  cases Hash.ofHex digest with
  | none => exact ⟨Nat.zero_le 1, fun u hu => absurd hu List.not_mem_nil⟩
  | some hash =>
      refine ⟨le_refl 1, fun u hu => ?_⟩
      rw [List.mem_singleton.mp hu]
      exact Update.type_make ..

/-- A check leaves the rest of the state alone. -/
theorem check_others (s : ServerState) (stored : Database) (now : Readings)
    (digest : Text) (res : Packet) :
    let after := (s.check stored now digest res).1
    after.admin_addresses_ = s.admin_addresses_ ∧
      after.request_statistics_ = s.request_statistics_ ∧
      after.report_statistics_ = s.report_statistics_ := by
  simp only [ServerState.check]
  split_ifs <;> exact ⟨rfl, rfl, rfl⟩

/-- An operation of a request that was counted. -/
theorem operation (hadmins : s.admin_addresses_ = admins)
    (hreported : ∀ u ∈ updates, u.type = some .report)
    (hcounts : s.Counts clock 1) (hnow : now.Follow clock)
    (hlength : updates.length ≤ s.report_statistics_.total)
    {stored : Database} {req res res' : Packet} {s' : ServerState}
    {passed : List Update}
    (hoperation : s.operation stored now req res = some (s', res', passed)) :
    Counted admins (now 5) s' (updates ++ passed) ∧
      s'.request_statistics_ = s.request_statistics_ := by
  unfold ServerState.operation at hoperation
  simp only at hoperation
  split_ifs at hoperation with hcheck hreport hwhitelist henabled
  · obtain ⟨rfl, -, rfl⟩ := hoperation
    have hafter := hcounts.check_of_spare hnow stored
      (req.get "Op-Digest".toList) res
    obtain ⟨hadmins', hrequest, hreport⟩ := check_others s stored now
      (req.get "Op-Digest".toList) res
    rw [List.append_nil]
    exact ⟨⟨hadmins'.trans hadmins, hreported, hafter, hreport ▸ hlength⟩,
      hrequest⟩
  · obtain ⟨rfl, -, rfl⟩ := hoperation
    obtain ⟨hone, htypes⟩ := update_report (req.get "Op-Digest".toList)
      (now 2)
    refine ⟨⟨hadmins, ?_, hcounts.report_of_spare hnow, ?_⟩, rfl⟩
    · intro u hu
      rcases List.mem_append.mp hu with hold | hnew
      · exact hreported u hold
      · exact htypes u hnew
    · rw [StatisticsRing.total_report, List.length_append]
      omega
  · exact (Bool.false_ne_true henabled).elim
  · obtain ⟨rfl, -, rfl⟩ := hoperation
    rw [List.append_nil]
    exact ⟨⟨hadmins, hreported, hcounts.whitelist_of_spare hnow, hlength⟩,
      rfl⟩
  · obtain ⟨rfl, -, rfl⟩ := hoperation
    rw [List.append_nil]
    exact ⟨⟨hadmins, hreported,
      (hcounts.later hnow.clock_le_last).unspent, hlength⟩, rfl⟩

theorem reply (h : Counted admins clock s updates) (hnow : now.Follow clock)
    (stored : Database) (data : Text) (sender : Endpoint) :
    let r := ServerState.reply stored now data sender s
    Counted admins (now 5) r.state (updates ++ r.updates) ∧
      r.state.request_statistics_.total ≤ s.request_statistics_.total + 1 ∧
      (r.shutdown = true → sender.address ∈ admins) := by
  intro r
  obtain ⟨hadmins, hreported, hcounts, hlength⟩ := h
  obtain ⟨hshutdown, hcases⟩ := answerRequest_cases
    (fun s : ServerState => { s with
      request_statistics_ := s.request_statistics_.report (now 0) })
    (s.authorizeAdminRequest sender) (statistics now)
    (ServerState.operation stored now) data s
  have hcounted := hcounts.count hnow
  have hfrom := hnow.from_first
  have htotal := StatisticsRing.total_report s.request_statistics_ (now 0)
  have hadmin : r.shutdown = true → sender.address ∈ admins := by
    intro hdown
    rw [← hadmins]
    exact List.contains_iff_mem.mp (hshutdown hdown)
  rcases hcases with ⟨hstate, hupdates⟩ | ⟨hstate, hupdates⟩ |
    ⟨res, hstate, hupdates⟩ | ⟨req, res, res', hoperation⟩
  · change r.state = s at hstate
    change r.updates = [] at hupdates
    rw [hstate, hupdates, List.append_nil]
    exact ⟨⟨hadmins, hreported, hcounts.later hnow.clock_le_last, hlength⟩,
      Nat.le_succ _, hadmin⟩
  · change r.state = _ at hstate
    change r.updates = [] at hupdates
    rw [hstate, hupdates, List.append_nil]
    exact ⟨⟨hadmins, hreported, (hcounted.later hfrom.clock_le_last).unspent,
      hlength⟩, Nat.le_of_eq htotal, hadmin⟩
  · change r.state = _ at hstate
    change r.updates = [] at hupdates
    rw [hstate, hupdates, List.append_nil]
    refine ⟨⟨hadmins, hreported, hcounted.unspent.statistics hfrom res, ?_⟩,
      ?_, hadmin⟩
    · exact hlength.trans (Nat.le_of_eq (StatisticsRing.total_average _ _).symm)
    · exact Nat.le_of_eq ((StatisticsRing.total_average _ _).trans htotal)
  · obtain ⟨hafter, hsame⟩ := operation
      (s := { s with
        request_statistics_ := s.request_statistics_.report (now 0) })
      hadmins hreported hcounted hfrom hlength hoperation
    refine ⟨hafter, ?_, hadmin⟩
    change r.state.request_statistics_ = _ at hsame
    rw [hsame]
    exact Nat.le_of_eq htotal

end Counted

end ServerState

namespace Server

/-- The signals of the database, which leave the clock alone. -/
def watchedControl (clock : Nat) (server : Server) (c : ServerControl) :
    Option (Server × Nat) :=
  (server.control c).map fun server => (server, clock)

/-- The server with its rings as they are constructed. -/
def watched (admins : List Text) (start : Nat) :
    StepSystem (WatchedServer ServerState ServerControl)
      (UdpEvent ServerControl) :=
  watchedSystem watchedControl ServerState.reply
    (UdpServer.start {
      request_statistics_ := .create 300 start
      check_statistics_ := .create 300 start
      hit_statistics_ := .create 300 start
      report_statistics_ := .create 300 start
      whitelist_statistics_ := .create 300 start
      admin_addresses_ := admins }) start

/-- A step of the server that is watched is one of the server. -/
theorem step_of_watched {admins : List Text} {start : Nat}
    {state : ServerState} {s s' : WatchedServer ServerState ServerControl}
    {event : UdpEvent ServerControl}
    (h : (watched admins start).step s event = some s') :
    (serverSystem state).step s.server event = some s'.server := by
  cases event with
  | control c =>
      obtain ⟨⟨server, clock⟩, hcontrol, rfl⟩ := Option.map_eq_some_iff.mp h
      obtain ⟨server', hserver, heq⟩ := Option.map_eq_some_iff.mp hcontrol
      obtain ⟨rfl, -⟩ := Prod.mk.inj heq
      exact hserver
  | deliver i sender datagram =>
      obtain ⟨socket_, hsocket, rfl⟩ := Option.map_eq_some_iff.mp h
      exact Option.map_eq_some_iff.mpr ⟨socket_, hsocket, rfl⟩
  | fail i =>
      obtain ⟨socket_, hsocket, rfl⟩ := Option.map_eq_some_iff.mp h
      exact Option.map_eq_some_iff.mpr ⟨socket_, hsocket, rfl⟩
  | handleReceiveFrom i stored now =>
      change (if now.Follow s.clock then _ else none) = _ at h
      split_ifs at h
      obtain ⟨taken, htake, rfl⟩ := Option.map_eq_some_iff.mp h
      exact Option.map_eq_some_iff.mpr ⟨taken, htake, rfl⟩
  | readSend j =>
      obtain ⟨socket_, hsocket, rfl⟩ := Option.map_eq_some_iff.mp h
      exact Option.map_eq_some_iff.mpr ⟨socket_, hsocket, rfl⟩
  | handleSendTo j error =>
      obtain ⟨socket_, hsocket, rfl⟩ := Option.map_eq_some_iff.mp h
      exact Option.map_eq_some_iff.mpr ⟨socket_, hsocket, rfl⟩

/-- What the server says and does is accounted for by the datagrams that came
in. -/
structure Accounted (admins : List Text)
    (s : WatchedServer ServerState ServerControl) : Prop where
  consistent : ∀ t, s.clock ≤ t → s.server.state.Consistent t
  requests : s.server.state.request_statistics_.total ≤ s.senders.length
  updates : s.updates.length ≤ s.server.state.report_statistics_.total
  reported : ∀ u ∈ s.updates, u.type = some .report
  shutdown : s.server.shutdown_ = true →
    ∃ sender ∈ s.senders, sender.address ∈ admins

theorem watchedRules (admins : List Text) :
    WatchedServer.Rules watchedControl ServerState.reply
      (ServerState.Counted admins)
      (fun s => s.request_statistics_.total)
      (fun sender => sender.address ∈ admins) fun _ => False where
  later h hnow := h.later hnow
  reply stored data sender h hnow := h.reply hnow stored data sender
  control {t now server server' updates c} h hcontrol := by
    obtain ⟨after, hafter, heq⟩ := Option.map_eq_some_iff.mp hcontrol
    obtain ⟨rfl, rfl⟩ := Prod.mk.inj heq
    cases c with
    | startListening =>
        rw [Server.control] at hafter
        split_ifs at hafter
        obtain rfl := Option.some.inj hafter
        refine ⟨h, rfl, Or.inl, DatagramSocket.stored_asyncReceiveFrom,
          fun senders heard => ?_⟩
        have hopen : server.socket_.openSocket.Heard senders :=
          heard.of_receives rfl fun r hr => Or.inl hr
        exact hopen.asyncReceiveFrom
    | stopListening =>
        rw [Server.control] at hafter
        split_ifs at hafter
        obtain rfl := Option.some.inj hafter
        exact ⟨h, rfl, Or.inl, DatagramSocket.stored_close,
          fun senders heard => heard.close⟩

/-- In every run, on a clock that does not go back from one reading to the
next: the statistics of the server fit together at any time, it has counted no
more requests than datagrams came in, passed on no more updates than it has
counted reports, and is shut down only if a datagram of an admin came in. -/
theorem always_countsRequests (admins : List Text) (start : Nat)
    (events : List (UdpEvent ServerControl)) :
    (watched admins start).Always (Accounted admins) events := by
  refine StepSystem.always_of_invariant _
    (I := WatchedServer.Inv (ServerState.Counted admins)
      (fun s => s.request_statistics_.total)
      (fun sender => sender.address ∈ admins) fun _ => False)
    ⟨ServerState.Counted.create admins start, Or.inr fun r hr =>
      absurd hr List.not_mem_nil, le_refl 0, fun h => by cases h⟩
    (watchedRules admins).inv_step (fun s h => ?_) events
  exact {
    consistent := fun t ht => h.state.counts.consistent ht
    requests := (Nat.le_add_right _ _).trans h.answered
    updates := h.state.updates_le
    reported := h.state.reported
    shutdown := fun hdown => (h.shutdown hdown).resolve_right
      fun ⟨_, _, hstops⟩ => hstops }

end Server

namespace PyzordState

def rings (s : PyzordState) : List StatisticsRing :=
  [s.request_statistics_, s.check_statistics_, s.hit_statistics_]

/-- No more checks were counted than requests, of which `spare` are still to
be counted as one; and no more hits than checks. -/
structure Counts (s : PyzordState) (clock spare : Nat) : Prop where
  request : s.request_statistics_.Tracks clock
  check : s.check_statistics_.Tracks clock
  hit : s.hit_statistics_.Tracks clock
  hit_le : s.hit_statistics_.total ≤ s.check_statistics_.total
  within : s.check_statistics_.total + spare ≤ s.request_statistics_.total

/-- The statistics are those of the requests, and there are no updates. -/
def Counted (clock : Nat) (s : PyzordState) (updates : List Update) : Prop :=
  updates = [] ∧ s.Counts clock 0

/-- What the statistics say at `t` fits together. -/
structure Consistent (s : PyzordState) (t : Nat) : Prop where
  averages : ∀ ring ∈ s.rings, (ring.average t).1 * 300 ≤ ring.total
  total_hits : s.hit_statistics_.total ≤ s.check_statistics_.total
  total_requests : s.check_statistics_.total ≤ s.request_statistics_.total

variable {s : PyzordState} {clock : Nat} {now : Readings}

namespace Counts

theorem later {spare time : Nat} (h : s.Counts clock spare)
    (htime : clock ≤ time) : s.Counts time spare :=
  ⟨h.request.later htime, h.check.later htime, h.hit.later htime, h.hit_le,
    h.within⟩

theorem unspent {spare : Nat} (h : s.Counts clock spare) :
    s.Counts clock 0 :=
  ⟨h.request, h.check, h.hit, h.hit_le,
    (Nat.le_add_right _ spare).trans h.within⟩

theorem count (h : s.Counts clock 0) (hnow : now.Follow clock) :
    Counts { s with
      request_statistics_ := s.request_statistics_.report (now 0) }
      (now 0) 1 where
  request := h.request.report hnow.1 (le_refl _)
  check := h.check.later hnow.1
  hit := h.hit.later hnow.1
  hit_le := h.hit_le
  within := by
    rw [StatisticsRing.total_report]
    exact Nat.succ_le_succ h.within

/-- The timer that reports the statistics reads two of the rings. -/
theorem statisticsUrl (h : s.Counts clock 0) (hnow : now.Follow clock)
    (computerId : Text) :
    (PyzordDaemon.statisticsUrl computerId now s).2.Counts (now 5) 0 := by
  have hcheck := StatisticsRing.total_average s.check_statistics_ (now 0)
  have hhit := StatisticsRing.total_average s.hit_statistics_ (now 1)
  exact ⟨h.request.later hnow.clock_le_last,
    h.check.averageAt hnow 0,
    h.hit.averageAt hnow 1,
    hhit.trans_le (h.hit_le.trans hcheck.ge), hcheck.trans_le h.within⟩

theorem statistics (h : s.Counts clock 0) (hnow : now.Follow clock)
    (res : Packet) : (s.statistics now res).1.Counts (now 5) 0 := by
  have hrequest := StatisticsRing.total_average s.request_statistics_ (now 1)
  have hcheck := StatisticsRing.total_average s.check_statistics_ (now 2)
  have hhit := StatisticsRing.total_average s.hit_statistics_ (now 3)
  exact ⟨h.request.averageAt hnow 1,
    h.check.averageAt hnow 2,
    h.hit.averageAt hnow 3,
    hhit.trans_le (h.hit_le.trans hcheck.ge),
    hcheck.trans_le (h.within.trans hrequest.ge)⟩

theorem check_of_spare (h : s.Counts clock 1) (hnow : now.Follow clock)
    (stored : Database) (digest : Text) (res : Packet) :
    (s.check stored now digest res).1.Counts (now 5) 0 := by
  have hlater := h.later hnow.clock_le_last
  have hcheck := h.check.reportAt hnow 1
  have htotal := StatisticsRing.total_report s.check_statistics_ (now 1)
  simp only [PyzordState.check]
  split_ifs
  · refine ⟨hlater.request, hcheck,
      h.hit.reportAt hnow 2, ?_, ?_⟩
    · rw [StatisticsRing.total_report, StatisticsRing.total_report]
      exact Nat.succ_le_succ h.hit_le
    · rw [htotal]
      exact h.within
  · refine ⟨hlater.request, hcheck, hlater.hit, ?_, ?_⟩
    · rw [htotal]
      exact h.hit_le.trans (Nat.le_succ _)
    · rw [htotal]
      exact h.within

theorem consistent {spare t : Nat} (h : s.Counts clock spare)
    (ht : clock ≤ t) : s.Consistent t where
  averages := by
    simp only [rings, List.forall_mem_cons]
    exact ⟨h.request.average_mul_le ht, h.check.average_mul_le ht,
      h.hit.average_mul_le ht, fun _ hnone => absurd hnone List.not_mem_nil⟩
  total_hits := h.hit_le
  total_requests := (Nat.le_add_right _ _).trans h.within

end Counts

/-- An operation of a request that was counted. -/
theorem Counts.operation (h : s.Counts clock 1) (hnow : now.Follow clock)
    {stored : Database} {req res res' : Packet} {s' : PyzordState}
    {updates : List Update}
    (hoperation : s.operation stored now req res =
      some (s', res', updates)) :
    Counted (now 5) s' updates ∧
      s'.request_statistics_ = s.request_statistics_ := by
  unfold PyzordState.operation at hoperation
  simp only at hoperation
  split_ifs at hoperation
  · obtain ⟨rfl, -, rfl⟩ := hoperation
    refine ⟨⟨rfl, h.check_of_spare hnow stored _ res⟩, ?_⟩
    simp only [PyzordState.check]
    split_ifs <;> rfl
  · obtain ⟨rfl, -, rfl⟩ := hoperation
    exact ⟨⟨rfl, (h.later hnow.clock_le_last).unspent⟩, rfl⟩

theorem Counted.reply {updates : List Update}
    (h : Counted clock s updates) (hnow : now.Follow clock)
    (stored : Database) (data : Text) (sender : Endpoint) :
    let r := PyzordState.reply stored now data sender s
    Counted (now 5) r.state (updates ++ r.updates) ∧
      r.state.request_statistics_.total ≤ s.request_statistics_.total + 1 ∧
      (r.shutdown = true → sender.address = "127.0.0.1".toList) := by
  intro r
  obtain ⟨rfl, hcounts⟩ := h
  obtain ⟨hshutdown, hcases⟩ := answerRequest_cases
    (fun s : PyzordState => { s with
      request_statistics_ := s.request_statistics_.report (now 0) })
    (authorizeAdminRequest sender) (PyzordState.statistics now)
    (PyzordState.operation stored now) data s
  have hcounted := hcounts.count hnow
  have hfrom := hnow.from_first
  have htotal := StatisticsRing.total_report s.request_statistics_ (now 0)
  have hadmin : r.shutdown = true → sender.address = "127.0.0.1".toList :=
    fun hdown => of_decide_eq_true (hshutdown hdown)
  rcases hcases with ⟨hstate, hupdates⟩ | ⟨hstate, hupdates⟩ |
    ⟨res, hstate, hupdates⟩ | ⟨req, res, res', hoperation⟩
  · change r.state = s at hstate
    change r.updates = [] at hupdates
    rw [hstate, hupdates]
    exact ⟨⟨rfl, hcounts.later hnow.clock_le_last⟩, Nat.le_succ _, hadmin⟩
  · change r.state = _ at hstate
    change r.updates = [] at hupdates
    rw [hstate, hupdates]
    exact ⟨⟨rfl, (hcounted.later hfrom.clock_le_last).unspent⟩,
      Nat.le_of_eq htotal, hadmin⟩
  · change r.state = _ at hstate
    change r.updates = [] at hupdates
    rw [hstate, hupdates]
    refine ⟨⟨rfl, hcounted.unspent.statistics hfrom res⟩, ?_, hadmin⟩
    exact Nat.le_of_eq ((StatisticsRing.total_average _ _).trans htotal)
  · obtain ⟨hafter, hsame⟩ := Counts.operation hcounted hfrom hoperation
    change r.state.request_statistics_ = _ at hsame
    rw [List.nil_append, hsame]
    exact ⟨hafter, Nat.le_of_eq htotal, hadmin⟩

end PyzordState

/-- What happens to the daemon besides datagrams: it is stopped, or its timer
reports the statistics. -/
inductive PyzordSignal where
  | handleStop
  | statistics (computerId : Text) (now : Readings)

namespace Pyzord

def watchedControl (clock : Nat) (server : Pyzord) :
    PyzordSignal → Option (Pyzord × Nat)
  | .handleStop => some (server.handleStop, clock)
  | .statistics computerId now =>
      if now.Follow clock then
        some ({ server with
          state := (PyzordDaemon.statisticsUrl computerId now
            server.state).2 }, now 5)
      else none

/-- The daemon with its rings as they are constructed. -/
def watched (start : Nat) :
    StepSystem (WatchedServer PyzordState PyzordSignal)
      (UdpEvent PyzordSignal) :=
  watchedSystem watchedControl PyzordState.reply
    (pyzordSystem {
      request_statistics_ := .create 300 start
      check_statistics_ := .create 300 start
      hit_statistics_ := .create 300 start }).init start

/-- What the daemon says and does is accounted for by the datagrams that came
in. -/
structure Accounted (s : WatchedServer PyzordState PyzordSignal) : Prop where
  consistent : ∀ t, s.clock ≤ t → s.server.state.Consistent t
  requests : s.server.state.request_statistics_.total ≤ s.senders.length
  updates : s.updates = []
  shutdown : s.server.shutdown_ = true →
    (∃ sender ∈ s.senders, sender.address = "127.0.0.1".toList) ∨
      .handleStop ∈ s.controls

theorem watchedRules :
    WatchedServer.Rules watchedControl PyzordState.reply PyzordState.Counted
      (fun s => s.request_statistics_.total)
      (fun sender => sender.address = "127.0.0.1".toList)
      (· = .handleStop) where
  later h hnow := ⟨h.1, h.2.later hnow⟩
  reply stored data sender h hnow := h.reply hnow stored data sender
  control {t now server server' updates c} h hcontrol := by
    cases c with
    | handleStop =>
        obtain ⟨rfl, rfl⟩ := Prod.mk.inj (Option.some.inj hcontrol)
        exact ⟨h, rfl, fun _ => Or.inr rfl, DatagramSocket.stored_close,
          fun senders heard => heard.close⟩
    | statistics computerId readings =>
        rw [watchedControl] at hcontrol
        split_ifs at hcontrol with hreadings
        obtain ⟨rfl, rfl⟩ := Prod.mk.inj (Option.some.inj hcontrol)
        exact ⟨⟨h.1, h.2.statisticsUrl hreadings computerId⟩, rfl, Or.inl,
          rfl, fun senders heard => heard⟩

/-- In every run, on a clock that does not go back from one reading to the
next: the statistics of the daemon fit together at any time, it has counted no
more requests than datagrams came in, passes on no updates, and is shut down
only if a datagram of its own host came in or it was stopped. -/
theorem always_countsChecks (start : Nat)
    (events : List (UdpEvent PyzordSignal)) :
    (watched start).Always Accounted events := by
  have hring := StatisticsRing.Tracks.create start
  refine StepSystem.always_of_invariant _
    (I := WatchedServer.Inv PyzordState.Counted
      (fun s => s.request_statistics_.total)
      (fun sender => sender.address = "127.0.0.1".toList) (· = .handleStop))
    ⟨⟨rfl, hring, hring, hring, le_refl _, le_refl _⟩, ?_, le_refl 0,
      fun h => by cases h⟩
    watchedRules.inv_step (fun s h => ?_) events
  · refine DatagramSocket.Heard.asyncReceiveFrom (Or.inr fun r hr => ?_)
    exact absurd hr List.not_mem_nil
  · exact {
      consistent := fun t ht => h.state.2.consistent ht
      requests := (Nat.le_add_right _ _).trans h.answered
      updates := h.state.1
      shutdown := fun hdown => (h.shutdown hdown).imp_right
        fun ⟨c, hc, hstops⟩ => hstops ▸ hc }

end Pyzord

end BohunoPyzord
