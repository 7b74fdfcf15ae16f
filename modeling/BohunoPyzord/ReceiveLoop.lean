/-
The receive loop of the server.  It is started with the listener and keeps
itself going; closing the socket ends it only if the handler that is called
for the overtaken receive does not start another one.
-/
import BohunoPyzord.UdpServer

namespace BohunoPyzord

/-- The server without shutdown: no step answers an authorized request for
it. -/
def runningServerSystem (state : ServerState) :
    StepSystem Server (UdpEvent ServerControl) where
  init := (serverSystem state).init
  step server event :=
    ((serverSystem state).step server event).filter fun server' =>
      !server'.shutdown_

namespace Server

/-- One receive is outstanding while the server listens, and none but those
that the closing of the socket overtook while it does not. -/
def OneReceive (server : Server) : Prop :=
  server.socket_.standing = if server.socket_.isOpen then 1 else 0

instance (server : Server) : Decidable server.OneReceive :=
  inferInstanceAs (Decidable (_ = _))

/-- The handler of a receive that the closing of the socket overtook is not
run. -/
def NotOvertaken (server : Server) : UdpEvent ServerControl → Prop
  | .handleReceiveFrom i _ _ =>
      ∀ r ∈ server.socket_.receives[i]?, r.overtaken = false
  | _ => True

end Server

namespace UdpServer

variable {S : Type}

theorem receiveNext_receives {server : UdpServer S}
    (h : server.receiveNext.shutdown_ = false) :
    server.receiveNext.socket_.standing = server.socket_.standing + 1 ∧
      server.receiveNext.socket_.isOpen = server.socket_.isOpen := by
  unfold receiveNext at h ⊢
  by_cases hdown : server.shutdown_ = true
  · simp [hdown] at h
  · simp only [hdown, Bool.not_false, ↓reduceIte]
    exact ⟨DatagramSocket.standing_asyncReceiveFrom _, rfl⟩

/-- Whatever a receive came to, its handler starts another one. -/
theorem handleReceiveFrom_receives {server : UdpServer S}
    {reply : Text → Endpoint → S → Reply S} {outcome : Option Nat}
    (h : (server.handleReceiveFrom reply outcome).1.shutdown_ = false) :
    (server.handleReceiveFrom reply outcome).1.socket_.standing =
        server.socket_.standing + 1 ∧
      (server.handleReceiveFrom reply outcome).1.socket_.isOpen =
        server.socket_.isOpen := by
  cases outcome with
  | none => exact receiveNext_receives h
  | some n =>
      unfold handleReceiveFrom at h ⊢
      by_cases hn : n > 0
      · simp only [hn, ↓reduceIte] at h ⊢
        exact receiveNext_receives h
      · simp only [hn, ↓reduceIte] at h ⊢
        exact receiveNext_receives h

end UdpServer

namespace Server

variable {state : ServerState}

/-- A step of the server that is not shut down is one of the server. -/
theorem running_step {server server' : Server}
    {event : UdpEvent ServerControl}
    (hstep : (runningServerSystem state).step server event = some server') :
    UdpServer.step control handleReceiveFrom server event = some server' ∧
      server'.shutdown_ = false := by
  obtain ⟨hstep', hup⟩ := Option.filter_eq_some_iff.mp hstep
  exact ⟨hstep', by simpa using hup⟩

/-- Running the handler of a receive changes their number by whether that
receive still stood. -/
theorem standing_step {server server' : Server} {i : Nat}
    {stored : Database} {now : Readings}
    (hstep : (runningServerSystem state).step server
      (.handleReceiveFrom i stored now) = some server') :
    ∃ r, server.socket_.receives[i]? = some r ∧
      server'.socket_.isOpen = server.socket_.isOpen ∧
      server'.socket_.standing = server.socket_.standing +
        if r.overtaken then 1 else 0 := by
  obtain ⟨hrun, hup⟩ := running_step hstep
  obtain ⟨⟨outcome, socket⟩, hsocket, rfl⟩ :=
    Option.map_eq_some_iff.mp hrun
  obtain ⟨r, hr, hstanding⟩ := DatagramSocket.standing_takeReceive hsocket
  obtain ⟨-, -, -, hsame⟩ := DatagramSocket.takeReceive_eq_some hsocket
  obtain ⟨hcount, hopen⟩ := UdpServer.handleReceiveFrom_receives hup
  refine ⟨r, hr, hopen.trans (by rw [hsame]), hcount.trans ?_⟩
  rw [hstanding]
  cases r.overtaken <;> rfl

theorem oneReceive_init : (runningServerSystem state).init.OneReceive := rfl

/-- One step, as long as no overtaken receive is handled. -/
theorem oneReceive_step : (runningServerSystem state).Preserves OneReceive
    NotOvertaken := by
  intro server server' event h hguard hstep
  cases event with
  | control c =>
      obtain ⟨hrun, -⟩ := running_step hstep
      change server.control c = some server' at hrun
      cases c with
      | startListening =>
          rw [control] at hrun
          split at hrun
          · cases hrun
          · rename_i hclosed
            obtain rfl := Option.some.inj hrun
            rw [OneReceive, if_neg hclosed] at h
            rw [OneReceive, startListening,
              DatagramSocket.standing_asyncReceiveFrom]
            exact congrArg (· + 1) h
      | stopListening =>
          rw [control] at hrun
          split at hrun
          · obtain rfl := Option.some.inj hrun
            exact DatagramSocket.standing_close _
          · cases hrun
  | deliver i sender datagram =>
      obtain ⟨hrun, -⟩ := running_step hstep
      obtain ⟨socket, hsocket, rfl⟩ := Option.map_eq_some_iff.mp hrun
      have hstanding := DatagramSocket.standing_deliver hsocket
      obtain ⟨r, hr, rfl⟩ := DatagramSocket.deliver_eq_some hsocket
      exact hstanding.trans h
  | fail i =>
      obtain ⟨hrun, -⟩ := running_step hstep
      obtain ⟨socket, hsocket, rfl⟩ := Option.map_eq_some_iff.mp hrun
      have hstanding := DatagramSocket.standing_fail hsocket
      obtain ⟨r, hr, rfl⟩ := DatagramSocket.fail_eq_some hsocket
      exact hstanding.trans h
  | handleReceiveFrom i stored now =>
      obtain ⟨r, hr, hopen, hstanding⟩ := standing_step hstep
      have hstood : r.overtaken = false := hguard r hr
      rw [OneReceive, hopen, hstanding, hstood]
      exact h
  | readSend j =>
      obtain ⟨hrun, -⟩ := running_step hstep
      obtain ⟨socket, hsocket, rfl⟩ := Option.map_eq_some_iff.mp hrun
      obtain ⟨-, -, -, -, rfl⟩ := DatagramSocket.readSend_eq_some hsocket
      exact h
  | handleSendTo j error =>
      obtain ⟨hrun, -⟩ := running_step hstep
      obtain ⟨socket, hsocket, rfl⟩ := Option.map_eq_some_iff.mp hrun
      obtain ⟨-, -, rfl⟩ := DatagramSocket.completeSend_eq_some hsocket
      exact h

/-- The handler of an overtaken receive starts one over a socket that is
closed, or that has its own again. -/
theorem not_oneReceive_of_overtaken {server server' : Server}
    {event : UdpEvent ServerControl} (h : server.OneReceive)
    (hstep : (runningServerSystem state).step server event = some server')
    (hovertaken : ¬ server.NotOvertaken event) : ¬ server'.OneReceive := by
  cases event with
  | handleReceiveFrom i stored now =>
      obtain ⟨r, hr, hopen, hstanding⟩ := standing_step hstep
      have hlate : r.overtaken = true := by
        by_contra hstood
        apply hovertaken
        intro r' hr'
        obtain rfl := Option.some.inj (hr.symm.trans hr')
        exact Bool.eq_false_iff.mpr hstood
      intro hone
      rw [OneReceive, hopen, hstanding, hlate, if_pos rfl] at hone
      rw [OneReceive] at h
      omega
  | control c => exact (hovertaken trivial).elim
  | deliver i sender datagram => exact (hovertaken trivial).elim
  | fail i => exact (hovertaken trivial).elim
  | readSend j => exact (hovertaken trivial).elim
  | handleSendTo j error => exact (hovertaken trivial).elim

end Server

/-- The runs without shutdown that keep one receive outstanding while the
server listens are exactly those in which no handler of a receive is run that
the closing of the socket overtook. -/
theorem server_oneReceive_iff (state : ServerState)
    (events : List (UdpEvent ServerControl)) :
    (runningServerSystem state).Always Server.OneReceive events ↔
      (runningServerSystem state).Each Server.NotOvertaken events :=
  (runningServerSystem state).always_iff_each Server.oneReceive_init
    Server.oneReceive_step (fun _ h => h)
    (fun h hstep hlate => Server.not_oneReceive_of_overtaken h hstep hlate)
    events

/-- The database goes down and comes up again, and the receive of the first
time is handled after that. -/
def downAndUp : List (UdpEvent ServerControl) :=
  [.control .startListening, .control .stopListening,
    .control .startListening, .handleReceiveFrom 0 ∅ fun _ => 100]

theorem server_not_always_oneReceive :
    ¬ ∀ state events,
      (runningServerSystem state).Always Server.OneReceive events := by
  intro h
  let ring := StatisticsRing.create 300 100
  let state : ServerState :=
    { request_statistics_ := ring, check_statistics_ := ring
      hit_statistics_ := ring, report_statistics_ := ring
      whitelist_statistics_ := ring, admin_addresses_ := [] }
  have hbad : ((runningServerSystem state).run downAndUp).any
      (fun server => !decide server.OneReceive) = true := by
    decide +kernel
  obtain ⟨server, hrun, hnot⟩ := Option.any_eq_true _ _ |>.mp hbad
  have hone := (runningServerSystem state).alwaysFrom_iff.mp
    (h state downAndUp) downAndUp server List.prefix_rfl hrun
  simp [hone] at hnot

end BohunoPyzord
