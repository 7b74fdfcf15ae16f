/-
The one buffer of a daemon.  The reply is written over the request, and the
next receive is started over it while the send of the reply may still have to
read it; nothing but the order of the completions keeps the two apart.
-/
import BohunoPyzord.UdpServer

namespace BohunoPyzord

namespace UdpServer

variable {S C : Type}

/-- The handler of a request that was received would send the archived reply
to that request to where the request came from. -/
def Answers (reply : Database → Readings → Text → Endpoint → S → Reply S)
    (server : UdpServer S) : Prop :=
  ∀ i, ∀ r ∈ server.socket_.receives[i]?, ∀ sender request,
    r.arrived = some (sender, request) → request ≠ [] → ∀ stored now,
      let archived :=
        (reply stored now request sender server.state).res.archive maxLength
      (handleReceiveFrom (reply stored now)
          { server with socket_ := { server.socket_ with
            receives := server.socket_.receives.eraseIdx i } }
          (some request.length)).1.socket_.sends =
        server.socket_.sends ++
          [{ destination := sender, reply := archived.1.take archived.2
             read := none, live := server.socket_.isOpen }]

/-- Every send that has read the buffer has read the reply that it was started
for. -/
def ReadsReplies (server : UdpServer S) : Prop :=
  ∀ send ∈ server.socket_.sends ++ server.socket_.sent,
    ∀ units ∈ send.read, units = send.reply

instance (server : UdpServer S) : Decidable server.ReadsReplies :=
  inferInstanceAs (Decidable (∀ send ∈ _, ∀ units ∈ _, _))

/-- What is sent in answer to a request is the archived reply to it. -/
def RepliesSent (reply : Database → Readings → Text → Endpoint → S → Reply S)
    (server : UdpServer S) : Prop :=
  server.Answers reply ∧ server.ReadsReplies

theorem receiveNext_sends (server : UdpServer S) :
    server.receiveNext.socket_.sends = server.socket_.sends := by
  unfold receiveNext
  split <;> rfl

/-- A request that is still in the buffer is answered as it was received. -/
theorem answers_of_kept {server : UdpServer S} (h : server.socket_.Kept)
    (reply : Database → Readings → Text → Endpoint → S → Reply S) :
    server.Answers reply := by
  intro i r hr sender request harrived hrequest stored now
  have hmem : r ∈ server.socket_.receives := List.mem_of_getElem? hr
  obtain ⟨hsender, hbuffer⟩ := h r hmem _ harrived
  have hpos : request.length > 0 := List.length_pos_of_ne_nil hrequest
  simp only [handleReceiveFrom, hpos, ↓reduceIte, receiveNext_sends, answer,
    DatagramSocket.asyncSendTo]
  rw [hsender, hbuffer]

/-- A datagram is stored, and a reply written over one, only when no other
request waits in the buffer and every send has read it. -/
def BufferFree (server : UdpServer S) : UdpEvent C → Prop
  | .deliver _ _ datagram =>
      ¬ server.socket_.Unhandled ∧
        (datagram ≠ [] → ¬ server.socket_.Unread)
  | .handleReceiveFrom i _ _ =>
      ∀ r ∈ server.socket_.receives[i]?, ∀ arrived ∈ r.arrived,
        arrived.2 ≠ [] →
          ¬ DatagramSocket.Unhandled { server.socket_ with
            receives := server.socket_.receives.eraseIdx i } ∧
          ¬ server.socket_.Unread
  | _ => True

instance (server : UdpServer S) (event : UdpEvent C) :
    Decidable (server.BufferFree event) :=
  match event with
  | .deliver _ _ _ => inferInstanceAs (Decidable (_ ∧ (_ → _)))
  | .handleReceiveFrom _ _ _ =>
      inferInstanceAs (Decidable (∀ r ∈ _, ∀ arrived ∈ _, _ → _ ∧ _))
  | .control _ | .fail _ | .readSend _ | .handleSendTo _ _ => isTrue trivial

theorem intact_receiveNext {server : UdpServer S}
    (h : server.socket_.Intact) : server.receiveNext.socket_.Intact := by
  unfold receiveNext
  split
  · exact h.frame h.kept.asyncReceiveFrom rfl rfl rfl
  · exact h

/-- Answering a request while nothing else has to do with the buffer. -/
theorem intact_handleReceiveFrom (server : UdpServer S)
    (h : server.socket_.Intact)
    (reply : Text → Endpoint → S → Reply S) {outcome : Option Nat}
    (hfree : ∀ n, outcome = some n → n > 0 →
      ¬ server.socket_.Unhandled ∧ ¬ server.socket_.Unread) :
    (server.handleReceiveFrom reply outcome).1.socket_.Intact := by
  cases outcome with
  | none => exact intact_receiveNext h
  | some n =>
      unfold handleReceiveFrom
      by_cases hn : n > 0
      · simp only [hn, ↓reduceIte]
        obtain ⟨hhandled, hread⟩ := hfree n rfl hn
        apply intact_receiveNext
        have hwritten : DatagramSocket.Intact { server.socket_ with
            buffer := ((reply (server.socket_.buffer.take n)
              server.socket_.sender server.state).res.archive
                maxLength).1 } :=
          h.write (DatagramSocket.Kept.of_not_unhandled hhandled) hread rfl
            rfl
        exact hwritten.asyncSendTo _
      · simp only [hn, ↓reduceIte]
        exact intact_receiveNext h

/-- One step, however the daemon is controlled. -/
theorem intact_step {control : UdpServer S → C → Option (UdpServer S)}
    {reply : Database → Readings → Text → Endpoint → S → Reply S}
    (hcontrol : ∀ {server server' c}, server.socket_.Intact →
      control server c = some server' → server'.socket_.Intact)
    {server server' : UdpServer S} {event : UdpEvent C}
    (h : server.socket_.Intact) (hguard : server.BufferFree event)
    (hstep : server.step control (fun stored now server outcome =>
      server.handleReceiveFrom (reply stored now) outcome) event =
        some server') : server'.socket_.Intact := by
  cases event with
  | control c => exact hcontrol h hstep
  | deliver i sender datagram =>
      obtain ⟨socket, hsocket, rfl⟩ := Option.map_eq_some_iff.mp hstep
      have hkept := DatagramSocket.Kept.deliver hguard.1 hsocket
      obtain ⟨r, -, rfl⟩ := DatagramSocket.deliver_eq_some hsocket
      by_cases hempty : datagram = []
      · subst hempty
        exact h.frame hkept (by simp) rfl rfl
      · exact h.write hkept (hguard.2 hempty) rfl rfl
  | fail i =>
      obtain ⟨socket, hsocket, rfl⟩ := Option.map_eq_some_iff.mp hstep
      have hkept := h.kept.fail hsocket
      obtain ⟨r, -, rfl⟩ := DatagramSocket.fail_eq_some hsocket
      exact h.frame hkept rfl rfl rfl
  | handleReceiveFrom i stored now =>
      obtain ⟨⟨outcome, socket⟩, hsocket, rfl⟩ :=
        Option.map_eq_some_iff.mp hstep
      have hkept := h.kept.takeReceive hsocket
      obtain ⟨r, hr, houtcome, rfl⟩ :=
        DatagramSocket.takeReceive_eq_some hsocket
      have hreceived : DatagramSocket.Intact { server.socket_ with
          receives := server.socket_.receives.eraseIdx i } :=
        h.frame hkept rfl rfl rfl
      refine intact_handleReceiveFrom { server with
        socket_ := { server.socket_ with
          receives := server.socket_.receives.eraseIdx i } } hreceived
        (reply stored now) ?_
      rintro n rfl hn
      obtain ⟨arrived, harrived, rfl⟩ :=
        Option.map_eq_some_iff.mp houtcome.symm
      exact hguard r hr arrived harrived (List.ne_nil_of_length_pos hn)
  | readSend j =>
      obtain ⟨socket, hsocket, rfl⟩ := Option.map_eq_some_iff.mp hstep
      exact h.readSend hsocket
  | handleSendTo j error =>
      obtain ⟨socket, hsocket, rfl⟩ := Option.map_eq_some_iff.mp hstep
      exact h.completeSend hsocket

end UdpServer

theorem Server.intact_step (state : ServerState) :
    (serverSystem state).Preserves (fun server => server.socket_.Intact)
      UdpServer.BufferFree := by
  intro server server' event h hguard hstep
  refine UdpServer.intact_step ?_ h hguard hstep
  intro server server' c h hcontrol
  cases c with
  | startListening =>
      rw [control] at hcontrol
      split at hcontrol
      · cases hcontrol
      · obtain rfl := Option.some.inj hcontrol
        exact h.frame h.kept.openSocket.asyncReceiveFrom rfl rfl rfl
  | stopListening =>
      rw [control] at hcontrol
      split at hcontrol
      · obtain rfl := Option.some.inj hcontrol
        exact h.close
      · cases hcontrol

theorem Pyzord.intact_step (state : PyzordState) :
    (pyzordSystem state).Preserves (fun server => server.socket_.Intact)
      UdpServer.BufferFree := by
  intro server server' event h hguard hstep
  refine UdpServer.intact_step ?_ h hguard hstep
  intro server server' c h hcontrol
  obtain rfl := Option.some.inj hcontrol
  exact h.close

theorem Pyzord.intact_init (state : PyzordState) :
    (pyzordSystem state).init.socket_.Intact := by
  have hclosed : (UdpServer.start state).socket_.Intact :=
    DatagramSocket.Intact.closed _ _
  exact hclosed.frame hclosed.kept.openSocket.asyncReceiveFrom rfl rfl rfl

/-- Over every run of either daemon in which the buffer is written only when
nothing else has to do with it, each request is answered as it was received
and what is sent is the reply. -/
theorem udpServers_repliesSent (server : ServerState)
    (serverEvents : List (UdpEvent ServerControl)) (pyzord : PyzordState)
    (pyzordEvents : List (UdpEvent PyzordControl)) :
    ((serverSystem server).Each UdpServer.BufferFree serverEvents →
      (serverSystem server).Always (UdpServer.RepliesSent ServerState.reply)
        serverEvents) ∧
    ((pyzordSystem pyzord).Each UdpServer.BufferFree pyzordEvents →
      (pyzordSystem pyzord).Always (UdpServer.RepliesSent PyzordState.reply)
        pyzordEvents) := by
  constructor
  · intro heach
    exact (serverSystem server).alwaysFrom_of_eachFrom
      (Server.intact_step server) (fun _ h => ⟨UdpServer.answers_of_kept h.kept _, h.read⟩)
      (DatagramSocket.Intact.closed _ _) heach
  · intro heach
    exact (pyzordSystem pyzord).alwaysFrom_of_eachFrom
      (Pyzord.intact_step pyzord) (fun _ h => ⟨UdpServer.answers_of_kept h.kept _, h.read⟩)
      (Pyzord.intact_init pyzord) heach

/-- A server that was started in second 100. -/
def freshServer : ServerState :=
  let ring := StatisticsRing.create 300 100
  { request_statistics_ := ring, check_statistics_ := ring
    hit_statistics_ := ring, report_statistics_ := ring
    whitelist_statistics_ := ring, admin_addresses_ := [] }

def freshPyzord : PyzordState :=
  let ring := StatisticsRing.create 300 100
  { request_statistics_ := ring, check_statistics_ := ring
    hit_statistics_ := ring }

def pingRequest : Text := "Op: ping\nPV: 2.0\nThread: 1\nTime: 1\n".toList

def firstClient : Endpoint := { address := "192.0.2.1".toList, port := 5000 }

def secondClient : Endpoint := { address := "192.0.2.2".toList, port := 5000 }

/-- The reply to the first client is read before the second one asks. -/
def readInTime {C : Type} : List (UdpEvent C) :=
  [.deliver 0 firstClient pingRequest,
    .handleReceiveFrom 0 ∅ fun _ => 100,
    .readSend 0, .deliver 0 secondClient pingRequest, .handleSendTo 0 false]

theorem udpServers_repliesSent_readInTime :
    (serverSystem freshServer).Always (UdpServer.RepliesSent ServerState.reply)
        (.control .startListening :: readInTime) ∧
      (pyzordSystem freshPyzord).Always
        (UdpServer.RepliesSent PyzordState.reply) readInTime :=
  (udpServers_repliesSent freshServer _ freshPyzord _).imp
    (fun h => h (by decide +kernel)) fun h => h (by decide +kernel)

/-- The request of a second client arrives before the reply to the first one
is read. -/
def overwritten : List (UdpEvent ServerControl) :=
  [.control .startListening, .deliver 0 firstClient pingRequest,
    .handleReceiveFrom 0 ∅ (fun _ => 100),
    .deliver 0 secondClient pingRequest,
    .readSend 0]

theorem server_not_always_repliesSent :
    ¬ ∀ state events, (serverSystem state).Always
      (UdpServer.RepliesSent ServerState.reply) events := by
  intro h
  have hbad : ((serverSystem freshServer).run overwritten).any
      (fun server => !decide server.ReadsReplies) = true := by
    decide +kernel
  obtain ⟨server, hrun, hnot⟩ := Option.any_eq_true _ _ |>.mp hbad
  have hsent := (serverSystem freshServer).alwaysFrom_iff.mp
    (h freshServer overwritten) overwritten server List.prefix_rfl hrun
  simp [hsent.2] at hnot

end BohunoPyzord
