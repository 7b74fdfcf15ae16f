/-
Which of the updates that were passed to a slave are lost.  A connection may
break over what it has taken over, and what the session of the master has not
read by then it never reads.  Nothing else is ever lost.
-/
import BohunoPyzord.ClusterLedger

namespace BohunoPyzord

theorem flatMap_sublist {α β : Type} {f g : α → List β} {items : List α}
    (h : ∀ item ∈ items, (f item).Sublist (g item)) :
    (items.flatMap f).Sublist (items.flatMap g) := by
  induction items with
  | nil => exact List.Sublist.refl []
  | cons item items ih =>
      rw [List.flatMap_cons, List.flatMap_cons]
      exact (h item List.mem_cons_self).append
        (ih fun other hother => h other (List.mem_cons_of_mem item hother))

/-- The updates that are being written. -/
theorem SlaveRun.Inv.writing {s : SlaveRun} (h : s.Inv) : s.slave.link.writing =
    if s.slave.connected_ then s.slave.update_queue_.take 1 else [] :=
  h.queue.writing

namespace MasterSession

/-- How many updates the session has read or can read to the end. -/
def readable (session : MasterSession) : Nat :=
  session.stream.received.length +
    (session.stream.buffer.length + session.stream.inFlight.length) /
      Update.framing.size

/-- What is lost of the updates that the connection has taken over. -/
def lost (session : MasterSession) (taken : List Update) : List Update :=
  if session.stream.broken then taken.drop session.readable else []

variable {session : MasterSession}

theorem received_le_readable : session.stream.received.length ≤
    session.readable := Nat.le_add_right _ _

theorem readable_read {n : Nat} (hn : n ≤ session.stream.inFlight.length) :
    (session.read n).readable = session.readable := by
  simp only [readable, read, FrameStream.read, List.length_append,
    List.length_take, List.length_drop, Nat.min_eq_left hn]
  congr 2
  omega

theorem readable_handleRead
    (hfull : session.stream.buffer.length = Update.framing.size) :
    (session.handleRead false).readable = session.readable := by
  simp only [readable, handleRead, FrameStream.receive, Bool.not_false,
    ↓reduceIte, List.length_append, List.length_singleton, List.length_nil,
    Nat.zero_add, hfull, Nat.add_div_left _ Update.framing.size_pos]
  omega

theorem lost_of_same {session' : MasterSession}
    (hbroken : session'.stream.broken = session.stream.broken)
    (hreadable : session'.readable = session.readable)
    (taken : List Update) : session'.lost taken = session.lost taken := by
  rw [lost, lost, hbroken, hreadable]

/-- What is in flight is gone with the connection. -/
theorem lost_breakOff {session' : MasterSession}
    (hstream : session'.stream = session.stream.breakOff)
    (taken : List Update) : (session.lost taken).Sublist
      (session'.lost taken) := by
  have hbroken : session'.stream.broken = true := by rw [hstream]; rfl
  have hless : session'.readable ≤ session.readable := by
    rw [readable, readable, hstream]
    refine Nat.add_le_add_left (Nat.div_le_div_right ?_) _
    exact Nat.add_le_add_left (Nat.zero_le _) _
  rw [lost, lost, hbroken, if_pos rfl]
  split_ifs
  · exact List.drop_sublist_drop_left taken hless
  · exact List.nil_sublist _

end MasterSession

namespace Transport

variable {t t' : Transport}

/-- The outstanding write, once all its bytes have been taken over. -/
def takenOver (t : Transport) : List Update :=
  if t.transferred = Update.framing.size then
    t.slave.slave.update_queue_.take 1
  else []

/-- The updates that the master can never be given. -/
def lost (t : Transport) : List Update :=
  match t.sessions with
  | [] => []
  | session :: earlier =>
      earlier.reverse.flatMap (fun other => other.lost other.stream.sent) ++
        session.lost (session.stream.sent ++ t.takenOver)

theorem takenOver_of_less (h : t.transferred < Update.framing.size) :
    t.takenOver = [] := if_neg h.ne

/-- With nothing taken over beyond what was handed to the connections. -/
theorem lost_of_takenOver (h : t.takenOver = []) : t.lost =
    t.sessions.reverse.flatMap fun other => other.lost other.stream.sent := by
  rw [lost]
  rcases hsessions : t.sessions with - | ⟨session, earlier⟩
  · rfl
  · simp only [h, List.append_nil, List.reverse_cons, List.flatMap_append,
      List.flatMap_singleton]

/-- What is lost over one of the connections. -/
theorem lost_set {k : Nat} {session : MasterSession}
    (hk : t.sessions[k]? = some session) : ∃ before taken after,
      ∀ session', session'.stream.sent = session.stream.sent →
        lost { t with sessions := t.sessions.set k session' } =
          before ++ session'.lost taken ++ after := by
  rcases hsessions : t.sessions with - | ⟨current, earlier⟩
  · rw [hsessions] at hk
    cases hk
  · rw [hsessions] at hk
    cases k with
    | zero =>
        obtain rfl := Option.some.inj hk
        refine ⟨earlier.reverse.flatMap fun other =>
          other.lost other.stream.sent, current.stream.sent ++ t.takenOver, [],
          fun session' hsent => ?_⟩
        rw [List.append_nil, ← hsent]
        rfl
    | succ k =>
        obtain ⟨hk', -⟩ := List.getElem?_eq_some_iff.mp hk
        have hk'' : k < earlier.length := Nat.lt_of_succ_lt_succ hk'
        refine ⟨(earlier.drop (k + 1)).reverse.flatMap fun other =>
          other.lost other.stream.sent, session.stream.sent,
          ((earlier.take k).reverse.flatMap fun other =>
            other.lost other.stream.sent) ++
              current.lost (current.stream.sent ++ t.takenOver),
          fun session' hsent => ?_⟩
        rw [← hsent]
        change ((earlier.set k session').reverse.flatMap _) ++ _ = _
        rw [List.set_eq_take_append_cons_drop, if_pos hk'']
        simp only [List.reverse_append, List.reverse_cons,
          List.flatMap_append, List.flatMap_singleton, List.append_assoc]
        rfl

theorem lost_onSession {k : Nat} {may : MasterSession → Bool}
    {f : MasterSession → MasterSession}
    (hstep : t.onSession k may f = some t')
    (hsent : ∀ session, (f session).stream.sent = session.stream.sent) :
    ∃ session before taken after, may session = true ∧
      t.lost = before ++ session.lost taken ++ after ∧
      t'.lost = before ++ (f session).lost taken ++ after := by
  obtain ⟨session, hfound, rfl⟩ := Option.map_eq_some_iff.mp hstep
  obtain ⟨hk, hmay⟩ := Option.filter_eq_some_iff.mp hfound
  obtain ⟨before, taken, after, hlost⟩ := lost_set hk
  refine ⟨session, before, taken, after, hmay, ?_, hlost _ (hsent session)⟩
  have hsame : t.sessions.set k session = t.sessions := by
    obtain ⟨hlt, rfl⟩ := List.getElem?_eq_some_iff.mp hk
    exact List.set_getElem_self hlt
  rw [← hlost session rfl, hsame]

theorem lost_onSession_sublist {k : Nat} {may : MasterSession → Bool}
    {f : MasterSession → MasterSession}
    (hstep : t.onSession k may f = some t')
    (hsent : ∀ session, (f session).stream.sent = session.stream.sent)
    (hlost : ∀ session taken, may session = true →
      (session.lost taken).Sublist ((f session).lost taken)) :
    t.lost.Sublist t'.lost := by
  obtain ⟨session, before, taken, after, hmay, hold, hnew⟩ :=
    lost_onSession hstep hsent
  rw [hold, hnew]
  exact ((List.Sublist.refl before).append
    (hlost session taken hmay)).append (List.Sublist.refl after)

theorem lost_onSession_eq {k : Nat} {may : MasterSession → Bool}
    {f : MasterSession → MasterSession}
    (hstep : t.onSession k may f = some t')
    (hsent : ∀ session, (f session).stream.sent = session.stream.sent)
    (hlost : ∀ session taken, may session = true →
      (f session).lost taken = session.lost taken) : t'.lost = t.lost := by
  obtain ⟨session, before, taken, after, hmay, hold, hnew⟩ :=
    lost_onSession hstep hsent
  rw [hold, hnew, hlost session taken hmay]

/-- Where nothing is being written nothing is taken over. -/
theorem Inv.takenOver_of_idle (h : t.Inv) (hidle : t.writing = []) :
    t.takenOver = [] := by
  refine takenOver_of_less ?_
  rw [h.idle hidle]
  exact Update.framing.size_pos

theorem Inv.takenOver_of_down (h : t.Inv)
    (hdown : t.slave.slave.connected_ = false) : t.takenOver = [] := by
  refine h.takenOver_of_idle ?_
  rw [writing, h.slave.writing, hdown]
  rfl

/-- The events of the slave that leave its connection alone. -/
theorem lost_of_slave {slave : SlaveRun}
    (h : (if t.transferred = Update.framing.size then
        slave.slave.update_queue_.take 1 else []) = t.takenOver) :
    lost { t with slave } = t.lost := by
  have htaken : takenOver { t with slave } = t.takenOver := h
  rw [lost, lost, htaken]

theorem lost_handleConnect (h : t.Inv) {i : Nat} {slave : SlaveRun}
    (hstep : t.slave.step (.handleConnect i false) = some slave) :
    (t.follow (.handleConnect i false) slave).lost = t.lost := by
  obtain ⟨link, hlink, rfl⟩ := Option.map_eq_some_iff.mp hstep
  have hdown := h.slave.toLinkInv.not_connected hlink
  rw [lost_of_takenOver (h.takenOver_of_down hdown),
    lost_of_takenOver (takenOver_of_less Update.framing.size_pos)]
  change (MasterSession.start :: t.sessions).reverse.flatMap _ = _
  rw [List.reverse_cons, List.flatMap_append]
  exact List.append_nil _

theorem lost_written (h : t.Inv) {i : Nat} {slave : SlaveRun}
    (hcompletes : t.completes (.handleWriteUpdate i false) = true)
    (hstep : t.slave.step (.handleWriteUpdate i false) = some slave) :
    (t.follow (.handleWriteUpdate i false) slave).lost = t.lost := by
  obtain ⟨data, hdata, -⟩ := handleWriteUpdate_eq_some hstep
  have hi : t.writing[i]? = some data := hdata
  obtain ⟨hc, -, rest, hqueue⟩ := h.front hi
  obtain ⟨session, earlier, hsessions, -⟩ := h.current hc
  have hall : t.transferred = Update.framing.size := by
    simpa [completes] using hcompletes
  have htaken : t.takenOver = [data] := by
    rw [takenOver, if_pos hall, hqueue]
    rfl
  have hnone : takenOver (t.follow (.handleWriteUpdate i false) slave) = [] :=
    takenOver_of_less Update.framing.size_pos
  rw [lost, hnone, lost, htaken]
  simp only [follow, hi, hsessions, FrameStream.report, List.append_nil]
  rfl

theorem lost_slave (h : t.Inv) {event : SlaveEvent} {slave : SlaveRun}
    (hcompletes : t.completes event = true)
    (hstep : t.slave.step event = some slave) :
    (t.follow event slave).lost = t.lost := by
  cases event with
  | handleAccept error =>
      rw [SlaveRun.step] at hstep
      split_ifs at hstep
      obtain rfl := Option.some.inj hstep
      cases error <;> exact lost_of_slave rfl
  | sessionHandleRead k incoming =>
      rw [SlaveRun.step] at hstep
      split at hstep
      · obtain rfl := Option.some.inj hstep
        cases incoming with
        | none => exact lost_of_slave rfl
        | some u =>
            refine lost_of_slave ?_
            rw [takenOver]
            split_ifs with hall
            · change (t.slave.slave.writeUpdate u).update_queue_.take 1 = _
              rw [Slave.writeUpdate_update_queue_, List.take_append_of_le_length]
              by_contra hempty
              have hidle : t.writing = [] := by
                rw [writing, h.slave.writing, List.eq_nil_of_length_eq_zero
                  (Nat.lt_one_iff.mp (Nat.not_le.mp hempty))]
                split_ifs <;> rfl
              have hzero := h.idle hidle
              rw [hall] at hzero
              exact absurd hzero Update.framing.size_pos.ne'
            · rfl
      · cases hstep
  | handleConnect i error =>
      cases error with
      | false => exact lost_handleConnect h hstep
      | true =>
          obtain ⟨link, hlink, rfl⟩ := Option.map_eq_some_iff.mp hstep
          refine lost_of_slave ?_
          simp only [Slave.handleConnect_update_queue_]
          rfl
  | handleWriteUpdate i error =>
      cases error with
      | false => exact lost_written h hcompletes hstep
      | true =>
          have hless : t.transferred < Update.framing.size := by
            simpa [completes] using hcompletes
          rw [lost_of_takenOver (takenOver_of_less hless),
            lost_of_takenOver (takenOver_of_less Update.framing.size_pos)]
          rfl
  | timer =>
      obtain ⟨link, hlink, rfl⟩ := Option.map_eq_some_iff.mp hstep
      exact lost_of_slave rfl
  | timerCancelled =>
      obtain ⟨link, hlink, rfl⟩ := Option.map_eq_some_iff.mp hstep
      exact lost_of_slave rfl

/-- Bytes are handed over to the newest connection. -/
theorem transfer_cases {n : Nat} (hstep : t.step (.transfer n) = some t') :
    ∃ session earlier units, t.sessions = session :: earlier ∧
      t.transferred + n ≤ Update.framing.size ∧
      t' = { t with
        transferred := t.transferred + n
        sessions := { session with
          stream := session.stream.transfer units } :: earlier } := by
  simp only [step] at hstep
  split at hstep
  · rename_i u session earlier hwriting hsessions
    split at hstep
    · rename_i hallowed
      exact ⟨session, earlier, _, hsessions, hallowed.1,
        (Option.some.inj hstep).symm⟩
    · cases hstep
  · cases hstep

/-- A broken connection may take all of a write over, and loses it then. -/
theorem lost_transfer {n : Nat} (hstep : t.step (.transfer n) = some t') :
    t.lost.Sublist t'.lost ∧
      ((∀ session ∈ t.sessions.head?, session.stream.broken = false) →
        t'.lost = t.lost) := by
  obtain ⟨session, earlier, units, hsessions, hfits, rfl⟩ :=
    transfer_cases hstep
  have hsent := session.stream.sent_transfer units
  have hbroken := session.stream.broken_transfer units
  simp only [lost, hsessions, hsent]
  by_cases hwhole : session.stream.broken = false
  · have hnone : ∀ taken, session.lost taken = [] := fun taken => by
      rw [MasterSession.lost, hwhole, if_neg Bool.false_ne_true]
    have hnone' : ∀ taken, MasterSession.lost
        { session with stream := session.stream.transfer units } taken =
          [] := fun taken => by
      rw [MasterSession.lost, hbroken, hwhole, if_neg Bool.false_ne_true]
    rw [hnone, hnone']
    exact ⟨List.Sublist.refl _, fun _ => rfl⟩
  · refine ⟨(List.Sublist.refl _).append ?_,
      fun h => absurd (h session rfl) hwhole⟩
    rw [Bool.not_eq_false] at hwhole
    have htransfer : session.stream.transfer units =
        { session.stream with lost := session.stream.lost ++ units } := by
      rw [FrameStream.transfer, if_pos hwhole]
    rw [MasterSession.lost, MasterSession.lost, hbroken, hwhole, if_pos rfl,
      if_pos rfl, htransfer]
    refine List.Sublist.drop ((List.Sublist.refl _).append ?_) _
    by_cases hall : t.transferred = Update.framing.size
    · have hnone : n = 0 := by omega
      rw [hnone]
      rfl
    · rw [takenOver, if_neg hall]
      exact List.nil_sublist _

/-- An event over which nothing is lost. -/
def Keeps (t : Transport) : TransportEvent → Prop
  | .slave _ => True
  | .transfer _ => ∀ session ∈ t.sessions.head?, session.stream.broken = false
  | .breakOff _ => False
  | .read _ _ => True
  | .handleRead _ error => error = false
  | .handleWritePing _ error => error = false

theorem lost_step_eq (h : t.Inv) {event : TransportEvent}
    (hkeeps : t.Keeps event) (hstep : t.step event = some t') :
    t'.lost = t.lost := by
  cases event with
  | slave event =>
      rw [step] at hstep
      split_ifs at hstep with hcompletes
      obtain ⟨slave, hslave, rfl⟩ := Option.map_eq_some_iff.mp hstep
      exact lost_slave h hcompletes hslave
  | transfer n => exact (lost_transfer hstep).2 hkeeps
  | breakOff k => exact hkeeps.elim
  | read k n =>
      refine lost_onSession_eq hstep (fun _ => rfl) fun session taken hmay => ?_
      have hn := of_decide_eq_true (Bool.and_eq_true_iff.mp hmay).2
      refine MasterSession.lost_of_same ?_
        (MasterSession.readable_read hn) taken
      rfl
  | handleRead k error =>
      obtain rfl : error = false := hkeeps
      refine lost_onSession_eq hstep (fun _ => rfl) fun session taken hmay => ?_
      have hfull := of_decide_eq_true (Bool.and_eq_true_iff.mp hmay).2
      refine MasterSession.lost_of_same ?_
        (MasterSession.readable_handleRead hfull) taken
      rfl
  | handleWritePing k error =>
      obtain rfl : error = false := hkeeps
      exact lost_onSession_eq hstep (fun _ => rfl) fun _ _ _ => rfl

/-- What is lost stays lost. -/
theorem lost_step (h : t.Inv) {event : TransportEvent}
    (hstep : t.step event = some t') : t.lost.Sublist t'.lost := by
  have hsame : t.Keeps event → t.lost.Sublist t'.lost := by
    intro hkeeps
    rw [lost_step_eq h hkeeps hstep]
  cases event with
  | slave event => exact hsame trivial
  | transfer n => exact (lost_transfer hstep).1
  | breakOff k =>
      exact lost_onSession_sublist hstep (fun _ => rfl) fun _ taken _ =>
        MasterSession.lost_breakOff rfl taken
  | read k n => exact hsame trivial
  | handleRead k error =>
      cases error with
      | false => exact hsame rfl
      | true =>
          exact lost_onSession_sublist hstep (fun _ => rfl) fun _ taken _ =>
            MasterSession.lost_breakOff rfl taken
  | handleWritePing k error =>
      cases error with
      | false => exact hsame rfl
      | true =>
          exact lost_onSession_sublist hstep (fun _ => rfl) fun _ taken _ =>
            MasterSession.lost_breakOff rfl taken

/-- A session that has read all there is has what it was sent, or its
connection is broken. -/
theorem unread_of_read (h : t.Inv) {session : MasterSession}
    (hsession : session ∈ t.sessions)
    (hread : session.stream.buffer.length + session.stream.inFlight.length <
      Update.framing.size) :
    session.unread = session.lost session.stream.sent := by
  have hreadable : session.readable = session.stream.received.length := by
    rw [MasterSession.readable, Nat.div_eq_of_lt hread, Nat.add_zero]
  rw [MasterSession.unread, MasterSession.lost, hreadable]
  split_ifs with hbroken
  · rfl
  · obtain ⟨k, hk⟩ := List.getElem?_of_mem hsession
    obtain ⟨bytes, hcarries, -⟩ := h.streams k session hk
    have hlost := hcarries.whole (Bool.eq_false_iff.mpr hbroken)
    have hstream := hcarries.stream
    rw [hlost, List.append_nil, List.append_assoc] at hstream
    have hframes : Update.framing.encodeAll session.stream.sent <+:
        Update.framing.encodeAll session.stream.received ++
          (session.stream.buffer ++ session.stream.inFlight) :=
      hstream ▸ List.prefix_append _ _
    have hfirst : session.stream.sent <+: session.stream.received := by
      refine Update.framing.prefix_of_encodeAll_prefix ?_ hframes
      rw [List.length_append]
      exact hread
    exact List.drop_eq_nil_of_le hfirst.length_le

/-- What is lost has not been processed. -/
theorem lost_sublist (t : Transport) : t.lost.Sublist t.onItsWay := by
  have hlost : ∀ session : MasterSession, ∀ taken,
      (session.lost taken).Sublist
        (taken.drop session.stream.received.length) := by
    intro session taken
    rw [MasterSession.lost]
    split_ifs
    · exact List.drop_sublist_drop_left taken
        MasterSession.received_le_readable
    · exact List.nil_sublist _
  rw [lost, onItsWay, ahead]
  rcases t.sessions with - | ⟨session, earlier⟩
  · exact List.nil_sublist _
  · simp only [List.reverse_cons, List.flatMap_append, List.flatMap_singleton,
      List.append_assoc]
    refine (flatMap_sublist fun other _ => hlost other _).append ?_
    refine (hlost session _).trans ?_
    have htaken : t.takenOver.Sublist t.slave.slave.update_queue_ := by
      rw [takenOver]
      split_ifs
      · exact List.take_sublist _ _
      · exact List.nil_sublist _
    rw [MasterSession.unread, ← List.drop_append]
    exact ((List.Sublist.refl _).append htaken).drop _

end Transport

end BohunoPyzord
