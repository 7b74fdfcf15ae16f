/-
How the updates of a slave get on.  As long as one is queued, or can be read
by the master to its end, some operation can complete that brings one of them
on; a slave that finds its connection broken gets to the next one.
-/
import BohunoPyzord.LostUpdates

namespace BohunoPyzord

theorem Slave.live_asyncWriteFront {d : Slave} (h : d.link.Live)
    (hopen : d.link.socket ≠ .closed) : d.asyncWriteFront.link.Live := by
  rw [asyncWriteFront]
  split
  · exact h
  · exact h.asyncWrite hopen _

namespace SlaveRun

theorem live_handleConnect {s : SlaveRun} (h : s.Inv)
    (hlive : s.slave.link.Live) {link : AsyncLink Update} {i : Nat}
    {error : Bool} (hlink : s.slave.link.completeConnect i error = some link) :
    (Slave.handleConnect { s.slave with link } error).link.Live := by
  have hafter : link.Live := hlive.completeConnect hlink
  cases error with
  | false =>
      have hopen : link.socket ≠ .closed := by
        obtain ⟨-, rfl⟩ := AsyncLink.completeConnect_eq_some hlink
        exact SocketState.noConfusion
      simp only [Slave.handleConnect, Bool.not_false, ↓reduceIte]
      split
      · exact Slave.live_asyncWriteFront hafter hopen
      · exact hafter
  | true =>
      obtain ⟨hconnects, -⟩ :=
        AsyncLink.attempts_completeConnect h.attempts.le hlink
      refine AsyncLink.live_retry hconnects ?_
      rw [AsyncLink.writing_completeConnect hlink, h.writing,
        h.toLinkInv.not_connected hlink]
      rfl

theorem live_handleWriteUpdate {s : SlaveRun} (h : s.Inv)
    (hlive : s.slave.link.Live) {link : AsyncLink Update} {i : Nat}
    {error : Bool} {data : Update}
    (hlink : s.slave.link.completeWrite i error = some (data, link)) :
    (Slave.handleWriteUpdate { s.slave with link } error).link.Live := by
  have hafter : link.Live := hlive.completeWrite hlink
  obtain ⟨hdata, hrest⟩ := AsyncLink.writing_completeWrite hlink
  cases error with
  | false =>
      have hopen : link.socket ≠ .closed := by
        obtain ⟨-, -, hsocket, rfl⟩ := AsyncLink.completeWrite_eq_some hlink
        rw [hsocket rfl]
        exact SocketState.noConfusion
      simp only [Slave.handleWriteUpdate, Bool.not_false, ↓reduceIte]
      split
      · exact Slave.live_asyncWriteFront hafter hopen
      · exact hafter
  | true =>
      obtain ⟨hconnected, -⟩ := h.queue.front hdata
      obtain ⟨hconnects, -⟩ := h.toLinkInv.of_connected hconnected
      obtain ⟨-, -, hsame, -⟩ := AsyncLink.attempts_completeWrite hlink
      refine AsyncLink.live_retry (hsame.trans hconnects) ?_
      have hone : s.slave.link.writing.length ≤ 1 := by
        rw [h.writing]
        split_ifs
        · exact List.length_take_le _ _
        · exact Nat.zero_le _
      obtain ⟨hi, -⟩ := List.getElem?_eq_some_iff.mp hdata
      rw [hrest]
      apply List.eq_nil_of_length_eq_zero
      rw [List.length_eraseIdx_of_lt hi]
      omega

theorem live_step {s s' : SlaveRun} {event : SlaveEvent} (h : s.Inv)
    (hlive : s.slave.link.Live) (hstep : s.step event = some s') :
    s'.slave.link.Live := by
  cases event with
  | handleAccept error =>
      rw [step] at hstep
      split_ifs at hstep
      obtain rfl := Option.some.inj hstep
      cases error <;> exact hlive
  | sessionHandleRead k incoming =>
      rw [step] at hstep
      split at hstep
      · obtain rfl := Option.some.inj hstep
        cases incoming with
        | none => exact hlive
        | some u =>
            change (s.slave.writeUpdate u).link.Live
            rw [Slave.writeUpdate]
            split_ifs with hidle
            · refine Slave.live_asyncWriteFront hlive ?_
              have hconnected := (Bool.and_eq_true_iff.mp hidle).1
              change s.slave.link.socket ≠ .closed
              rw [h.connected.mp hconnected]
              exact SocketState.noConfusion
            · exact hlive
      · cases hstep
  | handleConnect i error =>
      obtain ⟨link, hlink, rfl⟩ := Option.map_eq_some_iff.mp hstep
      exact live_handleConnect h hlive hlink
  | handleWriteUpdate i error =>
      obtain ⟨⟨data, link⟩, hlink, rfl⟩ := Option.map_eq_some_iff.mp hstep
      exact live_handleWriteUpdate h hlive hlink
  | timer =>
      obtain ⟨link, hlink, rfl⟩ := Option.map_eq_some_iff.mp hstep
      obtain ⟨-, rfl⟩ := AsyncLink.expire_eq_some hlink
      exact AsyncLink.Live.asyncConnect ⟨hlive.connects, hlive.writes⟩
  | timerCancelled =>
      obtain ⟨link, hlink, rfl⟩ := Option.map_eq_some_iff.mp hstep
      obtain ⟨-, rfl⟩ := AsyncLink.runCancelled_eq_some hlink
      exact AsyncLink.Live.asyncConnect ⟨hlive.connects, hlive.writes⟩

end SlaveRun

namespace MasterSession

/-- What the session reads ends with a whole update, and it goes on reading
while there is one. -/
structure Ready (session : MasterSession) : Prop where
  fits : session.stream.buffer.length ≤ Update.framing.size
  stopped : session.reading = false → session.stream.buffer.length +
    session.stream.inFlight.length < Update.framing.size

variable {session : MasterSession}

theorem ready_start : start.Ready where
  fits := Nat.zero_le _
  stopped h := by cases h

theorem Ready.breakOff (h : session.Ready) : session.breakOff.Ready where
  fits := h.fits
  stopped hreading := by
    refine lt_of_le_of_lt ?_ (h.stopped hreading)
    exact Nat.add_le_add_left (Nat.zero_le _) _

theorem ready_read {n : Nat} (hreading : session.reading = true)
    (hn : session.stream.buffer.length + n ≤ Update.framing.size) :
    (session.read n).Ready where
  fits := by
    simp only [MasterSession.read, FrameStream.read, List.length_append,
      List.length_take]
    omega
  stopped hstopped := by
    rw [MasterSession.read, hreading] at hstopped
    cases hstopped

theorem Ready.handleRead (h : session.Ready) {error : Bool}
    (hless : error = true →
      session.stream.buffer.length < Update.framing.size) :
    (session.handleRead error).Ready := by
  cases error with
  | false =>
      refine ⟨Nat.zero_le _, fun hstopped => ?_⟩
      cases hstopped
  | true => exact ⟨h.fits, fun _ => hless rfl⟩

theorem Ready.handleWritePing (h : session.Ready) (error : Bool) :
    (session.handleWritePing error).Ready := by
  cases error with
  | false => exact h
  | true => exact ⟨h.breakOff.fits, h.breakOff.stopped⟩

/-- Nothing is handed over to a session that has stopped reading. -/
theorem Ready.transfer (h : session.Ready) (units : List Byte)
    (hreading : session.stream.broken = false → session.reading = true) :
    Ready { session with stream := session.stream.transfer units } where
  fits := by
    rw [FrameStream.transfer]
    split
    · exact h.fits
    · exact h.fits
  stopped hstopped := by
    have hbroken : session.stream.broken = true := by
      rw [← Bool.not_eq_false]
      intro hwhole
      rw [hreading hwhole] at hstopped
      cases hstopped
    rw [FrameStream.transfer, if_pos hbroken]
    exact h.stopped hstopped

end MasterSession

theorem sum_map_set_lt {α : Type} {f : α → Nat} {items : List α} {k : Nat}
    {item item' : α} (h : items[k]? = some item) (hless : f item' < f item) :
    ((items.set k item').map f).sum < (items.map f).sum := by
  induction items generalizing k with
  | nil => cases h
  | cons first items ih =>
      cases k with
      | zero =>
          obtain rfl := Option.some.inj h
          exact Nat.add_lt_add_right hless _
      | succ k => exact Nat.add_lt_add_left (ih h) _

namespace Transport

variable {t t' : Transport}

/-- The slave's operations can succeed, and so can those of the sessions. -/
structure Ready (t : Transport) : Prop where
  live : t.slave.slave.link.Live
  sessions : ∀ session ∈ t.sessions, session.Ready

theorem ready_init : transportSystem.init.Ready where
  live := by
    refine ⟨fun live hlive => ?_, fun write hwrite => ?_⟩
    · exact List.mem_singleton.mp hlive
    · cases hwrite
  sessions session hsession := by cases hsession

theorem ready_onSession (h : t.Ready) {k : Nat}
    {may : MasterSession → Bool} {f : MasterSession → MasterSession}
    (hstep : t.onSession k may f = some t')
    (hready : ∀ session, may session = true → session.Ready →
      (f session).Ready) : t'.Ready := by
  obtain ⟨session, hfound, rfl⟩ := Option.map_eq_some_iff.mp hstep
  obtain ⟨hk, hmay⟩ := Option.filter_eq_some_iff.mp hfound
  refine ⟨h.live, fun other hother => ?_⟩
  rcases List.mem_or_eq_of_mem_set hother with hold | rfl
  · exact h.sessions other hold
  · exact hready session hmay (h.sessions session (List.mem_of_getElem? hk))

/-- What the connections are left with by an event of the slave. -/
theorem ready_follow (h : t.Ready) {event : SlaveEvent} {slave : SlaveRun}
    (hlive : slave.slave.link.Live) : (t.follow event slave).Ready := by
  refine ⟨by rw [slave_follow]; exact hlive, ?_⟩
  unfold follow
  split
  · intro session hsession
    rcases List.mem_cons.mp hsession with rfl | hold
    · exact MasterSession.ready_start
    · exact h.sessions session hold
  · dsimp only
    split
    · rename_i u session earlier hu hsessions
      have hall := h.sessions
      rw [hsessions] at hall
      intro other hother
      rcases List.mem_cons.mp hother with rfl | hold
      · have hready := hall session List.mem_cons_self
        exact ⟨hready.fits, hready.stopped⟩
      · exact hall other (List.mem_cons_of_mem _ hold)
    · exact h.sessions
  · exact h.sessions
  · exact h.sessions

theorem ready_step (h : t.Inv) (hready : t.Ready) {event : TransportEvent}
    (hstep : t.step event = some t') : t'.Ready := by
  cases event with
  | slave event =>
      rw [step] at hstep
      split_ifs at hstep
      obtain ⟨slave, hslave, rfl⟩ := Option.map_eq_some_iff.mp hstep
      exact ready_follow hready (SlaveRun.live_step h.slave hready.live hslave)
  | transfer n =>
      obtain ⟨session, earlier, units, hsessions, -, rfl⟩ :=
        transfer_cases hstep
      have hmem : session ∈ t.sessions := by
        rw [hsessions]
        exact List.mem_cons_self
      refine ⟨hready.live, fun other hother => ?_⟩
      rcases List.mem_cons.mp hother with rfl | hold
      · exact (hready.sessions session hmem).transfer units
          (h.reading session hmem)
      · refine hready.sessions other ?_
        rw [hsessions]
        exact List.mem_cons_of_mem _ hold
  | breakOff k =>
      exact ready_onSession hready hstep fun _ _ hsession => hsession.breakOff
  | read k n =>
      refine ready_onSession hready hstep fun session hmay _ => ?_
      obtain ⟨hboth, -⟩ := Bool.and_eq_true_iff.mp hmay
      obtain ⟨hreading, hn⟩ := Bool.and_eq_true_iff.mp hboth
      exact MasterSession.ready_read hreading (of_decide_eq_true hn)
  | handleRead k error =>
      refine ready_onSession hready hstep fun session hmay hsession => ?_
      refine hsession.handleRead fun herror => ?_
      have hless := (Bool.and_eq_true_iff.mp hmay).2
      rw [if_pos herror] at hless
      exact of_decide_eq_true hless
  | handleWritePing k error =>
      exact ready_onSession hready hstep fun _ _ hsession =>
        hsession.handleWritePing error

/-- The newest connection is broken. -/
def down (t : Transport) : Bool :=
  t.sessions.head?.any fun session => session.stream.broken

/-- How far the slave is from a connection that it can write over. -/
def phase (t : Transport) : Nat :=
  if t.slave.slave.connected_ then if t.down then 3 else 0
  else if t.slave.slave.link.armed = 0 then 1 else 2

/-- What is left to be done with the bytes of the updates: each is handed
over, read and taken for part of an update. -/
def work (t : Transport) : Nat :=
  t.slave.slave.update_queue_.length +
    3 * (Update.framing.size * t.slave.slave.update_queue_.length -
      t.transferred) +
    (t.sessions.map fun session => 2 * session.stream.inFlight.length +
      session.stream.buffer.length).sum

/-- A write that fails leaves less than a hundred more to be done. -/
def rank (t : Transport) : Nat := 100 * t.phase + t.work

/-- All that can be written is written. -/
structure Drained (t : Transport) : Prop where
  queue : t.slave.slave.update_queue_ = []
  read : ∀ session ∈ t.sessions, session.stream.buffer.length +
    session.stream.inFlight.length < Update.framing.size

/-- A step of the transport that brings the updates on. -/
def Advances (t : Transport) : Prop :=
  ∃ event t', t.step event = some t' ∧ t'.rank < t.rank ∧
    t'.slave.passed = t.slave.passed ∧ t.Keeps event

theorem step_slave {event : SlaveEvent} {slave : SlaveRun}
    (hcompletes : t.completes event = true)
    (hslave : t.slave.step event = some slave) :
    t.step (.slave event) = some (t.follow event slave) := by
  rw [step, if_pos hcompletes, hslave]
  rfl

/-- Something is read over one of the connections. -/
theorem advances_onSession {k : Nat} {session : MasterSession}
    {event : TransportEvent} {may : MasterSession → Bool}
    {f : MasterSession → MasterSession}
    (hk : t.sessions[k]? = some session)
    (hstep : t.step event = t.onSession k may f)
    (hmay : may session = true) (hkeeps : t.Keeps event)
    (hbroken : (f session).stream.broken = session.stream.broken)
    (hless : 2 * (f session).stream.inFlight.length +
        (f session).stream.buffer.length <
      2 * session.stream.inFlight.length + session.stream.buffer.length) :
    t.Advances := by
  have hstep' : t.step event =
      some { t with sessions := t.sessions.set k (f session) } := by
    rw [hstep, onSession, hk, Option.filter_some, if_pos hmay]
    rfl
  refine ⟨event, _, hstep', ?_, rfl, hkeeps⟩
  have hdown : down { t with sessions := t.sessions.set k (f session) } =
      t.down := by
    rw [down, down]
    dsimp only
    rcases hsessions : t.sessions with - | ⟨current, earlier⟩
    · rfl
    · cases k with
      | zero =>
          rw [hsessions] at hk
          obtain rfl := Option.some.inj hk
          exact hbroken
      | succ k => rfl
  have hsum := sum_map_set_lt (f := fun session : MasterSession =>
    2 * session.stream.inFlight.length + session.stream.buffer.length)
    hk hless
  rw [rank, rank, phase, phase, hdown, work, work]
  dsimp only
  omega

/-- A session that can read an update to its end does so. -/
theorem advances_read (hready : t.Ready) {session : MasterSession}
    (hsession : session ∈ t.sessions)
    (hwhole : Update.framing.size ≤ session.stream.buffer.length +
      session.stream.inFlight.length) : t.Advances := by
  obtain ⟨k, hk⟩ := List.getElem?_of_mem hsession
  obtain ⟨hfits, hstopped⟩ := hready.sessions session hsession
  have hreading : session.reading = true := by
    rw [← Bool.not_eq_false]
    exact fun h => absurd (hstopped h) (Nat.not_lt.mpr hwhole)
  rcases Nat.lt_or_eq_of_le hfits with hless | hfull
  · let n := Update.framing.size - session.stream.buffer.length
    have hn : n ≤ session.stream.inFlight.length := by omega
    have hstep : t.step (.read k n) = t.onSession k _ _ := rfl
    refine advances_onSession hk hstep ?_ trivial rfl ?_
    · rw [hreading, Bool.true_and, Bool.and_eq_true_iff]
      exact ⟨decide_eq_true (by omega), decide_eq_true hn⟩
    · simp only [MasterSession.read, FrameStream.read, List.length_append,
        List.length_take, List.length_drop]
      omega
  · have hstep : t.step (.handleRead k false) = t.onSession k _ _ := rfl
    refine advances_onSession hk hstep ?_ rfl rfl ?_
    · rw [hreading, Bool.true_and]
      exact decide_eq_true hfull
    · simp only [MasterSession.handleRead, FrameStream.receive, Bool.not_false,
        ↓reduceIte, List.length_nil, hfull]
      exact Nat.lt_add_of_pos_right Update.framing.size_pos

/-- A connect that is outstanding succeeds. -/
theorem advances_connect (h : t.Inv) (hready : t.Ready)
    (hconnected : t.slave.slave.connected_ = false)
    (hone : t.slave.slave.link.connects.length = 1)
    (harmed : t.slave.slave.link.armed = 0) : t.Advances := by
  obtain ⟨link, hlink⟩ := hready.live.exists_completeConnect hone false
  have hslave : t.slave.step (.handleConnect 0 false) = some { t.slave with
      slave := { t.slave.slave with link }.handleConnect false } := by
    rw [SlaveRun.step, hlink]
    rfl
  refine ⟨_, _, step_slave rfl hslave, ?_, rfl, trivial⟩
  have hidle : t.transferred = 0 := by
    refine h.idle ?_
    rw [writing, h.slave.writing, hconnected]
    rfl
  have hbefore : t.phase = 1 := by
    rw [phase, hconnected, if_neg Bool.false_ne_true, if_pos harmed]
  rw [rank, rank, hbefore]
  simp [phase, work, follow, down, MasterSession.start, FrameStream.fresh,
    hidle]

/-- The wait for the next connect comes to its end. -/
theorem advances_timer (hconnected : t.slave.slave.connected_ = false)
    (harmed : t.slave.slave.link.armed = 1) : t.Advances := by
  obtain ⟨link, hlink⟩ := AsyncLink.exists_expire
    (l := t.slave.slave.link) (by rw [harmed]; exact Nat.one_ne_zero)
  let slave : SlaveRun :=
    { t.slave with slave := { t.slave.slave with link }.connect }
  have hslave : t.slave.step .timer = some slave := by
    rw [SlaveRun.step, hlink]
    rfl
  refine ⟨_, _, step_slave rfl hslave, ?_, rfl, trivial⟩
  have hdisarmed : link.armed = 0 := by
    obtain ⟨-, rfl⟩ := AsyncLink.expire_eq_some hlink
    exact congrArg (· - 1) harmed
  have hbefore : t.phase = 2 := by
    rw [phase, hconnected, harmed]
    rfl
  have hafter : phase { t with slave } = 1 := by
    change (if t.slave.slave.connected_ then _
      else if link.armed = 0 then 1 else 2) = 1
    rw [hconnected, hdisarmed]
    rfl
  have hwork : work { t with slave } = t.work := rfl
  change rank { t with slave } < t.rank
  rw [rank, rank, hbefore, hafter, hwork]
  omega

/-- While the front of the queue is written. -/
structure Writing (t : Transport) (u : Update) (session : MasterSession)
    (earlier : List MasterSession) : Prop where
  connected : t.slave.slave.connected_ = true
  queue : ∃ rest, t.slave.slave.update_queue_ = u :: rest
  sessions : t.sessions = session :: earlier

variable {u : Update} {session : MasterSession}
  {earlier : List MasterSession}

theorem Writing.writing (hw : t.Writing u session earlier) (h : t.Inv) :
    t.slave.slave.link.writing = [u] := by
  obtain ⟨rest, hqueue⟩ := hw.queue
  rw [h.slave.writing, hw.connected, hqueue]
  rfl

theorem Writing.socket (hw : t.Writing u session earlier) (h : t.Inv) :
    t.slave.slave.link.socket = .established :=
  h.slave.connected.mp hw.connected

theorem Writing.phase (hw : t.Writing u session earlier) :
    t.phase = if session.stream.broken then 3 else 0 := by
  rw [Transport.phase, hw.connected, if_pos rfl, down, hw.sessions]
  rfl

/-- All of the write has been taken over. -/
theorem Writing.advances_written (hw : t.Writing u session earlier)
    (h : t.Inv) (hready : t.Ready)
    (hall : t.transferred = Update.framing.size) : t.Advances := by
  obtain ⟨link, hlink⟩ := hready.live.exists_completeWrite (hw.writing h)
    (hw.socket h) false
  let slave : SlaveRun :=
    { t.slave with
      slave := { t.slave.slave with link }.handleWriteUpdate false
      popped := t.slave.popped ++ [(u, t.slave.slave.update_queue_.head?)] }
  have hslave : t.slave.step (.handleWriteUpdate 0 false) = some slave := by
    rw [SlaveRun.step, hlink]
    rfl
  have hcompletes : t.completes (.handleWriteUpdate 0 false) = true :=
    decide_eq_true hall
  let reported := { session with stream := session.stream.report u }
  have hfollow : t.follow (.handleWriteUpdate 0 false) slave =
      { slave, transferred := 0, sessions := reported :: earlier } := by
    have hi : t.writing[0]? = some u := by
      rw [Transport.writing, hw.writing h]
      rfl
    simp only [follow, hi, hw.sessions, reported]
  refine ⟨_, _, step_slave hcompletes hslave, ?_, ?_, trivial⟩
  · obtain ⟨rest, hqueue⟩ := hw.queue
    have hafter : slave.slave.update_queue_ = rest := by
      change (Slave.handleWriteUpdate _ false).update_queue_ = rest
      rw [Slave.handleWriteUpdate_update_queue_]
      exact congrArg List.tail hqueue
    have hw' : Transport.phase
        { slave, transferred := 0, sessions := reported :: earlier } =
          if session.stream.broken then 3 else 0 := by
      have hconnected : slave.slave.connected_ = true := by
        change (Slave.handleWriteUpdate _ false).connected_ = true
        rw [Slave.handleWriteUpdate_connected_]
        exact hw.connected
      rw [Transport.phase, hconnected, if_pos rfl]
      rfl
    rw [hfollow, rank, rank, hw', hw.phase, work, work, hw.sessions, hqueue]
    dsimp only
    rw [hafter, hall, List.length_cons, List.map_cons, List.map_cons,
      List.sum_cons, List.sum_cons]
    change 100 * _ + (_ + 3 * (28 * _ - 0) + (_ + _)) <
      100 * _ + (_ + 3 * (28 * _ - 28) + (_ + _))
    simp only [reported, FrameStream.report]
    omega
  · rw [slave_follow]

/-- A write over a broken connection fails. -/
theorem Writing.advances_failed (hw : t.Writing u session earlier)
    (h : t.Inv) (hready : t.Ready)
    (hless : t.transferred < Update.framing.size)
    (hbroken : session.stream.broken = true) : t.Advances := by
  obtain ⟨link, hlink⟩ := hready.live.exists_completeWrite (hw.writing h)
    (hw.socket h) true
  let slave : SlaveRun :=
    { t.slave with
      slave := { t.slave.slave with link }.handleWriteUpdate true }
  have hslave : t.slave.step (.handleWriteUpdate 0 true) = some slave := by
    rw [SlaveRun.step, hlink]
    rfl
  have hcompletes : t.completes (.handleWriteUpdate 0 true) = true :=
    decide_eq_true hless
  refine ⟨_, _, step_slave hcompletes hslave, ?_, rfl, trivial⟩
  have hbefore : t.phase = 3 := by
    rw [hw.phase, hbroken]
    rfl
  have hafter : Transport.phase { t with slave, transferred := 0 } = 2 := rfl
  have hwork : work { t with slave, transferred := 0 } ≤ t.work + 81 := by
    have hsize : Update.framing.size = 28 := rfl
    have hqueue : slave.slave.update_queue_ = t.slave.slave.update_queue_ :=
      rfl
    rw [hsize] at hless
    rw [work, work]
    dsimp only
    rw [hqueue, hsize]
    omega
  change rank { t with slave, transferred := 0 } < t.rank
  rw [rank, rank, hbefore, hafter]
  omega

/-- The rest of the write is handed over. -/
theorem Writing.advances_transfer (hw : t.Writing u session earlier)
    (h : t.Inv) (hless : t.transferred < Update.framing.size)
    (hwhole : session.stream.broken = false) : t.Advances := by
  let n := Update.framing.size - t.transferred
  let units := (u.bytes.drop t.transferred).take n
  let further := { session with stream := session.stream.transfer units }
  have hstep : t.step (.transfer n) = some { t with
      transferred := t.transferred + n, sessions := further :: earlier } := by
    have hfits : t.transferred + n ≤ Update.framing.size := by omega
    have hwriting : t.writing = [u] := hw.writing h
    simp only [step, hwriting, hw.sessions, hw.socket h, hfits, and_self,
      ↓reduceIte, further, units]
  refine ⟨_, _, hstep, ?_, rfl, fun other hother => ?_⟩
  · have hafter : Transport.phase { t with
        transferred := t.transferred + n, sessions := further :: earlier } =
          t.phase := by
      have hbroken : further.stream.broken = session.stream.broken :=
        FrameStream.broken_transfer _ _
      rw [hw.phase, Transport.phase, if_pos hw.connected, ← hbroken]
      rfl
    have hunits : units.length = n := by
      have hlength : u.bytes.length = Update.framing.size := u.length_bytes
      simp only [units, List.length_take, List.length_drop, hlength]
      omega
    have hstream : session.stream.transfer units = { session.stream with
        inFlight := session.stream.inFlight ++ units } := by
      rw [FrameStream.transfer, if_neg (ne_true_of_eq_false hwhole)]
    obtain ⟨rest, hqueue⟩ := hw.queue
    rw [rank, rank, hafter, work, work, hw.sessions, hqueue]
    simp only [further, hstream, List.map_cons, List.sum_cons,
      List.length_append, hunits, List.length_cons]
    have hn : t.transferred + n = 28 := Nat.add_sub_cancel' hless.le
    change _ + (_ + 3 * (28 * _ - _) + (_ + _)) <
      _ + (_ + 3 * (28 * _ - _) + (_ + _))
    omega
  · rw [hw.sessions] at hother
    obtain rfl := Option.some.inj hother
    exact hwhole

/-- Wherever the slave is, it comes nearer to the end of its queue. -/
theorem advances_slave (h : t.Inv) (hready : t.Ready)
    (hqueue : t.slave.slave.update_queue_ ≠ []) : t.Advances := by
  cases hconnected : t.slave.slave.connected_ with
  | false =>
      have hattempts := h.slave.attempts
      have hdown : t.slave.slave.link.socket ≠ .established := by
        intro hsocket
        rw [h.slave.connected.mpr hsocket] at hconnected
        cases hconnected
      rw [AsyncLink.attempts, if_neg hdown, Nat.add_zero] at hattempts
      by_cases harmed : t.slave.slave.link.armed = 0
      · exact advances_connect h hready hconnected (by omega) harmed
      · exact advances_timer hconnected (by omega)
  | true =>
      obtain ⟨session, earlier, hsessions, -⟩ := h.current hconnected
      obtain ⟨u, rest, hfront⟩ := List.exists_cons_of_ne_nil hqueue
      have hw : t.Writing u session earlier :=
        ⟨hconnected, ⟨rest, hfront⟩, hsessions⟩
      rcases Nat.lt_or_eq_of_le h.fits with hless | hall
      · cases hbroken : session.stream.broken with
        | true => exact hw.advances_failed h hready hless hbroken
        | false => exact hw.advances_transfer h hless hbroken
      · exact hw.advances_written h hready hall

/-- Nothing that the slave or the master does comes to a halt. -/
theorem drained_or_advances (h : t.Inv) (hready : t.Ready) :
    t.Drained ∨ t.Advances := by
  by_cases hqueue : t.slave.slave.update_queue_ = []
  · by_cases hread : ∀ session ∈ t.sessions, session.stream.buffer.length +
        session.stream.inFlight.length < Update.framing.size
    · exact Or.inl ⟨hqueue, hread⟩
    · push Not at hread
      obtain ⟨session, hsession, hwhole⟩ := hread
      exact Or.inr (advances_read hready hsession hwhole)
  · exact Or.inr (advances_slave h hready hqueue)

/-- What is on its way in the end is lost. -/
theorem Drained.onItsWay_eq (hdrained : t.Drained) (h : t.Inv) :
    t.onItsWay = t.lost := by
  have htaken : t.takenOver = [] := by
    rw [takenOver, hdrained.queue]
    split_ifs <;> rfl
  rw [lost_of_takenOver htaken, onItsWay, hdrained.queue, List.drop_nil,
    List.append_nil, List.flatMap_def, List.flatMap_def]
  refine congrArg List.flatten (List.map_congr_left fun session hmem => ?_)
  have hsession := List.mem_reverse.mp hmem
  exact unread_of_read h hsession (hdrained.read session hsession)

end Transport

end BohunoPyzord
