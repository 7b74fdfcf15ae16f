/-
What becomes of an update after the slave has taken it off its queue.  Nothing
acknowledges an update, so the bytes in flight over a connection that breaks
are gone; apart from these every update is processed once and in order, over
any number of connections.
-/
import BohunoPyzord.SlaveQueue
import BohunoPyzord.Transport

namespace BohunoPyzord

namespace Transport

/-- The updates handed to the connections, connection by connection. -/
def handed (s : Transport) : List Update :=
  s.sessions.reverse.flatMap fun session => session.stream.sent

/-- The updates passed to `process_update`, session by session. -/
def processed (s : Transport) : List Update :=
  s.sessions.reverse.flatMap fun session => session.stream.received

end Transport

/-- The bytes of everything that was handed to the connection and has not been
processed are still under way, and the session goes on reading. -/
structure MasterSession.InFlight (session : MasterSession) : Prop where
  whole : session.stream.broken = false
  reading : session.reading = true
  onItsWay : session.stream.OnItsWay Update.framing

/-- Where the `k`-th update that was handed to the connection is: processed by
the `k`-th `process_update`, or under way. -/
def MasterSession.Accounts (session : MasterSession) (k : Nat)
    (u : Update) : Prop :=
  session.stream.received[k]? = some u ∨
    session.stream.received.length ≤ k ∧ session.InFlight

namespace Transport

/-- A session has processed the first of the updates handed to its connection,
or all of them and the front of the queue, whose write is still outstanding. -/
def InStep (s : Transport) (session : MasterSession) : Prop :=
  session.stream.received <+: session.stream.sent ∨
    ∃ u rest, s.slave.slave.update_queue_ = u :: rest ∧
      session.stream.received = session.stream.sent ++ [u]

/-- Every popped update was handed to one connection, where it is processed,
under way, or unprocessed when the connection broke; no update is processed
more often than it was passed in, and none before one passed in earlier. -/
structure Delivers (s : Transport) : Prop where
  popped : s.slave.popped.map Prod.snd = s.handed.map some
  once : s.processed.Sublist s.slave.passed
  inStep : ∀ session ∈ s.sessions, s.InStep session
  accounted : ∀ session ∈ s.sessions, ∀ k u,
    session.stream.sent[k]? = some u → session.Accounts k u ∨
      session.stream.received.length ≤ k ∧ session.stream.broken = true

/-- The part of the outstanding write that TCP has taken over. -/
def part (s : Transport) : List Byte :=
  (s.writing.flatMap Update.bytes).take s.transferred

/-- What the `k`-th newest connection was handed beyond whole updates: the
current one a part of the outstanding write, a former one less than a frame. -/
def PartOf (s : Transport) (k : Nat) (bytes : List Byte) : Prop :=
  if k = 0 ∧ s.slave.slave.connected_ = true then bytes = s.part
  else bytes.length < Update.framing.size

structure Inv (s : Transport) : Prop where
  slave : s.slave.Inv
  handed : s.handed = s.slave.written
  connected : s.slave.slave.connected_ = true → s.sessions ≠ []
  streams : ∀ k session, s.sessions[k]? = some session →
    ∃ bytes, session.stream.Carries Update.framing bytes ∧ s.PartOf k bytes
  idle : s.writing = [] → s.transferred = 0
  fits : s.transferred ≤ Update.framing.size
  reading : ∀ session ∈ s.sessions, session.stream.broken = false →
    session.reading = true

theorem inv_init : transportSystem.init.Inv where
  slave := SlaveRun.inv_init
  handed := rfl
  connected h := by cases h
  streams k session h := by cases h
  idle _ := rfl
  fits := Nat.zero_le _
  reading session h := by cases h

/-- A write is outstanding only over the current connection, and it is that of
the front of the queue. -/
theorem Inv.front {s : Transport} (h : s.Inv) {i : Nat} {u : Update}
    (hu : s.writing[i]? = some u) :
    s.slave.slave.connected_ = true ∧ s.writing = [u] ∧
      ∃ rest, s.slave.slave.update_queue_ = u :: rest := by
  obtain ⟨hconnected, -, rest, hitems⟩ := h.slave.queue.front hu
  have hwriting : s.writing = if s.slave.slave.connected_ then
      s.slave.slave.update_queue_.take 1 else [] := h.slave.queue.writing
  have hc : s.slave.slave.connected_ = true := hconnected
  have hq : s.slave.slave.update_queue_ = u :: rest := hitems
  rw [hc, hq] at hwriting
  exact ⟨hc, hwriting, rest, hq⟩

/-- The current connection and what it carries. -/
theorem Inv.current {s : Transport} (h : s.Inv)
    (hc : s.slave.slave.connected_ = true) :
    ∃ session earlier, s.sessions = session :: earlier ∧
      session.stream.Carries Update.framing s.part := by
  obtain ⟨session, earlier, hsessions⟩ :=
    List.exists_cons_of_ne_nil (h.connected hc)
  obtain ⟨bytes, hcarries, hpart⟩ := h.streams 0 session (by rw [hsessions]; rfl)
  rw [PartOf, if_pos ⟨rfl, hc⟩] at hpart
  exact ⟨session, earlier, hsessions, hpart ▸ hcarries⟩

/-- A former connection, or any after the connection went down. -/
theorem Inv.former {s : Transport} (h : s.Inv) {k : Nat}
    {session : MasterSession} (hk : s.sessions[k]? = some session)
    (hformer : ¬ (k = 0 ∧ s.slave.slave.connected_ = true)) :
    ∃ bytes, session.stream.Carries Update.framing bytes ∧
      bytes.length < Update.framing.size := by
  obtain ⟨bytes, hcarries, hpart⟩ := h.streams k session hk
  rw [PartOf, if_neg hformer] at hpart
  exact ⟨bytes, hcarries, hpart⟩

/-- Something happens to the current connection only. -/
theorem Inv.replaceCurrent {s : Transport} (h : s.Inv) (s' : Transport)
    {session session' : MasterSession} {earlier : List MasterSession}
    (hsessions : s.sessions = session :: earlier)
    (hsessions' : s'.sessions = session' :: earlier)
    (hc : s'.slave.slave.connected_ = true)
    (hcarries : session'.stream.Carries Update.framing s'.part)
    (hreading : session'.reading = session.reading)
    (hbroken : session'.stream.broken = session.stream.broken) :
    (∀ k other, s'.sessions[k]? = some other → ∃ bytes,
      other.stream.Carries Update.framing bytes ∧ s'.PartOf k bytes) ∧
    ∀ other ∈ s'.sessions, other.stream.broken = false →
      other.reading = true := by
  rw [hsessions']
  constructor
  · intro k other hk
    cases k with
    | zero =>
        obtain rfl := Option.some.inj hk
        refine ⟨s'.part, hcarries, ?_⟩
        rw [PartOf, if_pos ⟨rfl, hc⟩]
    | succ k =>
        have hold : s.sessions[k + 1]? = some other := hsessions ▸ hk
        obtain ⟨bytes, hother, hlt⟩ :=
          h.former hold fun hzero => Nat.succ_ne_zero k hzero.1
        refine ⟨bytes, hother, ?_⟩
        rw [PartOf, if_neg fun hzero => Nat.succ_ne_zero k hzero.1]
        exact hlt
  · intro other hother hwhole
    have hall := h.reading
    rw [hsessions] at hall
    rcases List.mem_cons.mp hother with rfl | hold
    · rw [hreading]
      exact hall session List.mem_cons_self (hbroken ▸ hwhole)
    · exact hall other (List.mem_cons_of_mem _ hold) hwhole

/-- The events of the slave that neither connect nor complete a write. -/
theorem Inv.frame {s : Transport} (h : s.Inv) {slave : SlaveRun}
    (hslave : slave.Inv)
    (hconnected : slave.slave.connected_ = s.slave.slave.connected_)
    (hpopped : slave.popped = s.slave.popped)
    (hwriting : slave.slave.link.writing = s.writing ∨ s.writing = []) :
    Inv { s with slave } := by
  have hpart : part { s with slave } = s.part := by
    rcases hwriting with hsame | hnone
    · exact congrArg (fun w => (w.flatMap Update.bytes).take s.transferred)
        hsame
    · rw [part, part, h.idle hnone, List.take_zero, List.take_zero]
  refine ⟨hslave, ?_, ?_, fun k session hk => ?_, fun hidle => ?_, h.fits,
    h.reading⟩
  · change s.handed = slave.popped.map Prod.fst
    rw [hpopped]
    exact h.handed
  · intro hc
    exact h.connected (hconnected ▸ hc)
  · obtain ⟨bytes, hcarries, hbytes⟩ := h.streams k session hk
    refine ⟨bytes, hcarries, ?_⟩
    rw [PartOf, hpart, hconnected]
    exact hbytes
  · rcases hwriting with hsame | hnone
    · exact h.idle (hsame ▸ hidle)
    · exact h.idle hnone

theorem inv_handleConnect {s : Transport} (h : s.Inv) {i : Nat}
    {slave : SlaveRun} (hslave : slave.Inv)
    (hstep : s.slave.step (.handleConnect i false) = some slave) :
    (s.follow (.handleConnect i false) slave).Inv := by
  obtain ⟨link, hlink, rfl⟩ := Option.map_eq_some_iff.mp hstep
  have hdown := h.slave.toLinkInv.not_connected hlink
  refine ⟨hslave, ?_, fun _ => List.cons_ne_nil _ _, ?_, fun _ => rfl,
    Nat.zero_le _, ?_⟩
  · change (MasterSession.start :: s.sessions).reverse.flatMap _ = _
    rw [List.reverse_cons, List.flatMap_append]
    exact (List.append_nil _).trans h.handed
  · intro k session hk
    cases k with
    | zero =>
        obtain rfl := Option.some.inj hk
        refine ⟨[], FrameStream.Carries.fresh, ?_⟩
        rw [PartOf, if_pos ⟨rfl, by simp [follow]⟩]
        exact List.take_zero.symm
    | succ k =>
        obtain ⟨bytes, hcarries, hlt⟩ := h.former hk fun hcurrent => by
          rw [hdown] at hcurrent
          exact Bool.false_ne_true hcurrent.2
        refine ⟨bytes, hcarries, ?_⟩
        rw [PartOf, if_neg fun hzero => Nat.succ_ne_zero k hzero.1]
        exact hlt
  · intro session hsession hwhole
    rcases List.mem_cons.mp hsession with rfl | hold
    · rfl
    · exact h.reading session hold hwhole

/-- What the completion of a write leaves of the slave. -/
theorem handleWriteUpdate_eq_some {s s' : SlaveRun} {i : Nat} {error : Bool}
    (hstep : s.step (.handleWriteUpdate i error) = some s') :
    ∃ data, s.slave.link.writing[i]? = some data ∧
      s'.slave.connected_ = (!error && s.slave.connected_) ∧
      s'.written = s.written ++ if error then [] else [data] := by
  obtain ⟨⟨data, link⟩, hlink, rfl⟩ := Option.map_eq_some_iff.mp hstep
  obtain ⟨hdata, -⟩ := AsyncLink.writing_completeWrite hlink
  refine ⟨data, hdata, by simp, ?_⟩
  cases error <;> simp [SlaveRun.written]

/-- All of a write was taken over, so it becomes one more update handed to the
current connection. -/
theorem inv_written {s : Transport} (h : s.Inv) {i : Nat}
    {slave : SlaveRun} (hslave : slave.Inv)
    (hcompletes : s.completes (.handleWriteUpdate i false) = true)
    (hstep : s.slave.step (.handleWriteUpdate i false) = some slave) :
    (s.follow (.handleWriteUpdate i false) slave).Inv := by
  obtain ⟨data, hdata, hconnected, hwritten⟩ := handleWriteUpdate_eq_some hstep
  obtain ⟨hc, hwriting, -⟩ := h.front hdata
  obtain ⟨session, earlier, hsessions, hcarries⟩ := h.current hc
  have hall : s.transferred = Update.framing.size := by
    simpa [completes] using hcompletes
  have hpart : s.part = Update.framing.encode data := by
    rw [part, hwriting, List.flatMap_singleton, hall]
    exact List.take_of_length_le (Update.framing.length_encode data).le
  rw [hpart] at hcarries
  have hfollow : s.follow (.handleWriteUpdate i false) slave =
      { slave, transferred := 0
        sessions := { session with
          stream := session.stream.report data } :: earlier } := by
    have hi : s.writing[i]? = some data := hdata
    simp only [follow, hi, hsessions]
  have hhanded := h.handed
  rw [Transport.handed, hsessions, List.reverse_cons, List.flatMap_append,
    List.flatMap_singleton] at hhanded
  rw [hfollow]
  let reported := { session with stream := session.stream.report data }
  obtain ⟨hstreams, hreading⟩ := h.replaceCurrent
    { slave, transferred := 0, sessions := reported :: earlier } hsessions
    rfl (by simp [hconnected, hc]) hcarries.report rfl rfl
  refine ⟨hslave, ?_, fun _ => List.cons_ne_nil _ _, hstreams, fun _ => rfl,
    Nat.zero_le _, hreading⟩
  rw [Transport.handed, List.reverse_cons, List.flatMap_append,
    List.flatMap_singleton, hwritten, ← hhanded]
  exact (List.append_assoc _ _ _).symm

/-- A write that fails leaves less than a frame on the connection that it
takes down. -/
theorem inv_failed {s : Transport} (h : s.Inv) {i : Nat}
    {slave : SlaveRun} (hslave : slave.Inv)
    (hcompletes : s.completes (.handleWriteUpdate i true) = true)
    (hstep : s.slave.step (.handleWriteUpdate i true) = some slave) :
    (s.follow (.handleWriteUpdate i true) slave).Inv := by
  obtain ⟨data, hdata, hconnected, hwritten⟩ := handleWriteUpdate_eq_some hstep
  obtain ⟨hc, -⟩ := h.front hdata
  have hless : s.transferred < Update.framing.size := by
    simpa [completes] using hcompletes
  refine ⟨hslave, ?_, fun _ => h.connected hc, ?_, fun _ => rfl,
    Nat.zero_le _, h.reading⟩
  · change s.handed = slave.written
    rw [hwritten, h.handed]
    exact (List.append_nil _).symm
  intro k session hk
  have hlt : ∃ bytes, session.stream.Carries Update.framing bytes ∧
      bytes.length < Update.framing.size := by
    by_cases hzero : k = 0
    · subst hzero
      obtain ⟨current, earlier, hsessions, hcarries⟩ := h.current hc
      rw [follow, hsessions] at hk
      obtain rfl := Option.some.inj hk
      exact ⟨s.part, hcarries, (List.length_take_le _ _).trans_lt hless⟩
    · exact h.former hk fun hcurrent => hzero hcurrent.1
  obtain ⟨bytes, hcarries, hbytes⟩ := hlt
  refine ⟨bytes, hcarries, ?_⟩
  rw [PartOf, if_neg fun hup => by simp [follow, hconnected] at hup]
  exact hbytes

/-- An event of the slave, together with what the connections see of it. -/
theorem inv_slave {s : Transport} (h : s.Inv) {event : SlaveEvent}
    {slave : SlaveRun} (hcompletes : s.completes event = true)
    (hstep : s.slave.step event = some slave) :
    (s.follow event slave).Inv := by
  have hslave : slave.Inv := SlaveRun.inv_step h.slave trivial hstep
  obtain ⟨hqueue, -⟩ :=
    SlaveRun.simulates_writeQueue h.slave trivial hstep
  have hsame : some s.slave.toQueue = some slave.toQueue →
      Inv { s with slave } := by
    intro heq
    have heq' := (Option.some.inj heq).symm
    exact h.frame hslave (congrArg WriteQueue.connected heq')
      (congrArg WriteQueue.popped heq')
      (Or.inl (congrArg WriteQueue.writing heq'))
  cases event with
  | handleAccept error => exact hsame hqueue
  | sessionHandleRead k incoming =>
      cases incoming with
      | none => exact hsame hqueue
      | some u =>
          rw [SlaveRun.queueEvents, StepSystem.runFrom_singleton] at hqueue
          have heq := (Option.some.inj hqueue).symm
          refine h.frame hslave (congrArg WriteQueue.connected heq)
            (congrArg WriteQueue.popped heq) ?_
          have hadded : slave.slave.link.writing = s.writing ++
              if s.slave.slave.connected_ = true ∧
                s.slave.slave.update_queue_ = [] then [u] else [] :=
            congrArg WriteQueue.writing heq
          by_cases hidle : s.slave.slave.connected_ = true ∧
              s.slave.slave.update_queue_ = []
          · apply Or.inr
            have hwriting : s.writing = if s.slave.slave.connected_ then
                s.slave.slave.update_queue_.take 1 else [] :=
              h.slave.queue.writing
            rw [hwriting, if_pos hidle.1, hidle.2]
            rfl
          · rw [if_neg hidle, List.append_nil] at hadded
            exact Or.inl hadded
  | handleConnect i error =>
      cases error with
      | false => exact inv_handleConnect h hslave hstep
      | true => exact hsame hqueue
  | handleWriteUpdate i error =>
      cases error with
      | false => exact inv_written h hslave hcompletes hstep
      | true => exact inv_failed h hslave hcompletes hstep
  | timer => exact hsame hqueue
  | timerCancelled => exact hsame hqueue

theorem inv_transfer {s s' : Transport} (h : s.Inv) {n : Nat}
    (hstep : s.step (.transfer n) = some s') : s'.Inv := by
  simp only [step] at hstep
  split at hstep
  · rename_i u session earlier hwriting hsessions
    split at hstep
    · rename_i hallowed
      obtain rfl := Option.some.inj hstep
      have hu : s.writing[0]? = some u := by rw [hwriting]; rfl
      obtain ⟨hc, -⟩ := h.front hu
      obtain ⟨current, rest, hcurrent, hcarries⟩ := h.current hc
      obtain ⟨rfl, rfl⟩ := List.cons.inj (hsessions.symm.trans hcurrent)
      have hpart : ∀ t, (s.writing.flatMap Update.bytes).take t =
          u.bytes.take t := by
        intro t
        rw [hwriting, List.flatMap_singleton]
      have hcarries' := hcarries.transfer ((u.bytes.drop s.transferred).take n)
      rw [part, hpart, ← List.take_add, ← hpart] at hcarries'
      let further := { session with
        stream := session.stream.transfer
          ((u.bytes.drop s.transferred).take n) }
      obtain ⟨hstreams, hreading⟩ := h.replaceCurrent
        { s with
          transferred := s.transferred + n
          sessions := further :: earlier } hsessions rfl hc hcarries' rfl
        (FrameStream.broken_transfer _ _)
      refine ⟨h.slave, ?_, fun _ => List.cons_ne_nil _ _, hstreams, ?_,
        hallowed.1, hreading⟩
      · rw [← h.handed, Transport.handed, Transport.handed, hsessions]
        simp only [List.reverse_cons, List.flatMap_append,
          List.flatMap_singleton, FrameStream.sent_transfer]
      · intro hidle
        rw [writing] at hwriting
        exact absurd (hwriting.symm.trans hidle) (List.cons_ne_nil _ _)
    · cases hstep
  · cases hstep

/-- Something happens to one session that changes nothing of what was handed
to its connection. -/
theorem inv_onSession {s s' : Transport} (h : s.Inv) {k : Nat}
    {may : MasterSession → Bool} {f : MasterSession → MasterSession}
    (hstep : s.onSession k may f = some s')
    (hsent : ∀ session, (f session).stream.sent = session.stream.sent)
    (hcarries : ∀ session bytes, may session = true →
      session.stream.Carries Update.framing bytes →
      (f session).stream.Carries Update.framing bytes)
    (hreading : ∀ session, (f session).stream.broken = false →
      session.stream.broken = false ∧
        (session.reading = true → (f session).reading = true)) :
    s'.Inv := by
  obtain ⟨session, hfound, rfl⟩ := Option.map_eq_some_iff.mp hstep
  obtain ⟨hk, hmay⟩ := Option.filter_eq_some_iff.mp hfound
  obtain ⟨hlt, -⟩ := List.getElem?_eq_some_iff.mp hk
  refine ⟨h.slave, ?_, ?_, ?_, h.idle, h.fits, ?_⟩
  · rw [← h.handed, Transport.handed, Transport.handed, List.flatMap_def,
      List.flatMap_def, List.map_reverse, List.map_reverse]
    congr 2
    rw [List.map_set, hsent]
    apply List.ext_getElem?
    intro j
    by_cases hjk : k = j
    · subst hjk
      rw [List.getElem?_set_self (by simpa using hlt), List.getElem?_map, hk]
      rfl
    · rw [List.getElem?_set_ne hjk]
  · intro hc hnil
    exact h.connected hc (by simpa using hnil)
  · intro j other hj
    rw [List.getElem?_set] at hj
    by_cases hjk : k = j
    · subst hjk
      rw [if_pos rfl, if_pos hlt] at hj
      obtain rfl := Option.some.inj hj
      obtain ⟨bytes, hold, hpart⟩ := h.streams k session hk
      exact ⟨bytes, hcarries session bytes hmay hold, hpart⟩
    · rw [if_neg hjk] at hj
      exact h.streams j other hj
  · intro other hother hwhole
    rcases List.mem_or_eq_of_mem_set hother with hold | rfl
    · exact h.reading other hold hwhole
    · obtain ⟨hwas, hkeeps⟩ := hreading session hwhole
      exact hkeeps (h.reading session (List.mem_of_getElem? hk) hwas)

/-- One step, whatever breaks. -/
theorem inv_step : transportSystem.Preserves Inv fun _ _ => True := by
  intro s s' event h _ hstep
  change s.step event = some s' at hstep
  cases event with
  | slave event =>
      rw [step] at hstep
      split at hstep
      · rename_i hcompletes
        obtain ⟨slave, hslave, rfl⟩ := Option.map_eq_some_iff.mp hstep
        exact inv_slave h hcompletes hslave
      · cases hstep
  | transfer n => exact inv_transfer h hstep
  | breakOff k =>
      refine inv_onSession h hstep (fun _ => rfl)
        (fun _ _ _ hold => hold.breakOff) fun _ hwhole => ?_
      cases hwhole
  | read k n =>
      exact inv_onSession h hstep (fun _ => rfl)
        (fun _ _ _ hold => hold.read n) fun _ hwhole => ⟨hwhole, id⟩
  | handleRead k error =>
      cases error with
      | false =>
          refine inv_onSession h hstep (fun _ => rfl)
            (fun session bytes hmay hold => hold.receive ?_)
            fun _ hwhole => ⟨hwhole, fun _ => rfl⟩
          simpa using (Bool.and_eq_true_iff.mp hmay).2
      | true =>
          refine inv_onSession h hstep (fun _ => rfl)
            (fun _ _ _ hold => hold.breakOff) fun _ hwhole => ?_
          cases hwhole
  | handleWritePing k error =>
      cases error with
      | false =>
          exact inv_onSession h hstep (fun _ => rfl)
            (fun _ _ _ hold => hold) fun _ hwhole => ⟨hwhole, id⟩
      | true =>
          refine inv_onSession h hstep (fun _ => rfl)
            (fun _ _ _ hold => hold.breakOff) fun _ hwhole => ?_
          cases hwhole

/-- Only the current session can have processed more than its connection was
handed. -/
theorem Inv.received {s : Transport} (h : s.Inv) {k : Nat}
    {session : MasterSession} (hk : s.sessions[k]? = some session) :
    session.stream.received <+: session.stream.sent ∨
      k = 0 ∧ ∃ u rest, s.slave.slave.update_queue_ = u :: rest ∧
        session.stream.received = session.stream.sent ++ [u] := by
  obtain ⟨bytes, hcarries, hpart⟩ := h.streams k session hk
  by_cases hcurrent : k = 0 ∧ s.slave.slave.connected_ = true
  · rw [PartOf, if_pos hcurrent] at hpart
    subst hpart
    rcases Nat.lt_or_eq_of_le h.fits with hless | hall
    · exact Or.inl (hcarries.received_prefix
        ((List.length_take_le _ _).trans_lt hless))
    · rcases hwriting : s.writing with - | ⟨u, others⟩
      · refine Or.inl (hcarries.received_prefix ?_)
        rw [part, hwriting, List.flatMap_nil, List.take_nil]
        exact Update.framing.size_pos
      · obtain ⟨-, hone, rest, hqueue⟩ := h.front (i := 0) (u := u)
          (by rw [hwriting]; rfl)
        have hframe : s.part = Update.framing.encode u := by
          rw [part, hone, List.flatMap_singleton, hall]
          exact List.take_of_length_le (Update.framing.length_encode u).le
        rw [hframe] at hcarries
        rcases List.prefix_concat_iff.mp hcarries.received_prefix_concat with
          hboth | hsent
        · exact Or.inr ⟨hcurrent.1, u, rest, hqueue, hboth⟩
        · exact Or.inl hsent
  · rw [PartOf, if_neg hcurrent] at hpart
    exact Or.inl (hcarries.received_prefix hpart)

theorem sublist_flatMap {α β : Type} {f g : α → List β} {l : List α}
    (h : ∀ a ∈ l, f a <+: g a) : (l.flatMap f).Sublist (l.flatMap g) := by
  induction l with
  | nil => exact List.Sublist.refl []
  | cons a l ih =>
      rw [List.flatMap_cons, List.flatMap_cons]
      exact (h a List.mem_cons_self).sublist.append
        (ih fun b hb => h b (List.mem_cons_of_mem a hb))

theorem Inv.once {s : Transport} (h : s.Inv) :
    s.processed.Sublist s.slave.passed := by
  have hpassed : s.handed ++ s.slave.slave.update_queue_ = s.slave.passed :=
    (congrArg (· ++ _) h.handed).trans h.slave.queue.accepted
  rw [← hpassed, processed, Transport.handed]
  rcases hsessions : s.sessions with - | ⟨session, earlier⟩
  · exact List.nil_sublist _
  · rw [List.reverse_cons, List.flatMap_append, List.flatMap_append,
      List.flatMap_singleton, List.flatMap_singleton, List.append_assoc]
    refine (sublist_flatMap fun other hother => ?_).append ?_
    · obtain ⟨k, hk⟩ := List.getElem?_of_mem (List.mem_reverse.mp hother)
      have hk' : s.sessions[k + 1]? = some other := by rw [hsessions]; exact hk
      exact (h.received hk').resolve_right
        fun hzero => Nat.succ_ne_zero k hzero.1
    · have hk : s.sessions[0]? = some session := by rw [hsessions]; rfl
      rcases h.received hk with hsent | ⟨-, u, rest, hqueue, hboth⟩
      · exact hsent.sublist.trans (List.sublist_append_left _ _)
      · rw [hboth, hqueue]
        exact (List.Sublist.refl _).append
          (List.cons_sublist_cons.mpr (List.nil_sublist _))

theorem Inv.inStep {s : Transport} (h : s.Inv) {session : MasterSession}
    (hsession : session ∈ s.sessions) : s.InStep session := by
  obtain ⟨j, hj⟩ := List.getElem?_of_mem hsession
  rcases h.received hj with hfirst | ⟨-, hall⟩
  · exact Or.inl hfirst
  · exact Or.inr hall

theorem Inv.accounted {s : Transport} (h : s.Inv) {session : MasterSession}
    (hsession : session ∈ s.sessions) {k : Nat} {u : Update}
    (hsent : session.stream.sent[k]? = some u) : session.Accounts k u ∨
      session.stream.received.length ≤ k ∧ session.stream.broken = true := by
  obtain ⟨j, hj⟩ := List.getElem?_of_mem hsession
  obtain ⟨bytes, hcarries, -⟩ := h.streams j session hj
  have hreceived : session.stream.received <+: session.stream.sent ∨
      session.stream.sent <+: session.stream.received := by
    rcases h.inStep hsession with hfirst | ⟨v, rest, -, hall⟩
    · exact Or.inl hfirst
    · rw [hall]
      exact Or.inr (List.prefix_append _ _)
  by_cases hdone : k < session.stream.received.length
  · left
    left
    rw [← hsent]
    rcases hreceived with ⟨rest, hrest⟩ | ⟨rest, hrest⟩
    · rw [← hrest, List.getElem?_append_left hdone]
    · obtain ⟨hk, -⟩ := List.getElem?_eq_some_iff.mp hsent
      rw [← hrest, List.getElem?_append_left hk]
  · by_cases hbroken : session.stream.broken = true
    · exact Or.inr ⟨Nat.not_lt.mp hdone, hbroken⟩
    · have hwhole := Bool.eq_false_iff.mpr hbroken
      exact Or.inl (Or.inr ⟨Nat.not_lt.mp hdone, hwhole,
        h.reading session hsession hwhole,
        hcarries.onItsWay hwhole hreceived⟩)

theorem Inv.delivers {s : Transport} (h : s.Inv) : s.Delivers where
  popped := by
    rw [h.handed, SlaveRun.written, List.map_map]
    exact List.map_congr_left h.slave.queue.popped
  once := h.once
  inStep _ hsession := h.inStep hsession
  accounted _ hsession _ _ hsent := h.accounted hsession hsent

end Transport

/-- Over any run, with connections breaking wherever they like. -/
theorem transport_delivers (events : List TransportEvent) :
    transportSystem.Always Transport.Delivers events :=
  transportSystem.always_of_invariant Transport.inv_init Transport.inv_step
    (fun _ h => h.delivers) events

def reportOfOnes : Update :=
  Update.make ⟨Vector.replicate 20 1⟩ .report 1200000000

/-- The connection breaks after the update was written and before the master
has read it. -/
def brokenAfterWrite : List TransportEvent :=
  [.slave (.handleAccept false),
    .slave (.sessionHandleRead 0 (some reportOfOnes)),
    .slave (.handleConnect 0 false), .transfer 28,
    .slave (.handleWriteUpdate 0 false), .breakOff 0]

theorem transport_not_always_accounts :
    ¬ ∀ events s, transportSystem.run events = some s →
      ∀ session ∈ s.sessions, ∀ k u,
        session.stream.sent[k]? = some u → session.Accounts k u := by
  intro h
  obtain ⟨s, session, hrun, hsession, hsent, hreceived, hbroken⟩ :
      ∃ s session, transportSystem.run brokenAfterWrite = some s ∧
        session ∈ s.sessions ∧
        session.stream.sent[0]? = some reportOfOnes ∧
        session.stream.received = [] ∧ session.stream.broken = true :=
    ⟨_, _, rfl, List.mem_cons_self, rfl, rfl, rfl⟩
  rcases h brokenAfterWrite s hrun session hsession 0 reportOfOnes hsent with
    hprocessed | ⟨-, hinFlight⟩
  · rw [hreceived] at hprocessed
    cases hprocessed
  · rw [hinFlight.whole] at hbroken
    cases hbroken

end BohunoPyzord
