/-
The way of an update from the slave's queue to the master's database: frames
of 28 bytes over a TCP connection, read one by one by a session of the master.
The slave takes an update off its queue as soon as its bytes are written.
-/
import BohunoPyzord.FrameStream
import BohunoPyzord.Slave
import Mathlib.Data.List.GetD
import Mathlib.Tactic.IntervalCases

namespace BohunoPyzord

/-- The bytes of a word in memory. -/
def wordBytes (v : Uint32) : List Byte :=
  [byteAt v 0, byteAt v 1, byteAt v 2, byteAt v 3]

/-- The word at an offset in memory. -/
def wordAt (bs : List Byte) (k : Nat) : Uint32 :=
  wordOfBytes (bs.getD k 0) (bs.getD (k + 1) 0) (bs.getD (k + 2) 0)
    (bs.getD (k + 3) 0)

theorem wordBytes_wordAt (bs : List Byte) (k : Nat)
    (hk : k + 4 ≤ bs.length) : wordBytes (wordAt bs k) =
      (bs.drop k).take 4 := by
  obtain ⟨h0, h1, h2, h3⟩ := byteAt_wordOfBytes (bs.getD k 0)
    (bs.getD (k + 1) 0) (bs.getD (k + 2) 0) (bs.getD (k + 3) 0)
  rw [wordBytes, wordAt, h0, h1, h2, h3]
  apply List.ext_getElem (by simp; omega)
  intro i hi hi'
  have hi4 : i < 4 := hi
  rw [List.getElem_take, List.getElem_drop]
  have hget : ∀ j, j < 4 → ∀ hj : k + j < bs.length,
      bs.getD (k + j) 0 = bs[k + j] := fun j _ hj => List.getD_eq_getElem _ _ hj
  interval_cases i
  · exact hget 0 (by omega) (by omega)
  · exact hget 1 (by omega) (by omega)
  · exact hget 2 (by omega) (by omega)
  · exact hget 3 (by omega) (by omega)

namespace Update

/-- An update in memory, as `async_write` sends it. -/
def bytes (u : Update) : List Byte :=
  u.hash_.data_.toList ++ wordBytes u.type_ ++ wordBytes u.time_

/-- The update that `async_read` into `update_` leaves there. -/
def ofBytes (bs : List Byte) : Update :=
  { hash_ := ⟨Vector.ofFn fun i : Fin 20 => bs.getD i 0⟩
    type_ := wordAt bs 20
    time_ := wordAt bs 24 }

theorem length_bytes (u : Update) : u.bytes.length = 28 := by
  simp [bytes, wordBytes]

theorem bytes_ofBytes (bs : List Byte) (h : bs.length = 28) :
    (ofBytes bs).bytes = bs := by
  have hhash : (Vector.ofFn fun i : Fin 20 => bs.getD i 0).toList =
      bs.take 20 := by
    apply List.ext_getElem (by simp [h])
    intro i hi hi'
    have hi28 : i < bs.length := by
      simp only [Vector.length_toList] at hi
      omega
    rw [Vector.getElem_toList, Vector.getElem_ofFn, List.getElem_take]
    exact List.getD_eq_getElem _ _ hi28
  have hend : (bs.drop 24).take 4 = bs.drop 24 :=
    List.take_of_length_le (by rw [List.length_drop]; omega)
  rw [bytes, ofBytes, hhash, wordBytes_wordAt bs 20 (by omega),
    wordBytes_wordAt bs 24 (by omega), hend, List.append_assoc]
  have hmiddle : (bs.drop 20).take 4 ++ bs.drop 24 = bs.drop 20 := by
    have hsplit := List.take_append_drop 4 (bs.drop 20)
    rwa [List.drop_drop] at hsplit
  rw [hmiddle, List.take_append_drop]

theorem bytes_injective {u v : Update} (h : u.bytes = v.bytes) : u = v := by
  have hword : ∀ {v w : Uint32}, wordBytes v = wordBytes w → v = w := by
    intro v w hbytes
    simp only [wordBytes, List.cons.injEq] at hbytes
    rw [← wordOfBytes_byteAt v, ← wordOfBytes_byteAt w, hbytes.1,
      hbytes.2.1, hbytes.2.2.1, hbytes.2.2.2.1]
  obtain ⟨hfront, htime⟩ := List.append_inj' h rfl
  obtain ⟨hhash, htype⟩ := List.append_inj' hfront rfl
  cases u with
  | mk hash type time =>
      cases v with
      | mk hash' type' time' =>
          cases hash
          cases hash'
          simp only [mk.injEq, Hash.mk.injEq]
          exact ⟨Vector.toList_inj.mp hhash, hword htype, hword htime⟩

theorem ofBytes_bytes (u : Update) : ofBytes u.bytes = u :=
  bytes_injective (bytes_ofBytes u.bytes u.length_bytes)

/-- `sizeof(update)` bytes hold one update. -/
def framing : Framing Update Byte where
  size := 28
  encode := bytes
  decode := ofBytes
  size_pos := by decide
  length_encode := length_bytes
  decode_encode := ofBytes_bytes
  encode_decode := bytes_ofBytes

end Update

/-- `master::session`: its connection, with the bytes that its read has put
into `update_` so far as the buffer and the updates it has passed to
`process_update` as the received ones. -/
structure MasterSession where
  stream : FrameStream Update Byte
  reading : Bool
  connected_ : Bool
deriving DecidableEq, Repr

namespace MasterSession

/-- `session::start()` over a new connection. -/
def start : MasterSession :=
  { stream := FrameStream.fresh, reading := true, connected_ := true }

/-- What `socket_.close()` and the other end's absence come to. -/
def breakOff (session : MasterSession) : MasterSession :=
  { session with stream := session.stream.breakOff }

def read (n : Nat) (session : MasterSession) : MasterSession :=
  { session with stream := session.stream.read n }

/-- The read of `update_` is over: without an error the update is processed
and the next read started. -/
def handleRead (error : Bool) (session : MasterSession) : MasterSession :=
  if !error then
    { session with
      stream := session.stream.receive Update.framing
      reading := true }
  else { session.breakOff with reading := false, connected_ := false }

def handleWritePing (error : Bool) (session : MasterSession) :
    MasterSession :=
  if !error then session else { session.breakOff with connected_ := false }

end MasterSession

/-- The slave and the sessions its connections were accepted by, the newest
first.  `transferred` counts the bytes of the outstanding write that TCP has
taken over. -/
structure Transport where
  slave : SlaveRun
  transferred : Nat
  sessions : List MasterSession
deriving DecidableEq, Repr

/-- A connection can break whenever it likes, and a read fails over one that
is broken or is broken by that. -/
inductive TransportEvent where
  | slave (event : SlaveEvent)
  | transfer (n : Nat)
  | breakOff (k : Nat)
  | read (k n : Nat)
  | handleRead (k : Nat) (error : Bool)
  | handleWritePing (k : Nat) (error : Bool)
deriving DecidableEq, Repr

namespace Transport

/-- What the slave's outstanding writes are writing. -/
def writing (s : Transport) : List Update := s.slave.slave.link.writing

/-- An `async_write` succeeds when all its bytes were taken over, and fails
before that. -/
def completes (s : Transport) : SlaveEvent → Bool
  | .handleWriteUpdate _ false => s.transferred = Update.framing.size
  | .handleWriteUpdate _ true => s.transferred < Update.framing.size
  | _ => true

/-- The slave's event as the connections see it: the master accepts a connect
that succeeds, and a write that succeeds was the one over the newest
connection. -/
def follow (s : Transport) (event : SlaveEvent) (slave : SlaveRun) :
    Transport :=
  match event with
  | .handleConnect _ false =>
      { slave, transferred := 0
        sessions := MasterSession.start :: s.sessions }
  | .handleWriteUpdate i false =>
      { slave, transferred := 0
        sessions := match s.writing[i]?, s.sessions with
          | some u, session :: sessions =>
              { session with stream := session.stream.report u } :: sessions
          | _, sessions => sessions }
  | .handleWriteUpdate _ true => { s with slave, transferred := 0 }
  | _ => { s with slave }

/-- Something happens to session `k`, if it may. -/
def onSession (s : Transport) (k : Nat) (may : MasterSession → Bool)
    (f : MasterSession → MasterSession) : Option Transport :=
  (s.sessions[k]?.filter may).map fun session =>
    { s with sessions := s.sessions.set k (f session) }

def step (s : Transport) : TransportEvent → Option Transport
  | .slave event =>
      if s.completes event then (s.slave.step event).map (s.follow event)
      else none
  | .transfer n =>
      match s.writing, s.sessions with
      | [u], session :: sessions =>
          if s.transferred + n ≤ Update.framing.size ∧
              s.slave.slave.link.socket = .established then
            let units := (u.bytes.drop s.transferred).take n
            some { s with
              transferred := s.transferred + n
              sessions := { session with
                stream := session.stream.transfer units } :: sessions }
          else none
      | _, _ => none
  | .breakOff k => s.onSession k (fun _ => true) MasterSession.breakOff
  | .read k n =>
      s.onSession k (fun session => session.reading &&
        decide (session.stream.buffer.length + n ≤ Update.framing.size) &&
        decide (n ≤ session.stream.inFlight.length)) (MasterSession.read n)
  | .handleRead k error =>
      s.onSession k (fun session => session.reading &&
        (if error then
          decide (session.stream.buffer.length < Update.framing.size)
        else decide (session.stream.buffer.length = Update.framing.size)))
        (MasterSession.handleRead error)
  | .handleWritePing k error =>
      s.onSession k MasterSession.connected_
        (MasterSession.handleWritePing error)

end Transport

def transportSystem : StepSystem Transport TransportEvent where
  init := { slave := slaveSystem.init, transferred := 0, sessions := [] }
  step := Transport.step

end BohunoPyzord
