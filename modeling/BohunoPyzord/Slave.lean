/-
The slave: it collects updates from local sessions in one queue and writes
them to the master over a TCP connection that it keeps re-establishing.
-/
import BohunoPyzord.AsyncLink
import BohunoPyzord.StepSystem
import BohunoPyzord.Update
import Mathlib.Tactic.Simps.Basic

namespace BohunoPyzord

/-- `slave::session`: whether a read of `incoming_update_` is outstanding, and
the flag its ping timer looks at. -/
structure SlaveSession where
  reading : Bool
  connected_ : Bool
deriving DecidableEq, Repr

/-- `session::start()`. -/
def SlaveSession.start : SlaveSession :=
  { reading := true, connected_ := true }

/-- The error branch of `session::handle_read`: the socket is closed. -/
def SlaveSession.stop (session : SlaveSession) : SlaveSession :=
  { session with reading := false, connected_ := false }

/-- `pyzor::slave`: `link` is `socket_` with `connect_timer_`, `accepting`
says whether an accept is outstanding on `acceptor_`. -/
structure Slave where
  link : AsyncLink Update
  update_queue_ : List Update
  connected_ : Bool
  accepting : Bool
  sessions : List SlaveSession
deriving DecidableEq, Repr

namespace Slave

@[simps] def connect (d : Slave) : Slave :=
  { d with link := d.link.asyncConnect }

/-- `async_write` of the front of the queue. -/
@[simps update_queue_ connected_ accepting sessions]
def asyncWriteFront (d : Slave) : Slave :=
  { d with
    link := match d.update_queue_ with
      | [] => d.link
      | front :: _ => d.link.asyncWrite front }

/-- Arm `connect_timer_` so that `connect` runs in five seconds. -/
@[simps] def retryConnect (d : Slave) : Slave :=
  { d with link := d.link.expiresFromNow.asyncWait }

@[simps] def closeSocket (d : Slave) : Slave :=
  { d with link := d.link.close }

def handleConnect (d : Slave) (error : Bool) : Slave :=
  if !error then
    let d := { d with connected_ := true }
    if !d.update_queue_.isEmpty then d.asyncWriteFront else d
  else
    { d.closeSocket with connected_ := false }.retryConnect

def writeUpdate (d : Slave) (u : Update) : Slave :=
  let writeInProgress := !d.update_queue_.isEmpty
  let d := { d with update_queue_ := d.update_queue_ ++ [u] }
  if d.connected_ && !writeInProgress then d.asyncWriteFront else d

def handleWriteUpdate (d : Slave) (error : Bool) : Slave :=
  if !error then
    let d := { d with update_queue_ := d.update_queue_.tail }
    if d.connected_ && !d.update_queue_.isEmpty then d.asyncWriteFront else d
  else
    { d.closeSocket with connected_ := false }.retryConnect

def handleAccept (d : Slave) (error : Bool) : Slave :=
  if !error then
    { d with sessions := d.sessions ++ [SlaveSession.start], accepting := true }
  else d

/-- `handle_read` of session `k`, with what the read left in
`incoming_update_`, or `none` for an error. -/
def sessionHandleRead (d : Slave) (k : Nat) (incoming : Option Update) :
    Slave :=
  match incoming with
  | some u =>
      let d := d.writeUpdate u
      { d with sessions := d.sessions.modify k fun session =>
          { session with reading := true } }
  | none => { d with sessions := d.sessions.modify k SlaveSession.stop }

/-- The state the constructor leaves: an accept and a connect have been
started. -/
def start : Slave :=
  connect
    { link := AsyncLink.idle, update_queue_ := [], connected_ := false,
      accepting := true, sessions := [] }

/-! What each handler does to the queue and to what is being written. -/

@[simp] theorem asyncWriteFront_writing (d : Slave) :
    d.asyncWriteFront.link.writing =
      d.link.writing ++ d.update_queue_.take 1 := by
  cases hq : d.update_queue_ <;> simp [asyncWriteFront, hq]

@[simp] theorem handleConnect_update_queue_ (d : Slave) (error : Bool) :
    (d.handleConnect error).update_queue_ = d.update_queue_ := by
  cases error <;> cases hq : d.update_queue_ <;> simp [handleConnect, hq]

@[simp] theorem handleConnect_connected_ (d : Slave) (error : Bool) :
    (d.handleConnect error).connected_ = !error := by
  cases error <;> cases hq : d.update_queue_ <;> simp [handleConnect, hq]

@[simp] theorem handleConnect_writing (d : Slave) (error : Bool) :
    (d.handleConnect error).link.writing =
      d.link.writing ++ if error then [] else d.update_queue_.take 1 := by
  cases error <;> cases hq : d.update_queue_ <;> simp [handleConnect, hq]

@[simp] theorem writeUpdate_update_queue_ (d : Slave) (u : Update) :
    (d.writeUpdate u).update_queue_ = d.update_queue_ ++ [u] := by
  simp only [writeUpdate]
  split <;> rfl

@[simp] theorem writeUpdate_connected_ (d : Slave) (u : Update) :
    (d.writeUpdate u).connected_ = d.connected_ := by
  simp only [writeUpdate]
  split <;> rfl

@[simp] theorem writeUpdate_writing (d : Slave) (u : Update) :
    (d.writeUpdate u).link.writing = d.link.writing ++
      if d.connected_ = true ∧ d.update_queue_ = [] then [u] else [] := by
  cases hc : d.connected_ <;> cases hq : d.update_queue_ <;>
    simp [writeUpdate, hc, hq]

@[simp] theorem handleWriteUpdate_update_queue_ (d : Slave) (error : Bool) :
    (d.handleWriteUpdate error).update_queue_ =
      if error then d.update_queue_ else d.update_queue_.tail := by
  cases error with
  | false =>
      simp only [handleWriteUpdate, Bool.not_false, ↓reduceIte]
      split <;> simp
  | true => rfl

@[simp] theorem handleWriteUpdate_connected_ (d : Slave) (error : Bool) :
    (d.handleWriteUpdate error).connected_ = (!error && d.connected_) := by
  cases error with
  | false =>
      simp only [handleWriteUpdate, Bool.not_false, ↓reduceIte]
      split <;> simp
  | true => rfl

@[simp] theorem handleWriteUpdate_writing (d : Slave) (error : Bool) :
    (d.handleWriteUpdate error).link.writing =
      d.link.writing ++ if error = false ∧ d.connected_ = true
        then d.update_queue_.tail.take 1 else [] := by
  cases error with
  | false =>
      cases hc : d.connected_ <;> cases hq : d.update_queue_.tail <;>
        simp [handleWriteUpdate, hc, hq]
  | true => simp [handleWriteUpdate]

end Slave

/-- What can happen to a slave.  A completion names the outstanding operation
it completes; `timerCancelled` is the handler of a cancelled wait, which
cannot tell that it was cancelled. -/
inductive SlaveEvent where
  | handleAccept (error : Bool)
  | sessionHandleRead (k : Nat) (incoming : Option Update)
  | handleConnect (i : Nat) (error : Bool)
  | handleWriteUpdate (i : Nat) (error : Bool)
  | timer
  | timerCancelled
deriving DecidableEq, Repr

/-- A slave with its history: the updates passed to `writeUpdate`, and for
each successful write what was written and what was popped for it. -/
structure SlaveRun where
  slave : Slave
  passed : List Update
  popped : List (Update × Option Update)
deriving DecidableEq, Repr

namespace SlaveRun

/-- The updates whose write completed successfully, in order. -/
def written (s : SlaveRun) : List Update := s.popped.map Prod.fst

def step (s : SlaveRun) : SlaveEvent → Option SlaveRun
  | .handleAccept error =>
      if s.slave.accepting then
        some { s with
          slave := { s.slave with accepting := false }.handleAccept error }
      else none
  | .sessionHandleRead k incoming =>
      match s.slave.sessions[k]? with
      | some ⟨true, _⟩ => some { s with
          slave := s.slave.sessionHandleRead k incoming
          passed := s.passed ++ incoming.toList }
      | _ => none
  | .handleConnect i error =>
      (s.slave.link.completeConnect i error).map fun link =>
        { s with slave := { s.slave with link }.handleConnect error }
  | .handleWriteUpdate i error =>
      (s.slave.link.completeWrite i error).map fun (data, link) =>
        { s with
          slave := { s.slave with link }.handleWriteUpdate error
          popped := if error then s.popped
            else s.popped ++ [(data, s.slave.update_queue_.head?)] }
  | .timer =>
      s.slave.link.expire.map fun link =>
        { s with slave := { s.slave with link }.connect }
  | .timerCancelled =>
      s.slave.link.runCancelled.map fun link =>
        { s with slave := { s.slave with link }.connect }

end SlaveRun

def slaveSystem : StepSystem SlaveRun SlaveEvent where
  init := { slave := Slave.start, passed := [], popped := [] }
  step := SlaveRun.step

end BohunoPyzord
