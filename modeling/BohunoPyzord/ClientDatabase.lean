/-
The client side of the signature database: a read-only Berkeley DB handle
triple that is open while a local TCP connection is up, and a queue of updates
written over that connection.  Five handlers share the queue, the socket, one
timer and the flag `connected_`.
-/
import BohunoPyzord.AsyncLink
import BohunoPyzord.Outbox
import BohunoPyzord.Update
import Mathlib.Tactic.Simps.Basic

namespace BohunoPyzord

/-- A Berkeley DB pointer: `NULL`, or what an open call left in it. -/
inductive Handle where
  | null
  | opened
deriving DecidableEq, Repr

/-- The signals a database emits to its listeners. -/
inductive DatabaseSignal where
  | start
  | stop
deriving DecidableEq, Repr

/-- `pyzor::database`: `link` is `socket_` with `connect_timer_`, `signals`
what `start_signal_` and `stop_signal_` have emitted. -/
structure ClientDatabase where
  link : AsyncLink Update
  updates_ : List Update
  connected_ : Bool
  env_ : Handle
  db_ : Handle
  index_ : Handle
  signals : List DatabaseSignal
deriving DecidableEq, Repr

namespace ClientDatabase

/-- `setup()` when every Berkeley DB call succeeds. -/
@[simps] def setup (d : ClientDatabase) : ClientDatabase :=
  { d with env_ := .opened, db_ := .opened, index_ := .opened }

/-- `teardown()`: each handle that is not `NULL` is closed and set to it. -/
@[simps] def teardown (d : ClientDatabase) : ClientDatabase :=
  { d with env_ := .null, db_ := .null, index_ := .null }

def up (d : ClientDatabase) : Bool := d.connected_

@[simps] def connect (d : ClientDatabase) : ClientDatabase :=
  { d with link := d.link.asyncConnect }

/-- `async_write` of the front of the queue. -/
@[simps updates_ connected_ env_ db_ index_ signals]
def asyncWriteFront (d : ClientDatabase) : ClientDatabase :=
  { d with
    link := match d.updates_ with
      | [] => d.link
      | front :: _ => d.link.asyncWrite front }

/-- Arm `connect_timer_` so that `connect` runs in five seconds. -/
@[simps] def retryConnect (d : ClientDatabase) : ClientDatabase :=
  { d with link := d.link.expiresFromNow.asyncWait }

@[simps] def closeSocket (d : ClientDatabase) : ClientDatabase :=
  { d with link := d.link.close }

@[simps] def asyncReadPing (d : ClientDatabase) : ClientDatabase :=
  { d with link := d.link.asyncRead }

@[simps] def emit (d : ClientDatabase) (signal : DatabaseSignal) : ClientDatabase :=
  { d with signals := d.signals ++ [signal] }

def handleConnect (d : ClientDatabase) (error : Bool) : ClientDatabase :=
  if !error then
    let d := { d with connected_ := true }
    let d := d.setup.emit .start
    let d := if !d.updates_.isEmpty then d.asyncWriteFront else d
    d.asyncReadPing
  else
    d.closeSocket.retryConnect

def handleReadPing (d : ClientDatabase) (error : Bool) : ClientDatabase :=
  if !error then
    d.asyncReadPing
  else
    -- `connected_` keeps its value here
    (d.closeSocket.emit .stop).teardown.retryConnect

def writeUpdate (d : ClientDatabase) (u : Update) : ClientDatabase :=
  let writeInProgress := !d.updates_.isEmpty
  let d := { d with updates_ := d.updates_ ++ [u] }
  if d.connected_ && !writeInProgress then d.asyncWriteFront else d

def handleWriteUpdate (d : ClientDatabase) (error : Bool) : ClientDatabase :=
  if !error then
    let d := { d with updates_ := d.updates_.tail }
    if d.connected_ && !d.updates_.isEmpty then d.asyncWriteFront else d
  else
    let d := { d.closeSocket with connected_ := false }
    (d.emit .stop).teardown.retryConnect

/-- The state the constructor leaves: a connect has been started. -/
def start : ClientDatabase :=
  connect
    { link := AsyncLink.idle, updates_ := [], connected_ := false,
      env_ := .null, db_ := .null, index_ := .null, signals := [] }

/-- The handles are open: the last `setup` has not been followed by a
`teardown`. -/
def HandlesOpen (d : ClientDatabase) : Prop :=
  d.env_ = .opened ∧ d.db_ = .opened ∧ d.index_ = .opened

instance (d : ClientDatabase) : Decidable d.HandlesOpen :=
  inferInstanceAs (Decidable (_ ∧ _ ∧ _))

/-! What each handler does to the queue and to what is being written. -/

@[simp] theorem asyncWriteFront_writing (d : ClientDatabase) :
    d.asyncWriteFront.link.writing = d.link.writing ++ d.updates_.take 1 := by
  cases hq : d.updates_ <;> simp [asyncWriteFront, hq]

@[simp] theorem connect_writing (d : ClientDatabase) :
    d.connect.link.writing = d.link.writing := rfl

@[simp] theorem handleConnect_updates_ (d : ClientDatabase) (error : Bool) :
    (d.handleConnect error).updates_ = d.updates_ := by
  cases error <;> cases hq : d.updates_ <;> simp [handleConnect, hq]

@[simp] theorem handleConnect_connected_ (d : ClientDatabase) (error : Bool) :
    (d.handleConnect error).connected_ = (!error || d.connected_) := by
  cases error <;> cases hq : d.updates_ <;> simp [handleConnect, hq]

@[simp] theorem handleConnect_writing (d : ClientDatabase) (error : Bool) :
    (d.handleConnect error).link.writing =
      d.link.writing ++ if error then [] else d.updates_.take 1 := by
  cases error <;> cases hq : d.updates_ <;> simp [handleConnect, hq]

@[simp] theorem handleReadPing_updates_ (d : ClientDatabase) (error : Bool) :
    (d.handleReadPing error).updates_ = d.updates_ := by
  cases error <;> rfl

@[simp] theorem handleReadPing_connected_ (d : ClientDatabase) (error : Bool) :
    (d.handleReadPing error).connected_ = d.connected_ := by
  cases error <;> rfl

@[simp] theorem handleReadPing_writing (d : ClientDatabase) (error : Bool) :
    (d.handleReadPing error).link.writing = d.link.writing := by
  cases error <;> simp [handleReadPing]

@[simp] theorem writeUpdate_updates_ (d : ClientDatabase) (u : Update) :
    (d.writeUpdate u).updates_ = d.updates_ ++ [u] := by
  simp only [writeUpdate]
  split <;> rfl

@[simp] theorem writeUpdate_connected_ (d : ClientDatabase) (u : Update) :
    (d.writeUpdate u).connected_ = d.connected_ := by
  simp only [writeUpdate]
  split <;> rfl

@[simp] theorem writeUpdate_writing (d : ClientDatabase) (u : Update) :
    (d.writeUpdate u).link.writing = d.link.writing ++
      if d.connected_ = true ∧ d.updates_ = [] then [u] else [] := by
  cases hc : d.connected_ <;> cases hq : d.updates_ <;>
    simp [writeUpdate, hc, hq]

@[simp] theorem handleWriteUpdate_updates_ (d : ClientDatabase)
    (error : Bool) : (d.handleWriteUpdate error).updates_ =
      if error then d.updates_ else d.updates_.tail := by
  cases error with
  | false =>
      simp only [handleWriteUpdate, Bool.not_false, ↓reduceIte]
      split <;> simp
  | true => rfl

@[simp] theorem handleWriteUpdate_connected_ (d : ClientDatabase)
    (error : Bool) : (d.handleWriteUpdate error).connected_ =
      (!error && d.connected_) := by
  cases error with
  | false =>
      simp only [handleWriteUpdate, Bool.not_false, ↓reduceIte]
      split <;> simp
  | true => rfl

@[simp] theorem handleWriteUpdate_writing (d : ClientDatabase)
    (error : Bool) : (d.handleWriteUpdate error).link.writing =
      d.link.writing ++ if error = false ∧ d.connected_ = true
        then d.updates_.tail.take 1 else [] := by
  cases error with
  | false =>
      cases hc : d.connected_ <;> cases hq : d.updates_.tail <;>
        simp [handleWriteUpdate, hc, hq]
  | true => simp [handleWriteUpdate]

end ClientDatabase

/-- What can happen to a client database.  A completion names the outstanding
operation it completes; `timerCancelled` is the handler of a cancelled wait,
which cannot tell that it was cancelled. -/
inductive ClientEvent where
  | writeUpdate (u : Update)
  | handleConnect (i : Nat) (error : Bool)
  | handleReadPing (i : Nat) (error : Bool)
  | handleWriteUpdate (i : Nat) (error : Bool)
  | timer
  | timerCancelled
deriving DecidableEq, Repr

/-- A client database with its history: the updates passed to `writeUpdate`,
and for each successful write what was written and what was popped for it. -/
structure ClientRun where
  db : ClientDatabase
  passed : List Update
  popped : List (Update × Option Update)
deriving DecidableEq, Repr

namespace ClientRun

/-- The updates whose write completed successfully, in order. -/
def written (s : ClientRun) : List Update := s.popped.map Prod.fst

def step (s : ClientRun) : ClientEvent → Option ClientRun
  | .writeUpdate u =>
      some { s with db := s.db.writeUpdate u, passed := s.passed ++ [u] }
  | .handleConnect i error =>
      (s.db.link.completeConnect i error).map fun link =>
        { s with db := { s.db with link }.handleConnect error }
  | .handleReadPing i error =>
      (s.db.link.completeRead i error).map fun link =>
        { s with db := { s.db with link }.handleReadPing error }
  | .handleWriteUpdate i error =>
      (s.db.link.completeWrite i error).map fun (data, link) =>
        { s with
          db := { s.db with link }.handleWriteUpdate error
          popped := if error then s.popped
            else s.popped ++ [(data, s.db.updates_.head?)] }
  | .timer =>
      s.db.link.expire.map fun link =>
        { s with db := { s.db with link }.connect }
  | .timerCancelled =>
      s.db.link.runCancelled.map fun link =>
        { s with db := { s.db with link }.connect }

end ClientRun

def clientSystem : StepSystem ClientRun ClientEvent where
  init := { db := ClientDatabase.start, passed := [], popped := [] }
  step := ClientRun.step

end BohunoPyzord
