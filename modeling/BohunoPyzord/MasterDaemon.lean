/-
The whole of `pyzor::master`: its two acceptors, the timers of the checkpoint
and of the expiry, and the sessions that it has accepted.  Each of the first
four is a loop whose handler is to start its operation again.
-/
import BohunoPyzord.Expire
import BohunoPyzord.IoService
import BohunoPyzord.StepSystem

namespace BohunoPyzord

inductive MasterLoop where
  | localAccept
  | globalAccept
  | checkpoint
  | expire
deriving DecidableEq, Repr

/-- What `pyzor::master` and its sessions can wait for; an accept has been
given the session that it is for. -/
inductive MasterOperation where
  | localAccept (session : Nat)
  | globalAccept (session : Nat)
  | checkpointTimer
  | expireTimer
  | read (session : Nat)
  | pingTimer (session : Nat)
  | writePing (session : Nat)
deriving DecidableEq, Repr

/-- The loop that an operation belongs to. -/
def MasterOperation.loop : MasterOperation → Option MasterLoop
  | .localAccept _ => some .localAccept
  | .globalAccept _ => some .globalAccept
  | .checkpointTimer => some .checkpoint
  | .expireTimer => some .expire
  | _ => none

/-- `pyzor::master`, with `signatures.db` and the file `expire_status`.
`sessions` have been constructed, `disconnected` are those of them whose
`connected_` is false, and `running` says that neither has an exception left a
handler nor was the master stopped. -/
structure MasterDaemon where
  stored : Database
  status : Option (List Byte)
  io : IoService MasterOperation
  sessions : Nat
  disconnected : List Nat
  running : Bool

namespace MasterDaemon

/-- `expires_from_now` and `async_wait`; the first cancels what still waits
for the timer. -/
def schedule (s : MasterDaemon) (timer : MasterOperation) : MasterDaemon :=
  { s with io := (s.io.cancel (· = timer)).start timer }

/-- Accept into a session that is constructed for it. -/
def asyncAccept (s : MasterDaemon) (acceptor : Nat → MasterOperation) :
    MasterDaemon :=
  { s with
    io := s.io.start (acceptor s.sessions)
    sessions := s.sessions + 1 }

/-- `session::start`. -/
def startSession (s : MasterDaemon) (session : Nat) : MasterDaemon :=
  { s with io := s.io.start (.read session) }.schedule (.pingTimer session)

/-- Close the socket of a session and cancel its timer. -/
def closeSession (s : MasterDaemon) (session : Nat) : MasterDaemon :=
  { s with
    io := ((s.io.cancel (· = .read session)).cancel
      (· = .writePing session)).cancel (· = .pingTimer session)
    disconnected := session :: s.disconnected }

/-- `session::handle_read`, with the update that was read and how its
processing goes; `none` is an exception. -/
def handleRead (s : MasterDaemon) (session : Nat)
    (result : Option (DbCalls × Processed)) : Option MasterDaemon :=
  match result with
  | some (calls, p) =>
      (s.stored.processUpdate calls p.update p.now).map fun stored =>
        { s with stored, io := s.io.start (.read session) }
  | none => some (s.closeSession session)

/-- `session::write_ping`, which is not told of an error. -/
def writePing (s : MasterDaemon) (session : Nat) : MasterDaemon :=
  if session ∈ s.disconnected then s
  else { s with io := s.io.start (.writePing session) }

def handleWritePing (s : MasterDaemon) (session : Nat) (error : Bool) :
    MasterDaemon :=
  if !error then s.schedule (.pingTimer session)
  else s.closeSession session

/-- `handle_local_accept` and `handle_global_accept`. -/
def handleAccept (acceptor : Nat → MasterOperation) (s : MasterDaemon)
    (session : Nat) (error : Bool) : MasterDaemon :=
  if !error then (s.startSession session).asyncAccept acceptor else s

def handleLocalAccept : MasterDaemon → Nat → Bool → MasterDaemon :=
  handleAccept .localAccept

def handleGlobalAccept : MasterDaemon → Nat → Bool → MasterDaemon :=
  handleAccept .globalAccept

def scheduleCheckpoint (s : MasterDaemon) : MasterDaemon :=
  s.schedule .checkpointTimer

/-- A checkpoint that fails is only logged. -/
def handleCheckpoint (s : MasterDaemon) (error : Bool) : MasterDaemon :=
  if !error then s.scheduleCheckpoint else s

def scheduleExpire (s : MasterDaemon) : MasterDaemon :=
  s.schedule .expireTimer

/-- `handle_expire`; `none` is an exception. -/
def handleExpire (index : TimeIndex) (s : MasterDaemon)
    (calls : Master.ExpireTickCalls) (now : Uint32) (error : Bool) :
    Option MasterDaemon :=
  if !error then
    (Master.handleExpire index calls now s.stored s.status).map fun tick =>
      let s := { s with stored := tick.stored, status := tick.status }
      if tick.scheduled.isSome then s.scheduleExpire else s
  else some s

/-- An exception that leaves a handler leaves `run` as well. -/
def finish (s : MasterDaemon) (result : Option MasterDaemon) : MasterDaemon :=
  result.getD { s with running := false }

end MasterDaemon

/-- What can happen to the master: a timer runs out, a handler is run with what
its operation came to, or the master is stopped. -/
inductive MasterEvent where
  | timeout (i : Nat)
  | handleAccept (i : Nat) (error : Bool)
  | handleCheckpoint (i : Nat)
  | handleExpire (i : Nat) (calls : Master.ExpireTickCalls) (now : Uint32)
  | handleRead (i : Nat) (result : Option (DbCalls × Processed))
  | writePing (i : Nat)
  | handleWritePing (i : Nat) (error : Bool)
  | stop

namespace MasterDaemon

def isTimer : MasterOperation → Bool
  | .checkpointTimer => true
  | .expireTimer => true
  | .pingTimer _ => true
  | _ => false

/-- The handler of an operation with what the environment makes of it: whether
it comes to an error, how the calls of an expiry go, and what was read.  An
operation that was cancelled comes to an error, a timer has run out by now, and
nothing ever cancels an accept. -/
def handle (index : TimeIndex) (s : MasterDaemon)
    (op : Operation MasterOperation) :
    MasterEvent → Option (Option MasterDaemon)
  | .handleAccept _ error =>
      match op with
      | ⟨.localAccept session, .outstanding⟩ =>
          some (some (s.handleLocalAccept session error))
      | ⟨.globalAccept session, .outstanding⟩ =>
          some (some (s.handleGlobalAccept session error))
      | _ => none
  | .handleCheckpoint _ =>
      if op.kind = .checkpointTimer ∧ op.progress ≠ .outstanding then
        some (some (s.handleCheckpoint (op.progress = .cancelled)))
      else none
  | .handleExpire _ calls now =>
      if op.kind = .expireTimer ∧ op.progress ≠ .outstanding then
        some (s.handleExpire index calls now (op.progress = .cancelled))
      else none
  | .handleRead _ result =>
      match op.kind with
      | .read session => some (s.handleRead session
          (if op.progress = .cancelled then none else result))
      | _ => none
  | .writePing _ =>
      match op.kind with
      | .pingTimer session =>
          if op.progress ≠ .outstanding then some (some (s.writePing session))
          else none
      | _ => none
  | .handleWritePing _ error =>
      match op.kind with
      | .writePing session => some (some (s.handleWritePing session
          (error || op.progress = .cancelled)))
      | _ => none
  | _ => none

/-- The place of the operation whose handler an event runs. -/
def place : MasterEvent → Option Nat
  | .handleAccept i _ => some i
  | .handleCheckpoint i => some i
  | .handleExpire i _ _ => some i
  | .handleRead i _ => some i
  | .writePing i => some i
  | .handleWritePing i _ => some i
  | _ => none

def perform (index : TimeIndex) (s : MasterDaemon) (event : MasterEvent) :
    Option MasterDaemon :=
  match event with
  | .timeout i =>
      if (s.io.operations[i]?).any fun op => isTimer op.kind then
        (s.io.complete i).map fun io => { s with io }
      else none
  | .stop => some { s with running := false }
  | event => do
      let i ← place event
      let (op, io) ← s.io.take i
      let s := { s with io }
      let result ← s.handle index op event
      some (s.finish result)

def step (index : TimeIndex) (s : MasterDaemon) (event : MasterEvent) :
    Option MasterDaemon :=
  if s.running then s.perform index event else none

/-- What an event does: a timer runs out, the master stops, or a handler runs
for the operation at the event's place. -/
theorem perform_cases {index : TimeIndex} {s s' : MasterDaemon}
    {event : MasterEvent} (h : s.perform index event = some s') :
    (∃ i io, event = .timeout i ∧ s.io.complete i = some io ∧
      s' = { s with io }) ∨
    (event = .stop ∧ s' = { s with running := false }) ∨
    ∃ i op io result, place event = some i ∧ s.io.take i = some (op, io) ∧
      { s with io }.handle index op event = some result ∧
      s' = { s with io }.finish result := by
  unfold perform at h
  split at h
  · rename_i i
    split at h
    · obtain ⟨io, hio, rfl⟩ := Option.map_eq_some_iff.mp h
      exact Or.inl ⟨i, io, rfl, hio, rfl⟩
    · cases h
  · exact Or.inr (Or.inl ⟨rfl, (Option.some.inj h).symm⟩)
  · obtain ⟨i, hplace, h⟩ := Option.bind_eq_some_iff.mp h
    obtain ⟨⟨op, io⟩, htake, h⟩ := Option.bind_eq_some_iff.mp h
    obtain ⟨result, hresult, h⟩ := Option.bind_eq_some_iff.mp h
    exact Or.inr (Or.inr ⟨i, op, io, result, hplace, htake, hresult,
      (Option.some.inj h).symm⟩)

end MasterDaemon

/-- The constructor of `pyzor::master` over what is there already. -/
def masterDaemonSystem (index : TimeIndex) (stored : Database)
    (status : Option (List Byte)) : StepSystem MasterDaemon MasterEvent where
  init :=
    let s : MasterDaemon :=
      { stored, status, io := .idle, sessions := 0, disconnected := []
        running := true }
    ((s.asyncAccept .localAccept).asyncAccept
      .globalAccept).scheduleCheckpoint.scheduleExpire
  step := MasterDaemon.step index

end BohunoPyzord
