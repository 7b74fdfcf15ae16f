/-
`http::server::server` with its acceptor, its connection manager and the
connections it has constructed.  A connection reads until the parser decides,
writes one answer, and is stopped when that is written.
-/
import BohunoPyzord.HttpReplies
import BohunoPyzord.IoService
import BohunoPyzord.RequestParser
import Mathlib.Data.Finset.Basic

namespace BohunoPyzord

namespace HttpServer

/-- What a connection gives to `async_write`: the buffers of its `reply_`, or
those of the response that a registered function has filled in. -/
inductive Answer where
  | reply (rep : Reply)
  | response (r : Response)
deriving DecidableEq

def Answer.buffers : Answer → List Text
  | .reply rep => rep.toBuffers
  | .response r => r.sent

/-- `request_handler_functions_` and `request_handlers_`, over the state `A` of
the application.  A function or a handler without a result has thrown, and may
have changed that state and the reply before. -/
structure RequestHandlers (A : Type) where
  functions : List Byte → Option (A → HttpRequest → Response → A × Option Response)
  handlers : List (A → HttpRequest → Reply → A × Reply × Option Bool)

namespace RequestHandlers

variable {A : Type}

/-- The loop over `request_handlers_`: the first that handles the request is
the last that is asked. -/
def handleRequest (req : HttpRequest) :
    List (A → HttpRequest → Reply → A × Reply × Option Bool) → A → Reply →
      A × Reply × Option Bool
  | [], application, rep => (application, rep, some false)
  | handler :: handlers, application, rep =>
      match handler application req rep with
      | (application, rep, some false) =>
          handleRequest req handlers application rep
      | result => result

/-- What `handle_read` makes of a complete request: the `reply_` it leaves and
what it writes.  Only an exception of a registered function is caught. -/
def answer (h : RequestHandlers A) (application : A) (req : HttpRequest)
    (reply_ : Reply) : A × Reply × Option Answer :=
  match h.functions req.uri with
  | some function =>
      match function application req .new with
      | (application, some r) => (application, reply_, some (.response r))
      | (application, none) =>
          let reply_ := Reply.stockReply .internalServerError
          (application, reply_, some (.reply reply_))
  | none =>
      match handleRequest req h.handlers application reply_ with
      | (application, rep, some handled) =>
          let reply_ := if handled then rep else Reply.stockReply .notFound
          (application, reply_, some (.reply reply_))
      | (application, rep, none) => (application, rep, none)

end RequestHandlers

/-- What is in the members of a connection that its constructor leaves
uninitialized. -/
structure Uninitialized where
  http_version_major : Int
  http_version_minor : Int
  status : StatusCode
deriving DecidableEq

/-- `connection`, with what it has read and what it has given to be written. -/
structure Connection where
  request_parser_ : RequestParser
  reply_ : Reply
  received : List Byte
  answers : List Answer
deriving DecidableEq

def Connection.new (memory : Uninitialized) : Connection :=
  { request_parser_ :=
      .new memory.http_version_major memory.http_version_minor
    reply_ := { status := memory.status, headers := [], content := [] }
    received := []
    answers := [] }

/-- What the server can wait for; an accept is for a connection that has been
constructed. -/
inductive HttpOperation where
  | accept (connection : Nat)
  | read (connection : Nat)
  | write (connection : Nat)
deriving DecidableEq, Repr

/-- Whether `run` goes on, was left by a stop, or by an exception. -/
inductive Phase where
  | running
  | stopped
  | thrown
deriving DecidableEq, Repr

/-- What a read comes to. -/
inductive ReadResult where
  | bytes (bytes : List Byte)
  | error
  | aborted
deriving DecidableEq, Repr

end HttpServer

open HttpServer

/-- The server; its connections are numbered in the order of their
construction, and the last of them is `new_connection_`. -/
structure HttpServer (A : Type) where
  application : A
  io : IoService HttpOperation
  connection : Nat → Connection
  new_connection_ : Nat
  connections_ : Finset Nat
  closed : Finset Nat
  phase : Phase

namespace HttpServer

variable {A : Type}

/-- The connection that is served by an operation on its socket. -/
def HttpOperation.serves : HttpOperation → Option Nat
  | .read c => some c
  | .write c => some c
  | .accept _ => none

/-- The operations on the socket of a connection. -/
def isOf (c : Nat) (operation : HttpOperation) : Bool :=
  operation.serves = some c

def isAccept : HttpOperation → Bool
  | .accept _ => true
  | _ => false

def start (s : HttpServer A) (operation : HttpOperation) : HttpServer A :=
  { s with io := s.io.start operation }

def setConnection (s : HttpServer A) (c : Nat) (connection : Connection) :
    HttpServer A :=
  { s with connection := Function.update s.connection c connection }

/-- `connection_manager::start`. -/
def managerStart (s : HttpServer A) (c : Nat) : HttpServer A :=
  { s with connections_ := insert c s.connections_ }.start (.read c)

/-- `connection_manager::stop`. -/
def managerStop (s : HttpServer A) (c : Nat) : HttpServer A :=
  { s with
    connections_ := s.connections_.erase c
    io := s.io.cancel (isOf c)
    closed := insert c s.closed }

/-- `connection_manager::stop_all`. -/
def managerStopAll (s : HttpServer A) : HttpServer A :=
  { s with
    io := s.io.cancel fun operation =>
      operation.serves.any fun c => c ∈ s.connections_
    closed := s.closed ∪ s.connections_
    connections_ := ∅ }

/-- Accept into a connection that is constructed for it. -/
def asyncAccept (s : HttpServer A) (memory : Uninitialized) : HttpServer A :=
  let c := s.new_connection_ + 1
  { s.setConnection c (.new memory) with new_connection_ := c }.start (.accept c)

/-- `server::handle_accept`. -/
def handleAccept (s : HttpServer A) (error : Bool) (memory : Uninitialized) :
    HttpServer A :=
  if !error then (s.managerStart s.new_connection_).asyncAccept memory else s

/-- Note the answer and write it. -/
def asyncWrite (s : HttpServer A) (c : Nat) (connection : Connection)
    (reply_ : Reply) (answer : Answer) : HttpServer A :=
  (s.setConnection c { connection with
    reply_, answers := connection.answers ++ [answer] }).start (.write c)

/-- `connection::handle_read`.  An exception of a handler leaves it, and `run`,
with what was read and what the handler has done. -/
def handleRead (h : RequestHandlers A) (s : HttpServer A) (c : Nat) :
    ReadResult → HttpServer A
  | .bytes bytes =>
      let connection := s.connection c
      let (result, request_parser_, _) :=
        requestParser.run connection.request_parser_ bytes
      let connection := { connection with
        request_parser_, received := connection.received ++ bytes }
      match result with
      | some true =>
          match h.answer s.application request_parser_.req
              connection.reply_ with
          | (application, reply_, some answer) =>
              { s with application }.asyncWrite c connection reply_ answer
          | (application, reply_, none) =>
              { s.setConnection c { connection with reply_ } with
                application, phase := .thrown }
      | some false =>
          let reply_ := Reply.stockReply .badRequest
          s.asyncWrite c connection reply_ (.reply reply_)
      | none => (s.setConnection c connection).start (.read c)
  | .error => s.managerStop c
  | .aborted => s

/-- `connection::handle_write`. -/
def handleWrite (s : HttpServer A) (c : Nat) (aborted : Bool) : HttpServer A :=
  if !aborted then s.managerStop c else s

/-- `server::handle_stop`. -/
def handleStop (s : HttpServer A) : HttpServer A :=
  { { s with io := s.io.cancel isAccept }.managerStopAll with phase := .stopped }

end HttpServer

/-- What can happen to the server: an operation completes, a handler is run
with what its operation came to, the server is stopped, or something else
changes the state of the application. -/
inductive HttpEvent (A : Type) where
  | complete (i : Nat)
  | handleAccept (i : Nat) (error : Bool) (memory : Uninitialized)
  | handleRead (i : Nat) (result : ReadResult)
  | handleWrite (i : Nat)
  | handleStop
  | application (a : A)

namespace HttpServer

variable {A : Type}

/-- The handler of an operation.  One that was cancelled comes to
`operation_aborted`, and no other does. -/
def handle (h : RequestHandlers A) (s : HttpServer A)
    (op : Operation HttpOperation) : HttpEvent A → Option (HttpServer A)
  | .handleAccept _ error memory =>
      match op.kind with
      | .accept _ =>
          some (s.handleAccept (error || op.progress = .cancelled) memory)
      | _ => none
  | .handleRead _ result =>
      match op.kind with
      | .read c =>
          if op.progress = .cancelled then some (s.handleRead h c .aborted)
          else if result = .aborted then none
          else some (s.handleRead h c result)
      | _ => none
  | .handleWrite _ =>
      match op.kind with
      | .write c => some (s.handleWrite c (op.progress = .cancelled))
      | _ => none
  | _ => none

/-- The place of the operation whose handler an event runs. -/
def place : HttpEvent A → Option Nat
  | .handleAccept i _ _ => some i
  | .handleRead i _ => some i
  | .handleWrite i => some i
  | _ => none

def perform (h : RequestHandlers A) (s : HttpServer A) (event : HttpEvent A) :
    Option (HttpServer A) :=
  match event with
  | .complete i => (s.io.complete i).map fun io => { s with io }
  | .handleStop => some s.handleStop
  | .application a => some { s with application := a }
  | event => do
      let i ← place event
      let (op, io) ← s.io.take i
      { s with io }.handle h op event

def step (h : RequestHandlers A) (s : HttpServer A) (event : HttpEvent A) :
    Option (HttpServer A) :=
  if s.phase = .running then s.perform h event else none

/-- What an event does. -/
theorem perform_cases {h : RequestHandlers A} {s s' : HttpServer A}
    {event : HttpEvent A} (hperform : s.perform h event = some s') :
    (∃ i io, event = .complete i ∧ s.io.complete i = some io ∧
      s' = { s with io }) ∨
    (event = .handleStop ∧ s' = s.handleStop) ∨
    (∃ a, event = .application a ∧ s' = { s with application := a }) ∨
    ∃ i op io, place event = some i ∧ s.io.take i = some (op, io) ∧
      { s with io }.handle h op event = some s' := by
  unfold perform at hperform
  split at hperform
  · rename_i i
    obtain ⟨io, hio, rfl⟩ := Option.map_eq_some_iff.mp hperform
    exact Or.inl ⟨i, io, rfl, hio, rfl⟩
  · exact Or.inr (Or.inl ⟨rfl, (Option.some.inj hperform).symm⟩)
  · rename_i a
    exact Or.inr (Or.inr (Or.inl ⟨a, rfl, (Option.some.inj hperform).symm⟩))
  · obtain ⟨i, hplace, hrest⟩ := Option.bind_eq_some_iff.mp hperform
    obtain ⟨⟨op, io⟩, htake, hhandle⟩ := Option.bind_eq_some_iff.mp hrest
    exact Or.inr (Or.inr (Or.inr ⟨i, op, io, hplace, htake, hhandle⟩))

end HttpServer

/-- The constructor of the server. -/
def httpServerSystem (h : RequestHandlers A) (application : A)
    (memory : Uninitialized) : StepSystem (HttpServer A) (HttpEvent A) where
  init :=
    { application, io := IoService.idle.start (.accept 0)
      connection := fun _ => .new memory, new_connection_ := 0
      connections_ := ∅, closed := ∅, phase := .running }
  step := HttpServer.step h

end BohunoPyzord
