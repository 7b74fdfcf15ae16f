/-
`http::client` and `http::sclient` from `start` to a callback: the host is
resolved, its endpoints are tried in turn, the request is written and the
response is read.  Every handler starts the next operation or calls back.
-/
import BohunoPyzord.HttpClient
import BohunoPyzord.StepSystem

universe u

namespace BohunoPyzord

open LineStream

/-- The errors that `handle_read_content` tells apart. -/
inductive WgetError where
  | eof
  | other
deriving DecidableEq, Repr

/-- `failure_callback_` and `success_callback_`, with what they are called
with; a failure without an error is that of `asio::error_code()`. -/
inductive WgetCallback where
  | failure (error : Option WgetError)
  | success (status : Nat) (headers : List (Text × Text)) (data : Text)
deriving DecidableEq, Repr

/-- What a client waits for; a connect carries the iterator that was bound to
its handler. -/
inductive WgetOperation (E : Type u) where
  | resolve
  | connect (endpoint_iterator : List E)
  | handshake
  | writeRequest
  | readStatusLine
  | readHeaders
  | readContent

/-- A client, with a record of what it has done: the endpoints it was given
and those it has tried, what it has written and what has arrived. -/
structure WgetClient (E : Type u) where
  /-- Whether it is an `sclient`. -/
  secure : Bool
  progress_callback_ : Bool
  request_ : Text
  response : HttpClient
  pending : List (WgetOperation E)
  callbacks : List WgetCallback
  reports : List (Nat × Nat)
  thrown : Bool
  endpoints : List E
  tried : List E
  connected : Bool
  secured : Bool
  written : Text
  arrived : List (Chunk Char)

namespace WgetClient

variable {E : Type u}

def async (s : WgetClient E) (operation : WgetOperation E) : WgetClient E :=
  { s with pending := s.pending ++ [operation] }

def callBack (s : WgetClient E) (callback : WgetCallback) : WgetClient E :=
  { s with callbacks := s.callbacks ++ [callback] }

/-- The progress callback is called if there is one. -/
def progress (s : WgetClient E) (content_length read : Nat) : WgetClient E :=
  if s.progress_callback_ then
    { s with reports := s.reports ++ [(content_length, read)] }
  else s

/-- `start`: the request is in its buffer, and the host is to be resolved. -/
def start (secure progress_callback_ : Bool) (request_ : Text) :
    WgetClient E :=
  async { secure, progress_callback_, request_, response := .waiting
          pending := [], callbacks := [], reports := [], thrown := false
          endpoints := [], tried := [], connected := false, secured := false
          written := [], arrived := [] } .resolve

def asyncConnect (s : WgetClient E) (endpoint : E)
    (endpoint_iterator : List E) : WgetClient E :=
  { s with tried := s.tried ++ [endpoint] }.async (.connect endpoint_iterator)

/-- `handle_resolve`; without an error there is an endpoint. -/
def handleResolve (s : WgetClient E) :
    Except WgetError (E × List E) → WgetClient E
  | .ok (endpoint, endpoint_iterator) =>
      { s with endpoints := endpoint :: endpoint_iterator }.asyncConnect
        endpoint endpoint_iterator
  | .error error => s.callBack (.failure error)

def handleConnect (s : WgetClient E) (error : Option WgetError)
    (endpoint_iterator : List E) : WgetClient E :=
  match error, endpoint_iterator with
  | none, _ =>
      { s with connected := true }.async
        (if s.secure then .handshake else .writeRequest)
  | some _, endpoint :: rest => s.asyncConnect endpoint rest
  | some error, [] => s.callBack (.failure error)

def handleHandshake (s : WgetClient E) : Option WgetError → WgetClient E
  | none => { s with secured := true }.async .writeRequest
  | some error => s.callBack (.failure error)

def handleWriteRequest (s : WgetClient E) : Option WgetError → WgetClient E
  | none => s.async .readStatusLine
  | some error => s.callBack (.failure error)

def handleReadStatusLine (s : WgetClient E) : Option WgetError → WgetClient E
  | some error => s.callBack (.failure error)
  | none =>
      match s.response.handleReadStatusLine with
      | none => s.callBack (.failure none)
      | some response => { s with response }.async .readHeaders

/-- `handle_read_headers`; the exception of a cast leaves it. -/
def handleReadHeaders (s : WgetClient E) : Option WgetError → WgetClient E
  | some error => s.callBack (.failure error)
  | none =>
      match s.response.handleReadHeaders with
      | none => { s with thrown := true }
      | some response =>
          ({ s with response }.progress response.content_length_ 0).async
            .readContent

def handleReadContent (s : WgetClient E) :
    Except WgetError (Chunk Char) → WgetClient E
  | .ok chunk =>
      let response := s.response.handleReadContent chunk
      ({ s with response, arrived := s.arrived ++ [chunk] }.progress
        response.content_length_ response.data_.length).async .readContent
  | .error .eof =>
      s.callBack (.success s.response.status_code_ s.response.headers_
        s.response.data_)
  | .error .other => s.callBack (.failure (some .other))

end WgetClient

/-- An operation, by its place, completes, or gets on: more of the request is
written, or more arrives while the delimiter has not. -/
inductive WgetEvent (E : Type u) where
  | handleResolve (i : Nat) (result : Except WgetError (E × List E))
  | handleConnect (i : Nat) (error : Option WgetError)
  | handleHandshake (i : Nat) (error : Option WgetError)
  | written (i : Nat) (n : Nat)
  | handleWriteRequest (i : Nat) (error : Option WgetError)
  | arrived (i : Nat) (chunk : Chunk Char)
  | handleReadStatusLine (i : Nat) (error : Option WgetError)
  | handleReadHeaders (i : Nat) (error : Option WgetError)
  | handleReadContent (i : Nat) (result : Except WgetError (Chunk Char))

namespace WgetClient

variable {E : Type u}

/-- Whether a composed operation is at its end: then it has no error. -/
def Ends (s : WgetClient E) : WgetOperation E → Prop
  | .writeRequest => s.request_ = []
  | .readStatusLine => "\r\n".toList <:+: s.response.response_
  | .readHeaders => "\r\n\r\n".toList <:+: s.response.response_
  | _ => True

instance (s : WgetClient E) :
    (operation : WgetOperation E) → Decidable (s.Ends operation)
  | .writeRequest => inferInstanceAs (Decidable (_ = _))
  | .readStatusLine => inferInstanceAs (Decidable (_ <:+: _))
  | .readHeaders => inferInstanceAs (Decidable (_ <:+: _))
  | .resolve | .connect _ | .handshake | .readContent =>
      inferInstanceAs (Decidable True)

/-- Some of the request is written. -/
def write (s : WgetClient E) (n : Nat) : WgetClient E :=
  { s with
    written := s.written ++ s.request_.take n
    request_ := s.request_.drop n }

/-- Some of the response is read into the buffer. -/
def arrive (s : WgetClient E) (chunk : Chunk Char) : WgetClient E :=
  { s with
    arrived := s.arrived ++ [chunk]
    response := { s.response with
      response_ := s.response.response_ ++ chunk.units } }

/-- The handler that an event runs, for the operation that was taken off. -/
def handle (s : WgetClient E) (operation : WgetOperation E) :
    WgetEvent E → Option (WgetClient E)
  | .handleResolve _ result =>
      match operation with
      | .resolve => some (s.handleResolve result)
      | _ => none
  | .handleConnect _ error =>
      match operation with
      | .connect endpoint_iterator =>
          some (s.handleConnect error endpoint_iterator)
      | _ => none
  | .handleHandshake _ error =>
      match operation with
      | .handshake => some (s.handleHandshake error)
      | _ => none
  | .written _ n =>
      match operation with
      | .writeRequest =>
          if 0 < n ∧ n ≤ s.request_.length then
            some ((s.write n).async operation)
          else none
      | _ => none
  | .handleWriteRequest _ error =>
      match operation with
      | .writeRequest =>
          if error = none ↔ s.Ends operation then
            some (s.handleWriteRequest error)
          else none
      | _ => none
  | .arrived _ chunk =>
      match operation with
      | .readStatusLine | .readHeaders =>
          if s.Ends operation then none
          else some ((s.arrive chunk).async operation)
      | _ => none
  | .handleReadStatusLine _ error =>
      match operation with
      | .readStatusLine =>
          if error = none ↔ s.Ends operation then
            some (s.handleReadStatusLine error)
          else none
      | _ => none
  | .handleReadHeaders _ error =>
      match operation with
      | .readHeaders =>
          if error = none ↔ s.Ends operation then
            some (s.handleReadHeaders error)
          else none
      | _ => none
  | .handleReadContent _ result =>
      match operation with
      | .readContent => some (s.handleReadContent result)
      | _ => none

/-- The place of the operation that the event is about. -/
def place : WgetEvent E → Nat
  | .handleResolve i _ | .handleConnect i _ | .handleHandshake i _
  | .written i _ | .handleWriteRequest i _ | .arrived i _
  | .handleReadStatusLine i _ | .handleReadHeaders i _
  | .handleReadContent i _ => i

/-- What can become of an operation that is taken off. -/
inductive Handled (s : WgetClient E) :
    WgetOperation E → WgetClient E → Prop
  | resolve (result : Except WgetError (E × List E)) :
      Handled s .resolve (s.handleResolve result)
  | connect (error : Option WgetError) (endpoint_iterator : List E) :
      Handled s (.connect endpoint_iterator)
        (s.handleConnect error endpoint_iterator)
  | handshake (error : Option WgetError) :
      Handled s .handshake (s.handleHandshake error)
  | write (n : Nat) (pos : 0 < n) (le : n ≤ s.request_.length) :
      Handled s .writeRequest ((s.write n).async .writeRequest)
  | writeRequest (error : Option WgetError)
      (ends : error = none ↔ s.Ends .writeRequest) :
      Handled s .writeRequest (s.handleWriteRequest error)
  | arriveStatusLine (chunk : Chunk Char) (more : ¬ s.Ends .readStatusLine) :
      Handled s .readStatusLine ((s.arrive chunk).async .readStatusLine)
  | readStatusLine (error : Option WgetError)
      (ends : error = none ↔ s.Ends .readStatusLine) :
      Handled s .readStatusLine (s.handleReadStatusLine error)
  | arriveHeaders (chunk : Chunk Char) (more : ¬ s.Ends .readHeaders) :
      Handled s .readHeaders ((s.arrive chunk).async .readHeaders)
  | readHeaders (error : Option WgetError)
      (ends : error = none ↔ s.Ends .readHeaders) :
      Handled s .readHeaders (s.handleReadHeaders error)
  | readContent (result : Except WgetError (Chunk Char)) :
      Handled s .readContent (s.handleReadContent result)

theorem handled_of_handle {s s' : WgetClient E} {operation : WgetOperation E}
    {event : WgetEvent E} (h : s.handle operation event = some s') :
    s.Handled operation s' := by
  cases event with
  | handleResolve i result =>
      cases operation <;> simp only [handle, reduceCtorEq] at h
      obtain rfl := Option.some.inj h
      exact .resolve result
  | handleConnect i error =>
      cases operation <;> simp only [handle, reduceCtorEq] at h
      obtain rfl := Option.some.inj h
      exact .connect error _
  | handleHandshake i error =>
      cases operation <;> simp only [handle, reduceCtorEq] at h
      obtain rfl := Option.some.inj h
      exact .handshake error
  | written i n =>
      cases operation <;> simp only [handle, reduceCtorEq] at h
      split_ifs at h with hn
      obtain rfl := Option.some.inj h
      exact .write n hn.1 hn.2
  | handleWriteRequest i error =>
      cases operation <;> simp only [handle, reduceCtorEq] at h
      split_ifs at h with hends
      obtain rfl := Option.some.inj h
      exact .writeRequest error hends
  | arrived i chunk =>
      cases operation <;> simp only [handle, reduceCtorEq] at h
      · split_ifs at h with hends
        obtain rfl := Option.some.inj h
        exact .arriveStatusLine chunk hends
      · split_ifs at h with hends
        obtain rfl := Option.some.inj h
        exact .arriveHeaders chunk hends
  | handleReadStatusLine i error =>
      cases operation <;> simp only [handle, reduceCtorEq] at h
      split_ifs at h with hends
      obtain rfl := Option.some.inj h
      exact .readStatusLine error hends
  | handleReadHeaders i error =>
      cases operation <;> simp only [handle, reduceCtorEq] at h
      split_ifs at h with hends
      obtain rfl := Option.some.inj h
      exact .readHeaders error hends
  | handleReadContent i result =>
      cases operation <;> simp only [handle, reduceCtorEq] at h
      obtain rfl := Option.some.inj h
      exact .readContent result

def step (s : WgetClient E) (event : WgetEvent E) : Option (WgetClient E) :=
  s.pending[place event]?.bind fun operation =>
    { s with pending := s.pending.eraseIdx (place event) }.handle operation
      event

end WgetClient

/-- The runs of a client that is to send the request. -/
def wgetSystem {E : Type u} (secure progress_callback_ : Bool)
    (request_ : Text) : StepSystem (WgetClient E) (WgetEvent E) where
  init := .start secure progress_callback_ request_
  step := WgetClient.step

end BohunoPyzord
