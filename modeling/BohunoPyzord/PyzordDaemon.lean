/-
The whole of `bohuno::pyzord`: three timers, the requests it has open at the
update server, its socket and the signal that stops it, all served by one I/O
service.  A handler takes the operation it was started with off the service
and may start others.
-/
import BohunoPyzord.IoService
import BohunoPyzord.ReplicaDownloads
import BohunoPyzord.UdpServer

namespace BohunoPyzord

/-- `http::url`.  A URL with a colon and no digits after it leaves `port_`
uninitialized. -/
structure HttpUrl where
  scheme_ : Text
  host_ : Text
  port_ : Option Nat
  path_ : Text
deriving DecidableEq, Repr

namespace HttpUrl

/-- `std::atoi` of digits, stored in 16 bits. -/
def portNumber (digits : Text) : Nat :=
  min (Nat.ofDigitChars 10 digits 0) (2 ^ 63 - 1) % 2 ^ 16

def defaultPort (scheme : Text) : Option Nat :=
  if scheme = "http".toList then some 80
  else if scheme = "https".toList then some 443
  else if scheme = "mysql".toList then some 3306
  else if scheme = "ftp".toList then some 21
  else none

/-- What is left after the port is empty or starts with a slash. -/
def parsePath (scheme_ host_ : Text) (port_ : Option Nat) :
    Text → Option HttpUrl
  | [] => some { scheme_, host_, port_, path_ := [] }
  | '/' :: path => some { scheme_, host_, port_, path_ := '/' :: path }
  | _ :: _ => none

/-- `url::parse`; `none` is an exception.  The port is converted again with
each of its digits and must never be zero. -/
def parse (s : Text) : Option HttpUrl := do
  let scheme_ := s.takeWhile (· ≠ ':')
  let authority ← stripLiteral "://".toList (s.dropWhile (· ≠ ':'))
  let host_ := authority.takeWhile fun c => c ≠ ':' ∧ c ≠ '/'
  match authority.dropWhile fun c => c ≠ ':' ∧ c ≠ '/' with
  | ':' :: rest =>
      let digits := rest.takeWhile Char.isDigit
      if digits.inits.tail.all fun read => portNumber read ≠ 0 then
        parsePath scheme_ host_
          (if digits = [] then none else some (portNumber digits))
          (rest.dropWhile Char.isDigit)
      else none
  | rest => parsePath scheme_ host_ (← defaultPort scheme_) rest

/-- `http::get` and `http::propget` pick the client by the scheme, and both
clients check it again. -/
def client (s : Text) : Option HttpUrl :=
  (parse s).filter fun url =>
    url.scheme_ = "http".toList ∨ url.scheme_ = "https".toList

end HttpUrl

/-- What `bohuno::pyzord` can wait for. -/
inductive PyzordOperation where
  | statisticsTimer
  | checkpointTimer
  | updatesScanTimer
  | statistics (url : Url)
  | updatesScan
  | updateDownload (url : Url)
  | receiveFrom
  | handleStop
deriving DecidableEq, Repr

/-- `bohuno::pyzord`.  The socket, its buffer, `shutdown_` and the rings are
those of `server`.  The rest is on record for the sake of the statements:
`started` are the timers, requests and receives that were ever started,
`stopped` says that `handle_stop` has run, `refused` that a 401 was received,
`signalled` that the signal has come, and `running` that no exception has left
a handler. -/
structure PyzordDaemon where
  server : Pyzord
  database_ : Database
  updates_to_download_ : List Url
  io : IoService PyzordOperation
  started : List PyzordOperation
  stopped : Bool
  refused : Bool
  signalled : Bool
  running : Bool

namespace PyzordDaemon

def start (s : PyzordDaemon) (operation : PyzordOperation) : PyzordDaemon :=
  { s with
    io := s.io.start operation
    started := s.started ++ [operation] }

/-- `expires_from_now` and `async_wait`; the first cancels what still waits
for the timer. -/
def schedule (s : PyzordDaemon) (timer : PyzordOperation) : PyzordDaemon :=
  { s with io := s.io.cancel (· = timer) }.start timer

def scheduleStatistics (s : PyzordDaemon) : PyzordDaemon :=
  s.schedule .statisticsTimer

def scheduleCheckpoint (s : PyzordDaemon) : PyzordDaemon :=
  s.schedule .checkpointTimer

def scheduleUpdatesScan (s : PyzordDaemon) : PyzordDaemon :=
  s.schedule .updatesScanTimer

/-- Start a request, unless the URL makes the constructors throw. -/
def request (s : PyzordDaemon) (url : Url) (operation : PyzordOperation) :
    Option PyzordDaemon :=
  (HttpUrl.client url).map fun _ => s.start operation

def handleStop (s : PyzordDaemon) : PyzordDaemon :=
  { s with
    server := s.server.handleStop
    io := ((s.io.cancel (· = .checkpointTimer)).cancel
      (· = .updatesScanTimer)).cancel (· = .statisticsTimer)
    stopped := true }

def stop (s : PyzordDaemon) : PyzordDaemon :=
  { s with io := s.io.start .handleStop }

/-- The URL that the statistics are reported under, with the rings that
`average` has advanced. -/
def statisticsUrl (computerId : Text) (now : Readings) (s : PyzordState) :
    Url × PyzordState :=
  let (averageChecks, check) := s.check_statistics_.average (now 0)
  let (averageHits, hit) := s.hit_statistics_.average (now 1)
  ("https://update.bohuno.com/statistics.php?source=bohuno-pyzord".toList ++
    "&server=".toList ++ computerId ++
    "&average-checks=".toList ++ decimal averageChecks ++
    "&total-checks=".toList ++ decimal check.total ++
    "&average-hits=".toList ++ decimal averageHits ++
    "&total-hits=".toList ++ decimal hit.total,
    { s with check_statistics_ := check, hit_statistics_ := hit })

def statistics (s : PyzordDaemon) (computerId : Text) (now : Readings)
    (error : Bool) : Option PyzordDaemon :=
  if !error then
    let (url, state) := statisticsUrl computerId now s.server.state
    { s with server := { s.server with state } }.request url (.statistics url)
  else some s

def handleStatisticsFailure (s : PyzordDaemon) : PyzordDaemon :=
  s.scheduleStatistics

def handleStatisticsSuccess (s : PyzordDaemon) (status : Nat) :
    PyzordDaemon :=
  { s with refused := s.refused || status = 401 }.scheduleStatistics

/-- Only start the next download while not shutting down. -/
def startUpdateDownload (s : PyzordDaemon) : Option PyzordDaemon :=
  if s.server.shutdown_ then some s
  else
    match s.updates_to_download_ with
    | [] => some s
    | url :: _ => s.request url (.updateDownload url)

/-- The download stays in the queue and is tried again. -/
def handleUpdateDownloadFailure (s : PyzordDaemon) : Option PyzordDaemon :=
  s.startUpdateDownload

/-- `imported` are the records that the import of the download commits; what
it throws is caught. -/
def handleUpdateDownloadSuccess (s : PyzordDaemon) (status : Nat)
    (imported : Dump) : Option PyzordDaemon :=
  if status = 401 then some { s with refused := true }.stop
  else
    let s := { s with updates_to_download_ := s.updates_to_download_.tail }
    if status = 200 then
      { s with database_ := s.database_.importDump imported
        }.startUpdateDownload
    else some s

/-- The `regex_search` loop over a listing; `none` is what `lexical_cast`
throws. -/
def queueUpdates (highest : Nat) (data : Text) (queue : List Url) :
    Option (List Url) :=
  ((searchHrefs 0 data).foldlM (Replica.queueUpdate highest) queue).toOption

/-- The highest update date in the database. -/
def highestTimestamp (s : PyzordDaemon) (index : TimeIndex) : Nat :=
  match s.database_.lookupLast index with
  | some record => record.updated.toNat
  | none => 0

def handleUpdatesScanFailure (s : PyzordDaemon) : PyzordDaemon :=
  s.scheduleUpdatesScan

/-- `lookupLast` says whether `lookup_last` can read the database; it throws
if not. -/
def handleUpdatesScanSuccess (s : PyzordDaemon) (index : TimeIndex)
    (status : Nat) (data : Text) (lookupLast : Bool) :
    Option PyzordDaemon := do
  if status = 401 then pure { s with refused := true }.stop
  else if 200 ≤ status ∧ status ≤ 299 then
    let wasEmpty := s.updates_to_download_.isEmpty
    if !lookupLast then none
    else
      let queue ← queueUpdates (s.highestTimestamp index) data
        s.updates_to_download_
      let s := { s with updates_to_download_ := queue }
      let s ← if wasEmpty then s.startUpdateDownload else some s
      pure s.scheduleUpdatesScan
  else pure s

def updatesScan (s : PyzordDaemon) (error : Bool) : Option PyzordDaemon :=
  if !error then
    s.request "https://update.bohuno.com/pyzor/updates".toList .updatesScan
  else some s

def checkpoint (s : PyzordDaemon) (error : Bool) : PyzordDaemon :=
  if !error then s.scheduleCheckpoint else s

/-- Whether a request is answered from the database. -/
def looksUp (data : Text) : Bool :=
  let (req, ok) := Packet.parse data
  ok && req.get "PV".toList = "2.0".toList &&
    req.get "Op".toList = "check".toList

/-- Whether what was received is such a request. -/
def checks (s : PyzordDaemon) (outcome : Option Nat) : Bool :=
  outcome.any fun bytesRecvd => decide (bytesRecvd > 0) &&
    looksUp (s.server.socket_.buffer.take bytesRecvd)

/-- `lookup` says whether the database can be read; a check of a digest throws
if not. -/
def handleReceiveFrom (s : PyzordDaemon) (now : Readings) (lookup : Bool)
    (outcome : Option Nat) : Option PyzordDaemon :=
  if s.checks outcome && !lookup then none
  else
    let server := (s.server.handleReceiveFrom s.database_ now outcome).1
    some { s with
      server
      started := if server.shutdown_ then s.started
        else s.started ++ [.receiveFrom] }

/-- An exception that leaves a handler leaves `run` as well and ends the
process, with all that it waits for. -/
def terminated (s : PyzordDaemon) : PyzordDaemon :=
  { s with
    server := { s.server with socket_ :=
      { s.server.socket_ with receives := [], sends := [] } }
    io := .idle
    running := false }

/-- What is left once a handler has returned or thrown. -/
def finish (s : PyzordDaemon) (result : Option PyzordDaemon) : PyzordDaemon :=
  result.getD s.terminated

/-- The `i`-th operation completes and its handler is run, if it is the one
for it. -/
def answer (s : PyzordDaemon) (i : Nat) (p : PyzordOperation → Bool)
    (handler : PyzordDaemon → Option PyzordDaemon) : Option PyzordDaemon :=
  (s.io.take i).bind fun (op, io) =>
    if p op.kind ∧ op.progress = .outstanding then
      some (s.finish (handler { s with io }))
    else none

/-- The handler of a timer, with the error of a cancelled one. -/
def handleTimer (s : PyzordDaemon) (computerId : Text) (now : Readings) :
    Operation PyzordOperation → Option (Option PyzordDaemon)
  | ⟨_, .outstanding⟩ => none
  | ⟨.statisticsTimer, progress⟩ =>
      some (s.statistics computerId now (progress = .cancelled))
  | ⟨.checkpointTimer, progress⟩ =>
      some (some (s.checkpoint (progress = .cancelled)))
  | ⟨.updatesScanTimer, progress⟩ =>
      some (s.updatesScan (progress = .cancelled))
  | _ => none

end PyzordDaemon

/-- What can happen to the daemon.  A timer runs out, the handler of an
operation is run, the client of a request throws, a signal comes, and what
happens to its socket. -/
inductive PyzordEvent where
  | expire (i : Nat)
  | handleTimer (i : Nat) (computerId : Text) (now : Readings)
  | statisticsFailure (i : Nat)
  | statisticsSuccess (i : Nat) (status : Nat)
  | updatesScanFailure (i : Nat)
  | updatesScanSuccess (i : Nat) (status : Nat) (data : Text)
      (lookupLast : Bool)
  | updateDownloadFailure (i : Nat)
  | updateDownloadSuccess (i : Nat) (status : Nat) (imported : Dump)
  | requestThrows (i : Nat)
  | handleStop (i : Nat)
  | signal
  | deliver (i : Nat) (sender : Endpoint) (datagram : Text)
  | fail (i : Nat)
  | handleReceiveFrom (i : Nat) (now : Readings) (lookup : Bool)
  | readSend (j : Nat)
  | handleSendTo (j : Nat) (error : Bool)

namespace PyzordDaemon

/-- Only the timers run out; everything else is finished by its handler. -/
def isTimer (operation : PyzordOperation) : Bool :=
  operation = .statisticsTimer || operation = .checkpointTimer ||
    operation = .updatesScanTimer

def isStatistics : PyzordOperation → Bool
  | .statistics _ => true
  | _ => false

def isUpdateDownload : PyzordOperation → Bool
  | .updateDownload _ => true
  | _ => false

/-- What an HTTP client is at work for. -/
def isRequest (operation : PyzordOperation) : Bool :=
  isStatistics operation || operation = .updatesScan ||
    isUpdateDownload operation

/-- A step of the socket that no handler has a part in. -/
def socketStep (s : PyzordDaemon) (event : UdpEvent PyzordControl) :
    Option PyzordDaemon :=
  (UdpServer.step Pyzord.control Pyzord.handleReceiveFrom s.server event).map
    fun server => { s with server }

def perform (index : TimeIndex) (s : PyzordDaemon) :
    PyzordEvent → Option PyzordDaemon
  | .expire i =>
      if ((s.io.operations[i]?).any fun op => isTimer op.kind) then
        (s.io.complete i).map fun io => { s with io }
      else none
  | .handleTimer i computerId now =>
      (s.io.take i).bind fun (op, io) =>
        ({ s with io }.handleTimer computerId now op).map s.finish
  | .statisticsFailure i =>
      s.answer i isStatistics fun s => some s.handleStatisticsFailure
  | .statisticsSuccess i status =>
      s.answer i isStatistics fun s => some (s.handleStatisticsSuccess status)
  | .updatesScanFailure i =>
      s.answer i (· = .updatesScan) fun s => some s.handleUpdatesScanFailure
  | .updatesScanSuccess i status data lookupLast =>
      s.answer i (· = .updatesScan) fun s =>
        s.handleUpdatesScanSuccess index status data lookupLast
  | .updateDownloadFailure i =>
      s.answer i isUpdateDownload handleUpdateDownloadFailure
  | .updateDownloadSuccess i status imported =>
      s.answer i isUpdateDownload fun s =>
        s.handleUpdateDownloadSuccess status imported
  -- `lexical_cast` of a `Content-Length` throws in a handler of the client,
  -- which has called neither of the two handlers of the request by then.
  | .requestThrows i => s.answer i isRequest fun _ => none
  | .handleStop i => s.answer i (· = .handleStop) fun s => some s.handleStop
  | .signal =>
      if s.signalled then none else some { s with signalled := true }.stop
  | .deliver i sender datagram => s.socketStep (.deliver i sender datagram)
  | .fail i => s.socketStep (.fail i)
  | .handleReceiveFrom i now lookup =>
      (s.server.socket_.takeReceive i).map fun (outcome, socket_) =>
        s.finish ({ s with server := { s.server with socket_ }
          }.handleReceiveFrom now lookup outcome)
  | .readSend j => s.socketStep (.readSend j)
  | .handleSendTo j error => s.socketStep (.handleSendTo j error)

/-- Nothing happens any more once the process has ended. -/
def step (index : TimeIndex) (s : PyzordDaemon) (event : PyzordEvent) :
    Option PyzordDaemon :=
  if s.running then s.perform index event else none

end PyzordDaemon

/-- The constructor of `bohuno::pyzord`. -/
def pyzordDaemonSystem (index : TimeIndex) (db : Database)
    (state : PyzordState) : StepSystem PyzordDaemon PyzordEvent where
  init :=
    let s : PyzordDaemon :=
      { server := (pyzordSystem state).init, database_ := db
        updates_to_download_ := [], io := .idle, started := [.receiveFrom]
        stopped := false, refused := false, signalled := false
        running := true }
    s.scheduleStatistics.scheduleCheckpoint.scheduleUpdatesScan
  step := PyzordDaemon.step index

end BohunoPyzord
