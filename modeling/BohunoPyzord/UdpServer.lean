/-
The UDP side of the two daemons that answer clients.  Both receive into one
buffer, write the reply over the request in it, send it from there and receive
again; they differ in how they answer.
-/
import BohunoPyzord.DatagramSocket
import BohunoPyzord.Master
import BohunoPyzord.Packet
import BohunoPyzord.Statistics
import BohunoPyzord.StepSystem

namespace BohunoPyzord

/-- `asio::ip::udp::endpoint`; the address as `to_string()` prints it. -/
structure Endpoint where
  address : Text
  port : Nat
deriving DecidableEq, Repr

/-- What `time(NULL)` returns in one handler, by the place of the call, of
which there are six at most: each ring that is used reads the clock anew. -/
abbrev Readings := Nat → Nat

/-- The clock does not go back between the calls, and the first is not before
`clock`. -/
def Readings.Follow (now : Readings) (clock : Nat) : Prop :=
  clock ≤ now 0 ∧ ∀ i < 5, now i ≤ now (i + 1)

instance (now : Readings) (clock : Nat) : Decidable (now.Follow clock) :=
  inferInstanceAs (Decidable (_ ∧ _))

/-- `lexical_cast<std::string>` of an unsigned number. -/
def decimal (n : Nat) : Text := Nat.toDigits 10 n

theorem ofDigitChars_decimal (n : Nat) :
    Nat.ofDigitChars 10 (decimal n) 0 = n := Nat.ofDigitChars_ten_toDigits

theorem decimal_injective : Function.Injective decimal :=
  Function.LeftInverse.injective ofDigitChars_decimal

theorem decimal_ne_nil (n : Nat) : decimal n ≠ [] := Nat.toDigits_ne_nil

theorem isDigit_of_mem_decimal {n : Nat} {c : Char} (h : c ∈ decimal n) :
    c.isDigit = true :=
  Nat.isDigit_of_mem_toDigits (by decide) (by decide) h

/-- `hash(std::string const&)`; of a text of another length than 40 it leaves
the hash uninitialized. -/
def Hash.ofHex (hex : Text) : Option Hash :=
  if hex.length = 40 then
    some ⟨Vector.ofFn fun i =>
      hexByte (hex.getD (i * 2) '\x00') (hex.getD (i * 2 + 1) '\x00')⟩
  else none

/-- What a daemon makes of a request: its state after it, the packet to send
back, whether it was told to shut down, and the updates it passes to the
database. -/
structure Reply (S : Type) where
  state : S
  res : Packet
  shutdown : Bool
  updates : List Update

/-- A daemon: `socket_` with the `data_` and `sender_endpoint_` that all its
operations are handed, `shutdown_`, and the rest of its state. -/
structure UdpServer (S : Type) where
  socket_ : DatagramSocket Endpoint Char
  shutdown_ : Bool
  state : S

namespace UdpServer

variable {S : Type}

/-- The size of `data_`. -/
def maxLength : Nat := 8192

/-- The branch for a request: answer it, write the reply over it and send the
reply from there. -/
def answer (reply : Text → Endpoint → S → Reply S) (server : UdpServer S)
    (bytesRecvd : Nat) : UdpServer S × List Update :=
  let reply := reply (server.socket_.buffer.take bytesRecvd)
    server.socket_.sender server.state
  let (data, length) := reply.res.archive maxLength
  ({ socket_ := { server.socket_ with buffer := data }.asyncSendTo length
     shutdown_ := server.shutdown_ || reply.shutdown
     state := reply.state }, reply.updates)

/-- Receive the next packet, whether there was an error or not. -/
def receiveNext (server : UdpServer S) : UdpServer S :=
  if !server.shutdown_ then
    { server with socket_ := server.socket_.asyncReceiveFrom }
  else server

/-- `handle_receive_from`, with the number of bytes received or `none` for an
error. -/
def handleReceiveFrom (reply : Text → Endpoint → S → Reply S)
    (server : UdpServer S) (outcome : Option Nat) :
    UdpServer S × List Update :=
  match outcome with
  | some bytesRecvd =>
      if bytesRecvd > 0 then
        let (server, updates) := server.answer reply bytesRecvd
        (server.receiveNext, updates)
      else (server.receiveNext, [])
  | none => (server.receiveNext, [])

end UdpServer

/-- The reply to a packet that is not well-formed. -/
def badRequest (req : Packet) : Packet :=
  (((Packet.empty.set "Thread".toList (req.get "Thread".toList)).set
    "PV".toList "2.0".toList).set "Code".toList "400".toList).set
    "Diag".toList "Bad Request".toList

/-- The reply that the operations add to. -/
def okReply (req : Packet) : Packet :=
  (((Packet.empty.set "Thread".toList (req.get "Thread".toList)).set
    "PV".toList "2.0".toList).set "Diag".toList "OK".toList).set
    "Code".toList "200".toList

/-- The same reply with another code and diagnosis. -/
def Packet.diagnose (res : Packet) (code diag : Text) : Packet :=
  (res.set "Code".toList code).set "Diag".toList diag

def Packet.setCounts (res : Packet) (count whitelistCount : Nat) : Packet :=
  (res.set "Count".toList (decimal count)).set "WL-Count".toList
    (decimal whitelistCount)

def Packet.setStatistics (res : Packet) (values : List (String × Nat)) :
    Packet :=
  values.foldl (fun res p => res.set p.1.toList (decimal p.2)) res

/-- The answer to a request, as both daemons work it out: `count` counts it,
`authorized` says whether its sender may give admin requests, `statistics` and
`operation` answer the others, `none` being an operation that is not
supported. -/
def answerRequest {S : Type} (count : S → S) (authorized : Bool)
    (statistics : S → Packet → S × Packet)
    (operation : Packet → S → Packet → Option (S × Packet × List Update))
    (data : Text) (s : S) : Reply S :=
  let (req, ok) := Packet.parse data
  if !ok then
    { state := s, res := badRequest req, shutdown := false, updates := [] }
  else
    let res := okReply req
    if req.get "PV".toList ≠ "2.0".toList then
      let res := res.diagnose "505".toList "Version Not Supported".toList
      { state := s, res, shutdown := false, updates := [] }
    else
      let s := count s
      let op := req.get "Op".toList
      if op = "shutdown".toList ∨ op = "statistics".toList then
        if !authorized then
          let res := res.diagnose "401".toList "Unauthorized".toList
          { state := s, res, shutdown := false, updates := [] }
        else if op = "shutdown".toList then
          { state := s, res, shutdown := true, updates := [] }
        else
          let (s, res) := statistics s res
          { state := s, res, shutdown := false, updates := [] }
      else
        match operation req s res with
        | some (s, res, updates) =>
            { state := s, res, shutdown := false, updates }
        | none =>
            let res := res.diagnose "501".toList
              "Not supported operation".toList
            { state := s, res, shutdown := false, updates := [] }

/-- The statistics of `pyzor::server`, with its admin addresses. -/
structure ServerState where
  request_statistics_ : StatisticsRing
  check_statistics_ : StatisticsRing
  hit_statistics_ : StatisticsRing
  report_statistics_ : StatisticsRing
  whitelist_statistics_ : StatisticsRing
  admin_addresses_ : List Text
deriving DecidableEq, Repr

abbrev Server := UdpServer ServerState

namespace ServerState

def authorizeAdminRequest (s : ServerState) (sender : Endpoint) : Bool :=
  s.admin_addresses_.contains sender.address

/-- `PYZOR_WHITELIST_ENABLED`, which nothing defines. -/
def whitelistEnabled : Bool := false

/-- The reply to `statistics`. -/
def statistics (now : Readings) (s : ServerState) (res : Packet) :
    ServerState × Packet :=
  let (requests, request) := s.request_statistics_.average (now 1)
  let (checks, check) := s.check_statistics_.average (now 2)
  let (hits, hit) := s.hit_statistics_.average (now 3)
  let (reports, report) := s.report_statistics_.average (now 4)
  let (whitelists, whitelist) := s.whitelist_statistics_.average (now 5)
  ({ s with
    request_statistics_ := request
    check_statistics_ := check
    hit_statistics_ := hit
    report_statistics_ := report
    whitelist_statistics_ := whitelist },
    res.setStatistics [("Stats-Average-Requests", requests),
      ("Stats-Average-Checks", checks), ("Stats-Average-Hits", hits),
      ("Stats-Average-Reports", reports),
      ("Stats-Average-Whitelists", whitelists),
      ("Stats-Total-Requests", request.total),
      ("Stats-Total-Checks", check.total), ("Stats-Total-Hits", hit.total),
      ("Stats-Total-Reports", report.total),
      ("Stats-Total-Whitelists", whitelist.total)])

/-- Three months. -/
def recordAge : Int := 3 * 28 * 86400

/-- The reply to `check`: the counts of a record that is found, unless it has
one report only and is old. -/
def check (s : ServerState) (stored : Database) (now : Readings)
    (digest : Text) (res : Packet) : ServerState × Packet :=
  let s := { s with check_statistics_ := s.check_statistics_.report (now 1) }
  let res := res.setCounts 0 0
  let (found, r) := stored.get digest
  if found then
    if r.count .report = 1 ∧
        (now 2 : Int) - r.entered.toNat > recordAge then
      (s, res)
    else
      ({ s with hit_statistics_ := s.hit_statistics_.report (now 3) },
        res.setCounts (r.count .report).toNat (r.count .whitelist).toNat)
  else (s, res)

/-- The update that `database::report` or `database::whitelist` makes. -/
def update (digest : Text) (type : UpdateType) (now : Nat) : List Update :=
  (Hash.ofHex digest).toList.map fun hash =>
    Update.make hash type (BitVec.ofNat 32 now)

/-- The operations that `pyzor::server` supports. -/
def operation (stored : Database) (now : Readings) (req : Packet)
    (s : ServerState) (res : Packet) :
    Option (ServerState × Packet × List Update) :=
  let op := req.get "Op".toList
  let digest := req.get "Op-Digest".toList
  if op = "check".toList then
    let (s, res) := s.check stored now digest res
    some (s, res, [])
  else if op = "report".toList then
    let s := { s with
      report_statistics_ := s.report_statistics_.report (now 1) }
    some (s, res, update digest .report (now 2))
  else if op = "whitelist".toList then
    let s := { s with
      whitelist_statistics_ := s.whitelist_statistics_.report (now 1) }
    some (s, res,
      if whitelistEnabled then update digest .whitelist (now 2) else [])
  else if op = "ping".toList then some (s, res, [])
  else none

def reply (stored : Database) (now : Readings) (data : Text)
    (sender : Endpoint) (s : ServerState) : Reply ServerState :=
  answerRequest
    (fun s => { s with
      request_statistics_ := s.request_statistics_.report (now 0) })
    (s.authorizeAdminRequest sender) (statistics now) (operation stored now)
    data s

end ServerState

namespace Server

/-- `start_listening`, the address resolving. -/
def startListening (server : Server) : Server :=
  { server with socket_ := server.socket_.openSocket.asyncReceiveFrom }

def stopListening (server : Server) : Server :=
  { server with socket_ := server.socket_.close }

def handleReceiveFrom (stored : Database) (now : Readings) (server : Server)
    (outcome : Option Nat) : Server × List Update :=
  UdpServer.handleReceiveFrom (ServerState.reply stored now) server outcome

end Server

/-- The statistics of `bohuno::pyzord`. -/
structure PyzordState where
  request_statistics_ : StatisticsRing
  check_statistics_ : StatisticsRing
  hit_statistics_ : StatisticsRing
deriving DecidableEq, Repr

abbrev Pyzord := UdpServer PyzordState

/-- `bohuno::database::lookup`, with the record it leaves behind its
reference: found is what has both counts. -/
def Database.lookupRecord (db : Database) (hash : Hash) : Bool × Record :=
  match db.lookup hash with
  | some r =>
      (decide (r.count .report ≠ 0) && decide (r.count .whitelist ≠ 0), r)
  | none => (false, Record.zero)

namespace PyzordState

def authorizeAdminRequest (sender : Endpoint) : Bool :=
  sender.address = "127.0.0.1".toList

def statistics (now : Readings) (s : PyzordState) (res : Packet) :
    PyzordState × Packet :=
  let (requests, request) := s.request_statistics_.average (now 1)
  let (checks, check) := s.check_statistics_.average (now 2)
  let (hits, hit) := s.hit_statistics_.average (now 3)
  ({ request_statistics_ := request, check_statistics_ := check
     hit_statistics_ := hit },
    res.setStatistics [("Stats-Average-Requests", requests),
      ("Stats-Average-Checks", checks), ("Stats-Average-Hits", hits),
      ("Stats-Total-Requests", request.total),
      ("Stats-Total-Checks", check.total), ("Stats-Total-Hits", hit.total)])

/-- The reply to `check`: the counts of the record, found or not. -/
def check (s : PyzordState) (stored : Database) (now : Readings)
    (digest : Text) (res : Packet) : PyzordState × Packet :=
  let s := { s with check_statistics_ := s.check_statistics_.report (now 1) }
  let (found, r) := ((Hash.ofHex digest).map stored.lookupRecord).getD
    (false, Record.zero)
  let s := if found then
      { s with hit_statistics_ := s.hit_statistics_.report (now 2) }
    else s
  (s, res.setCounts (r.count .report).toNat (r.count .whitelist).toNat)

/-- The operations that `bohuno::pyzord` supports; none changes the
database. -/
def operation (stored : Database) (now : Readings) (req : Packet)
    (s : PyzordState) (res : Packet) :
    Option (PyzordState × Packet × List Update) :=
  let op := req.get "Op".toList
  if op = "check".toList then
    let (s, res) := s.check stored now (req.get "Op-Digest".toList) res
    some (s, res, [])
  else if op = "ping".toList then some (s, res, [])
  else none

def reply (stored : Database) (now : Readings) (data : Text)
    (sender : Endpoint) (s : PyzordState) : Reply PyzordState :=
  answerRequest
    (fun s => { s with
      request_statistics_ := s.request_statistics_.report (now 0) })
    (authorizeAdminRequest sender) (statistics now) (operation stored now)
    data s

end PyzordState

namespace Pyzord

/-- `handle_stop`. -/
def handleStop (server : Pyzord) : Pyzord :=
  { server with shutdown_ := true, socket_ := server.socket_.close }

def handleReceiveFrom (stored : Database) (now : Readings) (server : Pyzord)
    (outcome : Option Nat) : Pyzord × List Update :=
  UdpServer.handleReceiveFrom (PyzordState.reply stored now) server outcome

end Pyzord

/-- What can happen to a daemon.  Completions name the operation; `stored` is
what the database holds when a request is answered, and `control` what starts
and stops the daemon. -/
inductive UdpEvent (C : Type) where
  | control (c : C)
  | deliver (i : Nat) (sender : Endpoint) (datagram : Text)
  | fail (i : Nat)
  | handleReceiveFrom (i : Nat) (stored : Database) (now : Readings)
  | readSend (j : Nat)
  | handleSendTo (j : Nat) (error : Bool)

namespace UdpServer

variable {S C : Type}

/-- A step, given how the daemon is controlled and how it handles what it
receives. -/
def step (control : UdpServer S → C → Option (UdpServer S))
    (handle : Database → Readings → UdpServer S → Option Nat →
      UdpServer S × List Update)
    (server : UdpServer S) : UdpEvent C → Option (UdpServer S)
  | .control c => control server c
  | .deliver i sender datagram =>
      (server.socket_.deliver i sender datagram).map fun socket_ =>
        { server with socket_ }
  | .fail i => (server.socket_.fail i).map fun socket_ =>
      { server with socket_ }
  | .handleReceiveFrom i stored now =>
      (server.socket_.takeReceive i).map fun (outcome, socket_) =>
        (handle stored now { server with socket_ } outcome).1
  | .readSend j => (server.socket_.readSend j).map fun socket_ =>
      { server with socket_ }
  | .handleSendTo j error =>
      (server.socket_.completeSend j error).map fun socket_ =>
        { server with socket_ }

/-- Every other step is one of the socket. -/
theorem exists_socket_of_step {control : UdpServer S → C → Option (UdpServer S)}
    {handle : Database → Readings → UdpServer S → Option Nat →
      UdpServer S × List Update}
    {server server' : UdpServer S} {event : UdpEvent C}
    (hcontrol : ∀ c, event ≠ .control c)
    (hreceive : ∀ i stored now, event ≠ .handleReceiveFrom i stored now)
    (h : step control handle server event = some server') :
    ∃ socket_, server' = { server with socket_ } := by
  cases event with
  | control c => exact absurd rfl (hcontrol c)
  | handleReceiveFrom i stored now => exact absurd rfl (hreceive i stored now)
  | deliver i sender datagram =>
      obtain ⟨socket_, -, rfl⟩ := Option.map_eq_some_iff.mp h
      exact ⟨socket_, rfl⟩
  | fail i =>
      obtain ⟨socket_, -, rfl⟩ := Option.map_eq_some_iff.mp h
      exact ⟨socket_, rfl⟩
  | readSend j =>
      obtain ⟨socket_, -, rfl⟩ := Option.map_eq_some_iff.mp h
      exact ⟨socket_, rfl⟩
  | handleSendTo j error =>
      obtain ⟨socket_, -, rfl⟩ := Option.map_eq_some_iff.mp h
      exact ⟨socket_, rfl⟩

/-- The socket and the memory next to it, as they are constructed. -/
def start (state : S) : UdpServer S :=
  { socket_ := DatagramSocket.closed (List.replicate maxLength '\x00')
      { address := [], port := 0 }
    shutdown_ := false, state }

end UdpServer

/-- The signals of the database. -/
inductive ServerControl where
  | startListening
  | stopListening
deriving DecidableEq, Repr

/-- The signals alternate. -/
def Server.control (server : Server) : ServerControl → Option Server
  | .startListening =>
      if server.socket_.isOpen then none else some server.startListening
  | .stopListening =>
      if server.socket_.isOpen then some server.stopListening else none

def serverSystem (state : ServerState) :
    StepSystem Server (UdpEvent ServerControl) where
  init := UdpServer.start state
  step := UdpServer.step Server.control Server.handleReceiveFrom

inductive PyzordControl where
  | handleStop
deriving DecidableEq, Repr

def Pyzord.control (server : Pyzord) : PyzordControl → Option Pyzord
  | .handleStop => some server.handleStop

/-- The constructor of `bohuno::pyzord` opens the socket and receives. -/
def pyzordSystem (state : PyzordState) :
    StepSystem Pyzord (UdpEvent PyzordControl) where
  init :=
    let server := UdpServer.start state
    { server with socket_ := server.socket_.openSocket.asyncReceiveFrom }
  step := UdpServer.step Pyzord.control Pyzord.handleReceiveFrom

end BohunoPyzord
