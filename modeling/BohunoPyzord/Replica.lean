/-
The replica: it asks the update server for a listing of the published
updates, queues the ones it takes to be new by the time in their names, and
imports them one after another into its own database.
-/
import BohunoPyzord.Updated

namespace BohunoPyzord

abbrev Url := List Char

/-- The rest of a text after a literal at its front. -/
def stripLiteral (literal : List Char) (s : List Char) :
    Option (List Char) :=
  if literal.isPrefixOf s then some (s.drop literal.length) else none

/-- What `url_regex` captures: the URL, its lower and its upper time. -/
structure HrefMatch where
  url : Url
  min : List Char
  max : List Char
deriving DecidableEq, Repr

/-- `url_regex` anchored at the front of a text, with the length of what it
matches.  The host is the longest run without a slash, since a slash has to
follow it. -/
def matchHref (s : List Char) : Option (HrefMatch × Nat) := do
  let afterTag ← stripLiteral "<D:href>".toList s
  let afterScheme ← stripLiteral "https://".toList afterTag
  let host := afterScheme.takeWhile (· ≠ '/')
  if host = [] then none
  else
    let path := afterScheme.dropWhile (· ≠ '/')
    let times ← stripLiteral "/pyzor/updates/".toList path
    let min := times.take 10
    let max := (times.drop 10).take 10
    if min.length = 10 ∧ max.length = 10 ∧ (min ++ max).all Char.isDigit then
      let rest ← stripLiteral "</D:href>".toList (times.drop 20)
      let url := "https://".toList ++ host ++ "/pyzor/updates/".toList ++
        min ++ max
      some ({ url, min, max }, s.length - rest.length)
    else none

/-- The `regex_search` loop: leftmost matches, each after the end of the one
before; `skip` characters of it are still to be passed over. -/
def searchHrefs (skip : Nat) : List Char → List HrefMatch
  | [] => []
  | c :: cs =>
      match skip with
      | skip + 1 => searchHrefs skip cs
      | 0 =>
          match matchHref (c :: cs) with
          | some (found, length) => found :: searchHrefs (length - 1) cs
          | none => searchHrefs 0 cs

/-- `bohuno::database::import`, the records being all that is committed. -/
def Database.importDump (db : Database) (records : Dump) : Database :=
  records.foldl (fun db p => db.insert p.1 p.2) db

/-- `bohuno::database::lookup_last`: the record under the last index key. -/
def Database.lookupLast (db : Database) (index : TimeIndex) : Option Record :=
  (index.entries db).getLast?.map Prod.snd

/-- `bohuno::pyzord`, the part that keeps it up to date.  `requests` are the
downloads in flight, `scanArmed` says whether `updates_scan_timer_` is. -/
structure Replica where
  database_ : Database
  updates_to_download_ : List Url
  requests : List Url
  scanArmed : Bool
  shutdown_ : Bool
  stopPosted : Bool
deriving DecidableEq

namespace Replica

def stop (r : Replica) : Replica := { r with stopPosted := true }

def startUpdateDownload (r : Replica) : Replica :=
  if r.shutdown_ then r
  else
    match r.updates_to_download_ with
    | [] => r
    | url :: _ => { r with requests := r.requests ++ [url] }

/-- What is requested is the front of the queue, if there is one. -/
theorem startUpdateDownload_eq (r : Replica) :
    r.startUpdateDownload = if r.shutdown_ then r
      else { r with requests := r.requests ++ r.updates_to_download_.take 1 } := by
  obtain ⟨database_, queue, requests, scanArmed, shutdown_, stopPosted⟩ := r
  cases queue with
  | nil => simp [startUpdateDownload]
  | cons url rest => rfl

def scheduleUpdatesScan (r : Replica) : Replica :=
  { r with scanArmed := true }

/-- The highest update date the replica holds. -/
def highestTimestamp (r : Replica) (index : TimeIndex) : Nat :=
  match r.database_.lookupLast index with
  | some record => record.updated.toNat
  | none => 0

/-- What one match of the listing does to the queue. -/
def queueUpdate (highest : Nat) (queue : List Url) (found : HrefMatch) :
    Except TickFailure (List Url) := do
  let min ← lexicalCast found.min
  if min ≥ highest then
    if found.url ∈ queue then pure queue else pure (queue ++ [found.url])
  else pure queue

def handleUpdatesScanSuccess (r : Replica) (index : TimeIndex)
    (status : Nat) (data : List Char) : Except TickFailure Replica := do
  if status = 401 then pure r.stop
  else if 200 ≤ status ∧ status ≤ 299 then
    let wasEmpty := r.updates_to_download_.isEmpty
    let queue ← (searchHrefs 0 data).foldlM
      (queueUpdate (r.highestTimestamp index)) r.updates_to_download_
    let r := { r with updates_to_download_ := queue }
    let r := if wasEmpty then r.startUpdateDownload else r
    pure r.scheduleUpdatesScan
  else pure r

def handleUpdatesScanFailure (r : Replica) : Replica := r.scheduleUpdatesScan

/-- The download stays in the queue and is tried again. -/
def handleUpdateDownloadFailure (r : Replica) : Replica :=
  r.startUpdateDownload

/-- `imported` are the records that the import of the download commits. -/
def handleUpdateDownloadSuccess (r : Replica) (status : Nat)
    (imported : Dump) : Replica :=
  if status = 401 then r.stop
  else if status = 200 then
    let r := { r with updates_to_download_ := r.updates_to_download_.tail }
    let r := { r with database_ := r.database_.importDump imported }
    r.startUpdateDownload
  else { r with updates_to_download_ := r.updates_to_download_.tail }

/-- `handle_stop`, as far as the replica goes. -/
def handleStop (r : Replica) : Replica :=
  { r with shutdown_ := true, scanArmed := false }

/-- A replica that was set up from a snapshot. -/
def ofSnapshot (records : Dump) : Replica :=
  { database_ := Database.importDump ∅ records, updates_to_download_ := []
    requests := [], scanArmed := false, shutdown_ := false
    stopPosted := false }

/-- The next `n` downloads are answered with what the server holds under
their URLs, and imported. -/
def serveDownloads (serve : Url → Dump) : Nat → Replica → Replica
  | 0, r => r
  | n + 1, r =>
      match r.requests with
      | [] => r
      | url :: requests => serveDownloads serve n
          ({ r with requests }.handleUpdateDownloadSuccess 200 (serve url))

end Replica

end BohunoPyzord
