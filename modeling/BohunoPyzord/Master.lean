/-
The master: every update that a session reads is applied to the stored record
of its hash in a transaction of its own.
-/
import BohunoPyzord.KeyedFold
import BohunoPyzord.Record
import BohunoPyzord.Signature

namespace BohunoPyzord

/-- The contents of `signatures.db`. -/
abbrev Database := AList fun _ : Hash => Record

/-- Which calls of one transaction succeed.  For `get` this includes
`DB_NOTFOUND`. -/
structure DbCalls where
  txnBegin : Bool
  get : Bool
  put : Bool
  commit : Bool
deriving DecidableEq, Repr

def DbCalls.succeed : DbCalls :=
  { txnBegin := true, get := true, put := true, commit := true }

namespace Database

/-- One transaction that reads the record of `hash`, or the zero record, and
writes it back changed.  `none` is the exception of a failed `txn_begin`. -/
def rewrite (calls : DbCalls) (db : Database) (hash : Hash)
    (change : Record → Record) : Option Database :=
  if !calls.txnBegin then none
  else if calls.get then
    let r := (db.lookup hash).getD Record.zero
    let r := change r
    if calls.put && calls.commit then some (db.insert hash r) else some db
  else some db

def processReportUpdate (calls : DbCalls) (db : Database) (u : Update)
    (spam : Bool) (now : Uint32) : Option Database :=
  rewrite calls db u.ghash fun r =>
    if spam then r.report u.time now else r.whitelist u.time now

/-- Erasing a record sets its report and whitelist count to zero. -/
def processEraseUpdate (calls : DbCalls) (db : Database) (u : Update)
    (now : Uint32) : Option Database :=
  rewrite calls db u.ghash fun r => r.reset 0 now

def processUpdate (calls : DbCalls) (db : Database) (u : Update)
    (now : Uint32) : Option Database :=
  match u.type with
  | some .report => processReportUpdate calls db u true now
  | some .whitelist => processReportUpdate calls db u false now
  | some .erase => processEraseUpdate calls db u now
  | none => some db

/-- `pyzor::database::get`, with the record it leaves behind its reference. -/
def get (db : Database) (hexsignature : List Char) : Bool × Record :=
  match decodeSignature hexsignature with
  | some signature =>
      match db.lookup signature with
      | some r =>
          if r.count .report = 0 ∧ r.count .whitelist = 0 then (false, r)
          else (true, r)
      | none => (false, Record.zero)
  | none => (false, Record.zero)

end Database

/-- An update with the clock reading at which it is processed. -/
structure Processed where
  update : Update
  now : Uint32
deriving DecidableEq, Repr

namespace Processed

/-- What the update makes of the stored record, if it writes one. -/
def rewritten (stored : Option Record) (p : Processed) : Option Record :=
  match p.update.type with
  | some .report => some ((stored.getD Record.zero).report p.update.time p.now)
  | some .whitelist =>
      some ((stored.getD Record.zero).whitelist p.update.time p.now)
  | some .erase => some ((stored.getD Record.zero).reset 0 p.now)
  | none => none

end Processed

namespace Database

/-- Process a sequence of updates, every call succeeding. -/
def processAll (db : Database) (log : List Processed) : Option Database :=
  log.foldlM (fun db p => processUpdate .succeed db p.update p.now) db

theorem processUpdate_succeed (db : Database) (p : Processed) :
    processUpdate .succeed db p.update p.now =
      some (KeyedFold.step (fun p => p.update.ghash) Processed.rewritten
        db p) := by
  unfold processUpdate KeyedFold.step Processed.rewritten
  cases p.update.type with
  | none => rfl
  | some type => cases type <;> rfl

/-- Only the record of the update's own hash is rewritten. -/
theorem processUpdate_lookup (db : Database) (u : Update) (now : Uint32) :
    ∃ db', processUpdate .succeed db u now = some db' ∧ ∀ h, db'.lookup h =
      if u.ghash = h then
        KeyedFold.stepValue Processed.rewritten (db.lookup h) ⟨u, now⟩
      else db.lookup h := by
  let p : Processed := { update := u, now }
  exact ⟨_, processUpdate_succeed db p, fun h =>
    KeyedFold.lookup_step _ _ db p h⟩

/-- A failed call leaves the database as it was, or throws. -/
theorem processUpdate_eq_self {calls : DbCalls} {db db' : Database}
    {u : Update} {now : Uint32} (hfail : calls ≠ .succeed)
    (h : processUpdate calls db u now = some db') : db' = db := by
  have hrewrite : ∀ change, rewrite calls db u.ghash change = some db' →
      db' = db := by
    intro change hchange
    obtain ⟨txnBegin, get, put, commit⟩ := calls
    cases txnBegin <;> cases get <;> cases put <;> cases commit <;>
      simp_all [rewrite, DbCalls.succeed]
  unfold processUpdate at h
  split at h
  · exact hrewrite _ h
  · exact hrewrite _ h
  · exact hrewrite _ h
  · exact (Option.some.inj h).symm

/-- The stored record of a hash is the fold of the updates for that hash. -/
theorem processAll_lookup (db : Database) (log : List Processed) :
    ∃ db', processAll db log = some db' ∧ ∀ h, db'.lookup h =
      (log.filter fun p => p.update.ghash = h).foldl
        (KeyedFold.stepValue Processed.rewritten) (db.lookup h) := by
  refine ⟨log.foldl (KeyedFold.step (fun p => p.update.ghash)
    Processed.rewritten) db, ?_, fun h => KeyedFold.lookup_foldl _ _ _ _ _⟩
  simp only [processAll, processUpdate_succeed]
  induction log generalizing db with
  | nil => rfl
  | cons p log ih => simpa using ih _

/-- `get` finds a hash whose stored record has a count that is not zero. -/
theorem get_hex (db : Database) (h : Hash) :
    (get db h.hex).1 = true ↔ ∃ r, db.lookup h = some r ∧
      (r.count .report ≠ 0 ∨ r.count .whitelist ≠ 0) := by
  rw [get, decodeSignature_hex]
  cases hlookup : db.lookup h with
  | none => simp [hlookup]
  | some r =>
      simp only [hlookup, Option.some.injEq, exists_eq_left']
      split_ifs with hzero
      · simp [hzero]
      · simpa only [not_and_or, true_iff] using hzero

end Database

end BohunoPyzord
