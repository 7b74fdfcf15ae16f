/-
The master's expiry of records: in one transaction it walks the time index from
where the last tick ended, deletes old records that were reported at most once,
and writes the time of the last one to a file of its own.
-/
import BohunoPyzord.Publishing
import BohunoPyzord.Transport

namespace BohunoPyzord

/-- `report_count() <= 1`. -/
def Record.reportedOnce (r : Record) : Bool := r.count .report ≤ 1

namespace Master

/-- `MAX_RECORD_AGE`: three months. -/
def maxRecordAge : Uint32 := 3 * 28 * 86400

def maxRecordsToExpire : Uint32 := 3600

/-- `EXPIRE_INTERVAL`, in seconds. -/
def expireInterval : Uint32 := 60

/-- Which calls of `expire` succeed: how many calls of the cursor's `get`, the
first call of `del` being number 0. -/
structure ExpireCalls where
  txnBegin : Bool
  cursor : Bool
  gets : Nat
  del : Nat → Bool
  commit : Bool

/-- The local variables of the loop of `expire`, with what is deleted in the
transaction. -/
structure ExpireScan where
  deleted : Uint32
  updated : Uint32
  erased : List Hash
deriving DecidableEq, Repr

/-- The loop of `expire` over the entries that the cursor delivers. -/
def expireLoop (del : Nat → Bool) (updatedTo : Uint32) :
    ExpireScan → Dump → ExpireScan
  | scan, [] => scan
  | scan, p :: rest =>
      if p.2.updated ≥ updatedTo then scan
      else if p.2.reportedOnce then
        let erased := if del scan.deleted.toNat then scan.erased ++ [p.1]
          else scan.erased
        let scan := { deleted := scan.deleted + 1, updated := p.2.updated
                      erased }
        if scan.deleted = maxRecordsToExpire then scan
        else expireLoop del updatedTo scan rest
      else expireLoop del updatedTo scan rest

/-- `expire`: the number it returns, `updated_to` after it and the database;
`none` is an exception.  Only a transaction that is committed deletes. -/
def expire (index : TimeIndex) (calls : ExpireCalls) (stored : Database)
    (updatedFrom updatedTo : Uint32) : Option (Uint32 × Uint32 × Database) :=
  if !calls.txnBegin || !calls.cursor then none
  else
    let delivered := (index.entriesFrom stored updatedFrom.toNat).take
      calls.gets
    if delivered = [] then some (0, updatedTo, stored)
    else
      let scan := expireLoop calls.del updatedTo
        { deleted := 0, updated := htonl updatedFrom, erased := [] } delivered
      let stored := if calls.commit then
          scan.erased.foldl (fun db hash => db.erase hash) stored
        else stored
      some (scan.deleted, scan.updated, stored)

/-- Which calls of one tick succeed: whether `exists` does, whether the file
can be opened for reading and for writing, and how many bytes are read from it
and written to it. -/
structure ExpireTickCalls where
  existsReturns : Bool
  openRead : Bool
  readBytes : Nat
  expire : ExpireCalls
  openWrite : Bool
  writtenBytes : Nat

/-- What a word that is zero holds after some bytes were read into it. -/
def readWord (bytes : List Byte) : Uint32 := wordAt bytes 0

/-- What a tick leaves: the database, `expire_status`, what it put there if it
opened it for writing, and in how many seconds the next tick is due, if one is
scheduled. -/
structure ExpireTick where
  stored : Database
  status : Option (List Byte)
  wrote : Option (List Byte)
  scheduled : Option Uint32

/-- From when to check: `none` where the file is there but cannot be opened. -/
def updatedFrom (calls : ExpireTickCalls) (status : Option (List Byte)) :
    Option Uint32 :=
  match status with
  | some bytes =>
      if calls.openRead then some (readWord (bytes.take calls.readBytes))
      else none
  | none => some 0

/-- `handle_expire` at clock reading `now`, when its timer was not cancelled;
`none` is an exception. -/
def handleExpire (index : TimeIndex) (calls : ExpireTickCalls) (now : Uint32)
    (stored : Database) (status : Option (List Byte)) : Option ExpireTick :=
  if !calls.existsReturns then none
  else
    match updatedFrom calls status with
    | none => some { stored, status, wrote := none, scheduled := none }
    | some updatedFrom =>
        match expire index calls.expire stored updatedFrom
            (now - maxRecordAge) with
        | none => some { stored, status, wrote := none
                         scheduled := some expireInterval }
        | some (deleted, updatedTo, stored) =>
            if deleted ≠ 0 then
              if !calls.openWrite then
                some { stored, status, wrote := none, scheduled := none }
              else
                let wrote := some ((wordBytes updatedTo).take
                  calls.writtenBytes)
                let scheduled :=
                  if now - maxRecordAge - updatedTo > expireInterval then
                    some 1
                  else some expireInterval
                some { stored, status := wrote, wrote, scheduled }
            else some { stored, status, wrote := none
                        scheduled := some expireInterval }

/-- The records that `expire` counts as deleted. -/
def counted (index : TimeIndex) (calls : ExpireCalls) (stored : Database)
    (updatedFrom updatedTo : Uint32) : Dump :=
  OrderedScan.select stamp (fun p => p.2.reportedOnce) updatedTo.toNat
    maxRecordsToExpire.toNat
    ((index.entriesFrom stored updatedFrom.toNat).take calls.gets)

/-- The ones of these that the transaction deletes, `k` having been counted
before. -/
def deletions (del : Nat → Bool) (k : Nat) (records : Dump) : List Hash :=
  ((records.zipIdx k).filter fun x => del x.2).map fun x => x.1.1

theorem deletions_cons (del : Nat → Bool) (k : Nat) (p : Hash × Record)
    (records : Dump) :
    deletions del k (p :: records) =
      (if del k then [p.1] else []) ++ deletions del (k + 1) records := by
  rw [deletions, List.zipIdx_cons, List.filter_cons]
  split_ifs <;> rfl

/-- What the loop does to its variables when it counts some records. -/
structure Counts (del : Nat → Bool) (scan ended : ExpireScan)
    (records : Dump) : Prop where
  deleted : ended.deleted.toNat = scan.deleted.toNat + records.length
  updated : ended.updated =
    (records.getLast?.map fun p => p.2.updated).getD scan.updated
  erased : ended.erased =
    scan.erased ++ deletions del scan.deleted.toNat records

/-- The variables after one more record. -/
def ExpireScan.count (del : Nat → Bool) (scan : ExpireScan)
    (p : Hash × Record) : ExpireScan :=
  { deleted := scan.deleted + 1, updated := p.2.updated
    erased := if del scan.deleted.toNat then scan.erased ++ [p.1]
      else scan.erased }

theorem Counts.nil (del : Nat → Bool) (scan : ExpireScan) :
    Counts del scan scan [] where
  deleted := rfl
  updated := rfl
  erased := (List.append_nil _).symm

theorem Counts.cons {del : Nat → Bool} {scan ended : ExpireScan}
    {p : Hash × Record} {records : Dump}
    (hcount : (scan.deleted + 1).toNat = scan.deleted.toNat + 1)
    (h : Counts del (scan.count del p) ended records) :
    Counts del scan ended (p :: records) where
  deleted := by
    have hrest := h.deleted
    simp only [ExpireScan.count, hcount] at hrest
    rw [hrest, List.length_cons]
    omega
  updated := by
    rw [h.updated, List.getLast?_cons]
    cases records.getLast? with
    | none => rfl
    | some last => rfl
  erased := by
    have hrest := h.erased
    simp only [ExpireScan.count, hcount] at hrest
    rw [hrest, deletions_cons]
    split_ifs
    · rw [List.append_assoc]
    · rfl

/-- The loop counts the first records below `updatedTo` that were reported at
most once, up to the greatest number. -/
theorem expireLoop_counts (del : Nat → Bool) (updatedTo : Uint32)
    (scan : ExpireScan) (entries : Dump)
    (hdeleted : scan.deleted.toNat < maxRecordsToExpire.toNat) :
    Counts del scan (expireLoop del updatedTo scan entries)
      (OrderedScan.select stamp (fun p => p.2.reportedOnce) updatedTo.toNat
        (maxRecordsToExpire.toNat - scan.deleted.toNat) entries) := by
  induction entries generalizing scan with
  | nil =>
      rw [OrderedScan.select_nil]
      exact Counts.nil del scan
  | cons p entries ih =>
      have hmax : maxRecordsToExpire.toNat = 3600 := by decide
      rw [expireLoop]
      by_cases hstop : p.2.updated ≥ updatedTo
      · rw [if_pos hstop, OrderedScan.select_cons_of_le hstop]
        exact Counts.nil del scan
      · have hbelow : stamp p < updatedTo.toNat := BitVec.not_le.mp hstop
        rw [if_neg hstop]
        by_cases honce : p.2.reportedOnce = true
        · have hroom : maxRecordsToExpire.toNat - scan.deleted.toNat =
              maxRecordsToExpire.toNat - (scan.deleted.toNat + 1) + 1 := by
            omega
          have hcount : (scan.deleted + 1).toNat = scan.deleted.toNat + 1 := by
            have hone : (1 : Uint32).toNat = 1 := by decide
            rw [BitVec.toNat_add]
            omega
          rw [if_pos honce, hroom,
            OrderedScan.select_cons_of_pos hbelow honce]
          apply Counts.cons hcount
          change Counts del (scan.count del p)
            (if scan.deleted + 1 = maxRecordsToExpire then scan.count del p
              else expireLoop del updatedTo (scan.count del p) entries) _
          by_cases hfull : scan.deleted + 1 = maxRecordsToExpire
          · have hnone : maxRecordsToExpire.toNat -
                (scan.deleted.toNat + 1) = 0 := by
              rw [← hcount, hfull, Nat.sub_self]
            rw [if_pos hfull, hnone, OrderedScan.select_zero]
            exact Counts.nil del _
          · have hless : scan.deleted.toNat + 1 ≠ maxRecordsToExpire.toNat := by
              rw [← hcount]
              exact fun heq => hfull (BitVec.eq_of_toNat_eq heq)
            have hleft : (scan.count del p).deleted.toNat <
                maxRecordsToExpire.toNat := by
              simp only [ExpireScan.count, hcount]
              omega
            rw [if_neg hfull, ← hcount]
            exact ih _ hleft
        · rw [Bool.not_eq_true] at honce
          rw [if_neg (by simp [honce]),
            OrderedScan.select_cons_of_neg hbelow honce]
          exact ih scan hdeleted

theorem lookup_foldl_erase (hashes : List Hash) (db : Database) (h : Hash) :
    (hashes.foldl (fun db hash => db.erase hash) db).lookup h =
      if h ∈ hashes then none else db.lookup h := by
  induction hashes generalizing db with
  | nil => simp
  | cons hash hashes ih =>
      rw [List.foldl_cons, ih]
      by_cases hlater : h ∈ hashes
      · simp [hlater]
      · by_cases hhead : h = hash
        · subst hhead
          simp
        · simp [hlater, hhead, AList.lookup_erase_ne hhead]

theorem mem_deletions {del : Nat → Bool} {records : Dump} {h : Hash} :
    h ∈ deletions del 0 records ↔
      ∃ i p, records[i]? = some p ∧ del i = true ∧ p.1 = h := by
  simp only [deletions, List.mem_map, List.mem_filter, Prod.exists]
  constructor
  · rintro ⟨hash, r, i, ⟨hmem, hdel⟩, rfl⟩
    exact ⟨i, hash, r, List.mk_mem_zipIdx_iff_getElem?.mp hmem, hdel, rfl⟩
  · rintro ⟨i, hash, r, hget, hdel, rfl⟩
    exact ⟨hash, r, i, ⟨List.mk_mem_zipIdx_iff_getElem?.mpr hget, hdel⟩, rfl⟩

/-- A counted record is deleted by its own call of `del` or not at all. -/
theorem mem_deletions_getElem {del : Nat → Bool} {records : Dump}
    (hkeys : (records.map Prod.fst).Nodup) {i : Nat} {p : Hash × Record}
    (hp : records[i]? = some p) :
    p.1 ∈ deletions del 0 records ↔ del i = true := by
  rw [mem_deletions]
  constructor
  · rintro ⟨j, q, hq, hdel, hkey⟩
    have hi : (records.map Prod.fst)[i]? = some p.1 := by
      rw [List.getElem?_map, hp]
      rfl
    have hj : (records.map Prod.fst)[j]? = some p.1 := by
      rw [List.getElem?_map, hq, ← hkey]
      rfl
    have hbound := (List.getElem?_eq_some_iff.mp hi).1
    rwa [List.getElem?_inj hbound hkeys |>.mp (hi.trans hj.symm)]
  · intro hdel
    exact ⟨i, p, hp, hdel, rfl⟩

/-- What a transaction that counts some records leaves of the database. -/
structure Expired (calls : ExpireCalls) (stored stored' : Database)
    (records : Dump) : Prop where
  gone : ∀ hash ∈ deletions calls.del 0 records, calls.commit = true →
    stored'.lookup hash = none
  kept : ∀ hash, ¬ (calls.commit = true ∧
    hash ∈ deletions calls.del 0 records) →
      stored'.lookup hash = stored.lookup hash

theorem expired_foldl_erase (calls : ExpireCalls) (stored : Database)
    (records : Dump) :
    Expired calls stored
      (if calls.commit then
        (deletions calls.del 0 records).foldl (fun db hash => db.erase hash)
          stored
      else stored) records := by
  constructor
  · intro hash hmem hcommit
    rw [if_pos hcommit, lookup_foldl_erase, if_pos hmem]
  · intro hash hnot
    by_cases hcommit : calls.commit = true
    · rw [if_pos hcommit, lookup_foldl_erase,
        if_neg fun hmem => hnot ⟨hcommit, hmem⟩]
    · rw [if_neg hcommit]

/-- What `expire` returns, and what it does to the database. -/
theorem expire_eq_some {index : TimeIndex} {calls : ExpireCalls}
    {stored stored' : Database} {updatedFrom updatedTo deleted v : Uint32}
    (h : expire index calls stored updatedFrom updatedTo =
      some (deleted, v, stored')) :
    let records := counted index calls stored updatedFrom updatedTo
    deleted.toNat = records.length ∧
      (∀ last ∈ records.getLast?, v = last.2.updated) ∧
      Expired calls stored stored' records := by
  intro records
  rw [expire] at h
  by_cases hcalls : (!calls.txnBegin || !calls.cursor) = true
  · rw [if_pos hcalls] at h
    cases h
  · rw [if_neg hcalls] at h
    simp only at h
    by_cases hnone : (index.entriesFrom stored updatedFrom.toNat).take
        calls.gets = []
    · have hrecords : records = [] := by
        change OrderedScan.select _ _ _ _ (List.take _ _) = []
        rw [hnone, OrderedScan.select_nil]
      have hexpired := expired_foldl_erase calls stored []
      rw [if_pos hnone, Option.some.injEq, Prod.mk.injEq, Prod.mk.injEq] at h
      obtain ⟨rfl, rfl, rfl⟩ := h
      rw [hrecords]
      refine ⟨rfl, fun last hlast => absurd hlast (by simp), ?_⟩
      simpa [deletions] using hexpired
    · have hzero : (0 : Uint32).toNat < maxRecordsToExpire.toNat := by decide
      obtain ⟨hdeleted, hupdated, herased⟩ := expireLoop_counts calls.del
        updatedTo ⟨0, htonl updatedFrom, []⟩
        ((index.entriesFrom stored updatedFrom.toNat).take calls.gets) hzero
      have hexpired := expired_foldl_erase calls stored records
      rw [if_neg hnone, Option.some.injEq, Prod.mk.injEq, Prod.mk.injEq] at h
      obtain ⟨rfl, rfl, rfl⟩ := h
      refine ⟨?_, ?_, ?_⟩
      · rw [hdeleted]
        exact Nat.zero_add _
      · intro last hlast
        have hlast' : records.getLast? = some last := hlast
        rw [hupdated]
        change (records.getLast?.map _).getD _ = _
        rw [hlast']
        rfl
      · rw [herased]
        exact hexpired

section Counted

variable {index : TimeIndex} {calls : ExpireCalls} {stored : Database}
  {updatedFrom updatedTo : Uint32}

/-- What is counted is stored, old and reported at most once. -/
theorem mem_counted {p : Hash × Record}
    (h : p ∈ counted index calls stored updatedFrom updatedTo) :
    stored.lookup p.1 = some p.2 ∧ p.2.reportedOnce = true ∧
      updatedFrom ≤ p.2.updated ∧ p.2.updated < updatedTo := by
  have hordered : OrderedScan.Ordered stamp
      ((index.entriesFrom stored updatedFrom.toNat).take calls.gets) :=
    List.Pairwise.sublist (List.take_sublist _ _)
      (index.ordered_entriesFrom stored _)
  obtain ⟨honce, hbelow⟩ := OrderedScan.mem_select hordered h
  have hseen := List.mem_of_mem_take (OrderedScan.select_sublist.subset h)
  obtain ⟨hlookup, hfrom⟩ := index.mem_entriesFrom.mp hseen
  exact ⟨hlookup, honce, hfrom, hbelow⟩

/-- What would be counted and is older than something counted is counted. -/
theorem mem_counted_of_lt {last p : Hash × Record}
    (hlast : last ∈ counted index calls stored updatedFrom updatedTo)
    (hlookup : stored.lookup p.1 = some p.2)
    (honce : p.2.reportedOnce = true) (hfrom : updatedFrom ≤ p.2.updated)
    (hlt : p.2.updated < last.2.updated) :
    p ∈ counted index calls stored updatedFrom updatedTo :=
  OrderedScan.mem_select_of_lt (index.ordered_entriesFrom stored _) hlast
    (index.mem_entriesFrom.mpr ⟨hlookup, hfrom⟩) honce hlt

/-- No hash is counted twice. -/
theorem nodup_counted :
    ((counted index calls stored updatedFrom updatedTo).map Prod.fst).Nodup :=
  (index.nodup_entriesFrom stored updatedFrom.toNat).sublist
    ((OrderedScan.select_sublist.trans (List.take_sublist _ _)).map Prod.fst)

end Counted

theorem isSome_expire (index : TimeIndex) (calls : ExpireCalls)
    (stored : Database) (updatedFrom updatedTo : Uint32) :
    (expire index calls stored updatedFrom updatedTo).isSome =
      (calls.txnBegin && calls.cursor) := by
  rw [expire]
  by_cases hcalls : (calls.txnBegin && calls.cursor) = true
  · have hnot : ¬ (!calls.txnBegin || !calls.cursor) = true := by
      rw [← Bool.not_and, hcalls]
      decide
    rw [if_neg hnot, hcalls]
    simp only
    split_ifs <;> rfl
  · rw [Bool.not_eq_true] at hcalls
    rw [← Bool.not_and, hcalls]
    rfl

/-- The records that a tick counts as deleted. -/
def tickCounted (index : TimeIndex) (calls : ExpireTickCalls) (now : Uint32)
    (stored : Database) (status : Option (List Byte)) : Dump :=
  if calls.existsReturns && (calls.expire.txnBegin && calls.expire.cursor) then
    match updatedFrom calls status with
    | some updatedFrom =>
        counted index calls.expire stored updatedFrom (now - maxRecordAge)
    | none => []
  else []

section TickCounted

variable {index : TimeIndex} {calls : ExpireTickCalls} {now : Uint32}
  {stored : Database} {status : Option (List Byte)}

theorem tickCounted_cases (index : TimeIndex) (calls : ExpireTickCalls)
    (now : Uint32) (stored : Database) (status : Option (List Byte)) :
    tickCounted index calls now stored status = [] ∨
      ∃ start, updatedFrom calls status = some start ∧
        tickCounted index calls now stored status =
          counted index calls.expire stored start (now - maxRecordAge) := by
  rw [tickCounted]
  split_ifs
  · rcases updatedFrom calls status with - | start
    · exact Or.inl rfl
    · exact Or.inr ⟨start, rfl, rfl⟩
  · exact Or.inl rfl

/-- A tick only ends in an exception where `exists` does, before it counts
anything. -/
theorem tickCounted_eq_nil
    (h : handleExpire index calls now stored status = none) :
    tickCounted index calls now stored status = [] := by
  rw [handleExpire] at h
  by_cases hexists : calls.existsReturns = true
  · rw [if_neg (by rw [hexists]; decide)] at h
    rcases hfrom : updatedFrom calls status with - | start
    · rw [hfrom] at h
      cases h
    · simp only [hfrom] at h
      rcases hexpire : expire index calls.expire stored start
          (now - maxRecordAge) with - | ⟨deleted, updatedTo, stored'⟩
      · rw [hexpire] at h
        cases h
      · rw [hexpire] at h
        simp only at h
        split_ifs at h
  · rw [tickCounted, Bool.not_eq_true _ |>.mp hexists, Bool.false_and,
      if_neg Bool.false_ne_true]

theorem nodup_tickCounted :
    ((tickCounted index calls now stored status).map Prod.fst).Nodup := by
  rcases tickCounted_cases index calls now stored status with
    hnone | ⟨start, -, hcounted⟩
  · rw [hnone]
    exact List.nodup_nil
  · rw [hcounted]
    exact nodup_counted

/-- What a tick counts is stored and was reported at most once. -/
theorem mem_tickCounted {p : Hash × Record}
    (h : p ∈ tickCounted index calls now stored status) :
    stored.lookup p.1 = some p.2 ∧ p.2.reportedOnce = true ∧
      ∃ start, updatedFrom calls status = some start ∧
        start ≤ p.2.updated := by
  rcases tickCounted_cases index calls now stored status with
    hnone | ⟨start, hstart, hcounted⟩
  · rw [hnone] at h
    cases h
  · rw [hcounted] at h
    have hp := mem_counted h
    exact ⟨hp.1, hp.2.1, start, hstart, hp.2.2.1⟩

/-- A tick counts what it could count and is older than something it counts. -/
theorem mem_tickCounted_of_lt {last p : Hash × Record} {start : Uint32}
    (hlast : last ∈ tickCounted index calls now stored status)
    (hstart : updatedFrom calls status = some start)
    (hlookup : stored.lookup p.1 = some p.2)
    (honce : p.2.reportedOnce = true) (hfrom : start ≤ p.2.updated)
    (hlt : p.2.updated < last.2.updated) :
    p ∈ tickCounted index calls now stored status := by
  rcases tickCounted_cases index calls now stored status with
    hnone | ⟨start', hstart', hcounted⟩
  · rw [hnone] at hlast
    cases hlast
  · obtain rfl := Option.some.inj (hstart.symm.trans hstart')
    rw [hcounted] at hlast ⊢
    exact mem_counted_of_lt hlast hlookup honce hfrom hlt

end TickCounted

/-- What a tick that counts some records does to the two stores. -/
structure Ticked (calls : ExpireTickCalls) (stored : Database)
    (status : Option (List Byte)) (records : Dump) (tick : ExpireTick) :
    Prop where
  expired : Expired calls.expire stored tick.stored records
  wrote : tick.wrote =
    if calls.openWrite then
      records.getLast?.map fun last =>
        (wordBytes last.2.updated).take calls.writtenBytes
    else none
  status : tick.status = tick.wrote.or status

theorem Expired.nil (calls : ExpireCalls) (stored : Database) :
    Expired calls stored stored [] where
  gone _ hmem := absurd hmem (by simp [deletions])
  kept _ _ := rfl

/-- A tick that counts nothing leaves everything as it is. -/
theorem Ticked.idle (calls : ExpireTickCalls) (stored : Database)
    (status : Option (List Byte)) (scheduled : Option Uint32) :
    Ticked calls stored status []
      { stored, status, wrote := none, scheduled } where
  expired := Expired.nil calls.expire stored
  wrote := by
    split_ifs <;> rfl
  status := rfl

/-- After `expire` has returned, the file is written if something was counted
and it can be opened. -/
theorem handleExpire_of_returned {index : TimeIndex}
    {calls : ExpireTickCalls} {now : Uint32} {stored stored' : Database}
    {status : Option (List Byte)} {start deleted updatedTo : Uint32}
    (hexists : calls.existsReturns = true)
    (hstart : updatedFrom calls status = some start)
    (hexpire : expire index calls.expire stored start (now - maxRecordAge) =
      some (deleted, updatedTo, stored')) :
    ∃ wrote scheduled, handleExpire index calls now stored status =
        some { stored := stored', status := wrote.or status, wrote
               scheduled } ∧
      wrote = if deleted ≠ 0 ∧ calls.openWrite = true then
          some ((wordBytes updatedTo).take calls.writtenBytes)
        else none := by
  have hnot : ¬ (!calls.existsReturns) = true := by simp [hexists]
  rw [handleExpire, if_neg hnot, hstart]
  simp only [hexpire]
  by_cases hzero : deleted ≠ 0
  · rw [if_pos hzero]
    by_cases hopen : calls.openWrite = true
    · rw [if_neg (by simp [hopen])]
      exact ⟨_, _, rfl, (if_pos ⟨hzero, hopen⟩).symm⟩
    · rw [if_pos (by simp [hopen])]
      exact ⟨none, _, rfl, (if_neg fun hboth => hopen hboth.2).symm⟩
  · rw [if_neg hzero]
    exact ⟨none, _, rfl, (if_neg fun hboth => hzero hboth.1).symm⟩

/-- A tick does to the two stores what it should for the records it counts. -/
theorem handleExpire_eq_some {index : TimeIndex} {calls : ExpireTickCalls}
    {now : Uint32} {stored : Database} {status : Option (List Byte)}
    {tick : ExpireTick}
    (h : handleExpire index calls now stored status = some tick) :
    Ticked calls stored status (tickCounted index calls now stored status)
      tick := by
  have hexists : calls.existsReturns = true := by
    by_contra hnot
    rw [handleExpire, if_pos (by simpa using hnot)] at h
    cases h
  rcases hstart : updatedFrom calls status with - | start
  · have hrecords : tickCounted index calls now stored status = [] := by
      rw [tickCounted, hstart]
      split_ifs <;> rfl
    rw [handleExpire, if_neg (by simp [hexists]), hstart] at h
    rw [hrecords, ← Option.some.inj h]
    exact Ticked.idle calls stored status none
  · have hsome := isSome_expire index calls.expire stored start
      (now - maxRecordAge)
    rcases hexpire : expire index calls.expire stored start
        (now - maxRecordAge) with - | ⟨deleted, updatedTo, stored'⟩
    · rw [hexpire, Option.isSome_none] at hsome
      have hrecords : tickCounted index calls now stored status = [] := by
        rw [tickCounted, ← hsome, Bool.and_false, if_neg Bool.false_ne_true]
      rw [handleExpire, if_neg (by simp [hexists]), hstart] at h
      simp only [hexpire, Option.some.injEq] at h
      rw [hrecords, ← h]
      exact Ticked.idle calls stored status _
    · rw [hexpire, Option.isSome_some] at hsome
      have hrecords : tickCounted index calls now stored status =
          counted index calls.expire stored start (now - maxRecordAge) := by
        rw [tickCounted, ← hsome, hexists, Bool.and_true, if_pos rfl, hstart]
      obtain ⟨hdeleted, hlast, hexpired⟩ := expire_eq_some hexpire
      obtain ⟨wrote, scheduled, hreturned, hwrote⟩ :=
        handleExpire_of_returned hexists hstart hexpire
      rw [hreturned, Option.some.injEq] at h
      rw [← hrecords] at hdeleted hlast hexpired
      rw [← h]
      constructor
      · exact hexpired
      · rw [hwrote]
        rcases hend : (tickCounted index calls now stored status).getLast?
          with - | last
        · have hzero : deleted = 0 := by
            apply BitVec.eq_of_toNat_eq
            rw [hdeleted, List.getLast?_eq_none_iff.mp hend]
            rfl
          rw [if_neg fun hboth => hboth.1 hzero, Option.map_none, ite_self]
        · have hsomething : deleted ≠ 0 := by
            intro hzero
            rw [hzero] at hdeleted
            rw [List.eq_nil_of_length_eq_zero hdeleted.symm] at hend
            cases hend
          simp only [hsomething, ne_eq, not_false_eq_true, true_and,
            Option.map_some, hlast last hend]
      · rfl

end Master

end BohunoPyzord
