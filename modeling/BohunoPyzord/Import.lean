/-
Exported files, byte by byte.  The exporters write a header and a frame for
each record; the imports read frames until a read finds the end of the stream,
and put the records in transactions of a fixed number.
-/
import BohunoPyzord.InputStream
import BohunoPyzord.RecordFrames
import BohunoPyzord.ReplicaCatchUp

namespace BohunoPyzord

/-- The order in which a cursor on `db_` visits the entries. -/
structure PrimaryOrder where
  entries : Database → Dump
  perm : ∀ db, (entries db).Perm db.pairs

/-- The four bytes in front of the frames. -/
def dumpHeader : List Byte := wordBytes (htonl 2)

/-- A file with some records, before it is compressed. -/
def dumpStream (records : Dump) : List Byte :=
  dumpHeader ++ recordFraming.encodeAll records

/-- `database::dump` of pyzord-export: what it writes, and the number of
records. -/
def Database.dump (order : PrimaryOrder) (stored : Database) :
    List Byte × Nat :=
  let records := order.entries stored
  (dumpStream records, records.length)

/-- `database::dump_modified_records`. -/
def Database.dumpModified (order : PrimaryOrder) (stored : Database)
    (min max : Uint32) : List Byte × Nat :=
  let records := (order.entries stored).filter fun p =>
    min ≤ p.2.updated ∧ p.2.updated ≤ max
  (dumpStream records, records.length)

/-- `boost::iostreams`' gzip filters: what was compressed is decompressed to
the same. -/
structure GzipFilters where
  compress : List Byte → List Byte
  decompress : List Byte → InputStream Byte
  decompress_compress : ∀ bytes,
    decompress (compress bytes) = InputStream.opened bytes

/-- Which calls of one turn of an import succeed; for `callback` this means
that it does not throw. -/
structure ImportCalls where
  txnBegin : Bool
  put : Bool
  callback : Bool
  commit : Bool
deriving DecidableEq, Repr

def ImportCalls.succeed : ImportCalls :=
  { txnBegin := true, put := true, callback := true, commit := true }

/-- The exceptions of an import. -/
inductive ImportError where
  | cannotOpen
  | cannotCreateTransaction
  | cannotInsertRecord
  | callback
  | cannotCommitTransaction
  | cannotCommitFinalTransaction
deriving DecidableEq, Repr

/-- An import under way: what is committed, what the open transaction has put,
the count, and the stream. -/
structure ImportState where
  stored : Database
  txn : Option Dump
  n : Int
  input : InputStream Byte

/-- `n++` on an `int`; an overflow, which is undefined, wraps around. -/
def incrementInt (n : Int) : Int := (n + 1).bmod (2 ^ 32)

def importBatchSize : Int := 25000

/-- What a turn of the loop of `import` ends with: the next turn, the way out
to the final commit, or an exception. -/
inductive ImportTurn where
  | again (s : ImportState)
  | leave (s : ImportState)
  | throw (error : ImportError) (s : ImportState)

/-- One turn of the loop.  A transaction is over after its commit, whether it
succeeded or not. -/
def importTurn (calls : ImportCalls) (s : ImportState) : ImportTurn :=
  if s.input.eof then .leave s
  else if s.txn.isNone && !calls.txnBegin then
    .throw .cannotCreateTransaction s
  else
    let txn := s.txn.getD []
    let (hashBytes, input) := s.input.read 20
    if input.eof then .leave { s with txn := some txn, input }
    else
      let (recordBytes, input) := input.read 32
      if input.eof then .leave { s with txn := some txn, input }
      else if !calls.put then
        .throw .cannotInsertRecord { s with txn := some txn, input }
      else
        let txn := txn ++ [(Hash.ofBytes hashBytes, Record.ofBytes recordBytes)]
        let n := incrementInt s.n
        if n.tmod importBatchSize = 0 then
          if !calls.callback then
            .throw .callback { s with txn := some txn, n, input }
          else if !calls.commit then
            .throw .cannotCommitTransaction { s with txn := none, n, input }
          else
            .again { stored := s.stored.importDump txn, txn := none, n, input }
        else .again { s with txn := some txn, n, input }

/-- What follows the loop: the transaction is committed if one is open. -/
def finishImport (calls : ImportCalls) (s : ImportState) :
    Except ImportError Int × ImportState :=
  match s.txn with
  | some txn =>
      if !calls.callback then (.error .callback, s)
      else if !calls.commit then
        (.error .cannotCommitFinalTransaction, { s with txn := none })
      else (.ok s.n, { s with stored := s.stored.importDump txn, txn := none })
  | none => (.ok s.n, s)

/-- The loop, in at most `fuel` turns, with the calls of each. -/
def importLoop (calls : Nat → ImportCalls) :
    Nat → ImportState → Option (Except ImportError Int × ImportState)
  | 0, _ => none
  | fuel + 1, s =>
      match importTurn (calls 0) s with
      | .again s => importLoop (fun turn => calls (turn + 1)) fuel s
      | .leave s => some (finishImport (calls 0) s)
      | .throw error s => some (.error error, s)

/-- `bohuno::database::import`. -/
def Database.importStream (calls : Nat → ImportCalls) (fuel : Nat)
    (stored : Database) (input : InputStream Byte) :
    Option (Except ImportError Int × ImportState) :=
  let (_, input) := input.read 4
  importLoop calls fuel { stored, txn := none, n := 0, input }

/-- `import` of pyzord-import, given the contents of the file if it could be
opened.  It prints its progress, and returns the count as a `size_t`. -/
def Database.importFile (gunzip : List Byte → InputStream Byte)
    (calls : Nat → ImportCalls) (fuel : Nat) (stored : Database)
    (file : Option (List Byte)) :
    Option (Except ImportError Nat × ImportState) :=
  match file with
  | none => some (.error .cannotOpen,
      { stored, txn := none, n := 0, input := InputStream.opened [] })
  | some content =>
      let silent := fun turn => { calls turn with callback := true }
      (stored.importStream silent fuel (gunzip content)).map fun ended =>
        (ended.1.map fun n => (n % 2 ^ 64).toNat, ended.2)

/-- What is stored once the open transaction is committed. -/
def ImportState.written (s : ImportState) : Database :=
  s.stored.importDump (s.txn.getD [])

/-- A turn that finds a whole frame puts its record, in whichever
transaction. -/
theorem importTurn_frame {s : ImportState} {p : Hash × Record}
    {rest : List Byte}
    (hinput : s.input = InputStream.opened (recordFraming.encode p ++ rest)) :
    ∃ s', importTurn .succeed s = .again s' ∧
      s'.input = InputStream.opened rest ∧ s'.n = incrementInt s.n ∧
      s'.written = s.written.insert p.1 p.2 := by
  have hhash : s.input.read 20 =
      (p.1.bytes, InputStream.opened (p.2.bytes ++ rest)) := by
    rw [hinput]
    have hsplit : recordFraming.encode p ++ rest =
        p.1.bytes ++ (p.2.bytes ++ rest) := List.append_assoc _ _ _
    rw [hsplit]
    exact InputStream.read_opened_append p.1.length_bytes
  have hrecord : (InputStream.opened (p.2.bytes ++ rest)).read 32 =
      (p.2.bytes, InputStream.opened rest) :=
    InputStream.read_opened_append p.2.length_bytes
  have heof : s.input.eof = false := by
    rw [hinput, InputStream.eof_opened]
  have hput := s.stored.importDump_append (s.txn.getD []) [p]
  have hturn : importTurn .succeed s = .again
      (if (incrementInt s.n).tmod importBatchSize = 0 then
        { stored := s.stored.importDump (s.txn.getD [] ++ [p]), txn := none
          n := incrementInt s.n, input := InputStream.opened rest }
      else
        { s with
          txn := some (s.txn.getD [] ++ [p]), n := incrementInt s.n
          input := InputStream.opened rest }) := by
    rw [importTurn]
    simp only [heof, hhash, hrecord, InputStream.eof_opened,
      ImportCalls.succeed, Bool.not_true, Bool.and_false, Bool.false_eq_true, ↓reduceIte,
      Hash.ofBytes_bytes, Record.ofBytes_bytes]
    split_ifs <;> rfl
  refine ⟨_, hturn, ?_⟩
  split_ifs with hbatch
  · exact ⟨rfl, rfl, hput⟩
  · exact ⟨rfl, rfl, hput⟩

/-- The turn that finds the end of the stream leaves the loop in a
transaction. -/
theorem importTurn_end {s : ImportState}
    (hinput : s.input = InputStream.opened []) :
    ∃ s', importTurn .succeed s = .leave s' ∧ s'.n = s.n ∧
      s'.txn.isSome = true ∧ s'.written = s.written := by
  have hhash : s.input.read 20 = ([], ⟨[], false, true, true⟩) := by
    rw [hinput]
    exact InputStream.read_opened_short (by decide)
  have heof : s.input.eof = false := by
    rw [hinput, InputStream.eof_opened]
  refine ⟨{ s with
    txn := some (s.txn.getD []), input := ⟨[], false, true, true⟩ }, ?_, rfl,
    rfl, rfl⟩
  rw [importTurn]
  simp only [heof, hhash, ImportCalls.succeed, Bool.not_true, Bool.and_false,
    Bool.false_eq_true, ↓reduceIte]

theorem finishImport_succeed (s : ImportState) :
    (finishImport .succeed s).1 = .ok s.n ∧
      (finishImport .succeed s).2.txn = none ∧
      (finishImport .succeed s).2.stored = s.written := by
  rcases s with ⟨stored, _ | txn, n, input⟩
  · exact ⟨rfl, rfl, rfl⟩
  · exact ⟨rfl, rfl, rfl⟩

/-- The count after some more records. -/
theorem incrementInt_bmod (n : Int) (k : Nat) :
    (incrementInt n + k).bmod (2 ^ 32) =
      (n + (k + 1 : Nat)).bmod (2 ^ 32) := by
  rw [incrementInt, Int.bmod_add_bmod]
  congr 1
  push_cast
  omega

/-- A stream of whole frames is imported to its end, with all calls
succeeding: its records are stored, and counted. -/
theorem importLoop_frames (records : Dump) {s : ImportState} {fuel : Nat}
    (hfuel : records.length < fuel) (hcount : s.n = s.n.bmod (2 ^ 32))
    (hinput : s.input =
      InputStream.opened (recordFraming.encodeAll records)) :
    ∃ s', importLoop (fun _ => .succeed) fuel s =
        some (.ok ((s.n + records.length).bmod (2 ^ 32)), s') ∧
      s'.txn = none ∧ s'.stored = s.written.importDump records := by
  induction records generalizing s fuel with
  | nil =>
      obtain ⟨fuel, rfl⟩ := Nat.exists_eq_succ_of_ne_zero (by omega :
        fuel ≠ 0)
      obtain ⟨left, hturn, hn, -, hwritten⟩ := importTurn_end hinput
      obtain ⟨hok, hclosed, hstored⟩ := finishImport_succeed left
      rw [importLoop, hturn]
      refine ⟨(finishImport .succeed left).2, ?_, hclosed, ?_⟩
      · simp only [List.length_nil, Nat.cast_zero, Int.add_zero]
        rw [← hcount, ← hn, ← hok]
      · rw [hstored, hwritten]
        rfl
  | cons p records ih =>
      obtain ⟨fuel, rfl⟩ := Nat.exists_eq_succ_of_ne_zero (by omega :
        fuel ≠ 0)
      rw [Framing.encodeAll_cons] at hinput
      obtain ⟨s', hturn, hinput', hn, hwritten⟩ := importTurn_frame hinput
      have hfuel' : records.length < fuel := by
        rw [List.length_cons] at hfuel
        omega
      have hcount' : s'.n = s'.n.bmod (2 ^ 32) := by
        rw [hn, incrementInt, Int.bmod_bmod]
      obtain ⟨ended, hloop, hclosed, hstored⟩ := ih hfuel' hcount' hinput'
      refine ⟨ended, ?_, hclosed, ?_⟩
      · rw [importLoop, hturn]
        simp only [hloop, hn, incrementInt_bmod, List.length_cons]
      · rw [hstored, hwritten]
        rfl

/-- An exported stream is imported whole. -/
theorem importStream_dumpStream (records : Dump) (db : Database) (fuel : Nat)
    (hfuel : records.length < fuel) :
    ∃ s, db.importStream (fun _ => .succeed) fuel
        (InputStream.opened (dumpStream records)) =
          some (.ok ((records.length : Int).bmod (2 ^ 32)), s) ∧
      s.txn = none ∧ s.stored = db.importDump records := by
  have hheader : (InputStream.opened (dumpStream records)).read 4 =
      (dumpHeader, InputStream.opened (recordFraming.encodeAll records)) :=
    InputStream.read_opened_append rfl
  obtain ⟨s, hloop, hclosed, hstored⟩ := importLoop_frames records
    (s := { stored := db, txn := none, n := 0
            input := InputStream.opened (recordFraming.encodeAll records) })
    hfuel rfl rfl
  rw [Int.zero_add] at hloop
  exact ⟨s, by rw [Database.importStream, hheader]; exact hloop, hclosed,
    hstored⟩

theorem importFile_dumpStream (gzip : GzipFilters) (records : Dump)
    (db : Database) (fuel : Nat) (hfuel : records.length < fuel) :
    ∃ s, db.importFile gzip.decompress (fun _ => .succeed) fuel
        (some (gzip.compress (dumpStream records))) =
          some (.ok ((records.length : Int).bmod (2 ^ 32) % 2 ^ 64).toNat,
            s) ∧
      s.txn = none ∧ s.stored = db.importDump records := by
  obtain ⟨s, himport, hclosed, hstored⟩ :=
    importStream_dumpStream records db fuel hfuel
  refine ⟨s, ?_, hclosed, hstored⟩
  rw [Database.importFile]
  simp only [gzip.decompress_compress]
  change Option.map _ (db.importStream (fun _ => .succeed) fuel _) = _
  rw [himport]
  rfl

/-- The entries of a database, in any order, imported into an empty one. -/
theorem lookup_importDump_pairs {stored : Database} {records : Dump}
    (h : records.Perm stored.pairs) (hash : Hash) :
    (Database.importDump ∅ records).lookup hash = stored.lookup hash := by
  rw [lookup_importDump, AList.lookup_empty, Option.or_none]
  cases hcopy : lastCopy records hash with
  | some r =>
      have hmem := h.mem_iff.mp (mem_of_lastCopy hcopy)
      exact (Database.mem_pairs.mp hmem).symm
  | none =>
      apply Eq.symm
      apply Option.eq_none_iff_forall_ne_some.mpr
      intro r hlookup
      have hmem := h.mem_iff.mpr (Database.mem_pairs.mpr hlookup)
      exact lastCopy_eq_none.mp hcopy r hmem

/-- All records are modified between the smallest and the greatest time. -/
theorem dumpModified_all (order : PrimaryOrder) (stored : Database) :
    stored.dumpModified order 0 0xffffffff = stored.dump order := by
  have hall : (order.entries stored).filter (fun p =>
      (0 : Uint32) ≤ p.2.updated ∧ p.2.updated ≤ 0xffffffff) =
        order.entries stored := by
    apply List.filter_eq_self.mpr
    intro p _
    have hmax := p.2.updated.isLt
    simp only [decide_eq_true_eq]
    constructor
    · bv_omega
    · bv_omega
  rw [Database.dumpModified, hall, Database.dump]

/-- What is written for a window is the window, in the order of the cursor. -/
theorem dumpModified_window (order : PrimaryOrder) (stored : Database)
    (min max : Uint32) :
    ∃ records : Dump, records.Perm (stored.window min.toNat max.toNat) ∧
      stored.dumpModified order min max =
        (dumpStream records, records.length) := by
  refine ⟨_, ?_, rfl⟩
  exact (order.perm stored).filter _

/-- A database of fewer than 2³¹ records is the same after an export and an
import, and its records are counted. -/
theorem import_dump (gzip : GzipFilters) (order : PrimaryOrder)
    (stored : Database) (hcount : stored.pairs.length < 2 ^ 31) (fuel : Nat)
    (hfuel : stored.pairs.length < fuel) (file : List Byte)
    (hfile : file = (stored.dump order).1 ∨
      file = (stored.dumpModified order 0 0xffffffff).1) :
    (∃ s, Database.importStream (fun _ => .succeed) fuel ∅
        (gzip.decompress (gzip.compress file)) =
          some (.ok stored.pairs.length, s) ∧
      s.txn = none ∧ ∀ h, s.stored.lookup h = stored.lookup h) ∧
    ∃ s, Database.importFile gzip.decompress (fun _ => .succeed) fuel ∅
        (some (gzip.compress file)) = some (.ok stored.pairs.length, s) ∧
      s.txn = none ∧ ∀ h, s.stored.lookup h = stored.lookup h := by
  have hperm := order.perm stored
  have hdump : file = dumpStream (order.entries stored) := by
    rw [dumpModified_all, or_self] at hfile
    exact hfile
  rw [← hperm.length_eq] at hcount hfuel ⊢
  have hint : ((order.entries stored).length : Int).bmod (2 ^ 32) =
      (order.entries stored).length :=
    Int.bmod_eq_of_le (by omega) (by omega)
  rw [hdump]
  constructor
  · obtain ⟨s, himport, hclosed, hstored⟩ :=
      importStream_dumpStream (order.entries stored) ∅ fuel hfuel
    refine ⟨s, ?_, hclosed, ?_⟩
    · rw [gzip.decompress_compress, himport, hint]
    · intro h
      rw [hstored, lookup_importDump_pairs hperm]
  · obtain ⟨s, himport, hclosed, hstored⟩ :=
      importFile_dumpStream gzip (order.entries stored) ∅ fuel hfuel
    refine ⟨s, ?_, hclosed, ?_⟩
    · have hsize : (((order.entries stored).length : Int) % 2 ^ 64).toNat =
          (order.entries stored).length := by
        rw [Int.emod_eq_of_lt (by omega) (by omega), Int.toNat_natCast]
      rw [himport, hint, hsize]
    · intro h
      rw [hstored, lookup_importDump_pairs hperm]

/-- Filters that do nothing. -/
def GzipFilters.stored : GzipFilters where
  compress bytes := bytes
  decompress := InputStream.opened
  decompress_compress _ := rfl

def PrimaryOrder.entered : PrimaryOrder where
  entries := Database.pairs
  perm _ := List.Perm.refl _

/-- A database with two records comes back. -/
theorem import_dump_two :
    let stored : Database :=
      (AList.insert ⟨Vector.replicate 20 1⟩ (Record.zero.report 7 7)
        (AList.insert ⟨Vector.replicate 20 2⟩ (Record.zero.report 9 9) ∅))
    ∃ s, Database.importStream (fun _ => .succeed) 3 ∅
        (GzipFilters.stored.decompress (GzipFilters.stored.compress
          (stored.dump PrimaryOrder.entered).1)) = some (.ok 2, s) ∧
      s.txn = none ∧ ∀ h, s.stored.lookup h = stored.lookup h :=
  (import_dump GzipFilters.stored PrimaryOrder.entered _ (by decide) 3
    (by decide) _ (Or.inl rfl)).1

/-- There are databases of any size up to 2³² records. -/
theorem exists_database {n : Nat} (hn : n ≤ 2 ^ 32) :
    ∃ stored : Database, stored.pairs.length = n := by
  have hword : ∀ w : Uint32, wordAt (Hash.ofBytes (wordBytes w)).bytes 0 =
      w := by
    intro w
    simp [wordAt, Hash.bytes, Hash.ofBytes, wordBytes]
  have hinj : ∀ i ∈ List.range n, ∀ j ∈ List.range n,
      Hash.ofBytes (wordBytes (BitVec.ofNat 32 i)) =
        Hash.ofBytes (wordBytes (BitVec.ofNat 32 j)) → i = j := by
    intro i hi j hj heq
    have hi' := List.mem_range.mp hi
    have hj' := List.mem_range.mp hj
    have hsame := congrArg (fun h : Hash => wordAt h.bytes 0) heq
    simp only [hword] at hsame
    have hnat := congrArg BitVec.toNat hsame
    simp only [BitVec.toNat_ofNat] at hnat
    omega
  have hkeys := List.Nodup.map_on hinj List.nodup_range
  refine ⟨⟨(List.range n).map fun i =>
    ⟨Hash.ofBytes (wordBytes (BitVec.ofNat 32 i)), Record.zero⟩, ?_⟩, ?_⟩
  · rw [List.NodupKeys, List.keys, List.map_map]
    exact hkeys
  · rw [Database.pairs, List.length_map, List.length_map, List.length_range]

/-- With 2³¹ records the count overflows. -/
theorem import_not_always_dump :
    ¬ ∀ (gzip : GzipFilters) (order : PrimaryOrder) (stored : Database)
      (fuel : Nat), stored.pairs.length < fuel →
        ∃ s, Database.importStream (fun _ => .succeed) fuel ∅
            (gzip.decompress (gzip.compress (stored.dump order).1)) =
              some (.ok stored.pairs.length, s) ∧
          s.txn = none ∧ ∀ h, s.stored.lookup h = stored.lookup h := by
  intro h
  obtain ⟨stored, hsize⟩ := exists_database (n := 2 ^ 31) (by decide)
  obtain ⟨s, himport, -, -⟩ := h GzipFilters.stored PrimaryOrder.entered
    stored (2 ^ 31 + 1) (by omega)
  obtain ⟨s', himport', -, -⟩ := importStream_dumpStream
    stored.pairs ∅ (2 ^ 31 + 1) (by omega)
  rw [GzipFilters.decompress_compress] at himport
  have hresult := himport.symm.trans himport'
  simp only [Option.some.injEq, Prod.mk.injEq, Except.ok.injEq, hsize]
    at hresult
  exact absurd hresult.1 (by decide)

end BohunoPyzord
