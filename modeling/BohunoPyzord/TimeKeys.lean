/-
The keys of the index: as many bytes of a record from `updated_` on as a
`time_t` has.  Compared byte by byte they are ordered by `updated()`, so a
cursor that is positioned with the four bytes of a time visits the records from
that time on.
-/
import BohunoPyzord.LexKeys
import BohunoPyzord.RecordFrames
import BohunoPyzord.Replica

namespace BohunoPyzord

/-- What a `time_t` is. -/
inductive TimeT where
  | int32
  | int64
deriving DecidableEq, Repr

def TimeT.sizeof : TimeT → Nat
  | .int32 => 4
  | .int64 => 8

/-- `create_time_key`: it points into the record. -/
def createTimeKey (t : TimeT) (r : Record) : List Byte :=
  (r.bytes.drop 4).take t.sizeof

/-- The key that a cursor is positioned with. -/
def searchKey (min : Uint32) : List Byte := wordBytes (htonl min)

/-- A key as the B-tree compares it, in unsigned bytes. -/
def collate (key : List Byte) : List Nat := key.map BitVec.toNat

/-- The key of an entry of the index. -/
def timeKey (t : TimeT) (p : Hash × Record) : List Nat :=
  collate (createTimeKey t p.2)

/-- The order in which a cursor visits the entries if the keys are compared so;
the order of entries with one key is left open. -/
structure KeyIndex (t : TimeT) where
  entries : Database → Dump
  perm : ∀ db, (entries db).Perm db.pairs
  ordered : ∀ db, OrderedScan.Ordered (timeKey t) (entries db)

/-- From where `DB_SET_RANGE` positions the cursor for `min` on. -/
def KeyIndex.entriesFrom {t : TimeT} (index : KeyIndex t) (stored : Database)
    (min : Uint32) : Dump :=
  OrderedScan.startingAt (timeKey t) (collate (searchKey min))
    (index.entries stored)

/-- One that keeps the order of entries with one key. -/
def KeyIndex.stable (t : TimeT) : KeyIndex t where
  entries db := db.pairs.insertionSort fun p q => timeKey t p ≤ timeKey t q
  perm _ := List.perm_insertionSort _ _
  ordered db := by
    have : Std.Total fun p q : Hash × Record => timeKey t p ≤ timeKey t q :=
      ⟨fun _ _ => le_total _ _⟩
    have : IsTrans (Hash × Record) fun p q => timeKey t p ≤ timeKey t q :=
      ⟨fun _ _ _ => le_trans⟩
    exact List.pairwise_insertionSort _ db.pairs

/-! A word in network order. -/

theorem lt_of_mem_collate {key : List Byte} : ∀ d ∈ collate key, d < 256 := by
  intro d hd
  obtain ⟨byte, -, rfl⟩ := List.mem_map.mp hd
  exact byte.isLt

theorem value_collate_wordBytes (v : Uint32) :
    LexKeys.value 256 (collate (wordBytes v)) = (ntohl v).toNat := by
  rw [ntohl, htonl, wordOfBytes_toNat]
  simp only [collate, wordBytes, List.map_cons, List.map_nil, LexKeys.value,
    List.length_cons, List.length_nil]
  omega

theorem collate_wordBytes_lt_iff (v w : Uint32) :
    collate (wordBytes v) < collate (wordBytes w) ↔ ntohl v < ntohl w := by
  have hlength : (collate (wordBytes v)).length =
      (collate (wordBytes w)).length := rfl
  rw [LexKeys.lt_iff_value_lt lt_of_mem_collate lt_of_mem_collate hlength,
    value_collate_wordBytes, value_collate_wordBytes, BitVec.lt_def]

theorem collate_wordBytes_inj (v w : Uint32) :
    collate (wordBytes v) = collate (wordBytes w) ↔ ntohl v = ntohl w := by
  constructor
  · intro h
    apply BitVec.eq_of_toNat_eq
    rw [← value_collate_wordBytes, h, value_collate_wordBytes]
  · intro h
    rw [← htonl_ntohl v, h, htonl_ntohl]

/-- A key is `updated_`, and the next field where there is room for it. -/
theorem timeKey_eq (t : TimeT) (p : Hash × Record) :
    timeKey t p = collate (wordBytes p.2.updated_) ++
      if t = .int64 then collate (wordBytes p.2.report_count_) else [] := by
  cases t <;> rfl

/-- Keys are ordered by `updated()`, and then, where they are long enough, by
the reports. -/
theorem timeKey_lt_iff (t : TimeT) (p q : Hash × Record) :
    timeKey t p < timeKey t q ↔
      p.2.updated < q.2.updated ∨ p.2.updated = q.2.updated ∧ t = .int64 ∧
        p.2.count .report < q.2.count .report := by
  have hlength : (collate (wordBytes p.2.updated_)).length =
      (collate (wordBytes q.2.updated_)).length := rfl
  rw [timeKey_eq, timeKey_eq, LexKeys.append_lt_append_iff hlength,
    collate_wordBytes_lt_iff, collate_wordBytes_inj]
  have hrest : ((if t = .int64 then collate (wordBytes p.2.report_count_)
      else []) < if t = .int64 then collate (wordBytes q.2.report_count_)
      else []) ↔ t = .int64 ∧ p.2.count .report < q.2.count .report := by
    cases t with
    | int32 => simp
    | int64 =>
        simp only [↓reduceIte, true_and]
        exact collate_wordBytes_lt_iff _ _
  rw [hrest]
  rfl

/-- The four bytes of a time come before the key of a record of that time. -/
theorem timeKey_lt_searchKey_iff (t : TimeT) (p : Hash × Record)
    (min : Uint32) :
    timeKey t p < collate (searchKey min) ↔ p.2.updated < min := by
  have hlength : (collate (wordBytes p.2.updated_)).length =
      (collate (wordBytes (htonl min))).length := rfl
  have happend := LexKeys.append_lt_append_iff hlength
    (if t = .int64 then collate (wordBytes p.2.report_count_) else []) []
  rw [List.append_nil, ← timeKey_eq, collate_wordBytes_lt_iff,
    ntohl_htonl] at happend
  rw [searchKey, happend]
  exact or_iff_left fun h => List.not_lt_nil _ h.2

theorem stamp_le_of_timeKey_le {t : TimeT} {p q : Hash × Record}
    (h : timeKey t p ≤ timeKey t q) : stamp p ≤ stamp q := by
  apply Nat.le_of_not_lt
  intro hlt
  exact not_lt.mpr h ((timeKey_lt_iff t q p).mpr (Or.inl hlt))

namespace KeyIndex

variable {t : TimeT} (index : KeyIndex t)

theorem ordered_stamp (db : Database) :
    OrderedScan.Ordered stamp (index.entries db) :=
  (index.ordered db).imp stamp_le_of_timeKey_le

/-- The index as the programs rely on it. -/
def toTimeIndex : TimeIndex where
  entries := index.entries
  perm := index.perm
  ordered := index.ordered_stamp

theorem entriesFrom_eq (db : Database) (min : Uint32) :
    index.entriesFrom db min =
      index.toTimeIndex.entriesFrom db min.toNat := by
  apply congrArg fun test => (index.entries db).dropWhile test
  funext p
  rw [decide_eq_decide, timeKey_lt_searchKey_iff]
  exact BitVec.lt_def

/-- A cursor visits the entries from the time on, in the order of the index. -/
theorem entriesFrom_eq_filter (db : Database) (min : Uint32) :
    index.entriesFrom db min =
      (index.entries db).filter fun p => min ≤ p.2.updated := by
  rw [index.entriesFrom_eq, TimeIndex.entriesFrom,
    (index.toTimeIndex.ordered db).startingAt_eq_filter]
  rfl

end KeyIndex

/-- A cursor positioned for `min` visits the records with `updated() >= min`,
each once and none before one that was updated earlier; the record behind the
last key, which `lookup_last` returns, has the largest `updated()`; and the
keys are ordered by it. -/
theorem keyIndex_scan (t : TimeT) (index : KeyIndex t) (db : Database)
    (min : Uint32) :
    (∀ p q, timeKey t p < timeKey t q ↔
      p.2.updated < q.2.updated ∨ p.2.updated = q.2.updated ∧ t = .int64 ∧
        p.2.count .report < q.2.count .report) ∧
    (index.entriesFrom db min).Perm
      (db.pairs.filter fun p => min ≤ p.2.updated) ∧
    (index.entriesFrom db min).Pairwise
      (fun p q => p.2.updated ≤ q.2.updated) ∧
    db.lookupLast index.toTimeIndex =
      (index.entries db).getLast?.map Prod.snd ∧
    ∀ p ∈ db.pairs, ∃ last, db.lookupLast index.toTimeIndex = some last ∧
      p.2.updated ≤ last.updated := by
  have hfilter := index.entriesFrom_eq_filter db min
  refine ⟨timeKey_lt_iff t, ?_, ?_, rfl, ?_⟩
  · rw [hfilter]
    exact (index.perm db).filter _
  · rw [hfilter]
    exact List.Pairwise.sublist List.filter_sublist (index.ordered_stamp db)
  · intro p hp
    obtain ⟨last, hlast, hle⟩ := (index.ordered_stamp db).le_getLast
      ((index.perm db).mem_iff.mpr hp)
    refine ⟨last.2, ?_, hle⟩
    rw [Database.lookupLast]
    exact congrArg (Option.map Prod.snd) hlast

end BohunoPyzord
