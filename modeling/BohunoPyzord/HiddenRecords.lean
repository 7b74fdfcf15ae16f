/-
Two rules for old records with one report.  The server does not show a record
that was entered three months ago, and the master deletes one that was updated
three months ago.  After an erase, or a whitelist, a record that is old by the
one may be new by the other.
-/
import BohunoPyzord.ExpireBatch
import BohunoPyzord.MasterReference
import BohunoPyzord.UdpServer

namespace BohunoPyzord

/-- The time that a report or a whitelist is counted with. -/
def Processed.effective (p : Processed) : Uint32 :=
  Record.effectiveTime p.time p.now

/-- The first of some times that is not zero. -/
def firstNonzero (times : List Uint32) : Uint32 :=
  (times.find? (· ≠ 0)).getD 0

theorem firstNonzero_append (times : List Uint32) (t : Uint32) :
    firstNonzero (times ++ [t]) = keepFirst (firstNonzero times) t := by
  rw [firstNonzero, firstNonzero, List.find?_append]
  cases hfirst : times.find? (· ≠ 0) with
  | some first =>
      have hne : first ≠ 0 := by simpa using List.find?_some hfirst
      exact (keepFirst_of_ne hne t).symm
  | none =>
      by_cases ht : t = 0
      · rw [ht]
        rfl
      · rw [List.find?_cons_of_pos (by simpa using ht)]
        rfl

section History

variable (log : List Processed)

/-- The first non-zero time of a report or a whitelist of a hash, ever. -/
def firstEntered : Uint32 :=
  firstNonzero ((counted log).map Processed.effective)

/-- The latest time of a report or a whitelist since the last erase, or of
this. -/
def lastTouched : Uint32 :=
  latestTime ((lastErase log).elim 0 Processed.now)
    ((counted (sinceErase log)).map Processed.effective)

/-- What a log of the updates of one hash leaves in the fields that the two
rules read. -/
structure Leaves (r : Record) : Prop where
  entered : r.entered = firstEntered log
  updated : r.updated = lastTouched log
  reports : r.count .report =
    BitVec.ofNat 32 (ofTally (sinceErase log) .report).length

end History

namespace Leaves

variable {log : List Processed} {r : Record}

theorem zero : Leaves [] Record.zero := ⟨rfl, rfl, rfl⟩

theorem bump (h : Leaves log r) {p : Processed} {tally : Tally}
    (htype : p.update.type = some tally.updateType) :
    Leaves (log ++ [p]) (r.bump tally p.time p.now) := by
  have herase : p.isType .erase = false := by
    cases tally <;> simp [Processed.isType, htype, Tally.updateType]
  have hcounted : p.isCounted = true := by
    cases tally <;>
      simp [Processed.isCounted, Processed.isType, htype, Tally.updateType]
  constructor
  · rw [Record.entered_bump_effective, h.entered, firstEntered, firstEntered,
      counted_append, if_pos hcounted, List.map_append, List.map_singleton,
      firstNonzero_append]
    rfl
  · rw [Record.updated_bump_effective, h.updated, lastTouched, lastTouched,
      sinceErase_append log herase, counted_append, if_pos hcounted,
      lastErase_append, if_neg (by simp [herase]), List.map_append,
      List.map_singleton, latestTime_append]
    rfl
  · rw [Record.count_bump, sinceErase_append log herase,
      ofTally_append]
    cases tally with
    | report =>
        have hreport : p.isType Tally.report.updateType = true := by
          simp [Processed.isType, htype]
        rw [Function.update_self, h.reports, if_pos hreport,
          List.length_append, List.length_singleton, BitVec.ofNat_add]
        rfl
    | whitelist =>
        have hother : ¬ p.isType Tally.report.updateType = true := by
          simp [Processed.isType, htype, Tally.updateType]
        rw [Function.update_of_ne (by decide), h.reports, if_neg hother,
          List.append_nil]

theorem reset (h : Leaves log r) {p : Processed}
    (htype : p.update.type = some .erase) :
    Leaves (log ++ [p]) (r.reset 0 p.now) := by
  have herase : p.isType .erase = true := by simp [Processed.isType, htype]
  have hcounted : ¬ p.isCounted = true := by
    simp [Processed.isCounted, Processed.isType, htype]
  constructor
  · rw [Record.entered_reset, h.entered, firstEntered, firstEntered,
      counted_append, if_neg hcounted, List.append_nil]
  · rw [Record.updated_reset, if_pos rfl, lastTouched,
      sinceErase_append_erase log herase, lastErase_append, if_pos herase]
    rfl
  · rw [Record.count_reset, sinceErase_append_erase log herase]
    rfl

theorem unknown (h : Leaves log r) {p : Processed}
    (htype : p.update.type = none) : Leaves (log ++ [p]) r := by
  have hnot : ∀ type, p.isType type = false := by
    intro type
    simp [Processed.isType, htype]
  have hcounted : ¬ p.isCounted = true := by
    simp [Processed.isCounted, hnot]
  have hsince := sinceErase_append log (hnot .erase)
  constructor
  · rw [h.entered, firstEntered, firstEntered, counted_append,
      if_neg hcounted, List.append_nil]
  · rw [h.updated, lastTouched, lastTouched, hsince, counted_append,
      if_neg hcounted, List.append_nil, lastErase_append,
      if_neg (by simp [hnot])]
  · rw [h.reports, hsince, ofTally_append, if_neg (by simp [hnot]),
      List.append_nil]

/-- One more update keeps the record in step with the log. -/
theorem stepValue {value : Option Record}
    (h : Leaves log (value.getD Record.zero)) (p : Processed) :
    Leaves (log ++ [p])
      ((KeyedFold.stepValue Processed.rewritten value p).getD Record.zero) := by
  rw [KeyedFold.stepValue, Processed.rewritten]
  cases htype : p.update.type with
  | none => exact h.unknown htype
  | some type =>
      cases type with
      | report => exact @bump _ _ h p .report htype
      | whitelist => exact @bump _ _ h p .whitelist htype
      | erase => exact h.reset htype

end Leaves

theorem leaves_foldl (log : List Processed) :
    Leaves log ((log.foldl (KeyedFold.stepValue Processed.rewritten)
      none).getD Record.zero) := by
  induction log using List.reverseRecOn with
  | nil => exact Leaves.zero
  | append_singleton log p ih =>
      rw [List.foldl_append]
      exact ih.stepValue p

/-- The answer to a check of a record that is not reset is that of no
record. -/
def Hides (s : ServerState) (stored : Database) (now : Readings) (hash : Hash)
    (res : Packet) : Prop :=
  (stored.get hash.hex).1 = true ∧
    let reply := (s.check stored now hash.hex res).2
    reply.get "Count".toList = decimal 0 ∧
      reply.get "WL-Count".toList = decimal 0

theorem decimal_eq_zero {n : Nat} : decimal n = decimal 0 ↔ n = 0 :=
  decimal_injective.eq_iff

theorem get_setCounts (res : Packet) (count whitelistCount : Nat) :
    (res.setCounts count whitelistCount).get "Count".toList = decimal count ∧
      (res.setCounts count whitelistCount).get "WL-Count".toList =
        decimal whitelistCount := by
  have hne : "Count".toList ≠ "WL-Count".toList := by decide
  constructor
  · rw [Packet.setCounts, Packet.get_set, if_neg hne, Packet.get_set,
      if_pos rfl]
  · rw [Packet.setCounts, Packet.get_set, if_pos rfl]

/-- Hidden are the records with one report that were entered long ago. -/
theorem hides_iff (s : ServerState) (stored : Database) (now : Readings)
    (hash : Hash) (res : Packet) :
    Hides s stored now hash res ↔
      ∃ r, stored.lookup hash = some r ∧ r.count .report = 1 ∧
        (now 2 : Int) - r.entered.toNat > ServerState.recordAge := by
  rw [Hides, ServerState.check, Database.get, decodeSignature_hex]
  cases hlookup : stored.lookup hash with
  | none => simp [hlookup]
  | some r =>
      have hzero := get_setCounts res 0 0
      simp only [hlookup, Option.some.injEq, exists_eq_left']
      by_cases hreset : r.count .report = 0 ∧ r.count .whitelist = 0
      · simp [hreset]
      · rw [if_neg hreset]
        by_cases hold : r.count .report = 1 ∧
            (now 2 : Int) - r.entered.toNat > ServerState.recordAge
        · simp only [hold, and_self, if_true, hzero]
        · have hcounts := get_setCounts (res.setCounts 0 0)
            (r.count .report).toNat (r.count .whitelist).toNat
          simp only [hold, if_true, if_false, hcounts, decimal_eq_zero,
            true_and, iff_false]
          rintro ⟨hreports, hwhitelists⟩
          exact hreset ⟨BitVec.eq_of_toNat_eq hreports,
            BitVec.eq_of_toNat_eq hwhitelists⟩

theorem latestTime_lt_iff {start bound : Uint32} {times : List Uint32} :
    latestTime start times < bound ↔
      start < bound ∧ ∀ t ∈ times, t < bound := by
  induction times generalizing start with
  | nil => simp [latestTime]
  | cons t times ih =>
      have hlater : later start t < bound ↔ start < bound ∧ t < bound := by
        simp only [BitVec.lt_def, later_toNat, Nat.max_lt]
      rw [latestTime, List.foldl_cons, ← latestTime, ih, hlater,
        List.forall_mem_cons, and_assoc]

/-- The updates of one hash. -/
def ownUpdates (log : List Processed) (hash : Hash) : List Processed :=
  log.filter fun p => p.update.ghash = hash

/-- Three months ago. -/
def expiryTime (now : Uint32) : Uint32 := now - Master.maxRecordAge

/-- What the server hides, when it asks for the age of the record at `now`, is
what the master may delete by then, and nothing that was reported or
whitelisted within three months is hidden. -/
def HidesOldOnly (index : TimeIndex) (s : ServerState) (res : Packet)
    (log : List Processed) (hash : Hash) (now : Uint32) : Prop :=
  ∀ db (readings : Readings), Database.processAll ∅ log = some db →
    readings 2 = now.toNat → Hides s db readings hash res →
    (∃ r, (hash, r) ∈ Master.eligible index db 0 (expiryTime now)) ∧
      ∀ p ∈ log, p.update.ghash = hash → p.isCounted = true →
        p.effective < expiryTime now

/-- A hash with one report since it was last erased, first reported or
whitelisted more than three months ago, but erased, reported or whitelisted
within these. -/
def HiddenTooEarly (log : List Processed) (hash : Hash) (now : Uint32) : Prop :=
  let own := ownUpdates log hash
  BitVec.ofNat 32 (ofTally (sinceErase own) .report).length = (1 : Uint32) ∧
    (now.toNat : Int) - (firstEntered own).toNat > 3 * 28 * 86400 ∧
    ((∃ p ∈ lastErase own, expiryTime now ≤ p.now) ∨
      ∃ p ∈ counted own, expiryTime now ≤ p.effective)

/-- What is stored under a hash is what its own updates leave. -/
theorem leaves_processAll {log : List Processed} {db : Database}
    (hdb : Database.processAll ∅ log = some db) (hash : Hash) :
    Leaves (ownUpdates log hash) ((db.lookup hash).getD Record.zero) := by
  obtain ⟨db', hdb', hlookup⟩ := Database.processAll_lookup ∅ log
  rw [hdb, Option.some.injEq] at hdb'
  subst hdb'
  rw [hlookup hash, AList.lookup_empty]
  exact leaves_foldl _

theorem lastTouched_lt_iff {log : List Processed} {bound : Uint32}
    (hpos : 0 < bound) :
    lastTouched log < bound ↔
      (∀ p ∈ lastErase log, p.now < bound) ∧
        ∀ p ∈ counted (sinceErase log), p.effective < bound := by
  rw [lastTouched, latestTime_lt_iff, List.forall_mem_map]
  apply and_congr_left
  intro _
  cases lastErase log with
  | none => simpa using hpos
  | some p => simp

/-- A record that is hidden too early is hidden, and either not expired or
reported or whitelisted lately. -/
theorem HiddenTooEarly.hidesRecent {index : TimeIndex} {s : ServerState}
    {res : Packet} {log : List Processed} {hash : Hash} {now : Uint32}
    (h : HiddenTooEarly log hash now) :
    ¬ HidesOldOnly index s res log hash now := by
  intro honly
  obtain ⟨db, hdb, -⟩ := Database.processAll_lookup ∅ log
  obtain ⟨hreports, hold, hrecent⟩ := h
  have hleaves := leaves_processAll hdb hash
  cases hlookup : db.lookup hash with
  | none =>
      rw [hlookup] at hleaves
      exact absurd (hleaves.reports.trans hreports) (by decide)
  | some r =>
      rw [hlookup, Option.getD_some] at hleaves
      have hhides : Hides s db (fun _ => now.toNat) hash res :=
        (hides_iff s db _ hash res).mpr ⟨r, hlookup,
          hleaves.reports.trans hreports, by rw [hleaves.entered]; exact hold⟩
      obtain ⟨⟨r', hmem⟩, hcounted⟩ := honly db _ hdb rfl hhides
      obtain ⟨hlookup', -, -, hupdated⟩ := Master.mem_eligible.mp hmem
      obtain rfl := Option.some.inj (hlookup.symm.trans hlookup')
      have hpos : 0 < expiryTime now :=
        Nat.lt_of_le_of_lt (Nat.zero_le _) (BitVec.lt_def.mp hupdated)
      rw [show r.updated = _ from hleaves.updated, lastTouched_lt_iff hpos]
        at hupdated
      rcases hrecent with ⟨p, hp, hlate⟩ | ⟨p, hp, hlate⟩
      · exact absurd (hupdated.1 p hp) (BitVec.not_lt.mpr hlate)
      · obtain ⟨hown, hkind⟩ := List.mem_filter.mp hp
        obtain ⟨hlog, hhash⟩ := List.mem_filter.mp hown
        exact absurd (hcounted p hlog (of_decide_eq_true hhash) hkind)
          (BitVec.not_lt.mpr hlate)

/-- Three months ago is later than the epoch if a record is that old. -/
theorem expiryTime_pos {now : Uint32} (hnow : Master.maxRecordAge ≤ now)
    {entered : Nat}
    (hold : (now.toNat : Int) - entered > ServerState.recordAge) :
    0 < expiryTime now := by
  have hage : Master.maxRecordAge.toNat = 3 * 28 * 86400 := by decide
  rw [ServerState.recordAge] at hold
  rw [expiryTime, BitVec.lt_def, BitVec.toNat_sub_of_le hnow, hage]
  change 0 < _
  omega

theorem hidesOldOnly_of_not {index : TimeIndex} {s : ServerState}
    {res : Packet} {log : List Processed} {hash : Hash} {now : Uint32}
    (hnow : Master.maxRecordAge ≤ now)
    (hnot : ¬ HiddenTooEarly log hash now) :
    HidesOldOnly index s res log hash now := by
  intro db readings hdb hreading hhides
  have hleaves := leaves_processAll hdb hash
  obtain ⟨r, hlookup, hone, hold⟩ :=
    (hides_iff s db readings hash res).mp hhides
  rw [hlookup, Option.getD_some] at hleaves
  rw [hleaves.entered, hreading] at hold
  have hlast : (∀ p ∈ lastErase (ownUpdates log hash),
      p.now < expiryTime now) ∧
      ∀ p ∈ counted (ownUpdates log hash), p.effective < expiryTime now := by
    constructor
    · intro p hp
      rw [← BitVec.not_le]
      intro hlate
      exact hnot ⟨hleaves.reports.symm.trans hone, hold, Or.inl ⟨p, hp, hlate⟩⟩
    · intro p hp
      rw [← BitVec.not_le]
      intro hlate
      exact hnot ⟨hleaves.reports.symm.trans hone, hold, Or.inr ⟨p, hp, hlate⟩⟩
  have hupdated : r.updated < expiryTime now := by
    rw [hleaves.updated, lastTouched_lt_iff (expiryTime_pos hnow hold)]
    refine ⟨hlast.1, ?_⟩
    intro p hp
    obtain ⟨hsince, hkind⟩ := List.mem_filter.mp hp
    exact hlast.2 p (List.mem_filter.mpr ⟨mem_of_mem_sinceErase hsince, hkind⟩)
  refine ⟨⟨r, Master.mem_eligible.mpr ⟨hlookup, ?_, Nat.zero_le _,
    hupdated⟩⟩, ?_⟩
  · rw [Record.reportedOnce, hone]
    decide
  · intro p hlog hhash hkind
    apply hlast.2
    exact List.mem_filter.mpr
      ⟨List.mem_filter.mpr ⟨hlog, decide_eq_true hhash⟩, hkind⟩

/-- The rule of the server keeps to the rule of the master except for the
records that are hidden too early. -/
theorem hidesOldOnly_iff {index : TimeIndex} {s : ServerState} {res : Packet}
    {log : List Processed} {hash : Hash} {now : Uint32}
    (hnow : Master.maxRecordAge ≤ now) :
    HidesOldOnly index s res log hash now ↔ ¬ HiddenTooEarly log hash now :=
  ⟨fun honly hearly => hearly.hidesRecent honly,
    hidesOldOnly_of_not hnow⟩

/-- A digest that was reported long ago, erased, and has just
been reported again. -/
def reportedAgain : List Processed :=
  let hash : Hash := ⟨Vector.replicate 20 1⟩
  [⟨Update.make hash .report 1000, 1000⟩,
    ⟨Update.make hash .erase 10000000, 10000000⟩,
    ⟨Update.make hash .report 10000001, 10000001⟩]

def startedServer : ServerState :=
  let ring := StatisticsRing.create 300 1000
  { request_statistics_ := ring, check_statistics_ := ring
    hit_statistics_ := ring, report_statistics_ := ring
    whitelist_statistics_ := ring, admin_addresses_ := [] }

theorem hidesOldOnly_iff_reportedAgain :
    HidesOldOnly .stable startedServer .empty reportedAgain
        ⟨Vector.replicate 20 1⟩ 10000100 ↔
      ¬ HiddenTooEarly reportedAgain ⟨Vector.replicate 20 1⟩ 10000100 :=
  hidesOldOnly_iff (by decide)

theorem not_hidesOldOnly :
    ¬ ∀ (index : TimeIndex) (s : ServerState) (res : Packet)
      (log : List Processed) (hash : Hash) (now : Uint32),
        Master.maxRecordAge ≤ now →
          HidesOldOnly index s res log hash now := by
  intro h
  have hruns : (Database.processAll ∅ reportedAgain).any (fun db =>
      (db.lookup ⟨Vector.replicate 20 1⟩).any fun r =>
        r.count .report = 1 ∧
          ((10000100 : Uint32).toNat : Int) - r.entered.toNat >
            ServerState.recordAge ∧
          expiryTime 10000100 ≤ r.updated) = true := by decide +kernel
  obtain ⟨db, hdb, hrecord⟩ := (Option.any_eq_true _ _).mp hruns
  obtain ⟨r, hlookup, hr⟩ := (Option.any_eq_true _ _).mp hrecord
  obtain ⟨hone, hold, hlate⟩ := of_decide_eq_true hr
  have hhides : Hides startedServer db
      (fun _ => (10000100 : Uint32).toNat) ⟨Vector.replicate 20 1⟩ .empty :=
    (hides_iff _ _ _ _ _).mpr ⟨r, hlookup, hone, hold⟩
  obtain ⟨⟨r', hmem⟩, -⟩ := h .stable startedServer .empty reportedAgain _ _
    (by decide) db _ hdb rfl hhides
  obtain ⟨hlookup', -, -, hupdated⟩ := Master.mem_eligible.mp hmem
  obtain rfl := Option.some.inj (hlookup.symm.trans hlookup')
  exact absurd hupdated (BitVec.not_lt.mpr hlate)

end BohunoPyzord
