/-
The master's expiry over whole histories of ticks, restarts and updates
processed between them.  What is deleted is in the database, where the next
tick starts is in `expire_status`, and a tick that could not delete a record
goes on behind it all the same.
-/
import BohunoPyzord.Expire
import BohunoPyzord.StepSystem

namespace BohunoPyzord

namespace Master

/-- Where a tick that reads all of `expire_status` starts. -/
def resumePoint (status : Option (List Byte)) : Uint32 :=
  readWord (status.getD [])

/-- A tick that is over: the database and the resume point it began with, from
when it checked, and the value it wrote to `expire_status`. -/
structure LastTick where
  before : Database
  resume : Uint32
  updatedFrom : Option Uint32
  wrote : Option Uint32

/-- The master between two ticks.  `scheduled` is whether the next one is due
some time, `lastTick` the tick that has just ended, and `left` holds the
records that were counted as deleted and are still stored as they were. -/
structure ExpireRun where
  stored : Database
  status : Option (List Byte)
  scheduled : Bool
  lastTick : Option LastTick
  left : Dump

/-- The master is started, a tick runs, or a session passes on an update. -/
inductive ExpireEvent where
  | start
  | tick (calls : ExpireTickCalls) (now : Uint32)
  | process (calls : DbCalls) (p : Processed)

namespace ExpireRun

/-- What of some records is stored. -/
def stillIn (stored : Database) (records : Dump) : Dump :=
  records.filter fun p => stored.lookup p.1 = some p.2

def tick (index : TimeIndex) (s : ExpireRun) (calls : ExpireTickCalls)
    (now : Uint32) : ExpireRun :=
  match handleExpire index calls now s.stored s.status with
  | none => { s with scheduled := false, lastTick := none }
  | some tick =>
      { stored := tick.stored
        status := tick.status
        scheduled := tick.scheduled.isSome
        lastTick := some { before := s.stored
                           resume := resumePoint s.status
                           updatedFrom := updatedFrom calls s.status
                           wrote := tick.wrote.map readWord }
        left := stillIn tick.stored
          (s.left ++ tickCounted index calls now s.stored s.status) }

/-- An exception leaves the database as it was. -/
def process (s : ExpireRun) (calls : DbCalls) (p : Processed) : ExpireRun :=
  let stored := (s.stored.processUpdate calls p.update p.now).getD s.stored
  { s with stored, lastTick := none, left := stillIn stored s.left }

def step (index : TimeIndex) (s : ExpireRun) :
    ExpireEvent → Option ExpireRun
  | .start => some { s with scheduled := true, lastTick := none }
  | .tick calls now =>
      if s.scheduled then some (s.tick index calls now) else none
  | .process calls p => some (s.process calls p)

/-- The last tick has not written a value past a record that it should have
deleted and did not. -/
def Deleted (s : ExpireRun) (t : LastTick) : Prop :=
  ∀ v ∈ t.wrote, ∀ start ∈ t.updatedFrom, ∀ hash r,
    t.before.lookup hash = some r → r.reportedOnce = true →
      start ≤ r.updated → r.updated < v → s.stored.lookup hash = none

/-- The resume point has not passed a record that was counted as deleted and
is still stored. -/
def NotPassed (s : ExpireRun) (t : LastTick) : Prop :=
  ∀ p ∈ s.left, t.resume ≤ p.2.updated → resumePoint s.status ≤ p.2.updated

/-- The last tick, if one has just ended, did neither. -/
def Resumed (s : ExpireRun) : Prop :=
  ∀ t ∈ s.lastTick, s.Deleted t ∧ s.NotPassed t

/-- A tick that opens `expire_status` for writing commits, and deletes every
record it counts that is older than what it writes there. -/
def KeepsPace (index : TimeIndex) (s : ExpireRun) : ExpireEvent → Prop
  | .tick calls now =>
      let records := tickCounted index calls now s.stored s.status
      calls.openWrite = true → ∀ last ∈ records.getLast?, ∀ i p,
        records[i]? = some p →
          p.2.updated <
            readWord ((wordBytes last.2.updated).take calls.writtenBytes) →
          calls.expire.del i = true ∧ calls.expire.commit = true
  | _ => True

end ExpireRun

/-- The master over any database and any `expire_status`. -/
def expireSystem (index : TimeIndex) (stored : Database)
    (status : Option (List Byte)) : StepSystem ExpireRun ExpireEvent where
  init := { stored, status, scheduled := false, lastTick := none, left := [] }
  step := ExpireRun.step index

/-- A value of which not all bytes are there is read as no greater one. -/
theorem readWord_take_le (bytes : List Byte) (n : Nat) :
    readWord (bytes.take n) ≤ readWord bytes := by
  have hbyte : ∀ k, ((bytes.take n).getD k 0).toNat ≤
      (bytes.getD k 0).toNat := by
    intro k
    rw [List.getD_eq_getElem?_getD, List.getD_eq_getElem?_getD,
      List.getElem?_take]
    split_ifs
    · exact Nat.le_refl _
    · exact Nat.zero_le _
  have h0 := hbyte 0
  have h1 := hbyte 1
  have h2 := hbyte 2
  have h3 := hbyte 3
  rw [BitVec.le_def, readWord, readWord, wordAt, wordAt, wordOfBytes_toNat,
    wordOfBytes_toNat]
  simp only [Nat.zero_add]
  omega

@[simp] theorem readWord_wordBytes (v : Uint32) :
    readWord (wordBytes v) = v :=
  wordOfBytes_byteAt v

theorem updatedFrom_le_resumePoint {calls : ExpireTickCalls}
    {status : Option (List Byte)} {v : Uint32}
    (h : updatedFrom calls status = some v) : v ≤ resumePoint status := by
  unfold updatedFrom at h
  cases status with
  | none =>
      rw [← Option.some.inj h]
      exact Nat.zero_le _
  | some bytes =>
      by_cases hopen : calls.openRead = true
      · simp only [if_pos hopen, Option.some.injEq] at h
        rw [← h]
        exact readWord_take_le bytes _
      · simp only [if_neg hopen] at h
        cases h

namespace ExpireRun

variable {index : TimeIndex} {s s' : ExpireRun}

theorem mem_stillIn {stored : Database} {records : Dump}
    {p : Hash × Record} :
    p ∈ stillIn stored records ↔
      p ∈ records ∧ stored.lookup p.1 = some p.2 := by
  rw [stillIn, List.mem_filter, decide_eq_true_eq]

/-- Everything that is left was counted. -/
def LeftCounted (s : ExpireRun) : Prop :=
  ∀ p ∈ s.left, s.stored.lookup p.1 = some p.2 ∧ p.2.reportedOnce = true

def Inv (s : ExpireRun) : Prop := s.Resumed ∧ s.LeftCounted

section Tick

variable {calls : ExpireTickCalls} {now : Uint32} {stored : Database}
  {status : Option (List Byte)} {tick : ExpireTick}

/-- What a tick writes is the time of a record it counts, or less. -/
theorem wrote_le {records : Dump}
    (h : Ticked calls stored status records tick) {v : Uint32}
    (hv : v ∈ tick.wrote.map readWord) :
    calls.openWrite = true ∧ ∃ last, records.getLast? = some last ∧
      v = readWord ((wordBytes last.2.updated).take calls.writtenBytes) ∧
      v ≤ last.2.updated := by
  rw [h.wrote] at hv
  split_ifs at hv with hopen
  · rcases hlast : records.getLast? with - | last
    · rw [hlast] at hv
      cases hv
    · rw [hlast] at hv
      have hvalue := (Option.some.inj hv).symm
      refine ⟨hopen, last, rfl, hvalue, ?_⟩
      have hle := readWord_take_le (wordBytes last.2.updated)
        calls.writtenBytes
      rw [readWord_wordBytes] at hle
      rwa [hvalue]
  · cases hv

/-- A tick that keeps pace deletes everything it should have before what it
writes. -/
theorem deleted_of_keepsPace
    (h : Ticked calls s.stored s.status
      (tickCounted index calls now s.stored s.status) tick)
    (hguard : s.KeepsPace index (.tick calls now)) {v start : Uint32}
    (hv : v ∈ tick.wrote.map readWord)
    (hstart : updatedFrom calls s.status = some start) {p : Hash × Record}
    (hlookup : s.stored.lookup p.1 = some p.2)
    (honce : p.2.reportedOnce = true) (hfrom : start ≤ p.2.updated)
    (hlt : p.2.updated < v) : tick.stored.lookup p.1 = none := by
  obtain ⟨hopen, last, hlast, hvalue, hle⟩ := wrote_le h hv
  have hmem := mem_tickCounted_of_lt (List.mem_of_getLast? hlast) hstart
    hlookup honce hfrom (Nat.lt_of_lt_of_le hlt hle)
  obtain ⟨i, hi⟩ := List.mem_iff_getElem?.mp hmem
  have hcalls := hguard hopen last hlast i p hi (hvalue ▸ hlt)
  exact h.expired.gone p.1
    ((mem_deletions_getElem nodup_tickCounted hi).mpr hcalls.1) hcalls.2

end Tick

theorem inv_init (stored : Database) (status : Option (List Byte)) :
    (expireSystem index stored status).init.Inv := by
  constructor
  · intro t ht
    cases ht
  · intro p hp
    cases hp

/-- Whatever is stored after a tick that keeps pace, the resume point has not
passed it if it was stored and reported at most once before. -/
theorem notPassed_of_keepsPace {calls : ExpireTickCalls} {now : Uint32}
    {tick : ExpireTick}
    (h : Ticked calls s.stored s.status
      (tickCounted index calls now s.stored s.status) tick)
    (hguard : s.KeepsPace index (.tick calls now)) {p : Hash × Record}
    (hlookup : s.stored.lookup p.1 = some p.2)
    (honce : p.2.reportedOnce = true)
    (hstill : tick.stored.lookup p.1 = some p.2)
    (hresume : resumePoint s.status ≤ p.2.updated) :
    resumePoint tick.status ≤ p.2.updated := by
  rw [h.status]
  rcases hwrote : tick.wrote with - | bytes
  · exact hresume
  · have hv : readWord bytes ∈ tick.wrote.map readWord := by
      rw [hwrote]
      rfl
    obtain ⟨-, last, hlast, -⟩ := wrote_le h hv
    obtain ⟨-, -, start, hstart, -⟩ :=
      mem_tickCounted (List.mem_of_getLast? hlast)
    have hfrom := Nat.le_trans (updatedFrom_le_resumePoint hstart) hresume
    by_contra hpast
    have hlt : p.2.updated < readWord bytes := BitVec.not_le.mp hpast
    have hgone := deleted_of_keepsPace h hguard hv hstart hlookup honce hfrom
      hlt
    rw [hstill] at hgone
    cases hgone

/-- What is left after a step was left before it or is counted in it. -/
theorem leftCounted_stillIn {s : ExpireRun} {records : Dump}
    (hleft : s.left = stillIn s.stored records)
    (honce : ∀ p ∈ records, p.2.reportedOnce = true) : s.LeftCounted := by
  intro p hp
  rw [hleft] at hp
  have hmem := mem_stillIn.mp hp
  exact ⟨hmem.2, honce p hmem.1⟩

/-- A tick that keeps pace preserves the invariant. -/
theorem inv_tick {calls : ExpireTickCalls} {now : Uint32} (hs : s.Inv)
    (hguard : s.KeepsPace index (.tick calls now)) :
    (s.tick index calls now).Inv := by
  rw [tick]
  rcases htick : handleExpire index calls now s.stored s.status with - | tick
  · constructor
    · intro t ht
      cases ht
    · exact hs.2
  · have h := handleExpire_eq_some htick
    have hstored : ∀ p ∈ s.left ++ tickCounted index calls now s.stored
        s.status, s.stored.lookup p.1 = some p.2 ∧
          p.2.reportedOnce = true := by
      intro p hp
      rcases List.mem_append.mp hp with hold | hnew
      · exact hs.2 p hold
      · have hcounted := mem_tickCounted hnew
        exact ⟨hcounted.1, hcounted.2.1⟩
    constructor
    · intro t ht
      rw [← Option.some.inj ht]
      constructor
      · intro v hv start hstart hash r hlookup honce hfrom hlt
        exact deleted_of_keepsPace h hguard hv hstart (p := (hash, r))
          hlookup honce hfrom hlt
      · intro p hp hresume
        obtain ⟨hmem, hstill⟩ := mem_stillIn.mp hp
        obtain ⟨hlookup, honce⟩ := hstored p hmem
        exact notPassed_of_keepsPace h hguard hlookup honce hstill hresume
    · exact leftCounted_stillIn rfl fun p hp => (hstored p hp).2

theorem inv_step (stored : Database) (status : Option (List Byte)) :
    (expireSystem index stored status).Preserves Inv (KeepsPace index) := by
  intro s s' event hs hguard hstep
  cases event with
  | start =>
      obtain rfl := Option.some.inj hstep
      constructor
      · intro t ht
        cases ht
      · exact hs.2
  | tick calls now =>
      change (if s.scheduled then some (s.tick index calls now) else none) =
        some s' at hstep
      split_ifs at hstep
      rw [← Option.some.inj hstep]
      exact inv_tick hs hguard
  | process calls p =>
      obtain rfl := Option.some.inj hstep
      constructor
      · intro t ht
        cases ht
      · exact leftCounted_stillIn rfl fun p hp => (hs.2 p hp).2

/-- A tick that falls behind has written past a record that it should have
deleted. -/
theorem not_resumed_of_behind {event : ExpireEvent}
    (hstep : s.step index event = some s')
    (hbehind : ¬ s.KeepsPace index event) : ¬ s'.Resumed := by
  intro hresumed
  apply hbehind
  cases event with
  | start => trivial
  | process calls p => trivial
  | tick calls now =>
      change (if s.scheduled then some (s.tick index calls now) else none) =
        some s' at hstep
      split_ifs at hstep
      intro hopen last hlast i p hi hlt
      rw [← Option.some.inj hstep, tick] at hresumed
      rcases htick : handleExpire index calls now s.stored s.status with
        - | tick
      · rw [tickCounted_eq_nil htick] at hi
        cases hi
      · rw [htick] at hresumed
        have h := handleExpire_eq_some htick
        obtain ⟨hlookup, honce, start, hstart, hfrom⟩ :=
          mem_tickCounted (List.mem_of_getElem? hi)
        have hwrote : tick.wrote.map readWord = some (readWord
            ((wordBytes last.2.updated).take calls.writtenBytes)) := by
          rw [h.wrote, if_pos hopen, Option.mem_def.mp hlast]
          rfl
        have hgone := (hresumed _ rfl).1 _ hwrote start hstart p.1 p.2 hlookup
          honce hfrom hlt
        by_contra hcalls
        have hkept := h.expired.kept p.1 fun hdeleted => hcalls
          ⟨(mem_deletions_getElem nodup_tickCounted hi).mp hdeleted.2,
            hdeleted.1⟩
        rw [hgone, hlookup] at hkept
        cases hkept

end ExpireRun

end Master

/-- From any database and any `expire_status`, the runs in which no tick
writes a value past a record that it should have deleted and did not, and the
resume point passes no record that was counted as deleted and is still stored,
are exactly the runs in which every tick keeps pace. -/
theorem expire_resumed_iff (index : TimeIndex) (stored : Database)
    (status : Option (List Byte)) (events : List Master.ExpireEvent) :
    (Master.expireSystem index stored status).Always
        Master.ExpireRun.Resumed events ↔
      (Master.expireSystem index stored status).Each
        (Master.ExpireRun.KeepsPace index) events :=
  (Master.expireSystem index stored status).always_iff_each
    (Master.ExpireRun.inv_init stored status)
    (Master.ExpireRun.inv_step stored status) (fun _ h => h.1)
    (fun _ hstep hbehind =>
      Master.ExpireRun.not_resumed_of_behind hstep hbehind) events

/-- Two records that were reported once, a second apart. -/
def reportedOnceTwice : Database :=
  AList.insert ⟨Vector.replicate 20 1⟩
    (Record.zero.report 1100000000 1100000000)
    (AList.insert ⟨Vector.replicate 20 2⟩
      (Record.zero.report 1100000001 1100000001) ∅)

/-- In the first tick every call succeeds but `commit`. -/
def commitFails : List Master.ExpireEvent :=
  [.start,
    .tick { existsReturns := true, openRead := true, readBytes := 4
            expire := { txnBegin := true, cursor := true, gets := 2
                        del := fun _ => true, commit := false }
            openWrite := true, writtenBytes := 4 } 1200000000]

theorem expire_not_always_resumed :
    ¬ ∀ index stored status events,
      (Master.expireSystem index stored status).Always
        Master.ExpireRun.Resumed events := by
  intro h
  let M := Master.expireSystem TimeIndex.stable reportedOnceTwice none
  let first : Hash := ⟨Vector.replicate 20 1⟩
  let r := Record.zero.report 1100000000 1100000000
  have hends : (M.run commitFails).any (fun s =>
      s.lastTick.any (fun t => t.before.lookup first = some r ∧
        t.updatedFrom = some 0 ∧ t.wrote = some 1100000001) ∧
        s.stored.lookup first = some r) = true := by
    decide +kernel
  obtain ⟨s, hrun, hleft⟩ := (Option.any_eq_true _ _).mp hends
  obtain ⟨htick, hstored⟩ := of_decide_eq_true hleft
  obtain ⟨t, hlast, ht⟩ := (Option.any_eq_true _ _).mp htick
  obtain ⟨hbefore, hstart, hwrote⟩ := of_decide_eq_true ht
  have halways := h TimeIndex.stable reportedOnceTwice none commitFails
  have hresumed := M.alwaysFrom_iff.mp halways commitFails s
    List.prefix_rfl hrun
  have hgone := (hresumed t hlast).1 1100000001 hwrote 0 hstart first r
    hbefore (by decide) (by decide) (by decide)
  rw [hstored] at hgone
  cases hgone

end BohunoPyzord
