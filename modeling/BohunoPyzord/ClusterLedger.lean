/-
Where the updates are that were passed to the slaves.  Each of them is written
at the master, was refused by a call on its database, or is on its way: still
queued, or handed to a connection and not read from it.
-/
import BohunoPyzord.Cluster
import Mathlib.Data.List.TakeWhile

namespace BohunoPyzord

/-- What was handed to the connection and has not been processed. -/
def MasterSession.unread (session : MasterSession) : List Update :=
  session.stream.sent.drop session.stream.received.length

namespace Transport

/-- The front of the queue is processed already while the handler of its write
waits. -/
def ahead (t : Transport) : Nat :=
  match t.sessions with
  | session :: _ =>
      session.stream.received.length - session.stream.sent.length
  | [] => 0

/-- What is on its way: handed to a connection, or queued. -/
def onItsWay (t : Transport) : List Update :=
  t.sessions.reverse.flatMap MasterSession.unread ++
    t.slave.slave.update_queue_.drop t.ahead

/-- A connection that has read no more than it was handed. -/
theorem received_append_unread {session : MasterSession}
    (h : session.stream.received <+: session.stream.sent) :
    session.stream.received ++ session.unread = session.stream.sent := by
  obtain ⟨rest, hrest⟩ := h
  rw [MasterSession.unread, ← hrest, List.drop_left]

open scoped List in
/-- Connections that have read no more than they were handed. -/
theorem received_perm_sent {sessions : List MasterSession}
    (h : ∀ session ∈ sessions,
      session.stream.received <+: session.stream.sent) :
    (sessions.flatMap receivedOf ++
      sessions.flatMap MasterSession.unread).Perm
        (sessions.flatMap fun session => session.stream.sent) := by
  refine (List.flatMap_append_perm _ _ _).trans (List.Perm.of_eq ?_)
  rw [List.flatMap_def, List.flatMap_def]
  refine congrArg List.flatten (List.map_congr_left fun session hsession => ?_)
  exact received_append_unread (h session hsession)

open scoped List in
theorem append_append_perm {α : Type} (a b c d rest : List α) :
    (a ++ b ++ (c ++ d ++ rest)).Perm (a ++ c ++ (b ++ d ++ rest)) := by
  simp only [List.append_assoc]
  exact (List.perm_append_comm_assoc b c (d ++ rest)).append_left a

open scoped List in
/-- Every update that was passed to a slave is processed or on its way. -/
theorem Inv.passed_perm {t : Transport} (h : t.Inv) :
    (t.processed ++ t.onItsWay).Perm t.slave.passed := by
  have hpassed : t.handed ++ t.slave.slave.update_queue_ = t.slave.passed :=
    (congrArg (· ++ _) h.handed).trans h.slave.queue.accepted
  rw [← hpassed, processed, Transport.handed, onItsWay]
  rcases hsessions : t.sessions with - | ⟨session, earlier⟩
  · rw [ahead, hsessions]
    rfl
  · have hearlier : ∀ other ∈ earlier.reverse,
        other.stream.received <+: other.stream.sent := by
      intro other hother
      obtain ⟨k, hk⟩ := List.getElem?_of_mem (List.mem_reverse.mp hother)
      have hk' : t.sessions[k + 1]? = some other := by rw [hsessions]; exact hk
      exact (h.received hk').resolve_right
        fun hzero => Nat.succ_ne_zero k hzero.1
    have hfirst := received_perm_sent hearlier
    have hk : t.sessions[0]? = some session := by rw [hsessions]; rfl
    have hlast : session.stream.received ++ session.unread ++
        t.slave.slave.update_queue_.drop t.ahead =
          session.stream.sent ++ t.slave.slave.update_queue_ := by
      rw [ahead, hsessions]
      dsimp only
      rcases h.received hk with hsent | ⟨-, u, rest, hqueue, hboth⟩
      · rw [received_append_unread hsent,
          Nat.sub_eq_zero_of_le hsent.length_le, List.drop_zero]
      · have hunread : session.unread = [] := by
          rw [MasterSession.unread, hboth, List.length_append]
          exact List.drop_eq_nil_of_le (Nat.le_add_right _ _)
        rw [hunread, hboth, hqueue, List.append_nil, List.length_append,
          Nat.add_sub_cancel_left, List.append_assoc]
        rfl
    simp only [List.reverse_cons, List.flatMap_append, List.flatMap_singleton]
    refine (append_append_perm _ _ _ _ _).trans
      ((hfirst.append_right _).trans (List.Perm.of_eq ?_))
    rw [hlast, ← List.append_assoc]

end Transport

/-- A cluster with the updates that a call on the database refused and the
hashes that have expired so far. -/
structure ClusterLedger where
  cluster : Cluster
  refused : List Update
  expired : List Hash

namespace ClusterLedger

/-- What an event of the cluster enters. -/
def enter (index : TimeIndex) (s : ClusterLedger) :
    ClusterEvent → ClusterLedger
  | .transport k event calls _ =>
      let read := (s.cluster.slaves[k]?).bind fun t => t.updateRead event
      if calls = .succeed then s
      else { s with refused := s.refused ++ read.toList }
  | .handleExpire calls now =>
      let deleted := Master.deletions calls.expire.del 0
        (Master.tickCounted index calls now s.cluster.stored s.cluster.status)
      if calls.expire.commit then { s with expired := s.expired ++ deleted }
      else s

def step (index : TimeIndex) (s : ClusterLedger) (event : ClusterEvent) :
    Option ClusterLedger :=
  (s.cluster.step index event).map fun cluster =>
    { (s.enter index event) with cluster }

end ClusterLedger

def clusterLedgerSystem (index : TimeIndex) (slaves : Nat) :
    StepSystem ClusterLedger ClusterEvent where
  init := { cluster := (clusterSystem index slaves).init
            refused := [], expired := [] }
  step := ClusterLedger.step index

namespace ClusterLedger

/-- How many updates of a type there are for a hash. -/
def count (updates : List Update) (h : Hash) (type : UpdateType) : Nat :=
  updates.countP fun u => u.ghash = h ∧ u.type = some type

def onItsWay (s : ClusterLedger) : List Update :=
  s.cluster.slaves.flatMap Transport.onItsWay

/-- Every update that was passed to a slave is written, refused or on its way.
A record that has not expired is what all the updates written for its hash add
up to; without an erase its counts are those that were passed, less what was
refused and what is on its way. -/
structure Balances (s : ClusterLedger) : Prop where
  passed : (s.cluster.log.map Processed.update ++ s.refused ++
    s.onItsWay).Perm (s.cluster.slaves.flatMap fun t => t.slave.passed)
  stored : ∀ h ∉ s.expired, s.cluster.stored.lookup h =
    (ownUpdates s.cluster.log h).foldl
      (KeyedFold.stepValue Processed.rewritten) none
  counts : ∀ h ∉ s.expired, s.cluster.passed h .erase = 0 → ∀ tally,
    ((s.cluster.stored.lookup h).getD Record.zero).count tally +
        BitVec.ofNat 32 (count s.refused h tally.updateType +
          count s.onItsWay h tally.updateType) =
      BitVec.ofNat 32 (s.cluster.passed h tally.updateType)

structure Inv (s : ClusterLedger) : Prop where
  slaves : ∀ t ∈ s.cluster.slaves, t.Inv
  processed : (s.cluster.log.map Processed.update ++ s.refused).Perm
    (s.cluster.slaves.flatMap Transport.processed)
  stored : ∀ h ∉ s.expired, s.cluster.stored.lookup h =
    (ownUpdates s.cluster.log h).foldl
      (KeyedFold.stepValue Processed.rewritten) none

variable {index : TimeIndex} {s s' : ClusterLedger}

theorem inv_init (slaves : Nat) :
    (clusterLedgerSystem index slaves).init.Inv where
  slaves t ht := by
    have hinit : (clusterSystem index slaves).init.Inv :=
      Cluster.inv_init slaves
    exact hinit.slaves t ht
  processed := by
    have hnone : (List.replicate slaves transportSystem.init).flatMap
        Transport.processed = [] := by
      rw [List.flatMap_eq_nil_iff]
      intro t ht
      rw [List.eq_of_mem_replicate ht]
      rfl
    exact List.Perm.of_eq hnone.symm
  stored _ _ := rfl

/-- Nothing is entered where no update is read. -/
theorem enter_of_none {k : Nat} {event : TransportEvent} {calls : DbCalls}
    {now : Uint32} {t : Transport} (hk : s.cluster.slaves[k]? = some t)
    (hread : t.updateRead event = none) :
    s.enter index (.transport k event calls now) = s := by
  rw [enter, hk, Option.bind_some, hread]
  split_ifs
  · rfl
  · rw [Option.toList_none, List.append_nil]

theorem enter_of_some {k : Nat} {event : TransportEvent} {calls : DbCalls}
    {now : Uint32} {t : Transport} {update : Update}
    (hk : s.cluster.slaves[k]? = some t)
    (hread : t.updateRead event = some update) :
    s.enter index (.transport k event calls now) =
      if calls = .succeed then s
      else { s with refused := s.refused ++ [update] } := by
  rw [enter, hk, Option.bind_some, hread]
  rfl

theorem inv_transport {k : Nat} {event : TransportEvent} {calls : DbCalls}
    {now : Uint32} {cluster : Cluster} (hs : s.Inv)
    (hstep : s.cluster.step index (.transport k event calls now) =
      some cluster) :
    Inv { (s.enter index (.transport k event calls now)) with cluster } := by
  obtain ⟨t, t', hk, ht', hcases⟩ := Cluster.transport_cases hstep
  obtain ⟨hslaves, hprocessed⟩ := Cluster.slaves_set hs.slaves hk ht'
  rcases hcases with ⟨hread, rfl⟩ | ⟨update, hread, hprocess⟩
  · rw [enter_of_none hk hread]
    rw [hread] at hprocessed
    exact ⟨hslaves, hs.processed.trans hprocessed, hs.stored⟩
  · rw [enter_of_some hk hread]
    rw [hread] at hprocessed
    have hmore := (hs.processed.cons update).trans hprocessed
    obtain ⟨hsame, -, ⟨hcalls, hlog, hlookup⟩ | ⟨hcalls, hlog, hkept⟩⟩ :=
      Cluster.process_cases hprocess
    · rw [if_pos hcalls]
      refine ⟨hsame ▸ hslaves, ?_, fun h hh => ?_⟩
      · rw [hlog, hsame, List.map_append, List.append_assoc]
        exact List.perm_middle.trans hmore
      · rw [hlog, hlookup h, Cluster.ownUpdates_append]
        change h ∉ s.expired at hh
        change (if update.ghash = h then _ else s.cluster.stored.lookup h) = _
        rw [hs.stored h hh]
        split_ifs
        · rw [List.foldl_append]
          rfl
        · rfl
    · rw [if_neg hcalls]
      refine ⟨hsame ▸ hslaves, ?_, ?_⟩
      · rw [hlog, hsame, ← List.append_assoc]
        exact (List.perm_append_singleton _ _).trans hmore
      · rw [hlog, hkept]
        exact hs.stored

theorem inv_handleExpire {calls : Master.ExpireTickCalls} {now : Uint32}
    {cluster : Cluster} (hs : s.Inv)
    (hstep : s.cluster.step index (.handleExpire calls now) = some cluster) :
    Inv { (s.enter index (.handleExpire calls now)) with cluster } := by
  obtain ⟨tick, htick, rfl⟩ := Option.map_eq_some_iff.mp hstep
  have hexpired := (Master.handleExpire_eq_some htick).expired
  rw [enter]
  dsimp only
  split_ifs with hcommit
  · refine ⟨hs.slaves, hs.processed, fun h hh => ?_⟩
    have hold : h ∉ s.expired := fun hmem =>
      hh (List.mem_append_left _ hmem)
    refine (hexpired.kept h fun hgone => ?_).trans (hs.stored h hold)
    exact hh (List.mem_append_right _ hgone.2)
  · refine ⟨hs.slaves, hs.processed, fun h hh => ?_⟩
    exact (hexpired.kept h fun hgone => hcommit hgone.1).trans
      (hs.stored h hh)

theorem inv_step (slaves : Nat) :
    (clusterLedgerSystem index slaves).Preserves Inv fun _ _ => True := by
  intro s s' event hs _ hstep
  obtain ⟨cluster, hcluster, rfl⟩ := Option.map_eq_some_iff.mp hstep
  cases event with
  | transport k event calls now => exact inv_transport hs hcluster
  | handleExpire calls now => exact inv_handleExpire hs hcluster

/-- Where no update is an erase, all of them are since the last one. -/
theorem sinceErase_of_none {log : List Processed}
    (h : ∀ p ∈ log, p.isType .erase = false) : sinceErase log = log := by
  rw [sinceErase, List.takeWhile_eq_self_iff.mpr, List.reverse_reverse]
  intro p hp
  rw [h p (List.mem_reverse.mp hp)]
  rfl

open scoped List in
theorem Inv.passed (hs : s.Inv) :
    (s.cluster.log.map Processed.update ++ s.refused ++
      s.onItsWay).Perm
        (s.cluster.slaves.flatMap fun t => t.slave.passed) := by
  calc s.cluster.log.map Processed.update ++ s.refused ++ s.onItsWay
    _ ~ s.cluster.slaves.flatMap Transport.processed ++
          s.cluster.slaves.flatMap Transport.onItsWay :=
      hs.processed.append_right _
    _ ~ s.cluster.slaves.flatMap fun t => t.processed ++ t.onItsWay :=
      List.flatMap_append_perm _ _ _
    _ ~ s.cluster.slaves.flatMap fun t => t.slave.passed :=
      List.Perm.flatMap_left _ fun t ht => (hs.slaves t ht).passed_perm

/-- What was passed for a hash, by where it is. -/
theorem Inv.count_passed (hs : s.Inv) (h : Hash) (type : UpdateType) :
    count (s.cluster.log.map Processed.update) h type +
        (count s.refused h type + count s.onItsWay h type) =
      s.cluster.passed h type := by
  rw [Cluster.passed, ← hs.passed.countP_eq, List.countP_append,
    List.countP_append, Nat.add_assoc]
  rfl

theorem Inv.counts (hs : s.Inv) {h : Hash} (hkept : h ∉ s.expired)
    (herase : s.cluster.passed h .erase = 0) (tally : Tally) :
    ((s.cluster.stored.lookup h).getD Record.zero).count tally +
        BitVec.ofNat 32 (count s.refused h tally.updateType +
          count s.onItsWay h tally.updateType) =
      BitVec.ofNat 32 (s.cluster.passed h tally.updateType) := by
  have hnone : ∀ p ∈ ownUpdates s.cluster.log h, p.isType .erase = false := by
    intro p hp
    obtain ⟨hlog, hhash⟩ := List.mem_filter.mp hp
    have hzero : count (s.cluster.log.map Processed.update) h .erase = 0 := by
      have htotal := hs.count_passed h .erase
      omega
    have hnot := List.countP_eq_zero.mp hzero p.update
      (List.mem_map_of_mem hlog)
    rw [decide_eq_true_eq, not_and] at hnot
    exact decide_eq_false (hnot (of_decide_eq_true hhash))
  have hcount := count_foldl (ownUpdates s.cluster.log h) tally
  rw [sinceErase_of_none hnone, Cluster.countP_ownUpdates,
    ← hs.stored h hkept] at hcount
  rw [hcount, ← hs.count_passed h tally.updateType]
  exact (BitVec.ofNat_add _ _).symm

/-- In every run, whatever breaks and whatever call fails, every update that
was passed to a slave is accounted for. -/
theorem always_balances (index : TimeIndex) (slaves : Nat)
    (events : List ClusterEvent) :
    (clusterLedgerSystem index slaves).Always Balances events :=
  StepSystem.always_of_invariant _ (inv_init slaves) (inv_step slaves)
    (fun _ hs => ⟨hs.passed, hs.stored, fun _ => hs.counts⟩) events

end ClusterLedger

end BohunoPyzord
